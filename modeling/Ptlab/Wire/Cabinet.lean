/-
A watch that follows what its clients rely on: it takes whatever it has begun, in any
order, and keeps both families apart. Its commits take effect behind the next reading
of `family_state_status`, which still says that they wait.
-/
import Ptlab.Wire.Family

set_option autoImplicit false

open Bytes Dialogue Effect Register Ptlab.Gatt Ptlab.Protocol

namespace Ptlab.Wire

/-- What a digest can say of a set. -/
def Contents.Fits (contents : Contents) : Prop :=
  contents.records.length < 256 ∧ contents.version < 2 ^ 32

/-- It can say all that there is, and all that may come of what is being written. -/
structure Drawer.Fits (d : Drawer) : Prop where
  shows : ∀ contents ∈ d.sets.shows, contents.Fits
  landed : ∀ contents ∈ d.sets.landed, contents.Fits
  sync : ∀ sync, d.sync = some sync → sync.count < 256 ∧ sync.version < 2 ^ 32

/-- Two drawers, and the family of the last commit. -/
structure Cabinet where
  drawers : Drawers
  fits : ∀ f, (drawers f).Fits
  last : Option Family

/-- What a characteristic is to a family. -/
inductive Role where
  | sync
  | digest
  | record
  deriving DecidableEq, Repr

def roleOf : String → Option (Family × Role)
  | "schedule_sync" => some (.schedule, .sync)
  | "schedule_digest" => some (.schedule, .digest)
  | "event_read" => some (.schedule, .record)
  | "tasks_sync" => some (.tasks, .sync)
  | "tasks_digest" => some (.tasks, .digest)
  | "task_read" => some (.tasks, .record)
  | _ => none

@[simp] theorem roleOf_sync (f : Family) : roleOf f.sync = some (f, .sync) := by cases f <;> rfl

@[simp] theorem roleOf_digest (f : Family) : roleOf f.digest = some (f, .digest) := by
  cases f <;> rfl

@[simp] theorem roleOf_record (f : Family) : roleOf f.record = some (f, .record) := by
  cases f <;> rfl

/-- The digest of a set. -/
def Contents.digest (contents : Contents) : List UInt8 :=
  [3, 255, UInt8.ofNat contents.records.length] ++ le32 contents.version

/-! ## Writes -/

/-- The records of a set that is whole. -/
def Sync.records (sync : Sync) : Option (List (List UInt8)) :=
  if (List.range sync.count).all fun i => (sync.staged.lookup i).isSome then
    some ((List.range sync.count).map fun i => (sync.staged.lookup i).getD [])
  else none

/-- A write that is accepted. -/
def Drawer.take (d : Drawer) : List UInt8 → Option Drawer
  | 0 :: _ :: count :: version =>
    some { d with sync := some ⟨count.toNat, read32 version 0, []⟩ }
  | 1 :: _ :: index :: record =>
    match d.sync with
    | some sync =>
      if sync.staged.all (·.1 ≠ index.toNat) then
        some { d with
          sync := some { sync with staged := sync.staged ++ [(index.toNat, record)] } }
      else none
    | none => none
  | [2, _, _] =>
    match d.sync with
    | some sync => sync.records.map fun records =>
      { d with sets := d.sets.accept ⟨sync.version, records⟩, sync := none }
    | none => none
  | _ => none

theorem Sync.records_ok {sync : Sync} {records : List (List UInt8)}
    (h : sync.records = some records) : records.length = sync.count ∧
      ∀ (i : ℕ) (record : List UInt8), records[i]? = some record → (i, record) ∈ sync.staged := by
  unfold Sync.records at h
  split_ifs at h with hall
  obtain rfl := Option.some.inj h
  refine ⟨by rw [List.length_map, List.length_range], fun i record hrecord => ?_⟩
  rw [List.getElem?_map, Option.map_eq_some_iff] at hrecord
  obtain ⟨j, hj, rfl⟩ := hrecord
  obtain ⟨hi, rfl⟩ := List.getElem?_eq_some_iff.mp hj
  rw [List.getElem_range]
  rw [List.length_range] at hi
  obtain ⟨record, hlookup⟩ := Option.isSome_iff_exists.mp
    (List.all_eq_true.mp hall i (List.mem_range.mpr hi))
  obtain ⟨front, back, hstaged, -⟩ := List.lookup_eq_some_iff.mp hlookup
  rw [hlookup, hstaged]
  exact List.mem_append_right _ (List.mem_cons_self ..)

theorem read32_lt (l : List UInt8) (i : ℕ) : read32 l i < 2 ^ 32 := by
  unfold read32 read16
  have h := fun k => UInt8.toNat_lt (l.getD k 0)
  have h0 := h i
  have h1 := h (i + 1)
  have h2 := h (i + 2)
  have h3 := h (i + 2 + 1)
  omega

theorem Drawer.take_accepts {d d' : Drawer} {payload : List UInt8} (h : d.take payload = some d') :
    d.Accepts payload d' := by
  unfold take at h
  split at h
  · obtain rfl := Option.some.inj h
    exact .begun _ _ _ rfl rfl
  · split at h
    · split_ifs at h with hnew
      obtain rfl := Option.some.inj h
      exact .staged _ _ _ ‹_› (fun turn hturn => by simpa using List.all_eq_true.mp hnew turn hturn)
        rfl rfl
    · cases h
  · split at h
    · obtain ⟨records, hrecords, rfl⟩ := Option.map_eq_some_iff.mp h
      obtain ⟨hcount, hstaged⟩ := Sync.records_ok hrecords
      exact .committed _ _ ‹_› hcount hstaged rfl
    · cases h
  · cases h

theorem Drawer.Fits.take {d d' : Drawer} (hfits : d.Fits) {payload : List UInt8}
    (h : d.take payload = some d') : d'.Fits := by
  unfold Drawer.take at h
  split at h
  · obtain rfl := Option.some.inj h
    refine ⟨hfits.shows, hfits.landed, fun sync hsync => ?_⟩
    obtain rfl := Option.some.inj hsync
    exact ⟨UInt8.toNat_lt _, read32_lt _ _⟩
  · split at h
    · next sync hopen =>
        split_ifs at h
        obtain rfl := Option.some.inj h
        refine ⟨hfits.shows, hfits.landed, fun sync' hsync => ?_⟩
        obtain rfl := Option.some.inj hsync
        exact hfits.sync sync hopen
    · cases h
  · split at h
    · obtain ⟨records, hrecords, rfl⟩ := Option.map_eq_some_iff.mp h
      obtain ⟨hcount, hversion⟩ := hfits.sync _ ‹_›
      refine ⟨fun contents hmem => ?_, hfits.landed, fun sync hnone => by cases hnone⟩
      simp only [Late.shows, Late.accept, List.mem_cons, List.mem_append, List.not_mem_nil,
        or_false] at hmem
      rcases hmem with rfl | hmem | rfl
      · exact hfits.shows _ (List.mem_cons_self ..)
      · exact hfits.shows _ (List.mem_cons_of_mem _ hmem)
      · exact ⟨(Sync.records_ok hrecords).1 ▸ hcount, hversion⟩
    · cases h
  · cases h

/-! ## Commits -/

/-- All that waits takes effect. -/
def Drawer.settle (d : Drawer) : Drawer :=
  match d.sets.waiting.getLast? with
  | some contents => { d with sets := ⟨contents, [], contents :: d.sets.landed⟩ }
  | none => d

theorem Drawer.settle_turns (d : Drawer) :
    Relation.ReflTransGen Drawer.Turns d d.settle := by
  unfold Drawer.settle
  rcases hlast : d.sets.waiting.getLast? with _ | contents
  · exact .refl
  · obtain ⟨front, hwaiting⟩ := List.getLast?_eq_some_iff.mp hlast
    obtain ⟨⟨current, waiting, landed⟩, index, selected, sync⟩ := d
    dsimp only at hwaiting
    subst hwaiting
    exact .single (.sets (.land current contents front [] landed))

theorem Drawer.Fits.settle {d : Drawer} (hfits : d.Fits) : d.settle.Fits := by
  unfold Drawer.settle
  rcases hlast : d.sets.waiting.getLast? with _ | contents
  · exact hfits
  · have hfit := hfits.shows contents (List.mem_cons_of_mem _ (List.mem_of_getLast? hlast))
    refine ⟨fun other hmem => ?_, fun other hmem => ?_, hfits.sync⟩
    · rw [List.mem_singleton.mp hmem]
      exact hfit
    · rcases List.mem_cons.mp hmem with rfl | hmem
      · exact hfit
      · exact hfits.landed other hmem

/-! ## The watch -/

/-- A drawer in the place of another. -/
def Cabinet.set (w : Cabinet) (f : Family) (d : Drawer) (h : d.Fits) : Cabinet :=
  { w with
    drawers := Function.update w.drawers f d
    fits := fun g => by
      by_cases hg : g = f
      · rw [hg, Function.update_self]
        exact h
      · rw [Function.update_of_ne hg]
        exact w.fits g }

@[simp] theorem Cabinet.set_self (w : Cabinet) (f : Family) (d : Drawer) (h : d.Fits) :
    (w.set f d h).drawers f = d := Function.update_self ..

@[simp] theorem Cabinet.set_of_ne (w : Cabinet) {f g : Family} (hg : g ≠ f) (d : Drawer)
    (h : d.Fits) : (w.set f d h).drawers g = w.drawers g := Function.update_of_ne hg ..

def Cabinet.settle (w : Cabinet) : Cabinet where
  drawers := fun f => (w.drawers f).settle
  fits := fun f => (w.fits f).settle
  last := w.last

/-- The status of what is refused. -/
def refusal : GattResponse := ⟨0x80, []⟩

/-- A status: the last commit of the family has succeeded, or it waits. -/
def reportOf (f : Family) (sets : Late Contents) : List UInt8 :=
  match sets.waiting, sets.landed with
  | [], contents :: _ => [1, 0, 2, UInt8.ofNat f.operation, 0, 0] ++ le32 contents.version ++
      [0, 0, 0, 0, 0, 0]
  | _, _ => [1, 0, 1, UInt8.ofNat f.operation, 0, 0, 0, 0, 0, 0, 0, 0, 0, 0, 0, 0]

/-- `family_state_status`. -/
def Cabinet.status (w : Cabinet) : List UInt8 :=
  match w.last with
  | some f => reportOf f (w.drawers f).sets
  | none => List.replicate 16 0

/-- A record is selected. -/
def Cabinet.select (w : Cabinet) (f : Family) (payload : List UInt8) : GattResponse × Cabinet :=
  match payload with
  | [i] =>
    match (w.drawers f).sets.current.records[i.toNat]? with
    | some record => (⟨0, []⟩, w.set f { w.drawers f with index := i.toNat, selected := record }
        ⟨(w.fits f).shows, (w.fits f).landed, (w.fits f).sync⟩)
    | none => (refusal, w)
  | _ => (refusal, w)

/-- A write to a sync characteristic. The commits are those that close what was open. -/
def Cabinet.write (w : Cabinet) (f : Family) (payload : List UInt8) : GattResponse × Cabinet :=
  match h : (w.drawers f).take payload with
  | some d =>
    (⟨0, []⟩, { w.set f d ((w.fits f).take h) with
      last := if d.sync.isNone then some f else w.last })
  | none => (refusal, w)

/-- What a request to a family is answered. -/
def Cabinet.serve (w : Cabinet) (f : Family) (operation : ℤ) (payload : List UInt8) :
    Role → GattResponse × Cabinet
  | .digest =>
    if operation = OP_READ then (⟨0, (w.drawers f).sets.current.digest⟩, w) else (refusal, w)
  | .record =>
    if operation = OP_READ then (⟨0, (w.drawers f).selected⟩, w) else w.select f payload
  | .sync => if operation = OP_WRITE then w.write f payload else (refusal, w)

def Cabinet.request (w : Cabinet) (characteristic : String) (operation : ℤ)
    (payload : List UInt8) : GattResponse × Cabinet :=
  match roleOf characteristic with
  | some (f, role) => w.serve f operation payload role
  | none =>
    if characteristic = "family_state_status" ∧ operation = OP_READ then (⟨0, w.status⟩, w.settle)
    else (refusal, w)

theorem Cabinet.request_eq (w : Cabinet) {characteristic : String} {f : Family} {role : Role}
    (h : roleOf characteristic = some (f, role)) (operation : ℤ) (payload : List UInt8) :
    w.request characteristic operation payload = w.serve f operation payload role := by
  unfold Cabinet.request
  rw [h]

/-- A call, carried out by the watch. -/
def Cabinet.carry : (call : Call) → Effect Cabinet Unit call.Reply
  | .request characteristic operation payload =>
    .of fun w => match w.request characteristic operation payload with
      | (reply, w') => (.ok reply, w')
  | .monotonic => .of fun w => (.ok (0 : ℤ), w)

/-- A watch may have no records. -/
theorem empty_fits : Drawer.Fits ⟨⟨⟨0, []⟩, [], []⟩, 0, [], none⟩ where
  shows contents hmem := by
    rw [List.mem_singleton.mp hmem]
    exact ⟨by decide, by decide⟩
  landed _ hmem := by cases hmem
  sync _ hnone := by cases hnone

/-! ## It follows -/

theorem Contents.parse_digest {contents : Contents} (hfits : contents.Fits) {digest : Digest}
    (h : Wire.parse_digest contents.digest = .ok digest) :
    digest.count = contents.records.length ∧ digest.version = contents.version := by
  have hword : read32 contents.digest 3 = contents.version := by
    have hword := read32_le32 (n := contents.version) (by have := hfits.2; omega) []
    rw [List.append_nil] at hword
    exact hword
  unfold Wire.parse_digest at h
  have hlength : contents.digest.length = 7 := rfl
  rw [hlength, if_neg (by decide)] at h
  obtain rfl := Except.ok.inj h
  exact ⟨toNat_ofNat_lt hfits.1, hword⟩

/-- What a status says that has succeeded. -/
theorem commitReport_reportOf {f g : Family} {sets : Late Contents} {token : ℕ}
    (hfits : ∀ contents ∈ sets.landed, contents.Fits)
    (h : commitReport ⟨0, reportOf g sets⟩ =
      some (RECORDS.family_state_states_succeeded, f.operation, token)) :
    g = f ∧ ∃ contents ∈ sets.landed, contents.version = token := by
  obtain ⟨current, waiting, landed⟩ := sets
  unfold commitReport at h
  rcases waiting with _ | ⟨other, waiting⟩
  · rcases landed with _ | ⟨contents, landed⟩
    · rw [if_pos ⟨rfl, rfl⟩] at h
      exact absurd (Prod.mk.inj (Option.some.inj h)).1 (by change ¬ 1 = 2; decide)
    · have hversion := (hfits contents (List.mem_cons_self ..)).2
      have hword := read32_le32 (n := contents.version) (by omega) [0, 0, 0, 0, 0, 0]
      rw [if_pos ⟨rfl, rfl⟩] at h
      obtain ⟨-, hrest⟩ := Prod.mk.inj (Option.some.inj h)
      obtain ⟨hoperation, htoken⟩ := Prod.mk.inj hrest
      refine ⟨?_, contents, List.mem_cons_self .., ?_⟩
      · -- each family has its own operation
        change (UInt8.ofNat g.operation).toNat = f.operation at hoperation
        revert hoperation
        cases g <;> cases f <;> decide
      · rw [← htoken]
        exact hword.symm
  · rw [if_pos ⟨rfl, rfl⟩] at h
    exact absurd (Prod.mk.inj (Option.some.inj h)).1 (by change ¬ 1 = 2; decide)

theorem Cabinet.commitReport_status {w : Cabinet} {f : Family} {token : ℕ}
    (h : commitReport ⟨0, w.status⟩ =
      some (RECORDS.family_state_states_succeeded, f.operation, token)) :
    ∃ contents ∈ (w.drawers f).sets.landed, contents.version = token := by
  unfold Cabinet.status at h
  rcases hlast : w.last with _ | g
  · rw [hlast] at h
    unfold commitReport at h
    rw [if_pos ⟨rfl, rfl⟩] at h
    exact absurd (Prod.mk.inj (Option.some.inj h)).1 (by change ¬ 0 = 2; decide)
  · rw [hlast] at h
    obtain ⟨rfl, hlanded⟩ := commitReport_reportOf (w.fits g).landed h
    exact hlanded

theorem answers_of_request {characteristic : String} {operation : ℤ} {payload : List UInt8}
    {R : Drawers → GattResponse → Drawers → Prop}
    (h : ∀ w : Cabinet, ∃ u, R w.drawers (w.request characteristic operation payload).1 u ∧
      Later u (w.request characteristic operation payload).2.drawers) :
    Answers Cabinet.carry Cabinet.drawers characteristic operation payload R := by
  rintro _ w rfl
  obtain ⟨u, hR, hlater⟩ := h w
  exact ⟨w.drawers, u, later_refl _, hR, hlater⟩

/-- **It is such a watch.** -/
theorem cabinet_follows : Follows Cabinet.carry Cabinet.drawers where
  digest f := by
    refine answers_of_request fun w => ?_
    have hrequest : w.request f.digest OP_READ [] =
        (⟨0, (w.drawers f).sets.current.digest⟩, w) :=
      w.request_eq (roleOf_digest f) OP_READ []
    rw [hrequest]
    exact ⟨_, ⟨fun _ => rfl, fun _ digest hparse => Contents.parse_digest
      ((w.fits f).shows _ (List.mem_cons_self ..)) hparse⟩, later_refl _⟩
  select f i := by
    refine answers_of_request fun w => ⟨_, ?_, later_refl _⟩
    have hrequest : w.request f.record OP_WRITE [i] = w.select f [i] :=
      w.request_eq (roleOf_record f) OP_WRITE [i]
    rw [hrequest]
    unfold Cabinet.select
    dsimp only
    rcases hrecord : (w.drawers f).sets.current.records[i.toNat]? with _ | record
    · refine ⟨fun _ => rfl, fun hstatus => ?_⟩
      change (0x80 : UInt8) = 0 at hstatus
      exact absurd hstatus (by decide)
    · refine ⟨fun g => ?_, fun _ => ?_⟩
      · by_cases hg : g = f
        · rw [hg, Cabinet.set_self]
        · rw [Cabinet.set_of_ne w hg]
      · rw [Cabinet.set_self]
        exact ⟨rfl, rfl⟩
  record f := by
    refine answers_of_request fun w => ⟨_, ?_, later_refl _⟩
    have hrequest : w.request f.record OP_READ [] = (⟨0, (w.drawers f).selected⟩, w) :=
      w.request_eq (roleOf_record f) OP_READ []
    rw [hrequest]
    exact ⟨fun _ => rfl, fun _ => rfl⟩
  sync f payload := by
    refine answers_of_request fun w => ⟨_, ?_, later_refl _⟩
    have hrequest : w.request f.sync OP_WRITE payload = w.write f payload :=
      w.request_eq (roleOf_sync f) OP_WRITE payload
    rw [hrequest]
    unfold Cabinet.write
    split
    · next d htake =>
        have haccepts := Drawer.take_accepts htake
        dsimp only
        rw [if_pos rfl, Cabinet.set_self]
        exact ⟨fun g hg => by rw [Cabinet.set_of_ne w hg], haccepts⟩
    · exact ⟨fun _ _ => rfl, rfl⟩
  status := by
    refine answers_of_request fun w => ⟨w.drawers, ⟨fun _ => rfl, fun f token hreport => ?_⟩,
      fun f => (w.drawers f).settle_turns⟩
    exact Cabinet.commitReport_status hreport
  clock v := by
    rintro w rfl
    exact later_refl _

end Ptlab.Wire
