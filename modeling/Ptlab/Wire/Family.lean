/-
The two sets of records that a watch keeps, and what `push_records` and
`pull_records` (`src/ptlab/wire.py`) make of them.

The watch is not code of this repository. `Follows` is what a client relies on. A set
is changed by an accepted commit of as many records as were announced, and by nothing
else. The commit takes effect as a whole, at any time behind its reply, or never; a
commit behind it may overtake it. The records may come in any order, and the state that
`family_state_status` reports is that of some commit, perhaps of an old one. The watch may
refuse what it likes, and the link may fail before or behind any request.

What is known of the sets is then what a push adds to it (`push_family`), and a pull is
put together from sets that were possible (`pull_family`).
-/
import Ptlab.Lib.Register
import Ptlab.Wire.Pull
import Ptlab.Wire.PushClient

set_option autoImplicit false

open Bytes Dialogue Effect Register Ptlab.Gatt Ptlab.Protocol

namespace Ptlab.Wire

/-! ## The watch -/

inductive Family where
  | schedule
  | tasks
  deriving DecidableEq, Repr

/-- The characteristics of a family. -/
def Family.sync : Family → String
  | .schedule => "schedule_sync"
  | .tasks => "tasks_sync"

def Family.digest : Family → String
  | .schedule => "schedule_digest"
  | .tasks => "tasks_digest"

def Family.record : Family → String
  | .schedule => "event_read"
  | .tasks => "task_read"

/-- Its operation in a status. -/
def Family.operation : Family → ℕ
  | .schedule => RECORDS.family_state_operations_schedule
  | .tasks => RECORDS.family_state_operations_tasks

theorem sync_operation_sync (f : Family) : sync_operation f.sync = .ok f.operation := by
  cases f <;> rfl

/-- A set of records, with its version. -/
structure Contents where
  version : ℕ
  records : List (List UInt8)
  deriving DecidableEq, Repr

/-- A set that is being written: its records with their indices, as they came. -/
structure Sync where
  count : ℕ
  version : ℕ
  staged : List (ℕ × List UInt8)
  deriving DecidableEq, Repr

/-- A family as the watch keeps it: the set that it shows, with the commits that have not
taken effect and those that have, the record that is read next, and what is being written. -/
structure Drawer where
  sets : Late Contents
  index : ℕ
  selected : List UInt8
  sync : Option Sync

/-- Both families. -/
abbrev Drawers : Type := Family → Drawer

/-- What becomes of a drawer by itself. The selected record may be looked up again, and what
is being written may be given up. -/
inductive Drawer.Turns : Drawer → Drawer → Prop
  | sets {d : Drawer} {sets : Late Contents} (h : d.sets.Step sets) :
      Turns d { d with sets := sets }
  | selected {d : Drawer} {record : List UInt8}
      (h : d.sets.current.records[d.index]? = some record) :
      Turns d { d with selected := record }
  | closed (d : Drawer) : Turns d { d with sync := none }

/-- The drawers after some time. -/
def Later (v v' : Drawers) : Prop := ∀ f, Relation.ReflTransGen Drawer.Turns (v f) (v' f)

/-- What a write to the sync characteristic does that is accepted. An index comes once. -/
inductive Drawer.Accepts (d : Drawer) : List UInt8 → Drawer → Prop
  | begun {d' : Drawer} (reserved count : UInt8) (version : List UInt8)
      (hsets : d'.sets = d.sets) (hsync : d'.sync = some ⟨count.toNat, read32 version 0, []⟩) :
      Accepts d (0 :: reserved :: count :: version) d'
  | staged {d' : Drawer} {sync : Sync} (version index : UInt8) (record : List UInt8)
      (hopen : d.sync = some sync) (hnew : ∀ turn ∈ sync.staged, turn.1 ≠ index.toNat)
      (hsets : d'.sets = d.sets)
      (hsync : d'.sync = some { sync with staged := sync.staged ++ [(index.toNat, record)] }) :
      Accepts d (1 :: version :: index :: record) d'
  | committed {d' : Drawer} {sync : Sync} {records : List (List UInt8)} (reserved count : UInt8)
      (hopen : d.sync = some sync) (hcount : records.length = sync.count)
      (hstaged : ∀ i record, records[i]? = some record → (i, record) ∈ sync.staged)
      (hsets : d'.sets = d.sets.accept ⟨sync.version, records⟩) :
      Accepts d [2, reserved, count] d'
  | aborted {d' : Drawer} (rest : List UInt8) (hsets : d'.sets = d.sets) :
      Accepts d (3 :: rest) d'

/-- What a status reports to have succeeded has taken effect. -/
def Reports (status : GattResponse) (v : Drawers) : Prop :=
  ∀ (f : Family) (token : ℕ),
    commitReport status = some (RECORDS.family_state_states_succeeded, f.operation, token) →
      ∃ contents ∈ (v f).sets.landed, contents.version = token

/-- No set is another. -/
def Kept (v v' : Drawers) : Prop := ∀ g, (v' g).sets = (v g).sets

section Contract

variable {σ : Type} (carry : (call : Call) → Effect σ Unit call.Reply) (view : σ → Drawers)

/-- What a request is answered, and what it does. Time passes before and after it. If the
link fails, it has come to the watch or not. -/
def Answers (characteristic : String) (operation : ℤ) (payload : List UInt8)
    (R : Drawers → GattResponse → Drawers → Prop) : Prop :=
  ∀ v, Triple (fun s => view s = v) (carry (.request characteristic operation payload))
    (fun response s => ∃ u u', Later v u ∧ R u response u' ∧ Later u' (view s))
    (fun _ s => Later v (view s) ∨
      ∃ response u u', Later v u ∧ R u response u' ∧ Later u' (view s))

/-- **A watch as its clients know it.** -/
structure Follows : Prop where
  digest : ∀ f : Family, Answers carry view f.digest OP_READ [] fun v response v' =>
    Kept v v' ∧ (response.status = 0 → ∀ digest, parse_digest response.payload = .ok digest →
      digest.count = (v f).sets.current.records.length ∧
        digest.version = (v f).sets.current.version)
  select : ∀ (f : Family) (i : UInt8), Answers carry view f.record OP_WRITE [i]
    fun v response v' => Kept v v' ∧ (response.status = 0 → (v' f).index = i.toNat ∧
      (v f).sets.current.records[i.toNat]? = some (v' f).selected)
  record : ∀ f : Family, Answers carry view f.record OP_READ [] fun v response v' =>
    Kept v v' ∧ (response.status = 0 → response.payload = (v f).selected)
  sync : ∀ (f : Family) (payload : List UInt8), Answers carry view f.sync OP_WRITE payload
    fun v response v' => (∀ g, g ≠ f → (v' g).sets = (v g).sets) ∧
      if response.status = 0 then (v f).Accepts payload (v' f) else (v' f).sets = (v f).sets
  status : Answers carry view "family_state_status" OP_READ [] fun v response v' =>
    Kept v v' ∧ Reports response v
  clock : ∀ v, Triple (fun s => view s = v) (carry .monotonic) (fun _ s => Later v (view s))
    fun _ s => Later v (view s)

end Contract

/-! ## What is known of it -/

/-- What is known of both families. -/
abbrev Knowledge : Type := Family → Known Contents ℕ

/-- What is known is true. -/
def Agrees (k : Knowledge) (v : Drawers) : Prop :=
  ∀ f, (k f).Holds Contents.version (v f).sets

/-- There was a push. -/
def Knowledge.put (k : Knowledge) (f : Family) (contents : Contents) (confirmed : Bool) :
    Knowledge :=
  Function.update k f ((k f).put Contents.version contents confirmed)

/-- The record that is read next is of one of the sets. -/
def Chosen (k : Knowledge) (f : Family) (i : ℕ) (d : Drawer) : Prop :=
  (k f).Holds Contents.version d.sets ∧ d.index = i ∧
    ∃ contents ∈ (k f).possible, contents.records[i]? = some d.selected

/-- So much of a set has been written, unless it was given up. -/
def Writing (k : Knowledge) (f : Family) (sync : Sync) (v : Drawers) : Prop :=
  Agrees k v ∧ (sync.staged.map Prod.fst).Nodup ∧
    ((v f).sync = none ∨ (v f).sync = some sync)

/-- A set has been committed, and none of the family after it. -/
def Pushed (k : Knowledge) (f : Family) (contents : Contents) (v : Drawers) : Prop :=
  (∀ g, g ≠ f → (k g).Holds Contents.version (v g).sets) ∧
    Newest Contents.version (k f) contents (v f).sets

/-- What a pull makes of sets that are possible: it has the head of one, and each record of
one. -/
structure Pieced (sets : Set Contents) (found : Contents) : Prop where
  head : ∃ contents ∈ sets, found.version = contents.version ∧
    found.records.length = contents.records.length
  piece : ∀ (i : ℕ) (record : List UInt8), found.records[i]? = some record →
    ∃ contents ∈ sets, contents.records[i]? = some record

/-- Of one set, it is that set. -/
theorem Pieced.eq {contents found : Contents} (h : Pieced {contents} found) :
    found = contents := by
  obtain ⟨_, rfl, hversion, hlength⟩ := h.head
  obtain ⟨version, records⟩ := found
  dsimp only at hversion hlength
  subst hversion
  refine congrArg (Contents.mk _) (List.ext_getElem? fun i => ?_)
  rcases hi : records[i]? with _ | record
  · rw [List.getElem?_eq_none_iff] at hi
    rw [List.getElem?_eq_none (hlength ▸ hi)]
  · obtain ⟨_, rfl, hrecord⟩ := h.piece i record hi
    exact hrecord.symm

/-! ### Time -/

/-- What time does not take away. -/
def Lasting (P : Drawers → Prop) : Prop := ∀ v v', Later v v' → P v → P v'

theorem later_refl (v : Drawers) : Later v v := fun _ => .refl

theorem lasting_at (f : Family) {p : Drawer → Prop} (hp : ∀ d d', d.Turns d' → p d → p d') :
    Lasting fun v => p (v f) := by
  have hturns : ∀ d d', Relation.ReflTransGen Drawer.Turns d d' → p d → p d' := by
    intro d d' hturns hd
    induction hturns with
    | refl => exact hd
    | tail _ hturn ih => exact hp _ _ hturn ih
  exact fun v v' hlater hv => hturns _ _ (hlater f) hv

theorem Lasting.and {P Q : Drawers → Prop} (hP : Lasting P) (hQ : Lasting Q) :
    Lasting fun v => P v ∧ Q v :=
  fun v v' hlater hv => ⟨hP v v' hlater hv.1, hQ v v' hlater hv.2⟩

theorem holds_turn {k : Known Contents ℕ} (d d' : Drawer) (hturn : d.Turns d')
    (h : k.Holds Contents.version d.sets) : k.Holds Contents.version d'.sets := by
  cases hturn with
  | sets hstep => exact h.step hstep
  | selected _ => exact h
  | closed => exact h

theorem lasting_agrees (k : Knowledge) : Lasting (Agrees k) :=
  fun v v' hlater hv f => lasting_at f holds_turn v v' hlater (hv f)

theorem lasting_chosen (k : Knowledge) (f : Family) (i : ℕ) :
    Lasting fun v => Chosen k f i (v f) := by
  refine lasting_at f fun d d' hturn h => ?_
  refine ⟨holds_turn d d' hturn h.1, ?_⟩
  cases hturn with
  | sets _ => exact h.2
  | closed => exact h.2
  | selected hrecord =>
      rw [h.2.1] at hrecord
      exact ⟨h.2.1, _, (h.1.shows _ (List.mem_cons_self ..)).1, hrecord⟩

theorem lasting_writing (k : Knowledge) (f : Family) (sync : Sync) :
    Lasting (Writing k f sync) := by
  refine (lasting_agrees k).and (Lasting.and (fun _ _ _ h => h)
    (lasting_at f (p := fun d => d.sync = none ∨ d.sync = some sync) fun d d' hturn h => ?_))
  cases hturn with
  | sets _ => exact h
  | selected _ => exact h
  | closed => exact .inl rfl

theorem lasting_pushed (k : Knowledge) (f : Family) (contents : Contents) :
    Lasting (Pushed k f contents) := by
  have hothers : Lasting fun v => ∀ g, g ≠ f → (k g).Holds Contents.version (v g).sets :=
    fun v v' hlater hv g hg => lasting_at g holds_turn v v' hlater (hv g hg)
  refine hothers.and (lasting_at f
    (p := fun d => Newest Contents.version (k f) contents d.sets) fun d d' hturn h => ?_)
  cases hturn with
  | sets hstep => exact h.step hstep
  | selected _ => exact h
  | closed => exact h

/-- What has taken effect has. -/
theorem lasting_reports (status : GattResponse) : Lasting (Reports status) := by
  intro v v' hlater hv f token hreport
  refine lasting_at f (p := fun d => ∃ contents ∈ d.sets.landed, contents.version = token)
    (fun d d' hturn h => ?_) v v' hlater (hv f token hreport)
  cases hturn with
  | sets hstep =>
      obtain ⟨contents, hmem, htoken⟩ := h
      refine ⟨contents, ?_, htoken⟩
      generalize d.sets = sets at hstep hmem
      cases hstep with
      | land => exact List.mem_cons_of_mem _ hmem
      | drop => exact hmem
  | selected _ => exact h
  | closed => exact h

/-! ### Pushes -/

theorem Agrees.kept {k : Knowledge} {v v' : Drawers} (h : Agrees k v) (hkept : Kept v v') :
    Agrees k v' := fun f => by
  rw [hkept f]
  exact h f

theorem agrees_put {k : Knowledge} {f : Family} {contents : Contents} {confirmed : Bool}
    {v : Drawers} (hothers : ∀ g, g ≠ f → (k g).Holds Contents.version (v g).sets)
    (h : ((k f).put Contents.version contents confirmed).Holds Contents.version (v f).sets) :
    Agrees (k.put f contents confirmed) v := by
  intro g
  unfold Knowledge.put
  by_cases hg : g = f
  · subst hg
    rw [Function.update_self]
    exact h
  · rw [Function.update_of_ne hg]
    exact hothers g hg

theorem Agrees.put {k : Knowledge} {v : Drawers} (h : Agrees k v) (f : Family)
    (contents : Contents) : Agrees (k.put f contents false) v :=
  agrees_put (fun g _ => h g) ((h f).put contents)

theorem Pushed.agrees {k : Knowledge} {f : Family} {contents : Contents} {v : Drawers}
    (h : Pushed k f contents v) : Agrees (k.put f contents false) v :=
  agrees_put h.1 h.2.holds

theorem Pushed.confirmed {k : Knowledge} {f : Family} {contents : Contents} {v : Drawers}
    (h : Pushed k f contents v)
    (hfound : ∃ found ∈ (v f).sets.landed, found.version = contents.version) :
    Agrees (k.put f contents true) v :=
  agrees_put h.1 (h.2.confirmed hfound)

/-! ## What a client does to it -/

section Clients

variable {σ ε α β : Type} {carry : (call : Call) → Effect σ Unit call.Reply} {view : σ → Drawers}

/-- A client on a watch. What it raises does not matter here. -/
def onWatch (carry : (call : Call) → Effect σ Unit call.Reply) (client : Client ε α) :
    Effect σ Unit α :=
  client.perform carry fun _ => ()

theorem onWatch_bind (client : Client ε α) (f : α → Client ε β) :
    onWatch carry (client >>= f) = onWatch carry client >>= fun a => onWatch carry (f a) :=
  perform_bind carry (fun _ => ()) client f

theorem onWatch_ofExcept {P : σ → Prop} {Q : α → σ → Prop} {E : Unit → σ → Prop}
    {outcome : Except ε α} (hok : ∀ a, outcome = .ok a → ∀ s, P s → Q a s)
    (herror : ∀ e, outcome = .error e → ∀ s, P s → E () s) :
    Triple P (onWatch carry (ofExcept outcome)) Q E := by
  rcases houtcome : outcome with e | a
  · exact triple_throw (herror e houtcome)
  · exact triple_pure (hok a houtcome)

/-- A request, where `P` holds of the drawers. -/
theorem Answers.rule {characteristic : String} {operation : ℤ} {payload : List UInt8}
    {R : Drawers → GattResponse → Drawers → Prop}
    (h : Answers carry view characteristic operation payload R) {P E : Drawers → Prop}
    {Q : GattResponse → Drawers → Prop} (hP : Lasting P) (hQ : ∀ response, Lasting (Q response))
    (hact : ∀ v response v', P v → R v response v' → Q response v')
    (hsame : ∀ v, P v → E v) (hlost : ∀ response v, Q response v → E v) :
    Triple (fun s => P (view s)) (carry (.request characteristic operation payload))
      (fun response s => Q response (view s)) (fun _ s => E (view s)) := by
  have hdone : ∀ {response : GattResponse} {v u u' v' : Drawers}, P v → Later v u →
      R u response u' → Later u' v' → Q response v' := fun hv hu hR hu' =>
    hQ _ _ _ hu' (hact _ _ _ (hP _ _ hu hv) hR)
  intro s hs
  refine (h (view s)).conseq (fun _ ht => ht) (fun response t ht => ?_) (fun _ t ht => ?_) s rfl
  · obtain ⟨u, u', hu, hR, hu'⟩ := ht
    exact hdone hs hu hR hu'
  · rcases ht with hlater | ⟨response, u, u', hu, hR, hu'⟩
    · exact hsame _ (hP _ _ hlater hs)
    · exact hlost response _ (hdone hs hu hR hu')

/-- A request that keeps every set. -/
theorem Answers.keeps {characteristic : String} {operation : ℤ} {payload : List UInt8}
    {R : Drawers → GattResponse → Drawers → Prop}
    (h : Answers carry view characteristic operation payload R)
    (hR : ∀ v response v', R v response v' → Kept v v') (k : Knowledge) :
    Always (fun s => Agrees k (view s)) (carry (.request characteristic operation payload)) :=
  h.rule (lasting_agrees k) (fun _ => lasting_agrees k)
    (fun v response v' hv hR' => hv.kept (hR v response v' hR')) (fun _ hv => hv) fun _ _ hv => hv

/-- A write has to be accepted. -/
theorem expectAccepted_rule {P : σ → Prop} {E : Unit → σ → Prop} {what : String}
    {response : GattResponse} (h : response.status ≠ 0 → ∀ s, P s → E () s) :
    Triple P (onWatch carry (ofExcept (expectAccepted what response)))
      (fun _ s => P s ∧ response.status = 0) E := by
  refine onWatch_ofExcept (fun a ha s hs => ⟨hs, ?_⟩) fun e he => h fun hstatus => ?_
  · exact (expectAccepted_ok_iff what response).mp ha
  · rw [(expectAccepted_ok_iff what response).mpr hstatus] at he
    cases he

variable (hfollows : Follows carry view)

include hfollows

theorem clock_rule {P : Drawers → Prop} (hP : Lasting P) :
    Always (fun s => P (view s)) (onWatch carry (Client.monotonic (ε := ε))) := by
  unfold Client.monotonic onWatch
  rw [perform_question]
  intro s hs
  exact (hfollows.clock (view s)).conseq (fun _ ht => ht) (fun _ _ ht => hP _ _ ht hs)
    (fun _ _ ht => hP _ _ ht hs) s rfl

/-! ### `pull_records` -/

/-- The digest is that of a set that was possible. -/
theorem digest_rule (f : Family) (k : Knowledge) :
    Triple (fun s => Agrees k (view s)) (onWatch carry (Client.read (ε := ε) f.digest))
      (fun response s => Agrees k (view s) ∧ (response.status = 0 → ∀ digest,
        parse_digest response.payload = .ok digest → ∃ contents ∈ (k f).possible,
          digest.count = contents.records.length ∧ digest.version = contents.version))
      (fun _ s => Agrees k (view s)) := by
  unfold Client.read onWatch
  rw [perform_question]
  refine (hfollows.digest f).rule (Q := fun response v => Agrees k v ∧ (response.status = 0 →
    ∀ digest, parse_digest response.payload = .ok digest → ∃ contents ∈ (k f).possible,
      digest.count = contents.records.length ∧ digest.version = contents.version))
    (lasting_agrees k) (fun _ => (lasting_agrees k).and fun _ _ _ h => h)
    (fun v response v' hv hR => ⟨hv.kept hR.1, fun hstatus digest hparse => ?_⟩)
    (fun _ hv => hv) fun _ _ hv => hv.1
  exact ⟨_, ((hv f).shows _ (List.mem_cons_self ..)).1, hR.2 hstatus digest hparse⟩

theorem select_rule (f : Family) (k : Knowledge) {i : ℕ} (hi : i < 256) :
    Triple (fun s => Agrees k (view s))
      (onWatch carry (Client.write (ε := ε) f.record [UInt8.ofNat i]))
      (fun response s => Agrees k (view s) ∧
        (response.status = 0 → Chosen k f i (view s f)))
      (fun _ s => Agrees k (view s)) := by
  unfold Client.write onWatch
  rw [perform_question]
  refine (hfollows.select f (UInt8.ofNat i)).rule (Q := fun response v =>
    Agrees k v ∧ (response.status = 0 → Chosen k f i (v f))) (lasting_agrees k)
    (fun response => (lasting_agrees k).and fun v v' hlater hv hstatus =>
      lasting_chosen k f i v v' hlater (hv hstatus))
    (fun v response v' hv hR => ⟨hv.kept hR.1, fun hstatus => ?_⟩) (fun _ hv => hv)
    fun _ _ hv => hv.1
  obtain ⟨hindex, hselected⟩ := hR.2 hstatus
  rw [toNat_ofNat_lt hi] at hindex hselected
  exact ⟨hv.kept hR.1 f, hindex, _, ((hv f).shows _ (List.mem_cons_self ..)).1, hselected⟩

theorem readSelected_rule (f : Family) (k : Knowledge) (i : ℕ) :
    Triple (fun s => Agrees k (view s) ∧ Chosen k f i (view s f))
      (onWatch carry (Client.read (ε := ε) f.record))
      (fun response s => Agrees k (view s) ∧ (response.status = 0 →
        ∃ contents ∈ (k f).possible, contents.records[i]? = some response.payload))
      (fun _ s => Agrees k (view s)) := by
  unfold Client.read onWatch
  rw [perform_question]
  refine (hfollows.record f).rule (P := fun v => Agrees k v ∧ Chosen k f i (v f))
    (Q := fun response v => Agrees k v ∧ (response.status = 0 →
      ∃ contents ∈ (k f).possible, contents.records[i]? = some response.payload))
    ((lasting_agrees k).and (lasting_chosen k f i))
    (fun _ => (lasting_agrees k).and fun _ _ _ h => h)
    (fun v response v' hv hR => ⟨hv.1.kept hR.1, fun hstatus => ?_⟩) (fun _ hv => hv.1)
    fun _ _ hv => hv.1
  rw [hR.2 hstatus]
  exact hv.2.2.2

/-- The record that was selected is the one that is read, of some set. -/
theorem pullRecord_rule (f : Family) (k : Knowledge) {i : ℕ} (hi : i < 256) :
    Triple (fun s => Agrees k (view s)) (onWatch carry (pullRecord f.record i))
      (fun record s => Agrees k (view s) ∧
        ∃ contents ∈ (k f).possible, contents.records[i]? = some record)
      (fun _ s => Agrees k (view s)) := by
  unfold pullRecord
  rw [onWatch_bind]
  refine triple_bind (select_rule hfollows f k hi) fun selected => ?_
  rw [onWatch_bind]
  refine triple_bind (expectAccepted_rule fun _ s hs => hs.1) fun _ => ?_
  rw [onWatch_bind]
  refine triple_bind ((readSelected_rule hfollows f k i).conseq
    (fun s hs => ⟨hs.1.1, hs.1.2 hs.2⟩) (fun _ _ h => h) fun _ _ h => h) fun record => ?_
  rw [onWatch_bind]
  refine triple_bind (expectAccepted_rule fun _ s hs => hs.1) fun _ => ?_
  exact triple_pure fun s hs => ⟨hs.1.1, hs.1.2 hs.2⟩

omit hfollows in
/-- The records one by one are the pieces. -/
theorem pieced_of_turns {sets : Set Contents} {version count : ℕ} {pulled : List (List UInt8)}
    (hhead : ∃ contents ∈ sets, count = contents.records.length ∧ version = contents.version)
    (h : List.Forall₂ (fun i record => ∃ contents ∈ sets, contents.records[i]? = some record)
      (List.range count) pulled) : Pieced sets ⟨version, pulled⟩ := by
  have hlength : pulled.length = count := by
    rw [← h.length_eq, List.length_range]
  refine ⟨?_, fun i record hrecord => ?_⟩
  · obtain ⟨contents, hmem, hcount, hversion⟩ := hhead
    exact ⟨contents, hmem, hversion, hlength.trans hcount⟩
  · obtain ⟨hi, rfl⟩ := List.getElem?_eq_some_iff.mp hrecord
    have hturn := (List.forall₂_iff_get.mp h).2 i
      (by rw [List.length_range, ← hlength]; exact hi) hi
    simp only [List.get_eq_getElem, List.getElem_range] at hturn
    exact hturn

/-- **`pull_records`** changes no set. What it returns is put together from sets that were
possible. -/
theorem pull_family (f : Family) (k : Knowledge) :
    Triple (fun s => Agrees k (view s)) (onWatch carry (pull_records f.digest f.record))
      (fun pulled s => Agrees k (view s) ∧
        Pieced (k f).possible ⟨pulled.1.version, pulled.2⟩)
      (fun _ s => Agrees k (view s)) := by
  unfold pull_records
  rw [onWatch_bind]
  refine triple_bind (digest_rule hfollows f k) fun response => ?_
  rw [onWatch_bind]
  refine triple_bind (expectAccepted_rule fun _ s hs => hs.1) fun _ => ?_
  rw [onWatch_bind]
  refine triple_bind (Q := fun digest s => Agrees k (view s) ∧
    ((∃ contents ∈ (k f).possible,
      digest.count = contents.records.length ∧ digest.version = contents.version) ∧
      digest.count < 256)) ?_ fun digest => triple_assume fun hdigest => ?_
  · refine onWatch_ofExcept (fun digest hparse s hs =>
      ⟨hs.1.1, hs.1.2 hs.2 digest hparse, ?_⟩) fun _ _ s hs => hs.1.1
    rw [parse_digest_count hparse]
    exact UInt8.toNat_lt _
  · obtain ⟨hhead, hfits⟩ := hdigest
    rw [onWatch_bind]
    have hloop : Triple (fun s => Agrees k (view s))
        (onWatch carry ((List.range digest.count).mapM (pullRecord f.record)))
        (fun records s => Agrees k (view s) ∧ List.Forall₂
          (fun i record => ∃ contents ∈ (k f).possible, contents.records[i]? = some record)
          (List.range digest.count) records)
        (fun _ s => Agrees k (view s)) := by
      unfold onWatch
      rw [perform_mapM]
      exact triple_mapM fun i hi =>
        pullRecord_rule hfollows f k (lt_trans (List.mem_range.mp hi) hfits)
    exact triple_bind hloop fun records => triple_pure fun s hs =>
      ⟨hs.1, pieced_of_turns hhead hs.2⟩

/-! ### What a push writes -/

omit hfollows in
theorem mapError_ok_iff {ε' : Type} {outcome : Except ε α} {raise : ε → ε'} {a : α} :
    outcome.mapError raise = .ok a ↔ outcome = .ok a := by
  rcases outcome with e | b
  · exact ⟨fun h => (by cases h), fun h => (by cases h)⟩
  · exact ⟨fun h => congrArg _ (Except.ok.inj h), fun h => congrArg _ (Except.ok.inj h)⟩

omit hfollows in
/-- What the builders return, if they do. -/
theorem begin_sync_ok {count : ℕ} {version : ℤ} {payload : List UInt8}
    (h : begin_sync count version = .ok payload) :
    payload = beginMessage count version ∧ count ≤ 0xFF ∧ 0 ≤ version ∧ version ≤ 0xFFFFFFFF := by
  unfold begin_sync at h
  split_ifs at h with hcount hversion
  exact ⟨(Except.ok.inj h).symm, by omega, hversion⟩

omit hfollows in
theorem record_message_ok {record payload : List UInt8} {index : ℕ} {record_version : ℤ}
    (h : record_message index record record_version = .ok payload) :
    payload = turnMessage record_version (record, index) := by
  unfold record_message at h
  split_ifs at h
  exact (Except.ok.inj h).symm

/-- A write to the sync characteristic, accepted or not. -/
theorem sync_rule {f : Family} {payload : List UInt8} {k : Knowledge} {P Q : Drawers → Prop}
    (hP : Lasting P) (hQ : Lasting Q)
    (haccepts : ∀ v v', P v → (∀ g, g ≠ f → (v' g).sets = (v g).sets) →
      (v f).Accepts payload (v' f) → Q v')
    (hagrees : ∀ v, P v → Agrees k v) {E : Drawers → Prop} (hsame : ∀ v, Agrees k v → E v)
    (hlost : ∀ v, Q v → E v) :
    Triple (fun s => P (view s)) (onWatch carry (Client.write (ε := ε) f.sync payload))
      (fun response s => if response.status = 0 then Q (view s) else E (view s))
      (fun _ s => E (view s)) := by
  unfold Client.write onWatch
  rw [perform_question]
  refine ((hfollows.sync f payload).rule (E := E)
    (Q := fun response v => if response.status = 0 then Q v else Agrees k v) hP
    (fun response => ?_) (fun v response v' hv hR => ?_) (fun v hv => hsame v (hagrees v hv))
    fun response v hv => ?_).conseq (fun _ hs => hs) (fun response s hs => ?_) fun _ _ hs => hs
  · split_ifs
    · exact hQ
    · exact lasting_agrees k
  · split_ifs with hstatus
    · rw [if_pos hstatus] at hR
      exact haccepts v v' hv hR.1 hR.2
    · rw [if_neg hstatus] at hR
      refine (hagrees v hv).kept fun g => ?_
      by_cases hg : g = f
      · rw [hg]
        exact hR.2
      · exact hR.1 g hg
  · split_ifs at hv
    · exact hlost v hv
    · exact hsame v hv
  · split_ifs at hs ⊢
    · exact hs
    · exact hsame _ hs

omit hfollows in
/-- A write that has to be accepted. -/
theorem writeAccepted_rule {characteristic what : String} {payload : List UInt8} {P Q E : σ → Prop}
    (h : Triple P (onWatch carry (Client.write (ε := PushExc) characteristic payload))
      (fun response s => if response.status = 0 then Q s else E s) (fun _ => E))
    (hlost : ∀ s, Q s → E s) :
    Triple P (onWatch carry (Client.writeAccepted characteristic what payload)) (fun _ => Q)
      (fun _ => E) := by
  unfold Client.writeAccepted
  rw [onWatch_bind]
  refine triple_bind h fun response => onWatch_ofExcept (fun _ hok s hs => ?_) fun _ _ s hs => ?_
  · have hstatus := (expectAccepted_ok_iff _ response).mp (mapError_ok_iff.mp hok)
    rwa [if_pos hstatus] at hs
  · split_ifs at hs
    · exact hlost s hs
    · exact hs

omit hfollows in
theorem agrees_of_family {k : Knowledge} {f : Family} {v v' : Drawers} (hv : Agrees k v)
    (hothers : ∀ g, g ≠ f → (v' g).sets = (v g).sets) (hsame : (v' f).sets = (v f).sets) :
    Agrees k v' := by
  refine hv.kept fun g => ?_
  by_cases hg : g = f
  · rw [hg, hsame]
  · exact hothers g hg

/-- What has been staged behind some turns. The index is a byte of the message. -/
def stagedOf (turns : List (List UInt8 × ℕ)) : List (ℕ × List UInt8) :=
  turns.map fun turn => ((UInt8.ofNat turn.2).toNat, turn.1)

theorem begin_rule (f : Family) (k : Knowledge) (count : ℕ) {version : ℤ}
    (hversion : 0 ≤ version ∧ version ≤ 0xFFFFFFFF) :
    Triple (fun s => Agrees k (view s))
      (onWatch carry (Client.write (ε := ε) f.sync (beginMessage count version)))
      (fun response s => if response.status = 0 then
        Writing k f ⟨(UInt8.ofNat count).toNat, version.toNat, []⟩ (view s) else Agrees k (view s))
      (fun _ s => Agrees k (view s)) := by
  refine sync_rule hfollows (lasting_agrees k) (lasting_writing k f _)
    (fun v v' hv hothers haccepts => ?_) (fun _ hv => hv) (fun _ hv => hv) fun _ hv => hv.1
  have hword : read32 (le32 version.toNat) 0 = version.toNat := by
    have h := read32_le32 (n := version.toNat) (by omega) []
    rwa [List.append_nil] at h
  cases haccepts with
  | begun reserved count' version' hsets hsync =>
      refine ⟨agrees_of_family hv hothers hsets, List.nodup_nil, .inr ?_⟩
      rw [hsync]
      exact congrArg (fun word => some (Sync.mk _ word [])) hword

theorem stage_rule (f : Family) (k : Knowledge) (count version : ℕ)
    (turns : List (List UInt8 × ℕ)) (turn : List UInt8 × ℕ) (record_version : ℤ) :
    Triple (fun s => Writing k f ⟨count, version, stagedOf turns⟩ (view s))
      (onWatch carry (Client.write (ε := ε) f.sync (turnMessage record_version turn)))
      (fun response s => if response.status = 0 then
        Writing k f ⟨count, version, stagedOf (turns ++ [turn])⟩ (view s) else Agrees k (view s))
      (fun _ s => Agrees k (view s)) := by
  refine sync_rule hfollows (lasting_writing k f _) (lasting_writing k f _)
    (fun v v' hv hothers haccepts => ?_) (fun _ hv => hv.1) (fun _ hv => hv) fun _ hv => hv.1
  obtain ⟨hagrees, hnodup, hsync⟩ := hv
  cases haccepts with
  | @staged _ sync version' index record hopen hnew hsets hsync' =>
      rw [hopen, Option.some.injEq] at hsync
      obtain rfl := hsync.resolve_left fun hnone => by cases hnone
      have hstaged : stagedOf (turns ++ [turn]) =
          stagedOf turns ++ [((UInt8.ofNat turn.2).toNat, turn.1)] := List.map_append
      refine ⟨agrees_of_family hagrees hothers hsets, ?_, .inr ?_⟩
      · rw [hstaged, List.map_append]
        refine List.Nodup.append hnodup (List.nodup_singleton _) ?_
        rintro _ hmem hlast
        obtain ⟨turn', hturn', rfl⟩ := List.mem_map.mp hmem
        exact hnew turn' hturn' (List.mem_singleton.mp hlast)
      · rw [hstaged]
        exact hsync'

omit hfollows in
/-- No more than 256 records have indices of their own. -/
theorem staged_length {records : List (List UInt8)}
    (h : ((stagedOf records.zipIdx).map Prod.fst).Nodup) : records.length ≤ 256 := by
  have hsub : (stagedOf records.zipIdx).map Prod.fst ⊆ List.range 256 := fun i hi => by
    obtain ⟨turn, hturn, rfl⟩ := List.mem_map.mp hi
    obtain ⟨turn', -, rfl⟩ := List.mem_map.mp hturn
    exact List.mem_range.mpr (UInt8.toNat_lt _)
  have hlength := (List.subperm_of_subset h hsub).length_le
  simpa [stagedOf] using hlength

omit hfollows in
/-- As many of the staged records as were announced are the first ones. -/
theorem records_of_staged {records committed : List (List UInt8)}
    (hnodup : ((stagedOf records.zipIdx).map Prod.fst).Nodup)
    (hcount : committed.length = (UInt8.ofNat records.length).toNat)
    (hstaged : ∀ (i : ℕ) (record : List UInt8), committed[i]? = some record →
      (i, record) ∈ stagedOf records.zipIdx) :
    committed = records.take (UInt8.ofNat records.length).toNat := by
  have hfits := staged_length hnodup
  have hle : (UInt8.ofNat records.length).toNat ≤ records.length := by
    rw [UInt8.toNat_ofNat']
    exact Nat.mod_le _ _
  refine List.ext_getElem? fun i => ?_
  rw [List.getElem?_take]
  split_ifs with hi
  · have hget : committed[i]? = some committed[i] := List.getElem?_eq_getElem (hcount ▸ hi)
    obtain ⟨turn, hturn, hpair⟩ := List.mem_map.mp (hstaged i _ hget)
    obtain ⟨hindex, hrecord⟩ := Prod.mk.inj hpair
    have hturn' := List.mem_zipIdx_iff_getElem?.mp hturn
    obtain ⟨hlt, -⟩ := List.getElem?_eq_some_iff.mp hturn'
    rw [toNat_ofNat_lt (lt_of_lt_of_le hlt hfits)] at hindex
    rw [hget, ← hrecord, ← hturn', hindex]
  · rw [List.getElem?_eq_none (by omega)]

/-- The set that was announced is the newest one. -/
theorem commit_rule (f : Family) (k : Knowledge) (records : List (List UInt8)) (version : ℕ) :
    Triple (fun s => Writing k f ⟨(UInt8.ofNat records.length).toNat, version,
        stagedOf records.zipIdx⟩ (view s))
      (onWatch carry (Client.write (ε := ε) f.sync [2, 0, UInt8.ofNat records.length]))
      (fun response s => if response.status = 0 then
        Pushed k f ⟨version, records.take (UInt8.ofNat records.length).toNat⟩ (view s) else
        Agrees (k.put f ⟨version, records.take (UInt8.ofNat records.length).toNat⟩ false) (view s))
      (fun _ s => Agrees
        (k.put f ⟨version, records.take (UInt8.ofNat records.length).toNat⟩ false) (view s)) := by
  refine sync_rule hfollows (lasting_writing k f _) (lasting_pushed k f _)
    (fun v v' hv hothers haccepts => ?_) (fun _ hv => hv.1) (fun _ hv => hv.put f _)
    fun _ hv => hv.agrees
  obtain ⟨hagrees, hnodup, hsync⟩ := hv
  cases haccepts with
  | @committed _ sync committed reserved count' hopen hcount hstaged hsets =>
      rw [hopen, Option.some.injEq] at hsync
      obtain rfl := hsync.resolve_left fun hnone => by cases hnone
      obtain rfl := records_of_staged hnodup hcount hstaged
      refine ⟨fun g hg => ?_, ?_⟩
      · rw [hothers g hg]
        exact hagrees g
      · rw [hsets]
        exact (hagrees f).accept _

/-! ### `wait_family_commit` -/

theorem status_rule {P : Drawers → Prop} (hP : Lasting P)
    (hkept : ∀ v v', P v → Kept v v' → P v') :
    Triple (fun s => P (view s)) (onWatch carry (Client.read (ε := ε) "family_state_status"))
      (fun status s => P (view s) ∧ Reports status (view s)) (fun _ s => P (view s)) := by
  unfold Client.read onWatch
  rw [perform_question]
  refine hfollows.status.rule (Q := fun status v => P v ∧ Reports status v) hP
    (fun status => hP.and (lasting_reports status))
    (fun v status v' hv hR => ⟨hkept v v' hv hR.1, fun f token hreport => ?_⟩)
    (fun _ hv => hv) fun _ _ hv => hv.1
  rw [hR.1 f]
  exact hR.2 f token hreport

omit hfollows in
theorem Pushed.kept {k : Knowledge} {f : Family} {contents : Contents} {v v' : Drawers}
    (h : Pushed k f contents v) (hkept : Kept v v') : Pushed k f contents v' :=
  ⟨fun g hg => by rw [hkept g]; exact h.1 g hg, by rw [hkept f]; exact h.2⟩

/-- **The wait** ends when a commit with the token has taken effect. -/
theorem waitLoop_rule (f : Family) (k : Knowledge) {contents : Contents} {token : ℤ}
    (htoken : token = contents.version) (deadline : ℤ) (fuel : ℕ) :
    Triple (fun s => Pushed k f contents (view s))
      (onWatch carry (Client.waitLoop f.operation token deadline fuel))
      (fun _ s => Agrees (k.put f contents true) (view s))
      (fun _ s => Agrees (k.put f contents false) (view s)) := by
  induction fuel with
  | zero => exact triple_throw fun _ hs => hs.agrees
  | succ fuel ih =>
      rw [Client.waitLoop, onWatch_bind]
      refine triple_bind ((clock_rule hfollows (lasting_pushed k f contents)).raises
        fun _ _ hs => hs.agrees) fun now => ?_
      split_ifs
      · rw [onWatch_bind]
        refine triple_bind ((status_rule hfollows (lasting_pushed k f contents)
          fun _ _ hv hkept => hv.kept hkept).raises fun _ _ hs => hs.agrees) fun status => ?_
        have hnext : Triple (fun s => Pushed k f contents (view s) ∧ Reports status (view s))
            (onWatch carry (Client.waitLoop f.operation token deadline fuel))
            (fun _ s => Agrees (k.put f contents true) (view s))
            (fun _ s => Agrees (k.put f contents false) (view s)) :=
          ih.conseq (fun _ hs => hs.1) (fun _ _ hs => hs) fun _ _ hs => hs
        rcases hreport : commitReport status with _ | ⟨state, operation, found⟩
        · exact hnext
        · dsimp only
          by_cases hours : operation = f.operation ∧ (found : ℤ) = token
          · rw [if_pos hours]
            by_cases hstate : state = RECORDS.family_state_states_succeeded
            · rw [if_pos hstate]
              -- this status is of the operation and the token
              refine triple_pure fun s hs => hs.1.confirmed (hs.2 f contents.version ?_)
              have hfound : found = contents.version := by omega
              rw [hreport, hstate, hours.1, hfound]
            · rw [if_neg hstate]
              split_ifs
              · exact triple_throw fun _ hs => hs.1.agrees
              · exact hnext
          · rw [if_neg hours]
            exact hnext
      · exact triple_throw fun _ hs => hs.agrees

theorem wait_family_commit_rule (f : Family) (k : Knowledge) {contents : Contents} {token : ℤ}
    (htoken : token = contents.version) (readings : ℕ) (timeout : ℤ) :
    Triple (fun s => Pushed k f contents (view s))
      (onWatch carry (Client.wait_family_commit readings f.operation token timeout))
      (fun _ s => Agrees (k.put f contents true) (view s))
      (fun _ s => Agrees (k.put f contents false) (view s)) := by
  unfold Client.wait_family_commit
  rw [onWatch_bind]
  exact triple_bind ((clock_rule hfollows (lasting_pushed k f contents)).raises
    fun _ _ hs => hs.agrees) fun start => waitLoop_rule hfollows f k htoken _ readings

/-! ### `push_records` -/

/-- Behind some turns, the watch has taken their records. -/
theorem writeRecords_rule (f : Family) (k : Knowledge) (records : List (List UInt8))
    (count version : ℕ) (record_version : ℤ) :
    Triple (fun s => Writing k f ⟨count, version, []⟩ (view s))
      (onWatch carry (records.zipIdx.forM (Client.writeRecord f.sync record_version)))
      (fun _ s => Writing k f ⟨count, version, stagedOf records.zipIdx⟩ (view s))
      (fun _ s => Agrees k (view s)) := by
  unfold onWatch
  rw [perform_forM]
  refine triple_forM_turns (I := fun pre s => Writing k f ⟨count, version, stagedOf pre⟩ (view s))
    fun pre turn post heq => ?_
  unfold Client.writeRecord Client.ofWire
  change Triple _ (onWatch carry _) _ _
  rw [onWatch_bind]
  refine triple_bind (Q := fun payload s => Writing k f ⟨count, version, stagedOf pre⟩ (view s) ∧
    payload = turnMessage record_version turn) ?_ fun payload => triple_assume ?_
  · exact onWatch_ofExcept (fun payload hpayload s hs =>
      ⟨hs, record_message_ok (mapError_ok_iff.mp hpayload)⟩) fun _ _ s hs => hs.1
  rintro rfl
  exact writeAccepted_rule (stage_rule hfollows f k _ _ pre turn record_version) fun _ h => h.1

/-- **`push_records`** that returns has been confirmed. If it raises, the set may come to be
shown or not: there is never a part of it. -/
theorem push_family (f : Family) (readings : ℕ) (records : List (List UInt8))
    (version record_version : ℤ) (k : Knowledge) :
    Triple (fun s => Agrees k (view s))
      (onWatch carry (Client.push_records readings f.sync records version record_version))
      (fun _ s => Agrees (k.put f ⟨version.toNat, records⟩ true) (view s))
      (fun _ s => Agrees (k.put f ⟨version.toNat, records⟩ false) (view s)) := by
  have hlost : ∀ s, Agrees k (view s) →
      Agrees (k.put f ⟨version.toNat, records⟩ false) (view s) := fun s hs => hs.put f _
  unfold Client.push_records Client.ofWire
  rw [onWatch_bind]
  refine triple_bind (Q := fun payload s => Agrees k (view s) ∧
    (payload = beginMessage records.length version ∧ records.length ≤ 0xFF ∧
      0 ≤ version ∧ version ≤ 0xFFFFFFFF)) ?_ fun payload => triple_assume ?_
  · exact onWatch_ofExcept (fun payload hpayload s hs =>
      ⟨hs, begin_sync_ok (mapError_ok_iff.mp hpayload)⟩) fun _ _ s hs => hlost s hs
  rintro ⟨rfl, hcount, hversion⟩
  rw [onWatch_bind]
  have hbegin := begin_rule (ε := PushExc) hfollows f k records.length hversion
  refine triple_bind ((writeAccepted_rule hbegin fun _ h => h.1).raises fun _ s h => hlost s h)
    fun _ => ?_
  rw [onWatch_bind]
  refine triple_bind ((writeRecords_rule hfollows f k records _ _ record_version).raises
    fun _ s h => hlost s h) fun _ => ?_
  rw [onWatch_bind]
  refine triple_bind (Q := fun payload s => Writing k f
    ⟨(UInt8.ofNat records.length).toNat, version.toNat, stagedOf records.zipIdx⟩ (view s) ∧
      payload = [2, 0, UInt8.ofNat records.length]) ?_ fun payload => triple_assume ?_
  · refine onWatch_ofExcept (fun payload hpayload s hs => ⟨hs, ?_⟩) fun _ _ s hs => hlost s hs.1
    rw [commit_sync_eq hcount] at hpayload
    exact (Except.ok.inj hpayload).symm
  rintro rfl
  rw [onWatch_bind]
  have hcommit := commit_rule (ε := PushExc) hfollows f k records version.toNat
  rw [List.take_of_length_le (le_of_eq (toNat_ofNat_lt (by omega)).symm)] at hcommit
  refine triple_bind (writeAccepted_rule hcommit fun _ h => h.agrees) fun _ => ?_
  rw [onWatch_bind, sync_operation_sync]
  refine triple_bind (Q := fun operation s => Pushed k f ⟨version.toNat, records⟩ (view s) ∧
    operation = f.operation) (triple_pure fun _ hs => ⟨hs, rfl⟩) fun operation =>
      triple_assume ?_
  rintro rfl
  exact wait_family_commit_rule hfollows f k (Int.toNat_of_nonneg hversion.1).symm readings _

/-! ### Other clients -/

omit hfollows in
/-- A call that changes no set. -/
def Harmless (call : Call) : Prop :=
  call = .monotonic ∨ call = .request "family_state_status" OP_READ [] ∨
    ∃ f : Family, call = .request f.digest OP_READ [] ∨ call = .request f.record OP_READ [] ∨
      ∃ i, call = .request f.record OP_WRITE [i]

/-- A client of such calls changes none. -/
theorem keeps_of_harmless {client : Client ε α} (h : client.AsksOnly Harmless)
    (k : Knowledge) : Always (fun s => Agrees k (view s)) (onWatch carry client) := by
  induction client with
  | ret a => exact triple_pure fun _ hs => hs
  | fail e => exact triple_throw fun _ hs => hs
  | ask call next ih =>
      refine triple_bind (Q := fun _ s => Agrees k (view s)) ?_ fun reply => ih reply (h.2 reply)
      rcases h.1 with rfl | rfl | ⟨f, rfl | rfl | ⟨i, rfl⟩⟩
      · intro s hs
        exact (hfollows.clock (view s)).conseq (fun _ ht => ht)
          (fun _ _ ht => lasting_agrees k _ _ ht hs) (fun _ _ ht => lasting_agrees k _ _ ht hs) s rfl
      · exact hfollows.status.keeps (fun _ _ _ hR => hR.1) k
      · exact (hfollows.digest f).keeps (fun _ _ _ hR => hR.1) k
      · exact (hfollows.record f).keeps (fun _ _ _ hR => hR.1) k
      · exact (hfollows.select f i).keeps (fun _ _ _ hR => hR.1) k

end Clients

end Ptlab.Wire
