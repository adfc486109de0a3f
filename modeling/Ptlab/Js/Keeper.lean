/-
A watch that stores the records that are pushed to it and returns them unchanged, as
the clients of `companion-cli.mjs` see it.

A begin with a count that it has room for opens a session, records are taken in their
order, and a commit of as many as were announced puts them in the place of the old
ones. It does so behind its reply: the digest shows the old ones for a while, though not
for as long as `push` looks at it. `pull_keeper` and `push_keeper` say what the two halves
of a command come to; a push that returns had a record for every event
(`encoded_of_push`).
-/
import Ptlab.Js.Event

set_option autoImplicit false

open Bytes Dialogue Effect Utf8 Ptlab.Gatt Ptlab.Protocol Ptlab.Wire

namespace Ptlab.Js

/-! ## The watch -/

/-- A push that has begun. -/
structure Session where
  count : ℕ
  version : ℕ
  staged : List Record

/-- The schedule of a watch, and what its client is at. Behind a commit, so many looks at the
digest still show the old schedule: fewer than `push` has. -/
structure Keeper where
  capacity : UInt8
  records : List Record
  version : ℕ
  selected : List UInt8
  session : Option Session
  lag : Fin 10

/-- A commit that was accepted, and the looks until it shows. -/
structure Landing where
  records : List Record
  version : ℕ
  looks : ℕ

/-- The watch at work. -/
structure Keeping where
  keeper : Keeper
  landing : Option Landing

/-- Nothing is to come. -/
def Keeper.settled (w : Keeper) : Keeping := ⟨w, none⟩

/-- The status of what is refused. -/
def refused : GattResponse := ⟨0x80, []⟩

def accepted : GattResponse := ⟨0, []⟩

/-- The payload of the digest. -/
def Keeper.digest (w : Keeper) : List UInt8 :=
  [3, w.capacity, UInt8.ofNat w.records.length] ++ le32 w.version

/-- A write to `event_read`: the index of the record that is read next. -/
def Keeper.select (w : Keeper) (payload : List UInt8) : GattResponse × Keeper :=
  match payload with
  | [i] =>
    match w.records[i.toNat]? with
    | some record => (accepted, { w with selected := record.val })
    | none => (refused, w)
  | _ => (refused, w)

/-- A begin. -/
def Keeper.beginSync (w : Keeper) (count : UInt8) (version : List UInt8) :
    GattResponse × Keeper :=
  if count ≤ w.capacity then
    (accepted, { w with session := some ⟨count.toNat, read32 version 0, []⟩ })
  else (refused, w)

/-- A record. -/
def Keeper.stage (w : Keeper) (index : UInt8) (record : List UInt8) : GattResponse × Keeper :=
  match w.session with
  | some session =>
    if h : record.length = RECORDS.schedule_record_size then
      if index.toNat = session.staged.length ∧ session.staged.length < session.count then
        (accepted, { w with
          session := some { session with staged := session.staged ++ [⟨record, h⟩] } })
      else (refused, w)
    else (refused, w)
  | none => (refused, w)

/-- A commit. -/
def Keeping.commit (s : Keeping) (count : UInt8) : GattResponse × Keeping :=
  match s.keeper.session with
  | some session =>
    if session.staged.length = session.count ∧ count.toNat = session.count then
      (accepted, ⟨{ s.keeper with session := none },
        some ⟨session.staged, session.version, s.keeper.lag⟩⟩)
    else (refused, s)
  | none => (refused, s)

/-- What leaves what is to come as it is. -/
def Keeping.now (s : Keeping) (answer : GattResponse × Keeper) : GattResponse × Keeping :=
  (answer.1, { s with keeper := answer.2 })

/-- A write to `schedule_sync`. -/
def Keeping.sync (s : Keeping) (payload : List UInt8) : GattResponse × Keeping :=
  match payload with
  | kind :: second :: third :: rest =>
    if kind = 0 then s.now (s.keeper.beginSync third rest)
    else if kind = 1 then s.now (s.keeper.stage third rest)
    else if kind = 2 ∧ second = 0 then s.commit third
    else (refused, s)
  | _ => (refused, s)

/-- A look at the digest. -/
def Keeping.look (s : Keeping) : GattResponse × Keeping :=
  match s.landing with
  | some ⟨records, version, 0⟩ =>
    let w := { s.keeper with records := records, version := version }
    (⟨0, w.digest⟩, w.settled)
  | some ⟨records, version, looks + 1⟩ =>
    (⟨0, s.keeper.digest⟩, ⟨s.keeper, some ⟨records, version, looks⟩⟩)
  | none => (⟨0, s.keeper.digest⟩, s)

/-- What a request is answered. -/
def Keeping.request (s : Keeping) (characteristic : String) (operation : ℤ)
    (payload : List UInt8) : GattResponse × Keeping :=
  if characteristic = "schedule_digest" ∧ operation = OP_READ then s.look
  else if characteristic = "event_read" ∧ operation = OP_READ then (⟨0, s.keeper.selected⟩, s)
  else if characteristic = "event_read" ∧ operation = OP_WRITE then
    s.now (s.keeper.select payload)
  else if characteristic = "schedule_sync" ∧ operation = OP_WRITE then s.sync payload
  else (refused, s)

/-- A call, carried out by the watch. -/
def Keeping.carry : (call : Call) → Effect Keeping CliError call.Reply
  | .request characteristic operation payload =>
    .of fun s => match s.request characteristic operation payload with
      | (reply, s') => (.ok reply, s')
  | .monotonic => .of fun s => (.ok (0 : ℤ), s)

/-- A client of the watch. -/
def onKeeper {α : Type} (client : Client CliError α) : Effect Keeping CliError α :=
  client.perform Keeping.carry id

section On

variable {α β : Type}

theorem onKeeper_bind (client : Client CliError α) (f : α → Client CliError β) :
    onKeeper (client >>= f) = onKeeper client >>= fun a => onKeeper (f a) :=
  perform_bind Keeping.carry id client f

theorem exec_onKeeper_ofExcept (outcome : Except CliError α) (s : Keeping) :
    (onKeeper (ofExcept outcome : Client CliError α)).exec s = (outcome, s) := by
  rcases outcome with e | a
  · rfl
  · rfl

theorem exec_onKeeper_read (characteristic : String) (s : Keeping) :
    (onKeeper (Client.read characteristic)).exec s =
      (.ok (s.request characteristic OP_READ []).1, (s.request characteristic OP_READ []).2) := rfl

theorem exec_onKeeper_write (characteristic : String) (payload : List UInt8) (s : Keeping) :
    (onKeeper (Client.write characteristic payload)).exec s =
      (.ok (s.request characteristic OP_WRITE payload).1,
        (s.request characteristic OP_WRITE payload).2) := rfl

end On

/-! ## `pull` -/

/-- One turn: the record is selected and read. -/
theorem exec_pullEvent (w : Keeper) {i : ℕ} (hi : i < 256) {record : Record}
    (hrecord : w.records[i]? = some record) :
    (onKeeper (pullEvent i)).exec w.settled =
      (.ok (pulledEvent record.val), { w with selected := record.val }.settled) := by
  have hselect : w.settled.request "event_read" OP_WRITE [UInt8.ofNat i] =
      (accepted, { w with selected := record.val }.settled) := by
    change w.settled.now (w.select [UInt8.ofNat i]) = _
    unfold Keeper.select
    dsimp only
    rw [toNat_ofNat_lt hi, hrecord]
    rfl
  have hdecode : decodePayload record.val = .ok (pulledEvent record.val) :=
    (decodePayload_ok_iff _ _).mpr ⟨by rw [record.property]; decide, rfl⟩
  unfold pullEvent
  rw [onKeeper_bind, exec_bind, exec_onKeeper_write, hselect]
  dsimp only
  rw [onKeeper_bind, exec_bind, exec_onKeeper_read]
  dsimp only
  rw [exec_onKeeper_ofExcept]
  change (decodePayload record.val, _) = _
  rw [hdecode]
  rfl

/-- The turns for the records behind some others. -/
theorem exec_pullEvents (post : List Record) : ∀ (w : Keeper) (pre : List Record),
    w.records = pre ++ post → w.records.length < 256 →
      ∃ selected, (onKeeper ((List.range' pre.length post.length).mapM pullEvent)).exec
        w.settled = (.ok (post.map fun record => pulledEvent record.val),
          { w with selected := selected }.settled) := by
  induction post with
  | nil => exact fun w pre _ _ => ⟨w.selected, rfl⟩
  | cons record post ih =>
      intro w pre hrecords hfits
      have hget : w.records[pre.length]? = some record := by
        rw [hrecords, List.getElem?_append_right le_rfl, Nat.sub_self]
        rfl
      have hlt : pre.length < 256 := by
        rw [hrecords, List.length_append] at hfits
        omega
      -- reading leaves the records; only the selected one is another
      obtain ⟨selected, hrest⟩ := ih { w with selected := record.val } (pre ++ [record])
        (by rw [List.append_assoc]; exact hrecords) hfits
      rw [List.length_append, List.length_singleton] at hrest
      refine ⟨selected, ?_⟩
      rw [List.length_cons, List.range'_succ, List.mapM_cons, onKeeper_bind, exec_bind,
        exec_pullEvent w hlt hget]
      dsimp only
      rw [onKeeper_bind, exec_bind, hrest]
      rfl

/-- **`pull`** returns the records that are stored, and changes none. -/
theorem pull_keeper (w : Keeper) (hfits : w.records.length < 256) :
    ∃ selected pulled,
      (onKeeper pull).exec w.settled = (.ok pulled, { w with selected := selected }.settled) ∧
      pulled.events = w.records.map fun record => pulledEvent record.val := by
  have hdigest : w.settled.request "schedule_digest" OP_READ [] =
      (⟨0, w.digest⟩, w.settled) := rfl
  have hcount : (w.digest.getD 2 0).toNat = w.records.length := toNat_ofNat_lt hfits
  have hversion : readUInt32LE w.digest 3 = .ok (read32 w.digest 3) := if_pos le_rfl
  obtain ⟨selected, hloop⟩ := exec_pullEvents w.records w [] rfl hfits
  rw [List.length_nil] at hloop
  refine ⟨selected, ⟨w.records.map fun record => pulledEvent record.val, read32 w.digest 3,
    (w.digest.getD 1 0).toNat⟩, ?_, rfl⟩
  unfold pull
  rw [onKeeper_bind, exec_bind, exec_onKeeper_read, hdigest]
  dsimp only
  rw [onKeeper_bind, exec_bind, exec_onKeeper_ofExcept, hversion]
  dsimp only
  rw [onKeeper_bind, exec_bind, hcount, List.range_eq_range', hloop]
  rfl

/-! ## `push` -/

theorem exec_writeExpected {s s' : Keeping} {payload : List UInt8}
    (h : s.request "schedule_sync" OP_WRITE payload = (accepted, s')) (message : String) :
    (onKeeper (writeExpected message payload)).exec s = (.ok (), s') := by
  unfold writeExpected
  rw [onKeeper_bind, exec_bind, exec_onKeeper_write, h]
  rfl

/-- One turn of a push that has begun. -/
theorem exec_pushRecord {w : Keeper} {session : Session} (hsession : w.session = some session)
    {record : Record} (hcount : session.staged.length < session.count)
    (hfits : session.count < 256) :
    (onKeeper (pushRecord (.ok record.val, session.staged.length))).exec w.settled =
      (.ok (), { w with
        session := some { session with staged := session.staged ++ [record] } }.settled) := by
  refine exec_writeExpected ?_ _
  rw [eventMsg_eq]
  change w.settled.now (w.stage (UInt8.ofNat session.staged.length) record.val) = _
  unfold Keeper.stage
  rw [hsession]
  dsimp only
  rw [dif_pos record.property, if_pos ⟨toNat_ofNat_lt (by omega), hcount⟩]
  rfl

/-- The turns of a push behind those for some records. -/
theorem exec_pushRecords (post : List Record) : ∀ (w : Keeper) (session : Session),
    w.session = some session → session.count = session.staged.length + post.length →
      session.count < 256 →
        (onKeeper (((post.map fun record => .ok record.val).zipIdx session.staged.length).forM
          pushRecord)).exec w.settled = (.ok (), { w with
            session := some { session with staged := session.staged ++ post } }.settled) := by
  induction post with
  | nil =>
      intro w session hsession _ _
      rw [List.append_nil, ← hsession]
      rfl
  | cons record post ih =>
      intro w session hsession hcount hfits
      rw [List.length_cons] at hcount
      -- the index of the next record is the number of those that were taken
      have hrest := ih { w with session := some { session with staged := session.staged ++ [record] } }
        { session with staged := session.staged ++ [record] } rfl (by simp; omega) hfits
      rw [List.map_cons, List.zipIdx_cons, List.forM, onKeeper_bind, exec_bind,
        exec_pushRecord hsession (by omega) hfits]
      dsimp only at hrest ⊢
      rw [List.length_append, List.append_assoc] at hrest
      exact hrest

/-- One look of `confirm`. -/
theorem exec_confirm_look {s s' : Keeping} {w : Keeper} (hlook : s.look = (⟨0, w.digest⟩, s'))
    (hfits : w.records.length < 256) (version : ℤ) (count turns : ℕ) :
    (onKeeper (confirm version count (turns + 1))).exec s =
      if (read32 w.digest 3 : ℤ) = version ∧ w.records.length = count then (.ok version, s')
      else (onKeeper (confirm version count turns)).exec s' := by
  have hdigest : s.request "schedule_digest" OP_READ [] = (⟨0, w.digest⟩, s') := hlook
  have hcount : (w.digest.getD 2 0).toNat = w.records.length := toNat_ofNat_lt hfits
  have hversion : readUInt32LE w.digest 3 = .ok (read32 w.digest 3) := if_pos le_rfl
  rw [confirm, onKeeper_bind, exec_bind, exec_onKeeper_read, hdigest]
  dsimp only
  rw [onKeeper_bind, exec_bind, exec_onKeeper_ofExcept, hversion]
  dsimp only
  rw [hcount]
  split_ifs
  · rfl
  · rfl

/-- The version is looked for until it shows. The old schedule has another count. -/
theorem exec_confirm (w : Keeper) (records : List Record) {version : ℤ}
    (hversion : 0 ≤ version ∧ version ≤ 0xFFFFFFFF) (hfits : w.records.length < 256)
    (hfits' : records.length < 256) (hother : records.length ≠ w.records.length) :
    ∀ looks turns, looks < turns →
      (onKeeper (confirm version records.length turns)).exec
        ⟨w, some ⟨records, version.toNat, looks⟩⟩ =
          (.ok version, { w with records := records, version := version.toNat }.settled) := by
  intro looks
  induction looks with
  | zero =>
      rintro (_ | turns) hturns
      · omega
      have hword : read32 ({ w with records := records, version := version.toNat }.digest) 3 =
          version.toNat := by
        have h := read32_le32 (n := version.toNat) (by omega) []
        rwa [List.append_nil] at h
      rw [exec_confirm_look (w := { w with records := records, version := version.toNat }) rfl
        hfits', if_pos ⟨by rw [hword]; exact Int.toNat_of_nonneg hversion.1, rfl⟩]
  | succ looks ih =>
      rintro (_ | turns) hturns
      · omega
      rw [exec_confirm_look (w := w) rfl hfits, if_neg fun h => hother h.2.symm]
      exact ih turns (by omega)

/-- A begin that there is room for. -/
theorem request_begin (w : Keeper) {count : ℕ} (hroom : count ≤ w.capacity.toNat) {version : ℤ}
    (hversion : 0 ≤ version ∧ version ≤ 0xFFFFFFFF) :
    w.settled.request "schedule_sync" OP_WRITE (beginMessage count version) =
      (accepted, { w with session := some ⟨count, version.toNat, []⟩ }.settled) := by
  have hcount : (UInt8.ofNat count).toNat = count :=
    toNat_ofNat_lt (lt_of_le_of_lt hroom w.capacity.toNat_lt)
  have hword : read32 (le32 version.toNat) 0 = version.toNat := by
    have h := read32_le32 (n := version.toNat) (by omega) []
    rwa [List.append_nil] at h
  change w.settled.now (w.beginSync (UInt8.ofNat count) (le32 version.toNat)) = _
  unfold Keeper.beginSync
  rw [if_pos (UInt8.le_iff_toNat_le.mpr (by rw [hcount]; exact hroom)), hcount, hword]
  rfl

/-- A commit behind as many records as were announced. -/
theorem request_commit {w : Keeper} {records : List Record} {version : ℕ}
    (hsession : w.session = some ⟨records.length, version, records⟩)
    (hfits : records.length < 256) :
    w.settled.request "schedule_sync" OP_WRITE (commitSync records.length) =
      (accepted, ⟨{ w with session := none }, some ⟨records, version, w.lag⟩⟩) := by
  rw [commitSync_eq]
  change w.settled.commit (UInt8.ofNat records.length) = _
  unfold Keeping.commit Keeper.settled
  dsimp only
  rw [hsession]
  dsimp only
  rw [if_pos ⟨rfl, toNat_ofNat_lt hfits⟩]

/-- **`push`** of more or fewer records than there are, and for which there is room, puts them
in the place of the old ones. -/
theorem push_keeper (w : Keeper) (records : List Record) (hroom : records.length ≤ w.capacity.toNat)
    (hfits : w.records.length < 256) (hother : records.length ≠ w.records.length)
    {version : ℤ} (hversion : 0 ≤ version ∧ version ≤ 0xFFFFFFFF) :
    (onKeeper (pushEncoded version (records.map fun record => .ok record.val))).exec w.settled =
      (.ok version,
        { w with records := records, version := version.toNat, session := none }.settled) := by
  have hfits' : records.length < 256 := lt_of_le_of_lt hroom w.capacity.toNat_lt
  have hloop := exec_pushRecords records
    { w with session := some ⟨records.length, version.toNat, []⟩ }
    ⟨records.length, version.toNat, []⟩ rfl (by simp) hfits'
  have hcommit := request_commit
    (w := { w with session := some ⟨records.length, version.toNat, records⟩ }) rfl hfits'
  unfold pushEncoded
  rw [List.length_map, beginSync_eq _ hversion]
  change (onKeeper (writeExpected "BeginSync rejected" (beginMessage records.length version)
    >>= fun _ => _)).exec w.settled = _
  rw [onKeeper_bind, exec_bind, exec_writeExpected (request_begin w hroom hversion)]
  dsimp only
  rw [onKeeper_bind, exec_bind]
  rw [List.length_nil] at hloop
  rw [hloop]
  dsimp only
  rw [List.nil_append, onKeeper_bind, exec_bind, exec_writeExpected hcommit]
  dsimp only
  exact exec_confirm { w with session := none } records hversion hfits hfits' hother w.lag 10
    w.lag.isLt

/-- A push that returns had a record for every event. -/
theorem encoded_of_push {s s' : Keeping} {version version' : ℤ}
    {outcomes : List (Except JsError (List UInt8))}
    (h : (onKeeper (pushEncoded version outcomes)).exec s = (.ok version', s')) :
    ∀ outcome ∈ outcomes, ∃ record, outcome = .ok record := by
  -- each turn returned
  have hturns : ∀ (turns : List (Except JsError (List UInt8) × ℕ)) (s s' : Keeping),
      (onKeeper (turns.forM pushRecord)).exec s = (.ok (), s') →
        ∀ turn ∈ turns, ∃ record, turn.1 = .ok record := by
    intro turns
    induction turns with
    | nil => exact fun _ _ _ turn hturn => by cases hturn
    | cons turn turns ih =>
        intro s s' hrun
        rw [List.forM, onKeeper_bind] at hrun
        obtain ⟨_, t, hfirst, hrest⟩ := exec_bind_ok.mp hrun
        refine List.forall_mem_cons.mpr ⟨?_, ih t s' hrest⟩
        unfold pushRecord at hfirst
        rcases hrecord : turn.1 with error | record
        · rw [hrecord] at hfirst
          cases hfirst
        · exact ⟨record, rfl⟩
  unfold pushEncoded at h
  rw [onKeeper_bind] at h
  obtain ⟨_, s, -, h⟩ := exec_bind_ok.mp h
  rw [onKeeper_bind] at h
  obtain ⟨_, t, -, h⟩ := exec_bind_ok.mp h
  rw [onKeeper_bind] at h
  obtain ⟨_, t', hloop, -⟩ := exec_bind_ok.mp h
  intro outcome houtcome
  obtain ⟨index, hindex⟩ := List.mem_iff_getElem?.mp houtcome
  exact hturns _ _ _ hloop (outcome, index) (List.mem_zipIdx_iff_getElem?.mpr hindex)

end Ptlab.Js
