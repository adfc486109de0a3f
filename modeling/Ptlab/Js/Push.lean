/-
`push` of `companion-cli.mjs`, held against `push_records` (`src/ptlab/wire.py`).

The Python builders refuse a count or an index that does not fit its byte; `push`
stores both into a `Buffer`, which keeps them modulo 256. So on a watch that
accepts every message both write the messages of `pushMessages`, the one for
lists of at most 255 records and the other for lists of any length
(`push_written`), and `push_agrees_iff` says that they agree just on the former.
-/
import Ptlab.Js.Pull
import Ptlab.Wire.PushClient

set_option autoImplicit false

open Bytes Dialogue Effect Ptlab.Gatt Ptlab.Protocol Ptlab.Wire

namespace Ptlab.Js

/-! ## The messages -/

/-- `Buffer.from(values)`. -/
def bufferOf (values : List ℤ) : List UInt8 :=
  values.map fun value => UInt8.ofNat (value % 256).toNat

/-- `RECORD_VERSION`. -/
def RECORD_VERSION : ℤ := RECORDS.schedule_record_version

def beginSync (count version : ℤ) : Except JsError (List UInt8) :=
  let b := List.replicate 7 0
  let b := setByte b 0 0
  let b := setByte b 1 0
  let b := setByte b 2 count
  writeUInt32LE b version 3

def eventMsg (index : ℤ) (record : List UInt8) : List UInt8 :=
  bufferOf [1, RECORD_VERSION, index] ++ record

def commitSync (count : ℤ) : List UInt8 := bufferOf [2, 0, count]

/-- A number of any size in a byte. -/
theorem ofNat_mod (n : ℕ) : UInt8.ofNat ((n : ℤ) % 256).toNat = UInt8.ofNat n := by
  apply UInt8.toNat_inj.mp
  rw [UInt8.toNat_ofNat', UInt8.toNat_ofNat']
  omega

theorem beginSync_eq (count : ℕ) {version : ℤ} (h : 0 ≤ version ∧ version ≤ 0xFFFFFFFF) :
    beginSync count version = .ok (beginMessage count version) := by
  unfold beginSync writeUInt32LE setByte
  dsimp only
  rw [if_pos h, ofNat_mod]
  rfl

theorem eventMsg_eq (index : ℕ) (record : List UInt8) :
    eventMsg index record = turnMessage SCHEDULE_RECORD_VERSION (record, index) := by
  unfold eventMsg bufferOf
  rw [List.map_cons, List.map_cons, List.map_cons, ofNat_mod]
  rfl

theorem commitSync_eq (count : ℕ) : commitSync count = [2, 0, UInt8.ofNat count] := by
  unfold commitSync bufferOf
  rw [List.map_cons, List.map_cons, List.map_cons, ofNat_mod]
  rfl

/-! ## `push` -/

/-- A write, and `if (r.status !== 0) throw new Error(message)`. -/
def writeExpected (message : String) (payload : List UInt8) : Client CliError Unit := do
  let r ← Client.write "schedule_sync" payload
  if r.status ≠ 0 then .fail (.js (.Error message)) else pure ()

/-- What the encoder returns or raises. -/
def ofJs {α : Type} (outcome : Except JsError α) : Client CliError α :=
  ofExcept (outcome.mapError .js)

/-- One turn of the loop over the events. -/
def pushEvent (turn : CliEvent × ℕ) : Client CliError Unit := do
  let record ← ofJs (encodeRecord turn.1)
  writeExpected s!"record {turn.2} rejected" (eventMsg turn.2 record)

/-- The loop that looks for the version in the digest. -/
def confirm (version : ℤ) (count : ℕ) : ℕ → Client CliError ℤ
  | 0 => .fail (.js (.Error "watch did not confirm"))
  | turns + 1 => do
    let reply ← Client.read "schedule_digest"
    let d := reply.payload
    let confirmed ← ofExcept (readUInt32LE d 3)
    if (confirmed : ℤ) = version ∧ (d.getD 2 0).toNat = count then return version
    else confirm version count turns

/-- `push`, with the version it has drawn. Its first and last messages are built in
place, as `beginSync` and `commitSync` build them. -/
def push (version : ℤ) (events : List CliEvent) : Client CliError ℤ := do
  let message ← ofJs (beginSync events.length version)
  writeExpected "BeginSync rejected" message
  events.zipIdx.forM pushEvent
  writeExpected "CommitSync rejected" (commitSync events.length)
  confirm version events.length 10

/-! ## On a watch that accepts -/

section Written

variable {watch : Watch}

theorem writeExpected_against (h : Accepting "schedule_sync" watch) (message : String)
    (payload : List UInt8) (asked : List Call) :
    ((writeExpected message payload).against watch).exec asked =
      (.ok (), asked ++ [.request "schedule_sync" OP_WRITE payload]) := by
  unfold writeExpected
  rw [exec_write_bind, if_neg (not_not.mpr (h asked payload))]
  rfl

/-- The loop that waits reads the digest. -/
theorem confirm_quiet (version : ℤ) (count turns : ℕ) :
    (confirm version count turns).AsksOnly (Quiet "schedule_sync") := by
  induction turns with
  | zero => trivial
  | succ turns ih =>
      rw [confirm]
      refine asksOnly_bind (read_quiet _) fun reply => ?_
      refine asksOnly_bind (asksOnly_ofExcept _) fun confirmed => ?_
      split_ifs
      · trivial
      · exact ih

/-- The record of an event that can be encoded. -/
def encoded (e : CliEvent) : List UInt8 := (encodeRecord e).toOption.getD []

/-- The messages of some turns. -/
def turnMessages (turns : List (CliEvent × ℕ)) : List (List UInt8) :=
  turns.map fun turn => turnMessage SCHEDULE_RECORD_VERSION (encoded turn.1, turn.2)

/-- What `push` has written in front of its commit. -/
def written (count : ℕ) (version : ℤ) (turns : List (CliEvent × ℕ)) : List Call :=
  writeCalls "schedule_sync" (beginMessage count version :: turnMessages turns)

/-- The loop over events that can be encoded. -/
theorem pushEvents_against (h : Accepting "schedule_sync" watch) (count : ℕ) (version : ℤ)
    {turns : List (CliEvent × ℕ)}
    (hencode : ∀ turn ∈ turns, encodeRecord turn.1 = .ok (encoded turn.1)) :
    ((turns.forM pushEvent).against watch).exec (written count version []) =
      (.ok (), written count version turns) := by
  refine exec_against_forM (H := written count version) watch ?_
  intro pre turn post heq
  have hmem : turn ∈ turns := by rw [heq]; simp
  unfold pushEvent
  rw [hencode turn hmem]
  change ((writeExpected _ (eventMsg turn.2 (encoded turn.1))).against watch).exec _ = _
  rw [writeExpected_against h, eventMsg_eq]
  unfold written turnMessages writeCalls
  rw [List.map_append, ← List.cons_append, List.map_append]
  rfl

/-- A list that can be encoded, event by event. -/
theorem encoded_of_mapM {events : List CliEvent} {records : List (List UInt8)}
    (h : events.mapM encodeRecord = .ok records) :
    (∀ e ∈ events, encodeRecord e = .ok (encoded e)) ∧ records = events.map encoded := by
  refine (mapM_ok_iff (fun e _ record => ?_) records).mp h
  unfold encoded
  rcases encodeRecord e with error | b
  · exact ⟨fun h => (by cases h), fun h => (by cases h.1)⟩
  · rw [Except.ok.injEq]
    exact ⟨fun h => ⟨rfl, h.symm⟩, fun h => h.2.symm⟩

/-- The messages of a list that can be encoded are those of its records. -/
theorem turnMessages_zipIdx (events : List CliEvent) :
    turnMessages events.zipIdx =
      (events.map encoded).zipIdx.map (turnMessage SCHEDULE_RECORD_VERSION) := by
  rw [List.zipIdx_map, List.map_map]
  rfl

/-- A push that has begun. -/
theorem push_begun (h : Accepting "schedule_sync" watch) {version : ℤ}
    (hversion : 0 ≤ version ∧ version ≤ 0xFFFFFFFF) (events : List CliEvent) :
    ((push version events).against watch).exec [] =
      (((events.zipIdx.forM pushEvent >>= fun _ =>
        writeExpected "CommitSync rejected" (commitSync events.length) >>= fun _ =>
          confirm version events.length 10).against watch).exec
        (written events.length version [])) := by
  unfold push
  rw [beginSync_eq _ hversion]
  change ((writeExpected "BeginSync rejected" (beginMessage events.length version)
    >>= fun _ => _).against watch).exec [] = _
  rw [exec_against_bind, writeExpected_against h]
  rfl

/-- **The messages of `push`** on a watch that accepts them, for lists of any
length. -/
theorem push_written (h : Accepting "schedule_sync" watch) {version : ℤ}
    (hversion : 0 ≤ version ∧ version ≤ 0xFFFFFFFF) {events : List CliEvent}
    {records : List (List UInt8)} (hrecords : events.mapM encodeRecord = .ok records) :
    ∃ later, (((push version events).against watch).exec []).2 =
      writeCalls "schedule_sync" (pushMessages records version SCHEDULE_RECORD_VERSION) ++ later ∧
      ∀ call ∈ later, Quiet "schedule_sync" call := by
  -- the records are those that the turns encode
  obtain ⟨hencode, rfl⟩ := encoded_of_mapM hrecords
  have hturns : ∀ turn ∈ events.zipIdx, encodeRecord turn.1 = .ok (encoded turn.1) :=
    fun turn hturn => hencode turn.1 (List.fst_mem_of_mem_zipIdx hturn)
  have hloop := pushEvents_against h events.length version hturns
  obtain ⟨later, hlater, hquiet⟩ := (confirm_quiet version events.length 10).against watch
    (writeCalls "schedule_sync"
      (pushMessages (events.map encoded) version SCHEDULE_RECORD_VERSION))
  -- begun, looped, committed: what is left is the wait
  refine ⟨later, ?_, hquiet⟩
  rw [← hlater, push_begun h hversion, exec_against_bind, hloop]
  dsimp only
  rw [exec_against_bind, writeExpected_against h, commitSync_eq, pushMessages_eq,
    ← turnMessages_zipIdx, List.length_map]
  unfold written writeCalls
  rw [List.map_append]
  rfl

/-- An event that cannot be encoded is found only at its turn: the messages in front
of it have been written by then, and no commit follows. -/
theorem push_unencodable (h : Accepting "schedule_sync" watch) {version : ℤ}
    (hversion : 0 ≤ version ∧ version ≤ 0xFFFFFFFF) {pre post : List CliEvent} {e : CliEvent}
    {error : JsError} (hpre : ∀ e ∈ pre, encodeRecord e = .ok (encoded e))
    (he : encodeRecord e = .error error) :
    ((push version (pre ++ e :: post)).against watch).exec [] =
      (.error (.js error), written (pre ++ e :: post).length version pre.zipIdx) := by
  have hturns : ∀ turn ∈ pre.zipIdx, encodeRecord turn.1 = .ok (encoded turn.1) :=
    fun turn hturn => hpre turn.1 (List.fst_mem_of_mem_zipIdx hturn)
  have hloop : (((pre ++ e :: post).zipIdx.forM pushEvent).against watch).exec
      (written (pre ++ e :: post).length version []) =
        (.error (.js error), written (pre ++ e :: post).length version pre.zipIdx) := by
    have happend : (pre ++ e :: post).zipIdx.forM pushEvent =
        (pre.zipIdx.forM pushEvent >>= fun _ =>
          ((e, 0 + pre.length) :: post.zipIdx (0 + pre.length + 1)).forM pushEvent) := by
      rw [List.zipIdx_append, List.zipIdx_cons]
      exact List.forM_append
    -- the turns in front go through, and the next one raises before it writes
    rw [happend, exec_against_bind, pushEvents_against h _ version hturns]
    dsimp only
    rw [List.forM, exec_against_bind]
    unfold pushEvent
    rw [he]
    rfl
  rw [push_begun h hversion, exec_against_bind, hloop]

end Written

/-! ## The two pushes -/

/-- The record messages among some messages. -/
def recordsIn (messages : List (List UInt8)) : List (List UInt8) :=
  messages.filter fun message => message.head? = some 1

theorem recordsIn_pushMessages (records : List (List UInt8)) (version record_version : ℤ) :
    recordsIn (pushMessages records version record_version) =
      records.zipIdx.map (turnMessage record_version) := by
  have hturns : recordsIn (records.zipIdx.map (turnMessage record_version)) =
      records.zipIdx.map (turnMessage record_version) := by
    refine List.filter_eq_self.mpr fun message hmessage => ?_
    obtain ⟨turn, -, rfl⟩ := List.mem_map.mp hmessage
    rfl
  unfold recordsIn at hturns ⊢
  rw [pushMessages_eq, List.filter_append, List.filter_cons_of_neg Bool.false_ne_true, hturns]
  exact List.append_nil _

/-- The indices of the records, as the messages have them. -/
theorem indices_pushMessages (records : List (List UInt8)) (version record_version : ℤ) :
    (recordsIn (pushMessages records version record_version)).map (fun message =>
      message.getD 2 0) = (List.range records.length).map UInt8.ofNat := by
  have hindices : records.zipIdx.map Prod.snd = List.range records.length := by
    rw [List.zipIdx_map_snd, List.range_eq_range']
  rw [recordsIn_pushMessages, List.map_map, ← hindices, List.map_map]
  rfl

/-- Up to 256 numbers stay apart in a byte. -/
theorem nodup_map_ofNat {n : ℕ} (h : n ≤ 256) : ((List.range n).map UInt8.ofNat).Nodup := by
  refine List.Nodup.map_on (fun i hi j hj heq => ?_) List.nodup_range
  rw [List.mem_range] at hi hj
  have hbytes := congrArg UInt8.toNat heq
  rw [toNat_ofNat_lt (by omega), toNat_ofNat_lt (by omega)] at hbytes
  exact hbytes

/-- The calls of `push`, and how it ends. -/
def pushRun (watch : Watch) (version : ℤ) (events : List CliEvent) :
    Except CliError ℤ × List Call := ((push version events).against watch).exec []

/-- The calls of `push_records` on `GattClient`, and how it ends. -/
def pushRecordsRun (watch : Watch) (readings : ℕ) (version : ℤ) (records : List (List UInt8)) :
    Except PushExc Unit × List Call :=
  ((Client.push_records readings "schedule_sync" records version
    SCHEDULE_RECORD_VERSION).received id watch).exec []

theorem messagesOf_pushRun {watch : Watch} (hwatch : Accepting "schedule_sync" watch) {version : ℤ}
    (hversion : 0 ≤ version ∧ version ≤ 0xFFFFFFFF) {events : List CliEvent}
    {records : List (List UInt8)} (hrecords : events.mapM encodeRecord = .ok records) :
    messagesOf "schedule_sync" (pushRun watch version events).2 =
      pushMessages records version SCHEDULE_RECORD_VERSION := by
  obtain ⟨later, hrun, hquiet⟩ := push_written hwatch hversion hrecords
  unfold pushRun
  rw [hrun, messagesOf_append_quiet hquiet, messagesOf_writeCalls]

/-- The two pushes of a list: the messages are the same, what `push_records`
refuses `push` refuses before its first call, the announced count is that of the
records, and no two of them have the same index. -/
structure PushesAgree (watch : Watch) (readings : ℕ) (version : ℤ) (events : List CliEvent)
    (records : List (List UInt8)) : Prop where
  same : messagesOf "schedule_sync" (pushRun watch version events).2 =
    messagesOf "schedule_sync" (pushRecordsRun watch readings version records).2
  refuses : ∀ error, pushRecordsRun watch readings version records = (.error error, []) →
    ∃ error', pushRun watch version events = (.error error', [])
  announced : ∀ first ∈ (messagesOf "schedule_sync" (pushRun watch version events).2).head?,
    (first.getD 2 0).toNat =
      (recordsIn (messagesOf "schedule_sync" (pushRun watch version events).2)).length
  indices : ((recordsIn (messagesOf "schedule_sync" (pushRun watch version events).2)).map
    fun message => message.getD 2 0).Nodup

/-- **The two pushes agree** exactly on lists of at most 255 events. A write is accepted if
its reply has status 0 and is one that `GattClient` takes. -/
theorem push_agrees_iff {watch : Watch} (hwatch : Accepting "schedule_sync" watch)
    (htaken : TakenWrites "schedule_sync" watch)
    {version : ℤ} (hversion : 1 ≤ version ∧ version ≤ 0xFFFFFFFF) {events : List CliEvent}
    {records : List (List UInt8)} (hrecords : events.mapM encodeRecord = .ok records)
    (readings : ℕ) :
    PushesAgree watch readings version events records ↔ events.length ≤ 255 := by
  have hrange : 0 ≤ version ∧ version ≤ 0xFFFFFFFF := ⟨by omega, hversion.2⟩
  have hlength : records.length = events.length := by
    obtain ⟨-, rfl⟩ := encoded_of_mapM hrecords
    exact List.length_map encoded
  have hmessages := messagesOf_pushRun hwatch hrange hrecords
  constructor
  · -- a longer list is refused by the one and begun by the other
    intro h
    by_contra hlong
    have hrefused : pushRecordsRun watch readings version records =
        (.error (.wire (.ValueError "sync count must be a u8")), []) :=
      push_records_refused (hlength ▸ hlong) readings "schedule_sync" watch
    obtain ⟨error, hnothing⟩ := h.refuses _ hrefused
    rw [hnothing] at hmessages
    cases hmessages
  · intro hle
    have hcount : records.length ≤ 0xFF := hlength ▸ hle
    have hrecord : 0 ≤ SCHEDULE_RECORD_VERSION ∧ SCHEDULE_RECORD_VERSION ≤ 0xFF := by decide
    obtain ⟨laterRecords, hrunRecords, hquietRecords⟩ := push_records_received hwatch htaken (.inl rfl)
      hcount hrange hrecord readings
    have hwritten : (pushRecordsRun watch readings version records).2 =
        writeCalls "schedule_sync" (pushMessages records version SCHEDULE_RECORD_VERSION) ++
          laterRecords := hrunRecords
    refine ⟨?_, fun error hnothing => ?_, ?_, ?_⟩
    · rw [hmessages, hwritten, messagesOf_append_quiet hquietRecords, messagesOf_writeCalls]
    · -- it has begun, so it was not refused
      rw [hnothing] at hwritten
      cases hwritten
    · rw [hmessages, recordsIn_pushMessages, List.length_map, List.length_zipIdx]
      intro first hfirst
      obtain rfl := Option.some.inj hfirst
      exact toNat_ofNat_lt (by omega)
    · rw [hmessages, indices_pushMessages]
      exact nodup_map_ofNat (by omega)

/-- A watch that accepts everything. -/
def acceptingWatch : Watch := scripted []

theorem acceptingWatch_accepting : Accepting "schedule_sync" acceptingWatch := fun _ _ => rfl

theorem acceptingWatch_taken : TakenWrites "schedule_sync" acceptingWatch :=
  fun _ _ => Nat.zero_le _

/-- The event of the golden record. -/
def goldenEvent : CliEvent := decodeRecord goldenRecord

theorem encodeRecord_goldenEvent : encodeRecord goldenEvent = .ok goldenRecord.val := rfl

/-- Copies of it are encoded to copies of its record. -/
theorem mapM_replicate_golden (n : ℕ) : (List.replicate n goldenEvent).mapM encodeRecord =
    .ok (List.replicate n goldenRecord.val) := by
  induction n with
  | zero => rfl
  | succ n ih =>
      rw [List.replicate_succ, List.mapM_cons, ih, encodeRecord_goldenEvent]
      rfl

theorem push_agrees_two :
    PushesAgree acceptingWatch 3 7 (List.replicate 2 goldenEvent)
      (List.replicate 2 goldenRecord.val) :=
  (push_agrees_iff acceptingWatch_accepting acceptingWatch_taken ⟨by decide, by decide⟩
    (mapM_replicate_golden 2) 3).mpr (by decide)

/-- 256 events are announced as none. `push_records` refuses them. -/
theorem push_announces_none :
    (List.replicate 256 goldenEvent).mapM encodeRecord =
        .ok (List.replicate 256 goldenRecord.val) ∧
      pushRecordsRun acceptingWatch 3 7 (List.replicate 256 goldenRecord.val) =
        (.error (.wire (.ValueError "sync count must be a u8")), []) ∧
      messagesOf "schedule_sync" (pushRun acceptingWatch 7 (List.replicate 256 goldenEvent)).2 =
        pushMessages (List.replicate 256 goldenRecord.val) 7 SCHEDULE_RECORD_VERSION ∧
      beginMessage 256 7 = [0, 0, 0, 7, 0, 0, 0] ∧
      ¬ PushesAgree acceptingWatch 3 7 (List.replicate 256 goldenEvent)
        (List.replicate 256 goldenRecord.val) := by
  have hmessages := messagesOf_pushRun acceptingWatch_accepting
    (show (0 : ℤ) ≤ 7 ∧ (7 : ℤ) ≤ 0xFFFFFFFF by decide) (mapM_replicate_golden 256)
  have hrefused : pushRecordsRun acceptingWatch 3 7 (List.replicate 256 goldenRecord.val) =
      (.error (.wire (.ValueError "sync count must be a u8")), []) := by
    -- 256 events do not fit the count of `push_records`, and `push` announces 0
    refine push_records_refused ?_ 3 "schedule_sync" acceptingWatch
    rw [List.length_replicate]
    decide
  refine ⟨mapM_replicate_golden 256, hrefused, hmessages, rfl, fun h => ?_⟩
  obtain ⟨error, hnothing⟩ := h.refuses _ hrefused
  rw [hnothing] at hmessages
  cases hmessages

end Ptlab.Js
