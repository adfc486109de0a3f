/-
`pull` of `companion-cli.mjs`, held against `pull_records` (`src/ptlab/wire.py`).

Both clients make the same calls, and both are dialogues with the same watch.
The Python one looks at the status of every reply and at the length of the
digest, and its `GattClient` takes no reply of more than 64 bytes; `pull` looks at
neither, its bridge takes everything, and it stops only where a reply is too short for
what it reads from it. `pull_agrees_iff` says on which watches that makes no
difference. A reply with status 0xF0 is out of the question: in front of either client it
is the beginning of a notification.
-/
import Ptlab.Js.CompanionCli
import Ptlab.Wire.Pull

set_option autoImplicit false

open Bytes Dialogue Effect Utf8 Ptlab.Gatt Ptlab.Protocol Ptlab.Wire

namespace Ptlab.Js

/-! ## Reading from a buffer -/

/-- What the functions of the companion raise: what the encoder does, and
`ERR_BUFFER_OUT_OF_BOUNDS` for a buffer that is shorter than the word read. -/
inductive CliError where
  | js (error : JsError)
  | ERR_BUFFER_OUT_OF_BOUNDS
  deriving DecidableEq, Repr

/-- Where a word of `width` bytes does not lie in the buffer. -/
def boundsError (b : List UInt8) (width : ℕ) : CliError :=
  if b.length < width then .ERR_BUFFER_OUT_OF_BOUNDS else .js .ERR_OUT_OF_RANGE

/-- `b.readUInt16LE(offset)`. -/
def readUInt16LE (b : List UInt8) (offset : ℕ) : Except CliError ℕ :=
  if offset + 2 ≤ b.length then .ok (read16 b offset) else .error (boundsError b 2)

/-- `b.readUInt32LE(offset)`. -/
def readUInt32LE (b : List UInt8) (offset : ℕ) : Except CliError ℕ :=
  if offset + 4 ≤ b.length then .ok (read32 b offset) else .error (boundsError b 4)

/-- The object `decodeRecord` makes of a buffer of any length. Two of its bytes may
lie behind the end, where JavaScript reads `undefined`. -/
structure PulledEvent where
  id : ℕ
  ruleKind : ℕ
  hour : ℕ
  minute : ℕ
  year : ℕ
  month : ℕ
  day : ℕ
  param : ℕ
  enabled : Bool
  title : List UInt16
  lastModified : ℕ
  endYear : ℕ
  endMonth : Option ℕ
  endDay : Option ℕ
  raw : List UInt8
  deriving DecidableEq, Repr

/-- That object, with the four words. The bytes read by index lie in front of the
last word. -/
def eventOf (b : List UInt8) (id year lastModified endYear : ℕ) : PulledEvent where
  id := id
  ruleKind := (b.getD 2 0).toNat
  hour := (b.getD 3 0).toNat
  minute := (b.getD 4 0).toNat
  year := year
  month := (b.getD 7 0).toNat
  day := (b.getD 8 0).toNat
  param := (b.getD 9 0).toNat
  enabled := (b.getD 10 0).toNat % 2 = 1
  title := (units (decode ((b.drop 11).take 24))).takeWhile (· ≠ 0)
  lastModified := lastModified
  endYear := endYear
  endMonth := b[41]?.map UInt8.toNat
  endDay := b[42]?.map UInt8.toNat
  raw := b

/-- `decodeRecord`, of a payload of any length. -/
def decodePayload (b : List UInt8) : Except CliError PulledEvent := do
  let id ← readUInt16LE b 0
  let year ← readUInt16LE b 5
  let lastModified ← readUInt32LE b 35
  let endYear ← readUInt16LE b 39
  return eventOf b id year lastModified endYear

/-- The object of a payload that is long enough. -/
def pulledEvent (b : List UInt8) : PulledEvent :=
  eventOf b (read16 b 0) (read16 b 5) (read32 b 35) (read16 b 39)

/-- A payload is decoded from 41 bytes on. -/
theorem decodePayload_ok_iff (b : List UInt8) (e : PulledEvent) :
    decodePayload b = .ok e ↔ 41 ≤ b.length ∧ e = pulledEvent b := by
  by_cases hlen : 41 ≤ b.length
  · have hwords : decodePayload b = .ok (pulledEvent b) := by
      unfold decodePayload readUInt16LE readUInt32LE
      rw [if_pos (by omega), if_pos (by omega), if_pos (by omega), if_pos (by omega)]
      rfl
    rw [hwords, Except.ok.injEq]
    exact ⟨fun h => ⟨hlen, h.symm⟩, fun h => h.2.symm⟩
  · -- the last word is missing, if not one before it
    have hlast : readUInt16LE b 39 = .error (boundsError b 2) := if_neg (by omega)
    refine ⟨?_, fun h => absurd h.1 hlen⟩
    unfold decodePayload
    rw [hlast]
    rcases readUInt16LE b 0 with e | id
    · exact fun h => by cases h
    · rcases readUInt16LE b 5 with e | year
      · exact fun h => by cases h
      · rcases readUInt32LE b 35 with e | lastModified <;> exact fun h => by cases h

/-- A decoded record of the right size. -/
def CliEvent.pulled (e : CliEvent) (raw : List UInt8) : PulledEvent where
  id := e.id
  ruleKind := e.ruleKind
  hour := e.hour
  minute := e.minute
  year := e.year
  month := e.month
  day := e.day
  param := e.param
  enabled := e.enabled
  title := e.title
  lastModified := e.lastModified
  endYear := e.endYear
  endMonth := some e.endMonth
  endDay := some e.endDay
  raw := raw

/-- Of a record of the right size, it is the object of `decodeRecord`. -/
theorem pulledEvent_record (r : Record) :
    pulledEvent r.val = (decodeRecord r).pulled r.val := by
  have hlen : r.val.length = 43 := r.property
  have hmonth : r.val[41]? = some (r.val.getD 41 0) := by
    rw [List.getD_eq_getElem _ _ (by omega), List.getElem?_eq_getElem (by omega)]
  have hday : r.val[42]? = some (r.val.getD 42 0) := by
    rw [List.getD_eq_getElem _ _ (by omega), List.getElem?_eq_getElem (by omega)]
  unfold pulledEvent eventOf
  rw [hmonth, hday]
  rfl

/-! ## `pull` -/

/-- What `pull` returns. -/
structure Pulled where
  events : List PulledEvent
  version : ℕ
  capacity : ℕ
  deriving DecidableEq, Repr

/-- One turn of the loop: no status is looked at. -/
def pullEvent (i : ℕ) : Client CliError PulledEvent := do
  -- the reply is thrown away
  let _ ← Client.write "event_read" [UInt8.ofNat i]
  let record ← Client.read "event_read"
  ofExcept (decodePayload record.payload)

def pull : Client CliError Pulled := do
  let reply ← Client.read "schedule_digest"
  let d := reply.payload
  -- `d[2]` is there if the word behind it is
  let count := (d.getD 2 0).toNat
  let version ← ofExcept (readUInt32LE d 3)
  let events ← (List.range count).mapM pullEvent
  return ⟨events, version, (d.getD 1 0).toNat⟩

/-! ## Against a watch -/

section Against

variable (watch : Watch)

/-- A turn behind the turns before it. It makes both calls, whatever the replies. -/
theorem pullEvent_against (i : ℕ) :
    let run := ((pullEvent i).against watch).exec
      (pullCalls "schedule_digest" "event_read" (List.range i))
    run.1 = decodePayload (recordReply watch "schedule_digest" "event_read" i).payload ∧
      run.2 = pullCalls "schedule_digest" "event_read" (List.range i ++ [i]) := by
  dsimp only
  rw [pullCalls_concat]
  unfold pullEvent recordReply
  rw [exec_write_bind, exec_read_bind]
  rcases decodePayload _ with e | event
  · exact ⟨rfl, rfl⟩
  · exact ⟨rfl, rfl⟩

/-- The digest that `pull` reads. -/
def digestPayload : List UInt8 := (digestReply watch "schedule_digest").payload

/-- The number of records it asks for. -/
def pullCount : ℕ := ((digestPayload watch).getD 2 0).toNat

/-- The payload of a record. -/
def recordPayload (i : ℕ) : List UInt8 :=
  (recordReply watch "schedule_digest" "event_read" i).payload

/-- **`pull`** on any watch. -/
theorem pull_against : ((pull.against watch).exec []).1 = (do
    let version ← readUInt32LE (digestPayload watch) 3
    let events ← (List.range (pullCount watch)).mapM fun i => decodePayload (recordPayload watch i)
    return ⟨events, version, ((digestPayload watch).getD 1 0).toNat⟩) := by
  unfold pull digestPayload pullCount digestPayload digestReply
  rw [exec_read_bind]
  dsimp only
  rw [exec_against_ofExcept_bind]
  rcases readUInt32LE _ 3 with e | version
  · rfl
  · refine exec_against_loop (H := pullCalls "schedule_digest" "event_read") watch
      (fun events => (⟨events, version, _⟩ : Pulled)) ?_ ?_
    · intro pre i post heq
      -- the turns before were as many as the index
      obtain ⟨rfl, -⟩ := range_before heq
      exact (pullEvent_against watch i).1
    · intro pre i post heq event _
      obtain ⟨rfl, -⟩ := range_before heq
      exact (pullEvent_against watch i).2

/-- **Which replies let `pull` return**, and what it returns then. -/
theorem pull_ok_iff (pulled : Pulled) : ((pull.against watch).exec []).1 = .ok pulled ↔
    (7 ≤ (digestPayload watch).length ∧
      ∀ i ∈ List.range (pullCount watch), 41 ≤ (recordPayload watch i).length) ∧
    pulled = ⟨(List.range (pullCount watch)).map fun i => pulledEvent (recordPayload watch i),
      read32 (digestPayload watch) 3, ((digestPayload watch).getD 1 0).toNat⟩ := by
  have hevents := mapM_ok_iff (fun i (_ : i ∈ List.range (pullCount watch)) e =>
    decodePayload_ok_iff (recordPayload watch i) e)
  rw [pull_against]
  unfold readUInt32LE
  dsimp only [bind, Except.bind]
  by_cases hlen : 7 ≤ (digestPayload watch).length
  · rw [if_pos hlen]
    constructor
    · intro h
      rcases hmapM : (List.range (pullCount watch)).mapM
        fun i => decodePayload (recordPayload watch i) with e | events
      · rw [hmapM] at h
        cases h
      · rw [hmapM] at h
        obtain ⟨hall, rfl⟩ := (hevents events).mp hmapM
        exact ⟨⟨hlen, hall⟩, (Except.ok.inj h).symm⟩
    · rintro ⟨⟨-, hall⟩, rfl⟩
      rw [(hevents _).mpr ⟨hall, rfl⟩]
      rfl
  · rw [if_neg hlen]
    exact ⟨fun h => (by cases h), fun h => absurd h.1.1 hlen⟩

end Against

/-! ## The two pulls -/

/-- What `pull_records` comes to on `GattClient`. -/
def pullRecordsOutcome (watch : Watch) : Except PushExc (Digest × List (List UInt8)) :=
  (((pull_records "schedule_digest" "event_read").received .wire watch).exec []).1

/-- The two pulls on a watch agree: what `pull` returns is what `pull_records`
returns, and where that raises, so does `pull`. -/
structure PullsAgree (watch : Watch) : Prop where
  same : ∀ pulled, ((pull.against watch).exec []).1 = .ok pulled →
    ∃ digest, pullRecordsOutcome watch = .ok (digest, pulled.events.map (·.raw))
  raises : ∀ error, pullRecordsOutcome watch = .error error →
    ∃ error', ((pull.against watch).exec []).1 = .error error'

/-- The replies that `pull` itself fails on: a digest or a record that is too short
for the words it reads. -/
def TooShort (watch : Watch) : Prop :=
  (digestPayload watch).length < 7 ∨
    ∃ i < pullCount watch, (recordPayload watch i).length < 41

/-- A reply that `GattClient` takes, with status 0. -/
def Accepted (response : GattResponse) : Prop := response.status = 0 ∧ Taken response

/-- The replies that `pull_records` takes: everything accepted, and a digest of one
of its two lengths. -/
def AllAccepted (watch : Watch) : Prop :=
  (digestReply watch "schedule_digest").status = 0 ∧ (digestPayload watch).length ∈ [7, 9] ∧
    ∀ i < pullCount watch, Accepted (selectReply watch "schedule_digest" "event_read" i) ∧
      Accepted (recordReply watch "schedule_digest" "event_read" i)

/-- `pull` fails exactly on what is too short. -/
theorem pull_error_iff (watch : Watch) :
    (∃ error, ((pull.against watch).exec []).1 = .error error) ↔ TooShort watch := by
  have hok := pull_ok_iff watch
  constructor
  · rintro ⟨error, herror⟩
    by_contra hlong
    unfold TooShort at hlong
    push Not at hlong
    have hreturned := (hok _).mpr ⟨⟨hlong.1, fun i hi => hlong.2 i (List.mem_range.mp hi)⟩, rfl⟩
    rw [herror] at hreturned
    cases hreturned
  · intro hshort
    rcases hrun : ((pull.against watch).exec []).1 with error | pulled
    · exact ⟨error, rfl⟩
    · obtain ⟨⟨hdigest, hrecords⟩, -⟩ := (hok pulled).mp hrun
      -- the digest, or one of the records that it announces
      rcases hshort with hlen | ⟨i, hi, hlen⟩
      · omega
      · have := hrecords i (List.mem_range.mpr hi)
        omega

/-- `pull_records` returns exactly if everything was accepted. -/
theorem pull_records_returns_iff (watch : Watch) (records : List (List UInt8)) :
    (∃ digest, pullRecordsOutcome watch = .ok (digest, records)) ↔
      AllAccepted watch ∧ records = (List.range (pullCount watch)).map (recordPayload watch) := by
  unfold pullRecordsOutcome
  constructor
  · rintro ⟨digest, hrun⟩
    obtain ⟨hrun, -, htaken⟩ := (pull_records_received_iff _ _ _ _ _).mp hrun
    obtain ⟨hstatus, hparse, haccepted, hrecords⟩ := (pull_records_ok_iff _ _ _ _ _).mp hrun
    have hcount : digest.count = pullCount watch := parse_digest_count hparse
    rw [hcount] at haccepted hrecords htaken
    refine ⟨⟨hstatus, (parse_digest_ok_iff _).mp ⟨digest, hparse⟩, fun i hi => ?_⟩, hrecords⟩
    have hstatuses := haccepted i (List.mem_range.mpr hi)
    exact ⟨⟨hstatuses.1, (htaken i hi).1⟩, hstatuses.2, (htaken i hi).2⟩
  · rintro ⟨⟨hstatus, hlen, haccepted⟩, hrecords⟩
    obtain ⟨digest, hparse⟩ := (parse_digest_ok_iff _).mpr hlen
    have hcount : digest.count = pullCount watch := parse_digest_count hparse
    -- a digest of one of its lengths is short enough
    have hdigest : Taken (digestReply watch "schedule_digest") := by
      have hbound : (digestPayload watch).length ≤ 9 := by
        rcases List.mem_pair.mp hlen with h | h <;> omega
      exact hbound.trans (by decide)
    refine ⟨digest, (pull_records_received_iff _ _ _ _ _).mpr
      ⟨(pull_records_ok_iff _ _ _ _ _).mpr ⟨hstatus, hparse, ?_, ?_⟩, hdigest, ?_⟩⟩
    · rw [hcount]
      intro i hi
      have hboth := haccepted i (List.mem_range.mp hi)
      exact ⟨hboth.1.1, hboth.2.1⟩
    · rw [hcount]
      exact hrecords
    · rw [hcount]
      exact fun i hi => ⟨(haccepted i hi).1.2, (haccepted i hi).2.2⟩

/-- **The two pulls agree** exactly where `pull` fails by itself or everything was
accepted. -/
theorem pull_agrees_iff (watch : Watch) :
    PullsAgree watch ↔ TooShort watch ∨ AllAccepted watch := by
  constructor
  · intro h
    by_cases hshort : TooShort watch
    · exact .inl hshort
    · right
      -- nothing is too short, so `pull` returns, and `pull_records` has to as well
      rcases hrun : ((pull.against watch).exec []).1 with error | pulled
      · exact absurd ((pull_error_iff watch).mp ⟨error, hrun⟩) hshort
      · exact ((pull_records_returns_iff watch _).mp (h.same pulled hrun)).1
  · rintro (hshort | haccepted)
    · obtain ⟨error, hfails⟩ := (pull_error_iff watch).mpr hshort
      refine ⟨fun pulled hrun => ?_, fun _ _ => ⟨error, hfails⟩⟩
      rw [hfails] at hrun
      cases hrun
    · obtain ⟨digest, hreturns⟩ := (pull_records_returns_iff watch _).mpr ⟨haccepted, rfl⟩
      refine ⟨fun pulled hrun => ⟨digest, ?_⟩, fun error herror => ?_⟩
      · obtain ⟨-, rfl⟩ := (pull_ok_iff watch pulled).mp hrun
        rw [hreturns, List.map_map]
        rfl
      · rw [hreturns] at herror
        cases herror

/-- A watch that gives these replies one after another. -/
def scripted (replies : List GattResponse) : Watch := fun asked call =>
  match call with
  | .request _ _ _ => replies.getD asked.length ⟨0, []⟩
  | .monotonic => (0 : ℤ)

/-- A watch that announces two records and refuses to select the second: the read
behind it still gives the first. -/
def staleWatch : Watch := scripted [⟨0, [3, 16, 2, 7, 0, 0, 0]⟩, ⟨0, []⟩, ⟨0, goldenRecord.val⟩,
  ⟨0x07, []⟩, ⟨0, goldenRecord.val⟩]

/-- `pull` returns the first record twice, where `pull_records` raises. -/
theorem pull_adopts_stale_record :
    ((pull.against staleWatch).exec []).1 =
        .ok ⟨[pulledEvent goldenRecord.val, pulledEvent goldenRecord.val], 7, 16⟩ ∧
      pullRecordsOutcome staleWatch =
        .error (.wire (.RuntimeError "event_read select 1 failed with ATT status 0x07")) ∧
      ¬ PullsAgree staleWatch := by
  have hpull : ((pull.against staleWatch).exec []).1 =
      .ok ⟨[pulledEvent goldenRecord.val, pulledEvent goldenRecord.val], 7, 16⟩ := rfl
  have hraises : pullRecordsOutcome staleWatch =
      .error (.wire (.RuntimeError "event_read select 1 failed with ATT status 0x07")) := rfl
  refine ⟨hpull, hraises, fun h => ?_⟩
  obtain ⟨digest, hreturns⟩ := h.same _ hpull
  rw [hraises] at hreturns
  cases hreturns

end Ptlab.Js
