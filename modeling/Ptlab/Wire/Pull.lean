/-
`parse_digest` and `pull_records` (`src/ptlab/wire.py`): the digest of a set of
records is read, and then its records one by one.

Every record is selected by a write and then read. `pull_records_against` says
what a pull comes to on any watch: the replies at its calls are named by
`digestReply`, `selectReply` and `recordReply`, and `pull_records_ok_iff` reads
off which of them let it return, and what. On `GattClient` each of them has to be taken as
well, which is `pull_records_received_iff`.
-/
import Ptlab.Wire.Watch

set_option autoImplicit false

open Bytes Dialogue Effect Ptlab.Gatt Ptlab.Protocol

namespace Ptlab.Wire

/-! ## The digest -/

structure Digest where
  protocol : ℕ
  capacity : ℕ
  count : ℕ
  version : ℕ
  streak : Option ℕ
  deriving DecidableEq, Repr

def parse_digest (payload : List UInt8) : Except WireError Digest :=
  if payload.length ∉ [7, 9] then
    .error (.ValueError s!"digest must be 7 or 9 bytes, got {payload.length}")
  else .ok {
    protocol := (payload.getD 0 0).toNat
    capacity := (payload.getD 1 0).toNat
    count := (payload.getD 2 0).toNat
    version := read32 payload 3
    streak := if payload.length = 9 then some (read16 payload 7) else none }

/-- A digest of one of the two lengths is parsed, and no other. -/
theorem parse_digest_ok_iff (payload : List UInt8) :
    (∃ digest, parse_digest payload = .ok digest) ↔ payload.length ∈ [7, 9] := by
  unfold parse_digest
  by_cases hlen : payload.length ∈ [7, 9]
  · rw [if_neg (not_not.mpr hlen)]
    exact ⟨fun _ => hlen, fun _ => ⟨_, rfl⟩⟩
  · rw [if_pos hlen]
    exact ⟨fun ⟨_, h⟩ => (by cases h), fun h => absurd h hlen⟩

theorem parse_digest_count {payload : List UInt8} {digest : Digest}
    (h : parse_digest payload = .ok digest) : digest.count = (payload.getD 2 0).toNat := by
  unfold parse_digest at h
  by_cases hlen : payload.length ∈ [7, 9]
  · rw [if_neg (not_not.mpr hlen)] at h
    exact congrArg Digest.count (Except.ok.inj h).symm
  · rw [if_pos hlen] at h
    cases h

/-! ## `pull_records` -/

/-- One turn of the loop. The index is below a byte, so `bytes((index,))` takes
it. -/
def pullRecord (read_characteristic : String) (index : ℕ) : Client WireError (List UInt8) := do
  let selected ← Client.write read_characteristic [UInt8.ofNat index]
  ofExcept (expectAccepted s!"{read_characteristic} select {index}" selected)
  let record ← Client.read read_characteristic
  ofExcept (expectAccepted s!"{read_characteristic} read {index}" record)
  return record.payload

def pull_records (digest_characteristic read_characteristic : String) :
    Client WireError (Digest × List (List UInt8)) := do
  let digest_response ← Client.read digest_characteristic
  ofExcept (expectAccepted s!"{digest_characteristic} read" digest_response)
  let digest ← ofExcept (parse_digest digest_response.payload)
  let records ← (List.range digest.count).mapM (pullRecord read_characteristic)
  return (digest, records)

/-! ## Against a watch -/

section Against

variable (watch : Watch) (digest_characteristic read_characteristic : String)

/-- The two calls for one record. -/
def recordCalls (index : ℕ) : List Call :=
  [.request read_characteristic OP_WRITE [UInt8.ofNat index],
    .request read_characteristic OP_READ []]

/-- The calls of a pull up to some turns of its loop. -/
def pullCalls (turns : List ℕ) : List Call :=
  .request digest_characteristic OP_READ [] :: turns.flatMap (recordCalls read_characteristic)

/-- The reply to the digest read. -/
def digestReply : GattResponse := watch [] (.request digest_characteristic OP_READ [])

/-- The reply to the write that selects a record, if the pull comes to it. -/
def selectReply (index : ℕ) : GattResponse :=
  watch (pullCalls digest_characteristic read_characteristic (List.range index))
    (.request read_characteristic OP_WRITE [UInt8.ofNat index])

/-- The reply to the read of a record. -/
def recordReply (index : ℕ) : GattResponse :=
  watch (pullCalls digest_characteristic read_characteristic (List.range index) ++
    [.request read_characteristic OP_WRITE [UInt8.ofNat index]])
    (.request read_characteristic OP_READ [])

theorem pullCalls_concat (turns : List ℕ) (index : ℕ) :
    pullCalls digest_characteristic read_characteristic (turns ++ [index]) =
      pullCalls digest_characteristic read_characteristic turns ++
        [.request read_characteristic OP_WRITE [UInt8.ofNat index]] ++
        [.request read_characteristic OP_READ []] := by
  unfold pullCalls
  rw [List.flatMap_append, List.flatMap_singleton, List.append_assoc]
  rfl

/-- The turns of a loop over a range before one of them. -/
theorem range_before {n index : ℕ} {pre post : List ℕ} (h : List.range n = pre ++ index :: post) :
    pre = List.range index ∧ index < n := by
  rw [List.range_eq_range', List.range'_eq_append_iff] at h
  obtain ⟨k, hk, rfl, hpost⟩ := h
  obtain ⟨hindex, hpos, -⟩ := List.range'_eq_cons_iff.mp hpost.symm
  rw [Nat.zero_add] at hindex
  subst hindex
  rw [Nat.mul_one]
  exact ⟨List.range_eq_range'.symm, by omega⟩

/-- What one turn comes to. -/
def recordOutcome (index : ℕ) : Except WireError (List UInt8) := do
  expectAccepted s!"{read_characteristic} select {index}"
    (selectReply watch digest_characteristic read_characteristic index)
  let record := recordReply watch digest_characteristic read_characteristic index
  expectAccepted s!"{read_characteristic} read {index}" record
  return record.payload

theorem recordOutcome_ok_iff (index : ℕ) (record : List UInt8) :
    recordOutcome watch digest_characteristic read_characteristic index = .ok record ↔
      ((selectReply watch digest_characteristic read_characteristic index).status = 0 ∧
        (recordReply watch digest_characteristic read_characteristic index).status = 0) ∧
      record = (recordReply watch digest_characteristic read_characteristic index).payload := by
  rw [← expectAccepted_ok_iff s!"{read_characteristic} select {index}",
    ← expectAccepted_ok_iff s!"{read_characteristic} read {index}"]
  unfold recordOutcome
  rcases expectAccepted s!"{read_characteristic} select {index}" _ with e | ⟨⟩
  · exact ⟨fun h => (by cases h), fun h => (by cases h.1.1)⟩
  · dsimp only
    rcases expectAccepted s!"{read_characteristic} read {index}" _ with e | ⟨⟩
    · exact ⟨fun h => (by cases h), fun h => (by cases h.1.2)⟩
    · exact ⟨fun h => ⟨⟨rfl, rfl⟩, (Except.ok.inj h).symm⟩, fun h => congrArg Except.ok h.2.symm⟩

/-- A turn behind the turns before it. -/
theorem pullRecord_against (index : ℕ) :
    let run := ((pullRecord read_characteristic index).against watch).exec
      (pullCalls digest_characteristic read_characteristic (List.range index))
    run.1 = recordOutcome watch digest_characteristic read_characteristic index ∧
      ∀ record, recordOutcome watch digest_characteristic read_characteristic index = .ok record →
        run.2 = pullCalls digest_characteristic read_characteristic (List.range index ++ [index]) := by
  dsimp only
  rw [pullCalls_concat]
  unfold pullRecord recordOutcome selectReply recordReply
  rw [exec_write_bind, exec_against_ofExcept_bind]
  rcases expectAccepted s!"{read_characteristic} select {index}" _ with e | ⟨⟩
  · exact ⟨rfl, fun record h => (by cases h)⟩
  · dsimp only
    rw [exec_read_bind, exec_against_ofExcept_bind]
    rcases expectAccepted s!"{read_characteristic} read {index}" _ with e | ⟨⟩
    · exact ⟨rfl, fun record h => (by cases h)⟩
    · exact ⟨rfl, fun record _ => rfl⟩

/-- What a pull comes to. -/
def pullOutcome : Except WireError (Digest × List (List UInt8)) := do
  let reply := digestReply watch digest_characteristic
  expectAccepted s!"{digest_characteristic} read" reply
  let digest ← parse_digest reply.payload
  let records ← (List.range digest.count).mapM
    (recordOutcome watch digest_characteristic read_characteristic)
  return (digest, records)

/-- **A pull** on any watch. -/
theorem pull_records_against :
    (((pull_records digest_characteristic read_characteristic).against watch).exec []).1 =
      pullOutcome watch digest_characteristic read_characteristic := by
  unfold pull_records pullOutcome digestReply
  rw [exec_read_bind, exec_against_ofExcept_bind]
  dsimp only
  rcases expectAccepted s!"{digest_characteristic} read" _ with e | ⟨⟩
  · rfl
  · dsimp only
    rw [exec_against_ofExcept_bind]
    rcases parse_digest _ with e | digest
    · rfl
    · -- the digest was the first call, so the loop starts from `pullCalls` of no turns
      refine exec_against_loop (H := pullCalls digest_characteristic read_characteristic) watch
        (fun records => (digest, records)) ?_ ?_
      · intro pre index post heq
        obtain ⟨rfl, -⟩ := range_before heq
        exact (pullRecord_against watch _ _ index).1
      · intro pre index post heq
        obtain ⟨rfl, -⟩ := range_before heq
        exact (pullRecord_against watch _ _ index).2

/-- **Which replies let a pull return**, and what it returns then. -/
theorem pull_records_ok_iff (digest : Digest) (records : List (List UInt8)) :
    (((pull_records digest_characteristic read_characteristic).against watch).exec []).1 =
        .ok (digest, records) ↔
      (digestReply watch digest_characteristic).status = 0 ∧
        parse_digest (digestReply watch digest_characteristic).payload = .ok digest ∧
        (∀ index ∈ List.range digest.count,
          (selectReply watch digest_characteristic read_characteristic index).status = 0 ∧
            (recordReply watch digest_characteristic read_characteristic index).status = 0) ∧
        records = (List.range digest.count).map fun index =>
          (recordReply watch digest_characteristic read_characteristic index).payload := by
  rw [pull_records_against, ← expectAccepted_ok_iff s!"{digest_characteristic} read"]
  unfold pullOutcome
  dsimp only
  rcases expectAccepted s!"{digest_characteristic} read" _ with e | ⟨⟩
  · exact ⟨fun h => (by cases h), fun h => (by cases h.1)⟩
  · rcases parse_digest _ with e | parsed
    · exact ⟨fun h => (by cases h), fun h => (by cases h.2.1)⟩
    · -- what is left is the loop, which returns if every turn does
      have hrecords := mapM_ok_iff (fun index (_ : index ∈ List.range parsed.count) record =>
        recordOutcome_ok_iff watch digest_characteristic read_characteristic index record)
      constructor
      · intro h
        rcases hmapM : (List.range parsed.count).mapM
          (recordOutcome watch digest_characteristic read_characteristic) with e | collected
        · dsimp only [bind, Except.bind] at h
          rw [hmapM] at h
          cases h
        · dsimp only [bind, Except.bind] at h
          rw [hmapM] at h
          obtain ⟨rfl, rfl⟩ := Prod.mk.inj (Except.ok.inj h)
          obtain ⟨haccepted, hpayloads⟩ := (hrecords collected).mp hmapM
          exact ⟨rfl, rfl, haccepted, hpayloads⟩
      · rintro ⟨-, hparsed, haccepted, hpayloads⟩
        obtain rfl := Except.ok.inj hparsed
        dsimp only [bind, Except.bind]
        rw [(hrecords records).mpr ⟨haccepted, hpayloads⟩]
        rfl

/-! ## On `GattClient` -/

/-- A turn that returns has made its two calls. -/
theorem pullRecord_calls {index : ℕ} {record : List UInt8} {asked : List Call}
    (h : ((pullRecord read_characteristic index).against watch).exec
      (pullCalls digest_characteristic read_characteristic (List.range index)) =
        (.ok record, asked)) :
    asked = pullCalls digest_characteristic read_characteristic (List.range index ++ [index]) := by
  obtain ⟨hout, hcalls⟩ := pullRecord_against watch digest_characteristic read_characteristic index
  rw [h] at hout hcalls
  exact hcalls record hout.symm

/-- The calls of a pull that returns. -/
theorem pull_records_calls {digest : Digest} {records : List (List UInt8)} {asked : List Call}
    (h : ((pull_records digest_characteristic read_characteristic).against watch).exec [] =
      (.ok (digest, records), asked)) :
    asked = pullCalls digest_characteristic read_characteristic (List.range digest.count) := by
  unfold pull_records at h
  rw [exec_read_bind, exec_against_ofExcept_bind] at h
  generalize expectAccepted s!"{digest_characteristic} read" _ = accepted at h
  rcases accepted with e | ⟨⟩
  · cases h
  dsimp only at h
  rw [exec_against_ofExcept_bind] at h
  generalize parse_digest _ = parsed at h
  rcases parsed with e | parsed
  · cases h
  dsimp only at h
  rw [exec_against_bind] at h
  rcases hloop : (((List.range parsed.count).mapM (pullRecord read_characteristic)).against
    watch).exec ([] ++ [.request digest_characteristic OP_READ []]) with ⟨e | collected, reached⟩
  · rw [hloop] at h
    cases h
  · rw [hloop] at h
    obtain ⟨hpair, rfl⟩ := exec_pure_ok.mp h
    obtain ⟨rfl, -⟩ := Prod.mk.inj hpair
    unfold against at hloop
    rw [perform_mapM] at hloop
    refine exec_mapM_reached (H := pullCalls digest_characteristic read_characteristic) ?_ hloop
    intro pre index post heq record asked hrun
    obtain ⟨rfl, -⟩ := range_before heq
    exact pullRecord_calls watch digest_characteristic read_characteristic hrun

/-- The replies of a pull. -/
theorem allTaken_pullCalls (count : ℕ) :
    AllTaken watch [] (pullCalls digest_characteristic read_characteristic (List.range count)) ↔
      Taken (digestReply watch digest_characteristic) ∧ ∀ index < count,
        Taken (selectReply watch digest_characteristic read_characteristic index) ∧
          Taken (recordReply watch digest_characteristic read_characteristic index) := by
  induction count with
  | zero => exact and_congr_right fun _ => iff_of_true trivial fun _ h => absurd h (Nat.not_lt_zero _)
  | succ count ih =>
      rw [List.range_succ, pullCalls_concat, List.append_assoc, allTaken_append, ih, List.nil_append,
        Nat.forall_lt_succ_right, and_assoc]
      refine and_congr_right fun _ => and_congr_right fun _ => and_congr_right fun _ => ?_
      exact and_iff_left trivial

/-- **On `GattClient`** a pull returns exactly if it does without, and the replies are
taken. -/
theorem pull_records_received_iff (digest : Digest) (records : List (List UInt8)) :
    (((pull_records digest_characteristic read_characteristic).received .wire watch).exec []).1 =
        .ok (digest, records) ↔
      (((pull_records digest_characteristic read_characteristic).against watch).exec []).1 =
        .ok (digest, records) ∧
      Taken (digestReply watch digest_characteristic) ∧ ∀ index < digest.count,
        Taken (selectReply watch digest_characteristic read_characteristic index) ∧
          Taken (recordReply watch digest_characteristic read_characteristic index) := by
  rw [received_ok_iff]
  refine and_congr_right fun hreturns => ?_
  have hcalls := pull_records_calls watch digest_characteristic read_characteristic
    (Prod.ext hreturns rfl)
  rw [← allTaken_pullCalls]
  constructor
  · rintro ⟨later, hlater, htaken⟩
    obtain rfl := hlater.symm.trans hcalls
    exact htaken
  · exact fun htaken => ⟨_, hcalls, htaken⟩

end Against

end Ptlab.Wire
