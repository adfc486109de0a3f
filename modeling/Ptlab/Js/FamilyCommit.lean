/-
The two waits for a durable commit: `wait_family_commit` (`src/ptlab/wire.py`) and
`waitForFamilyCommit` (`bridge-test.mjs`).

Both read the family-state status until it says what became of the commit, the one
up to a deadline and the other forty times. `Reports` is what they look for at the
offsets of a status, and a read is decisive if it reports an end of this very
commit. `waitLoop_undecided` and `familyCommitLoop_undecided` pass over every other reply,
in any number; what is left is the turn that decides. The Python loop runs on `GattClient`,
so that a reply of more than 64 bytes ends it with the exception of that.
-/
import Ptlab.Js.Pull
import Ptlab.Wire.PushClient

set_option autoImplicit false

open Bytes Dialogue Effect Ptlab.Gatt Ptlab.Protocol Ptlab.Wire

namespace Ptlab.Js

/-! ## A script of replies -/

def isRequest : Call → Bool
  | .request _ _ _ => true
  | .monotonic => false

/-- A watch that gives the replies in order, whatever is read, and a clock that gives
its readings in order. -/
def statusWatch (replies : ℕ → GattResponse) (clock : ℕ → ℤ) : Watch
  | asked, .request _ _ _ => replies (asked.countP isRequest)
  | asked, .monotonic => clock (asked.countP fun call => !isRequest call)

/-! ## What a status says -/

/-- The status reports this commit in this state. -/
structure Reports (operation : ℕ) (token : ℤ) (state : ℕ) (status : GattResponse) : Prop where
  success : status.status = 0
  size : status.payload.length = 16
  state_at : (status.payload.getD 2 0).toNat = state
  operation_at : (status.payload.getD 3 0).toNat = operation
  token_at : (read32 status.payload 6 : ℤ) = token

/-- A report has sixteen bytes. -/
theorem Reports.taken {operation state : ℕ} {token : ℤ} {status : GattResponse}
    (h : Reports operation token state status) : Taken status := by
  unfold Taken
  rw [h.size]
  decide

/-- The status reports how this commit has ended. -/
def Decisive (operation : ℕ) (token : ℤ) (status : GattResponse) : Prop :=
  Reports operation token RECORDS.family_state_states_succeeded status ∨
    Reports operation token RECORDS.family_state_states_failed status

theorem reports_iff {operation state : ℕ} {token : ℤ} {status : GattResponse} :
    Reports operation token state status ↔
      ∃ active_token : ℕ, commitReport status = some (state, operation, active_token) ∧
        (active_token : ℤ) = token := by
  have hsize : RECORDS.family_state_status_size = 16 := rfl
  unfold commitReport
  rw [hsize]
  constructor
  · rintro ⟨hsuccess, hsize, hstate, hoperation, htoken⟩
    rw [if_pos ⟨hsuccess, hsize⟩, hstate, hoperation]
    exact ⟨_, rfl, htoken⟩
  · rintro ⟨active_token, hreport, htoken⟩
    split_ifs at hreport with hwell
    simp only [Option.some.injEq, Prod.mk.injEq] at hreport
    obtain ⟨hstate, hoperation, hword⟩ := hreport
    exact ⟨hwell.1, hwell.2, hstate, hoperation, by rw [hword]; exact htoken⟩

/-- A reply that is not decisive is passed over, whatever a loop does with the others. -/
theorem passed_over {α : Type} {operation : ℕ} {token : ℤ} {reply : GattResponse}
    (hother : ¬ Decisive operation token reply) (succeeded failed next : α) :
    (match commitReport reply with
      | none => next
      | some (state, active_operation, active_token) =>
        if active_operation = operation ∧ active_token = token then
          if state = RECORDS.family_state_states_succeeded then succeeded
          else if state = RECORDS.family_state_states_failed then failed
          else next
        else next) = next := by
  rcases hreport : commitReport reply with _ | ⟨state, active_operation, active_token⟩
  · rfl
  · dsimp only
    split_ifs with hmine hsucceeded hfailed
    · obtain ⟨rfl, htoken⟩ := hmine
      rw [hsucceeded] at hreport
      exact absurd (.inl (reports_iff.mpr ⟨active_token, hreport, htoken⟩)) hother
    · obtain ⟨rfl, htoken⟩ := hmine
      rw [hfailed] at hreport
      exact absurd (.inr (reports_iff.mpr ⟨active_token, hreport, htoken⟩)) hother
    · rfl
    · rfl

/-! ## `wait_family_commit` -/

section Python

variable (replies : ℕ → GattResponse) (clock : ℕ → ℤ) (operation : ℕ) (token deadline : ℤ)

def failure : PushExc := .wire (.RuntimeError "family-state durable commit failed")

def timedOut : PushExc := .wire (.RuntimeError "family-state durable commit timed out")

/-- A client that has read the status `k` times, and the clock once more. -/
def After (k : ℕ) (asked : List Call) : Prop :=
  asked.countP isRequest = k ∧ asked.countP (fun call => !isRequest call) = k + 1

/-- What a turn asks. -/
def turnCalls : List Call := [.monotonic, .request "family_state_status" OP_READ []]

variable {replies clock operation token deadline}

theorem After.next {k : ℕ} {asked : List Call} (h : After k asked) :
    After (k + 1) (asked ++ turnCalls) := by
  unfold After turnCalls at *
  rw [List.countP_append, List.countP_append, h.1, h.2]
  exact ⟨rfl, rfl⟩

/-- A turn before the deadline goes by what the status says. -/
theorem waitLoop_turn {k : ℕ} {asked : List Call} (h : After k asked)
    (hnow : clock (k + 1) < deadline) (htaken : Taken (replies k)) (fuel : ℕ) :
    ((Client.waitLoop operation token deadline (fuel + 1)).received id
      (statusWatch replies clock)).exec asked =
    ((match commitReport (replies k) with
      | none => Client.waitLoop operation token deadline fuel
      | some (state, active_operation, active_token) =>
        if active_operation = operation ∧ active_token = token then
          if state = RECORDS.family_state_states_succeeded then pure ()
          else if state = RECORDS.family_state_states_failed then .fail failure
          else Client.waitLoop operation token deadline fuel
        else Client.waitLoop operation token deadline fuel : Client PushExc Unit).received id
      (statusWatch replies clock)).exec (asked ++ turnCalls) := by
  have hclock : statusWatch replies clock asked .monotonic = clock (k + 1) :=
    congrArg clock h.2
  have hreply : statusWatch replies clock (asked ++ [.monotonic])
      (.request "family_state_status" OP_READ []) = replies k := by
    refine congrArg replies ?_
    rw [List.countP_append, h.1]
    rfl
  have htaken : Taken (statusWatch replies clock (asked ++ [.monotonic])
      (.request "family_state_status" OP_READ [])) := by rwa [hreply]
  rw [Client.waitLoop, exec_received_monotonic_bind, hclock, if_pos hnow,
    exec_received_read_bind id _ _ htaken, hreply, List.append_assoc]
  rfl

/-- A reply that is not taken ends the wait. -/
theorem waitLoop_refused {k : ℕ} {asked : List Call} (h : After k asked)
    (hnow : clock (k + 1) < deadline) (hlong : ¬ Taken (replies k)) (fuel : ℕ) :
    (((Client.waitLoop operation token deadline (fuel + 1)).received id
      (statusWatch replies clock)).exec asked).1 = .error (refusedReply (replies k)) := by
  have hclock : statusWatch replies clock asked .monotonic = clock (k + 1) :=
    congrArg clock h.2
  have hreply : statusWatch replies clock (asked ++ [.monotonic])
      (.request "family_state_status" OP_READ []) = replies k := by
    refine congrArg replies ?_
    rw [List.countP_append, h.1]
    rfl
  have hlong : ¬ Taken (statusWatch replies clock (asked ++ [.monotonic])
      (.request "family_state_status" OP_READ [])) := by rwa [hreply]
  rw [Client.waitLoop, exec_received_monotonic_bind, hclock, if_pos hnow,
    exec_received_read_refused id _ _ hlong, hreply]

theorem waitLoop_late {k : ℕ} {asked : List Call} (h : After k asked)
    (hnow : deadline ≤ clock (k + 1)) (fuel : ℕ) :
    (((Client.waitLoop operation token deadline (fuel + 1)).received id
      (statusWatch replies clock)).exec asked).1 = .error timedOut := by
  have hclock : statusWatch replies clock asked .monotonic = clock (k + 1) :=
    congrArg clock h.2
  rw [Client.waitLoop, exec_received_monotonic_bind, hclock, if_neg (not_lt.mpr hnow)]
  rfl

theorem waitLoop_succeeded {k : ℕ} {asked : List Call} (h : After k asked)
    (hnow : clock (k + 1) < deadline)
    (hreport : Reports operation token RECORDS.family_state_states_succeeded (replies k))
    (fuel : ℕ) :
    (((Client.waitLoop operation token deadline (fuel + 1)).received id
      (statusWatch replies clock)).exec asked).1 = .ok () := by
  have htaken := hreport.taken
  obtain ⟨active_token, hreport, htoken⟩ := reports_iff.mp hreport
  rw [waitLoop_turn h hnow htaken, hreport]
  dsimp only
  rw [if_pos ⟨rfl, htoken⟩, if_pos rfl]
  rfl

theorem waitLoop_failed {k : ℕ} {asked : List Call} (h : After k asked)
    (hnow : clock (k + 1) < deadline)
    (hreport : Reports operation token RECORDS.family_state_states_failed (replies k))
    (fuel : ℕ) :
    (((Client.waitLoop operation token deadline (fuel + 1)).received id
      (statusWatch replies clock)).exec asked).1 = .error failure := by
  have htaken := hreport.taken
  obtain ⟨active_token, hreport, htoken⟩ := reports_iff.mp hreport
  rw [waitLoop_turn h hnow htaken, hreport]
  dsimp only
  rw [if_pos ⟨rfl, htoken⟩, if_neg (by decide), if_pos rfl]
  rfl

/-- Any other reply is passed over. -/
theorem waitLoop_passes {k : ℕ} {asked : List Call} (h : After k asked)
    (hnow : clock (k + 1) < deadline) (htaken : Taken (replies k))
    (hother : ¬ Decisive operation token (replies k)) (fuel : ℕ) :
    ((Client.waitLoop operation token deadline (fuel + 1)).received id
      (statusWatch replies clock)).exec asked =
    ((Client.waitLoop operation token deadline fuel).received id
      (statusWatch replies clock)).exec (asked ++ turnCalls) := by
  rw [waitLoop_turn h hnow htaken, passed_over hother]

/-- **Any number of replies** that are not decisive, read before the deadline, leave
the loop where it was. -/
theorem waitLoop_undecided {k : ℕ}
    (h : ∀ j < k, clock (j + 1) < deadline ∧ Taken (replies j) ∧
      ¬ Decisive operation token (replies j)) :
    ∃ asked, After k asked ∧ ∀ fuel,
      ((Client.waitLoop operation token deadline (k + fuel)).received id
        (statusWatch replies clock)).exec [.monotonic] =
      ((Client.waitLoop operation token deadline fuel).received id
        (statusWatch replies clock)).exec asked := by
  induction k with
  | zero =>
      refine ⟨[.monotonic], ⟨rfl, rfl⟩, fun fuel => ?_⟩
      rw [Nat.zero_add]
  | succ k ih =>
      obtain ⟨asked, hafter, hloop⟩ := ih fun j hj => h j (Nat.lt_succ_of_lt hj)
      obtain ⟨hnow, htaken, hother⟩ := h k (Nat.lt_succ_self k)
      refine ⟨asked ++ turnCalls, hafter.next, fun fuel => ?_⟩
      rw [Nat.add_assoc, Nat.add_comm 1 fuel, hloop (fuel + 1)]
      exact waitLoop_passes hafter hnow htaken hother fuel

end Python

/-! ## `waitForFamilyCommit` -/

/-- The loop, with so many attempts left. -/
def familyCommitLoop (operation : ℕ) (token : ℤ) : ℕ → Client CliError Bool
  | 0 => pure false
  | attempts + 1 => do
    let response ← Client.read "family_state_status"
    if response.status = 0 ∧ response.payload.length = 16 then
      let state := (response.payload.getD 2 0).toNat
      let activeOperation := (response.payload.getD 3 0).toNat
      let activeToken ← ofExcept (readUInt32LE response.payload 6)
      if activeOperation = operation ∧ (activeToken : ℤ) = token then
        if state = RECORDS.family_state_states_succeeded then return true
        else if state = RECORDS.family_state_states_failed then return false
        else familyCommitLoop operation token attempts
      else familyCommitLoop operation token attempts
    else familyCommitLoop operation token attempts

def waitForFamilyCommit (operation : ℕ) (token : ℤ) : Client CliError Bool :=
  familyCommitLoop operation token 40

section JavaScript

variable {replies : ℕ → GattResponse} {clock : ℕ → ℤ} {operation : ℕ} {token : ℤ}

/-- What this loop asks in `k` turns. -/
def reads (k : ℕ) : List Call := List.replicate k (.request "family_state_status" OP_READ [])

/-- A turn goes by what the status says, at the same offsets. -/
theorem familyCommitLoop_turn (k attempts : ℕ) :
    ((familyCommitLoop operation token (attempts + 1)).against
      (statusWatch replies clock)).exec (reads k) =
    ((match commitReport (replies k) with
      | none => familyCommitLoop operation token attempts
      | some (state, active_operation, active_token) =>
        if active_operation = operation ∧ active_token = token then
          if state = RECORDS.family_state_states_succeeded then pure true
          else if state = RECORDS.family_state_states_failed then pure false
          else familyCommitLoop operation token attempts
        else familyCommitLoop operation token attempts : Client CliError Bool).against
      (statusWatch replies clock)).exec (reads (k + 1)) := by
  have hreply : statusWatch replies clock (reads k)
      (.request "family_state_status" OP_READ []) = replies k := by
    refine congrArg replies ?_
    unfold reads
    rw [List.countP_replicate]
    rfl
  -- this loop asks for no time
  have hasked : reads k ++ [.request "family_state_status" OP_READ []] = reads (k + 1) :=
    List.replicate_succ'.symm
  have hsize : RECORDS.family_state_status_size = 16 := rfl
  rw [familyCommitLoop, exec_read_bind, hreply, hasked]
  unfold commitReport
  rw [hsize]
  -- a payload of sixteen bytes is long enough for the word at 6
  by_cases hwell : (replies k).status = 0 ∧ (replies k).payload.length = 16
  · rw [if_pos hwell, if_pos hwell]
    have hword : readUInt32LE (replies k).payload 6 = .ok (read32 (replies k).payload 6) :=
      if_pos (by rw [hwell.2]; decide)
    rw [hword]
    rfl
  · rw [if_neg hwell, if_neg hwell]

theorem familyCommitLoop_decided {k : ℕ} {state : ℕ}
    (hreport : Reports operation token state (replies k))
    (hstate : state = RECORDS.family_state_states_succeeded ∨
      state = RECORDS.family_state_states_failed) (attempts : ℕ) :
    (((familyCommitLoop operation token (attempts + 1)).against
      (statusWatch replies clock)).exec (reads k)).1 =
      .ok (decide (state = RECORDS.family_state_states_succeeded)) := by
  obtain ⟨active_token, hreport, htoken⟩ := reports_iff.mp hreport
  rw [familyCommitLoop_turn, hreport]
  dsimp only
  rw [if_pos ⟨rfl, htoken⟩]
  rcases hstate with rfl | rfl
  · rw [if_pos rfl]
    rfl
  · rw [if_neg (by decide), if_pos rfl]
    rfl

theorem familyCommitLoop_passes {k : ℕ} (hother : ¬ Decisive operation token (replies k))
    (attempts : ℕ) :
    ((familyCommitLoop operation token (attempts + 1)).against
      (statusWatch replies clock)).exec (reads k) =
    ((familyCommitLoop operation token attempts).against
      (statusWatch replies clock)).exec (reads (k + 1)) := by
  rw [familyCommitLoop_turn, passed_over hother]

theorem familyCommitLoop_undecided {k : ℕ} (h : ∀ j < k, ¬ Decisive operation token (replies j))
    (attempts : ℕ) :
    ((familyCommitLoop operation token (k + attempts)).against
      (statusWatch replies clock)).exec [] =
    ((familyCommitLoop operation token attempts).against
      (statusWatch replies clock)).exec (reads k) := by
  induction k generalizing attempts with
  | zero => rw [Nat.zero_add]; rfl
  | succ k ih =>
      rw [Nat.add_assoc, Nat.add_comm 1 attempts,
        ih (fun j hj => h j (Nat.lt_succ_of_lt hj)) (attempts + 1)]
      exact familyCommitLoop_passes (h k (Nat.lt_succ_self k)) attempts

end JavaScript

/-! ## The two waits -/

section Waits

variable (replies : ℕ → GattResponse) (clock : ℕ → ℤ) (operation : ℕ) (token timeout : ℤ)

/-- What the Python wait comes to in at most so many turns, on `GattClient`. -/
def pythonOutcome (turns : ℕ) : Except PushExc Unit :=
  (((Client.wait_family_commit turns operation token timeout).received id
    (statusWatch replies clock)).exec []).1

def javascriptOutcome : Except CliError Bool :=
  (((waitForFamilyCommit operation token).against (statusWatch replies clock)).exec []).1

/-- The read after `k` others begins before the deadline, and none of those was decisive or
was not taken: the first reading of the clock starts the wait, and one more precedes every
read. -/
structure ReadAt (k : ℕ) : Prop where
  in_time : ∀ j ≤ k, clock (j + 1) < clock 0 + timeout
  taken : ∀ j < k, Taken (replies j)
  first : ∀ j < k, ¬ Decisive operation token (replies j)

/-- The first decisive read is the one after `k` others, and it begins before the
deadline. -/
structure DecidedAt (k : ℕ) : Prop extends ReadAt replies clock operation token timeout k where
  decisive : Decisive operation token (replies k)

/-- So does the first one whose reply is not taken. -/
structure RefusedAt (k : ℕ) : Prop extends ReadAt replies clock operation token timeout k where
  refused : ¬ Taken (replies k)

variable {replies clock operation token timeout}

theorem pythonOutcome_eq (turns : ℕ) :
    pythonOutcome replies clock operation token timeout turns =
      (((Client.waitLoop operation token (clock 0 + timeout) turns).received id
        (statusWatch replies clock)).exec [.monotonic]).1 := by
  unfold pythonOutcome Client.wait_family_commit
  rw [exec_received_monotonic_bind]
  rfl

/-- The turns in front of a read leave the loop where it was. -/
theorem ReadAt.loop {k : ℕ} (h : ReadAt replies clock operation token timeout k) {turns : ℕ}
    (hturns : k < turns) :
    ∃ asked fuel, After k asked ∧ pythonOutcome replies clock operation token timeout turns =
      (((Client.waitLoop operation token (clock 0 + timeout) (fuel + 1)).received id
        (statusWatch replies clock)).exec asked).1 := by
  obtain ⟨asked, hafter, hloop⟩ := waitLoop_undecided fun j hj =>
    ⟨h.in_time j (le_of_lt hj), h.taken j hj, h.first j hj⟩
  obtain ⟨fuel, rfl⟩ := Nat.exists_eq_add_of_lt hturns
  refine ⟨asked, fuel, hafter, ?_⟩
  rw [pythonOutcome_eq, Nat.add_assoc, hloop (fuel + 1)]

theorem pythonOutcome_decided {k : ℕ}
    (h : DecidedAt replies clock operation token timeout k) {turns : ℕ} (hturns : k < turns) :
    (Reports operation token RECORDS.family_state_states_succeeded (replies k) →
      pythonOutcome replies clock operation token timeout turns = .ok ()) ∧
    (Reports operation token RECORDS.family_state_states_failed (replies k) →
      pythonOutcome replies clock operation token timeout turns = .error failure) := by
  obtain ⟨asked, fuel, hafter, houtcome⟩ := h.toReadAt.loop hturns
  have hnow := h.in_time k le_rfl
  rw [houtcome]
  exact ⟨fun hreport => waitLoop_succeeded hafter hnow hreport fuel,
    fun hreport => waitLoop_failed hafter hnow hreport fuel⟩

theorem pythonOutcome_refused {k : ℕ}
    (h : RefusedAt replies clock operation token timeout k) {turns : ℕ} (hturns : k < turns) :
    pythonOutcome replies clock operation token timeout turns =
      .error (refusedReply (replies k)) := by
  obtain ⟨asked, fuel, hafter, houtcome⟩ := h.toReadAt.loop hturns
  rw [houtcome]
  exact waitLoop_refused hafter (h.in_time k le_rfl) h.refused fuel

/-- Without a decisive read, and one whose reply is not taken, the clock decides. -/
theorem pythonOutcome_timedOut (hnone : ∀ k, ¬ DecidedAt replies clock operation token timeout k)
    (htaken : ∀ k, ¬ RefusedAt replies clock operation token timeout k)
    (hclock : ∃ n, clock 0 + timeout ≤ clock (n + 1)) :
    ∃ enough, ∀ turns ≥ enough,
      pythonOutcome replies clock operation token timeout turns = .error timedOut := by
  classical
  -- the turns before the first reading past the deadline
  let n := Nat.find hclock
  have hlate : clock 0 + timeout ≤ clock (n + 1) := Nat.find_spec hclock
  have htime : ∀ j < n, clock (j + 1) < clock 0 + timeout :=
    fun j hj => not_le.mp (Nat.find_min hclock hj)
  have hother : ∀ j < n, Taken (replies j) ∧ ¬ Decisive operation token (replies j) := by
    intro j
    induction j using Nat.strong_induction_on with
    | h j ih =>
        intro hj
        have hread : ReadAt replies clock operation token timeout j :=
          ⟨fun i hi => htime i (lt_of_le_of_lt hi hj), fun i hi => (ih i hi (hi.trans hj)).1,
            fun i hi => (ih i hi (hi.trans hj)).2⟩
        exact ⟨by_contra fun hlong => htaken j ⟨hread, hlong⟩,
          fun hdecisive => hnone j ⟨hread, hdecisive⟩⟩
  obtain ⟨asked, hafter, hloop⟩ := waitLoop_undecided fun j hj => ⟨htime j hj, hother j hj⟩
  refine ⟨n + 1, fun turns hturns => ?_⟩
  obtain ⟨fuel, rfl⟩ := Nat.exists_eq_add_of_lt hturns
  rw [pythonOutcome_eq, Nat.add_assoc, hloop (fuel + 1)]
  exact waitLoop_late hafter hlate fuel

theorem javascriptOutcome_decided (clock : ℕ → ℤ) {k : ℕ}
    (hfirst : ∀ j < k, ¬ Decisive operation token (replies j))
    (hattempts : k < 40) {state : ℕ} (hreport : Reports operation token state (replies k))
    (hstate : state = RECORDS.family_state_states_succeeded ∨
      state = RECORDS.family_state_states_failed) :
    javascriptOutcome replies clock operation token =
      .ok (decide (state = RECORDS.family_state_states_succeeded)) := by
  obtain ⟨attempts, hattempts⟩ := Nat.exists_eq_add_of_lt hattempts
  unfold javascriptOutcome waitForFamilyCommit
  rw [hattempts, Nat.add_assoc, familyCommitLoop_undecided hfirst]
  exact familyCommitLoop_decided hreport hstate attempts

variable (replies clock operation token timeout)

/-- **The first decisive read decides** the Python wait, and without one the clock
does, unless a reply comes in front that `GattClient` does not take; where it is one of the
first forty, the JavaScript wait comes to the same. -/
theorem family_commit_decided :
    (∀ k, DecidedAt replies clock operation token timeout k →
      ∃ enough, ∀ turns ≥ enough,
        (Reports operation token RECORDS.family_state_states_succeeded (replies k) →
          pythonOutcome replies clock operation token timeout turns = .ok ()) ∧
        (Reports operation token RECORDS.family_state_states_failed (replies k) →
          pythonOutcome replies clock operation token timeout turns = .error failure)) ∧
    (∀ k, RefusedAt replies clock operation token timeout k →
      ∃ enough, ∀ turns ≥ enough, pythonOutcome replies clock operation token timeout turns =
        .error (refusedReply (replies k))) ∧
    ((∀ k, ¬ DecidedAt replies clock operation token timeout k) →
      (∀ k, ¬ RefusedAt replies clock operation token timeout k) →
      (∃ n, clock 0 + timeout ≤ clock (n + 1)) →
      ∃ enough, ∀ turns ≥ enough,
        pythonOutcome replies clock operation token timeout turns = .error timedOut) ∧
    (∀ k < 40, DecidedAt replies clock operation token timeout k →
      ∃ enough, ∀ turns ≥ enough,
        (javascriptOutcome replies clock operation token = .ok true ↔
          pythonOutcome replies clock operation token timeout turns = .ok ()) ∧
        (javascriptOutcome replies clock operation token = .ok false ↔
          pythonOutcome replies clock operation token timeout turns = .error failure)) := by
  refine ⟨fun k h => ⟨k + 1, fun turns hturns => pythonOutcome_decided h hturns⟩,
    fun k h => ⟨k + 1, fun turns hturns => pythonOutcome_refused h hturns⟩,
    pythonOutcome_timedOut, fun k hattempts h => ⟨k + 1, fun turns hturns => ?_⟩⟩
  obtain ⟨hsucceeded, hfailed⟩ := pythonOutcome_decided h hturns
  rcases h.decisive with hreport | hreport
  · have hjs := javascriptOutcome_decided clock h.first hattempts hreport (.inl rfl)
    rw [hjs, hsucceeded hreport]
    decide
  · have hjs := javascriptOutcome_decided clock h.first hattempts hreport (.inr rfl)
    rw [hjs, hfailed hreport]
    decide

/-- A status of schedule token 7 in some state. -/
def statusOf (state : UInt8) : GattResponse :=
  ⟨0, [1, 0, state, 1, 0, 0, 7, 0, 0, 0, 0, 0, 0, 0, 0, 0]⟩

/-- An error reply, a pending status, and the success. -/
theorem family_commit_decided_third :
    let replies := fun k : ℕ => [⟨7, []⟩, statusOf 1].getD k (statusOf 2)
    ∃ enough, ∀ turns ≥ enough,
      pythonOutcome replies (fun n => n) 1 7 100 turns = .ok () ∧
        javascriptOutcome replies (fun n => n) 1 7 = .ok true := by
  intro replies
  have hreport : Reports 1 7 RECORDS.family_state_states_succeeded (replies 2) :=
    ⟨rfl, rfl, rfl, rfl, rfl⟩
  -- the first reply is an error, the second reports a pending commit
  have hpending : ∀ state, Reports 1 7 state (replies 1) → state = 1 :=
    fun state h => h.state_at.symm
  have hat : DecidedAt replies (fun n => n) 1 7 100 2 := by
    refine ⟨⟨fun j hj => by omega, fun j hj => ?_, fun j hj => ?_⟩, .inl hreport⟩
    · obtain rfl | rfl : j = 0 ∨ j = 1 := by omega
      · exact Nat.zero_le _
      · exact show 16 ≤ 64 by decide
    obtain rfl | rfl : j = 0 ∨ j = 1 := by omega
    · rintro (h | h)
      · exact absurd h.success (by decide)
      · exact absurd h.success (by decide)
    · rintro (h | h)
      · exact absurd (hpending _ h) (by decide)
      · exact absurd (hpending _ h) (by decide)
  obtain ⟨hpython, -, -, hjs⟩ := family_commit_decided replies (fun n => n) 1 7 100
  obtain ⟨enough, hpython⟩ := hpython 2 hat
  obtain ⟨enough', hjs⟩ := hjs 2 (by decide) hat
  refine ⟨max enough enough', fun turns hturns => ?_⟩
  have hok := (hpython turns (le_of_max_le_left hturns)).1 hreport
  exact ⟨hok, (hjs turns (le_of_max_le_right hturns)).1.mpr hok⟩

end Waits

end Ptlab.Js
