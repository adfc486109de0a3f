/-
The clock of `wait_for_tcp_listener` in `src/ptlab/sim.py`.

`Ptlab.Sim.Start` takes the turns of the loop as they come; here they are counted.
The clock stands still but for `sleep`, so that a round begins every twentieth of a
second and the last sleep ends at the deadline. What the process and the listener
do is told by the number of calls that came before, and a round that decides nothing
makes three.
-/
import Mathlib.Algebra.Order.Floor.Semiring
import Mathlib.Data.Rat.Floor
import Ptlab.Sim.Start

set_option autoImplicit false

namespace Ptlab.Sim

/-! ## The loop -/

/-- A call of the loop, with what it returned. -/
inductive ListenerCall where
  | process_alive (alive : Bool)
  | probe (timeout : ℚ) (accepting : Bool)
  | sleep (duration : ℚ)
  deriving DecidableEq, Repr

/-- What the process and the listener answer after so many calls. -/
structure Answers where
  alive : ℕ → Bool
  accepting : ℕ → Bool

/-- How long a round sleeps. -/
def pause (deadline clock : ℚ) : ℚ := min 0.05 (max 0 (deadline - clock))

/-- The turns that may still begin. -/
def turnsLeft (deadline clock : ℚ) : ℕ := ⌈(deadline - clock) / 0.05⌉₊

theorem turnsLeft_pause {deadline clock : ℚ} (h : clock < deadline) :
    turnsLeft deadline (clock + pause deadline clock) + 1 = turnsLeft deadline clock := by
  have hpositive : 0 < (deadline - clock) / 0.05 := div_pos (by linarith) (by norm_num)
  have hturn : 0 < ⌈(deadline - clock) / 0.05⌉₊ := Nat.ceil_pos.mpr hpositive
  unfold turnsLeft pause
  rw [max_eq_right (by linarith)]
  rcases le_total (deadline - clock) 0.05 with hlast | hmore
  · have hone : ⌈(deadline - clock) / 0.05⌉₊ ≤ 1 := by
      rw [Nat.ceil_le, div_le_iff₀ (by norm_num)]
      push_cast
      linarith
    rw [min_eq_right hlast, show deadline - (clock + (deadline - clock)) = 0 by ring, zero_div,
      Nat.ceil_zero]
    omega
  · rw [min_eq_left hmore, show (deadline - (clock + 0.05)) / 0.05 = (deadline - clock) / 0.05 - 1 by ring,
      Nat.ceil_sub_one]
    omega

section Loop

variable (answers : Answers) (port : ℤ) (late : String) (deadline : ℚ)

/-- The loop, and what comes after it. `late` is the text of the last exception. -/
def waitUntil (clock : ℚ) (calls : List ListenerCall) : Except PyExc Unit × List ListenerCall :=
  if _h : clock < deadline then
    let alive := answers.alive calls.length
    let checked := calls ++ [.process_alive alive]
    if !alive then
      (.error (SimError s!"simulator exited before bridge port {port} became ready"), checked)
    else
      -- `socket.create_connection(..., timeout=min(0.2, max(0.01, deadline - time.monotonic())))`
      let accepting := answers.accepting checked.length
      let probed := checked ++ [.probe (min 0.2 (max 0.01 (deadline - clock))) accepting]
      if accepting then
        -- alive still, after the connection
        let again := answers.alive probed.length
        let ended := probed ++ [.process_alive again]
        if !again then
          (.error (SimError s!"simulator exited while bridge port {port} was starting"), ended)
        else (.ok (), ended)
      else
        let duration := pause deadline clock
        waitUntil (clock + duration) (probed ++ [.sleep duration])
  else
    let alive := answers.alive calls.length
    let ended := calls ++ [.process_alive alive]
    if !alive then
      (.error (SimError s!"simulator exited before bridge port {port} became ready"), ended)
    else (.error (SimError late), ended)
termination_by turnsLeft deadline clock
decreasing_by
  have hturn := turnsLeft_pause _h
  omega

end Loop

/-- `wait_for_tcp_listener`, called at `start`, with the calls it makes. `general` is
`f"{timeout:g}"`. -/
def wait_for_tcp_listener_timed (answers : Answers) (general : ℚ → String) (port : ℤ)
    (timeout start : ℚ) : Except PyExc Unit × List ListenerCall :=
  waitUntil answers port
    s!"bridge port {port} did not accept connections within {general timeout} seconds"
    (start + timeout) start []

/-! ## Rounds -/

section Rounds

variable {answers : Answers} {port : ℤ} {late : String} {deadline : ℚ}

/-- **The rule of the loop**: how a round can end, with the calls it makes. -/
theorem waitUntil_rule
    {P : ℚ → List ListenerCall → Except PyExc Unit × List ListenerCall → Prop}
    (dead : ∀ clock calls message, answers.alive calls.length = false →
      P clock calls (.error (SimError message), calls ++ [.process_alive false]))
    (timedOut : ∀ clock calls message, deadline ≤ clock → answers.alive calls.length = true →
      P clock calls (.error (SimError message), calls ++ [.process_alive true]))
    (exited : ∀ clock calls wait message, clock < deadline →
      answers.accepting (calls.length + 1) = true → answers.alive (calls.length + 2) = false →
      P clock calls (.error (SimError message),
        calls ++ [.process_alive true, .probe wait true, .process_alive false]))
    (ready : ∀ clock calls wait, clock < deadline → answers.alive calls.length = true →
      answers.accepting (calls.length + 1) = true → answers.alive (calls.length + 2) = true →
      P clock calls (.ok (), calls ++ [.process_alive true, .probe wait true, .process_alive true]))
    (again : ∀ clock calls wait result, clock < deadline → answers.alive calls.length = true →
      answers.accepting (calls.length + 1) = false →
      P (clock + pause deadline clock)
        (calls ++ [.process_alive true, .probe wait false, .sleep (pause deadline clock)]) result →
      P clock calls result)
    (clock : ℚ) (calls : List ListenerCall) :
    P clock calls (waitUntil answers port late deadline clock calls) := by
  fun_induction waitUntil answers port late deadline clock calls with
  | case1 clock calls hclock alive checked halive =>
      have halive : alive = false := by simpa using halive
      simp only [checked, halive]
      exact dead clock calls _ halive
  | case2 clock calls hclock alive checked halive accepting probed haccepting again' ended hagain =>
      have halive : alive = true := by simpa using halive
      have hagain : again' = false := by simpa using hagain
      simp only [ended, probed, checked, halive, haccepting, hagain, List.append_assoc]
      refine exited clock calls _ _ hclock ?_ ?_
      · simpa [accepting, checked] using haccepting
      · simpa [again', probed, checked] using hagain
  | case3 clock calls hclock alive checked halive accepting probed haccepting again' ended hagain =>
      have halive : alive = true := by simpa using halive
      have hagain : again' = true := by simpa using hagain
      simp only [ended, probed, checked, halive, haccepting, hagain, List.append_assoc]
      refine ready clock calls _ hclock halive ?_ ?_
      · simpa [accepting, checked] using haccepting
      · simpa [again', probed, checked] using hagain
  | case4 clock calls hclock alive checked halive accepting probed haccepting duration ih =>
      have halive : alive = true := by simpa using halive
      have haccepting : accepting = false := by simpa using haccepting
      refine again clock calls (min 0.2 (max 0.01 (deadline - clock))) _ hclock halive ?_ ?_
      · simpa [accepting, checked] using haccepting
      · simpa only [probed, checked, halive, haccepting, duration, List.append_assoc,
          List.cons_append, List.nil_append] using ih
  | case5 clock calls hclock alive ended halive =>
      have halive : alive = false := by simpa using halive
      simp only [ended, halive]
      exact dead clock calls _ halive
  | case6 clock calls hclock alive ended halive =>
      have halive : alive = true := by simpa using halive
      simp only [ended, halive]
      exact timedOut clock calls _ (not_lt.mp hclock) halive

/-- A probe. -/
def ListenerCall.isProbe : ListenerCall → Bool
  | .probe _ _ => true
  | _ => false

/-- So many probes. -/
def probes (calls : List ListenerCall) : ℕ := calls.countP ListenerCall.isProbe

theorem probes_append (calls new : List ListenerCall) :
    probes (calls ++ new) = probes calls + probes new := List.countP_append

/-- Every probe takes a turn. -/
theorem probes_waitUntil (clock : ℚ) (calls : List ListenerCall) :
    probes (waitUntil answers port late deadline clock calls).2 ≤
      probes calls + turnsLeft deadline clock := by
  have hturn : ∀ clock, clock < deadline → 1 ≤ turnsLeft deadline clock := fun clock h =>
    (turnsLeft_pause h).le.trans' (Nat.le_add_left 1 _)
  refine @waitUntil_rule answers port late deadline (fun clock calls result =>
    probes result.2 ≤ probes calls + turnsLeft deadline clock) ?_ ?_ ?_ ?_ ?_ clock calls
  · intro clock calls message _
    rw [probes_append]
    exact Nat.add_le_add_left (Nat.zero_le _) _
  · intro clock calls message _ _
    rw [probes_append]
    exact Nat.add_le_add_left (Nat.zero_le _) _
  · intro clock calls wait message hclock _ _
    rw [probes_append]
    exact Nat.add_le_add_left (hturn clock hclock) _
  · intro clock calls wait hclock _ _ _
    rw [probes_append]
    exact Nat.add_le_add_left (hturn clock hclock) _
  · intro clock calls wait result hclock _ _ ih
    -- a turn that goes on has made one probe and used up one turn
    have hleft := turnsLeft_pause hclock
    have hone : probes [.process_alive true, .probe wait false, .sleep (pause deadline clock)] = 1 := rfl
    rw [probes_append, hone] at ih
    omega

/-- A check that finds the process dead is the last call, and the function raises. -/
def StopsWhenDead (result : Except PyExc Unit × List ListenerCall) : Prop :=
  ∀ before after, result.2 = before ++ .process_alive false :: after →
    after = [] ∧ ∃ message, result.1 = .error (SimError message)

theorem stopsWhenDead_alive {result : Except PyExc Unit × List ListenerCall}
    (h : .process_alive false ∉ result.2) : StopsWhenDead result := by
  intro before after hcalls
  rw [hcalls] at h
  exact absurd (by simp) h

theorem stopsWhenDead_dead {calls : List ListenerCall} (message : String)
    (h : .process_alive false ∉ calls) :
    StopsWhenDead (.error (SimError message), calls ++ [.process_alive false]) := by
  intro before after hcalls
  refine ⟨?_, message, rfl⟩
  cases after using List.reverseRecOn with
  | nil => rfl
  | append_singleton after last =>
      -- the check would be among the calls before the last
      dsimp only at hcalls
      rw [← List.cons_append, ← List.append_assoc] at hcalls
      have hbefore := (List.append_inj' hcalls rfl).1
      rw [hbefore] at h
      exact absurd (by simp) h

theorem stopsWhenDead_waitUntil (clock : ℚ) (calls : List ListenerCall)
    (hcalls : .process_alive false ∉ calls) :
    StopsWhenDead (waitUntil answers port late deadline clock calls) := by
  refine @waitUntil_rule answers port late deadline (fun clock calls result =>
    .process_alive false ∉ calls → StopsWhenDead result) ?_ ?_ ?_ ?_ ?_ clock calls hcalls
  · intro clock calls message _ hcalls
    exact stopsWhenDead_dead message hcalls
  · intro clock calls message _ _ hcalls
    apply stopsWhenDead_alive
    simpa using hcalls
  · intro clock calls wait message _ _ _ hcalls
    have hupto : .process_alive false ∉ calls ++ [.process_alive true, .probe wait true] := by
      simpa using hcalls
    have hstops := stopsWhenDead_dead message hupto
    rwa [List.append_assoc] at hstops
  · intro clock calls wait _ _ _ _ hcalls
    apply stopsWhenDead_alive
    simpa using hcalls
  · intro clock calls wait result _ _ _ ih hcalls
    apply ih
    simpa using hcalls

/-- The round `n`, counted from 0, in which the function returns. -/
structure ReadyRound (answers : Answers) (timeout : ℚ) (n : ℕ) : Prop where
  /-- It begins before the deadline. -/
  begun : n * (0.05 : ℚ) < timeout
  /-- The checks at the head of the rounds, this one included. -/
  alive : ∀ m ≤ n, answers.alive (3 * m) = true
  /-- The checks after earlier probes. -/
  aliveAfter : ∀ m < n, answers.accepting (3 * m + 1) = true → answers.alive (3 * m + 2) = true
  accepting : answers.accepting (3 * n + 1) = true
  stillAlive : answers.alive (3 * n + 2) = true

/-- Such a round among those from `k` on. -/
def ReadyFrom (answers : Answers) (timeout : ℚ) (k : ℕ) : Prop :=
  ∃ n, k ≤ n ∧ n * (0.05 : ℚ) < timeout ∧
    (∀ m, k ≤ m → m ≤ n → answers.alive (3 * m) = true) ∧
    (∀ m, k ≤ m → m < n → answers.accepting (3 * m + 1) = true → answers.alive (3 * m + 2) = true) ∧
    answers.accepting (3 * n + 1) = true ∧ answers.alive (3 * n + 2) = true

/-- A round that decides nothing may be left out. -/
theorem readyFrom_succ {timeout : ℚ} {k : ℕ} (halive : answers.alive (3 * k) = true)
    (haccepting : answers.accepting (3 * k + 1) = false) :
    ReadyFrom answers timeout k ↔ ReadyFrom answers timeout (k + 1) := by
  constructor
  · rintro ⟨n, hk, hbegun, hchecks, hafter, hn, hstill⟩
    -- the round that was begun did not accept, so that it is a later one
    have hne : k ≠ n := by
      rintro rfl
      rw [haccepting] at hn
      cases hn
    exact ⟨n, by omega, hbegun, fun m hm => hchecks m (by omega), fun m hm => hafter m (by omega),
      hn, hstill⟩
  · rintro ⟨n, hk, hbegun, hchecks, hafter, hn, hstill⟩
    refine ⟨n, by omega, hbegun, fun m hm hmn => ?_, fun m hm hmn hacc => ?_, hn, hstill⟩
    · by_cases hmk : m = k
      · rw [hmk]
        exact halive
      · exact hchecks m (by omega) hmn
    · by_cases hmk : m = k
      · rw [hmk, haccepting] at hacc
        cases hacc
      · exact hafter m (by omega) hmn hacc

/-- The loop returns if there is such a round to come. The round is known from the
number of the calls, and with it the clock. -/
theorem waitUntil_returns_iff (start timeout clock : ℚ) (calls : List ListenerCall) (k : ℕ)
    (hcalls : calls.length = 3 * k) (hclock : clock = min (start + k * 0.05) (start + timeout)) :
    (waitUntil answers port late (start + timeout) clock calls).1 = .ok () ↔
      ReadyFrom answers timeout k := by
  refine @waitUntil_rule answers port late (start + timeout) (fun clock calls result =>
    ∀ k : ℕ, calls.length = 3 * k → clock = min (start + k * 0.05) (start + timeout) →
      (result.1 = .ok () ↔ ReadyFrom answers timeout k)) ?_ ?_ ?_ ?_ ?_ clock calls k hcalls hclock
  · intro clock calls message hdead k hcalls _
    rw [hcalls] at hdead
    refine iff_of_false (fun h => by cases h) ?_
    rintro ⟨n, hk, -, hchecks, -⟩
    rw [hchecks k le_rfl hk] at hdead
    cases hdead
  · intro clock calls message hlate _ k _ hclock
    refine iff_of_false (fun h => by cases h) ?_
    rintro ⟨n, hk, hbegun, -⟩
    have hround : (k : ℚ) ≤ n := by exact_mod_cast hk
    have hover : start + timeout ≤ start + k * 0.05 := by
      rw [hclock] at hlate
      exact le_trans hlate (min_le_left _ _)
    linarith
  · intro clock calls wait message _ haccepting hdead k hcalls _
    rw [hcalls] at haccepting hdead
    refine iff_of_false (fun h => by cases h) ?_
    rintro ⟨n, hk, -, -, hafter, hn, hstill⟩
    by_cases hne : k = n
    · rw [← hne, hdead] at hstill
      cases hstill
    · have halive := hafter k le_rfl (by omega) haccepting
      rw [hdead] at halive
      cases halive
  · intro clock calls wait hbefore halive haccepting hstill k hcalls hclock
    rw [hcalls] at halive haccepting hstill
    refine iff_of_true rfl ⟨k, le_rfl, ?_, fun m hm hmk => ?_, fun m hm hmk => ?_, haccepting, hstill⟩
    · rw [hclock] at hbefore
      rcases min_lt_iff.mp hbefore with h | h
      · linarith
      · exact absurd h (lt_irrefl _)
    · rw [show m = k by omega]
      exact halive
    · omega
  · intro clock calls wait result hbefore halive haccepting ih k hcalls hclock
    rw [hcalls] at halive haccepting
    rw [readyFrom_succ halive haccepting]
    apply ih (k + 1)
    · rw [List.length_append, hcalls]
      rfl
    · -- the clock was not at the deadline, so that it stood at the beginning of the round
      have hexact : clock = start + k * 0.05 := by
        rw [hclock] at hbefore ⊢
        exact min_eq_left (le_of_not_ge fun h => absurd hbefore (by rw [min_eq_right h]; exact lt_irrefl _))
      unfold pause
      rw [hexact] at hbefore ⊢
      push_cast
      rw [max_eq_right (by linarith)]
      rcases le_total (start + timeout - (start + k * 0.05)) 0.05 with h | h
      · rw [min_eq_right h, min_eq_right (by linarith)]
        ring
      · rw [min_eq_left h, min_eq_left (by linarith)]
        ring

/-- With no time to wait there is no round. -/
theorem waitUntil_at_once (answers : Answers) (port : ℤ) (late : String) {timeout : ℚ} (start : ℚ)
    (h : timeout ≤ 0) :
    (waitUntil answers port late (start + timeout) start []).1 ≠ .ok () := by
  unfold waitUntil
  rw [dif_neg (by linarith)]
  dsimp only
  split_ifs
  · exact fun h => (by cases h)
  · exact fun h => (by cases h)

theorem wait_for_tcp_listener_returns_iff (answers : Answers) (general : ℚ → String) (port : ℤ)
    (timeout start : ℚ) :
    (wait_for_tcp_listener_timed answers general port timeout start).1 = .ok () ↔
      ∃ n, ReadyRound answers timeout n := by
  unfold wait_for_tcp_listener_timed
  by_cases htimeout : 0 < timeout
  · have hstart : start = min (start + (0 : ℕ) * 0.05) (start + timeout) := by
      rw [min_eq_left (by push_cast; linarith)]
      simp
    rw [waitUntil_returns_iff start timeout start [] 0 rfl hstart]
    constructor
    · rintro ⟨n, -, hbegun, hchecks, hafter, hn, hstill⟩
      exact ⟨n, hbegun, fun m => hchecks m (Nat.zero_le m), fun m => hafter m (Nat.zero_le m), hn, hstill⟩
    · rintro ⟨n, hready⟩
      exact ⟨n, Nat.zero_le n, hready.begun, fun m _ => hready.alive m, fun m _ => hready.aliveAfter m,
        hready.accepting, hready.stillAlive⟩
  · -- without a positive timeout no round is begun
    refine iff_of_false (waitUntil_at_once _ _ _ start (by linarith)) ?_
    rintro ⟨n, hready⟩
    have hbegun := hready.begun
    have hround : (0 : ℚ) ≤ n := Nat.cast_nonneg n
    linarith

/-- **Readiness.** The function returns exactly when there is a round in which it
should; it stops at a check that finds the process dead, and it probes no more often
than the timeout has twentieths of a second. -/
theorem wait_for_tcp_listener_outcome (answers : Answers) (general : ℚ → String) (port : ℤ)
    (timeout start : ℚ) :
    ((wait_for_tcp_listener_timed answers general port timeout start).1 = .ok () ↔
      ∃ n, ReadyRound answers timeout n) ∧
    StopsWhenDead (wait_for_tcp_listener_timed answers general port timeout start) ∧
    probes (wait_for_tcp_listener_timed answers general port timeout start).2 ≤
      ⌈timeout / 0.05⌉₊ := by
  refine ⟨wait_for_tcp_listener_returns_iff answers general port timeout start,
    stopsWhenDead_waitUntil _ _ List.not_mem_nil, ?_⟩
  have hprobes := @probes_waitUntil answers port
    s!"bridge port {port} did not accept connections within {general timeout} seconds"
    (start + timeout) start []
  unfold turnsLeft at hprobes
  rw [add_sub_cancel_left, show probes [] = 0 by rfl, Nat.zero_add] at hprobes
  exact hprobes

end Rounds

/-! ## The turns of `start` -/

/-- The answers of the probes in so many rounds, from `k` on. -/
def turnsFrom (answers : Answers) (k count : ℕ) : List Bool :=
  (List.range' k count).map fun n => answers.accepting (3 * n + 1)

/-- The points of `start` at which the process is looked at, in the order of the calls. -/
structure Env.Answering (env : Env) (answers : Answers) : Prop where
  fault : ∀ p, env.fault p = none
  alive : ∀ n, env.sim_alive (.process_alive n) = answers.alive (3 * n)
  again : ∀ n, env.sim_alive (.process_alive_again n) = answers.alive (3 * n + 2)

open Effect in
theorem exec_point {env : Env} {answers : Answers} (h : env.Answering answers)
    (p : Point) (w : StartWorld) : (point env p).exec w = (.ok (), w) := by
  unfold point
  rw [h.fault]
  rfl

open Effect in
theorem exec_orRaise (ok : Bool) (message : String) (w : StartWorld) :
    (orRaise ok message).exec w = (if ok then .ok () else .error (SimError message), w) := by
  unfold orRaise
  cases ok
  · rfl
  · rfl

open Effect in
/-- A turn of `start` ends the loop as the round does, or leaves the turns after it. -/
theorem exec_turn {env : Env} {answers : Answers} (h : env.Answering answers)
    (port : ℤ) (k count : ℕ) (w : StartWorld) :
    ((wait_for_tcp_listener env port k (turnsFrom answers k (count + 1))).exec w).1 = .ok () ↔
      answers.alive (3 * k) = true ∧
        if answers.accepting (3 * k + 1) = true then answers.alive (3 * k + 2) = true
        else ((wait_for_tcp_listener env port (k + 1) (turnsFrom answers (k + 1) count)).exec w).1 =
          .ok () := by
  unfold turnsFrom
  rw [List.range'_succ, List.map_cons, wait_for_tcp_listener, exec_bind, exec_point h]
  dsimp only
  rw [exec_bind, exec_orRaise, h.alive]
  cases answers.alive (3 * k)
  · simp
  · simp only [if_true, true_and]
    rw [exec_bind, exec_point h]
    dsimp only
    cases answers.accepting (3 * k + 1)
    · simp only [Bool.false_eq_true, if_false]
      rw [exec_bind, exec_point h]
    · simp only [if_true]
      rw [exec_bind, exec_point h]
      dsimp only
      rw [exec_orRaise, h.again]
      cases answers.alive (3 * k + 2)
      · simp
      · simp

open Effect in
theorem exec_no_turn (env : Env) (port : ℤ) (k : ℕ) (w : StartWorld) :
    ((wait_for_tcp_listener env port k []).exec w).1 ≠ .ok () := by
  rw [wait_for_tcp_listener, exec_bind]
  rcases (point env .process_alive_at_last).exec w with ⟨error | _, w'⟩
  · exact fun h => (by cases h)
  · dsimp only
    rw [exec_bind, exec_orRaise]
    split_ifs
    · exact fun h => (by cases h)
    · exact fun h => (by cases h)

/-- **The two models agree**: the turns that `start` is given are the rounds there is
time for. -/
theorem waitUntil_turns {env : Env} {answers : Answers} (h : env.Answering answers)
    (port : ℤ) (w : StartWorld) (late : String) (deadline clock : ℚ) (calls : List ListenerCall)
    (k : ℕ) (hcalls : calls.length = 3 * k) :
    (waitUntil answers port late deadline clock calls).1 = .ok () ↔
      (Effect.exec (wait_for_tcp_listener env port k
        (turnsFrom answers k (turnsLeft deadline clock))) w).1 = .ok () := by
  have hturns : ∀ clock, clock < deadline → ∃ count, turnsLeft deadline clock = count + 1 :=
    fun clock hclock => ⟨_, (turnsLeft_pause hclock).symm⟩
  refine @waitUntil_rule answers port late deadline (fun clock calls result =>
    ∀ k : ℕ, calls.length = 3 * k → (result.1 = .ok () ↔
      (Effect.exec (wait_for_tcp_listener env port k
        (turnsFrom answers k (turnsLeft deadline clock))) w).1 = .ok ())) ?_ ?_ ?_ ?_ ?_ clock calls k hcalls
  · intro clock calls message hdead k hcalls
    rw [hcalls] at hdead
    refine iff_of_false (fun h => by cases h) ?_
    cases turnsLeft deadline clock with
    | zero => exact exec_no_turn env port k w
    | succ count =>
        rw [exec_turn h, hdead]
        simp
  · intro clock calls message hlate _ k _
    have hnone : turnsLeft deadline clock = 0 := by
      unfold turnsLeft
      rw [Nat.ceil_eq_zero]
      exact div_nonpos_of_nonpos_of_nonneg (by linarith) (by norm_num)
    rw [hnone]
    exact iff_of_false (fun h => by cases h) (exec_no_turn env port k w)
  · intro clock calls wait message hclock haccepting hdead k hcalls
    rw [hcalls] at haccepting hdead
    obtain ⟨count, hcount⟩ := hturns clock hclock
    refine iff_of_false (fun h => by cases h) ?_
    rw [hcount, exec_turn h, if_pos haccepting, hdead]
    simp
  · intro clock calls wait hclock halive haccepting hstill k hcalls
    rw [hcalls] at halive haccepting hstill
    obtain ⟨count, hcount⟩ := hturns clock hclock
    refine iff_of_true rfl ?_
    rw [hcount, exec_turn h, if_pos haccepting]
    exact ⟨halive, hstill⟩
  · intro clock calls wait result hclock halive haccepting ih k hcalls
    rw [hcalls] at halive haccepting
    have hnext := ih (k + 1) (by rw [List.length_append, hcalls]; rfl)
    rw [hnext, ← turnsLeft_pause hclock, exec_turn h, if_neg (by rw [haccepting]; decide)]
    exact (and_iff_right halive).symm

end Ptlab.Sim
