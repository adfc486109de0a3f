/-
Process clean-up (`src/ptlab/processes.py`).

The operating system is the environment: `Host` has its answer to every question
a run asks, numbered in the order of asking, and the order in which a set is
iterated. A `Trace` is what a run has done to it. Every signal in a trace was
passed to `os.kill` or `os.killpg`, whatever became of it; the signal 0 of
`process_is_alive` is a question, not a signal.

Both functions have one shape (`terminate`): SIGTERM to all, wait for them to
go, SIGKILL to the rest. They differ in how they choose their targets, and
`terminate_always` says that the choice is all that matters.
-/
import Ptlab.Lib.Effect

set_option autoImplicit false

open Effect

namespace Ptlab.Processes

/-! ## The operating system -/

structure ProcessRef where
  pid : ℤ
  pgid : ℤ
  name : String
  deriving DecidableEq, Repr

inductive Signal where
  | SIGTERM
  | SIGKILL
  deriving DecidableEq, Repr

/-- Whom a signal is sent to: `os.kill` or `os.killpg`. -/
inductive Target where
  | process (pid : ℤ)
  | group (pgid : ℤ)
  deriving DecidableEq, Repr

/-- One call of `os.kill` or `os.killpg`. -/
structure Sent where
  target : Target
  signal : Signal
  deriving DecidableEq, Repr

/-- How such a call ends. -/
inductive Reply where
  | ok
  | ProcessLookupError
  | PermissionError
  | OSError (message : String)
  deriving DecidableEq, Repr

/-- What the functions of this module raise. `unfinished` stands for a wait that
was not followed to its end. -/
inductive ProcessExc where
  | RuntimeError (message : String)
  | PermissionError
  | OSError (message : String)
  | unfinished
  deriving DecidableEq, Repr

structure Host where
  getpid : ℤ
  getpgrp : ℤ
  /-- The end of the `n`-th `os.kill(pid, 0)`. -/
  probe : ℕ → ℤ → Reply
  /-- The end of the `n`-th call that sends a signal. -/
  deliver : ℕ → Sent → Reply
  /-- The `n`-th reading of the clock. -/
  monotonic : ℕ → ℚ
  /-- The members of a set in the order of iteration. -/
  order : List ℤ → List ℤ
  order_nodup : ∀ xs, (order xs).Nodup
  mem_order : ∀ xs x, x ∈ order xs ↔ x ∈ xs

/-- What a run has done: how often it asked, and what it sent. -/
structure Trace where
  probes : ℕ
  readings : ℕ
  signals : List Sent
  deriving DecidableEq, Repr

section Model

variable (host : Host)

def process_is_alive (pid : ℤ) : Effect Trace ProcessExc Bool := .of fun t =>
  let t' := { t with probes := t.probes + 1 }
  match host.probe t.probes pid with
  -- a process that may not be signalled is alive
  | .ok => (.ok true, t')
  | .ProcessLookupError => (.ok false, t')
  | .PermissionError => (.ok true, t')
  | .OSError message => (.error (.OSError message), t')

/-- One signal. A target that is gone is passed over. -/
def send (target : Target) (signal : Signal) : Effect Trace ProcessExc Unit := .of fun t =>
  let t' := { t with signals := t.signals ++ [⟨target, signal⟩] }
  match host.deliver t.signals.length ⟨target, signal⟩ with
  | .ok => (.ok (), t')
  | .ProcessLookupError => (.ok (), t')
  | .PermissionError => (.error .PermissionError, t')
  | .OSError message => (.error (.OSError message), t')

def monotonic : Effect Trace ProcessExc ℚ := .of fun t =>
  (.ok (host.monotonic t.readings), { t with readings := t.readings + 1 })

/-- The items whose process is alive, asked one after another. -/
def stillAlive {β : Type} (pid : β → ℤ) : List β → Effect Trace ProcessExc (List β)
  | [] => pure []
  | x :: xs => do
    let isAlive ← process_is_alive host (pid x)
    let rest ← stillAlive pid xs
    return if isAlive then x :: rest else rest

/-- `while remaining and monotonic() < deadline`: poll, and sleep if any are left.
The sleep reads the clock. -/
def waitWhile (deadline : ℚ) (poll : List ℤ → Effect Trace ProcessExc (List ℤ)) :
    ℕ → List ℤ → Effect Trace ProcessExc (List ℤ)
  | 0, _ => throw .unfinished
  | fuel + 1, remaining =>
    if remaining = [] then return remaining
    else do
      let now ← monotonic host
      if now < deadline then
        let remaining ← poll remaining
        if remaining ≠ [] then
          let _ ← monotonic host
        waitWhile deadline poll fuel remaining
      else return remaining

/-- The signals and the wait both functions have. -/
def terminate (target : ℤ → Target) (timeout : ℚ)
    (poll : List ℤ → Effect Trace ProcessExc (List ℤ)) (fuel : ℕ) (remaining : List ℤ) :
    Effect Trace ProcessExc Unit := do
  (host.order remaining).forM fun id => send host (target id) .SIGTERM
  let now ← monotonic host
  let remaining ← waitWhile host (now + timeout) poll fuel remaining
  (host.order remaining).forM fun id => send host (target id) .SIGKILL

/-- The references `terminate_process_groups` looks at. -/
def guarded (processes : List ProcessRef) : List ProcessRef :=
  processes.filter fun ref => 1 < ref.pid ∧ 1 < ref.pgid

def terminate_process_groups (processes : List ProcessRef) (timeout : ℚ) (fuel : ℕ) :
    Effect Trace ProcessExc Unit := do
  let refs := guarded processes
  -- the guard looks at references that passed the filter, and at groups only
  if refs.any fun ref => ref.pgid = host.getpgrp then
    throw (.RuntimeError "refusing to terminate the ptlab process group")
  else
    let live ← stillAlive host ProcessRef.pid refs
    terminate host .group timeout
      (fun groups => do
        let live ← stillAlive host ProcessRef.pid (refs.filter fun ref => ref.pgid ∈ groups)
        return live.map ProcessRef.pgid)
      fuel (live.map ProcessRef.pgid)

def terminate_pids (pids : List ℤ) (timeout : ℚ) (fuel : ℕ) : Effect Trace ProcessExc Unit := do
  let remaining ← stillAlive host id (pids.filter fun pid => 1 < pid)
  terminate host .process timeout (fun remaining => stillAlive host id (host.order remaining))
    fuel remaining

end Model

/-! ## What is sent

`J` says something about the signals sent so far. The signals a function may add
are those with `P`, and `J` has to survive each of them. -/

section Spec

variable {host : Host} {J : List Sent → Prop} {P : Sent → Prop}

theorem process_is_alive_always (pid : ℤ) :
    Always (fun t => J t.signals) (process_is_alive host pid) := by
  intro t ht
  unfold process_is_alive
  rw [exec_of]
  cases host.probe t.probes pid <;> exact ht

theorem monotonic_always : Always (fun t => J t.signals) (monotonic host) := fun _ ht => ht

theorem send_always (hJ : ∀ l s, P s → J l → J (l ++ [s])) {target : Target} {signal : Signal}
    (hP : P ⟨target, signal⟩) : Always (fun t => J t.signals) (send host target signal) := by
  intro t ht
  have hsent : J (t.signals ++ [⟨target, signal⟩]) := hJ _ _ hP ht
  unfold send
  rw [exec_of]
  cases host.deliver t.signals.length ⟨target, signal⟩ <;> exact hsent

/-- Asking sends nothing, and finds some of the items asked about. -/
theorem stillAlive_spec {β : Type} (pid : β → ℤ) (xs : List β) :
    Triple (fun t => J t.signals) (stillAlive host pid xs)
      (fun ys t => J t.signals ∧ ys.Sublist xs) (fun _ t => J t.signals) := by
  induction xs with
  | nil => exact triple_pure fun t ht => ⟨ht, List.Sublist.slnil⟩
  | cons x xs ih =>
      unfold stillAlive
      refine triple_bind (process_is_alive_always (pid x)) fun isAlive => ?_
      refine triple_bind ih fun rest => triple_pure fun t ht => ⟨ht.1, ?_⟩
      split_ifs
      · exact ht.2.cons_cons x
      · exact ht.2.cons x

/-- The wait sends nothing, and leaves targets among those polling may leave. -/
theorem waitWhile_spec {V : ℤ → Prop} {deadline : ℚ}
    {poll : List ℤ → Effect Trace ProcessExc (List ℤ)}
    (hpoll : ∀ xs, (∀ x ∈ xs, V x) → Triple (fun t => J t.signals) (poll xs)
      (fun ys t => J t.signals ∧ ∀ y ∈ ys, V y) (fun _ t => J t.signals)) (fuel : ℕ) :
    ∀ remaining : List ℤ, (∀ x ∈ remaining, V x) →
      Triple (fun t => J t.signals) (waitWhile host deadline poll fuel remaining)
        (fun ys t => J t.signals ∧ ∀ y ∈ ys, V y) (fun _ t => J t.signals) := by
  induction fuel with
  | zero =>
      intro remaining _
      exact triple_throw fun t ht => ht
  | succ fuel ih =>
      intro remaining hV
      unfold waitWhile
      split_ifs
      · exact triple_pure fun t ht => ⟨ht, hV⟩
      refine triple_bind monotonic_always fun now => ?_
      split_ifs
      · -- what a poll leaves is what the next turn starts from
        refine triple_bind (hpoll remaining hV) fun left => ?_
        refine triple_assume fun hleft => ?_
        split_ifs
        · exact triple_bind monotonic_always fun _ => ih left hleft
        · exact ih left hleft
      · exact triple_pure fun t ht => ⟨ht, hV⟩

/-- The signals of one kind to all targets of a set. -/
theorem sendAll_always (hJ : ∀ l s, P s → J l → J (l ++ [s])) {target : ℤ → Target}
    {signal : Signal} {ids : List ℤ} (hP : ∀ id ∈ ids, P ⟨target id, signal⟩) :
    Always (fun t => J t.signals)
      ((host.order ids).forM fun id => send host (target id) signal) :=
  always_forM fun id hid => send_always hJ (hP id ((host.mem_order ids id).mp hid))

/-- From the wait on, `terminate` signals what polling may leave. -/
theorem terminate_wait_always (hJ : ∀ l s, P s → J l → J (l ++ [s])) {V : ℤ → Prop}
    {target : ℤ → Target} (hP : ∀ id, V id → ∀ signal, P ⟨target id, signal⟩) {timeout : ℚ}
    {poll : List ℤ → Effect Trace ProcessExc (List ℤ)}
    (hpoll : ∀ xs, (∀ x ∈ xs, V x) → Triple (fun t => J t.signals) (poll xs)
      (fun ys t => J t.signals ∧ ∀ y ∈ ys, V y) (fun _ t => J t.signals)) (fuel : ℕ)
    {remaining : List ℤ} (hV : ∀ x ∈ remaining, V x) :
    Always (fun t => J t.signals) (do
      let now ← monotonic host
      let remaining ← waitWhile host (now + timeout) poll fuel remaining
      (host.order remaining).forM fun id => send host (target id) .SIGKILL) := by
  refine always_bind monotonic_always fun now => ?_
  refine triple_bind (waitWhile_spec hpoll fuel remaining hV) fun left => ?_
  exact triple_assume fun hleft => sendAll_always hJ fun id hid => hP id (hleft id hid) .SIGKILL

/-- **Signals go to targets only.** `J` survives if it survives a signal to any
of the first targets and to any that polling may leave. -/
theorem terminate_always (hJ : ∀ l s, P s → J l → J (l ++ [s])) {V : ℤ → Prop}
    {target : ℤ → Target} (hP : ∀ id, V id → ∀ signal, P ⟨target id, signal⟩) {timeout : ℚ}
    {poll : List ℤ → Effect Trace ProcessExc (List ℤ)}
    (hpoll : ∀ xs, (∀ x ∈ xs, V x) → Triple (fun t => J t.signals) (poll xs)
      (fun ys t => J t.signals ∧ ∀ y ∈ ys, V y) (fun _ t => J t.signals)) (fuel : ℕ)
    {remaining : List ℤ} (hV : ∀ x ∈ remaining, V x) :
    Always (fun t => J t.signals) (terminate host target timeout poll fuel remaining) :=
  always_bind (sendAll_always hJ fun id hid => hP id (hV id hid) .SIGTERM) fun _ =>
    terminate_wait_always hJ hP hpoll fuel hV

/-- **`terminate_process_groups`** signals groups it was given, above 1 and not
its own. -/
theorem terminate_process_groups_always (hJ : ∀ l s, P s → J l → J (l ++ [s]))
    {processes : List ProcessRef} (hP : ∀ ref ∈ processes, 1 < ref.pgid →
      ref.pgid ≠ host.getpgrp → ∀ signal, P ⟨.group ref.pgid, signal⟩) (timeout : ℚ) (fuel : ℕ) :
    Always (fun t => J t.signals) (terminate_process_groups host processes timeout fuel) := by
  unfold terminate_process_groups
  dsimp only
  by_cases hown : (guarded processes).any fun ref => ref.pgid = host.getpgrp
  · rw [if_pos hown]
    exact always_throw _
  rw [if_neg hown]
  -- the targets: groups of guarded references
  let V : ℤ → Prop := fun id => ∃ ref ∈ guarded processes, ref.pgid = id
  have hV : ∀ refs : List ProcessRef, (∀ ref ∈ refs, ref ∈ guarded processes) →
      ∀ x ∈ refs.map ProcessRef.pgid, V x := by
    intro refs hrefs x hx
    obtain ⟨ref, hmem, rfl⟩ := List.mem_map.mp hx
    exact ⟨ref, hrefs ref hmem, rfl⟩
  have hsafe : ∀ id, V id → ∀ signal, P ⟨.group id, signal⟩ := by
    rintro _ ⟨ref, hmem, rfl⟩
    have hguard : 1 < ref.pid ∧ 1 < ref.pgid := by
      simpa using (List.mem_filter.mp hmem).2
    refine hP ref (List.mem_filter.mp hmem).1 hguard.2 fun heq => hown ?_
    exact List.any_eq_true.mpr ⟨ref, hmem, by simpa using heq⟩
  refine triple_bind (stillAlive_spec _ _) fun live => triple_assume fun hlive => ?_
  refine terminate_always hJ hsafe (fun groups _ => ?_) fuel
    (hV live fun ref href => hlive.subset href)
  refine triple_bind (stillAlive_spec _ _) fun left => triple_assume fun hleft => ?_
  exact triple_pure fun t ht => ⟨ht, hV left fun ref href =>
    List.mem_of_mem_filter (hleft.subset href)⟩

/-- **`terminate_pids`** signals processes it was given, above 1. -/
theorem terminate_pids_always (hJ : ∀ l s, P s → J l → J (l ++ [s])) {pids : List ℤ}
    (hP : ∀ pid ∈ pids, 1 < pid → ∀ signal, P ⟨.process pid, signal⟩) (timeout : ℚ)
    (fuel : ℕ) : Always (fun t => J t.signals) (terminate_pids host pids timeout fuel) := by
  unfold terminate_pids
  -- there is no guard against ptlab's own pid here
  have hsafe : ∀ id, (id ∈ pids ∧ 1 < id) → ∀ signal, P ⟨.process id, signal⟩ :=
    fun id hid => hP id hid.1 hid.2
  refine triple_bind (stillAlive_spec _ _) fun live => triple_assume fun hlive => ?_
  refine terminate_always hJ hsafe (fun xs hxs => ?_) fuel fun id hid => ?_
  · refine (stillAlive_spec _ _).conseq (fun t ht => ht) (fun left t ht => ⟨ht.1, ?_⟩)
      fun _ t ht => ht
    exact fun y hy => hxs y ((host.mem_order xs y).mp (ht.2.subset hy))
  · simpa using List.mem_filter.mp (hlive.subset hid)

end Spec

/-! ## What is surely sent -/

/-- Every process is there and takes its signals. -/
def Host.Obliging (host : Host) : Prop :=
  (∀ n pid, host.probe n pid = .ok) ∧ ∀ n s, host.deliver n s = .ok

section Obliging

variable {host : Host} (h : host.Obliging)

include h

theorem process_is_alive_obliging (pid : ℤ) :
    Triple (fun _ => True) (process_is_alive host pid) (fun isAlive _ => isAlive = true)
      (fun _ _ => False) := by
  intro t _
  unfold process_is_alive
  rw [exec_of, h.1]

theorem send_obliging (P : Trace → Prop) (target : Target) (signal : Signal) :
    Triple P (send host target signal) (fun _ t => ⟨target, signal⟩ ∈ t.signals)
      (fun _ _ => False) := by
  intro t _
  unfold send
  rw [exec_of, h.2]
  exact List.mem_append_right _ (List.mem_singleton_self _)

theorem send_keeps (s : Sent) (target : Target) (signal : Signal) :
    Triple (fun t => s ∈ t.signals) (send host target signal) (fun _ t => s ∈ t.signals)
      (fun _ _ => False) := by
  intro t ht
  unfold send
  rw [exec_of, h.2]
  exact List.mem_append_left _ ht

theorem stillAlive_obliging {β : Type} (pid : β → ℤ) (xs : List β) :
    Triple (fun _ => True) (stillAlive host pid xs) (fun ys _ => ys = xs) (fun _ _ => False) := by
  induction xs with
  | nil => exact triple_pure fun _ _ => rfl
  | cons x xs ih =>
      unfold stillAlive
      refine triple_bind (process_is_alive_obliging h (pid x)) fun isAlive => ?_
      refine (triple_assume (P := fun _ => True) fun halive => ?_).conseq
        (fun t ht => ⟨trivial, ht⟩) (fun _ _ hq => hq) fun _ _ he => he
      refine triple_bind ih fun rest => triple_pure fun t hrest => ?_
      rw [hrest, if_pos halive]

/-- Every first target is sent SIGTERM. -/
theorem terminate_reaches {target : ℤ → Target} {timeout : ℚ}
    {poll : List ℤ → Effect Trace ProcessExc (List ℤ)}
    (hpoll : ∀ (J : List Sent → Prop) xs, Always (fun t => J t.signals) (poll xs)) (fuel : ℕ)
    {remaining : List ℤ} {id : ℤ} (hid : id ∈ remaining) :
    Triple (fun _ => True) (terminate host target timeout poll fuel remaining)
      (fun _ t => ⟨target id, .SIGTERM⟩ ∈ t.signals)
      (fun _ t => ⟨target id, .SIGTERM⟩ ∈ t.signals) := by
  let J : List Sent → Prop := fun l => ⟨target id, .SIGTERM⟩ ∈ l
  have hfirst : Triple (fun _ => True)
      ((host.order remaining).forM fun id => send host (target id) .SIGTERM)
      (fun _ t => J t.signals) (fun _ _ => False) := by
    refine triple_forM_mem (I := fun _ => True) ((host.mem_order _ _).mpr hid)
      (fun y _ => ?_) (send_obliging h _ _ _) fun y _ => send_keeps h _ _ _
    exact (send_obliging h _ _ _).conseq (fun _ ht => ht) (fun _ _ _ => trivial) fun _ _ he => he
  -- the first loop sends it, and nothing sent is ever taken back
  unfold terminate
  refine triple_bind (hfirst.conseq (fun _ ht => ht) (fun _ _ hq => hq) fun _ _ he => he.elim)
    fun _ => ?_
  refine terminate_wait_always (J := J) (P := fun _ => True) (V := fun _ => True)
    (fun l s _ hl => List.mem_append_left _ hl) (fun _ _ _ => trivial) (fun xs _ => ?_) fuel
    fun _ _ => trivial
  exact (hpoll J xs).conseq (fun _ ht => ht) (fun _ _ hq => ⟨hq, fun _ _ => trivial⟩)
    fun _ _ he => he

/-- Every process given to `terminate_pids` and above 1 is sent SIGTERM. -/
theorem terminate_pids_reaches {pids : List ℤ} {pid : ℤ} (hpid : pid ∈ pids) (hone : 1 < pid)
    (timeout : ℚ) (fuel : ℕ) :
    Triple (fun _ => True) (terminate_pids host pids timeout fuel)
      (fun _ t => ⟨.process pid, .SIGTERM⟩ ∈ t.signals)
      (fun _ t => ⟨.process pid, .SIGTERM⟩ ∈ t.signals) := by
  unfold terminate_pids
  refine triple_bind ((stillAlive_obliging h id _).conseq (fun _ ht => ht) (fun _ _ hq => hq)
    fun _ _ he => he.elim) fun live => ?_
  refine (triple_assume (P := fun _ => True) fun hlive => ?_).conseq
    (fun t ht => ⟨trivial, ht⟩) (fun _ _ hq => hq) fun _ _ he => he
  refine terminate_reaches h (fun J xs => ?_) fuel ?_
  · exact (stillAlive_spec _ _).conseq (fun _ ht => ht) (fun _ _ hq => hq.1) fun _ _ he => he
  · rw [hlive]
    exact List.mem_filter.mpr ⟨hpid, by simpa using hone⟩

end Obliging

/-! ## What is raised

Besides the guard's `RuntimeError` nothing is raised that no system call ended
with, and with a clock that gets past every deadline the wait comes to its end. -/

/-- The clock gets past every deadline. -/
def Host.Runs (host : Host) : Prop :=
  ∀ deadline, ∃ n, ∀ m, n ≤ m → deadline ≤ host.monotonic m

/-- What a system call ended with. -/
inductive Host.Raises (host : Host) : ProcessExc → Prop
  | probe (n : ℕ) (pid : ℤ) (message : String) (h : host.probe n pid = .OSError message) :
      Raises host (.OSError message)
  | denied (n : ℕ) (s : Sent) (h : host.deliver n s = .PermissionError) :
      Raises host .PermissionError
  | deliver (n : ℕ) (s : Sent) (message : String) (h : host.deliver n s = .OSError message) :
      Raises host (.OSError message)

section Raised

variable {host : Host} {r : ℕ}

/-- From the `r`-th reading of the clock on: the clock is not read back, and what is
raised the system did. -/
abbrev Fair {α : Type} (host : Host) (r : ℕ) (m : Effect Trace ProcessExc α) : Prop :=
  Triple (fun t => r ≤ t.readings) m (fun _ t => r ≤ t.readings) (fun e _ => host.Raises e)

theorem fair_process_is_alive (pid : ℤ) : Fair host r (process_is_alive host pid) := by
  intro t ht
  unfold process_is_alive
  rw [exec_of]
  rcases hprobe : host.probe t.probes pid with _ | _ | _ | message
  · exact ht
  · exact ht
  · exact ht
  · exact .probe _ _ _ hprobe

theorem fair_send (target : Target) (signal : Signal) : Fair host r (send host target signal) := by
  intro t ht
  unfold send
  rw [exec_of]
  rcases hdeliver : host.deliver t.signals.length ⟨target, signal⟩ with _ | _ | _ | message
  · exact ht
  · exact ht
  · exact .denied _ _ hdeliver
  · exact .deliver _ _ _ hdeliver

theorem fair_stillAlive {β : Type} (pid : β → ℤ) (xs : List β) :
    Fair host r (stillAlive host pid xs) := by
  induction xs with
  | nil => exact triple_pure fun _ ht => ht
  | cons x xs ih =>
      unfold stillAlive
      refine triple_bind (fair_process_is_alive (pid x)) fun isAlive => ?_
      exact triple_bind ih fun rest => triple_pure fun _ ht => ht

theorem fair_monotonic (r : ℕ) : Fair host r (monotonic host) := fun _ ht => Nat.le_succ_of_le ht

theorem fair_sendAll (target : ℤ → Target) (signal : Signal) (ids : List ℤ) :
    Fair host r (ids.forM fun id => send host (target id) signal) :=
  triple_forM fun id _ => fair_send (target id) signal

/-- **The wait ends** before the clock has been read `n` times, if from then on it is
past the deadline. By induction on the turns that are followed. -/
theorem fair_waitWhile {deadline : ℚ} {poll : List ℤ → Effect Trace ProcessExc (List ℤ)} {n : ℕ}
    (hpoll : ∀ r xs, Fair host r (poll xs)) (hn : ∀ m, n ≤ m → deadline ≤ host.monotonic m)
    (fuel : ℕ) : ∀ r remaining, 0 < fuel → n < fuel + r →
      Fair host r (waitWhile host deadline poll fuel remaining) := by
  induction fuel with
  | zero => exact fun r remaining hpos => absurd hpos (Nat.lt_irrefl 0)
  | succ fuel ih =>
      intro r remaining _ hfuel t ht
      unfold waitWhile
      split_ifs with hempty
      · exact ht
      rw [exec_bind]
      dsimp only [monotonic, exec_of]
      split_ifs with hnow
      · -- the clock has not been read often enough yet, so there is fuel left
        have hreadings : t.readings < n := by
          by_contra hpast
          exact absurd (hn t.readings (not_lt.mp hpast)) (not_le.mpr hnow)
        have hrest : ∀ left, Fair host (t.readings + 1)
            (waitWhile host deadline poll fuel left) :=
          fun left => ih _ left (by omega) (by omega)
        refine (triple_bind (R := fun _ t' => t.readings + 1 ≤ t'.readings)
          (hpoll (t.readings + 1) remaining) fun left => ?_).conseq (fun _ h => h)
          (fun _ t' h => ht.trans (Nat.le_of_succ_le h)) (fun _ _ h => h) _
          (le_refl (t.readings + 1))
        split_ifs
        · exact triple_bind (fair_monotonic (t.readings + 1)) fun _ => hrest left
        · exact hrest left
      · exact Nat.le_succ_of_le ht

/-- **`terminate`**, followed for long enough. -/
theorem terminate_raises (hruns : host.Runs) (target : ℤ → Target) (timeout : ℚ)
    {poll : List ℤ → Effect Trace ProcessExc (List ℤ)} (hpoll : ∀ r xs, Fair host r (poll xs))
    (remaining : List ℤ) (t : Trace) :
    ∃ enough, ∀ fuel, enough ≤ fuel → ∀ e,
      ((terminate host target timeout poll fuel remaining).exec t).1 = .error e →
        host.Raises e := by
  unfold terminate
  rcases hfirst : ((host.order remaining).forM fun id => send host (target id) .SIGTERM).exec t with
    ⟨e | u, t₁⟩
  · refine ⟨0, fun fuel _ e' he => ?_⟩
    rw [exec_bind, hfirst] at he
    injection he with he
    exact he ▸ (fair_sendAll (r := 0) target .SIGTERM _).of_error (Nat.zero_le _) hfirst
  · -- `n` readings bring the clock to the deadline, and the loop needs no more turns
    obtain ⟨n, hn⟩ := hruns (host.monotonic t₁.readings + timeout)
    refine ⟨n + 1, fun fuel hfuel e he => ?_⟩
    rw [exec_bind, hfirst] at he
    dsimp only at he
    rw [exec_bind] at he
    dsimp only [monotonic, exec_of] at he
    have hrest : Fair host 0 (do
        let remaining ← waitWhile host (host.monotonic t₁.readings + timeout) poll fuel remaining
        (host.order remaining).forM fun id => send host (target id) .SIGKILL) :=
      triple_bind (fair_waitWhile hpoll hn fuel 0 remaining (by omega) (by omega)) fun left =>
        fair_sendAll target .SIGKILL _
    exact hrest.of_error (Nat.zero_le _) (Prod.ext he rfl)

/-- **`terminate_process_groups`** on groups that are not its own. -/
theorem terminate_process_groups_raises (hruns : host.Runs) {processes : List ProcessRef}
    (hown : ∀ ref ∈ guarded processes, ref.pgid ≠ host.getpgrp) (timeout : ℚ) (t : Trace) :
    ∃ enough, ∀ fuel, enough ≤ fuel → ∀ e,
      ((terminate_process_groups host processes timeout fuel).exec t).1 = .error e →
        host.Raises e := by
  -- the refusal to signal one's own group is not taken
  have hguard : ¬ (guarded processes).any fun ref => ref.pgid = host.getpgrp := by
    rw [List.any_eq_true]
    rintro ⟨ref, href, heq⟩
    exact hown ref href (of_decide_eq_true heq)
  unfold terminate_process_groups
  dsimp only
  simp only [if_neg hguard]
  rcases hlive : (stillAlive host ProcessRef.pid (guarded processes)).exec t with ⟨e | live, t₁⟩
  · refine ⟨0, fun fuel _ e' he => ?_⟩
    rw [exec_bind, hlive] at he
    injection he with he
    exact he ▸ (fair_stillAlive (r := 0) _ _).of_error (Nat.zero_le _) hlive
  · obtain ⟨enough, hall⟩ := terminate_raises hruns .group timeout
      (fun r groups => triple_bind (fair_stillAlive ProcessRef.pid
        ((guarded processes).filter fun ref => ref.pgid ∈ groups))
        fun live => triple_pure fun _ ht => ht) (live.map ProcessRef.pgid) t₁
    refine ⟨enough, fun fuel hfuel e he => ?_⟩
    rw [exec_bind, hlive] at he
    exact hall fuel hfuel e he

/-- **`terminate_pids`**. -/
theorem terminate_pids_raises (hruns : host.Runs) (pids : List ℤ) (timeout : ℚ) (t : Trace) :
    ∃ enough, ∀ fuel, enough ≤ fuel → ∀ e,
      ((terminate_pids host pids timeout fuel).exec t).1 = .error e → host.Raises e := by
  unfold terminate_pids
  rcases hlive : (stillAlive host id (pids.filter fun pid => 1 < pid)).exec t with ⟨e | live, t₁⟩
  · refine ⟨0, fun fuel _ e' he => ?_⟩
    rw [exec_bind, hlive] at he
    injection he with he
    exact he ▸ (fair_stillAlive (r := 0) _ _).of_error (Nat.zero_le _) hlive
  · obtain ⟨enough, hall⟩ := terminate_raises hruns .process timeout
      (fun r remaining => fair_stillAlive id (host.order remaining)) live t₁
    refine ⟨enough, fun fuel hfuel e he => ?_⟩
    rw [exec_bind, hlive] at he
    exact hall fuel hfuel e he

end Raised

end Ptlab.Processes
