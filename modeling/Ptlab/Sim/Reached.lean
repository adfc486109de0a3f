/-
Runs of `Simulator.start` that leave nothing behind.

What the clauses of `start` and `_start_xvfb` hand to each other is said by a few
predicates on the world: `XvfbUp` inside `_start_xvfb`, `XvfbOnly` and `Known` in
the `try` clause of `start`, `Left` for what that clause raises with. Each
function has one triple, under the assumption that what is raised is harmless
where it is raised, and `start_reached` puts them together.
-/
import Ptlab.Sim.Start

set_option autoImplicit false

open Effect Ptlab.Processes

namespace Ptlab.Sim

/-! ## Runs that leave nothing behind -/

section Reached

/-- Nothing is waiting to be passed on. -/
def AllPassed (w : StartWorld) : Prop := ∀ pid ∈ w.spawned, pid ∈ w.passed

/-- The local variables have every group, which the `except` clause will pass
on. -/
structure Known (w : StartWorld) : Prop where
  spawned : w.spawned = w.xvfb.toList ++ w.sim.toList
  pos : ∀ pid ∈ w.spawned, 0 < pid

/-- No process yet. -/
def Fresh (w : StartWorld) : Prop := w.spawned = [] ∧ w.xvfb = none ∧ w.sim = none

theorem allPassed_of_nil {w : StartWorld} (h : w.spawned = []) : AllPassed w := by
  intro pid hpid
  rw [h] at hpid
  cases hpid

/-- In the `try` clause before the simulator: only Xvfb can be there. -/
structure XvfbOnly (headless : Bool) (w : StartWorld) : Prop where
  known : Known w
  sim : w.sim = none
  xvfb : headless = true → w.xvfb = none

/-- What the `try` clause of `start` raises with. -/
def Left (e : PyExc) (w : StartWorld) : Prop :=
  AllPassed w ∨ (Known w ∧ (e.isException = true ∨ AllReached w))

variable {env : Env} {headless : Bool} {P : StartWorld → Prop} {E : PyExc → StartWorld → Prop}

theorem triple_point {p : Point} (h : ∀ e, env.fault p = some e → ∀ w, P w → E e w) :
    Triple P (point env p) (fun _ => P) E := by
  unfold point
  rcases hfault : env.fault p with _ | e
  · exact triple_pure fun _ hw => hw
  · exact triple_throw (h e hfault)

theorem triple_orRaise_ok {ok : Bool} {message : String}
    (h : ok = false → ∀ w, P w → E (SimError message) w) :
    Triple P (orRaise ok message) (fun _ w => P w ∧ ok = true) E := by
  cases ok with
  | true => exact triple_pure fun _ hw => ⟨hw, rfl⟩
  | false => exact triple_throw (h rfl)

theorem triple_orRaise {ok : Bool} {message : String}
    (h : ok = false → ∀ w, P w → E (SimError message) w) :
    Triple P (orRaise ok message) (fun _ => P) E :=
  (triple_orRaise_ok h).conseq (fun _ hw => hw) (fun _ _ hw => hw.1) fun _ _ hw => hw

theorem triple_onException {α : Type} {body : Effect StartWorld PyExc α}
    {handler : Effect StartWorld PyExc Unit} {Q : α → StartWorld → Prop}
    {E' : PyExc → StartWorld → Prop} (hbody : Triple P body Q E')
    (hhandler : ∀ e, e.isException = true → Triple (E' e) handler (fun _ => E e) E)
    (hpass : ∀ e, e.isException = false → ∀ w, E' e w → E e w) :
    Triple P (onException body handler) Q E := by
  refine triple_tryCatch hbody fun e => ?_
  cases he : e.isException with
  | true => exact triple_bind (hhandler e he) fun _ => triple_throw fun _ hw => hw
  | false => exact triple_throw (hpass e he)

/-- Whatever is raised, it is raised with `P`. -/
theorem always_point (p : Point) : Always P (point env p) := triple_point fun _ _ _ hw => hw

theorem always_orRaise (ok : Bool) (message : String) : Always P (orRaise ok message) :=
  triple_orRaise fun _ _ hw => hw

theorem always_skipIf {b : Bool} {m : Effect StartWorld PyExc Unit} (h : Always P m) :
    Always P (skipIf b m) :=
  triple_skipIf (fun _ _ hw => hw) fun _ => h

theorem always_onException {α : Type} {body : Effect StartWorld PyExc α}
    {handler : Effect StartWorld PyExc Unit} (hbody : Always P body)
    (hhandler : Always P handler) : Always P (onException body handler) :=
  triple_onException hbody (fun _ _ => hhandler) fun _ _ _ hw => hw

section Ports

variable (hpoint : ∀ p, Triple P (point env p) (fun _ => P) E)
  (hsim : ∀ message w, P w → E (SimError message) w)
  (hports : ∀ w, P w → E (.Exception "OSError" "") w)

include hpoint hports in
theorem allocate_tcp_port_rule (n : ℕ) : Triple P (allocate_tcp_port env n) (fun _ => P) E := by
  unfold allocate_tcp_port
  refine triple_bind (hpoint _) fun _ => ?_
  split
  · exact triple_pure fun _ hw => hw
  · exact triple_throw hports

include hpoint hports in
theorem allocateOther_rule (bridge_port : ℤ) (fuel : ℕ) :
    ∀ n, Triple P (allocateOther env bridge_port fuel n) (fun _ => P) E := by
  induction fuel with
  | zero => exact allocate_tcp_port_rule hpoint hports
  | succ fuel ih =>
      intro n
      rw [allocateOther]
      refine triple_bind (allocate_tcp_port_rule hpoint hports n) fun port => ?_
      split
      · exact ih (n + 1)
      · exact triple_pure fun _ hw => hw

include hpoint hsim hports in
/-- **The rule of the choice of ports**: it keeps what its calls keep. -/
theorem choosePorts_rule (args : StartArgs) : Triple P (choosePorts env args) (fun _ => P) E := by
  have hcheck : ∀ (ok : Bool) (message : String), Triple P (orRaise ok message) (fun _ => P) E :=
    fun _ message => triple_orRaise fun _ => hsim message
  have hbridge : Triple P (bridgePort env args) (fun _ => P) E := by
    unfold bridgePort
    split
    · exact triple_pure fun _ hw => hw
    · exact triple_bind (allocate_tcp_port_rule hpoint hports 0) fun _ => triple_pure fun _ hw => hw
  have hcontrol : ∀ bridge_port n, Triple P (controlPort env args bridge_port n) (fun _ => P) E := by
    intro bridge_port n
    unfold controlPort
    split
    · exact triple_pure fun _ hw => hw
    · exact allocateOther_rule hpoint hports _ _ n
  unfold choosePorts
  refine triple_bind (hpoint _) fun _ => triple_bind (hcheck _ _) fun _ => ?_
  refine triple_bind (hcheck _ _) fun _ => triple_bind hbridge fun bridge => ?_
  refine triple_bind (hcheck _ _) fun _ => triple_bind (hcontrol _ _) fun _ => ?_
  refine triple_bind (hcheck _ _) fun _ => triple_bind (hcheck _ _) fun _ => ?_
  refine triple_bind (hcheck _ _) fun _ => triple_bind (hpoint _) fun _ => ?_
  exact triple_pure fun _ hw => hw

end Ports

section Waits

variable (hsim : ∀ message w, P w → E (SimError message) w)

include hsim

/-- **The rules of the loops that wait**: each keeps what its calls keep. -/
theorem wait_for_x_rule (hpoint : ∀ p, p.stage = .xvfb → Triple P (point env p) (fun _ => P) E)
    (display : String) (turns : List (Fin 100)) :
    Triple P (_wait_for_x env display turns) (fun _ => P) E := by
  induction turns with
  | nil => exact triple_throw (hsim _)
  | cons i turns ih =>
      rw [_wait_for_x]
      refine triple_bind (hpoint _ rfl) fun _ => triple_bind (triple_orRaise fun _ => hsim _) ?_
      intro _
      refine triple_bind (hpoint _ rfl) fun _ => ?_
      split_ifs
      · exact triple_pure fun w hw => hw
      · exact triple_bind (hpoint _ rfl) fun _ => ih

theorem findWindow_rule (hpoint : ∀ p, p.stage = .xvfb → Triple P (point env p) (fun _ => P) E)
    (turns : List (Fin 200)) : Triple P (findWindow env turns) (fun _ => P) E := by
  induction turns with
  | nil => exact triple_throw (hsim _)
  | cons i turns ih =>
      rw [findWindow]
      refine triple_bind (hpoint _ rfl) fun _ => ?_
      rcases (env.windows i).getLast? with _ | window
      · refine triple_bind (hpoint _ rfl) fun _ => triple_bind (triple_orRaise fun _ => hsim _) ?_
        exact fun _ => triple_bind (hpoint _ rfl) fun _ => ih
      · exact triple_pure fun w hw => hw

theorem wait_for_tcp_listener_rule
    (hpoint : ∀ p, p.stage = .running → Triple P (point env p) (fun _ => P) E) (port : ℤ)
    (turns : List Bool) (n : ℕ) :
    Triple P (wait_for_tcp_listener env port n turns) (fun _ => P) E := by
  induction turns generalizing n with
  | nil =>
      rw [wait_for_tcp_listener]
      refine triple_bind (hpoint _ rfl) fun _ => triple_bind (triple_orRaise fun _ => hsim _) ?_
      exact fun _ => triple_throw (hsim _)
  | cons accepting turns ih =>
      rw [wait_for_tcp_listener]
      refine triple_bind (hpoint _ rfl) fun _ => triple_bind (triple_orRaise fun _ => hsim _) ?_
      intro _
      refine triple_bind (hpoint _ rfl) fun _ => ?_
      split_ifs
      · refine triple_bind (hpoint _ rfl) fun _ => ?_
        exact triple_orRaise fun _ => hsim _
      · exact triple_bind (hpoint _ rfl) fun _ => ih (n + 1)

end Waits

section Faults

variable (hF : ∀ p e, env.fault p = some e → HarmlessAt headless p e)

include hF

/-- Where Xvfb or the simulator runs, only an `Exception` may be raised. -/
theorem triple_point_guarded {p : Point}
    (hp : p.stage = .running ∨ (p.stage = .xvfb ∧ headless = false)) :
    Triple P (point env p) (fun _ => P) (fun e w => P w ∧ e.isException = true) := by
  refine triple_point fun e he w hw => ⟨hw, ?_⟩
  have hharmless := hF p e he
  unfold HarmlessAt at hharmless
  rcases hp with hp | ⟨hp, rfl⟩
  · rw [hp] at hharmless
    exact hharmless
  · rw [hp] at hharmless
    exact hharmless.resolve_left (by decide)

/-! ### `_start_xvfb` -/

/-- Xvfb runs, and the local variable `process` has it. -/
def XvfbUp (env : Env) (w : StartWorld) : Prop :=
  w.spawned = [env.xvfb_pid] ∧ w.process = some env.xvfb_pid ∧ w.xvfb = none ∧ w.sim = none

/-- Nothing runs. -/
def NothingUp (w : StartWorld) : Prop :=
  w.spawned = [] ∧ w.process = none ∧ w.xvfb = none ∧ w.sim = none

theorem wait_for_x_spec (hx : headless = false) (display : String) (turns : List (Fin 100)) :
    Triple P (_wait_for_x env display turns) (fun _ => P)
      (fun e w => P w ∧ e.isException = true) :=
  wait_for_x_rule (fun _ _ hw => ⟨hw, rfl⟩)
    (fun _ hp => triple_point_guarded hF (.inr ⟨hp, hx⟩)) display turns

theorem spawnXvfb_spec (hx : headless = false) (display : Option String) :
    Triple NothingUp (spawnXvfb env display) (fun _ => XvfbUp env)
      (fun e w => NothingUp w ∨ (XvfbUp env w ∧ e.isException = true)) := by
  unfold spawnXvfb
  refine triple_bind (triple_point fun e _ w hw => .inl hw) fun _ => ?_
  refine triple_bind (triple_update (R := XvfbUp env) fun w hw => ?_) fun _ => ?_
  · exact ⟨congrArg (· ++ _) hw.1, rfl, hw.2.2⟩
  have hpoint : ∀ p : Point, p.stage = .xvfb → Triple (XvfbUp env) (point env p)
      (fun _ => XvfbUp env) (fun e w => NothingUp w ∨ (XvfbUp env w ∧ e.isException = true)) :=
    fun p hp => (triple_point_guarded hF (.inr ⟨hp, hx⟩)).raises fun _ _ hw => .inr hw
  split_ifs
  · exact triple_pure fun w hw => hw
  refine triple_bind (hpoint _ rfl) fun _ => triple_bind (hpoint _ rfl) fun _ => ?_
  refine triple_bind (triple_orRaise fun _ w hw => .inr ⟨hw, rfl⟩) fun _ => ?_
  refine triple_bind (hpoint _ rfl) fun _ => triple_bind (hpoint _ rfl) fun _ => ?_
  refine triple_bind (triple_orRaise fun _ w hw => .inr ⟨hw, rfl⟩) fun _ => ?_
  exact triple_pure fun w hw => hw

/-- The handlers kill Xvfb, unless a `poll` finds it gone or is interrupted. -/
theorem killXvfb_spec (hx : headless = false) {poll killpg : Point}
    (hpoll : poll.stage = .unguarded) (halive : env.xvfb_alive poll = true) :
    Triple (XvfbUp env) (killXvfb env poll killpg) (fun _ => AllPassed) (fun _ => AllPassed) := by
  unfold killXvfb
  refine triple_bind (triple_read (Q := fun process w =>
    XvfbUp env w ∧ process = some env.xvfb_pid) fun w hw => ⟨hw, hw.2.1⟩) fun process => ?_
  refine triple_assume fun hprocess => ?_
  subst hprocess
  dsimp only
  -- an unguarded point of a run with Xvfb allows no exception at all
  have hquiet : ∀ e, env.fault poll ≠ some e := by
    intro e he
    have hharmless := hF poll e he
    unfold HarmlessAt at hharmless
    rw [hpoll, hx] at hharmless
    exact absurd hharmless Bool.false_ne_true
  refine triple_bind (triple_point fun e he => absurd he (hquiet e)) fun _ => ?_
  rw [if_pos halive]
  refine triple_bind (triple_update (R := AllPassed) fun w hw pid hpid => ?_) fun _ =>
    always_point killpg
  have hself : pid = env.xvfb_pid := by
    rw [← List.mem_singleton, ← hw.1]
    exact hpid
  rw [hself]
  exact List.mem_append_right _ (List.mem_singleton_self _)

/-- **`_start_xvfb`** returns with Xvfb running, or has passed it on. -/
theorem start_xvfb_spec (hx : headless = false) (halive : ∀ p, env.xvfb_alive p = true)
    (display : Option String) :
    Triple Fresh (_start_xvfb env display) (fun _ => XvfbUp env) (fun _ => AllPassed) := by
  unfold _start_xvfb
  refine triple_bind (triple_update (R := NothingUp) fun w hw => ⟨hw.1, rfl, hw.2⟩) fun _ => ?_
  refine triple_bind (triple_point fun _ _ w hw => allPassed_of_nil hw.1) fun _ => ?_
  refine triple_bind (triple_point fun _ _ w hw => allPassed_of_nil hw.1) fun _ => ?_
  have hfirst : Triple NothingUp
      (onException (spawnXvfb env display) (killXvfb env .first_poll .first_killpg))
      (fun _ => XvfbUp env) (fun _ => AllPassed) := by
    refine triple_onException (spawnXvfb_spec hF hx display) (fun e he w hw => ?_)
      fun e he w hw => ?_
    · rcases hw with hw | ⟨hw, -⟩
      · -- no process: the handler does nothing
        have hrun : (killXvfb env .first_poll .first_killpg).exec w = (.ok (), w) := by
          unfold killXvfb
          rw [exec_bind, exec_read, hw.2.1]
          rfl
        rw [hrun]
        exact allPassed_of_nil hw.1
      · exact killXvfb_spec hF hx (by rfl) (halive _) w hw
    · -- not an `Exception`: raised before there was a process
      rcases hw with hw | ⟨-, hexc⟩
      · exact allPassed_of_nil hw.1
      · rw [he] at hexc
        cases hexc
  have hclose : ∀ e, env.fault .error_stream_close ≠ some e := by
    intro e he
    have hharmless := hF _ e he
    rw [hx] at hharmless
    exact absurd hharmless Bool.false_ne_true
  refine triple_bind (triple_ensure (Q := fun _ => XvfbUp env) hfirst (fun _ => ?_)
    fun _ => always_point _) fun chosen => ?_
  · exact triple_point fun e he => absurd he (hclose e)
  refine triple_bind (triple_onException (wait_for_x_spec hF hx chosen _) (fun e he w hw => ?_)
    fun e he w hw => ?_) fun _ => triple_pure fun w hw => hw
  · exact killXvfb_spec hF hx (by rfl) (halive _) w hw.1
  · rw [hw.2] at he
    cases he

/-! ### The `try` clause -/

theorem triple_point_before {p : Point} (hp : p.stage = .xvfb) :
    Triple (XvfbOnly headless) (point env p) (fun _ => XvfbOnly headless)
      (fun e w => Known w ∧ Left e w) := by
  cases hx : headless with
  | true =>
      refine triple_point fun e _ w hw => ⟨hw.known, .inl (allPassed_of_nil ?_)⟩
      rw [hw.known.spawned, hw.xvfb rfl, hw.sim]
      rfl
  | false =>
      rw [hx] at hF
      exact (triple_point_guarded hF (.inr ⟨hp, rfl⟩)).raises
        fun _ _ hw => ⟨hw.1.known, .inr ⟨hw.1.known, .inl hw.2⟩⟩

/-- Closing the logs keeps what is known, and raises an `Exception` if any. -/
theorem close_logs_spec : Triple P
    (do
      point env .stdout_close
      skipIf env.one_log (point env .stderr_close))
    (fun _ => P) (fun e w => P w ∧ e.isException = true) := by
  refine triple_bind (triple_point_guarded hF (.inl rfl)) fun _ => ?_
  exact triple_skipIf (fun _ _ hw => hw) fun _ => triple_point_guarded hF (.inl rfl)

theorem spawnSim_spec :
    Triple (XvfbOnly headless) (spawnSim env) (fun _ => Known) Left := by
  unfold spawnSim
  have hpoint : ∀ p : Point, p.stage = .xvfb → Triple (XvfbOnly headless) (point env p)
      (fun _ => XvfbOnly headless) Left := fun p hp =>
    (triple_point_before hF hp).raises fun _ _ hw => hw.2
  refine triple_bind (hpoint _ rfl) fun _ => ?_
  refine triple_bind (triple_skipIf (fun _ _ hw => hw) fun _ => hpoint _ rfl) fun _ => ?_
  have hpopen : Triple (XvfbOnly headless)
      (do
        point env .sim_popen
        update fun w =>
          { w with spawned := w.spawned ++ [env.sim_pid], sim := some env.sim_pid })
      (fun _ => Known) (fun e w => Known w ∧ Left e w) := by
    refine triple_bind (triple_point_before hF rfl) fun _ =>
      triple_update fun w hw => ⟨?_, fun pid hpid => ?_⟩
    · change w.spawned ++ [env.sim_pid] = w.xvfb.toList ++ [env.sim_pid]
      rw [hw.known.spawned, hw.sim]
      exact congrArg (· ++ _) (List.append_nil _)
    · rcases List.mem_append.mp hpid with hpid | hpid
      · exact hw.known.pos pid hpid
      · rw [List.mem_singleton.mp hpid]
        exact env.sim_pid_pos
  -- the logs are closed whether or not `Popen` raised
  refine triple_ensure hpopen (fun _ => ?_) fun e => ?_
  · exact (close_logs_spec hF).raises fun _ _ hw => .inr ⟨hw.1, .inl hw.2⟩
  · exact (close_logs_spec hF).conseq (fun _ hw => hw) (fun _ _ hw => hw.2)
      fun _ _ hw => .inr ⟨hw.1.1, .inl hw.2⟩

theorem findWindow_spec (hx : headless = false) (turns : List (Fin 200)) :
    Triple P (findWindow env turns) (fun _ => P) (fun e w => P w ∧ e.isException = true) :=
  findWindow_rule (fun _ _ hw => ⟨hw, rfl⟩)
    (fun _ hp => triple_point_guarded hF (.inr ⟨hp, hx⟩)) turns

theorem wait_for_tcp_listener_spec (port : ℤ) (turns : List Bool) (n : ℕ) :
    Triple P (wait_for_tcp_listener env port n turns) (fun _ => P)
      (fun e w => P w ∧ e.isException = true) :=
  wait_for_tcp_listener_rule (fun _ _ hw => ⟨hw, rfl⟩)
    (fun _ hp => triple_point_guarded hF (.inl hp)) port turns n

omit hF in
/-- The state that is written has every group. -/
theorem Known.mem_refs {w : StartWorld} (h : Known w) {pid : ℤ} (hpid : pid ∈ w.spawned) :
    pid ∈ (_process_refs (build_sim_state w)).map ProcessRef.pgid := by
  have hpos := h.pos
  rw [h.spawned] at hpid hpos
  have hentry : ∀ (name : String) (leader : Option ℤ), pid ∈ leader.toList → pid ≠ 0 →
      pid ∈ (processRef name (leader.map fun pid => ⟨some pid, some pid⟩)).map
        ProcessRef.pgid := by
    intro name leader hmem hne
    obtain rfl := Option.mem_toList.mp hmem
    simp [processRef, hne]
  have hne : pid ≠ 0 := ne_of_gt (hpos pid hpid)
  -- `_process_refs` has the simulator first
  unfold _process_refs
  rw [List.map_append, List.mem_append]
  rcases List.mem_append.mp hpid with hmem | hmem
  · exact .inr (hentry "xvfb" w.xvfb hmem hne)
  · exact .inl (hentry "sim" w.sim hmem hne)

/-- **The `try` clause** returns with every group recorded, and leaves to the
`except` clause only groups that it knows. -/
theorem launch_spec {args : StartArgs} (hheadless : args.headless = headless)
    (halive : headless = false → ∀ p, env.xvfb_alive p = true) (ble_control_port : ℤ) :
    Triple Fresh (launch env args ble_control_port) (fun _ => AllReached) Left := by
  unfold launch
  rw [hheadless]
  have hxvfb : Triple Fresh (skipIf headless do
      let _ ← _start_xvfb env args.display
      update fun w => { w with xvfb := w.process }) (fun _ => XvfbOnly headless) Left := by
    refine triple_skipIf (fun hx w hw => ?_) fun hx => ?_
    · refine ⟨⟨?_, fun pid hpid => ?_⟩, hw.2.2, fun _ => hw.2.1⟩
      · rw [hw.1, hw.2.1, hw.2.2]
        rfl
      · rw [hw.1] at hpid
        cases hpid
    · refine triple_bind ((start_xvfb_spec hF hx (halive hx) args.display).raises
        fun _ _ hw => .inl hw) fun _ => ?_
      refine triple_update fun w hw => ⟨⟨?_, fun pid hpid => ?_⟩, hw.2.2.2, fun h => ?_⟩
      · change w.spawned = w.process.toList ++ w.sim.toList
        rw [hw.1, hw.2.1, hw.2.2.2]
        rfl
      · rw [hw.1, List.mem_singleton] at hpid
        rw [hpid]
        exact env.xvfb_pid_pos
      · rw [hx] at h
        cases h
  -- from here on, what an `Exception` leaves is in the local variables
  have hguarded : ∀ {α : Type} {m : Effect StartWorld PyExc α} {K : StartWorld → Prop},
      (∀ w, K w → Known w) → Triple K m (fun _ => K) (fun e w => K w ∧ e.isException = true) →
      Triple K m (fun _ => K) Left := fun hK hm =>
    hm.raises fun _ _ hw => .inr ⟨hK _ hw.1, .inl hw.2⟩
  refine triple_bind hxvfb fun _ => ?_
  refine triple_bind ((triple_point_before hF rfl).raises fun _ _ hw => hw.2) fun _ => ?_
  refine triple_bind ((triple_point_before hF rfl).raises fun _ _ hw => hw.2) fun _ => ?_
  refine triple_bind (spawnSim_spec hF) fun _ => ?_
  refine triple_bind (triple_skipIf (fun _ _ hw => hw) fun hx =>
    triple_bind (hguarded (fun _ hw => hw) (findWindow_spec hF hx _)) fun _ =>
      triple_pure fun _ hw => hw) fun _ => ?_
  refine triple_bind (triple_read (Q := fun state w => Known w ∧ build_sim_state w = state)
    fun w hw => ⟨hw, rfl⟩) fun state => ?_
  refine triple_bind (triple_skipIf (fun _ _ hw => hw) fun hx =>
    triple_bind (hguarded (fun _ hw => hw.1) (triple_point_guarded hF (.inr ⟨rfl, hx⟩))) fun _ =>
      hguarded (fun _ hw => hw.1) (triple_point_guarded hF (.inr ⟨rfl, hx⟩))) fun _ => ?_
  refine triple_bind (hguarded (fun _ hw => hw.1) (wait_for_tcp_listener_spec hF _ _ _))
    fun _ => ?_
  refine triple_bind (hguarded (fun _ hw => hw.1) (triple_point_guarded hF (.inl rfl))) fun _ => ?_
  refine triple_bind (hguarded (fun _ hw => hw.1) (triple_point_guarded hF (.inl rfl))) fun _ => ?_
  -- the write records every group, so what is raised after it does no harm
  refine triple_bind (triple_update (R := fun w => Known w ∧ AllReached w) fun w hw => ?_)
    fun _ => ?_
  · obtain ⟨hknown, rfl⟩ := hw
    exact ⟨⟨hknown.spawned, hknown.pos⟩, fun pid hpid => .inr (hknown.mem_refs hpid)⟩
  refine triple_bind (triple_point fun e _ w hw => .inr ⟨hw.1, .inr hw.2⟩) fun _ => ?_
  exact triple_pure fun w hw => hw.2

/-! ### `start` -/

omit hF in
/-- **The `except` clause** passes on what the `try` clause has left. -/
theorem cleanUp_spec : Triple (fun w => AllPassed w ∨ Known w) (cleanUp env)
    (fun _ => AllPassed) (fun _ => AllPassed) := by
  unfold cleanUp
  refine triple_bind (triple_update (R := AllPassed) fun w hw pid hpid => ?_) fun _ => ?_
  · change pid ∈ w.passed ++ w.sim.toList ++ w.xvfb.toList
    rcases hw with hw | hw
    · exact List.mem_append_left _ (List.mem_append_left _ (hw pid hpid))
    · have hmem : pid ∈ w.xvfb.toList ++ w.sim.toList := hw.spawned ▸ hpid
      rcases List.mem_append.mp hmem with hmem | hmem
      · exact List.mem_append_right _ hmem
      · exact List.mem_append_left _ (List.mem_append_right _ hmem)
  refine triple_bind (always_point _) fun _ => triple_bind (always_point _) fun _ => ?_
  exact triple_update fun w hw => hw

/-- **`start`** reaches every group, if only harmless exceptions are raised and
Xvfb stays up. -/
theorem start_reached {args : StartArgs} (hheadless : args.headless = headless)
    (halive : headless = false → ∀ p, env.xvfb_alive p = true) (stateFile : Option SimState) :
    AllReached ((start env args).exec (.initial stateFile)).2 := by
  have hidle : ∀ (e : PyExc) (w : StartWorld), Fresh w → AllReached w := fun _ w hw pid hpid =>
    .inl (allPassed_of_nil hw.1 pid hpid)
  have hpoint : ∀ p : Point, Triple Fresh (point env p) (fun _ => Fresh) (fun _ => AllReached) :=
    fun p => (always_point p).raises hidle
  have hfresh : Triple Fresh (startFresh env args) (fun _ => AllReached) (fun _ => AllReached) := by
    unfold startFresh
    have hports : Always Fresh (choosePorts env args) :=
      choosePorts_rule always_point (fun _ _ hw => hw) (fun _ hw => hw) args
    refine triple_bind (hports.raises hidle) fun ports => ?_
    refine triple_onException (launch_spec hF hheadless halive ports.2) (fun e he => ?_)
      fun e he w hw => ?_
    · refine cleanUp_spec.conseq (fun w hw => ?_) (fun _ w hw pid hpid => .inl (hw pid hpid))
        fun _ w hw pid hpid => .inl (hw pid hpid)
      exact hw.imp_right And.left
    · -- no handler runs for what is not an `Exception`
      rcases hw with hw | ⟨-, hexc | hw⟩
      · exact fun pid hpid => .inl (hw pid hpid)
      · rw [he] at hexc
        cases hexc
      · exact hw
  have hstart : Triple Fresh (start env args) (fun _ => AllReached) (fun _ => AllReached) := by
    unfold start
    refine triple_bind (hpoint _) fun _ => ?_
    refine triple_bind (triple_read (Q := fun _ => Fresh) fun _ hw => hw) fun state => ?_
    rcases state with _ | state
    · exact hfresh
    refine triple_bind (hpoint _) fun _ => triple_bind (hpoint _) fun _ => ?_
    split_ifs
    · exact triple_pure fun w hw => hidle (SimError "") w hw
    · refine triple_bind (hpoint _) fun _ => ?_
      exact triple_bind (triple_update (R := Fresh) fun w hw => hw) fun _ => hfresh
  exact hstart.final ⟨rfl, rfl, rfl⟩ (fun _ _ hw => hw) fun _ _ hw => hw

end Faults

end Reached

end Ptlab.Sim
