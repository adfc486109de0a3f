/-
Where the process groups are that calls of `Simulator` have spawned (`src/ptlab/sim.py`).

A `Ledger` is any sequence of calls on one state file, each with what it met with and
what it has done. The file has room for one simulator, so a call that writes it must
have settled the one before; `no_group_is_lost` says that between the file, the
termination calls and the polls none is forgotten. What may be raised is what
`start_reached` allows.
-/
import Ptlab.Processes.Settled
import Ptlab.Sim.Reached
import Ptlab.Sim.Recovery

set_option autoImplicit false

open Effect Files Ptlab.Processes

namespace Ptlab.Sim

/-! ## Whom `start` spawns -/

section Spawned

variable {env : Env} {P : StartWorld → Prop}

/-- The processes of a run are those that `Popen` has to give. Its own state file is not
looked at: the one on disk stands in its place. -/
structure SpawnedFrom (env : Env) (w : StartWorld) : Prop where
  stateFile : w.stateFile = none
  mem : ∀ g ∈ w.spawned, g = env.xvfb_pid ∨ g = env.sim_pid

theorem SpawnedFrom.append {w : StartWorld} (h : SpawnedFrom env w) {pid : ℤ}
    (hpid : pid = env.xvfb_pid ∨ pid = env.sim_pid) :
    ∀ g ∈ w.spawned ++ [pid], g = env.xvfb_pid ∨ g = env.sim_pid := by
  intro g hg
  rcases List.mem_append.mp hg with hg | hg
  · exact h.mem g hg
  · rw [List.mem_singleton.mp hg]
    exact hpid

theorem SpawnedFrom.left {w : StartWorld} (h : SpawnedFrom env w) {e : PyExc} (hleft : Left e w) :
    AllPassed w ∨ (Known w ∧ e.isException = true) := by
  rcases hleft with hpassed | ⟨hknown, hexc | hreached⟩
  · exact .inl hpassed
  · exact .inr ⟨hknown, hexc⟩
  · refine .inl fun pid hpid => (hreached pid hpid).resolve_right fun hrecorded => ?_
    unfold StartWorld.recorded at hrecorded
    rw [h.stateFile] at hrecorded
    cases hrecorded

theorem killXvfb_spawned (poll killpg : Point) :
    Always (SpawnedFrom env) (killXvfb env poll killpg) := by
  unfold killXvfb
  refine triple_bind (triple_read (Q := fun _ => SpawnedFrom env) fun _ hw => hw) fun process => ?_
  cases process with
  | none => exact always_pure _
  | some pid =>
      refine always_bind (always_point _) fun _ => ?_
      split_ifs
      · exact always_bind (triple_update fun _ hw => ⟨hw.1, hw.2⟩) fun _ => always_point _
      · exact always_pure _

theorem spawnXvfb_spawned (display : Option String) :
    Always (SpawnedFrom env) (spawnXvfb env display) := by
  unfold spawnXvfb
  refine always_bind (always_point _) fun _ => ?_
  refine always_bind (triple_update fun w hw => ⟨hw.1, hw.append (.inl rfl)⟩) fun _ => ?_
  split_ifs
  · exact always_pure _
  · refine always_bind (always_point _) fun _ => always_bind (always_point _) fun _ => ?_
    refine always_bind (always_orRaise _ _) fun _ => always_bind (always_point _) fun _ => ?_
    refine always_bind (always_point _) fun _ => always_bind (always_orRaise _ _) fun _ => ?_
    exact always_pure _

theorem start_xvfb_spawned (display : Option String) :
    Always (SpawnedFrom env) (_start_xvfb env display) := by
  unfold _start_xvfb
  refine always_bind (triple_update fun _ hw => ⟨hw.1, hw.2⟩) fun _ => ?_
  refine always_bind (always_point _) fun _ => always_bind (always_point _) fun _ => ?_
  refine always_bind (triple_ensure (always_onException (spawnXvfb_spawned display)
    (killXvfb_spawned _ _)) (fun _ => always_point _) fun _ => always_point _) fun chosen => ?_
  refine always_bind (always_onException ?_ (killXvfb_spawned _ _)) fun _ => always_pure _
  exact wait_for_x_rule (fun _ _ hw => hw) (fun _ _ => always_point _) _ _

theorem spawnSim_spawned : Always (SpawnedFrom env) (spawnSim env) := by
  unfold spawnSim
  refine always_bind (always_point _) fun _ => ?_
  refine always_bind (always_skipIf (always_point _)) fun _ => ?_
  have hclose : Always (SpawnedFrom env)
      (do
        point env .stdout_close
        skipIf env.one_log (point env .stderr_close)) :=
    always_bind (always_point _) fun _ => always_skipIf (always_point _)
  refine triple_ensure ?_ (fun _ => hclose) fun _ => hclose
  exact always_bind (always_point _) fun _ => triple_update fun w hw => ⟨hw.1, hw.append (.inr rfl)⟩

end Spawned

namespace OnDisk

theorem startDisplay_spawned {env : Env} (args : StartArgs) :
    Always (SpawnedFrom env) (startDisplay env args) := by
  unfold startDisplay
  split_ifs
  · exact always_pure _
  · refine always_bind (start_xvfb_spawned _) fun chosen => ?_
    exact always_bind (triple_update fun _ hw => ⟨hw.1, hw.2⟩) fun _ => always_pure _

theorem launch_spawned {env : Env} (layout : SimLayout) (args : StartArgs)
    (bridge_port ble_control_port : ℤ) :
    Always (SpawnedFrom env) (launch layout env args bridge_port ble_control_port) := by
  unfold launch
  refine always_bind (startDisplay_spawned args) fun display => ?_
  refine always_bind (always_point _) fun _ => always_bind (always_point _) fun _ => ?_
  refine always_bind spawnSim_spawned fun _ => ?_
  have hwindow : Always (SpawnedFrom env) (awaitWindow env args) := by
    unfold awaitWindow
    split_ifs
    · exact always_pure _
    · exact always_bind (findWindow_rule (fun _ _ hw => hw) (fun _ _ => always_point _) _)
        fun _ => always_pure _
  refine always_bind hwindow fun window => ?_
  refine triple_bind (triple_read (Q := fun _ => SpawnedFrom env) fun _ hw => hw) fun state => ?_
  refine always_bind (always_skipIf (always_bind (always_point _) fun _ => always_point _))
    fun _ => ?_
  refine always_bind (wait_for_tcp_listener_rule (fun _ _ hw => hw) (fun _ _ => always_point _)
    _ _ _) fun _ => ?_
  exact always_bind (always_point _) fun _ => always_pure _

/-! ## The `try` clause -/

section Launch

variable {env : Env} {headless : Bool}
  (hF : ∀ p e, env.fault p = some e → HarmlessAt headless p e)

include hF

theorem startDisplay_spec {args : StartArgs} (hheadless : args.headless = headless)
    (halive : headless = false → ∀ p, env.xvfb_alive p = true) :
    Triple Fresh (startDisplay env args) (fun _ => XvfbOnly headless) Left := by
  unfold startDisplay
  rw [hheadless]
  split_ifs with hx
  · refine triple_pure fun w hw => ⟨⟨?_, fun pid hpid => ?_⟩, hw.2.2, fun _ => hw.2.1⟩
    · rw [hw.1, hw.2.1, hw.2.2]
      rfl
    · rw [hw.1] at hpid
      cases hpid
  · rw [Bool.not_eq_true] at hx
    refine triple_bind ((start_xvfb_spec hF hx (halive hx) args.display).raises
      fun _ _ hw => .inl hw) fun chosen => ?_
    refine triple_bind (triple_update fun w hw => ⟨⟨?_, fun pid hpid => ?_⟩, hw.2.2.2, fun h => ?_⟩)
      fun _ => triple_pure fun _ hw => hw
    · change w.spawned = w.process.toList ++ w.sim.toList
      rw [hw.1, hw.2.1, hw.2.2.2]
      rfl
    · rw [hw.1, List.mem_singleton] at hpid
      rw [hpid]
      exact env.xvfb_pid_pos
    · rw [hx] at h
      cases h

/-- The state that `launch` returns has all that runs; what it raises leaves the rest to
the `except` clause. -/
theorem launch_known {args : StartArgs} (hheadless : args.headless = headless)
    (halive : headless = false → ∀ p, env.xvfb_alive p = true) (layout : SimLayout)
    (bridge_port ble_control_port : ℤ) :
    Triple Fresh (launch layout env args bridge_port ble_control_port)
      (fun state w => Known w ∧ Sim.build_sim_state w = state.toSimState)
      Left := by
  have hguarded : ∀ {α : Type} {m : Effect StartWorld PyExc α} {K : StartWorld → Prop},
      (∀ w, K w → Known w) → Triple K m (fun _ => K) (fun e w => K w ∧ e.isException = true) →
      Triple K m (fun _ => K) Left :=
    fun hK hm => hm.raises fun _ _ hw => .inr ⟨hK _ hw.1, .inl hw.2⟩
  have hbefore : ∀ {p : Point}, p.stage = .xvfb → Triple (XvfbOnly headless) (point env p)
      (fun _ => XvfbOnly headless) Left :=
    fun hp => (triple_point_before hF hp).raises fun _ _ hw => hw.2
  unfold launch
  refine triple_bind (startDisplay_spec hF hheadless halive) fun display => ?_
  refine triple_bind (hbefore rfl) fun _ => triple_bind (hbefore rfl) fun _ => ?_
  refine triple_bind (spawnSim_spec hF) fun _ => ?_
  have hwindow : Triple Known (awaitWindow env args) (fun _ => Known) Left := by
    unfold awaitWindow
    rw [hheadless]
    split_ifs with hx
    · exact triple_pure fun _ hw => hw
    · rw [Bool.not_eq_true] at hx
      exact triple_bind (hguarded (fun _ hw => hw) (findWindow_spec hF hx _)) fun _ =>
        triple_pure fun _ hw => hw
  refine triple_bind hwindow fun window => ?_
  -- what is read here stays true of the variables: nothing is spawned any more
  refine triple_bind (triple_read (Q := fun state w =>
    Known w ∧ Sim.build_sim_state w = state.toSimState) fun w hw => ⟨hw, rfl⟩) fun state => ?_
  refine triple_bind (triple_skipIf (fun _ _ hw => hw) fun hx => ?_) fun _ => ?_
  · rw [hheadless] at hx
    refine triple_bind (hguarded (fun _ hw => hw.1) (triple_point_guarded hF (.inr ⟨rfl, hx⟩)))
      fun _ => ?_
    exact hguarded (fun _ hw => hw.1) (triple_point_guarded hF (.inr ⟨rfl, hx⟩))
  refine triple_bind (hguarded (fun _ hw => hw.1) (wait_for_tcp_listener_spec hF _ _ _))
    fun _ => ?_
  refine triple_bind (hguarded (fun _ hw => hw.1) (triple_point_guarded hF (.inl rfl))) fun _ => ?_
  exact triple_pure fun _ hw => hw

end Launch

/-! ## What a file accounts for -/

/-- The process was found gone, or its group was killed. -/
def Settled (host : Host) (g : ℤ) (t : Trace) : Prop :=
  host.FoundGone g t ∨ SentKill (.group g) t

theorem rising_settled (host : Host) (g : ℤ) : Rising (Settled host g) :=
  (rising_foundGone host g).or (rising_sentKill _)

/-- What `start` records: leaders of groups, none of them `init`. -/
def Led (state : SimState) : Prop :=
  ∀ ref ∈ _process_refs state, 1 < ref.pid ∧ ref.pgid = ref.pid

/-- The groups that a state has. -/
def groupsOf (state : SimState) : List ℤ := (_process_refs state).map ProcessRef.pgid

theorem refs_build_sim_state {w : StartWorld} {ref : ProcessRef}
    (href : ref ∈ _process_refs (Sim.build_sim_state w)) :
    ref.pgid = ref.pid ∧ (w.sim = some ref.pid ∨ w.xvfb = some ref.pid) := by
  have hentry : ∀ (name : String) (leader : Option ℤ),
      ref ∈ processRef name (leader.map fun pid => ⟨some pid, some pid⟩) →
      ref.pgid = ref.pid ∧ leader = some ref.pid := by
    rintro name (_ | pid) hmem
    · cases hmem
    · by_cases hpid : pid = 0
      · rw [Option.map_some, processRef, if_neg (by simp [hpid])] at hmem
        cases hmem
      · rw [Option.map_some, processRef, if_pos ⟨hpid, hpid⟩, List.mem_singleton] at hmem
        subst hmem
        exact ⟨rfl, rfl⟩
  rcases List.mem_append.mp href with hmem | hmem
  · exact ⟨(hentry "sim" w.sim hmem).1, .inl (hentry "sim" w.sim hmem).2⟩
  · exact ⟨(hentry "xvfb" w.xvfb hmem).1, .inr (hentry "xvfb" w.xvfb hmem).2⟩

theorem mem_spawned_of_known {w : StartWorld} (h : Known w) {g : ℤ}
    (hg : g ∈ groupsOf (Sim.build_sim_state w)) : g ∈ w.spawned := by
  obtain ⟨ref, href, rfl⟩ := List.mem_map.mp hg
  obtain ⟨hpgid, hleader⟩ := refs_build_sim_state href
  rw [h.spawned, hpgid, List.mem_append, Option.mem_toList, Option.mem_toList]
  exact hleader.symm

section Settles

variable {P : Trace → Prop} (hP : Rising P) {state : SimState} (hled : Led state)

include hP hled

theorem terminateRecorded_settles (host : Host) (fuel : ℕ) :
    Triple P (terminateRecorded host fuel state)
      (fun _ t => P t ∧ ∀ g ∈ groupsOf state, Settled host g t) (fun _ => P) := by
  unfold terminateRecorded
  split_ifs with hrefs
  · refine (terminate_process_groups_settles hP _ _ _).conseq (fun _ h => h)
      (fun _ t h => ⟨h.1, fun g hg => ?_⟩) fun _ _ h => h
    obtain ⟨ref, href, rfl⟩ := List.mem_map.mp hg
    obtain ⟨hpid, hpgid⟩ := hled ref href
    have hguarded : ref ∈ guarded (_process_refs state) := by
      rw [guarded, List.mem_filter, hpgid]
      exact ⟨href, decide_eq_true ⟨hpid, hpid⟩⟩
    have hsettled := h.2 ref hguarded
    rw [hpgid] at hsettled ⊢
    exact hsettled
  · -- legacy pids: no group is recorded
    refine (terminate_pids_settles hP _ _ _).conseq (fun _ h => h) (fun _ t h => ⟨h.1, ?_⟩)
      fun _ _ h => h
    rw [groupsOf, not_not.mp hrefs]
    intro g hg
    cases hg

theorem killTargets_settles (setting : Setting) :
    Triple P ((killTargets state).forM (killTarget setting))
      (fun _ t => P t ∧ ∀ g ∈ groupsOf state, Settled setting.host g t) (fun _ => P) := by
  -- of a single process nothing is asked
  let D : ℤ × ℤ × Bool → Trace → Prop := fun target t =>
    target.2.2 = true → target.2.1 = target.1 → Settled setting.host target.1 t
  have hD : ∀ target, Rising (D target) := fun target =>
    rising_imp (rising_imp (rising_settled _ _))
  refine (forM_settles (D := D) hP hD (fun P' hP' target => ?_) _).conseq (fun _ h => h)
    (fun _ t h => ⟨h.1, fun g hg => ?_⟩) fun _ _ h => h
  · obtain ⟨pid, process_group, grouped⟩ := target
    unfold killTarget
    refine triple_bind (process_is_alive_found hP' pid) fun isAlive => ?_
    have hfound : Rising fun t => P' t ∧ (isAlive = false → setting.host.FoundGone pid t) :=
      hP'.and (rising_imp (rising_foundGone _ _))
    cases isAlive with
    | false => exact triple_pure fun t h => ⟨h.1, fun _ _ => .inl (h.2 rfl)⟩
    | true =>
        have hsend : ∀ target, Triple (fun t => P' t ∧ (true = false → setting.host.FoundGone pid t))
            (send setting.host target .SIGKILL) (fun _ t => P' t ∧ SentKill target t)
            (fun _ => P') := fun target =>
          (send_sent hfound target .SIGKILL).conseq (fun _ h => h) (fun _ _ h => ⟨h.1.1, h.2⟩)
            fun _ _ h => h.1
        cases grouped with
        | true =>
            refine (hsend (.group process_group)).conseq (fun _ h => h)
              (fun _ t h => ⟨h.1, fun _ hpgid => .inr ?_⟩) fun _ _ h => h
            dsimp only at hpgid
            rw [← hpgid]
            exact h.2
        | false =>
            exact (hsend (.process pid)).conseq (fun _ h => h)
              (fun _ t h => ⟨h.1, fun hgrouped => by cases hgrouped⟩) fun _ _ h => h
  · obtain ⟨ref, href, rfl⟩ := List.mem_map.mp hg
    have htarget := h.2 (ref.pid, ref.pgid, true) (mem_killTargets.mpr (.inl ⟨ref, href, rfl⟩))
    rw [(hled ref href).2]
    exact htarget rfl (hled ref href).2

end Settles

/-! ## The calls -/

section Calls

variable (orjson : Orjson) (layout : SimLayout)

/-- The groups in the state file, as `stop` finds them. -/
def recorded (d : Disk String) : List ℤ :=
  match (d layout.state).bind orjson.loads with
  | some state => groupsOf state.toSimState
  | none => []

/-- If the state file is read, it has what `start` records. -/
def Ours (d : Disk String) : Prop :=
  ∀ state, (d layout.state).bind orjson.loads = some state → Led state.toSimState

/-- What a call has done by now with the groups of the file it found, and with its own. -/
structure Kept (host : Host) (found : Disk String) (w : DiskWorld) : Prop where
  ours : Ours orjson layout w.disk
  owed : ∀ g ∈ recorded orjson layout found,
    g ∈ recorded orjson layout w.disk ∨ Settled host g w.processes
  reached : ∀ g ∈ w.locals.spawned, g ∈ w.locals.passed ∨ g ∈ recorded orjson layout w.disk
  origin : ∀ g ∈ recorded orjson layout w.disk,
    g ∈ recorded orjson layout found ∨ g ∈ w.locals.spawned

/-- Nothing is spawned yet. -/
def Idle (env : Env) (w : DiskWorld) : Prop := Fresh w.locals ∧ SpawnedFrom env w.locals

variable {orjson layout} {setting : Setting} {found : Disk String}

theorem recorded_none {d : Disk String} (h : d layout.state = none) :
    recorded orjson layout d = [] := by
  rw [recorded, h]
  rfl

theorem ours_none {d : Disk String} (h : d layout.state = none) : Ours orjson layout d := by
  intro state hstate
  rw [h] at hstate
  cases hstate

theorem recorded_read {d : Disk String} {state : StateDict}
    (h : (d layout.state).bind orjson.loads = some state) :
    recorded orjson layout d = groupsOf state.toSimState := by
  rw [recorded, h]

/-- Something done to the processes: what is settled stays settled. -/
theorem onProcesses_kept {α : Type} {m : Effect Trace ProcessExc α} {D : α → Trace → Prop}
    {I : DiskWorld → Prop}
    (hm : ∀ P : Trace → Prop, Rising P → Triple P m (fun a t => P t ∧ D a t) (fun _ => P))
    (hI : ∀ w processes, I w → I { w with processes := processes }) :
    Triple (fun w => Kept orjson layout setting.host found w ∧ I w) (onProcesses m)
      (fun a w => (Kept orjson layout setting.host found w ∧ I w) ∧ D a w.processes)
      (fun _ w => Kept orjson layout setting.host found w) := by
  rintro w ⟨hkept, hw⟩
  have howed : Rising fun t => ∀ g, g ∈ recorded orjson layout found →
      g ∈ recorded orjson layout w.disk ∨ Settled setting.host g t :=
    rising_forall fun g => rising_imp ((rising_const _).or (rising_settled _ _))
  unfold onProcesses zoom mapException
  simp only [exec_of]
  rcases hrun : m.exec w.processes with ⟨e | a, processes⟩
  · exact { hkept with owed := (hm _ howed).of_error hkept.owed hrun }
  · have hend := (hm _ howed).of_ok hkept.owed hrun
    exact ⟨⟨{ hkept with owed := hend.1 }, hI w processes hw⟩, hend.2⟩

/-- `stop` and `kill` are this, each with its own way to end the processes. -/
theorem clear_kept {m : SimState → Effect Trace ProcessExc Unit}
    (hm : ∀ state, Led state → ∀ P : Trace → Prop, Rising P → Triple P (m state)
      (fun _ t => P t ∧ ∀ g ∈ groupsOf state, Settled setting.host g t) (fun _ => P)) :
    Triple (fun w => Kept orjson layout setting.host found w ∧ Idle setting.env w)
      (do
        if ← stateExists layout then
          let state ← _load_json orjson layout
          onProcesses (m state.toSimState)
          unlinkState layout
          return true
        else return false)
      (fun _ w => (Kept orjson layout setting.host found w ∧ Idle setting.env w) ∧
        w.disk layout.state = none)
      (fun _ => Kept orjson layout setting.host found) := by
  refine triple_bind stateExists_rule fun there => ?_
  cases there with
  | false => exact triple_pure fun w hw => ⟨hw.1, hw.2 rfl⟩
  | true =>
      rw [if_pos rfl]
      refine triple_bind (load_json_rule.raises fun _ _ hw => hw.1.1) fun state => ?_
      let I : DiskWorld → Prop := fun w =>
        Idle setting.env w ∧ (w.disk layout.state).bind orjson.loads = some state
      refine Triple.conseq (P := fun w =>
        (Kept orjson layout setting.host found w ∧ I w) ∧ Led state.toSimState) ?_
        (fun w hw => ⟨⟨hw.1.1.1, hw.1.1.2, hw.2⟩, hw.1.1.1.ours state hw.2⟩)
        (fun _ _ hw => hw) fun _ _ hw => hw
      refine triple_assume fun hled => ?_
      refine triple_bind (onProcesses_kept (I := I) (hm state.toSimState hled)
        fun w processes hw => hw) fun _ => ?_
      refine triple_bind (triple_update (R := fun w =>
        (Kept orjson layout setting.host found w ∧ Idle setting.env w) ∧
          w.disk layout.state = none) fun w hw => ?_) fun _ => triple_pure fun _ hw => hw
      obtain ⟨⟨hkept, hidle, hread⟩, hsettled⟩ := hw
      have hnone : Function.update w.disk layout.state none layout.state = none :=
        Function.update_self ..
      rw [← recorded_read hread] at hsettled
      -- what the file had is settled now, so that nothing is owed by it
      refine ⟨⟨⟨ours_none hnone, fun g hg => .inr ?_, fun g hg => ?_, fun g hg => ?_⟩, hidle⟩, hnone⟩
      · exact (hkept.owed g hg).elim (hsettled g) id
      · rw [hidle.1.1] at hg
        cases hg
      · have hempty : recorded orjson layout (Function.update w.disk layout.state none) = [] :=
          recorded_none hnone
        change g ∈ recorded orjson layout (Function.update w.disk layout.state none) at hg
        rw [hempty] at hg
        cases hg

theorem stop_kept :
    Triple (fun w => Kept orjson layout setting.host found w ∧ Idle setting.env w)
      (stop orjson layout setting)
      (fun _ w => (Kept orjson layout setting.host found w ∧ Idle setting.env w) ∧
        w.disk layout.state = none)
      (fun _ => Kept orjson layout setting.host found) :=
  clear_kept fun _ hled _ hP => terminateRecorded_settles hP hled setting.host setting.fuel

theorem kill_kept :
    Triple (fun w => Kept orjson layout setting.host found w ∧ Idle setting.env w)
      (kill orjson layout setting)
      (fun _ w => (Kept orjson layout setting.host found w ∧ Idle setting.env w) ∧
        w.disk layout.state = none)
      (fun _ => Kept orjson layout setting.host found) :=
  clear_kept (m := fun state => (killTargets state).forM (killTarget setting))
    fun _ hled _ hP => killTargets_settles hP hled setting

theorem status_kept :
    Triple (fun w => Kept orjson layout setting.host found w ∧ Idle setting.env w)
      (status orjson layout setting) (fun _ => Kept orjson layout setting.host found)
      (fun _ => Kept orjson layout setting.host found) := by
  unfold status
  refine triple_bind stateExists_rule fun there => ?_
  split_ifs
  · refine triple_bind (load_json_rule.raises fun _ _ hw => hw.1.1) fun state => ?_
    refine triple_bind ((always_lift _).raises fun _ _ hw => hw.1.1.1) fun sim_pid => ?_
    split_ifs
    · refine triple_bind ((onProcesses_kept (I := fun _ => True)
        (fun P hP => process_is_alive_found hP _) fun _ _ h => h).conseq
        (fun w hw => ⟨hw.1.1.1, trivial⟩) (fun _ _ hw => hw) fun _ _ hw => hw) fun isAlive => ?_
      exact triple_pure fun w hw => hw.1.1
    · exact triple_pure fun w hw => hw.1.1.1
  · exact triple_pure fun w hw => hw.1.1

/-! ### `start` -/

/-- The verdict asks the processes, and what was settled is not unsettled by that. -/
theorem verdict_kept (document : List (String × PyValue)) :
    Always (fun w => Kept orjson layout setting.host found w ∧ Idle setting.env w)
      (existing_state_is_healthy setting.around setting.host document) := by
  refine verdict_rule (fun pid => ?_) document
  have hkept : Always (Kept orjson layout setting.host found) (alive setting.host pid) :=
    (onProcesses_kept (I := fun _ => True) (fun P hP => process_is_alive_found hP pid)
      fun _ _ h => h).conseq (fun _ hw => ⟨hw, trivial⟩) (fun _ _ hw => hw.1.1) fun _ _ hw => hw
  exact hkept.and (always_alive (fun _ _ hw => hw) pid)

/-- The file of the call before is cleared. -/
def Cleared (orjson : Orjson) (layout : SimLayout) (host : Host) (found d : Disk String)
    (t : Trace) : Prop :=
  d layout.state = none ∧ ∀ g ∈ recorded orjson layout found, Settled host g t

/-- Now the file has at most what this call has spawned. -/
structure Renewed (orjson : Orjson) (layout : SimLayout) (host : Host) (found : Disk String)
    (w : DiskWorld) : Prop where
  settled : ∀ g ∈ recorded orjson layout found, Settled host g w.processes
  ours : Ours orjson layout w.disk
  own : ∀ g ∈ recorded orjson layout w.disk, g ∈ w.locals.spawned

theorem Renewed.kept {w : DiskWorld} (h : Renewed orjson layout setting.host found w)
    (hreached : ∀ g ∈ w.locals.spawned, g ∈ w.locals.passed ∨ g ∈ recorded orjson layout w.disk) :
    Kept orjson layout setting.host found w :=
  ⟨h.ours, fun g hg => .inr (h.settled g hg), hreached, fun g hg => .inr (h.own g hg)⟩

theorem Renewed.passed {w : DiskWorld} (h : Renewed orjson layout setting.host found w)
    (hpassed : AllPassed w.locals) : Kept orjson layout setting.host found w :=
  h.kept fun g hg => .inl (hpassed g hg)

theorem Cleared.renewed {w : DiskWorld}
    (h : Cleared orjson layout setting.host found w.disk w.processes) :
    Renewed orjson layout setting.host found w := by
  refine ⟨h.2, ours_none h.1, fun g hg => ?_⟩
  rw [recorded_none h.1] at hg
  cases hg

/-- The file has the front part of the state. -/
theorem renewed_of_part {w : DiskWorld} {state : StateDict} {text part : List UInt8}
    (hcleared : ∀ g ∈ recorded orjson layout found, Settled setting.host g w.processes)
    (hknown : Known w.locals) (hstate : Sim.build_sim_state w.locals = state.toSimState)
    (hled : Led state.toSimState) (htext : orjson.dumps state = some text)
    (hfile : w.disk layout.state = some part) (hpart : part <+: text ++ [0x0A]) :
    Renewed orjson layout setting.host found w := by
  have hread : ∀ other, (w.disk layout.state).bind orjson.loads = some other → other = state := by
    intro other hother
    rw [hfile] at hother
    exact loads_part htext hpart hother
  refine ⟨hcleared, fun other hother => hread other hother ▸ hled, fun g hg => ?_⟩
  rcases hother : (w.disk layout.state).bind orjson.loads with _ | other
  · rw [recorded, hother] at hg
    cases hg
  · rw [recorded_read hother, hread other hother, ← hstate] at hg
    exact mem_spawned_of_known hknown hg

/-- With what `startBody` ends: all is passed on, or known, or in the file. -/
def LeftBehind (orjson : Orjson) (layout : SimLayout) (error : CallExc) (w : DiskWorld) : Prop :=
  AllPassed w.locals ∨ (Known w.locals ∧ (error.isException = true ∨
    ∀ g ∈ w.locals.spawned, g ∈ w.locals.passed ∨ g ∈ recorded orjson layout w.disk))

/-- What a call may meet with: nothing that is raised does harm where it is raised, Xvfb
stays up, and no process is `init`. -/
structure Meets (setting : Setting) (headless : Bool) : Prop where
  harmless : ∀ p e, setting.env.fault p = some e → HarmlessAt headless p e
  xvfb_alive : headless = false → ∀ p, setting.env.xvfb_alive p = true
  xvfb_pid : 1 < setting.env.xvfb_pid
  sim_pid : 1 < setting.env.sim_pid

theorem Meets.led {headless : Bool} (h : Meets setting headless) {w : StartWorld}
    (hknown : Known w) (hspawned : SpawnedFrom setting.env w) : Led (Sim.build_sim_state w) := by
  intro ref href
  obtain ⟨hpgid, -⟩ := refs_build_sim_state href
  have hmem : ref.pid ∈ w.spawned := hpgid ▸ mem_spawned_of_known hknown (List.mem_map_of_mem href)
  refine ⟨?_, hpgid⟩
  rcases hspawned.mem _ hmem with hpid | hpid
  · rw [hpid]
    exact h.xvfb_pid
  · rw [hpid]
    exact h.sim_pid

theorem dump_json_spec {headless : Bool} (hmeets : Meets setting headless) (state : StateDict) :
    Triple (fun w => (Known w.locals ∧ Sim.build_sim_state w.locals = state.toSimState) ∧
        SpawnedFrom setting.env w.locals ∧
        Cleared orjson layout setting.host found w.disk w.processes)
      (_dump_json orjson layout setting state)
      (fun _ w => Renewed orjson layout setting.host found w ∧ Known w.locals ∧
        ∀ g ∈ w.locals.spawned, g ∈ w.locals.passed ∨ g ∈ recorded orjson layout w.disk)
      (fun error w => Renewed orjson layout setting.host found w ∧
        LeftBehind orjson layout error w) := by
  unfold _dump_json
  rcases htext : orjson.dumps state with _ | text
  · exact triple_throw fun w hw => ⟨hw.2.2.renewed, .inr ⟨hw.1.1, .inl rfl⟩⟩
  dsimp only
  have hwrite : ∀ (w : DiskWorld) (part : List UInt8),
      ((Known w.locals ∧ Sim.build_sim_state w.locals = state.toSimState) ∧
        SpawnedFrom setting.env w.locals ∧
        Cleared orjson layout setting.host found w.disk w.processes) →
      part <+: text ++ [0x0A] →
      Renewed orjson layout setting.host found
        { w with disk := Function.update w.disk layout.state (some part),
                 ops := w.ops ++ [.write layout.state part] } := by
    intro w part hw hpart
    obtain ⟨⟨hknown, hstate⟩, hspawned, hcleared⟩ := hw
    refine renewed_of_part hcleared.2 hknown hstate ?_ htext (Function.update_self ..) hpart
    exact hstate ▸ hmeets.led hknown hspawned
  rcases hfault : setting.env.fault .write_state with _ | error
  · refine triple_update fun w hw =>
      ⟨hwrite w _ hw List.prefix_rfl, hw.1.1, fun g hg => .inr ?_⟩
    have hread : (Function.update w.disk layout.state (some (text ++ [0x0A])) layout.state).bind
        orjson.loads = some state := by
      rw [Function.update_self]
      exact orjson.loads_dumps state text [0x0A] htext
        (List.forall_mem_singleton.mpr (by decide))
    change g ∈ recorded orjson layout (Function.update w.disk layout.state _)
    rw [recorded_read hread, ← hw.1.2]
    exact hw.1.1.mem_refs hg
  · -- a write that raises: the `except` clause will be reached
    have hexc : error.isException = true := hmeets.harmless _ _ hfault
    refine triple_bind (Q := fun _ w => Renewed orjson layout setting.host found w ∧
      Known w.locals) ?_ fun _ => triple_throw fun w hw => ⟨hw.1, .inr ⟨hw.2, .inl hexc⟩⟩
    unfold writePart
    split
    · exact triple_pure fun w hw => ⟨hw.2.2.renewed, hw.1.1⟩
    · exact triple_update fun w hw => ⟨hwrite w _ hw (List.take_prefix _ _), hw.1.1⟩

theorem startBody_spec {args : StartArgs} (hmeets : Meets setting args.headless)
    (bridge_port ble_control_port : ℤ) :
    Triple (fun w => Idle setting.env w ∧
        Cleared orjson layout setting.host found w.disk w.processes)
      (startBody orjson layout setting args bridge_port ble_control_port)
      (fun _ => Kept orjson layout setting.host found)
      (fun error w => Renewed orjson layout setting.host found w ∧
        LeftBehind orjson layout error w) := by
  unfold startBody
  have hlaunch := triple_onLocals ((launch_known hmeets.harmless rfl hmeets.xvfb_alive layout
    bridge_port ble_control_port).and (launch_spawned layout args bridge_port ble_control_port))
    (Cleared orjson layout setting.host found)
  refine triple_bind (hlaunch.conseq (fun _ hw => hw) (fun _ w hw => ?_) ?_) fun state =>
    triple_bind (dump_json_spec hmeets state) fun _ => ?_
  · exact ⟨hw.1.1, hw.1.2, hw.2⟩
  · rintro _ w ⟨e, rfl, ⟨hleft, hspawned⟩, hcleared⟩
    refine ⟨Cleared.renewed hcleared, ?_⟩
    exact (hspawned.left hleft).imp_right fun h => ⟨h.1, .inl h.2⟩
  · refine triple_bind ((always_onLocals_point _).raises fun _ w hw =>
      ⟨hw.1, .inr ⟨hw.2.1, .inr hw.2.2⟩⟩) fun _ => triple_pure fun w hw => hw.1.kept hw.2.2

/-- The `except` clause passes on what is left. -/
theorem startHandler_spec (error : CallExc) :
    Triple (fun w => Renewed orjson layout setting.host found w ∧
        LeftBehind orjson layout error w)
      (startHandler layout setting error) (fun _ => Kept orjson layout setting.host found)
      (fun _ => Kept orjson layout setting.host found) := by
  rintro w ⟨hrenewed, hleft⟩
  unfold startHandler
  cases herror : error.isException with
  | false =>
      rcases hleft with hpassed | ⟨-, hexc | hreached⟩
      · exact hrenewed.passed hpassed
      · rw [herror] at hexc
        cases hexc
      · exact hrenewed.kept hreached
  | true =>
      rw [if_pos rfl]
      have hspawned : Always (fun locals => locals.spawned = w.locals.spawned)
          (cleanUp setting.env) := by
        unfold cleanUp
        refine always_bind (triple_update fun _ h => h) fun _ => always_bind (always_point _) ?_
        exact fun _ => always_bind (always_point _) fun _ => triple_update fun _ h => h
      have hclean := triple_onLocals (cleanUp_spec.and hspawned) fun d t =>
        d = w.disk ∧ t = w.processes
      have hrule : Triple (fun w' => w' = w) (do
          onLocals (cleanUp setting.env)
          unlinkState layout
          throw error : OnFile StateDict) (fun _ => Kept orjson layout setting.host found)
          (fun _ => Kept orjson layout setting.host found) := by
        refine triple_bind (hclean.conseq (fun w' hw' => ?_) (fun _ _ h => h) ?_) fun _ => ?_
        · rw [hw']
          exact ⟨⟨hleft.imp_right And.left, rfl⟩, rfl, rfl⟩
        · rintro _ w' ⟨e, rfl, ⟨hpassed, hsame⟩, hdisk, hprocesses⟩
          refine Renewed.passed ⟨?_, ?_, ?_⟩ hpassed
          · rw [hprocesses]
            exact hrenewed.settled
          · rw [hdisk]
            exact hrenewed.ours
          · rw [hdisk, hsame]
            exact hrenewed.own
        · refine triple_bind (triple_update (R := Kept orjson layout setting.host found)
            fun w' hw' => ?_) fun _ => triple_throw fun _ h => h
          obtain ⟨⟨hpassed, hsame⟩, hdisk, hprocesses⟩ := hw'
          have hcleared : Cleared orjson layout setting.host found
              (Function.update w'.disk layout.state none) w'.processes :=
            ⟨Function.update_self .., hprocesses ▸ hrenewed.settled⟩
          exact (Cleared.renewed (w := { w' with
            disk := Function.update w'.disk layout.state none
            ops := w'.ops ++ [.unlink layout.state] }) hcleared).passed hpassed
      exact hrule w rfl

theorem startFresh_spec {args : StartArgs} (hmeets : Meets setting args.headless) :
    Triple (fun w => Idle setting.env w ∧
        Cleared orjson layout setting.host found w.disk w.processes)
      (startFresh orjson layout setting args) (fun _ => Kept orjson layout setting.host found)
      (fun _ => Kept orjson layout setting.host found) := by
  unfold startFresh
  have hports : Always (fun locals => Fresh locals ∧ SpawnedFrom setting.env locals)
      (choosePorts setting.env args) :=
    choosePorts_rule always_point (fun _ _ hw => hw) (fun _ hw => hw) args
  refine triple_bind ((triple_onLocals hports
    (Cleared orjson layout setting.host found)).raises ?_) fun ports => ?_
  · rintro _ w ⟨e, rfl, ⟨hfresh, -⟩, hcleared⟩
    exact (Cleared.renewed hcleared).passed (allPassed_of_nil hfresh.1)
  · exact triple_tryCatch (startBody_spec hmeets ports.1 ports.2) startHandler_spec

theorem start_kept {args : StartArgs} (hmeets : Meets setting args.headless) :
    Triple (fun w => Kept orjson layout setting.host found w ∧ Idle setting.env w)
      (start orjson layout setting args) (fun _ => Kept orjson layout setting.host found)
      (fun _ => Kept orjson layout setting.host found) := by
  have hcleared : ∀ w, (Kept orjson layout setting.host found w ∧ Idle setting.env w) ∧
      w.disk layout.state = none → Idle setting.env w ∧
        Cleared orjson layout setting.host found w.disk w.processes := by
    rintro w ⟨⟨hkept, hidle⟩, hnone⟩
    refine ⟨hidle, hnone, fun g hg => (hkept.owed g hg).resolve_left fun hmem => ?_⟩
    rw [recorded_none hnone] at hmem
    cases hmem
  have hfresh : Triple (fun w =>
      (Kept orjson layout setting.host found w ∧ Idle setting.env w) ∧ w.disk layout.state = none)
      (startFresh orjson layout setting args) (fun _ => Kept orjson layout setting.host found)
      (fun _ => Kept orjson layout setting.host found) :=
    (startFresh_spec hmeets).conseq hcleared (fun _ _ h => h) fun _ _ h => h
  unfold start
  refine triple_bind ((always_onLocals_point _).raises fun _ _ hw => hw.1) fun _ => ?_
  refine triple_bind stateExists_rule fun there => ?_
  cases there with
  | false => exact hfresh.conseq (fun w hw => ⟨hw.1, hw.2 rfl⟩) (fun _ _ h => h) fun _ _ h => h
  | true =>
      rw [if_pos rfl]
      refine triple_bind ((always_onLocals_point _).raises fun _ _ hw => hw.1.1) fun _ => ?_
      refine triple_bind (load_json_rule.raises fun _ _ hw => hw.1.1) fun state => ?_
      refine triple_bind ((verdict_kept _).conseq (fun _ hw => hw.1.1) (fun _ _ hw => hw)
        fun _ _ hw => hw.1) fun healthy => ?_
      split_ifs
      · exact triple_pure fun w hw => hw.1
      · exact triple_bind stop_kept fun _ => hfresh

end Calls

/-! ## The ledger -/

/-- What a call may meet with that spawns processes. -/
def Call.Meets (setting : Setting) : Call → Prop
  | .start args | .restart args => OnDisk.Meets setting args.headless
  | .stop | .kill | .status => True

/-- **One call** accounts for the groups of the file it found, and for its own. -/
theorem run_kept {orjson : Orjson} {layout : SimLayout} {setting : Setting} {d : Disk String}
    (hours : Ours orjson layout d) {call : Call} (hmeets : call.Meets setting) :
    Kept orjson layout setting.host d ((call.run orjson layout setting).exec (.initial d)).2 := by
  have hinitial : Kept orjson layout setting.host d (.initial d) ∧
      Idle setting.env (.initial d) := by
    refine ⟨⟨hours, fun g hg => .inl hg, fun g hg => absurd hg List.not_mem_nil,
      fun g hg => .inl hg⟩, ⟨rfl, rfl, rfl⟩, rfl, fun g hg => absurd hg List.not_mem_nil⟩
  have hrun : Triple (fun w => Kept orjson layout setting.host d w ∧ Idle setting.env w)
      (call.run orjson layout setting) (fun _ => Kept orjson layout setting.host d)
      (fun _ => Kept orjson layout setting.host d) := by
    cases call with
    | start args => exact triple_bind (start_kept hmeets) fun _ => triple_pure fun _ h => h
    | stop => exact triple_bind stop_kept fun _ => triple_pure fun _ h => h.1.1
    | kill => exact triple_bind kill_kept fun _ => triple_pure fun _ h => h.1.1
    | status => exact triple_bind status_kept fun _ => triple_pure fun _ h => h
    | restart args =>
        refine triple_bind (triple_bind stop_kept fun _ => ?_) fun _ => triple_pure fun _ h => h
        exact (start_kept hmeets).conseq (fun _ h => h.1) (fun _ _ h => h) fun _ _ h => h
  exact hrun.final hinitial (fun _ _ h => h) fun _ _ h => h

/-- What a call has done, for the books. -/
structure Report where
  spawned : List ℤ
  passed : List ℤ
  host : Host
  trace : Trace

def Report.of (setting : Setting) (w : DiskWorld) : Report :=
  ⟨w.locals.spawned, w.locals.passed, setting.host, w.processes⟩

/-- By the end of the call the group was found gone, or killed. -/
def Report.Settles (report : Report) (g : ℤ) : Prop := Settled report.host g report.trace

section Ledger

variable (orjson : Orjson) (layout : SimLayout)

/-- Calls on one state file, one after another, and what each of them reports. -/
inductive Ledger : List Report → Disk String → Prop
  | opened {d : Disk String} (h : d layout.state = none) : Ledger [] d
  | entered {reports : List Report} {d : Disk String} (h : Ledger reports d) (call : Call)
      (setting : Setting) (hmeets : call.Meets setting) :
      Ledger
        (reports ++ [.of setting ((call.run orjson layout setting).exec (.initial d)).2])
        ((call.run orjson layout setting).exec (.initial d)).2.disk

/-- The books balance at the end of every call. -/
structure Balanced (reports : List Report) (d : Disk String) : Prop where
  ours : Ours orjson layout d
  spent : ∀ before report after, reports = before ++ report :: after → ∀ g ∈ report.spawned,
    g ∈ report.passed ∨ (∃ later ∈ after, later.Settles g) ∨ g ∈ recorded orjson layout d
  earned : ∀ g ∈ recorded orjson layout d, ∃ report ∈ reports, g ∈ report.spawned

variable {orjson layout}

theorem Ledger.balanced {reports : List Report} {d : Disk String}
    (h : Ledger orjson layout reports d) : Balanced orjson layout reports d := by
  induction h with
  | opened hnone =>
      refine ⟨ours_none hnone, fun before report after h => ?_, fun g hg => ?_⟩
      · exact absurd h.symm (List.append_ne_nil_of_right_ne_nil _ (List.cons_ne_nil _ _))
      · rw [recorded_none hnone] at hg
        cases hg
  | @entered reports d h call setting hmeets ih =>
      have hkept := run_kept ih.ours hmeets
      refine ⟨hkept.ours, fun before report after hreports g hg => ?_, fun g hg => ?_⟩
      · rcases List.eq_nil_or_concat after with rfl | ⟨front, last, rfl⟩
        · -- the last call's own
          obtain ⟨-, hlast⟩ := List.append_inj' hreports rfl
          obtain rfl := (List.singleton_inj.mp hlast).symm
          exact (hkept.reached g hg).imp_right .inr
        · rw [List.concat_eq_append, ← List.cons_append, ← List.append_assoc] at hreports
          obtain ⟨hfront, hlast⟩ := List.append_inj' hreports rfl
          obtain rfl := (List.singleton_inj.mp hlast).symm
          rw [List.concat_eq_append]
          rcases ih.spent before report front hfront g hg with
            hpassed | ⟨later, hlater, hsettles⟩ | hmem
          · exact .inl hpassed
          · exact .inr (.inl ⟨later, List.mem_append_left _ hlater, hsettles⟩)
          · rcases hkept.owed g hmem with hmem | hsettled
            · exact .inr (.inr hmem)
            · exact .inr (.inl ⟨_, List.mem_append_right _ (List.mem_singleton_self _), hsettled⟩)
      · rcases hkept.origin g hg with hmem | hmem
        · obtain ⟨report, hreport, hspawned⟩ := ih.earned g hmem
          exact ⟨report, List.mem_append_left _ hreport, hspawned⟩
        · exact ⟨_, List.mem_append_right _ (List.mem_singleton_self _), hmem⟩

/-- **No group is lost.** Whatever a call spawned it has passed to a termination call, or
a later call has found it gone or killed it, or it is in the state file, where the next
`stop` finds it; and the file has nothing but what these calls have spawned. -/
theorem no_group_is_lost {reports : List Report} {d : Disk String}
    (h : Ledger orjson layout reports d) :
    (∀ before report after, reports = before ++ report :: after → ∀ g ∈ report.spawned,
      g ∈ report.passed ∨ (∃ later ∈ after, later.Settles g) ∨ g ∈ recorded orjson layout d) ∧
    ∀ g ∈ recorded orjson layout d, ∃ report ∈ reports, g ∈ report.spawned :=
  ⟨h.balanced.spent, h.balanced.earned⟩

/-- A headless simulator is started and stopped. -/
theorem no_group_is_lost_headless :
    ∃ (d : Disk String) (started stopped : Report), started.spawned = [78] ∧
      (78 ∈ started.passed ∨ (∃ later ∈ [stopped], later.Settles 78) ∨
        78 ∈ recorded headlessOrjson headlessLayout d) := by
  have hmeets : Meets (quiet 400 10) true := by
    refine ⟨fun p e h => ?_, fun h => ?_, by decide, by decide⟩
    · cases h
    · cases h
  have hledger : Ledger headlessOrjson headlessLayout _ _ :=
    .entered (.entered (.opened (d := fun _ => none) rfl) (.start (loneArgs true))
      (quiet 400 10) hmeets) .stop (quiet 400 10) trivial
  refine ⟨_, _, _, ?_, (no_group_is_lost hledger).1 [] _ [_] rfl 78 ?_⟩
  · decide +kernel
  · decide +kernel

end Ledger

end OnDisk

end Ptlab.Sim
