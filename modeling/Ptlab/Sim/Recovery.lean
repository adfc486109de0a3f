/-
What the calls of `Simulator` come to on the state file that a crash left.

All of them parse the file before they do anything else. If it has a whole
document they go on from there, and what they raise is a `SimError` or was raised
by the system (`Outside`); if a crash has cut the document, they raise
`JSONDecodeError`, whichever is called and however often (`torn_stays`). Two more
things can go wrong with a whole document: the guard of `terminate_process_groups`
refuses to signal ptlab's own group, and `start` raises a `TypeError` on a simulator
without a display (`verdict_headless`). `recovers_iff` is the exact condition.
-/
import Ptlab.Lib.Utf8
import Ptlab.Sim.Described
import Ptlab.Sim.Orphans

set_option autoImplicit false

open Effect Files Ptlab.Processes

namespace Ptlab.Sim.OnDisk

/-! ## What may be raised -/

/-- An exception of `start` that is a `SimError`, or that a call into the system
raised. -/
inductive Expected (env : Env) : PyExc → Prop
  | SimError (message : String) : Expected env (SimError message)
  | fault (p : Point) (error : PyExc) (h : env.fault p = some error) : Expected env error
  /-- The system has no port left. -/
  | ports : Expected env (.Exception "OSError" "")

section Start

variable {env : Env}

/-- Nothing else is raised. -/
abbrev Expects {α : Type} (env : Env) (m : Effect StartWorld PyExc α) : Prop :=
  Triple (fun _ => True) m (fun _ _ => True) (fun error _ => Expected env error)

theorem expects_point (p : Point) : Expects env (point env p) :=
  triple_point fun error h _ _ => .fault p error h

theorem expects_orRaise (ok : Bool) (message : String) : Expects env (orRaise ok message) :=
  triple_orRaise fun _ _ _ => .SimError message

theorem expects_pure {α : Type} (a : α) : Expects env (pure a : Effect StartWorld PyExc α) :=
  triple_pure fun _ h => h

theorem expects_update (f : StartWorld → StartWorld) :
    Expects env (update f : Effect StartWorld PyExc Unit) := triple_update fun _ h => h

theorem expects_read {α : Type} (f : StartWorld → α) :
    Expects env (Effect.read f : Effect StartWorld PyExc α) := triple_read fun _ h => h

theorem expects_skipIf {b : Bool} {m : Effect StartWorld PyExc Unit} (h : Expects env m) :
    Expects env (skipIf b m) := triple_skipIf (fun _ _ h => h) fun _ => h

theorem expects_ensure {α : Type} {m : Effect StartWorld PyExc α}
    {cleanup : Effect StartWorld PyExc Unit} (hm : Expects env m) (hc : Expects env cleanup) :
    Expects env (ensure m cleanup) :=
  triple_ensure hm (fun _ => hc) fun error s herror => by
    have hrun := hc s trivial
    rcases hs : cleanup.exec s with ⟨e | ⟨⟩, s'⟩ <;> rw [hs] at hrun
    · exact hrun
    · exact herror

theorem expects_onException {α : Type} {body : Effect StartWorld PyExc α}
    {handler : Effect StartWorld PyExc Unit} (hbody : Expects env body)
    (hhandler : Expects env handler) : Expects env (onException body handler) :=
  triple_onException hbody (fun error _ s herror => by
    have hrun := hhandler s trivial
    rcases hs : handler.exec s with ⟨e | ⟨⟩, s'⟩ <;> rw [hs] at hrun
    · exact hrun
    · exact herror) fun _ _ _ herror => herror

theorem expects_killXvfb (poll killpg : Point) : Expects env (killXvfb env poll killpg) := by
  unfold killXvfb
  refine triple_bind (expects_read _) fun process => ?_
  cases process with
  | none => exact expects_pure _
  | some pid =>
      refine triple_bind (expects_point _) fun _ => ?_
      split
      · exact triple_bind (expects_update _) fun _ => expects_point _
      · exact expects_pure _

theorem expects_spawnXvfb (display : Option String) : Expects env (spawnXvfb env display) := by
  unfold spawnXvfb
  refine triple_bind (expects_point _) fun _ => triple_bind (expects_update _) fun _ => ?_
  split
  · exact expects_pure _
  · refine triple_bind (expects_point _) fun _ => triple_bind (expects_point _) fun _ => ?_
    refine triple_bind (expects_orRaise _ _) fun _ => triple_bind (expects_point _) fun _ => ?_
    refine triple_bind (expects_point _) fun _ => triple_bind (expects_orRaise _ _) fun _ => ?_
    exact expects_pure _

theorem expects_wait_for_x (display : String) (turns : List (Fin 100)) :
    Expects env (_wait_for_x env display turns) :=
  wait_for_x_rule (fun message _ _ => .SimError message) (fun p _ => expects_point p) display turns

theorem expects_start_xvfb (display : Option String) : Expects env (_start_xvfb env display) := by
  unfold _start_xvfb
  refine triple_bind (expects_update _) fun _ => triple_bind (expects_point _) fun _ => ?_
  refine triple_bind (expects_point _) fun _ => triple_bind (expects_ensure
    (expects_onException (expects_spawnXvfb _) (expects_killXvfb _ _)) (expects_point _))
    fun chosen => ?_
  exact triple_bind (expects_onException (expects_wait_for_x _ _) (expects_killXvfb _ _))
    fun _ => expects_pure _

theorem expects_wait_for_tcp_listener (port : ℤ) (turns : List Bool) (n : ℕ) :
    Expects env (wait_for_tcp_listener env port n turns) :=
  wait_for_tcp_listener_rule (fun message _ _ => .SimError message) (fun p _ => expects_point p)
    port turns n

theorem expects_choosePorts (args : StartArgs) : Expects env (choosePorts env args) :=
  choosePorts_rule expects_point (fun message _ _ => .SimError message) (fun _ _ => .ports) args

theorem expects_findWindow (turns : List (Fin 200)) : Expects env (findWindow env turns) :=
  findWindow_rule (fun message _ _ => .SimError message) (fun p _ => expects_point p) turns

theorem expects_spawnSim : Expects env (spawnSim env) := by
  unfold spawnSim
  refine triple_bind (expects_point _) fun _ => ?_
  refine triple_bind (expects_skipIf (expects_point _)) fun _ => expects_ensure ?_ ?_
  · exact triple_bind (expects_point _) fun _ => expects_update _
  · exact triple_bind (expects_point _) fun _ => expects_skipIf (expects_point _)

theorem expects_launch (layout : SimLayout) (args : StartArgs) (bridge_port ble_control_port : ℤ) :
    Expects env (launch layout env args bridge_port ble_control_port) := by
  have hdisplay : Expects env (startDisplay env args) := by
    unfold startDisplay
    split
    · exact expects_pure _
    · refine triple_bind (expects_start_xvfb _) fun _ => ?_
      exact triple_bind (expects_update _) fun _ => expects_pure _
  have hwindow : Expects env (awaitWindow env args) := by
    unfold awaitWindow
    split
    · exact expects_pure _
    · exact triple_bind (expects_findWindow _) fun _ => expects_pure _
  unfold launch
  refine triple_bind hdisplay fun display => triple_bind (expects_point _) fun _ => ?_
  refine triple_bind (expects_point _) fun _ => triple_bind expects_spawnSim fun _ => ?_
  refine triple_bind hwindow fun window => triple_bind (expects_read _) fun state => ?_
  refine triple_bind (expects_skipIf (triple_bind (expects_point _) fun _ => expects_point _))
    fun _ => ?_
  refine triple_bind (expects_wait_for_tcp_listener _ _ 0) fun _ => ?_
  exact triple_bind (expects_point _) fun _ => expects_pure _

theorem expects_cleanUp : Expects env (cleanUp env) := by
  unfold cleanUp
  refine triple_bind (expects_update _) fun _ => triple_bind (expects_point _) fun _ => ?_
  exact triple_bind (expects_point _) fun _ => expects_update _

end Start

/-! ## What a call answers -/

/-- An exception that a call into the system, or to the display, or `orjson.dumps`
raised. -/
inductive Outside (setting : Setting) : CallExc → Prop
  | fault (p : Point) (error : PyExc) (h : setting.env.fault p = some error) :
      Outside setting (.raised error)
  | ports : Outside setting (.raised (.Exception "OSError" ""))
  | system (error : ProcessExc) (h : setting.host.Raises error) :
      Outside setting (.ofProcess error)
  | display (number : ℤ) (error : PyExc)
      (h : setting.around.getdisplaygeometry number = .error error) :
      Outside setting (.raised error)
  | encode : Outside setting JSONEncodeError

/-- What a call may raise: a `SimError`, or what it was given from outside. -/
def Allowed (setting : Setting) (error : CallExc) : Prop :=
  (∃ message, error = .raised (SimError message)) ∨ Outside setting error

/-- How a call may end. -/
def Answered (setting : Setting) : Except CallExc Unit → Prop
  | .ok () => True
  | .error error => Allowed setting error

section Answers

variable {orjson : Orjson} {layout : SimLayout} {setting : Setting}

/-- Nothing else is raised. -/
abbrev Answers {α : Type} (setting : Setting) (m : OnFile α) : Prop :=
  Triple (fun _ => True) m (fun _ _ => True) (fun error _ => Allowed setting error)

/-- A part of `start` leaves the disk and the processes alone. -/
theorem onLocals_keeps {α : Type} {m : Effect StartWorld PyExc α} (h : Expects setting.env m)
    (P : Disk String → Trace → Prop) :
    Triple (fun w => P w.disk w.processes) (onLocals m) (fun _ w => P w.disk w.processes)
      fun error _ => Allowed setting error := by
  have hallowed : Triple (fun _ => True) (mapException CallExc.raised m) (fun _ _ => True)
      fun error _ => Allowed setting error := by
    refine triple_mapException (h.raises ?_)
    rintro error _ (message | ⟨p, _, hfault⟩ | _)
    · exact .inl ⟨message, rfl⟩
    · exact .inr (.fault p error hfault)
    · exact .inr .ports
  have hframe : Triple (fun w => P w.disk w.processes) (onLocals m)
      (fun _ w => P w.disk w.processes)
      fun error w => P w.disk w.processes ∧ Allowed setting error :=
    triple_zoom_frame (fun _ _ hw => hw) hallowed
  exact hframe.raises fun _ _ herror => herror.2

theorem answers_onLocals {α : Type} {m : Effect StartWorld PyExc α}
    (h : Expects setting.env m) : Answers setting (onLocals m) :=
  onLocals_keeps h fun _ _ => True

theorem answers_perform (op : Op String) : Answers setting (perform op) :=
  triple_update fun _ h => h

theorem answers_dump_json (state : StateDict) :
    Answers setting (_dump_json orjson layout setting state) := by
  unfold _dump_json
  rcases orjson.dumps state with _ | text
  · exact triple_throw fun _ _ => .inr .encode
  rcases hfault : setting.env.fault .write_state with _ | error
  · dsimp only
    exact answers_perform _
  · dsimp only
    refine triple_bind (Q := fun _ _ => True) ?_ fun _ =>
      triple_throw fun _ _ => .inr (.fault _ error hfault)
    unfold writePart
    split
    · exact triple_pure fun _ h => h
    · exact answers_perform _

theorem answers_startFresh (args : StartArgs) :
    Answers setting (startFresh orjson layout setting args) := by
  have hbody : ∀ bridge_port ble_control_port,
      Answers setting (startBody orjson layout setting args bridge_port ble_control_port) := by
    intro bridge_port ble_control_port
    unfold startBody
    refine triple_bind (answers_onLocals (expects_launch _ _ _ _)) fun state => ?_
    refine triple_bind (answers_dump_json state) fun _ => ?_
    exact triple_bind (answers_onLocals (expects_point _)) fun _ => triple_pure fun _ h => h
  have hhandler : ∀ error, Allowed setting error →
      Answers setting (startHandler layout setting error) := by
    intro error herror
    unfold startHandler
    split
    · refine triple_bind (answers_onLocals expects_cleanUp) fun _ => ?_
      exact triple_bind (answers_perform _) fun _ => triple_throw fun _ _ => herror
    · exact triple_throw fun _ _ => herror
  unfold startFresh
  refine triple_bind (answers_onLocals (expects_choosePorts args)) fun ports => ?_
  exact triple_tryCatch (hbody _ _) fun error s herror => hhandler error herror s trivial

/-- The file has this state, whole; the newline behind it may be missing. -/
def Holds (orjson : Orjson) (layout : SimLayout) (d : Disk String) (state : StateDict) : Prop :=
  ∃ text, orjson.dumps state = some text ∧
    (d layout.state = some text ∨ d layout.state = some (text ++ [0x0A]))

/-- There is no state file, or it has a whole document. -/
def Whole (orjson : Orjson) (layout : SimLayout) (d : Disk String) : Prop :=
  d layout.state = none ∨ ∃ state, Holds orjson layout d state

theorem Holds.read {d : Disk String} {state : StateDict} (h : Holds orjson layout d state) :
    ∃ bytes, d layout.state = some bytes ∧ orjson.loads bytes = some state := by
  obtain ⟨text, htext, hfile | hfile⟩ := h
  · have hloads := orjson.loads_dumps state text [] htext fun b hb => absurd hb List.not_mem_nil
    rw [List.append_nil] at hloads
    exact ⟨text, hfile, hloads⟩
  · exact ⟨_, hfile, orjson.loads_dumps state text [0x0A] htext
      (List.forall_mem_singleton.mpr (by decide))⟩

/-- **A document that a crash has cut is not read.** -/
theorem Found.torn {d : Disk String} (h : Found orjson layout d)
    (hwhole : ¬ Whole orjson layout d) :
    ∃ bytes, d layout.state = some bytes ∧ orjson.loads bytes = none := by
  rcases h with hnone | ⟨state, text, part, htext, hfile, hpart⟩
  · exact absurd (.inl hnone) hwhole
  refine ⟨part, hfile, ?_⟩
  -- what is written is the text and a line feed: all but the last byte is a whole state too
  have hcut : part <+: text ∧ part ≠ text := by
    rcases Json.prefix_append_cases hpart with hpart | ⟨rest, hrest, rfl⟩
    · refine ⟨hpart, ?_⟩
      rintro rfl
      exact hwhole (.inr ⟨state, part, htext, .inl hfile⟩)
    · rcases List.prefix_cons_iff.mp hrest with rfl | ⟨rest', rfl, hrest'⟩
      · rw [List.append_nil] at hfile
        exact absurd (.inr ⟨state, text, htext, .inl hfile⟩) hwhole
      · rw [List.prefix_nil.mp hrest'] at hfile
        exact absurd (.inr ⟨state, text, htext, .inr hfile⟩) hwhole
  rcases hloads : orjson.loads part with _ | other
  · rfl
  · exact absurd (orjson.loads_text part other hloads)
      (Json.not_isText_of_cut (orjson.dumps_object state text htext) hcut.1 hcut.2)

end Answers

/-! ## The calls on a whole file -/

/-- Whether a call may come to terminate what the file has. -/
def Call.Terminates : Call → Prop
  | .start _ | .stop | .restart _ => True
  | .kill | .status => False

/-- Whether a call asks for the verdict on what the file has. -/
def Call.Starts : Call → Prop
  | .start _ => True
  | .stop | .kill | .status | .restart _ => False

/-- What has been done to the processes when a call comes to terminate them. -/
def Call.asked (around : Around) (host : Host) (state : StateDict) (w : DiskWorld) : Call → Trace
  | .start _ => ((existing_state_is_healthy around host (document state)).exec w).2.processes
  | .stop | .kill | .status | .restart _ => w.processes

/-- Whatever the system does, provided that its clock gets on, the call ends, and as
it may. -/
def Recovers (orjson : Orjson) (layout : SimLayout) (d : Disk String) (call : Call)
    (getpgrp : ℤ) : Prop :=
  ∀ (host : Host) (around : Around) (env : Env) (cut : Option ℕ),
    host.getpgrp = getpgrp → host.Runs →
    ∃ enough, ∀ fuel, enough ≤ fuel → Answered ⟨host, around, env, fuel, cut⟩
      ((call.run orjson layout ⟨host, around, env, fuel, cut⟩).exec (.initial d)).1

/-- No group in the file is ptlab's own. -/
def Foreign (orjson : Orjson) (layout : SimLayout) (d : Disk String) (getpgrp : ℤ) : Prop :=
  ∀ state, Holds orjson layout d state →
    ∀ ref ∈ guarded (_process_refs state.toSimState), ref.pgid ≠ getpgrp

/-- The simulator in the file has a display. -/
def Displayed (orjson : Orjson) (layout : SimLayout) (d : Disk String) : Prop :=
  ∀ state, Holds orjson layout d state → state.headless = false

section Calls

variable {orjson : Orjson} {layout : SimLayout} {setting : Setting}

theorem terminateRecorded_raises {host : Host} (hruns : host.Runs) {state : SimState}
    (hown : ∀ ref ∈ guarded (_process_refs state), ref.pgid ≠ host.getpgrp) (t : Trace) :
    ∃ enough, ∀ fuel, enough ≤ fuel → ∀ e,
      ((terminateRecorded host fuel state).exec t).1 = .error e → host.Raises e := by
  unfold terminateRecorded
  split
  · exact terminate_process_groups_raises hruns hown 3 t
  · exact terminate_pids_raises hruns _ 3 t

theorem answers_onProcesses {α : Type} {m : Effect Trace ProcessExc α}
    (h : Triple (fun _ => True) m (fun _ _ => True) fun e _ => setting.host.Raises e) :
    Answers setting (onProcesses m) := by
  have hallowed : Triple (fun _ => True) (mapException CallExc.ofProcess m) (fun _ _ => True)
      fun error _ => Allowed setting error :=
    triple_mapException (h.raises fun error _ herror => .inr (.system error herror))
  exact (triple_zoom_frame (fun _ _ _ => trivial) hallowed).raises fun _ _ herror => herror.2

theorem answers_alive (pid : ℤ) : Answers setting (alive setting.host pid) :=
  answers_onProcesses ((fair_process_is_alive (r := 0) pid).conseq (fun _ _ => Nat.zero_le _)
    (fun _ _ _ => trivial) fun _ _ h => h)

/-- What `display_is_active` raises is what running `xdotool` raised. -/
theorem display_is_active_error {around : Around} {number : ℤ} {error : PyExc}
    (h : display_is_active around number = .error error) :
    around.getdisplaygeometry number = .error error := by
  unfold display_is_active at h
  split at h
  · cases h
  next raised hraised =>
    split_ifs at h
    rw [hraised, Except.error.inj h]

/-- The verdict on a simulator with a display raises what its questions raise. -/
theorem answers_verdict {state : StateDict} (h : Described state)
    (hheadless : state.headless = false) :
    Answers setting (existing_state_is_healthy setting.around setting.host (document state)) := by
  obtain ⟨sim_pid, xvfb_pid, display, -, -, -, hrun⟩ := verdict_display h hheadless
  have hactive : ∀ number, Answers setting
      (lift ((display_is_active setting.around number).mapError .raised)) := by
    intro number w _
    rw [exec_lift]
    rcases hactive : display_is_active setting.around number with error | active
    · exact .inr (.display number error (display_is_active_error hactive))
    · trivial
  have hall : ∀ number,
      Answers setting (allAnswer setting.around setting.host sim_pid xvfb_pid number) := by
    intro number
    unfold allAnswer
    refine triple_bind (answers_alive _) fun simAlive => ?_
    split_ifs
    · refine triple_bind (answers_alive _) fun xvfbAlive => ?_
      split_ifs
      · exact hactive number
      · exact triple_pure fun _ h => h
    · exact triple_pure fun _ h => h
  have hrest :
      Answers setting (allAsked setting.around setting.host sim_pid xvfb_pid display) := by
    unfold allAsked
    split_ifs
    · rcases setting.around.int (displayNumber display) with _ | number
      · exact triple_pure fun _ h => h
      · exact hall number
    · exact triple_pure fun _ h => h
  intro w hw
  rw [hrun _ _ w]
  exact hrest w hw

theorem simPid_described {state : StateDict} (h : Described state) (setting : Setting) :
    ∃ pid, simPid setting state = .ok pid := by
  obtain ⟨pid, hpid, hsim, -⟩ := h.sim
  have hrefs : _process_refs state.toSimState =
      ⟨pid, pid, "sim"⟩ :: processRef "xvfb" state.xvfb := by
    unfold _process_refs
    rw [hsim, processRef, if_pos ⟨hpid, hpid⟩]
    rfl
  refine ⟨pid, ?_⟩
  unfold simPid
  rw [hrefs]
  rfl

/-- Without a file there is nothing to stop. -/
theorem stop_none {E : CallExc → DiskWorld → Prop} :
    Triple (fun w => w.disk layout.state = none) (stop orjson layout setting)
      (fun _ w => w.disk layout.state = none) E := by
  intro w hw
  unfold stop
  rw [exec_bind, exec_stateExists_none hw]
  exact hw

theorem start_none (args : StartArgs) :
    Triple (fun w => w.disk layout.state = none) (start orjson layout setting args)
      (fun _ _ => True) fun error _ => Allowed setting error := by
  unfold start
  refine triple_bind (onLocals_keeps (expects_point _) fun d _ => d layout.state = none)
    fun _ => ?_
  refine triple_bind (Q := fun there _ => there = false) (fun w hw => ?_) fun there => ?_
  · rw [exec_stateExists_none hw]
  · rintro w rfl
    exact answers_startFresh args w trivial

section Read

variable {bytes : List UInt8} {state : StateDict} {t : Trace}

theorem exec_load_json_read (hstate : orjson.loads bytes = some state)
    {w : DiskWorld} (hfile : w.disk layout.state = some bytes) :
    (_load_json orjson layout).exec w = (.ok state, w) := by
  unfold _load_json
  rw [exec_bind, exec_read]
  simp only [hfile, hstate, exec_pure]

theorem stateExists_read {P : DiskWorld → Prop}
    (hP : ∀ w, P w → w.disk layout.state = some bytes) {E : CallExc → DiskWorld → Prop} :
    Triple P (stateExists layout) (fun there w => P w ∧ there = true) E := by
  intro w hw
  rw [exec_stateExists_file (hP w hw)]
  exact ⟨hw, rfl⟩

variable (hstate : orjson.loads bytes = some state)
include hstate

theorem load_json_read {P : DiskWorld → Prop} (hP : ∀ w, P w → w.disk layout.state = some bytes)
    {E : CallExc → DiskWorld → Prop} :
    Triple P (_load_json orjson layout) (fun loaded w => P w ∧ loaded = state) E := by
  intro w hw
  rw [exec_load_json_read hstate (hP w hw)]
  exact ⟨hw, rfl⟩

theorem kill_read : Triple (fun w => w.disk layout.state = some bytes) (kill orjson layout setting)
    (fun _ _ => True) fun error _ => Allowed setting error := by
  have htarget : ∀ target, Triple (fun _ => True) (killTarget setting target) (fun _ _ => True)
      fun e _ => setting.host.Raises e := by
    intro target
    have hfair : Fair setting.host 0 (killTarget setting target) := by
      unfold killTarget
      refine triple_bind (fair_process_is_alive _) fun isAlive => ?_
      split
      · split
        · exact fair_send _ _
        · exact fair_send _ _
      · exact triple_pure fun _ h => h
    exact hfair.conseq (fun _ _ => Nat.zero_le _) (fun _ _ _ => trivial) fun _ _ h => h
  unfold kill
  refine triple_bind (stateExists_read fun _ h => h) fun there => ?_
  refine triple_assume fun hthere => ?_
  rw [if_pos hthere]
  refine triple_bind (load_json_read hstate fun _ h => h) fun loaded => ?_
  refine Triple.conseq (P := fun _ => True) ?_ (fun _ _ => trivial) (fun _ _ h => h) fun _ _ h => h
  refine triple_bind (answers_onProcesses (triple_forM fun target _ => htarget target)) fun _ => ?_
  exact triple_bind (answers_perform _) fun _ => triple_pure fun _ h => h

theorem status_read (hdescribed : Described state) :
    Triple (fun w => w.disk layout.state = some bytes)
    (status orjson layout setting) (fun _ _ => True) fun error _ => Allowed setting error := by
  obtain ⟨pid, hpid⟩ := simPid_described hdescribed setting
  unfold status
  refine triple_bind (stateExists_read fun _ h => h) fun there => ?_
  refine triple_assume fun hthere => ?_
  rw [if_pos hthere]
  refine triple_bind (load_json_read hstate fun _ h => h) fun loaded => ?_
  refine triple_assume fun hloaded => ?_
  refine Triple.conseq (P := fun _ => True) ?_ (fun _ _ => trivial) (fun _ _ h => h) fun _ _ h => h
  rw [hloaded, hpid]
  refine triple_bind (Q := fun _ _ => True) (fun _ h => h) fun sim_pid => ?_
  split
  · exact triple_bind (answers_alive _) fun _ => triple_pure fun _ h => h
  · exact triple_pure fun _ h => h

theorem stop_read (hterminates : ∀ e,
    ((terminateRecorded setting.host setting.fuel state.toSimState).exec t).1 = .error e →
      setting.host.Raises e) :
    Triple (fun w => w.disk layout.state = some bytes ∧ w.processes = t)
      (stop orjson layout setting) (fun _ w => w.disk layout.state = none)
      fun error _ => Allowed setting error := by
  rintro w ⟨hfile, rfl⟩
  rw [exec_stop hfile hstate]
  rcases hrun : (terminateRecorded setting.host setting.fuel state.toSimState).exec w.processes with
    ⟨e | ⟨⟩, t⟩
  · exact .inr (.system e (hterminates e (by rw [hrun])))
  · exact Function.update_self ..

theorem start_read (hdescribed : Described state) (hheadless : state.headless = false)
    {w₀ : DiskWorld} (hfile : w₀.disk layout.state = some bytes)
    (hterminates : ∀ e, ((terminateRecorded setting.host setting.fuel state.toSimState).exec
      ((existing_state_is_healthy setting.around setting.host
        (document state)).exec w₀).2.processes).1 = .error e → setting.host.Raises e)
    (args : StartArgs) :
    Triple (fun w => w = w₀) (start orjson layout setting args) (fun _ _ => True)
      fun error _ => Allowed setting error := by
  have hpoint : ∀ p, Triple (fun w => w = w₀) (onLocals (point setting.env p))
      (fun _ w => w = w₀) fun error _ => Allowed setting error := by
    rintro p w rfl
    rw [exec_onLocals_point]
    rcases hfault : setting.env.fault p with _ | error
    · rfl
    · exact .inr (.fault p error hfault)
  have hthere : ∀ w, w = w₀ → w.disk layout.state = some bytes := fun w hw => hw ▸ hfile
  -- the verdict asks, and leaves the file where it is
  have hverdict : Triple (fun w => w = w₀)
      (existing_state_is_healthy setting.around setting.host (document state))
      (fun _ w => w.disk layout.state = some bytes ∧ w.processes =
        ((existing_state_is_healthy setting.around setting.host
          (document state)).exec w₀).2.processes)
      fun error _ => Allowed setting error := by
    have hdisk : Always (fun w => w.disk layout.state = some bytes)
        (existing_state_is_healthy setting.around setting.host (document state)) :=
      verdict_rule (always_alive fun _ _ hw => hw) _
    rintro w rfl
    rcases hrun : (existing_state_is_healthy setting.around setting.host
      (document state)).exec w with ⟨error | healthy, w'⟩
    · exact (answers_verdict hdescribed hheadless).of_error trivial hrun
    · exact ⟨hdisk.of_ok hfile hrun, rfl⟩
  unfold start
  refine triple_bind (hpoint _) fun _ => ?_
  refine triple_bind (stateExists_read hthere) fun there => ?_
  refine triple_assume fun hexists => ?_
  rw [if_pos hexists]
  refine triple_bind (hpoint _) fun _ => ?_
  refine triple_bind (load_json_read hstate hthere) fun loaded => ?_
  refine triple_assume fun hloaded => ?_
  rw [hloaded]
  refine triple_bind hverdict fun healthy => ?_
  split
  · exact triple_pure fun _ _ => trivial
  · refine triple_bind (stop_read hstate hterminates) fun _ => ?_
    exact (answers_startFresh args).conseq (fun _ _ => trivial) (fun _ _ h => h) fun _ _ h => h

end Read

theorem kill_none {E : CallExc → DiskWorld → Prop} :
    Triple (fun w => w.disk layout.state = none) (kill orjson layout setting) (fun _ _ => True)
      E := by
  intro w hw
  unfold kill
  rw [exec_bind, exec_stateExists_none hw]
  trivial

theorem status_none {E : CallExc → DiskWorld → Prop} :
    Triple (fun w => w.disk layout.state = none) (status orjson layout setting) (fun _ _ => True)
      E := by
  intro w hw
  unfold status
  rw [exec_bind, exec_stateExists_none hw]
  trivial

/-- A call that is answered from a world is answered. -/
theorem answered_of_triple {α : Type} {P : DiskWorld → Prop} {m : OnFile α}
    {Q : α → DiskWorld → Prop}
    (h : Triple P m Q fun error _ => Allowed setting error) {w : DiskWorld} (hw : P w) :
    Answered setting (exec (do let _ ← m) w).1 := by
  rw [exec_bind]
  rcases hrun : m.exec w with ⟨error | a, w'⟩
  · exact h.of_error hw hrun
  · trivial

/-- **Without a state file** every call ends as it may. -/
theorem answered_none {d : Disk String} (hnone : d layout.state = none) (call : Call) :
    Answered setting ((call.run orjson layout setting).exec (.initial d)).1 := by
  have hw : (DiskWorld.initial d).disk layout.state = none := hnone
  cases call with
  | start args => exact answered_of_triple (start_none args) hw
  | stop => exact answered_of_triple stop_none hw
  | kill => exact answered_of_triple kill_none hw
  | status => exact answered_of_triple status_none hw
  | restart args => exact answered_of_triple (triple_bind stop_none fun _ => start_none args) hw

/-- **On a whole file** every call ends as it may, if `terminateRecorded` does, and if
there is a display for `start` to ask about. -/
theorem answered_read {d : Disk String} {bytes : List UInt8} {state : StateDict}
    (hfile : d layout.state = some bytes) (hstate : orjson.loads bytes = some state)
    (hdescribed : Described state) (call : Call)
    (hheadless : call.Starts → state.headless = false)
    (hterminates : call.Terminates → ∀ e,
      ((terminateRecorded setting.host setting.fuel state.toSimState).exec
        (call.asked setting.around setting.host state (.initial d))).1 =
        .error e → setting.host.Raises e) :
    Answered setting ((call.run orjson layout setting).exec (.initial d)).1 := by
  have hw : (DiskWorld.initial d).disk layout.state = some bytes ∧
      (DiskWorld.initial d).processes = ⟨0, 0, []⟩ := ⟨hfile, rfl⟩
  cases call with
  | start args =>
      exact answered_of_triple (start_read hstate hdescribed (hheadless trivial) hw.1
        (hterminates trivial) args) rfl
  | stop => exact answered_of_triple (stop_read hstate (hterminates trivial)) hw
  | kill => exact answered_of_triple (kill_read hstate) hw.1
  | status => exact answered_of_triple (status_read hstate hdescribed) hw.1
  | restart args =>
      exact answered_of_triple
        (triple_bind (stop_read hstate (hterminates trivial)) fun _ => start_none args) hw

theorem recovers_of_whole {d : Disk String} (hdescribes : Describes orjson layout d)
    (hwhole : Whole orjson layout d) {call : Call} {getpgrp : ℤ}
    (hforeign : call.Terminates → Foreign orjson layout d getpgrp)
    (hdisplayed : call.Starts → Displayed orjson layout d) :
    Recovers orjson layout d call getpgrp := by
  rintro host around env cut rfl hruns
  rcases hwhole with hnone | ⟨state, hholds⟩
  · exact ⟨0, fun fuel _ => answered_none hnone call⟩
  obtain ⟨bytes, hfile, hstate⟩ := hholds.read
  have hdescribed : Described state := hdescribes state (by rw [hfile]; exact hstate)
  have hheadless : call.Starts → state.headless = false :=
    fun hcall => hdisplayed hcall state hholds
  by_cases hcall : call.Terminates
  · obtain ⟨enough, hall⟩ := terminateRecorded_raises hruns (hforeign hcall state hholds)
      (call.asked around host state (.initial d))
    exact ⟨enough, fun fuel hfuel =>
      answered_read hfile hstate hdescribed call hheadless fun _ => hall fuel hfuel⟩
  · exact ⟨0, fun fuel _ =>
      answered_read hfile hstate hdescribed call hheadless fun h => absurd h hcall⟩

end Calls

/-! ## The calls on a file that is not read -/

section Unread

variable {orjson : Orjson} {layout : SimLayout} {setting : Setting} {bytes : List UInt8}

/-- The world a call leaves when it has done nothing, and what it raises. -/
structure Refused (setting : Setting) (w : DiskWorld) (run : Except CallExc Unit × DiskWorld) :
    Prop where
  disk : run.2.disk = w.disk
  ops : run.2.ops = w.ops
  error : run.1 = .error JSONDecodeError ∨
    ∃ p error, setting.env.fault p = some error ∧ run.1 = .error (.raised error)

theorem exec_load_json_unread (hunread : orjson.loads bytes = none) {w : DiskWorld}
    (hfile : w.disk layout.state = some bytes) :
    (_load_json orjson layout).exec w = (.error JSONDecodeError, w) := by
  unfold _load_json
  rw [exec_bind, exec_read]
  simp only [hfile, hunread, exec_throw]

/-- **A torn document stays torn.** Whatever is called on a file that is not read does
nothing to it and raises `JSONDecodeError`, or a fault that comes before. -/
theorem torn_stays (hunread : orjson.loads bytes = none) {d : Disk String}
    (hfile : d layout.state = some bytes) (call : Call) :
    Refused setting (.initial d) ((call.run orjson layout setting).exec (.initial d)) := by
  have hw : (DiskWorld.initial d).disk layout.state = some bytes := hfile
  have hload := exec_load_json_unread hunread hw
  have hexists := exec_stateExists_file hw
  have hstop : (stop orjson layout setting).exec (.initial d) =
      (.error JSONDecodeError, .initial d) := by
    unfold stop
    rw [exec_bind, hexists]
    simp only [if_true]
    rw [exec_bind, hload]
  cases call with
  | start args =>
      -- the two points in front of the parse may raise faults of their own
      unfold Call.run start
      rw [exec_bind, exec_bind, exec_onLocals_point]
      rcases hfault : setting.env.fault .state_exists with _ | error
      · dsimp only
        rw [exec_bind, hexists]
        simp only [if_true]
        rw [exec_bind, exec_onLocals_point]
        rcases hfault' : setting.env.fault .load_json with _ | error
        · dsimp only
          rw [exec_bind, hload]
          exact ⟨rfl, rfl, .inl rfl⟩
        · exact ⟨rfl, rfl, .inr ⟨_, _, hfault', rfl⟩⟩
      · exact ⟨rfl, rfl, .inr ⟨_, _, hfault, rfl⟩⟩
  | stop =>
      unfold Call.run
      rw [exec_bind, hstop]
      exact ⟨rfl, rfl, .inl rfl⟩
  | kill =>
      unfold Call.run kill
      rw [exec_bind, exec_bind, hexists]
      simp only [if_true]
      rw [exec_bind, hload]
      exact ⟨rfl, rfl, .inl rfl⟩
  | status =>
      unfold Call.run status
      rw [exec_bind, exec_bind, hexists]
      simp only [if_true]
      rw [exec_bind, hload]
      exact ⟨rfl, rfl, .inl rfl⟩
  | restart args =>
      unfold Call.run restart
      rw [exec_bind, exec_bind, hstop]
      exact ⟨rfl, rfl, .inl rfl⟩

end Unread

/-! ## The condition -/

/-- Nothing is raised, no display answers, and every process is there and takes its
signals. -/
def quiet (getpgrp : ℤ) (fuel : ℕ) : Setting where
  host := obliging 500 getpgrp
  around := ⟨fun text => text.toInt?, fun _ => .ok 1⟩
  env := { dying with xvfb_alive := fun _ => true }
  fuel := fuel
  cut := none

theorem obliging_runs (getpid getpgrp : ℤ) : (obliging getpid getpgrp).Runs := by
  intro deadline
  obtain ⟨n, hn⟩ := exists_nat_ge deadline
  refine ⟨n, fun m hm => hn.trans ?_⟩
  have hle : (n : ℚ) ≤ m := by exact_mod_cast hm
  exact hle

theorem allowed_quiet {getpgrp : ℤ} {fuel : ℕ} {type message : String}
    (h : Allowed (quiet getpgrp fuel) (.raised (.Exception type message))) :
    type ∈ ["SimError", "OSError", "JSONEncodeError"] := by
  rcases h with ⟨text, h⟩ | h
  · injection h with h
    injection h with htype
    rw [htype]
    decide
  · -- of what comes from outside, a quiet system leaves the ports and `orjson.dumps`
    generalize herror : CallExc.raised (.Exception type message) = error at h
    cases h with
    | fault p error h => cases h
    | ports =>
        injection herror with herror
        injection herror with htype
        rw [htype]
        decide
    | system error h =>
        cases h with
        | probe n pid message h => cases h
        | denied n s h => cases h
        | deliver n s message h => cases h
    | display number error h => cases h
    | encode =>
        injection herror with herror
        injection herror with htype
        rw [htype]
        decide

section Condition

variable {orjson : Orjson} {layout : SimLayout} {d : Disk String} {call : Call} {getpgrp : ℤ}

/-- The guard of `terminate_process_groups`. -/
theorem terminateRecorded_own {host : Host} {fuel : ℕ} {state : SimState} {ref : ProcessRef}
    (href : ref ∈ guarded (_process_refs state)) (hown : ref.pgid = host.getpgrp) (t : Trace) :
    (terminateRecorded host fuel state).exec t =
      (.error (.RuntimeError "refusing to terminate the ptlab process group"), t) := by
  have hrefs : _process_refs state ≠ [] := List.ne_nil_of_mem (List.mem_of_mem_filter href)
  have hany : (guarded (_process_refs state)).any fun ref => ref.pgid = host.getpgrp :=
    List.any_eq_true.mpr ⟨ref, href, decide_eq_true hown⟩
  unfold terminateRecorded terminate_process_groups
  rw [if_pos hrefs]
  dsimp only
  rw [if_pos hany, exec_throw]

/-- The verdict, with no display there: two questions at most, and it is not healthy. -/
theorem verdict_quiet (getpgrp : ℤ) (fuel : ℕ) {state : StateDict} (h : Described state)
    (hheadless : state.headless = false) (w : DiskWorld) :
    ∃ w', (existing_state_is_healthy (quiet getpgrp fuel).around (quiet getpgrp fuel).host
        (document state)).exec w = (.ok false, w') ∧ w'.disk = w.disk := by
  obtain ⟨sim_pid, xvfb_pid, display, -, -, -, hrun⟩ := verdict_display h hheadless
  rw [hrun _ _ w]
  unfold allAsked
  split_ifs
  · rcases (quiet getpgrp fuel).around.int (displayNumber display) with _ | number
    · exact ⟨w, rfl, rfl⟩
    · exact ⟨_, rfl, rfl⟩
  · exact ⟨w, rfl, rfl⟩

theorem undisturbed_quiet (fuel : ℕ) : Undisturbed (quiet getpgrp fuel) := ⟨rfl, rfl⟩

/-- `stop`, and what comes to it, on a file that has ptlab's own group. -/
theorem run_own {bytes : List UInt8} {state : StateDict} {ref : ProcessRef} {fuel : ℕ}
    (hfile : d layout.state = some bytes) (hstate : orjson.loads bytes = some state)
    (href : ref ∈ guarded (_process_refs state.toSimState)) (hown : ref.pgid = getpgrp)
    (hcall : call.Terminates) (hdescribed : Described state)
    (hheadless : call.Starts → state.headless = false) :
    ((call.run orjson layout (quiet getpgrp fuel)).exec (.initial d)).1 = .error
      (.raised (.Exception "RuntimeError" "refusing to terminate the ptlab process group")) := by
  have hstop : ∀ w : DiskWorld, w.disk = d →
      (stop orjson layout (quiet getpgrp fuel)).exec w = (.error (.raised
        (.Exception "RuntimeError" "refusing to terminate the ptlab process group")), w) := by
    rintro w rfl
    have hrun : (terminateRecorded (quiet getpgrp fuel).host (quiet getpgrp fuel).fuel
        state.toSimState).exec w.processes = _ := terminateRecorded_own href hown _
    rw [exec_stop hfile hstate, hrun]
    rfl
  cases call with
  | start args =>
      have hread : ((DiskWorld.initial d).disk layout.state).bind orjson.loads = some state := by
        change (d layout.state).bind _ = _
        rw [hfile]
        exact hstate
      -- the simulator in the file is not healthy, so `start` comes to `stop`
      obtain ⟨w, hverdict, hdisk⟩ := verdict_quiet getpgrp fuel hdescribed
        (hheadless trivial) (.initial d)
      unfold Call.run
      rw [exec_bind, start_reads (undisturbed_quiet fuel) hread, hverdict]
      dsimp only
      rw [exec_bind, hstop w hdisk]
  | stop =>
      unfold Call.run
      rw [exec_bind, hstop _ rfl]
  | kill => exact hcall.elim
  | status => exact hcall.elim
  | restart args =>
      unfold Call.run restart
      rw [exec_bind, exec_bind, hstop _ rfl]

/-- `start` on a simulator without a display. -/
theorem run_headless {bytes : List UInt8} {state : StateDict} {fuel : ℕ}
    (hfile : d layout.state = some bytes) (hstate : orjson.loads bytes = some state)
    (hcall : call.Starts) (hdescribed : Described state) (hheadless : state.headless = true) :
    ((call.run orjson layout (quiet getpgrp fuel)).exec (.initial d)).1 =
      .error (intTypeError "NoneType") := by
  cases call with
  | start args =>
      have hread : ((DiskWorld.initial d).disk layout.state).bind orjson.loads = some state := by
        change (d layout.state).bind _ = _
        rw [hfile]
        exact hstate
      unfold Call.run
      rw [exec_bind, start_reads (undisturbed_quiet fuel) hread, verdict_headless hdescribed hheadless]
  | stop => exact hcall.elim
  | kill => exact hcall.elim
  | status => exact hcall.elim
  | restart args => exact hcall.elim

end Condition

/-! ## A headless simulator -/

/-- orjson, as far as it concerns one state. -/
def Orjson.only (state : StateDict) (text : List UInt8) (h : Json.IsObject text) : Orjson where
  dumps := fun other => if other = state then some text else none
  loads := fun bytes =>
    if text <+: bytes ∧ (bytes.drop text.length).all (fun b => Json.IsSpace b) then some state
    else none
  dumps_object := by
    intro other text' hdumps
    split_ifs at hdumps
    exact Option.some.inj hdumps ▸ h
  loads_dumps := by
    intro other text' space hdumps hspace
    split_ifs at hdumps with hother
    obtain rfl := Option.some.inj hdumps
    have hbehind : ((text ++ space).drop text.length).all (fun b => Json.IsSpace b) := by
      rw [List.drop_left]
      exact List.all_iff_forall_prop.mpr hspace
    rw [hother, if_pos ⟨List.prefix_append .., hbehind⟩]
  loads_text := by
    intro bytes other hloads
    split_ifs at hloads with hbytes
    obtain ⟨⟨rest, rfl⟩, hspace⟩ := hbytes
    rw [List.drop_left, List.all_iff_forall_prop] at hspace
    exact h.isText hspace

theorem Orjson.only_dumps {state other : StateDict} {text text' : List UInt8}
    {h : Json.IsObject text} :
    (Orjson.only state text h).dumps other = some text' ↔ other = state ∧ text' = text := by
  unfold Orjson.only
  dsimp only
  split_ifs with hother
  · simp only [Option.some.injEq, hother, true_and, eq_comm]
  · simp only [hother, false_and]

def headlessLayout : SimLayout where
  run := "sim/run"
  flash := "sim/flash"
  shots := "sim/shots"
  state := "sim/state.json"
  stdout := "sim/logs/sim.stdout.log"
  stderr := "sim/logs/sim.stderr.log"

/-- What `start` records of a simulator without a display. -/
def headlessState : StateDict where
  sim := some ⟨some 78, some 78⟩
  xvfb := none
  sim_pid := some 78
  xvfb_pid := none
  display := none
  bridge_port := 1
  gatt_port := 1
  ble_control_port := some 2
  headless := true
  window := none
  zoom := 1
  paths := ⟨"sim/run", "sim/flash", "sim/shots", "sim/logs/sim.stdout.log",
    "sim/logs/sim.stderr.log"⟩
  alive := none

/-- The octets of a text. -/
def octets (text : String) : List UInt8 := Utf8.encode text.toList

/-- Its document. -/
def headlessText : List UInt8 :=
  Json.writeObject (octets "  ") []
    [(octets "ble_control_port", octets "2"),
      (octets "bridge_port", octets "1"),
      (octets "display", octets "null"),
      (octets "gatt_port", octets "1"),
      (octets "headless", octets "true"),
      (octets "paths", Json.writeObject (octets "    ") (octets "  ")
        [(octets "flash", [Json.QUOTE] ++ octets "sim/flash" ++ [Json.QUOTE]),
          (octets "run", [Json.QUOTE] ++ octets "sim/run" ++ [Json.QUOTE]),
          (octets "shots", [Json.QUOTE] ++ octets "sim/shots" ++ [Json.QUOTE]),
          (octets "stderr", [Json.QUOTE] ++ octets "sim/logs/sim.stderr.log" ++ [Json.QUOTE]),
          (octets "stdout", [Json.QUOTE] ++ octets "sim/logs/sim.stdout.log" ++ [Json.QUOTE])]),
      (octets "sim", Json.writeObject (octets "    ") (octets "  ")
        [(octets "pgid", octets "78"), (octets "pid", octets "78")]),
      (octets "sim_pid", octets "78"),
      (octets "window", octets "null"),
      (octets "xvfb_pid", octets "null"),
      (octets "zoom", octets "1")]

theorem spaces_of_all {text : List UInt8} (h : text.all fun b => decide (Json.IsSpace b)) :
    ∀ b ∈ text, Json.IsSpace b :=
  List.all_iff_forall_prop.mp h

theorem chars_of_all {text : List UInt8}
    (h : text.all fun b => decide (0x20 ≤ b ∧ b ≠ Json.QUOTE ∧ b ≠ Json.BACKSLASH)) :
    Json.Derives .chars text :=
  Json.derives_chars (List.all_iff_forall_prop.mp h)

theorem digits_of_all {text : List UInt8} (hne : text ≠ [])
    (h : text.all fun b => decide (0x30 ≤ b ∧ b ≤ 0x39)) (hzero : text.head? ≠ some 0x30) :
    Json.Derives .value text :=
  Json.derives_digits ⟨hne, fun b hb => List.all_iff_forall_prop.mp h b hb⟩ hzero

theorem headlessText_isObject : Json.IsObject headlessText := by
  have hone : Json.Derives .value (octets "1") :=
    digits_of_all (by decide) (by decide) (by decide)
  have htwo : Json.Derives .value (octets "2") :=
    digits_of_all (by decide) (by decide) (by decide)
  have hpid : Json.Derives .value (octets "78") :=
    digits_of_all (by decide) (by decide) (by decide)
  have hnull : Json.Derives .value (octets "null") := .null
  have htrue : Json.Derives .value (octets "true") := .true
  have hinner : ∀ {members : List (List UInt8 × List UInt8)},
      (∀ member ∈ members, Json.Derives .chars member.1 ∧ Json.Derives .value member.2) →
      Json.Derives .value (Json.writeObject (octets "    ") (octets "  ") members) := fun h =>
    (Json.isObject_writeObject (spaces_of_all (by decide)) (spaces_of_all (by decide)) h).derives
  unfold headlessText
  refine Json.isObject_writeObject (spaces_of_all (by decide)) (spaces_of_all (by decide)) ?_
  simp only [List.forall_mem_cons, List.not_mem_nil, false_imp_iff, implies_true, and_true]
  refine ⟨⟨chars_of_all (by decide), htwo⟩, ⟨chars_of_all (by decide), hone⟩,
    ⟨chars_of_all (by decide), hnull⟩, ⟨chars_of_all (by decide), hone⟩,
    ⟨chars_of_all (by decide), htrue⟩, ⟨chars_of_all (by decide), hinner ?_⟩,
    ⟨chars_of_all (by decide), hinner ?_⟩, ⟨chars_of_all (by decide), hpid⟩,
    ⟨chars_of_all (by decide), hnull⟩, ⟨chars_of_all (by decide), hnull⟩,
    ⟨chars_of_all (by decide), hone⟩⟩
  · simp only [List.forall_mem_cons, List.not_mem_nil, false_imp_iff, implies_true, and_true]
    exact ⟨⟨chars_of_all (by decide), .string (chars_of_all (by decide))⟩,
      ⟨chars_of_all (by decide), .string (chars_of_all (by decide))⟩,
      ⟨chars_of_all (by decide), .string (chars_of_all (by decide))⟩,
      ⟨chars_of_all (by decide), .string (chars_of_all (by decide))⟩,
      ⟨chars_of_all (by decide), .string (chars_of_all (by decide))⟩⟩
  · simp only [List.forall_mem_cons, List.not_mem_nil, false_imp_iff, implies_true, and_true]
    exact ⟨⟨chars_of_all (by decide), hpid⟩, ⟨chars_of_all (by decide), hpid⟩⟩

def headlessOrjson : Orjson := .only headlessState headlessText headlessText_isObject

/-- What a `start` that returns does to the file. -/
theorem headless_ops :
    (((Call.start (loneArgs true)).run headlessOrjson headlessLayout (quiet 400 0)).exec
      (.initial fun _ => none)).2.ops =
        [.write "sim/state.json" (headlessText ++ [0x0A])] := by
  decide +kernel

end Ptlab.Sim.OnDisk
