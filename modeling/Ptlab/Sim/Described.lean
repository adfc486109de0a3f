/-
What the calls of `Simulator` leave in the state file (`src/ptlab/sim.py`).

Every document that a call leaves describes a simulator as `build_sim_state` does
(`Session.describes`): one without a display has `null` for its Xvfb. `_state_pid` asks
`int` about this `null` before anything looks at `headless`, so that the verdict of
`existing_state_is_healthy` on a headless simulator is a `TypeError`, whatever has
become of it (`verdict_headless`).
-/
import Ptlab.Sim.OnDisk
import Ptlab.Sim.Reached

set_option autoImplicit false

open Effect Files Ptlab.Processes

namespace Ptlab.Sim.OnDisk

/-! ## What a document says -/

/-- A state as `build_sim_state` makes it. -/
structure Described (state : StateDict) : Prop where
  sim : ∃ pid, pid ≠ 0 ∧ state.sim = some ⟨some pid, some pid⟩ ∧ state.sim_pid = some pid
  headless : state.headless = true → state.xvfb = none ∧ state.xvfb_pid = none
  display : state.headless = false → (∃ display, state.display = some display) ∧
    ∃ pid, pid ≠ 0 ∧ state.xvfb = some ⟨some pid, some pid⟩ ∧ state.xvfb_pid = some pid

section Get

variable (state : StateDict)

theorem get_headless : PyValue.get (document state) "headless" = some (.bool state.headless) := by
  unfold document PyValue.get
  cases state.sim <;> cases state.xvfb <;> cases state.alive <;> rfl

theorem get_display : PyValue.get (document state) "display" = some (text? state.display) := by
  unfold document PyValue.get
  cases state.sim <;> cases state.xvfb <;> cases state.alive <;> rfl

theorem get_sim : PyValue.get (document state) "sim" = state.sim.map entryDict := by
  unfold document PyValue.get
  cases state.sim <;> cases state.xvfb <;> cases state.alive <;> rfl

theorem get_xvfb : PyValue.get (document state) "xvfb" = state.xvfb.map entryDict := by
  unfold document PyValue.get
  cases state.sim <;> cases state.xvfb <;> cases state.alive <;> rfl

theorem get_xvfb_pid :
    PyValue.get (document state) "xvfb_pid" = some (number? state.xvfb_pid) := by
  unfold document PyValue.get
  cases state.sim <;> cases state.xvfb <;> cases state.alive <;> rfl

end Get

theorem entryPid_entryDict {pid : ℤ} (hpid : pid ≠ 0) (pgid : Option ℤ) :
    entryPid (some (entryDict ⟨some pid, pgid⟩)) = some (.int pid) := by
  have hget : PyValue.get [("pid", number? (some pid)), ("pgid", number? pgid)] "pid" =
      some (.int pid) := rfl
  unfold entryPid entryDict
  dsimp only
  rw [hget, Option.filter_some, if_pos]
  exact decide_eq_true hpid

/-! ## The verdict on a description -/

section Verdict

variable {around : Around} {host : Host} {orjson : Orjson} {layout : SimLayout}
  {setting : Setting} {state : StateDict}

theorem state_pid_sim {pid : ℤ} (hpid : pid ≠ 0) (hsim : state.sim = some ⟨some pid, some pid⟩) :
    _state_pid around (document state) "sim" = .ok pid := by
  unfold _state_pid
  rw [get_sim, hsim, Option.map_some, entryPid_entryDict hpid]
  rfl

theorem state_pid_xvfb {pid : ℤ} (hpid : pid ≠ 0)
    (hxvfb : state.xvfb = some ⟨some pid, some pid⟩) :
    _state_pid around (document state) "xvfb" = .ok pid := by
  unfold _state_pid
  rw [get_xvfb, hxvfb, Option.map_some, entryPid_entryDict hpid]
  rfl

/-- Without Xvfb there is `null` to be read as a number. -/
theorem state_pid_null (hxvfb : state.xvfb = none) (hpid : state.xvfb_pid = none) :
    _state_pid around (document state) "xvfb" = .error (intTypeError "NoneType") := by
  have hname : "xvfb" ++ "_pid" = "xvfb_pid" := rfl
  unfold _state_pid
  rw [hname, get_xvfb, get_xvfb_pid, hxvfb, hpid]
  rfl

/-- **Without a display** there is no verdict, whatever has become of the simulator. -/
theorem verdict_headless (h : Described state) (hheadless : state.headless = true)
    (w : DiskWorld) :
    (existing_state_is_healthy around host (document state)).exec w =
      (.error (intTypeError "NoneType"), w) := by
  obtain ⟨pid, hpid, hsim, -⟩ := h.sim
  obtain ⟨hxvfb, hnull⟩ := h.headless hheadless
  unfold existing_state_is_healthy
  rw [exec_bind, exec_lift, state_pid_sim hpid hsim]
  dsimp only
  rw [exec_bind, exec_lift, state_pid_null hxvfb hnull]

/-- The processes and the display are asked, if the display has a number. -/
def allAsked (around : Around) (host : Host) (sim_pid xvfb_pid : ℤ) (display : String) :
    OnFile Bool :=
  if display.toList.head? = some ':' then
    match around.int (displayNumber display) with
    | some number => allAnswer around host sim_pid xvfb_pid number
    | none => pure false
  else pure false

/-- **With a display** it is for the processes and the display to answer, provided that the
display has a number. -/
theorem verdict_display (h : Described state) (hheadless : state.headless = false) :
    ∃ sim_pid xvfb_pid display, state.sim_pid = some sim_pid ∧ state.xvfb_pid = some xvfb_pid ∧
      state.display = some display ∧ ∀ (around : Around) (host : Host) (w : DiskWorld),
        (existing_state_is_healthy around host (document state)).exec w =
          (allAsked around host sim_pid xvfb_pid display).exec w := by
  obtain ⟨sim_pid, hsim_pid, hsim, hsim'⟩ := h.sim
  obtain ⟨⟨display, hdisplay⟩, xvfb_pid, hxvfb_pid, hxvfb, hxvfb'⟩ := h.display hheadless
  refine ⟨sim_pid, xvfb_pid, display, hsim', hxvfb', hdisplay, fun around host w => ?_⟩
  unfold existing_state_is_healthy
  rw [exec_bind, exec_lift, state_pid_sim hsim_pid hsim]
  dsimp only
  rw [exec_bind, exec_lift, state_pid_xvfb hxvfb_pid hxvfb]
  dsimp only
  have hfalse : ¬ ((some (PyValue.bool false)).getD .none).truthy = true := Bool.false_ne_true
  rw [get_headless, get_display, hheadless, hdisplay, if_neg hfalse]
  change (if sim_pid = 0 ∨ xvfb_pid = 0 ∨ display.toList.head? ≠ some ':' then _ else _ :
    OnFile Bool).exec w = _
  unfold allAsked
  by_cases hcolon : display.toList.head? = some ':'
  · rw [if_neg (by simp [hsim_pid, hxvfb_pid, hcolon]), if_pos hcolon]
    rcases around.int (displayNumber display) with _ | number <;> rfl
  · rw [if_pos (.inr (.inr hcolon)), if_neg hcolon]

/-- Whether nothing is raised in front of the verdict. -/
def Undisturbed (setting : Setting) : Prop :=
  setting.env.fault .state_exists = none ∧ setting.env.fault .load_json = none

/-- A `start` that finds a document follows the verdict on it. -/
theorem start_reads (hquiet : Undisturbed setting) {w : DiskWorld}
    (hread : (w.disk layout.state).bind orjson.loads = some state) (args : StartArgs) :
    (start orjson layout setting args).exec w =
      match (existing_state_is_healthy setting.around setting.host (document state)).exec w with
      | (.ok true, w') => (.ok state, w')
      | (.ok false, w') => (do
          let _ ← stop orjson layout setting
          startFresh orjson layout setting args : OnFile StateDict).exec w'
      | (.error error, w') => (.error error, w') := by
  obtain ⟨bytes, hfile, hloads⟩ := Option.bind_eq_some_iff.mp hread
  unfold start stateExists _load_json
  rw [exec_bind, exec_onLocals_point, hquiet.1]
  dsimp only
  rw [exec_bind, exec_read, hfile, Option.isSome_some]
  dsimp only
  rw [if_pos rfl, exec_bind, exec_onLocals_point, hquiet.2]
  dsimp only
  simp only [exec_bind, exec_read, hfile, hloads, exec_pure]
  rcases (existing_state_is_healthy setting.around setting.host (document state)).exec w with
    ⟨e | _ | _, w'⟩
  · rfl
  · exact exec_bind _ _ w'
  · rfl

end Verdict

/-! ## What calls leave in the file -/

section Described

variable {env : Env} {args : StartArgs}

/-- The display is up, if there is to be one. -/
def DisplayUp (env : Env) (args : StartArgs) (w : StartWorld) : Prop :=
  w.xvfb = if args.headless then none else some env.xvfb_pid

/-- `_start_xvfb` that returns has Xvfb in its variable. -/
theorem start_xvfb_process (display : Option String) :
    Triple (fun _ => True) (_start_xvfb env display)
      (fun _ w => w.process = some env.xvfb_pid) (fun _ _ => True) := by
  let P : StartWorld → Prop := fun w => w.process = some env.xvfb_pid
  have hpoint : ∀ p, Triple P (point env p) (fun _ => P) (fun _ _ => True) :=
    fun p => (always_point p).raises fun _ _ _ => trivial
  have htrue : ∀ {α : Type} (m : Effect StartWorld PyExc α),
      Triple (fun _ => True) m (fun _ _ => True) (fun _ _ => True) := by
    intro α m w _
    rcases m.exec w with ⟨e | a, w'⟩ <;> trivial
  have hraise : ∀ (ok : Bool) (message : String),
      Triple P (orRaise ok message) (fun _ => P) (fun _ _ => True) := fun ok message =>
    (always_orRaise ok message).raises fun _ _ _ => trivial
  have hspawn : Triple (fun _ => True) (spawnXvfb env display) (fun _ => P) (fun _ _ => True) := by
    unfold spawnXvfb
    refine triple_bind (htrue _) fun _ => ?_
    refine triple_bind (Q := fun _ => P) (triple_update fun _ _ => rfl) fun _ => ?_
    split_ifs
    · exact triple_pure fun _ hw => hw
    · refine triple_bind (hpoint _) fun _ => triple_bind (hpoint _) fun _ => ?_
      refine triple_bind (hraise _ _) fun _ => triple_bind (hpoint _) fun _ => ?_
      refine triple_bind (hpoint _) fun _ => triple_bind (hraise _ _) fun _ => ?_
      exact triple_pure fun _ hw => hw
  unfold _start_xvfb
  refine triple_bind (htrue _) fun _ => triple_bind (htrue _) fun _ => ?_
  refine triple_bind (htrue _) fun _ => triple_bind (Q := fun _ => P) ?_ fun chosen => ?_
  · have hguarded : Triple (fun _ => True)
        (onException (spawnXvfb env display) (killXvfb env .first_poll .first_killpg))
        (fun _ => P) (fun _ _ => True) :=
      triple_onException hspawn (fun _ _ => htrue _) fun _ _ _ _ => trivial
    exact triple_ensure hguarded (fun _ => hpoint _) fun _ => htrue _
  · have hwait : Triple P (_wait_for_x env chosen (List.finRange 100)) (fun _ => P)
        (fun _ _ => True) :=
      wait_for_x_rule (fun _ _ _ => trivial) (fun p _ => hpoint p) _ _
    refine triple_bind (triple_onException hwait (fun _ _ => htrue _) fun _ _ _ _ => trivial) ?_
    exact fun _ => triple_pure fun _ hw => hw

theorem startDisplay_up :
    Triple (fun w => w.xvfb = none) (startDisplay env args)
      (fun display w => DisplayUp env args w ∧
        (args.headless = false → ∃ chosen, display = some chosen)) (fun _ _ => True) := by
  unfold startDisplay DisplayUp
  by_cases hx : args.headless
  · rw [if_pos hx, if_pos hx]
    exact triple_pure fun w hw => ⟨hw, fun h => by rw [hx] at h; cases h⟩
  · rw [if_neg hx, if_neg hx]
    refine triple_bind ((start_xvfb_process args.display).conseq (fun _ _ => trivial)
      (fun _ _ h => h) fun _ _ h => h) fun chosen => ?_
    refine triple_bind (triple_update (R := fun w => w.xvfb = some env.xvfb_pid) fun w hw => hw)
      fun _ => triple_pure fun w hw => ⟨hw, fun _ => ⟨chosen, rfl⟩⟩

/-- Both processes are up, as far as there are to be two. -/
def BothUp (env : Env) (args : StartArgs) (w : StartWorld) : Prop :=
  DisplayUp env args w ∧ w.sim = some env.sim_pid

theorem spawnSim_up :
    Triple (DisplayUp env args) (spawnSim env) (fun _ => BothUp env args) (fun _ _ => True) := by
  have hpoint : ∀ {P : StartWorld → Prop} p, Triple P (point env p) (fun _ => P)
      (fun _ _ => True) := fun p => (always_point p).raises fun _ _ _ => trivial
  have hskip : ∀ {P : StartWorld → Prop} b p, Triple P (skipIf b (point env p)) (fun _ => P)
      (fun _ _ => True) := fun b p =>
    (always_skipIf (always_point p)).raises fun _ _ _ => trivial
  unfold spawnSim
  refine triple_bind (hpoint _) fun _ => triple_bind (hskip _ _) fun _ => ?_
  have hpopen : Triple (DisplayUp env args)
      (do
        point env .sim_popen
        update fun w => { w with spawned := w.spawned ++ [env.sim_pid], sim := some env.sim_pid })
      (fun _ => BothUp env args) (fun _ _ => True) :=
    triple_bind (hpoint _) fun _ => triple_update fun w hw => ⟨hw, rfl⟩
  exact triple_ensure hpopen (fun _ => triple_bind (hpoint _) fun _ => hskip _ _)
    fun _ => triple_bind (hpoint _) fun _ => hskip _ _

/-- What `build_sim_state` makes of these variables. -/
theorem described_build (layout : SimLayout) {display : Option String} (window : Option String)
    (bridge_port ble_control_port : ℤ) {w : StartWorld}
    (hdisplay : args.headless = false → ∃ chosen, display = some chosen)
    (hw : BothUp env args w) :
    Described (build_sim_state layout args display window bridge_port ble_control_port w) := by
  obtain ⟨hxvfb, hsim⟩ := hw
  unfold DisplayUp at hxvfb
  refine ⟨⟨env.sim_pid, ne_of_gt env.sim_pid_pos, ?_, hsim⟩, fun h => ?_, fun h => ?_⟩
  · change w.sim.map _ = _
    rw [hsim]
    rfl
  · change args.headless = true at h
    rw [h] at hxvfb
    refine ⟨?_, hxvfb⟩
    change w.xvfb.map _ = _
    rw [hxvfb]
    rfl
  · change args.headless = false at h
    rw [h] at hxvfb
    refine ⟨hdisplay h, env.xvfb_pid, ne_of_gt env.xvfb_pid_pos, ?_, hxvfb⟩
    change w.xvfb.map _ = _
    rw [hxvfb]
    rfl

theorem launch_described (layout : SimLayout) (bridge_port ble_control_port : ℤ) :
    Triple (fun w => w.xvfb = none) (launch layout env args bridge_port ble_control_port)
      (fun state _ => Described state) (fun _ _ => True) := by
  have hpoint : ∀ {P : StartWorld → Prop} p, Triple P (point env p) (fun _ => P)
      (fun _ _ => True) := fun p => (always_point p).raises fun _ _ _ => trivial
  unfold launch
  refine triple_bind startDisplay_up fun display => ?_
  refine Triple.conseq (triple_assume fun hdisplay => ?_) (fun _ hw => hw) (fun _ _ hw => hw)
    fun _ _ hw => hw
  refine triple_bind (hpoint _) fun _ => triple_bind (hpoint _) fun _ => ?_
  refine triple_bind spawnSim_up fun _ => ?_
  have hwindow : Triple (BothUp env args) (awaitWindow env args) (fun _ => BothUp env args)
      (fun _ _ => True) := by
    unfold awaitWindow
    split_ifs
    · exact triple_pure fun _ hw => hw
    · refine triple_bind (findWindow_rule (fun _ _ _ => trivial) (fun p _ => hpoint p) _) ?_
      exact fun _ => triple_pure fun _ hw => hw
  refine triple_bind hwindow fun window => ?_
  refine triple_bind (triple_read (Q := fun state _ => Described state) fun w hw =>
    described_build layout window bridge_port ble_control_port hdisplay hw) fun state => ?_
  refine triple_bind (triple_skipIf (fun _ _ hw => hw) fun _ => ?_) fun _ => ?_
  · exact triple_bind (hpoint _) fun _ => hpoint _
  refine triple_bind (wait_for_tcp_listener_rule (fun _ _ _ => trivial) (fun p _ => hpoint p)
    _ _ _) fun _ => ?_
  exact triple_bind (hpoint _) fun _ => triple_pure fun _ hw => hw

end Described

section File

variable (orjson : Orjson) (layout : SimLayout)

/-- If the file is read, it describes a simulator. -/
def Describes (d : Disk String) : Prop :=
  ∀ state, (d layout.state).bind orjson.loads = some state → Described state

/-- What the calls do to the file. -/
inductive OpDescribes : Op String → Prop
  | write {state : StateDict} {text part : List UInt8} (hstate : Described state)
      (htext : orjson.dumps state = some text) (hpart : part <+: text ++ [0x0A]) :
      OpDescribes (.write layout.state part)
  | unlink : OpDescribes (.unlink layout.state)

/-- What holds of the disk, and of what has been done to it. -/
def FileDescribes (w : DiskWorld) : Prop :=
  Describes orjson layout w.disk ∧ ∀ op ∈ w.ops, OpDescribes orjson layout op

variable {orjson layout} {setting : Setting}

/-- A part of what was written is not read, unless it is the whole. -/
theorem loads_part {state other : StateDict} {text part : List UInt8}
    (htext : orjson.dumps state = some text) (hpart : part <+: text ++ [0x0A])
    (hloads : orjson.loads part = some other) : other = state := by
  have hwhole : ∀ space : List UInt8, (∀ b ∈ space, Json.IsSpace b) →
      part = text ++ space → other = state := by
    rintro space hspace rfl
    rw [orjson.loads_dumps state text space htext hspace] at hloads
    exact (Option.some.inj hloads).symm
  rcases Json.prefix_append_cases hpart with hpart | ⟨rest, hrest, rfl⟩
  · refine hwhole [] (fun b hb => absurd hb List.not_mem_nil) ?_
    rw [List.append_nil]
    by_contra hne
    exact Json.not_isText_of_cut (orjson.dumps_object state text htext) hpart hne
      (orjson.loads_text part other hloads)
  · refine hwhole rest (fun b hb => ?_) rfl
    rw [List.mem_singleton.mp (hrest.subset hb)]
    decide

theorem describes_part {d : Disk String} {state : StateDict} {text part : List UInt8}
    (hstate : Described state) (htext : orjson.dumps state = some text)
    (hpart : part <+: text ++ [0x0A]) :
    Describes orjson layout (Function.update d layout.state (some part)) := by
  intro other hother
  rw [Function.update_self] at hother
  rw [loads_part htext hpart hother]
  exact hstate

theorem describes_none {d : Disk String} (h : d layout.state = none) :
    Describes orjson layout d := by
  intro state hstate
  rw [h] at hstate
  cases hstate

theorem OpDescribes.apply {op : Op String} (h : OpDescribes orjson layout op) (d : Disk String) :
    Describes orjson layout (op.apply d) := by
  cases h with
  | write hstate htext hpart => exact describes_part hstate htext hpart
  | unlink => exact describes_none (Function.update_self ..)

theorem OpDescribes.torn {op : Op String} (h : OpDescribes orjson layout op) {d d' : Disk String}
    (htorn : op.Torn d d') : Describes orjson layout d' := by
  cases h with
  | write hstate htext hpart =>
      cases htorn with
      | write _ hcut => exact describes_part hstate htext (hcut.trans hpart)
  | unlink => cases htorn

theorem describes_perform {op : Op String} (h : OpDescribes orjson layout op) :
    Always (FileDescribes orjson layout) (perform op) := by
  refine triple_update fun w hw => ⟨h.apply w.disk, fun op' hop' => ?_⟩
  rcases List.mem_append.mp hop' with hop' | hop'
  · exact hw.2 op' hop'
  · rw [List.mem_singleton.mp hop']
    exact h

theorem describes_read {α : Type} (f : DiskWorld → α) :
    Always (FileDescribes orjson layout) (read f : OnFile α) := triple_read fun _ hw => hw

theorem describes_onProcesses {α : Type} (m : Effect Trace ProcessExc α) :
    Always (FileDescribes orjson layout) (onProcesses m) := always_zoom fun _ _ hw => hw

theorem describes_onLocals {α : Type} (m : Effect StartWorld PyExc α) :
    Always (FileDescribes orjson layout) (onLocals m) := always_zoom fun _ _ hw => hw

theorem describes_load_json : Always (FileDescribes orjson layout) (_load_json orjson layout) :=
  (load_json_rule (I := FileDescribes orjson layout)).conseq (fun _ hw => hw)
    (fun _ _ hw => hw.1) fun _ _ hw => hw

theorem describes_stop : Always (FileDescribes orjson layout) (stop orjson layout setting) := by
  unfold stop
  refine always_bind (describes_read _) fun there => ?_
  split
  · refine always_bind describes_load_json fun state => ?_
    refine always_bind (describes_onProcesses _) fun _ => ?_
    exact always_bind (describes_perform .unlink) fun _ => always_pure _
  · exact always_pure _

theorem describes_kill : Always (FileDescribes orjson layout) (kill orjson layout setting) := by
  unfold kill
  refine always_bind (describes_read _) fun there => ?_
  split
  · refine always_bind describes_load_json fun state => ?_
    refine always_bind (describes_onProcesses _) fun _ => ?_
    exact always_bind (describes_perform .unlink) fun _ => always_pure _
  · exact always_pure _

theorem describes_status : Always (FileDescribes orjson layout) (status orjson layout setting) := by
  unfold status
  refine always_bind (describes_read _) fun there => ?_
  split
  · refine always_bind describes_load_json fun state => always_bind (always_lift _) fun sim_pid => ?_
    split
    · exact always_bind (describes_onProcesses _) fun _ => always_pure _
    · exact always_pure _
  · exact always_pure _

theorem describes_dump_json {state : StateDict} (hstate : Described state) :
    Always (FileDescribes orjson layout) (_dump_json orjson layout setting state) := by
  unfold _dump_json
  rcases htext : orjson.dumps state with _ | text
  · exact always_throw _
  dsimp only
  rcases setting.env.fault .write_state with _ | error
  · exact describes_perform (.write hstate htext List.prefix_rfl)
  · refine always_bind ?_ fun _ => always_throw _
    unfold writePart
    split
    · exact always_pure _
    · exact describes_perform (.write hstate htext (List.take_prefix _ _))

/-- The document is written with the variables as the `try` clause has left them. -/
theorem describes_startFresh (args : StartArgs) :
    Triple (fun w => FileDescribes orjson layout w ∧ w.locals.xvfb = none)
      (startFresh orjson layout setting args) (fun _ => FileDescribes orjson layout)
      (fun _ => FileDescribes orjson layout) := by
  have hports : Triple (fun w => FileDescribes orjson layout w ∧ w.locals.xvfb = none)
      (onLocals (choosePorts setting.env args))
      (fun _ w => FileDescribes orjson layout w ∧ w.locals.xvfb = none)
      (fun _ => FileDescribes orjson layout) := by
    have hkeep : Always (fun w : StartWorld => w.xvfb = none) (choosePorts setting.env args) :=
      choosePorts_rule always_point (fun _ _ hw => hw) (fun _ hw => hw) args
    refine ((describes_onLocals _).and (triple_onLocals hkeep fun _ _ => True)).conseq
      (fun w hw => ⟨hw.1, hw.2, trivial⟩) (fun _ w hw => ⟨hw.1, hw.2.1⟩) fun _ w hw => hw.1
  unfold startFresh
  refine triple_bind hports fun ports => ?_
  have hbody : Triple (fun w => FileDescribes orjson layout w ∧ w.locals.xvfb = none)
      (startBody orjson layout setting args ports.1 ports.2)
      (fun _ => FileDescribes orjson layout) (fun _ => FileDescribes orjson layout) := by
    have hdescribed : Triple (fun w : StartWorld => w.xvfb = none)
        (launch layout setting.env args ports.1 ports.2)
        (fun state _ => Described state) (fun _ _ => True) := launch_described _ _ _
    have hkeeps : Always (FileDescribes orjson layout)
        (onLocals (launch layout setting.env args ports.1 ports.2)) :=
      describes_onLocals _
    unfold startBody
    refine triple_bind ((hkeeps.and (triple_onLocals hdescribed fun _ _ => True)).conseq
      (fun w hw => ⟨hw.1, hw.2, trivial⟩)
      (fun _ w hw => (⟨hw.1, hw.2.1⟩ : _ ∧ _)) fun _ w hw => hw.1) fun state => ?_
    refine triple_assume fun hstate => always_bind (describes_dump_json hstate) fun _ => ?_
    exact always_bind (describes_onLocals _) fun _ => always_pure _
  refine triple_tryCatch hbody fun error => ?_
  unfold startHandler
  split
  · refine always_bind (describes_onLocals _) fun _ => ?_
    exact always_bind (describes_perform .unlink) fun _ => always_throw _
  · exact always_throw _

/-- The variables of `start` are as it finds them. -/
def Opening (w : DiskWorld) : Prop := w.locals.xvfb = none

theorem opening_describes {α : Type} {m : OnFile α} (h : Always (FileDescribes orjson layout) m)
    (hopening : Always Opening m) :
    Triple (fun w => FileDescribes orjson layout w ∧ Opening w) m
      (fun _ w => FileDescribes orjson layout w ∧ Opening w)
      (fun _ => FileDescribes orjson layout) :=
  (h.and hopening).conseq (fun _ hw => hw) (fun _ _ hw => hw) fun _ _ hw => hw.1

theorem opening_stop : Always Opening (stop orjson layout setting) := by
  unfold stop
  refine always_bind (triple_read fun _ hw => hw) fun there => ?_
  split
  · refine always_bind ((load_json_rule (I := Opening)).conseq (fun _ hw => hw)
      (fun _ _ hw => hw.1) fun _ _ hw => hw) fun state => ?_
    refine always_bind (always_zoom fun _ _ hw => hw) fun _ => ?_
    exact always_bind (triple_update fun _ hw => hw) fun _ => always_pure _
  · exact always_pure _

theorem describes_start (args : StartArgs) :
    Triple (fun w => FileDescribes orjson layout w ∧ Opening w)
      (start orjson layout setting args) (fun _ => FileDescribes orjson layout)
      (fun _ => FileDescribes orjson layout) := by
  have hpoint : ∀ p, Triple (fun w => FileDescribes orjson layout w ∧ Opening w)
      (onLocals (point setting.env p)) (fun _ w => FileDescribes orjson layout w ∧ Opening w)
      (fun _ => FileDescribes orjson layout) := fun p =>
    (always_onLocals_point p).raises fun _ _ hw => hw.1
  have hverdict : ∀ document, Always (fun w => FileDescribes orjson layout w ∧ Opening w)
      (existing_state_is_healthy setting.around setting.host document) := fun document =>
    verdict_rule (always_alive fun _ _ hw => hw) document
  unfold start
  refine triple_bind (hpoint _) fun _ => ?_
  refine triple_bind (triple_read (Q := fun _ w => FileDescribes orjson layout w ∧ Opening w)
    fun _ hw => hw) fun there => ?_
  split_ifs
  · refine triple_bind (hpoint _) fun _ => ?_
    refine triple_bind ((load_json_rule (I := fun w => FileDescribes orjson layout w ∧
      Opening w)).conseq (fun _ hw => hw) (fun _ _ hw => hw.1) fun _ _ hw => hw.1) fun state => ?_
    refine triple_bind ((hverdict _).raises fun _ _ hw => hw.1) fun healthy => ?_
    split_ifs
    · exact triple_pure fun _ hw => hw.1
    · exact triple_bind (opening_describes describes_stop opening_stop) fun _ =>
        describes_startFresh args
  · exact describes_startFresh args

/-- **A call** writes documents that describe a simulator. -/
theorem describes_run (call : Call) :
    Triple (fun w => FileDescribes orjson layout w ∧ Opening w)
      (call.run orjson layout setting) (fun _ => FileDescribes orjson layout)
      (fun _ => FileDescribes orjson layout) := by
  have hfirst : ∀ {m : OnFile Bool}, Always (FileDescribes orjson layout) m →
      Triple (fun w => FileDescribes orjson layout w ∧ Opening w) (do let _ ← m)
        (fun _ => FileDescribes orjson layout) (fun _ => FileDescribes orjson layout) := fun h =>
    (always_bind h fun _ => always_pure _).conseq (fun _ hw => hw.1) (fun _ _ hw => hw)
      fun _ _ hw => hw
  cases call with
  | start args => exact triple_bind (describes_start args) fun _ => triple_pure fun _ hw => hw
  | stop => exact hfirst describes_stop
  | kill => exact hfirst describes_kill
  | status =>
      exact (always_bind describes_status fun _ => always_pure _).conseq (fun _ hw => hw.1)
        (fun _ _ hw => hw) fun _ _ hw => hw
  | restart args =>
      refine triple_bind (triple_bind (opening_describes describes_stop opening_stop) fun _ =>
        describes_start args) fun _ => triple_pure fun _ hw => hw

/-- **A session** leaves no file, or one that is read as the description of a
simulator, or not at all. -/
theorem Session.describes {d : Disk String} (h : Session orjson layout d) :
    Describes orjson layout d := by
  have hinitial : ∀ d, Describes orjson layout d →
      FileDescribes orjson layout (.initial d) ∧ Opening (.initial d) :=
    fun d hd => ⟨⟨hd, fun op hop => absurd hop List.not_mem_nil⟩, rfl⟩
  induction h with
  | first h => exact describes_none h
  | @ended d _ call setting ih =>
      exact ((describes_run call).final (hinitial d ih) (fun _ _ hw => hw) fun _ _ hw => hw).1
  | @crashed d d' _ call setting done rest hops hcrash ih =>
      have hrun : Triple (fun w => FileDescribes orjson layout w ∧ Opening w)
          (call.run orjson layout setting) (fun _ => FileDescribes orjson layout)
          (fun _ => FileDescribes orjson layout) := describes_run call
      have hfine := (hrun.final (hinitial d ih) (fun _ _ hw => hw) fun _ _ hw => hw).2
      rw [hops, List.forall_mem_append] at hfine
      exact hcrash.rule (fun op hop d _ => (hfine.1 op hop).apply d)
        (fun op hop d d' _ htorn => (hfine.2 op hop).torn htorn) ih

end File

end Ptlab.Sim.OnDisk
