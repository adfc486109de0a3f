/-
`Simulator` over its state file as it is on disk (`src/ptlab/sim.py`).

The file is bytes here, written by `_dump_json` and parsed by `_load_json` before
a call does anything else. orjson is a parameter: its texts are those of the JSON
grammar, and what it wrote it reads. What `start` makes of a simulator that is there
is computed from its document, as `existing_state_is_healthy` does. A `Session` is any
sequence of calls, each of which may be cut short by a crash; `Session.found` says
what file the next call finds.
-/
import Ptlab.Lib.Files
import Ptlab.Lib.Json
import Ptlab.Lib.PyValue
import Ptlab.Sim.Stop
import Ptlab.Sim.Start

set_option autoImplicit false

open Effect Files Ptlab.Processes

namespace Ptlab.Sim.OnDisk

/-! ## The document -/

/-- The paths of a `SimLayout` that a state has, and the one of the state file. -/
structure SimLayout where
  run : String
  flash : String
  shots : String
  state : String
  stdout : String
  stderr : String
  deriving DecidableEq, Repr

/-- The entry `paths`. -/
structure Paths where
  run : String
  flash : String
  shots : String
  stdout : String
  stderr : String
  deriving DecidableEq, Repr

/-- The state, with every entry. -/
structure StateDict extends SimState where
  display : Option String
  bridge_port : ℤ
  gatt_port : ℤ
  ble_control_port : Option ℤ
  headless : Bool
  window : Option String
  zoom : ℤ
  paths : Paths
  /-- The entry that `status` adds. -/
  alive : Option Bool
  deriving DecidableEq, Repr

def text? : Option String → PyValue
  | none => .none
  | some value => .str value

def number? : Option ℤ → PyValue
  | none => .none
  | some value => .int value

/-- The value of `sim` or `xvfb`. -/
def entryDict (entry : ProcessEntry) : PyValue :=
  .dict [("pid", number? entry.pid), ("pgid", number? entry.pgid)]

def pathsDict (paths : Paths) : PyValue :=
  .dict [("run", .str paths.run), ("flash", .str paths.flash), ("shots", .str paths.shots),
    ("stdout", .str paths.stdout), ("stderr", .str paths.stderr)]

/-- The dict that a state is. Only `sim`, `xvfb` and `alive` may be absent. -/
def document (state : StateDict) : List (String × PyValue) :=
  [("display", text? state.display), ("bridge_port", .int state.bridge_port),
    ("gatt_port", .int state.gatt_port), ("ble_control_port", number? state.ble_control_port),
    ("headless", .bool state.headless), ("window", text? state.window), ("zoom", .int state.zoom),
    ("sim_pid", number? state.sim_pid), ("xvfb_pid", number? state.xvfb_pid),
    ("paths", pathsDict state.paths)] ++
  (state.sim.map fun entry => ("sim", entryDict entry)).toList ++
  (state.xvfb.map fun entry => ("xvfb", entryDict entry)).toList ++
  (state.alive.map fun alive => ("alive", .bool alive)).toList

/-- orjson on states: `dumps`, indented and with sorted keys, which refuses some
(integers of more than 64 bits, unpaired surrogates), and `loads`, which raises
`JSONDecodeError` where it has no value. -/
structure Orjson where
  dumps : StateDict → Option (List UInt8)
  loads : List UInt8 → Option StateDict
  /-- A dict is written as an object. -/
  dumps_object : ∀ state text, dumps state = some text → Json.IsObject text
  /-- What was written is read, whatever space is behind it. -/
  loads_dumps : ∀ state text space, dumps state = some text → (∀ b ∈ space, Json.IsSpace b) →
    loads (text ++ space) = some state
  /-- Only JSON is read. -/
  loads_text : ∀ bytes state, loads bytes = some state → Json.IsText bytes

/-! ## The operations -/

/-- What comes out of a call besides a value. `unfinished` stands for a wait that was
not followed to its end. -/
inductive CallExc where
  | raised (error : PyExc)
  | unfinished
  deriving DecidableEq, Repr

def CallExc.isException : CallExc → Bool
  | .raised error => error.isException
  | .unfinished => false

def CallExc.ofProcess : ProcessExc → CallExc
  | .RuntimeError message => .raised (.Exception "RuntimeError" message)
  | .PermissionError => .raised (.Exception "PermissionError" "")
  | .OSError message => .raised (.Exception "OSError" message)
  | .unfinished => .unfinished

def FileNotFoundError : CallExc := .raised (.Exception "FileNotFoundError" "")

def JSONDecodeError : CallExc := .raised (.Exception "JSONDecodeError" "")

def JSONEncodeError : CallExc := .raised (.Exception "JSONEncodeError" "")

/-- The disk, what has been done to it, what has been done to the processes, and the
variables of `start`. -/
structure DiskWorld where
  disk : Disk String
  ops : List (Op String)
  processes : Trace
  locals : StartWorld

/-- A call begins on this disk. -/
def DiskWorld.initial (disk : Disk String) : DiskWorld := ⟨disk, [], ⟨0, 0, []⟩, .initial none⟩

abbrev OnFile (α : Type) : Type := Effect DiskWorld CallExc α

/-- Something done to the processes. -/
def onProcesses {α : Type} (m : Effect Trace ProcessExc α) : OnFile α :=
  zoom DiskWorld.processes (fun processes w => { w with processes := processes })
    (mapException .ofProcess m)

/-- A part of `start` that does not touch the state file. -/
def onLocals {α : Type} (m : Effect StartWorld PyExc α) : OnFile α :=
  zoom DiskWorld.locals (fun locals w => { w with locals := locals })
    (mapException .raised m)

def perform (op : Op String) : OnFile Unit :=
  update fun w => { w with disk := op.apply w.disk, ops := w.ops ++ [op] }

/-! ## `existing_state_is_healthy` -/

/-- What `int` has to say of a value that it does not take. -/
def intTypeError (kind : String) : CallExc :=
  .raised (.Exception "TypeError" ("int() argument must be a string, a bytes-like object or a " ++
    "real number, not \x27" ++ kind ++ "\x27"))

/-- What is Python's own, and the display: `int(text)`, which has no value where Python
raises `ValueError`, and `xdotool getdisplaygeometry` on a display, whose return code is
its answer. -/
structure Around where
  int : String → Option ℤ
  getdisplaygeometry : ℤ → Except PyExc ℤ

/-- `except (FileNotFoundError, subprocess.TimeoutExpired)`. -/
def noXdotool : PyExc → Bool
  | .Exception type _ => type = "FileNotFoundError" ∨ type = "TimeoutExpired"
  | .BaseException _ => false

def display_is_active (around : Around) (display : ℤ) : Except PyExc Bool :=
  match around.getdisplaygeometry display with
  | .ok returncode => .ok (returncode = 0)
  | .error error => if noXdotool error then .ok false else .error error

section Verdict

variable (around : Around) (host : Host)

/-- `int(value)`. -/
def pyInt : PyValue → Except CallExc ℤ
  | .none => .error (intTypeError "NoneType")
  | .bool b => .ok (if b then 1 else 0)
  | .int n => .ok n
  | .float q => .ok (q.num.tdiv q.den)
  | .str text =>
    match around.int text with
    | some n => .ok n
    | none => .error (.raised (.Exception "ValueError"
        ("invalid literal for int() with base 10: \x27" ++ text ++ "\x27")))
  | .list _ => .error (intTypeError "list")
  | .dict _ => .error (intTypeError "dict")

/-- The pid in an entry, if the value is a dict and has one. -/
def entryPid : Option PyValue → Option PyValue
  | some (.dict process) => (PyValue.get process "pid").filter PyValue.truthy
  | _ => none

def _state_pid (state : List (String × PyValue)) (name : String) : Except CallExc ℤ :=
  match entryPid (PyValue.get state name) with
  | some pid => pyInt around pid
  -- the default is for a key that is absent, not for one that is `null`
  | none => pyInt around ((PyValue.get state (name ++ "_pid")).getD (.int 0))

/-- `alive(pid)`. -/
def alive (pid : ℤ) : OnFile Bool := onProcesses (process_is_alive host pid)

/-- `display[1:].split(".", 1)[0]`. -/
def displayNumber (display : String) : String :=
  String.ofList ((display.toList.drop 1).takeWhile (· ≠ '.'))

/-- The last line: both processes, then the display. -/
def allAnswer (sim_pid xvfb_pid display_number : ℤ) : OnFile Bool := do
  if ← alive host sim_pid then
    if ← alive host xvfb_pid then
      lift ((display_is_active around display_number).mapError .raised)
    else return false
  else return false

/-- `existing_state_is_healthy`. -/
def existing_state_is_healthy (state : List (String × PyValue)) : OnFile Bool := do
  let sim_pid ← lift (_state_pid around state "sim")
  let xvfb_pid ← lift (_state_pid around state "xvfb")
  if ((PyValue.get state "headless").getD .none).truthy then
    if sim_pid ≠ 0 then alive host sim_pid else return false
  else
    match PyValue.get state "display" with
    | some (.str display) =>
      if sim_pid = 0 ∨ xvfb_pid = 0 ∨ display.toList.head? ≠ some ':' then return false
      else
        match around.int (displayNumber display) with
        | none => return false
        | some display_number => allAnswer around host sim_pid xvfb_pid display_number
    | _ => return false

end Verdict

/-! ## The calls -/

/-- What a call meets with: the system, the display, the faults of `start`, how many
turns of a wait are followed, and how many bytes a write that raises has written, if it
came to open the file. -/
structure Setting where
  host : Host
  around : Around
  env : Env
  fuel : ℕ
  cut : Option ℕ

section Model

variable (orjson : Orjson) (layout : SimLayout) (setting : Setting)

/-- `self.layout.state.exists()`. -/
def stateExists : OnFile Bool := read fun w => (w.disk layout.state).isSome

def _load_json : OnFile StateDict := do
  match ← read fun w => w.disk layout.state with
  | none => throw FileNotFoundError
  | some bytes =>
    match orjson.loads bytes with
    | none => throw JSONDecodeError
    | some state => return state

/-- A write that raises. -/
def writePart (content : List UInt8) : OnFile Unit :=
  match setting.cut with
  | none => pure ()
  | some written => perform (.write layout.state (content.take written))

def _dump_json (state : StateDict) : OnFile Unit :=
  match orjson.dumps state with
  | none => throw JSONEncodeError
  | some text =>
    match setting.env.fault .write_state with
    | none => perform (.write layout.state (text ++ [0x0A]))
    | some error => do
      writePart layout setting (text ++ [0x0A])
      throw (.raised error)

/-- `self.layout.state.unlink(missing_ok=True)`. -/
def unlinkState : OnFile Unit := perform (.unlink layout.state)

/-- `Simulator.stop`. -/
def stop : OnFile Bool := do
  if ← stateExists layout then
    let state ← _load_json orjson layout
    onProcesses (terminateRecorded setting.host setting.fuel state.toSimState)
    unlinkState layout
    return true
  else return false

/-- One turn of the loop in `kill`. -/
def killTarget (target : ℤ × ℤ × Bool) : Effect Trace ProcessExc Unit := do
  let (pid, process_group, grouped) := target
  if ← process_is_alive setting.host pid then
    if grouped then send setting.host (.group process_group) .SIGKILL
    else send setting.host (.process pid) .SIGKILL

/-- `Simulator.kill`. -/
def kill : OnFile Bool := do
  if ← stateExists layout then
    let state ← _load_json orjson layout
    onProcesses ((killTargets state.toSimState).forM (killTarget setting))
    unlinkState layout
    return true
  else return false

/-- The pid that `status` asks about. -/
def simPid (state : StateDict) : Except CallExc ℤ :=
  match (_process_refs state.toSimState).find? fun ref => ref.name = "sim" with
  | some ref => .ok ref.pid
  | none => pyInt setting.around ((PyValue.get (document state) "sim_pid").getD (.int 0))

/-- `Simulator.status`. -/
def status : OnFile (Option StateDict) := do
  if ← stateExists layout then
    let state ← _load_json orjson layout
    let sim_pid ← lift (simPid setting state)
    if sim_pid ≠ 0 then
      let isAlive ← onProcesses (process_is_alive setting.host sim_pid)
      return some { state with alive := some isAlive }
    else return some { state with alive := some false }
  else return none

/-- `build_sim_state`. -/
def build_sim_state (args : StartArgs) (display window : Option String)
    (bridge_port ble_control_port : ℤ) (w : StartWorld) : StateDict where
  toSimState := Sim.build_sim_state w
  display := display
  bridge_port := bridge_port
  gatt_port := bridge_port
  ble_control_port := some ble_control_port
  headless := args.headless
  window := window
  zoom := args.zoom
  paths := ⟨layout.run, layout.flash, layout.shots, layout.stdout, layout.stderr⟩
  alive := none

/-- The display, if there is one, with Xvfb in its variable. -/
def startDisplay (env : Env) (args : StartArgs) : Effect StartWorld PyExc (Option String) :=
  if args.headless then pure none
  else do
    let chosen ← _start_xvfb env args.display
    update fun w => { w with xvfb := w.process }
    return some chosen

/-- The window, if there is to be one. -/
def awaitWindow (env : Env) (args : StartArgs) : Effect StartWorld PyExc (Option String) :=
  if args.headless then pure none
  else do
    let window ← findWindow env (List.finRange 200)
    return some window

/-- The `try` clause of `start`, up to `_dump_json`. -/
def launch (env : Env) (args : StartArgs) (bridge_port ble_control_port : ℤ) :
    Effect StartWorld PyExc StateDict := do
  let chosen_display ← startDisplay env args
  point env .seed_flash
  point env .link_flash
  spawnSim env
  let window ← awaitWindow env args
  let state ← read (build_sim_state layout args chosen_display window bridge_port ble_control_port)
  skipIf args.headless do
    point env .windowfocus
    point env .focus_sleep
  wait_for_tcp_listener env ble_control_port 0 env.listener
  point env .settle_sleep
  return state

/-- The `try` clause. -/
def startBody (args : StartArgs) (bridge_port ble_control_port : ℤ) : OnFile StateDict := do
  let state ← onLocals (launch layout setting.env args bridge_port ble_control_port)
  _dump_json orjson layout setting state
  onLocals (point setting.env .state_written)
  return state

/-- The `except` clause. -/
def startHandler (error : CallExc) : OnFile StateDict :=
  if error.isException then do
    onLocals (cleanUp setting.env)
    unlinkState layout
    throw error
  else throw error

/-- `start`, once there is no other simulator. -/
def startFresh (args : StartArgs) : OnFile StateDict := do
  let (bridge_port, ble_control_port) ← onLocals (choosePorts setting.env args)
  tryCatch (startBody orjson layout setting args bridge_port ble_control_port)
    (startHandler layout setting)

/-- `Simulator.start`. -/
def start (args : StartArgs) : OnFile StateDict := do
  onLocals (point setting.env .state_exists)
  if ← stateExists layout then
    onLocals (point setting.env .load_json)
    let state ← _load_json orjson layout
    if ← existing_state_is_healthy setting.around setting.host (document state) then return state
    else
      let _ ← stop orjson layout setting
      startFresh orjson layout setting args
  else startFresh orjson layout setting args

/-- `Simulator.restart`. -/
def restart (args : StartArgs) : OnFile StateDict := do
  let _ ← stop orjson layout setting
  start orjson layout setting args

end Model

/-! ## The same `start`

What is written here is what `Sim.launch` records, and between the pieces nothing is
added or left out. -/

/-- The `try` clause of `Sim.start` is `launch` with the end that writes the file. -/
theorem launch_eq (layout : SimLayout) (env : Env) (args : StartArgs)
    (bridge_port ble_control_port : ℤ) :
    Sim.launch env args ble_control_port = (do
      let state ← launch layout env args bridge_port ble_control_port
      point env .write_state
      update fun w => { w with stateFile := some state.toSimState }
      point env .state_written
      return state.toSimState) := by
  unfold Sim.launch launch startDisplay awaitWindow
  cases args.headless
  · simp only [skipIf, Bool.false_eq_true, if_false, bind_assoc, pure_bind]
    rfl
  · simp only [skipIf, if_true, bind_assoc, pure_bind]
    rfl

/-- `stop` on a file that is read. -/
theorem exec_stop {orjson : Orjson} {layout : SimLayout} {setting : Setting} {w : DiskWorld}
    {bytes : List UInt8} {state : StateDict} (hfile : w.disk layout.state = some bytes)
    (hstate : orjson.loads bytes = some state) :
    (stop orjson layout setting).exec w =
      match (terminateRecorded setting.host setting.fuel state.toSimState).exec w.processes with
      | (.ok (), processes) => (.ok true, { w with
          disk := Function.update w.disk layout.state none
          ops := w.ops ++ [.unlink layout.state]
          processes := processes })
      | (.error error, processes) =>
        (.error (.ofProcess error), { w with processes := processes }) := by
  unfold stop stateExists _load_json
  simp only [exec_bind, exec_read, hfile, Option.isSome_some, if_true, hstate]
  simp only [onProcesses, zoom, exec_of, mapException, exec_pure]
  rcases (terminateRecorded setting.host setting.fuel state.toSimState).exec w.processes with
    ⟨error | ⟨⟩, t⟩
  · rfl
  · rfl

/-- It ends as `Sim.stop` does, and does the same to the processes. -/
theorem stop_eq {orjson : Orjson} {layout : SimLayout} {setting : Setting} {w : DiskWorld}
    {bytes : List UInt8} {state : StateDict} (hfile : w.disk layout.state = some bytes)
    (hstate : orjson.loads bytes = some state) :
    let run := (stop orjson layout setting).exec w
    let run' := (Sim.stop setting.host setting.fuel).exec ⟨w.processes, some state.toSimState⟩
    run.1 = run'.1.mapError .ofProcess ∧ run.2.processes = run'.2.trace ∧
      (run.2.disk layout.state = none ↔ run'.2.stateFile = none) := by
  intro run run'
  have hrun : run = _ := exec_stop hfile hstate
  rw [hrun]
  unfold run' Sim.stop
  simp only [exec_bind, exec_read]
  simp only [Sim.onProcesses, zoom, exec_of]
  rcases (terminateRecorded setting.host setting.fuel state.toSimState).exec w.processes with
    ⟨error | ⟨⟩, t⟩
  · exact ⟨rfl, rfl, iff_of_false (by simp [hfile]) (by simp)⟩
  · exact ⟨rfl, rfl, iff_of_true (Function.update_self ..) rfl⟩

/-! ## The rules of its parts -/

section Rules

variable {orjson : Orjson} {layout : SimLayout} {setting : Setting} {I : DiskWorld → Prop}

theorem exec_onLocals_point (p : Point) (w : DiskWorld) :
    (onLocals (point setting.env p)).exec w =
      match setting.env.fault p with
      | none => (.ok (), w)
      | some error => (.error (.raised error), w) := by
  unfold onLocals zoom mapException point
  rw [exec_of, exec_of]
  rcases setting.env.fault p with _ | error <;> rfl

/-- A part of `start` leaves the disk and the processes alone. -/
theorem triple_onLocals {α : Type} {m : Effect StartWorld PyExc α} {P : StartWorld → Prop}
    {Q : α → StartWorld → Prop} {E : PyExc → StartWorld → Prop} (hm : Triple P m Q E)
    (F : Disk String → Trace → Prop) :
    Triple (fun w => P w.locals ∧ F w.disk w.processes) (onLocals m)
      (fun a w => Q a w.locals ∧ F w.disk w.processes)
      (fun error w => ∃ e, error = .raised e ∧ E e w.locals ∧ F w.disk w.processes) := by
  rintro w ⟨hw, hframe⟩
  unfold onLocals zoom mapException
  simp only [exec_of]
  rcases hrun : m.exec w.locals with ⟨e | a, locals⟩
  · exact ⟨e, rfl, hm.of_error hw hrun, hframe⟩
  · exact ⟨hm.of_ok hw hrun, hframe⟩

theorem always_onLocals_point (p : Point) :
    Always I (onLocals (point setting.env p)) := by
  intro w hw
  rw [exec_onLocals_point]
  rcases setting.env.fault p with _ | e <;> exact hw

theorem stateExists_rule {E : CallExc → DiskWorld → Prop} :
    Triple I (stateExists layout)
      (fun there w => I w ∧ (there = false → w.disk layout.state = none)) E := by
  refine triple_read fun w hw => ⟨hw, fun hnone => ?_⟩
  rcases hfile : w.disk layout.state with _ | bytes
  · rfl
  · rw [hfile] at hnone
    cases hnone

/-- What `_load_json` returns is what the file has. -/
theorem load_json_rule :
    Triple I (_load_json orjson layout)
      (fun state w => I w ∧ (w.disk layout.state).bind orjson.loads = some state)
      (fun _ => I) := by
  unfold _load_json
  refine triple_bind (triple_read (Q := fun file w => I w ∧ w.disk layout.state = file)
    fun w hw => ⟨hw, rfl⟩) fun file => ?_
  rcases file with _ | bytes
  · exact triple_throw fun w hw => hw.1
  dsimp only
  rcases hloads : orjson.loads bytes with _ | state
  · exact triple_throw fun w hw => hw.1
  · refine triple_pure fun w hw => ⟨hw.1, ?_⟩
    rw [hw.2]
    exact hloads

theorem exec_stateExists_none {w : DiskWorld} (hnone : w.disk layout.state = none) :
    (stateExists layout).exec w = (.ok false, w) := by
  unfold stateExists
  rw [exec_read, hnone]
  rfl

theorem exec_stateExists_file {bytes : List UInt8} {w : DiskWorld}
    (hfile : w.disk layout.state = some bytes) : (stateExists layout).exec w = (.ok true, w) := by
  unfold stateExists
  rw [exec_read, hfile]
  rfl

theorem always_lift {α : Type} (outcome : Except CallExc α) :
    Always I (lift outcome : OnFile α) := by
  intro w hw
  rw [exec_lift]
  rcases outcome with e | a <;> exact hw

theorem always_alive {host : Host}
    (hI : ∀ processes w, I w → I { w with processes := processes }) (pid : ℤ) : Always I (alive host pid) := by
  unfold alive onProcesses
  exact always_zoom hI

/-- **The rule of the verdict**: it keeps what its questions keep. -/
theorem verdict_rule {around : Around} {host : Host}
    (halive : ∀ pid, Always I (alive host pid)) (document : List (String × PyValue)) :
    Always I (existing_state_is_healthy around host document) := by
  have hall : ∀ sim_pid xvfb_pid number,
      Always I (allAnswer around host sim_pid xvfb_pid number) := by
    intro sim_pid xvfb_pid number
    unfold allAnswer
    refine always_bind (halive _) fun simAlive => ?_
    split_ifs
    · refine always_bind (halive _) fun xvfbAlive => ?_
      split_ifs
      · exact always_lift _
      · exact always_pure _
    · exact always_pure _
  unfold existing_state_is_healthy
  refine always_bind (always_lift _) fun sim_pid => always_bind (always_lift _) fun xvfb_pid => ?_
  split_ifs
  · exact halive _
  · exact always_pure _
  split
  · split_ifs
    · exact always_pure _
    · split
      · exact always_pure _
      · exact hall _ _ _
  · exact always_pure _

end Rules

/-! ## Sessions -/

inductive Call where
  | start (args : StartArgs)
  | stop
  | kill
  | status
  | restart (args : StartArgs)

section Session

variable (orjson : Orjson) (layout : SimLayout)

/-- A call, without what it returns. -/
def Call.run (setting : Setting) : Call → OnFile Unit
  | .start args => do let _ ← OnDisk.start orjson layout setting args
  | .stop => do let _ ← OnDisk.stop orjson layout setting
  | .kill => do let _ ← OnDisk.kill orjson layout setting
  | .status => do let _ ← OnDisk.status orjson layout setting
  | .restart args => do let _ ← OnDisk.restart orjson layout setting args

/-- The disks that calls leave, one after another, from one without a state file: each
call runs to its end or crashes behind some of the things it does to the file, or
inside one. -/
inductive Session : Disk String → Prop
  | first {d : Disk String} (h : d layout.state = none) : Session d
  | ended {d : Disk String} (h : Session d) (call : Call) (setting : Setting) :
      Session ((call.run orjson layout setting).exec (.initial d)).2.disk
  | crashed {d d' : Disk String} (h : Session d) (call : Call) (setting : Setting)
      {done rest : List (Op String)}
      (hops : ((call.run orjson layout setting).exec (.initial d)).2.ops = done ++ rest)
      (hcrash : Crash d done rest d') : Session d'

/-- There is no state file, or it has the front part of a document. -/
def Found (d : Disk String) : Prop :=
  d layout.state = none ∨ ∃ state text part, orjson.dumps state = some text ∧
    d layout.state = some part ∧ part <+: text ++ [0x0A]

/-- What the calls do to the file. -/
inductive OpFine : Op String → Prop
  | write {state : StateDict} {text part : List UInt8} (htext : orjson.dumps state = some text)
      (hpart : part <+: text ++ [0x0A]) : OpFine (.write layout.state part)
  | unlink : OpFine (.unlink layout.state)

/-- What holds of the disk, and of what has been done to it. -/
def FileInv (w : DiskWorld) : Prop :=
  Found orjson layout w.disk ∧ ∀ op ∈ w.ops, OpFine orjson layout op

variable {orjson layout}

theorem OpFine.apply {op : Op String} (h : OpFine orjson layout op) (d : Disk String) :
    Found orjson layout (op.apply d) := by
  cases h with
  | @write state text part htext hpart =>
      exact .inr ⟨state, text, part, htext, Function.update_self .., hpart⟩
  | unlink => exact .inl (Function.update_self ..)

theorem OpFine.torn {op : Op String} (h : OpFine orjson layout op) {d d' : Disk String}
    (htorn : op.Torn d d') : Found orjson layout d' := by
  cases h with
  | @write state text part htext hpart =>
      cases htorn with
      | write _ hcut =>
          exact .inr ⟨state, text, _, htext, Function.update_self .., hcut.trans hpart⟩
  | unlink => cases htorn

section Keeps

variable {setting : Setting}

theorem keeps_onProcesses {α : Type} (m : Effect Trace ProcessExc α) :
    Always (FileInv orjson layout) (onProcesses m) := always_zoom fun _ _ hw => hw

theorem keeps_onLocals {α : Type} (m : Effect StartWorld PyExc α) :
    Always (FileInv orjson layout) (onLocals m) := always_zoom fun _ _ hw => hw

theorem keeps_perform {op : Op String} (h : OpFine orjson layout op) :
    Always (FileInv orjson layout) (perform op) := by
  refine triple_update fun w hw => ⟨h.apply w.disk, fun op' hop' => ?_⟩
  rcases List.mem_append.mp hop' with hop' | hop'
  · exact hw.2 op' hop'
  · rw [List.mem_singleton.mp hop']
    exact h

theorem keeps_read {α : Type} (f : DiskWorld → α) :
    Always (FileInv orjson layout) (read f : OnFile α) := triple_read fun _ hw => hw

theorem keeps_load_json : Always (FileInv orjson layout) (_load_json orjson layout) := by
  unfold _load_json
  refine always_bind (keeps_read _) fun file => ?_
  cases file with
  | none => exact always_throw _
  | some bytes =>
      dsimp only
      split
      · exact always_throw _
      · exact always_pure _

theorem keeps_dump_json (state : StateDict) :
    Always (FileInv orjson layout) (_dump_json orjson layout setting state) := by
  unfold _dump_json
  rcases htext : orjson.dumps state with _ | text
  · exact always_throw _
  dsimp only
  rcases setting.env.fault .write_state with _ | error
  · exact keeps_perform (.write htext List.prefix_rfl)
  · refine always_bind ?_ fun _ => always_throw _
    unfold writePart
    split
    · exact always_pure _
    · exact keeps_perform (.write htext (List.take_prefix _ _))

theorem keeps_stop : Always (FileInv orjson layout) (stop orjson layout setting) := by
  unfold stop
  refine always_bind (keeps_read _) fun there => ?_
  split
  · refine always_bind keeps_load_json fun state => always_bind (keeps_onProcesses _) fun _ => ?_
    exact always_bind (keeps_perform .unlink) fun _ => always_pure _
  · exact always_pure _

theorem keeps_kill : Always (FileInv orjson layout) (kill orjson layout setting) := by
  unfold kill
  refine always_bind (keeps_read _) fun there => ?_
  split
  · refine always_bind keeps_load_json fun state => always_bind (keeps_onProcesses _) fun _ => ?_
    exact always_bind (keeps_perform .unlink) fun _ => always_pure _
  · exact always_pure _

theorem keeps_status : Always (FileInv orjson layout) (status orjson layout setting) := by
  unfold status
  refine always_bind (keeps_read _) fun there => ?_
  split
  · refine always_bind keeps_load_json fun state => always_bind (always_lift _) fun sim_pid => ?_
    split
    · exact always_bind (keeps_onProcesses _) fun _ => always_pure _
    · exact always_pure _
  · exact always_pure _

theorem keeps_startFresh (args : StartArgs) :
    Always (FileInv orjson layout) (startFresh orjson layout setting args) := by
  unfold startFresh
  refine always_bind (keeps_onLocals _) fun ports => always_tryCatch ?_ fun error => ?_
  · unfold startBody
    refine always_bind (keeps_onLocals _) fun state => always_bind (keeps_dump_json state) fun _ => ?_
    exact always_bind (keeps_onLocals _) fun _ => always_pure _
  · unfold startHandler
    split
    · refine always_bind (keeps_onLocals _) fun _ => ?_
      exact always_bind (keeps_perform .unlink) fun _ => always_throw _
    · exact always_throw _

theorem keeps_start (args : StartArgs) :
    Always (FileInv orjson layout) (start orjson layout setting args) := by
  unfold start
  refine always_bind (keeps_onLocals _) fun _ => always_bind (keeps_read _) fun there => ?_
  split
  · refine always_bind (keeps_onLocals _) fun _ => always_bind keeps_load_json fun state => ?_
    refine always_bind (verdict_rule (always_alive fun _ _ hw => hw) _) fun healthy => ?_
    split
    · exact always_pure _
    · exact always_bind keeps_stop fun _ => keeps_startFresh args
  · exact keeps_startFresh args

/-- **A call** writes documents to the state file, in front of which a fault may stop it,
and unlinks it. -/
theorem keeps_run (call : Call) :
    Always (FileInv orjson layout) (call.run orjson layout setting) := by
  cases call with
  | start args => exact always_bind (keeps_start args) fun _ => always_pure _
  | stop => exact always_bind keeps_stop fun _ => always_pure _
  | kill => exact always_bind keeps_kill fun _ => always_pure _
  | status => exact always_bind keeps_status fun _ => always_pure _
  | restart args =>
      exact always_bind (always_bind keeps_stop fun _ => keeps_start args) fun _ => always_pure _

end Keeps

/-- **A session** leaves no file, or the front part of a document. -/
theorem Session.found {d : Disk String} (h : Session orjson layout d) :
    Found orjson layout d := by
  have hinitial : ∀ d, Found orjson layout d → FileInv orjson layout (.initial d) :=
    fun d hd => ⟨hd, fun op hop => absurd hop List.not_mem_nil⟩
  induction h with
  | first h => exact .inl h
  | @ended d _ call setting ih => exact ((keeps_run call).exec (hinitial d ih)).1
  | @crashed d d' _ call setting done rest hops hcrash ih =>
      have hkeeps : Always (FileInv orjson layout) (call.run orjson layout setting) :=
        keeps_run call
      have hfine := (hkeeps.exec (hinitial d ih)).2
      rw [hops, List.forall_mem_append] at hfine
      exact hcrash.rule (fun op hop d _ => (hfine.1 op hop).apply d)
        (fun op hop d d' _ htorn => (hfine.2 op hop).torn htorn) ih

end Session

end Ptlab.Sim.OnDisk
