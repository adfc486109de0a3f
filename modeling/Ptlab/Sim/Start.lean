/-
`Simulator.start` (`src/ptlab/sim.py`), and the processes it leaves behind.

Each call `start` makes is a `Point` at which an exception may be raised; `Env`
says which exception, and what the calls that return give back. A run spawns up
to two process groups, one led by Xvfb and one by the simulator, and has to pass
each on to a termination call or to the state file. `start_no_orphans_iff` says
which exceptions may be raised where for that to hold of every run.

`subprocess.Popen` either starts a process or raises. The flash is seeded and
linked without effect on processes.
-/
import Mathlib.Data.List.FinRange
import Ptlab.Sim.State

set_option autoImplicit false

open Effect Ptlab.Processes

namespace Ptlab.Sim

/-! ## What can be raised, and where -/

/-- An exception. `except Exception` is for the first kind only; the second are
`KeyboardInterrupt`, `SystemExit` and the like. -/
inductive PyExc where
  | Exception (type message : String)
  | BaseException (type : String)
  deriving DecidableEq, Repr

def PyExc.isException : PyExc → Bool
  | .Exception _ _ => true
  | .BaseException _ => false

def SimError (message : String) : PyExc := .Exception "SimError" message

/-- The calls of `start` and its helpers, in order. Calls in a loop have the
number of the turn. -/
inductive Point where
  -- before the first process
  | state_exists
  | load_json
  | existing_state_is_healthy
  | stop
  | binary_exists
  | allocate_tcp_port (n : ℕ)
  | create
  -- `_start_xvfb`: its log, and its first `try`
  | logs_mkdir
  | xvfb_log_open
  | xvfb_popen
  | selector
  | select
  | readline
  | xvfb_stdout_close
  | first_poll
  | first_killpg
  | error_stream_close
  -- `_start_xvfb`: its second `try`
  | xvfb_poll (i : Fin 100)
  | getdisplaygeometry (i : Fin 100)
  | xvfb_sleep (i : Fin 100)
  | second_poll
  | second_killpg
  -- the simulator
  | seed_flash
  | link_flash
  | stdout_open
  | stderr_open
  | sim_popen
  | stdout_close
  | stderr_close
  | search (i : Fin 200)
  | sim_poll (i : Fin 200)
  | sim_sleep (i : Fin 200)
  | windowfocus
  | focus_sleep
  -- `wait_for_tcp_listener`
  | process_alive (n : ℕ)
  | probe (n : ℕ)
  | process_alive_again (n : ℕ)
  | listener_sleep (n : ℕ)
  | process_alive_at_last
  -- the end, and the `except` clause
  | settle_sleep
  | write_state
  | state_written
  | terminate_process_groups
  | unlink
  deriving DecidableEq, Repr

/-- What the calls of a run do. -/
structure Env where
  /-- What is raised at a point, if anything. -/
  fault : Point → Option PyExc
  healthy : Bool
  infinisim : String
  binary_exists : Bool
  /-- The ports the system has to give. -/
  ports : List ℤ
  /-- Whether both outputs go to one file, which is opened once. -/
  one_log : Bool
  stderr : String
  xvfb_pid : ℤ
  xvfb_pid_pos : 0 < xvfb_pid
  sim_pid : ℤ
  sim_pid_pos : 0 < sim_pid
  /-- Whether `poll` of Xvfb is `None`. -/
  xvfb_alive : Point → Bool
  sim_alive : Point → Bool
  /-- Whether `select` finds a line within its five seconds. -/
  selected : Bool
  line : String
  /-- `line.isdigit()`. -/
  line_isdigit : Bool
  /-- Whether `xdotool getdisplaygeometry` succeeds. -/
  display_ready : Fin 100 → Bool
  /-- The windows `xdotool search` finds. -/
  windows : Fin 200 → List String
  /-- What the probes of the listener find, one for each turn that begins before
  the deadline. -/
  listener : List Bool

structure StartArgs where
  display : Option String
  zoom : ℤ
  bridge_port : Option ℤ
  ble_control_port : Option ℤ
  headless : Bool

/-- The state file, the process groups, and the local variables that hold
processes. A group has the pid of its leader. -/
structure StartWorld where
  stateFile : Option SimState
  /-- Groups spawned. -/
  spawned : List ℤ
  /-- Groups passed to a termination call. -/
  passed : List ℤ
  /-- `process`, in `_start_xvfb`. -/
  process : Option ℤ
  xvfb : Option ℤ
  sim : Option ℤ
  deriving DecidableEq, Repr

/-- Before `start` is called. -/
def StartWorld.initial (stateFile : Option SimState) : StartWorld :=
  ⟨stateFile, [], [], none, none, none⟩

section Model

variable (env : Env)

/-- A call that returns or raises. -/
def point (p : Point) : Effect StartWorld PyExc Unit :=
  match env.fault p with
  | none => pure ()
  | some e => throw e

/-- `if not ok: raise SimError(message)`. -/
def orRaise (ok : Bool) (message : String) : Effect StartWorld PyExc Unit :=
  if ok then pure () else throw (SimError message)

/-- `try: … except Exception: handler; raise`. -/
def onException {α : Type} (body : Effect StartWorld PyExc α)
    (handler : Effect StartWorld PyExc Unit) : Effect StartWorld PyExc α :=
  tryCatch body fun e => if e.isException then do handler; throw e else throw e

/-! ## `_start_xvfb` -/

/-- The loop of `_wait_for_x`. -/
def _wait_for_x (display : String) : List (Fin 100) → Effect StartWorld PyExc Unit
  | [] => throw (SimError s!"Xvfb display {display} failed to come up")
  | i :: turns => do
    point env (.xvfb_poll i)
    orRaise (env.xvfb_alive (.xvfb_poll i))
      s!"Xvfb exited before display {display} became ready"
    point env (.getdisplaygeometry i)
    if env.display_ready i then pure ()
    else do
      point env (.xvfb_sleep i)
      _wait_for_x display turns

/-- The body of the first `try`: the display. -/
def spawnXvfb (display : Option String) : Effect StartWorld PyExc String := do
  point env .xvfb_popen
  update fun w => { w with spawned := w.spawned ++ [env.xvfb_pid], process := some env.xvfb_pid }
  if display.getD "" ≠ "" then pure (display.getD "")
  else do
    point env .selector
    point env .select
    orRaise env.selected "Xvfb did not allocate a display within 5 seconds"
    point env .readline
    point env .xvfb_stdout_close
    orRaise env.line_isdigit s!"Xvfb returned an invalid display number: \x27{env.line}\x27"
    pure (":" ++ env.line)

/-- `if process.poll() is None: os.killpg(process.pid, signal.SIGKILL)`, if there
is a process. -/
def killXvfb (poll killpg : Point) : Effect StartWorld PyExc Unit := do
  match ← read StartWorld.process with
  | none => pure ()
  | some pid => do
    point env poll
    if env.xvfb_alive poll then do
      -- passed on before the call: what `killpg` raises comes after the signal
      update fun w => { w with passed := w.passed ++ [pid] }
      point env killpg
    else pure ()

def _start_xvfb (display : Option String) : Effect StartWorld PyExc String := do
  update fun w => { w with process := none }
  point env .logs_mkdir
  point env .xvfb_log_open
  let chosen ← ensure
    (onException (spawnXvfb env display) (killXvfb env .first_poll .first_killpg))
    (point env .error_stream_close)
  onException (_wait_for_x env chosen (List.finRange 100))
    (killXvfb env .second_poll .second_killpg)
  return chosen

/-! ## `wait_for_tcp_listener` -/

def wait_for_tcp_listener (port : ℤ) (n : ℕ) : List Bool → Effect StartWorld PyExc Unit
  | [] => do
    point env .process_alive_at_last
    orRaise (env.sim_alive .process_alive_at_last)
      s!"simulator exited before bridge port {port} became ready"
    throw (SimError s!"bridge port {port} did not accept connections within 5 seconds")
  | accepting :: turns => do
    point env (.process_alive n)
    orRaise (env.sim_alive (.process_alive n))
      s!"simulator exited before bridge port {port} became ready"
    point env (.probe n)
    if accepting then do
      point env (.process_alive_again n)
      orRaise (env.sim_alive (.process_alive_again n))
        s!"simulator exited while bridge port {port} was starting"
    else do
      point env (.listener_sleep n)
      wait_for_tcp_listener port (n + 1) turns

/-! ## `start` -/

/-- `allocate_tcp_port`, called for the `n`-th time. -/
def allocate_tcp_port (n : ℕ) : Effect StartWorld PyExc ℤ := do
  point env (.allocate_tcp_port n)
  match env.ports[n]? with
  | some port => pure port
  | none => throw (.Exception "OSError" "")

/-- The port of the bridge, and how many ports have been allocated for it. -/
def bridgePort (args : StartArgs) : Effect StartWorld PyExc (ℤ × ℕ) :=
  match args.bridge_port with
  | some port => pure (port, 0)
  | none => do
    let port ← allocate_tcp_port env 0
    pure (port, 1)

/-- A port other than the bridge's. Each turn takes one of the ports. -/
def allocateOther (bridge_port : ℤ) : ℕ → ℕ → Effect StartWorld PyExc ℤ
  | 0, n => allocate_tcp_port env n
  | fuel + 1, n => do
    let port ← allocate_tcp_port env n
    if port = bridge_port then allocateOther bridge_port fuel (n + 1) else pure port

def controlPort (args : StartArgs) (bridge_port : ℤ) (n : ℕ) : Effect StartWorld PyExc ℤ :=
  match args.ble_control_port with
  | some port => pure port
  | none => allocateOther env bridge_port env.ports.length n

/-- The checks in front of the `try`: both ports. -/
def choosePorts (args : StartArgs) : Effect StartWorld PyExc (ℤ × ℤ) := do
  point env .binary_exists
  orRaise env.binary_exists
    s!"{env.infinisim}/build/infinisim not built. Run: cmake --build {env.infinisim}/build -j$(nproc)"
  orRaise (1 ≤ args.zoom) "zoom must be at least 1"
  let (bridge_port, n) ← bridgePort env args
  orRaise (1 ≤ bridge_port ∧ bridge_port ≤ 65535) "bridge port must be between 1 and 65535"
  let ble_control_port ← controlPort env args bridge_port n
  orRaise (1 ≤ ble_control_port ∧ ble_control_port ≤ 65535)
    "BLE-control port must be between 1 and 65535"
  orRaise (ble_control_port ≠ bridge_port) "bridge and BLE-control ports must differ"
  orRaise (!args.headless || args.display.isNone) "headless simulator cannot use an X display"
  point env .create
  return (bridge_port, ble_control_port)

/-- The loop that waits for the window. -/
def findWindow : List (Fin 200) → Effect StartWorld PyExc String
  | [] => throw (SimError "simulator window never appeared")
  | i :: turns => do
    point env (.search i)
    match (env.windows i).getLast? with
    | some window => pure window
    | none => do
      point env (.sim_poll i)
      orRaise (env.sim_alive (.sim_poll i)) s!"simulator exited immediately; see {env.stderr}"
      point env (.sim_sleep i)
      findWindow turns

/-- `build_sim_state`, as far as clean-up reads it. -/
def build_sim_state (w : StartWorld) : SimState where
  sim := w.sim.map fun pid => ⟨some pid, some pid⟩
  xvfb := w.xvfb.map fun pid => ⟨some pid, some pid⟩
  sim_pid := w.sim
  xvfb_pid := w.xvfb

/-- Opening the logs, and `Popen` with its `finally`. -/
def spawnSim : Effect StartWorld PyExc Unit := do
  point env .stdout_open
  skipIf env.one_log (point env .stderr_open)
  ensure
    (do
      point env .sim_popen
      update fun w => { w with spawned := w.spawned ++ [env.sim_pid], sim := some env.sim_pid })
    (do
      point env .stdout_close
      skipIf env.one_log (point env .stderr_close))

/-- The `try` clause. -/
def launch (args : StartArgs) (ble_control_port : ℤ) : Effect StartWorld PyExc SimState := do
  skipIf args.headless do
    let _ ← _start_xvfb env args.display
    update fun w => { w with xvfb := w.process }
  point env .seed_flash
  point env .link_flash
  spawnSim env
  skipIf args.headless do
    let _ ← findWindow env (List.finRange 200)
  -- built before the last waits, written after them
  let state ← read build_sim_state
  skipIf args.headless do
    point env .windowfocus
    point env .focus_sleep
  wait_for_tcp_listener env ble_control_port 0 env.listener
  point env .settle_sleep
  point env .write_state
  update fun w => { w with stateFile := some state }
  point env .state_written
  return state

/-- The `except` clause. -/
def cleanUp : Effect StartWorld PyExc Unit := do
  -- `xvfb` and `sim` here, not the `process` of `_start_xvfb`
  update fun w => { w with passed := w.passed ++ w.sim.toList ++ w.xvfb.toList }
  point env .terminate_process_groups
  point env .unlink
  update fun w => { w with stateFile := none }

/-- `start`, once there is no other simulator. -/
def startFresh (args : StartArgs) : Effect StartWorld PyExc SimState := do
  let (_, ble_control_port) ← choosePorts env args
  onException (launch env args ble_control_port) (cleanUp env)

/-- `Simulator.start`. -/
def start (args : StartArgs) : Effect StartWorld PyExc SimState := do
  point env .state_exists
  match ← read StartWorld.stateFile with
  | none => startFresh env args
  | some state => do
    point env .load_json
    point env .existing_state_is_healthy
    if env.healthy then return state
    else do
      point env .stop
      update fun w => { w with stateFile := none }
      startFresh env args

end Model

/-! ## What must not be left behind -/

/-- The groups in the state file, where `stop` finds them. -/
def StartWorld.recorded (w : StartWorld) : List ℤ :=
  ((w.stateFile.map _process_refs).getD []).map ProcessRef.pgid

/-- Every group has been passed to a termination call or is in the state file. -/
def AllReached (w : StartWorld) : Prop :=
  ∀ pid ∈ w.spawned, pid ∈ w.passed ∨ pid ∈ w.recorded

/-- What there is to be left behind at a point. -/
inductive Stage where
  /-- Nothing, or all of it is passed on or recorded. -/
  | idle
  /-- Xvfb, if the run is not headless. -/
  | xvfb
  /-- The simulator, and Xvfb. -/
  | running
  /-- Xvfb, outside any `try`. -/
  | unguarded
  deriving DecidableEq, Repr

def Point.stage : Point → Stage
  | .state_exists | .load_json | .existing_state_is_healthy | .stop | .binary_exists
  | .allocate_tcp_port _ | .create | .logs_mkdir | .xvfb_log_open | .xvfb_popen | .first_killpg
  | .second_killpg | .state_written | .terminate_process_groups | .unlink => .idle
  | .selector | .select | .readline | .xvfb_stdout_close | .xvfb_poll _ | .getdisplaygeometry _
  | .xvfb_sleep _ | .seed_flash | .link_flash | .stdout_open | .stderr_open | .sim_popen
  | .search _ | .sim_poll _ | .sim_sleep _ | .windowfocus | .focus_sleep => .xvfb
  | .stdout_close | .stderr_close | .process_alive _ | .probe _ | .process_alive_again _
  | .listener_sleep _ | .process_alive_at_last | .settle_sleep | .write_state => .running
  | .first_poll | .error_stream_close | .second_poll => .unguarded

/-- Raising this here leaves nothing behind. -/
def HarmlessAt (headless : Bool) (p : Point) (e : PyExc) : Prop :=
  match p.stage with
  | .idle => True
  | .xvfb => headless = true ∨ e.isException = true
  | .running => e.isException = true
  | .unguarded => headless = true

end Ptlab.Sim
