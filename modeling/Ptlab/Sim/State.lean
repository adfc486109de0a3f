/-
The state file of a simulator (`src/ptlab/sim.py`), as far as clean-up reads it.

A state file is JSON and may hold anything. What matters to `stop` and `kill`
are four entries, each of which may be absent: the modern process references
`sim` and `xvfb`, and the legacy `sim_pid` and `xvfb_pid`.
-/
import Ptlab.Processes

set_option autoImplicit false

open Ptlab.Processes

namespace Ptlab.Sim

/-- The value of `sim` or `xvfb`. -/
structure ProcessEntry where
  pid : Option ℤ
  pgid : Option ℤ
  deriving DecidableEq, Repr

structure SimState where
  sim : Option ProcessEntry
  xvfb : Option ProcessEntry
  sim_pid : Option ℤ
  xvfb_pid : Option ℤ
  deriving DecidableEq, Repr

/-- One turn of the loop in `_process_refs`. Zero counts as absent. -/
def processRef (name : String) : Option ProcessEntry → List ProcessRef
  | some ⟨some pid, some pgid⟩ => if pid ≠ 0 ∧ pgid ≠ 0 then [⟨pid, pgid, name⟩] else []
  | _ => []

def _process_refs (state : SimState) : List ProcessRef :=
  processRef "sim" state.sim ++ processRef "xvfb" state.xvfb

def _legacy_pids (state : SimState) : List ℤ :=
  [state.sim_pid, state.xvfb_pid].filterMap fun value => match value with
    | some pid => if pid ≠ 0 then some pid else none
    | none => none

/-- The simulator's state file and what has been done to the processes. -/
structure SimWorld where
  trace : Trace
  stateFile : Option SimState
  deriving DecidableEq, Repr

end Ptlab.Sim
