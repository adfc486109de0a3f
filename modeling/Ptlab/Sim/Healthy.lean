/-
What a second `start` comes to (`src/ptlab/sim.py`).

`start` asks `existing_state_is_healthy` about the document that it finds, and what a
call has left there describes a simulator (`Session.describes`). Without a display the
verdict is a `TypeError`; with one it is that both processes and the display answer.
`second_start` has both cases, over any further calls.
-/
import Ptlab.Sim.Ledger

set_option autoImplicit false

open Effect Files Ptlab.Processes Ptlab.Sim.OnDisk

namespace Ptlab.Sim.Healthy

/-! ## The verdict on what is recorded -/

/-- A process answers the `n`-th question. -/
def Answers (host : Host) (n : ℕ) (pid : ℤ) : Prop :=
  host.probe n pid = .ok ∨ host.probe n pid = .PermissionError

/-- The display has a number, and the next two questions and the one to the display are
answered. -/
structure Responds (around : Around) (host : Host) (n : ℕ) (sim_pid xvfb_pid : ℤ)
    (display : String) : Prop where
  colon : display.toList.head? = some ':'
  sim : Answers host n sim_pid
  xvfb : Answers host (n + 1) xvfb_pid
  active : ∃ number, around.int (displayNumber display) = some number ∧
    display_is_active around number = .ok true

/-- Nothing has been done but to ask. -/
structure Untouched (d : Disk String) (w : DiskWorld) : Prop where
  disk : w.disk = d
  ops : w.ops = []
  signals : w.processes.signals = []
  locals : w.locals = .initial none

theorem untouched_initial (d : Disk String) : Untouched d (.initial d) := ⟨rfl, rfl, rfl, rfl⟩

section Verdict

variable {around : Around} {host : Host} {state : StateDict} {d : Disk String}

/-- One question: its answer, and one more of them asked. -/
theorem exec_alive (host : Host) (pid : ℤ) (w : DiskWorld) :
    ∃ answer, (alive host pid).exec w =
        (answer, { w with processes := { w.processes with probes := w.processes.probes + 1 } }) ∧
      (answer = .ok true ↔ Answers host w.processes.probes pid) := by
  unfold alive OnDisk.onProcesses zoom mapException process_is_alive Answers
  simp only [exec_of]
  rcases host.probe w.processes.probes pid with _ | _ | _ | message
  · exact ⟨_, rfl, by simp⟩
  · exact ⟨_, rfl, by simp⟩
  · exact ⟨_, rfl, by simp⟩
  · exact ⟨_, rfl, by simp⟩

theorem untouched_alive (pid : ℤ) : Always (Untouched d) (alive host pid) := by
  intro w hw
  obtain ⟨answer, hrun, -⟩ := exec_alive host pid w
  rw [hrun]
  rcases answer with e | b <;> exact ⟨hw.1, hw.2, hw.3, hw.4⟩

/-- The verdict is found by asking. -/
theorem untouched_verdict (document : List (String × PyValue)) :
    Always (Untouched d) (existing_state_is_healthy around host document) :=
  verdict_rule untouched_alive document

/-- The questions are put one after another, up to the first that is not answered. -/
theorem allAnswer_iff (sim_pid xvfb_pid number : ℤ) (w : DiskWorld) :
    ((allAnswer around host sim_pid xvfb_pid number).exec w).1 = .ok true ↔
      Answers host w.processes.probes sim_pid ∧
        Answers host (w.processes.probes + 1) xvfb_pid ∧
        display_is_active around number = .ok true := by
  obtain ⟨first, hfirst, hsim⟩ := exec_alive host sim_pid w
  obtain ⟨second, hsecond, hxvfb⟩ := exec_alive host xvfb_pid
    { w with processes := { w.processes with probes := w.processes.probes + 1 } }
  unfold allAnswer
  rw [exec_bind, hfirst, ← hsim]
  rcases first with e | _ | _
  · simp
  · simp
  dsimp only
  rw [if_pos rfl, exec_bind, hsecond, ← hxvfb]
  rcases second with e | _ | _
  · simp
  · simp
  dsimp only
  rw [if_pos rfl, exec_lift]
  rcases display_is_active around number with error | active
  · simp [Except.mapError]
  · simp [Except.mapError]

/-- **With a display** the verdict is that all three answer. -/
theorem verdict_responds (h : Described state) (hheadless : state.headless = false) :
    ∃ sim_pid xvfb_pid display, state.sim_pid = some sim_pid ∧ state.xvfb_pid = some xvfb_pid ∧
      state.display = some display ∧ ∀ (around : Around) (host : Host) (w : DiskWorld),
        ((existing_state_is_healthy around host (document state)).exec w).1 = .ok true ↔
          Responds around host w.processes.probes sim_pid xvfb_pid display := by
  obtain ⟨sim_pid, xvfb_pid, display, hsim, hxvfb, hdisplay, hrun⟩ := verdict_display h hheadless
  refine ⟨sim_pid, xvfb_pid, display, hsim, hxvfb, hdisplay, fun around host w => ?_⟩
  rw [hrun around host w]
  unfold allAsked
  by_cases hcolon : display.toList.head? = some ':'
  · rw [if_pos hcolon]
    rcases hnumber : around.int (displayNumber display) with _ | number
    · refine iff_of_false (by simp) fun hresponds => ?_
      obtain ⟨number, hsome, -⟩ := hresponds.active
      rw [hnumber] at hsome
      cases hsome
    · dsimp only
      rw [allAnswer_iff]
      constructor
      · rintro ⟨hfirst, hsecond, hactive⟩
        exact ⟨hcolon, hfirst, hsecond, number, hnumber, hactive⟩
      · rintro ⟨-, hfirst, hsecond, number', hnumber', hactive⟩
        rw [hnumber] at hnumber'
        injection hnumber' with hnumber'
        subst hnumber'
        exact ⟨hfirst, hsecond, hactive⟩
  · rw [if_neg hcolon]
    exact iff_of_false (by simp) fun hresponds => hcolon hresponds.colon

end Verdict

/-! ## The second start -/

section Second

variable (orjson : Orjson) (layout : SimLayout)

/-- Calls that do not end a simulator on purpose. -/
def Asks : Call → Prop
  | .start _ | .status => True
  | .stop | .kill | .restart _ => False

/-- The disk behind some calls, each with what it meets with. -/
def after (calls : List (Setting × Call)) (d : Disk String) : Disk String :=
  calls.foldl
    (fun d call => ((call.2.run orjson layout call.1).exec (.initial d)).2.disk) d

variable {orjson layout} {setting : Setting} {state : StateDict} {d : Disk String}

theorem untouched_status : Always (Untouched d) (OnDisk.status orjson layout setting) := by
  unfold OnDisk.status
  refine always_bind (triple_read fun _ hw => hw) fun there => ?_
  split_ifs
  · refine always_bind ((load_json_rule (I := Untouched d)).conseq (fun _ hw => hw)
      (fun _ _ hw => hw.1) fun _ _ hw => hw) fun state => ?_
    refine always_bind (always_lift _) fun sim_pid => ?_
    split_ifs
    · exact always_bind (untouched_alive _) fun _ => always_pure _
    · exact always_pure _
  · exact always_pure _

/-- Where a headless simulator is recorded, `start` raises and does nothing at all. -/
theorem start_headless (h : Described state) (hheadless : state.headless = true)
    (hread : (d layout.state).bind orjson.loads = some state) (args : StartArgs) :
    ∃ error, (OnDisk.start orjson layout setting args).exec (.initial d) =
        (.error error, .initial d) ∧
      (Undisturbed setting → error = intTypeError "NoneType") := by
  rcases hexists : setting.env.fault .state_exists with _ | error
  · rcases hload : setting.env.fault .load_json with _ | error
    · refine ⟨intTypeError "NoneType", ?_, fun _ => rfl⟩
      rw [start_reads ⟨hexists, hload⟩ (w := .initial d) hread, verdict_headless h hheadless]
    · refine ⟨.raised error, ?_, fun hquiet => ?_⟩
      · obtain ⟨bytes, hfile, -⟩ := Option.bind_eq_some_iff.mp hread
        have hthere : (DiskWorld.initial d).disk layout.state = some bytes := hfile
        unfold OnDisk.start stateExists
        rw [exec_bind, exec_onLocals_point, hexists]
        dsimp only
        rw [exec_bind, exec_read, hthere, Option.isSome_some]
        dsimp only
        rw [if_pos rfl, exec_bind, exec_onLocals_point, hload]
      · rw [hquiet.2] at hload
        cases hload
  · refine ⟨.raised error, ?_, fun hquiet => ?_⟩
    · unfold OnDisk.start
      rw [exec_bind, exec_onLocals_point, hexists]
    · rw [hquiet.1] at hexists
      cases hexists

/-- So it stays there. -/
theorem after_headless (h : Described state) (hheadless : state.headless = true)
    (hread : (d layout.state).bind orjson.loads = some state) :
    ∀ calls : List (Setting × Call), (∀ call ∈ calls, Asks call.2) →
      after orjson layout calls d = d := by
  intro calls
  induction calls with
  | nil => exact fun _ => rfl
  | cons call calls ih =>
      intro hasks
      rw [List.forall_mem_cons] at hasks
      have hstep : ((call.2.run orjson layout call.1).exec (.initial d)).2.disk = d := by
        obtain ⟨setting, call⟩ := call
        cases call with
        | start args =>
            obtain ⟨error, hrun, -⟩ : ∃ error,
                (OnDisk.start orjson layout setting args).exec (.initial d) =
                  (.error error, .initial d) ∧
                (Undisturbed setting → error = intTypeError "NoneType") :=
              start_headless h hheadless hread args
            unfold Call.run
            rw [exec_bind, hrun]
            rfl
        | status =>
            exact ((always_bind untouched_status fun _ => always_pure _).final
              (untouched_initial d) (fun _ _ hw => hw) fun _ _ hw => hw).disk
        | stop => exact hasks.1.elim
        | kill => exact hasks.1.elim
        | restart args => exact hasks.1.elim
      unfold after
      rw [List.foldl_cons, hstep]
      exact ih hasks.2

/-- **The second start.** What a call finds in the state file is what `start` has
recorded. If it is a simulator without a display, then whatever becomes of it, every
further `start` raises, by itself a `TypeError`, and leaves everything as it is, until
`stop`, `kill` or `restart` is called. If it has a display, `start` returns what is
recorded, and has done nothing but ask, if both processes and the display answer;
otherwise it raises what came instead of an answer, or it stops that simulator and
starts another. -/
theorem second_start (hd : Session orjson layout d)
    (hread : (d layout.state).bind orjson.loads = some state) :
    (state.headless = true → ∀ calls : List (Setting × Call), (∀ call ∈ calls, Asks call.2) →
      after orjson layout calls d = d ∧ ∀ setting args, ∃ error,
        (OnDisk.start orjson layout setting args).exec (.initial d) = (.error error, .initial d) ∧
          (Undisturbed setting → error = intTypeError "NoneType")) ∧
    (state.headless = false → ∃ sim_pid xvfb_pid display, state.sim_pid = some sim_pid ∧
      state.xvfb_pid = some xvfb_pid ∧ state.display = some display ∧
      ∀ setting args, Undisturbed setting →
        let started := (OnDisk.start orjson layout setting args).exec (.initial d)
        (Responds setting.around setting.host 0 sim_pid xvfb_pid display →
          started.1 = .ok state ∧ Untouched d started.2) ∧
        (¬ Responds setting.around setting.host 0 sim_pid xvfb_pid display →
          ∃ w, Untouched d w ∧ ((∃ error, started = (.error error, w)) ∨
            started = (do
              let _ ← OnDisk.stop orjson layout setting
              OnDisk.startFresh orjson layout setting args : OnFile StateDict).exec w))) := by
  have hdescribed : Described state := hd.describes state hread
  refine ⟨fun hheadless calls hasks => ⟨after_headless hdescribed hheadless hread calls hasks,
    fun setting args => start_headless hdescribed hheadless hread args⟩, fun hheadless => ?_⟩
  obtain ⟨sim_pid, xvfb_pid, display, hsim, hxvfb, hdisplay, hresponds⟩ :=
    verdict_responds hdescribed hheadless
  refine ⟨sim_pid, xvfb_pid, display, hsim, hxvfb, hdisplay, fun setting args hquiet => ?_⟩
  have hverdict : ((existing_state_is_healthy setting.around setting.host (document state)).exec
      (.initial d)).1 = .ok true ↔
        Responds setting.around setting.host 0 sim_pid xvfb_pid display :=
    hresponds _ _ (.initial d)
  have hasks : Always (Untouched d)
      (existing_state_is_healthy setting.around setting.host (document state)) :=
    untouched_verdict _
  have huntouched := hasks.final (untouched_initial d) (fun _ _ hw => hw) fun _ _ hw => hw
  intro started
  have hstarted : started = _ := start_reads hquiet (w := .initial d) hread args
  rw [hstarted, ← hverdict]
  rcases hrun : (existing_state_is_healthy setting.around setting.host (document state)).exec
    (.initial d) with ⟨error | _ | _, w⟩ <;> rw [hrun] at huntouched
  · exact ⟨fun h => by (cases h), fun _ => ⟨w, huntouched, .inl ⟨error, rfl⟩⟩⟩
  · exact ⟨fun h => by (cases h), fun _ => ⟨w, huntouched, .inr rfl⟩⟩
  · exact ⟨fun _ => ⟨rfl, huntouched⟩, fun h => absurd rfl h⟩

/-- A headless simulator is started, `status` is asked for, and it is started again. -/
theorem second_start_headless :
    let d := (((Call.start (loneArgs true)).run headlessOrjson headlessLayout
      (quiet 400 0)).exec (.initial fun _ => none)).2.disk
    after headlessOrjson headlessLayout [(quiet 400 0, .status)] d = d ∧
      (OnDisk.start headlessOrjson headlessLayout (quiet 400 0) (loneArgs true)).exec
        (.initial d) = (.error (intTypeError "NoneType"), .initial d) := by
  intro d
  have hread : (d headlessLayout.state).bind headlessOrjson.loads = some headlessState := by
    decide +kernel
  obtain ⟨hafter, hstart⟩ := (@second_start headlessOrjson headlessLayout headlessState d
    (.ended (.first rfl) (.start (loneArgs true)) (quiet 400 0)) hread).1 rfl
    [(quiet 400 0, .status)] (List.forall_mem_singleton.mpr trivial)
  obtain ⟨error, hrun, herror⟩ := hstart (quiet 400 0) (loneArgs true)
  refine ⟨hafter, ?_⟩
  rw [hrun, herror ⟨rfl, rfl⟩]

end Second

end Ptlab.Sim.Healthy
