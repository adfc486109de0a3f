/-
`ptlab run` (`src/ptlab/cli.py`, the command `run` of `main`): which scenarios it runs, and
what its exit code says.

`select_scenarios` narrows the registered scenarios down, and `main` runs what is left, one
after another, whatever the runs before came to. An exception out of `run_scenario` is
another matter: it ends the suite. What is left on disk then tells it, unless the run has
written its last result all the same: `run.finished` is emitted when the file already says
how the scenario went. `suite_verdict` is the exit code against the result files. What
`run_scenario` does before it first writes one is not part of a run here.
-/
import Ptlab.Scenario

set_option autoImplicit false

open Effect Ptlab.Artifacts

namespace Ptlab.Scenario.Suite

/-! ## Selection -/

/-- A `ScenarioDefinition` with the entries that are only listed and searched. -/
structure Registered where
  definition : ScenarioDefinition
  description : String
  tags : List String

/-- `SCENARIOS`. A module in which two have one name is not imported. -/
structure Registry where
  scenarios : List Registered
  unique : (scenarios.map fun s => s.definition.name).Nodup

/-- What is Python's own, and whether `main` names the class of an exception, or one that
it is derived from. -/
structure Builtins where
  casefold : String → String
  repr : String → String
  named : PyError → Bool

/-- `needle in text`. -/
def contains (text needle : String) : Bool := needle.toList <:+: text.toList

section Main

variable (py : Builtins)

/-- Whether a filter lets a scenario through. -/
def accepts (expression : String) (scenario : Registered) : Bool :=
  let needle := py.casefold expression
  contains (py.casefold scenario.definition.name) needle ||
    contains (py.casefold scenario.description) needle ||
    scenario.tags.any fun tag => contains (py.casefold tag) needle

/-- `SCENARIO_BY_NAME[suite]`. -/
def byName (registry : Registry) (suite : String) : Option Registered :=
  registry.scenarios.find? fun s => s.definition.name = suite

/-- The first half of `select_scenarios`. -/
def suiteOf (registry : Registry) (suite : String) : Except PyError (List Registered) :=
  if suite = "all" then .ok registry.scenarios
  else match byName registry suite with
    | some scenario => .ok [scenario]
    | none => .error (.other "ValueError" ("unknown suite " ++ py.repr suite))

/-- `select_scenarios`. Each filter narrows what the ones before have left. -/
def select_scenarios (registry : Registry) (suite : String) (filters : List String) :
    Except PyError (List Registered) := do
  let selected ← suiteOf py registry suite
  return filters.foldl (fun selected expression => selected.filter (accepts py expression)) selected

/-! ## The command -/

/-- A run of the suite: how it ended, and what it left. -/
structure Performed where
  scenario : Registered
  outcome : Except PyError ℕ
  run : Run

/-- The loop of `main`: the code so far and the scenarios to come. Each run has its own
environment, by its number. -/
def runAll (timeout : Option ℚ) (env : ℕ → Environment) :
    ℕ → ℕ → List Registered → Except PyError ℕ × List Performed
  | _, exit_code, [] => (.ok exit_code, [])
  | number, exit_code, scenario :: rest =>
    match (run_scenario scenario.definition timeout (env number)).exec Run.new with
    | (.error error, run) => (.error error, [⟨scenario, .error error, run⟩])
    | (.ok code, run) =>
      let (outcome, runs) := runAll timeout env (number + 1) (max exit_code code) rest
      (outcome, ⟨scenario, .ok code, run⟩ :: runs)

/-- What the `try` of `main` comes to for `run`. -/
def runCommand (registry : Registry) (suite : String) (filters : List String)
    (timeout : Option ℚ) (env : ℕ → Environment) : Except PyError ℕ × List Performed :=
  match select_scenarios py registry suite filters with
  | .error error => (.error error, [])
  | .ok [] => (.error (.other "ValueError" "scenario filters selected no suites"), [])
  | .ok (first :: rest) => runAll timeout env 0 0 (first :: rest)

/-- The `except` of `main`. -/
def exceptClause : Except PyError ℕ → Except PyError ℕ
  | .ok exit_code => .ok exit_code
  | .error error => if py.named error then .ok 1 else .error error

/-- `main` for the command `run`: the exit code, and the runs there were. -/
def main (registry : Registry) (suite : String) (filters : List String) (timeout : Option ℚ)
    (env : ℕ → Environment) : Except PyError ℕ × List Performed :=
  let (outcome, runs) := runCommand py registry suite filters timeout env
  (exceptClause py outcome, runs)

/-! ## What is selected -/

/-- A scenario that the suite and every filter let through. -/
def Chosen (suite : String) (filters : List String) (scenario : Registered) : Bool :=
  (suite = "all" || scenario.definition.name = suite) &&
    filters.all fun expression => accepts py expression scenario

theorem foldl_filter (filters : List String) (selected : List Registered) :
    filters.foldl (fun selected expression => selected.filter (accepts py expression)) selected =
      selected.filter fun scenario =>
        filters.all fun expression => accepts py expression scenario := by
  induction filters generalizing selected with
  | nil => exact (List.filter_eq_self.mpr fun _ _ => rfl).symm
  | cons expression filters ih =>
      rw [List.foldl_cons, ih, List.filter_filter]
      apply List.filter_congr
      intro scenario _
      rw [List.all_cons, Bool.and_comm]

/-- One with the name is the only one. -/
theorem filter_name {scenarios : List Registered}
    (hunique : (scenarios.map fun s => s.definition.name).Nodup) (suite : String) :
    scenarios.filter (fun s => s.definition.name = suite) =
      (scenarios.find? fun s => s.definition.name = suite).toList := by
  induction scenarios with
  | nil => rfl
  | cons scenario scenarios ih =>
      rw [List.map_cons, List.nodup_cons] at hunique
      by_cases hname : scenario.definition.name = suite
      · have hnone : scenarios.filter (fun s => s.definition.name = suite) = [] := by
          rw [List.filter_eq_nil_iff]
          intro s hs heq
          apply hunique.1
          rw [hname, ← of_decide_eq_true heq]
          exact List.mem_map_of_mem hs
        rw [List.filter_cons_of_pos (by simpa using hname),
          List.find?_cons_of_pos (by simpa using hname), hnone]
        rfl
      · rw [List.filter_cons_of_neg (by simpa using hname),
          List.find?_cons_of_neg (by simpa using hname), ih hunique.2]

/-- **The selection**: the chosen scenarios in the order in which they are registered, if
the suite is one. -/
theorem select_scenarios_eq (registry : Registry) (suite : String) (filters : List String) :
    select_scenarios py registry suite filters =
      (suiteOf py registry suite).map fun _ =>
        registry.scenarios.filter (Chosen py suite filters) := by
  unfold select_scenarios suiteOf
  split_ifs with hall
  · refine congrArg Except.ok ?_
    rw [foldl_filter]
    apply List.filter_congr
    intro scenario _
    simp [Chosen, hall]
  · have hfilter := filter_name registry.unique suite
    have hchosen : registry.scenarios.filter (Chosen py suite filters) =
        (registry.scenarios.filter fun s => s.definition.name = suite).filter
          fun scenario => filters.all fun expression => accepts py expression scenario := by
      rw [List.filter_filter]
      apply List.filter_congr
      intro scenario _
      simp [Chosen, hall, Bool.and_comm]
    rw [hchosen, hfilter]
    unfold byName
    generalize registry.scenarios.find? (fun s => s.definition.name = suite) = found
    cases found with
    | none => rfl
    | some scenario => exact congrArg Except.ok (foldl_filter py filters [scenario])

end Main

/-! ## What a run leaves -/

/-- The result on disk says that the scenario passed, or skipped. -/
def Succeeded (run : Run) : Prop :=
  ∃ result, run.resultFile = some result ∧ result.status ∈ [.passed, .skipped]

/-- The result on disk is the one that was written first, if there is one. -/
def Unfinished (run : Run) : Prop :=
  ∀ result, run.resultFile = some result → result = Run.new.result

/-- What may raise out of a run that writes its last result: the call that writes it, the
event behind it, and the event of an `except` clause, which the clean-up follows. -/
def RaisesAfterAll (environment : Environment) : Prop :=
  (∃ error, environment.last = .late error) ∨
    (∃ error, environment.emit .run_finished = .error error) ∨
    ∃ error, environment.emit .exception = .error error

section Runs

variable {definition : ScenarioDefinition} {timeout : Option ℚ} {environment : Environment}

theorem not_succeeded {run : Run} (h : Unfinished run) : ¬ Succeeded run := by
  rintro ⟨result, hresult, hstatus⟩
  rw [h result hresult] at hstatus
  exact absurd hstatus (by decide)

theorem unfinished_step (outcome : Except PyError Unit) : Always Unfinished (step outcome) := by
  cases outcome with
  | ok _ => exact always_pure ()
  | error error => exact always_throw error

/-- The first result leaves no other one. -/
theorem unfinished_first (saved : Saved) :
    Triple (fun r => r = Run.new) (JsonResultWriter.write saved) (fun _ => Unfinished)
      (fun _ => Unfinished) := by
  rintro r rfl
  cases saved with
  | complete => exact fun result h => (Option.some.inj h).symm
  | refused error => exact fun result h => by cases h
  | torn error => exact fun result h => by cases h
  | late error => exact fun result h => (Option.some.inj h).symm

/-- Up to the `finally` clause nothing is written. -/
theorem unfinished_tryClause : Always Unfinished (tryClause definition timeout environment) := by
  have hfunction : Always Unfinished definition.function.run := by
    intro r hr
    rw [run_exec]
    rcases definition.function.behaviour.2 with error | ⟨⟩ <;> exact hr
  refine always_bind (unfinished_step _) fun _ => ?_
  refine always_bind (unfinished_step _) fun _ => ?_
  refine always_bind (triple_update fun _ h => h) fun _ => ?_
  refine always_bind ?_ fun _ => triple_update fun _ h => h
  unfold withDeadline
  split_ifs
  · exact always_throw _
  · exact hfunction

/-- An exception is caught, and only its event may raise. -/
theorem unfinished_exceptClauses (error : PyError) :
    Triple Unfinished (exceptClauses environment error) (fun _ => Unfinished)
      fun _ r => Unfinished r ∧ RaisesAfterAll environment := by
  refine triple_bind (Q := fun _ => Unfinished) ?_ fun _ => ?_
  · cases error with
    | ScenarioTimeout message => exact triple_update fun _ h => h
    | ScenarioSkip message => exact triple_update fun _ h => h
    | other type message => exact triple_update fun _ h => h
  · intro r hr
    rcases hemit : environment.emit .exception with error | ⟨⟩
    · exact ⟨hr, .inr (.inr ⟨error, hemit⟩)⟩
    · exact hr

theorem unfinished_closeClause : Always Unfinished (closeClause environment) := by
  refine triple_bind (Q := fun _ => Unfinished) (triple_read fun _ h => h) fun assertions => ?_
  refine always_bind ?_ fun _ => unfinished_step _
  cases assertions with
  | none => exact always_pure _
  | some recorded => exact always_bind (unfinished_step _) fun _ => triple_update fun _ h => h

/-- The last result takes the place of the first, or it raises. -/
theorem last_writes :
    Triple Unfinished (JsonResultWriter.write environment.last)
      (fun _ r => r.resultFile = some r.result)
      (fun _ r => Unfinished r ∨ RaisesAfterAll environment) := by
  intro r hr
  rcases hlast : environment.last with _ | error | error | error
  · exact rfl
  · exact .inl hr
  · exact .inl fun result h => by cases h
  · exact .inr (.inl ⟨error, hlast⟩)

/-- The result is written last, so what raises in front leaves the first one. -/
theorem reportClause_writes (name : String) :
    Triple Unfinished (reportClause name environment) (fun _ r => r.resultFile = some r.result)
      (fun _ r => Unfinished r ∨ RaisesAfterAll environment) := by
  have hstep : ∀ outcome, Triple Unfinished (step outcome) (fun _ => Unfinished)
      (fun _ r => Unfinished r ∨ RaisesAfterAll environment) := fun outcome =>
    (unfinished_step outcome).raises fun _ _ h => .inl h
  refine triple_bind (hstep _) fun _ => ?_
  refine triple_bind (triple_update (R := Unfinished) fun _ h => h) fun _ => ?_
  refine triple_bind (triple_read (Q := fun _ => Unfinished) fun _ h => h) fun r => ?_
  refine triple_bind (hstep _) fun _ => ?_
  refine triple_bind (Q := fun _ => Unfinished) ?_ fun _ => last_writes
  unfold reportRun
  split
  · exact triple_throw fun _ h => .inl h
  · exact triple_update fun _ h => h

theorem finallyClause_writes :
    Triple Unfinished (finallyClause definition environment)
      (fun _ r => r.resultFile = some r.result)
      (fun _ r => Unfinished r ∨ RaisesAfterAll environment) := by
  refine triple_bind (unfinished_closeClause.raises fun _ _ h => .inl h) fun _ => ?_
  refine triple_bind ((unfinished_step _).raises fun _ _ h => .inl h) fun _ => ?_
  refine triple_bind (reportClause_writes _) fun _ => ?_
  intro r hr
  rcases hemit : environment.emit .run_finished with error | ⟨⟩
  · exact .inr (.inr (.inl ⟨error, hemit⟩))
  · exact hr

/-- **A run** that returns has written its result, and its code is 0 exactly if that says
passed or skipped; one that raises leaves no result but the first, unless something may
raise after all. -/
theorem run_scenario_writes :
    Triple (fun r => r = Run.new) (run_scenario definition timeout environment)
      (fun code r => (code = 0 ↔ Succeeded r) ∧ code ≤ 1)
      (fun _ r => Unfinished r ∨ RaisesAfterAll environment) := by
  have hbody : Triple Unfinished
      (tryCatch (tryClause definition timeout environment) (exceptClauses environment))
      (fun _ => Unfinished) fun _ r => Unfinished r ∧ RaisesAfterAll environment :=
    triple_tryCatch unfinished_tryClause unfinished_exceptClauses
  unfold run_scenario
  refine triple_bind ((unfinished_first _).raises fun _ _ h => .inl h) fun _ => ?_
  refine triple_bind ((unfinished_step _).raises fun _ _ h => .inl h) fun _ => ?_
  refine triple_bind (Q := fun _ r => r.resultFile = some r.result)
    (triple_ensure hbody (fun _ => finallyClause_writes) fun _ => triple_assume fun hraises =>
      finallyClause_writes.conseq (fun _ h => h) (fun _ _ _ => .inr hraises) fun _ _ h => h)
    fun _ => ?_
  refine triple_bind (triple_read (Q := fun result r => r.resultFile = some result) fun _ h => h)
    fun result => ?_
  refine triple_pure fun r hr => ?_
  have hsucceeded : Succeeded r ↔ result.status ∈ [.passed, .skipped] := by
    constructor
    · rintro ⟨result', hresult, hstatus⟩
      rw [hr] at hresult
      rwa [Option.some.inj hresult]
    · exact fun hstatus => ⟨result, hr, hstatus⟩
  rw [hsucceeded]
  by_cases hstatus : result.status ∈ [Status.passed, .skipped]
  · rw [if_pos hstatus]
    exact ⟨iff_of_true rfl hstatus, Nat.zero_le _⟩
  · rw [if_neg hstatus]
    exact ⟨iff_of_false one_ne_zero hstatus, le_refl 1⟩

end Runs

/-! ## The suite -/

/-- A run of a scenario in this environment. -/
def RunIn (timeout : Option ℚ) (environment : Environment) (performed : Performed) : Prop :=
  (run_scenario performed.scenario.definition timeout environment).exec Run.new =
    (performed.outcome, performed.run)

def Returned (performed : Performed) : Prop := ∃ code, performed.outcome = .ok code

/-- An exception has come out of the last run, and its result is not finished, unless
something may have raised after all. -/
def CutShort (timeout : Option ℚ) (env : ℕ → Environment) (runs : List Performed) : Prop :=
  ∃ before last number, runs = before ++ [last] ∧ RunIn timeout (env number) last ∧
    ¬ Returned last ∧ (Unfinished last.run ∨ RaisesAfterAll (env number))

/-- What the loop comes to from a code on. -/
structure Went (timeout : Option ℚ) (env : ℕ → Environment) (exit_code : ℕ)
    (selected : List Registered) (outcome : Except PyError ℕ) (runs : List Performed) : Prop where
  order : runs.map Performed.scenario <+: selected
  own : ∀ performed ∈ runs, ∃ number, RunIn timeout (env number) performed
  zero : outcome = .ok 0 ↔ exit_code = 0 ∧ runs.map Performed.scenario = selected ∧
    ∀ performed ∈ runs, Returned performed ∧ Succeeded performed.run
  bound : ∀ code, outcome = .ok code → code ≤ 1
  complete : ∀ code, outcome = .ok code → runs.map Performed.scenario = selected
  raised : ∀ error, outcome = .error error → CutShort timeout env runs

/-- What the command comes to, for the scenarios it is to run. -/
structure Verdict (timeout : Option ℚ) (env : ℕ → Environment) (selected : List Registered)
    (outcome : Except PyError ℕ) (runs : List Performed) : Prop where
  order : runs.map Performed.scenario <+: selected
  own : ∀ performed ∈ runs, ∃ number, RunIn timeout (env number) performed
  zero : outcome = .ok 0 ↔ runs ≠ [] ∧ runs.map Performed.scenario = selected ∧
    ∀ performed ∈ runs, Returned performed ∧ Succeeded performed.run
  bound : ∀ code, outcome = .ok code → code ≤ 1
  cut : runs.map Performed.scenario ≠ selected → CutShort timeout env runs
  /-- Where nothing raises after all, the files say whether a run returned. -/
  files : (∀ number, ¬ RaisesAfterAll (env number)) → ∀ performed ∈ runs,
    Succeeded performed.run → Returned performed

section Loop

variable {timeout : Option ℚ} {env : ℕ → Environment}

theorem not_returned (scenario : Registered) (error : PyError) (run : Run) :
    ¬ Returned ⟨scenario, .error error, run⟩ := by
  rintro ⟨code, h⟩
  cases h

/-- A run that raises is the last one. -/
theorem went_raised {scenario : Registered} {rest : List Registered} {number exit_code : ℕ}
    {error : PyError} {run : Run}
    (hrun : (run_scenario scenario.definition timeout (env number)).exec Run.new =
      (.error error, run)) :
    Went timeout env exit_code (scenario :: rest) (.error error)
      [⟨scenario, .error error, run⟩] where
  order := List.cons_prefix_cons.mpr ⟨rfl, List.nil_prefix⟩
  own performed hperformed := by
    rw [List.mem_singleton.mp hperformed]
    exact ⟨number, hrun⟩
  zero := by
    refine iff_of_false (fun h => by cases h) fun ⟨_, _, hall⟩ => ?_
    exact not_returned _ _ _ (hall _ (List.mem_singleton.mpr rfl)).1
  bound _ h := by cases h
  complete _ h := by cases h
  raised _ _ := ⟨[], _, number, rfl, hrun, not_returned _ _ _,
    run_scenario_writes.of_error rfl hrun⟩

/-- A run that returns is followed by the others. -/
theorem went_returned {scenario : Registered} {rest : List Registered} {number exit_code code : ℕ}
    {run : Run} {outcome : Except PyError ℕ} {runs : List Performed}
    (hrun : (run_scenario scenario.definition timeout (env number)).exec Run.new =
      (.ok code, run))
    (hrest : Went timeout env (max exit_code code) rest outcome runs) :
    Went timeout env exit_code (scenario :: rest) outcome
      (⟨scenario, .ok code, run⟩ :: runs) where
  order := List.cons_prefix_cons.mpr ⟨rfl, hrest.order⟩
  own performed hperformed := by
    rcases List.mem_cons.mp hperformed with rfl | hperformed
    · exact ⟨number, hrun⟩
    · exact hrest.own performed hperformed
  zero := by
    have hzero : max exit_code code = 0 ↔ exit_code = 0 ∧ code = 0 := by omega
    have hreturned : Returned ⟨scenario, .ok code, run⟩ := ⟨code, rfl⟩
    rw [hrest.zero, hzero, (run_scenario_writes.of_ok rfl hrun).1, List.map_cons,
      List.forall_mem_cons, List.cons.injEq]
    constructor
    · rintro ⟨⟨hcode, hfirst⟩, hmap, hall⟩
      exact ⟨hcode, ⟨rfl, hmap⟩, ⟨hreturned, hfirst⟩, hall⟩
    · rintro ⟨hcode, ⟨-, hmap⟩, hfirst, hall⟩
      exact ⟨⟨hcode, hfirst.2⟩, hmap, hall⟩
  bound := hrest.bound
  complete c h := by rw [List.map_cons, hrest.complete c h]
  raised error h := by
    obtain ⟨before, last, numberOfLast, rfl, hlast⟩ := hrest.raised error h
    exact ⟨⟨scenario, .ok code, run⟩ :: before, last, numberOfLast, rfl, hlast⟩

/-- **The loop**, by induction on the scenarios to come. -/
theorem runAll_went (selected : List Registered) : ∀ number exit_code, exit_code ≤ 1 →
    Went timeout env exit_code selected (runAll timeout env number exit_code selected).1
      (runAll timeout env number exit_code selected).2 := by
  induction selected with
  | nil =>
      intro number exit_code hcode
      refine ⟨List.nil_prefix, fun _ h => absurd h List.not_mem_nil, ?_, ?_, fun _ _ => rfl, ?_⟩
      · rw [runAll, Except.ok.injEq]
        exact ⟨fun h => ⟨h, rfl, fun _ h => absurd h List.not_mem_nil⟩, fun h => h.1⟩
      · intro code h
        rw [runAll] at h
        rwa [← Except.ok.inj h]
      · intro error h
        cases h
  | cons scenario rest ih =>
      intro number exit_code hcode
      rw [runAll]
      rcases hrun : (run_scenario scenario.definition timeout (env number)).exec Run.new with
        ⟨error | code, run⟩
      · exact went_raised hrun
      · have hbound := (run_scenario_writes.of_ok rfl hrun).2
        exact went_returned hrun (ih (number + 1) (max exit_code code) (max_le hcode hbound))

/-- Where nothing raises after all, a run whose result says passed or skipped has
returned. -/
theorem returned_of_succeeded (hnone : ∀ number, ¬ RaisesAfterAll (env number))
    {performed : Performed} (hown : ∃ number, RunIn timeout (env number) performed)
    (hsucceeded : Succeeded performed.run) : Returned performed := by
  obtain ⟨number, hrun⟩ := hown
  rcases houtcome : performed.outcome with error | code
  · unfold RunIn at hrun
    rw [houtcome] at hrun
    rcases run_scenario_writes.of_error rfl hrun with hunfinished | hraises
    · exact absurd hsucceeded (not_succeeded hunfinished)
    · exact absurd hraises (hnone number)
  · exact ⟨code, houtcome⟩

end Loop

section Main

variable (py : Builtins)

/-- No exception makes the code 0. -/
theorem exceptClause_zero (outcome : Except PyError ℕ) :
    exceptClause py outcome = .ok 0 ↔ outcome = .ok 0 := by
  cases outcome with
  | ok code => rfl
  | error error =>
      unfold exceptClause
      dsimp only
      split_ifs
      · exact iff_of_false (fun h => by cases h) fun h => by cases h
      · exact iff_of_false (fun h => by cases h) fun h => by cases h

theorem exceptClause_bound {outcome : Except PyError ℕ}
    (h : ∀ code, outcome = .ok code → code ≤ 1) (code : ℕ)
    (hcode : exceptClause py outcome = .ok code) : code ≤ 1 := by
  cases outcome with
  | ok code' => exact h code hcode
  | error error =>
      unfold exceptClause at hcode
      dsimp only at hcode
      split_ifs at hcode
      rw [← Except.ok.inj hcode]

/-- Without a scenario to run nothing is run, and the code is not 0. -/
theorem verdict_nowhere (timeout : Option ℚ) (env : ℕ → Environment) (error : PyError) :
    Verdict timeout env [] (exceptClause py (.error error)) [] where
  order := List.nil_prefix
  own _ h := absurd h List.not_mem_nil
  zero := by
    rw [exceptClause_zero]
    exact iff_of_false (fun h => by cases h) fun h => h.1 rfl
  bound := exceptClause_bound py fun code h => by cases h
  cut h := absurd rfl h
  files _ _ h := absurd h List.not_mem_nil

/-- What the loop comes to is what `main` does with it. -/
theorem Went.verdict {timeout : Option ℚ} {env : ℕ → Environment} {first : Registered}
    {rest : List Registered} {outcome : Except PyError ℕ} {runs : List Performed}
    (h : Went timeout env 0 (first :: rest) outcome runs) :
    Verdict timeout env (first :: rest) (exceptClause py outcome) runs where
  order := h.order
  own := h.own
  zero := by
    rw [exceptClause_zero, h.zero]
    constructor
    · rintro ⟨-, hmap, hall⟩
      refine ⟨fun hnil => ?_, hmap, hall⟩
      rw [hnil] at hmap
      cases hmap
    · rintro ⟨-, hmap, hall⟩
      exact ⟨rfl, hmap, hall⟩
  bound := exceptClause_bound py h.bound
  cut hmap := by
    cases outcome with
    | error error => exact h.raised error rfl
    | ok code => exact absurd (h.complete code rfl) hmap
  files hnone performed hperformed := returned_of_succeeded hnone (h.own performed hperformed)

variable {py} in
/-- A suite that is not there chooses nothing. -/
theorem chosen_of_unknown {registry : Registry} {suite : String} {error : PyError}
    (filters : List String) (h : suiteOf py registry suite = .error error) :
    registry.scenarios.filter (Chosen py suite filters) = [] := by
  unfold suiteOf byName at h
  split_ifs at h with hall
  rcases hfind : registry.scenarios.find? (fun s => s.definition.name = suite) with _ | scenario
  · rw [List.filter_eq_nil_iff]
    intro scenario hscenario hchosen
    have hname := List.find?_eq_none.mp hfind scenario hscenario
    unfold Chosen at hchosen
    rw [Bool.and_eq_true, Bool.or_eq_true] at hchosen
    rcases hchosen.1 with heq | heq
    · exact hall (of_decide_eq_true heq)
    · exact hname heq
  · rw [hfind] at h
    cases h

end Main

/-- **The exit code.** `ptlab run` runs the chosen scenarios in the order in which they are
registered, whatever the runs before came to. Its code is 0 exactly if something is chosen
and every chosen scenario was run, returned, and has a result on disk that says passed or
skipped; it is never above 1. If a chosen scenario was not run, an exception has come out of
the run in front of it, whose result then still says `running` or is not there, unless
something could raise after all. Where nothing can, the results on disk tell the code. -/
theorem suite_verdict (py : Builtins) (registry : Registry) (suite : String)
    (filters : List String) (timeout : Option ℚ) (env : ℕ → Environment) :
    Verdict timeout env (registry.scenarios.filter (Chosen py suite filters))
      (main py registry suite filters timeout env).1
      (main py registry suite filters timeout env).2 := by
  have hselect := select_scenarios_eq py registry suite filters
  rcases hsuite : suiteOf py registry suite with error | all
  · -- there is no such suite
    rw [hsuite] at hselect
    unfold main runCommand
    rw [hselect, chosen_of_unknown filters hsuite]
    exact verdict_nowhere py timeout env error
  · rw [hsuite] at hselect
    change _ = Except.ok (registry.scenarios.filter (Chosen py suite filters)) at hselect
    unfold main runCommand
    rw [hselect]
    rcases registry.scenarios.filter (Chosen py suite filters) with _ | ⟨first, rest⟩
    · exact verdict_nowhere py timeout env _
    · have hwent : Went timeout env 0 (first :: rest) (runAll timeout env 0 0 (first :: rest)).1
          (runAll timeout env 0 0 (first :: rest)).2 := runAll_went _ 0 0 (Nat.zero_le 1)
      exact hwent.verdict py

end Ptlab.Scenario.Suite
