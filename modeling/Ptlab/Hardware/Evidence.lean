/-
The result file of a hardware run (`write_hardware_result` of `src/ptlab/hardware.py`),
and what is in it when ptlab has died.

A checkpoint writes the result beside its place and moves it there, so a crash at
any point leaves the last result that was moved, whole. That nothing recorded in
it is lost is a matter of the runs: the results they hand to the checkpoint climb,
each having the steps or samples of those before it. `evidence_survives` puts the
two together.
-/
import Ptlab.Lib.Files
import Ptlab.Hardware.Settled

set_option autoImplicit false

open Effect Files

namespace Ptlab.Hardware

/-! ## The file -/

structure ResultPath where
  parent : String
  name : String
  deriving DecidableEq, Repr

def ResultPath.with_name (path : ResultPath) (name : String) : ResultPath :=
  { path with name := name }

/-- `path.with_name(f"{path.name}.tmp")`. -/
def ResultPath.temporary (path : ResultPath) : ResultPath :=
  path.with_name s!"{path.name}.tmp"

theorem ResultPath.temporary_ne (path : ResultPath) : path.temporary ≠ path := by
  intro h
  have hlen : (path.name ++ ".tmp").length = path.name.length :=
    congrArg (fun path => path.name.length) h
  rw [String.length_append] at hlen
  exact absurd hlen (Nat.ne_of_gt (Nat.lt_add_of_pos_right (by decide)))

/-- How the file operations of one checkpoint go. -/
inductive Filing where
  | filed
  /-- The directory cannot be made, or the temporary file cannot be opened. -/
  | unopened (error : PyExc)
  /-- The write ends behind so many bytes. -/
  | cut (written : ℕ) (error : PyExc)
  | unmoved (error : PyExc)
  deriving DecidableEq, Repr

def perform (op : Op ResultPath) : Effect (List (Op ResultPath)) PyExc Unit :=
  update fun ops => ops ++ [op]

/-- `write_hardware_result`, given what `orjson.dumps` makes of the result. The state
is what has been done to files. -/
def write_hardware_result (path : ResultPath) (dumped : Except PyExc (List UInt8))
    (filing : Filing) : Effect (List (Op ResultPath)) PyExc Unit := do
  let text ← lift dumped
  let content := text ++ [0x0A]
  match filing with
  | .filed => do
    perform (.write path.temporary content)
    perform (.replace path.temporary path)
  | .unopened error => throw error
  | .cut written error => do
    perform (.write path.temporary (content.take written))
    throw error
  | .unmoved error => do
    perform (.write path.temporary content)
    throw error

/-- A call as an attempt to publish. -/
def attemptOf : Except PyExc (List UInt8) → Filing → Attempt
  | .ok text, .filed => .moved (text ++ [0x0A])
  | .ok text, .cut written _ => .written ((text ++ [0x0A]).take written)
  | .ok text, .unmoved _ => .written (text ++ [0x0A])
  | .ok _, .unopened _ => .nothing
  | .error _, _ => .nothing

theorem write_hardware_result_ops (path : ResultPath) (dumped : Except PyExc (List UInt8))
    (filing : Filing) : ((write_hardware_result path dumped filing).exec []).2 =
      (attemptOf dumped filing).ops path.temporary path := by
  rcases dumped with error | text
  · rfl
  · cases filing <;> rfl

theorem attemptOf_moved {dumped : Except PyExc (List UInt8)} {filing : Filing}
    {content : List UInt8} (h : attemptOf dumped filing = .moved content) :
    ∃ text, dumped = .ok text ∧ filing = .filed ∧ content = text ++ [0x0A] := by
  rcases dumped with error | text
  · cases h
  · cases filing with
    | filed =>
        injection h with h
        exact ⟨text, rfl, rfl, h.symm⟩
    | unopened error => cases h
    | cut written error => cases h
    | unmoved error => cases h

/-! ## The checkpoints of a run -/

/-- A checkpoint that goes through `write_hardware_result`. The document has the time
in it, and the file operations go as they go, so both may depend on all that went
before. -/
structure Saver (ι ρ : Type) where
  path : ResultPath
  dumps : List ι → ρ → Except PyExc (List UInt8)
  filing : List ι → Filing

section Saver

variable {ι ρ : Type} (saver : Saver ι ρ) (handed : ι → Option ρ)

def Saver.write (log : List ι) (result : ρ) : Effect (List (Op ResultPath)) PyExc Unit :=
  write_hardware_result saver.path (saver.dumps log result) (saver.filing log)

/-- The checkpoint, as the run sees it. -/
def Saver.checkpoint (log : List ι) (result : ρ) : Except PyExc Unit :=
  ((saver.write log result).exec []).1

/-- What the checkpoints among some dealings do to files; `before` are those in front
of them. -/
def Saver.opsFrom (before : List ι) : List ι → List (Op ResultPath)
  | [] => []
  | event :: events =>
    (match handed event with
      | none => []
      | some result => ((saver.write before result).exec []).2) ++
      opsFrom (before ++ [event]) events

/-- The attempts to publish among some dealings. -/
def Saver.attemptsFrom (before : List ι) : List ι → List Attempt
  | [] => []
  | event :: events =>
    (match handed event with
      | none => []
      | some result => [attemptOf (saver.dumps before result) (saver.filing before)]) ++
      attemptsFrom (before ++ [event]) events

/-- What is at the path of the result, given that `n` moves took place: what was
there before if there was none. Else it is the whole document of a result handed
over, whose move was the last of the `n`, and every result handed over later has
what it has. -/
inductive Surviving (GrowsTo : ρ → ρ → Prop) (log : List ι) (n : ℕ) (before : Option (List UInt8)) :
    Option (List UInt8) → Prop
  | untouched (hn : n = 0) : Surviving GrowsTo log n before before
  | last (pre : List ι) (event : ι) (post : List ι) (result : ρ) (text : List UInt8)
      (hlog : log = pre ++ event :: post) (hresult : handed event = some result)
      (hdumps : saver.dumps pre result = .ok text) (hfiled : saver.filing pre = .filed)
      (hn : moves (saver.opsFrom handed [] pre) + 1 = n)
      (hlater : ∀ later ∈ post.filterMap handed, GrowsTo result later) :
      Surviving GrowsTo log n before (some (text ++ [0x0A]))

variable {saver handed}

theorem opsFrom_eq (events : List ι) : ∀ before, saver.opsFrom handed before events =
    (saver.attemptsFrom handed before events).flatMap
      (Attempt.ops saver.path.temporary saver.path) := by
  induction events with
  | nil => exact fun before => rfl
  | cons event events ih =>
      intro before
      unfold Saver.opsFrom Saver.attemptsFrom
      rw [List.flatMap_append, ih]
      cases handed event with
      | none => rfl
      | some result =>
          rw [List.flatMap_singleton]
          congr 1
          exact write_hardware_result_ops _ _ _

theorem moves_flatMap (path : ResultPath) (attempts : List Attempt) :
    moves (attempts.flatMap (Attempt.ops path.temporary path)) = (contents attempts).length := by
  induction attempts with
  | nil => rfl
  | cons attempt attempts ih =>
      rw [List.flatMap_cons, contents_cons, List.length_append, ← ih]
      unfold moves
      rw [List.countP_append]
      exact congrArg (· + _) (Attempt.moves_ops _ _ attempt)

/-- The document of the `n`-th move, and where it comes from. -/
theorem exists_of_content {n : ℕ} {content : List UInt8} (events : List ι) : ∀ {before : List ι},
    (contents (saver.attemptsFrom handed before events))[n]? = some content →
    ∃ pre event post result text, events = pre ++ event :: post ∧ handed event = some result ∧
      saver.dumps (before ++ pre) result = .ok text ∧ saver.filing (before ++ pre) = .filed ∧
      content = text ++ [0x0A] ∧ (contents (saver.attemptsFrom handed before pre)).length = n := by
  induction events generalizing n with
  | nil => exact fun h => by cases h
  | cons event events ih =>
      intro before h
      have hcons : ∀ es, contents (saver.attemptsFrom handed before (event :: es)) =
          contents (saver.attemptsFrom handed before [event]) ++
            contents (saver.attemptsFrom handed (before ++ [event]) es) := by
        intro es
        unfold contents
        rw [← List.filterMap_append]
        congr 1
        simp [Saver.attemptsFrom]
      rw [hcons] at h
      by_cases hn : n < (contents (saver.attemptsFrom handed before [event])).length
      · -- it is the one of the first event
        rw [List.getElem?_append_left hn] at h
        have hlen : (contents (saver.attemptsFrom handed before [event])).length ≤ 1 := by
          unfold contents Saver.attemptsFrom Saver.attemptsFrom
          refine (List.length_filterMap_le ..).trans ?_
          cases handed event <;> simp
        obtain rfl : n = 0 := by omega
        unfold Saver.attemptsFrom Saver.attemptsFrom at h
        rw [List.append_nil] at h
        rcases hhanded : handed event with _ | result
        · rw [hhanded] at h
          cases h
        · rw [hhanded] at h
          dsimp only at h
          rcases hattempt : attemptOf (saver.dumps before result) (saver.filing before) with
            moved | part | _ <;> rw [hattempt] at h
          · obtain ⟨text, hdumps, hfiled, rfl⟩ := attemptOf_moved hattempt
            refine ⟨[], event, events, result, text, rfl, hhanded, ?_, ?_,
              (Option.some.inj h).symm, rfl⟩
            · rw [List.append_nil]; exact hdumps
            · rw [List.append_nil]; exact hfiled
          · cases h
          · cases h
      · rw [List.getElem?_append_right (not_lt.mp hn)] at h
        obtain ⟨pre, event', post, result, text, rfl, hhanded, hdumps, hfiled, hcontent, hlen⟩ := ih h
        refine ⟨event :: pre, event', post, result, text, rfl, hhanded, ?_, ?_, hcontent, ?_⟩
        · rw [← hdumps, List.append_assoc]; rfl
        · rw [← hfiled, List.append_assoc]; rfl
        · rw [hcons, List.length_append, hlen]
          omega

/-- **The file after a crash**, whatever it and the temporary one held before, if the
results climb. -/
theorem evidence_of_crash {GrowsTo : ρ → ρ → Prop} {log : List ι}
    (hclimbs : (log.filterMap handed).Pairwise GrowsTo) {d d' : Disk ResultPath}
    {done rest : List (Op ResultPath)} (hops : saver.opsFrom handed [] log = done ++ rest)
    (hcrash : Crash d done rest d') :
    Surviving saver handed GrowsTo log (moves done) (d saver.path) (d' saver.path) := by
  have hattempts := (opsFrom_eq log []).symm.trans hops
  rw [hcrash.attempts saver.path.temporary_ne hattempts]
  have hmoves : moves done ≤ (contents (saver.attemptsFrom handed [] log)).length := by
    rw [← moves_flatMap saver.path, hattempts]
    unfold moves
    rw [List.countP_append]
    exact Nat.le_add_right ..
  rcases hn : moves done with _ | n
  · exact .untouched rfl
  · -- the document at the path is that of the move `n`, the last one that took place
    rw [hn] at hmoves
    obtain ⟨content, hcontent⟩ : ∃ content,
        (contents (saver.attemptsFrom handed [] log))[n]? = some content :=
      ⟨_, List.getElem?_eq_getElem hmoves⟩
    obtain ⟨pre, event, post, result, text, hlog, hresult, hdumps, hfiled, rfl, hlen⟩ :=
      exists_of_content log hcontent
    have hlast : ((contents (saver.attemptsFrom handed [] log)).take (n + 1)).getLast? =
        some (text ++ [0x0A]) := by
      rw [List.getLast?_take, if_neg (Nat.succ_ne_zero n), Nat.add_sub_cancel, hcontent]
      rfl
    rw [hlast]
    refine .last pre event post result text hlog hresult hdumps hfiled ?_ ?_
    · rw [opsFrom_eq, moves_flatMap, hlen]
    · intro later hlater
      rw [hlog, List.filterMap_append, List.filterMap_cons_some hresult] at hclimbs
      have htail := (List.pairwise_append.mp hclimbs).2.1
      exact (List.pairwise_cons.mp htail).1 later hlater

end Saver

/-! ## Results that climb -/

/-- From `a` over these to `b`, each has what those before it have. -/
structure Climbs {ρ : Type} (GrowsTo : ρ → ρ → Prop) (a : ρ) (results : List ρ) (b : ρ) : Prop where
  pairwise : (a :: results).Pairwise GrowsTo
  upto : ∀ x ∈ a :: results, GrowsTo x b

section Climbs

variable {ρ : Type} {GrowsTo : ρ → ρ → Prop} {a b c : ρ} {results results' : List ρ}

theorem climbs_nil (h : GrowsTo a b) : Climbs GrowsTo a [] b :=
  ⟨List.pairwise_singleton .., by simpa using h⟩

variable (htrans : ∀ {a b c : ρ}, GrowsTo a b → GrowsTo b c → GrowsTo a c)
include htrans

theorem Climbs.trans (h : Climbs GrowsTo a results b) (h' : Climbs GrowsTo b results' c) :
    Climbs GrowsTo a (results ++ results') c := by
  obtain ⟨hlater, htail⟩ := List.pairwise_cons.mp h'.pairwise
  have hup : ∀ x ∈ a :: results, ∀ y ∈ results', GrowsTo x y :=
    fun x hx y hy => htrans (h.upto x hx) (hlater y hy)
  refine ⟨?_, ?_⟩
  · rw [← List.cons_append]
    exact List.pairwise_append.mpr ⟨h.pairwise, htail, hup⟩
  · rw [← List.cons_append, List.forall_mem_append]
    exact ⟨fun x hx => htrans (h.upto x hx) (h'.upto b (List.mem_cons_self ..)),
      fun y hy => h'.upto y (List.mem_cons_of_mem _ hy)⟩

end Climbs

/-! ## The acceptance run -/

section Acceptance

variable {py : Builtins} {bench : Bench} {plan : AcceptancePlan} {hardware : BleakHardware}
  {preflight : BatteryPreflight}

/-- The steps of the results that were handed over. -/
def handedSteps (events : List BenchEvent) : List (List Step) :=
  (events.filterMap BenchEvent.handed).map AcceptanceResult.steps

/-- A computation that hands over results that climb from `start`, and if it returns,
up to the steps `upto`. -/
def Climbing {α : Type} (start : List Step) (m : OnBench α) (upto : α → List Step) : Prop :=
  ∀ log, ∃ events final, (m.exec log).2 = log ++ events ∧
    Climbs (· <+: ·) start (handedSteps events) final ∧ ∀ a, (m.exec log).1 = .ok a → upto a = final

theorem climbing_bind {α β : Type} {start : List Step} {m : OnBench α} {f : α → OnBench β}
    {upto : α → List Step} {upto' : β → List Step} (hm : Climbing start m upto)
    (hf : ∀ a, Climbing (upto a) (f a) upto') : Climbing start (m >>= f) upto' := by
  intro log
  obtain ⟨events, final, hlog, hclimbs, hfinal⟩ := hm log
  rw [exec_bind]
  rcases hrun : m.exec log with ⟨error | a, log'⟩ <;> rw [hrun] at hlog hfinal
  · exact ⟨events, final, hlog, hclimbs, fun b hb => by cases hb⟩
  · obtain ⟨events', final', hlog', hclimbs', hfinal'⟩ := hf a log'
    obtain rfl : log' = log ++ events := hlog
    refine ⟨events ++ events', final', ?_, ?_, hfinal'⟩
    · rw [← List.append_assoc]
      exact hlog'
    · rw [hfinal a rfl] at hclimbs'
      unfold handedSteps
      rw [List.filterMap_append, List.map_append]
      exact hclimbs.trans List.IsPrefix.trans hclimbs'

/-- Nothing is handed over. -/
theorem climbing_quiet {α : Type} {start : List Step} {m : OnBench α} {upto : α → List Step}
    (hm : Adds (fun event => event.handed = none) m)
    (hupto : ∀ log a, (m.exec log).1 = .ok a → upto a = start) : Climbing start m upto := by
  intro log
  obtain ⟨events, hlog, hquiet⟩ := hm log
  refine ⟨events, start, hlog, ?_, hupto log⟩
  unfold handedSteps
  rw [handed_quiet hquiet]
  exact climbs_nil List.prefix_rfl

theorem climbing_aside {α : Type} {start : List Step} {m : OnBench α}
    (hm : Adds (fun event => event.handed = none) m) : Climbing start m fun _ => start :=
  climbing_quiet hm fun _ _ _ => rfl

theorem climbing_hand {start : List Step} {result : AcceptanceResult}
    (h : start <+: result.steps) :
    Climbing start (hand bench result) fun _ => result.steps := by
  intro log
  unfold hand
  cases bench.checkpoint with
  | none => exact ⟨[], result.steps, (List.append_nil _).symm, climbs_nil h, fun _ _ => rfl⟩
  | some save =>
      refine ⟨_, result.steps, rfl, ⟨?_, ?_⟩, fun _ _ => rfl⟩
      · exact List.pairwise_cons.mpr ⟨fun steps hsteps => by
          rw [List.mem_singleton.mp hsteps]; exact h, List.pairwise_singleton ..⟩
      · refine List.forall_mem_cons.mpr ⟨h, fun steps hsteps => ?_⟩
        rw [List.mem_singleton.mp hsteps]

/-- **The loop**, by induction on what is left of the sequence. -/
theorem climbing_runSteps (labels : List String) : ∀ (index : ℕ) (steps : List Step) (first : Bool),
    Climbing steps (runSteps py bench plan hardware preflight labels index steps first) id := by
  induction labels with
  | nil =>
      intro index steps first
      exact climbing_quiet (adds_pure _) fun log a h => (Except.ok.inj h).symm
  | cons label labels ih =>
      intro index steps first
      unfold runSteps
      have hstep : ∀ peer, Climbing steps
          (tryStep py bench plan hardware index label peer first) fun _ => steps := fun peer =>
        climbing_aside (adds_tryStep (fun _ => BenchEvent.Aside.handed) fun _ =>
          quiet_linuxStep peer first)
      refine climbing_bind (climbing_aside (adds_lift _)) fun peer => ?_
      refine climbing_bind (hstep peer) fun out => ?_
      exact climbing_bind (climbing_hand (List.prefix_append ..)) fun _ => ih _ _ _

theorem climbing_capacityStage (steps : List Step) :
    Climbing steps (capacityStage py bench plan preflight steps) fun _ => steps := by
  unfold capacityStage
  cases plan.capacity_check with
  | none => exact climbing_aside (adds_pure _)
  | some check =>
      refine climbing_bind (climbing_aside (adds_ask fun _ => rfl)) fun answer => ?_
      refine climbing_bind (climbing_aside (adds_lift _)) fun status => ?_
      refine climbing_bind (climbing_hand List.prefix_rfl) fun _ => ?_
      exact climbing_aside (adds_pure _)

/-- **The results of an acceptance run climb**, however it ends. -/
theorem acceptance_climbs (percent mv minimum : ℤ) :
    ((((run_acceptance_plan py bench plan percent mv minimum).exec []).2).filterMap
      BenchEvent.handed).Pairwise fun result result' => result.steps <+: result'.steps := by
  have hrun : Climbing [] (run_acceptance_plan py bench plan percent mv minimum)
      AcceptanceResult.steps := by
    unfold run_acceptance_plan
    refine climbing_bind (climbing_aside (adds_lift _)) fun preflight => ?_
    refine climbing_bind (climbing_aside (adds_lift _)) fun contract => ?_
    refine climbing_bind (climbing_hand List.nil_prefix) fun _ => ?_
    refine climbing_bind (climbing_runSteps _ _ _ _) fun steps => ?_
    refine climbing_bind (climbing_capacityStage _) fun capacity => ?_
    refine climbing_bind (climbing_hand List.prefix_rfl) fun _ => ?_
    exact climbing_quiet (adds_pure _) fun log final h => by rw [← Except.ok.inj h]
  obtain ⟨events, final, hlog, hclimbs, -⟩ := hrun []
  rw [hlog, List.nil_append, ← List.pairwise_map]
  exact (List.pairwise_cons.mp hclimbs.pairwise).2

end Acceptance

/-! ## The soak -/

/-- The results handed over climb from `first` up to the result so far. -/
def SoakClimbs (first : SoakResult) (s : SoakResult × List SoakEvent) : Prop :=
  Climbs SoakResult.GrowsTo first (s.2.filterMap SoakEvent.handed) s.1

section Soak

variable {py : Builtins} {bench : SoakBench} {candidate baseline : BleEndpoint}
  {duration interval scan_window : ℚ} {first : SoakResult}

/-- What a computation of the soak keeps, however it ends. -/
abbrev KeepsClimbing {α : Type} (first : SoakResult) (m : Soak α) : Prop :=
  Always (SoakClimbs first) m

theorem climbs_ask {α : Type} {reply : List SoakEvent → Except PyExc α}
    {event : Except PyExc α → SoakEvent} (hevent : ∀ r, (event r).handed = none) :
    KeepsClimbing first (outside (ask reply event)) := by
  rintro ⟨result, log⟩ hs
  have hnext : SoakClimbs first (result, log ++ [event (reply log)]) := by
    unfold SoakClimbs
    rw [List.filterMap_append, List.filterMap_cons_none (hevent _), List.filterMap_nil,
      List.append_nil]
    exact hs
  rw [exec_outside, exec_ask]
  rcases hreply : reply log with error | a <;> rw [hreply] at hnext <;> exact hnext

theorem climbs_assign {f : SoakResult → SoakResult}
    (hf : ∀ result : SoakResult, result.GrowsTo (f result)) :
    KeepsClimbing first (assign f) := by
  refine triple_update fun s hs => ⟨hs.pairwise, fun x hx => ?_⟩
  exact (hs.upto x hx).trans (hf s.1)

theorem climbs_save : KeepsClimbing first (save bench) := by
  rintro ⟨result, log⟩ hs
  unfold save
  rw [exec_bind, exec_read]
  cases bench.checkpoint with
  | none => exact hs
  | some callback =>
      have hnext : SoakClimbs first
          (result, log ++ [.checkpoint result (callback log result)]) := by
        have hone : Climbs SoakResult.GrowsTo result [result] result :=
          ⟨by simpa using SoakResult.GrowsTo.refl result, by simpa using SoakResult.GrowsTo.refl result⟩
        unfold SoakClimbs
        rw [handed_append_checkpoint]
        exact Climbs.trans SoakResult.GrowsTo.trans hs hone
      dsimp only
      rw [exec_outside, exec_ask]
      rcases hreply : callback log result with error | ⟨⟩ <;> rw [hreply] at hnext <;> exact hnext

theorem climbs_sampled (candidate_sample baseline_sample : Sample) :
    KeepsClimbing first (sampled bench candidate_sample baseline_sample) := by
  have hpush : ∀ (record : WatchRecord) (sample : Sample),
      record.advertising_samples <+: (record.push sample).advertising_samples :=
    fun record sample => List.prefix_append ..
  unfold sampled
  refine always_bind (climbs_assign (grows_onCandidate fun record => hpush record _)) fun _ => ?_
  refine always_bind (climbs_assign (grows_onBaseline fun record => hpush record _)) fun _ => ?_
  exact climbs_save

theorem climbs_steps : SoakSteps py bench candidate baseline scan_window (SoakClimbs first)
    (fun _ => SoakClimbs first) (fun _ => SoakClimbs first) where
  battery := fun _ => climbs_ask fun _ => rfl
  clock := climbs_ask fun _ => rfl
  scan := fun _ => climbs_ask fun _ => rfl
  sampled := fun _ _ => climbs_sampled _ _
  sleep := fun _ => climbs_ask fun _ => rfl
  save := climbs_save
  candidate := fun _ hf =>
    climbs_assign (grows_onCandidate fun record => (hf record).symm ▸ List.prefix_rfl)
  baseline := fun _ hf =>
    climbs_assign (grows_onBaseline fun record => (hf record).symm ▸ List.prefix_rfl)
  refused := fun _ _ _ hs => hs

theorem climbs_soakBody (fuel : ℕ) : KeepsClimbing first
    (soakBody py bench candidate baseline duration interval scan_window fuel) := by
  refine (climbs_steps.soakBody (climbs_assign fun result => SoakResult.GrowsTo.refl result)
    climbs_save fuel).conseq (fun _ hs => hs) ?_ fun _ _ hs => hs
  rintro returned s (⟨-, hs⟩ | ⟨-, hs⟩)
  · exact hs
  · exact hs

theorem climbs_soakHandler (error : PyExc) : KeepsClimbing first (soakHandler bench error) := by
  unfold soakHandler
  split
  · exact always_throw _
  · refine always_bind (climbs_assign fun result => SoakResult.GrowsTo.refl result) fun _ => ?_
    exact always_bind climbs_save fun _ => always_throw _

/-- **The results of a soak climb**, however it ends. -/
theorem soak_climbs (fuel : ℕ) :
    ((((run_soak py bench candidate baseline duration interval scan_window fuel).exec
      []).2).filterMap SoakEvent.handed).Pairwise SoakResult.GrowsTo := by
  let I : List SoakEvent → Prop := fun log =>
    (log.filterMap SoakEvent.handed).Pairwise SoakResult.GrowsTo
  let empty : SoakResult := ⟨.running, .empty candidate, .empty baseline, none⟩
  have hrun : Triple (fun log : List SoakEvent => log = [])
      (run_soak py bench candidate baseline duration interval scan_window fuel) (fun _ => I)
      (fun _ => I) := by
    unfold run_soak
    split
    · exact triple_throw fun log hlog => by rw [hlog]; exact List.Pairwise.nil
    · -- a result that was handed over is below the one in memory, so that the next is no lower
      have hweak : ∀ s, SoakClimbs empty s → I s.2 := fun s hs =>
        (List.pairwise_cons.mp hs.pairwise).2
      refine triple_withLocal (R := fun _ => SoakClimbs empty) (F := fun _ => SoakClimbs empty) ?_
        (fun _ => hweak) fun _ => hweak
      refine (always_bind climbs_save fun _ => ?_ : KeepsClimbing empty _).conseq ?_
        (fun _ _ hs => hs) fun _ _ hs => hs
      · exact triple_tryCatch (climbs_soakBody fuel) fun error => climbs_soakHandler error
      · rintro ⟨result, log⟩ ⟨rfl, rfl⟩
        exact climbs_nil (SoakResult.GrowsTo.refl _)
  exact hrun.final rfl (fun _ _ h => h) fun _ _ h => h

end Soak

/-! ## Both runs -/

/-- The bench whose checkpoint writes to a file. -/
def Bench.saving (bench : Bench) (saver : Saver BenchEvent AcceptanceResult) : Bench :=
  { bench with checkpoint := some saver.checkpoint }

def SoakBench.saving (bench : SoakBench) (saver : Saver SoakEvent SoakResult) : SoakBench :=
  { bench with checkpoint := some saver.checkpoint }

/-- What a crash at any point leaves of the result of a run with these dealings. -/
def CrashSafe {ι ρ : Type} (saver : Saver ι ρ) (handed : ι → Option ρ) (GrowsTo : ρ → ρ → Prop)
    (log : List ι) : Prop :=
  ∀ (d d' : Disk ResultPath) (done rest : List (Op ResultPath)),
    saver.opsFrom handed [] log = done ++ rest → Crash d done rest d' →
    Surviving saver handed GrowsTo log (moves done) (d saver.path) (d' saver.path)

/-- **The evidence survives.** Whatever the disk held when the run began, and wherever
in the run ptlab dies, there is at the path of the result what was there before,
until the first move; and from then on the whole document of the result that was
moved last, the steps of which, or the samples of both watches, every later
checkpoint has too. -/
theorem evidence_survives :
    (∀ (py : Builtins) (bench : Bench) (saver : Saver BenchEvent AcceptanceResult)
      (plan : AcceptancePlan) (reported_battery_percent reported_battery_mv
        minimum_battery_percent : ℤ),
      CrashSafe saver BenchEvent.handed (fun result result' => result.steps <+: result'.steps)
        ((run_acceptance_plan py (bench.saving saver) plan reported_battery_percent
          reported_battery_mv minimum_battery_percent).exec []).2) ∧
    ∀ (py : Builtins) (bench : SoakBench) (saver : Saver SoakEvent SoakResult)
      (candidate baseline : BleEndpoint) (duration interval scan_window : ℚ) (fuel : ℕ),
      CrashSafe saver SoakEvent.handed SoakResult.GrowsTo
        ((run_soak py (bench.saving saver) candidate baseline duration interval scan_window
          fuel).exec []).2 := by
  constructor
  · intro py bench saver plan percent mv minimum d d' done rest hops hcrash
    exact evidence_of_crash (acceptance_climbs percent mv minimum) hops hcrash
  · intro py bench saver candidate baseline duration interval scan_window fuel d d' done rest hops
      hcrash
    exact evidence_of_crash (soak_climbs fuel) hops hcrash

end Ptlab.Hardware
