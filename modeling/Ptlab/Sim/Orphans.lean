/-
Runs of `Simulator.start` that leave something behind, and the contract.

For each point and exception that are not harmless there, `lone` is a run in
which nothing else goes wrong and that gets to the point: its answers depend on
the point, so that a loop does not end before the turn meant. The triples of this
module follow that run; on a return they say that the point was not among those
passed, which at the end leaves no point.
-/
import Ptlab.Sim.Reached

set_option autoImplicit false

open Effect

namespace Ptlab.Sim

/-! ## Runs that leave something behind -/

section Lost

/-- The turn of `_wait_for_x` that a point is in. -/
def Point.waits : Point → Option (Fin 100)
  | .xvfb_poll i | .getdisplaygeometry i | .xvfb_sleep i => some i
  | _ => none

/-- The turn of the search for the window that a point is in. -/
def Point.finds : Point → Option (Fin 200)
  | .search i | .sim_poll i | .sim_sleep i => some i
  | _ => none

/-- The turn of `wait_for_tcp_listener` that a point is in. -/
def Point.listens : Point → Option ℕ
  | .process_alive n | .probe n | .process_alive_again n | .listener_sleep n => some n
  | _ => none

/-- Whether a point is behind an accepting probe. -/
def Point.again : Point → Bool
  | .process_alive_again _ => true
  | _ => false

/-- Turns that lead to a point. -/
def Point.turns (p : Point) : List Bool :=
  match p.listens with
  | some n => List.replicate n false ++ [p.again]
  | none => if p = .process_alive_at_last then [] else [true]

/-- A run that gets to `p`, where `e` is raised. Nothing else is, and both
processes stay up. -/
def lone (p : Point) (e : PyExc) : Env where
  fault := fun q => if q = p then some e else none
  healthy := false
  infinisim := "InfiniSim"
  binary_exists := true
  ports := []
  one_log := false
  stderr := "sim.stderr.log"
  xvfb_pid := 77
  xvfb_pid_pos := by decide
  sim_pid := 78
  sim_pid_pos := by decide
  xvfb_alive := fun _ => true
  sim_alive := fun _ => true
  selected := decide (p ≠ .first_poll)
  line := "1"
  line_isdigit := true
  display_ready := fun _ => decide (p.waits = none ∧ p ≠ .second_poll)
  windows := fun _ => if p.finds = none then ["1"] else []
  listener := p.turns

/-- Arguments under which the run gets there. -/
def loneArgs (headless : Bool) : StartArgs := ⟨none, 1, some 1, some 2, headless⟩

/-- There are groups, and none of them is passed on or recorded. -/
def Unreached (w : StartWorld) : Prop := w.spawned ≠ [] ∧ w.passed = [] ∧ w.stateFile = none

theorem Unreached.not_allReached {w : StartWorld} (h : Unreached w) : ¬ AllReached w := by
  intro hall
  obtain ⟨pid, hpid⟩ := List.exists_mem_of_ne_nil _ h.1
  rcases hall pid hpid with hmem | hmem
  · rw [h.2.1] at hmem
    cases hmem
  · unfold StartWorld.recorded at hmem
    rw [h.2.2] at hmem
    cases hmem

/-- What the `try` clause raises with: an exception that the `except` clause is
not for, or groups that its local variables do not have. -/
def Lost (e : PyExc) (w : StartWorld) : Prop :=
  Unreached w ∧ (e.isException = true → w.xvfb = none ∧ w.sim = none)

variable {p : Point} {e : PyExc} {headless : Bool} {P : StartWorld → Prop}
  {E : PyExc → StartWorld → Prop}

theorem triple_lone (q : Point) : Triple P (point (lone p e) q) (fun _ w => P w ∧ q ≠ p)
    (fun e' w => P w ∧ e' = e ∧ q = p) := by
  unfold point lone
  dsimp only
  by_cases hq : q = p
  · rw [if_pos hq]
    exact triple_throw fun w hw => ⟨hw, rfl, hq⟩
  · rw [if_neg hq]
    exact triple_pure fun w hw => ⟨hw, hq⟩

theorem wait_for_x_lone (display : String) (turns : List (Fin 100))
    (hturn : ∀ i, p.waits = some i → i ∈ turns)
    (hready : p.waits = none → p ≠ .second_poll → turns ≠ []) :
    Triple P (_wait_for_x (lone p e) display turns)
      (fun _ w => P w ∧ p.waits = none ∧ p ≠ .second_poll)
      (fun e' w => P w ∧ ((e' = e ∧ p.waits ≠ none) ∨ p = .second_poll)) := by
  induction turns with
  | nil =>
      -- the turns run out only if the point is the handler's `poll`
      refine triple_throw fun w hw => ⟨hw, ?_⟩
      by_contra hnot
      rw [not_or] at hnot
      rcases hwaits : p.waits with _ | i
      · exact hready hwaits hnot.2 rfl
      · exact absurd (hturn i hwaits) List.not_mem_nil
  | cons i turns ih =>
      have hraise : ∀ q : Point, q.waits = some i → Triple P (point (lone p e) q)
          (fun _ w => P w ∧ q ≠ p)
          (fun e' w => P w ∧ ((e' = e ∧ p.waits ≠ none) ∨ p = .second_poll)) := fun q hq =>
        (triple_lone q).raises fun e' w ⟨hw, he, hqp⟩ => ⟨hw, .inl ⟨he, by
          rw [← hqp, hq]
          exact Option.some_ne_none i⟩⟩
      rw [_wait_for_x]
      refine triple_bind (hraise _ rfl) fun _ => triple_assume fun hpoll => ?_
      refine triple_bind (triple_orRaise fun h => by cases h) fun _ => ?_
      refine triple_bind (hraise _ rfl) fun _ => triple_assume fun hgeometry => ?_
      split_ifs with hr
      · exact triple_pure fun w hw => ⟨hw, of_decide_eq_true hr⟩
      · have hr := of_decide_eq_false (Bool.eq_false_iff.mpr hr)
        refine triple_bind (hraise _ rfl) fun _ => triple_assume fun hsleep => ?_
        -- this turn is over, so the point is in a later one
        refine ih (fun j hj => ?_) fun hwaits hsecond => absurd ⟨hwaits, hsecond⟩ hr
        refine (List.mem_cons.mp (hturn j hj)).resolve_left fun hji => ?_
        subst hji
        cases p <;> first | cases hj; contradiction | cases hj

theorem findWindow_lone (turns : List (Fin 200)) (hturn : ∀ i, p.finds = some i → i ∈ turns)
    (hfound : p.finds = none → turns ≠ []) :
    Triple P (findWindow (lone p e) turns) (fun _ w => P w ∧ p.finds = none)
      (fun e' w => P w ∧ e' = e ∧ p.finds ≠ none) := by
  induction turns with
  | nil =>
      refine triple_throw fun w _ => ?_
      exfalso
      rcases hfinds : p.finds with _ | i
      · exact hfound hfinds rfl
      · exact absurd (hturn i hfinds) List.not_mem_nil
  | cons i turns ih =>
      have hraise : ∀ q : Point, q.finds = some i → Triple P (point (lone p e) q)
          (fun _ w => P w ∧ q ≠ p) (fun e' w => P w ∧ e' = e ∧ p.finds ≠ none) := fun q hq =>
        (triple_lone q).raises fun e' w ⟨hw, he, hqp⟩ => ⟨hw, he, by
          rw [← hqp, hq]
          exact Option.some_ne_none i⟩
      rw [findWindow]
      refine triple_bind (hraise _ rfl) fun _ => triple_assume fun hsearch => ?_
      by_cases hnone : p.finds = none
      · have hwindows : (lone p e).windows i = ["1"] := if_pos hnone
        rw [hwindows]
        exact triple_pure fun w hw => ⟨hw, hnone⟩
      · have hwindows : (lone p e).windows i = [] := if_neg hnone
        rw [hwindows]
        refine triple_bind (hraise _ rfl) fun _ => triple_assume fun hpoll => ?_
        refine triple_bind (triple_orRaise fun h => by cases h) fun _ => ?_
        refine triple_bind (hraise _ rfl) fun _ => triple_assume fun hsleep => ?_
        -- as above: no window yet, and the point is in a later turn
        refine ih (fun j hj => ?_) fun h => absurd h hnone
        refine (List.mem_cons.mp (hturn j hj)).resolve_left fun hji => ?_
        subst hji
        cases p <;> first | cases hj; contradiction | cases hj

theorem listener_lone_turn (port : ℤ) {m : ℕ} (hm : p.listens = some m) (k n : ℕ)
    (hk : n + k = m) :
    Triple P (wait_for_tcp_listener (lone p e) port n (List.replicate k false ++ [p.again]))
      (fun _ _ => False) (fun e' w => P w ∧ e' = e) := by
  have hraise : ∀ q : Point, Triple P (point (lone p e) q) (fun _ w => P w ∧ q ≠ p)
      (fun e' w => P w ∧ e' = e) := fun q => (triple_lone q).raises fun _ _ hw => ⟨hw.1, hw.2.1⟩
  induction k generalizing n with
  | zero =>
      -- the last turn is the one the point is in
      obtain rfl : n = m := hk
      rw [List.replicate_zero, List.nil_append, wait_for_tcp_listener]
      refine triple_bind (hraise _) fun _ => triple_assume fun halive => ?_
      refine triple_bind (triple_orRaise fun h => by cases h) fun _ => ?_
      refine triple_bind (hraise _) fun _ => triple_assume fun hprobe => ?_
      split_ifs with hagain
      · refine triple_bind (hraise _) fun _ => triple_assume fun hlast => ?_
        cases p <;> first | cases hm; contradiction | cases hm
      · refine triple_bind (hraise _) fun _ => triple_assume fun hlast => ?_
        cases p <;> first | cases hm; contradiction | cases hm
  | succ k ih =>
      rw [List.replicate_succ, List.cons_append, wait_for_tcp_listener]
      refine triple_bind (hraise _) fun _ => triple_assume fun _ => ?_
      refine triple_bind (triple_orRaise fun h => by cases h) fun _ => ?_
      refine triple_bind (hraise _) fun _ => triple_assume fun _ => ?_
      rw [if_neg Bool.false_ne_true]
      refine triple_bind (hraise _) fun _ => triple_assume fun _ => ?_
      exact ih (n + 1) (by omega)

theorem wait_for_tcp_listener_lone (port : ℤ) :
    Triple P (wait_for_tcp_listener (lone p e) port 0 p.turns)
      (fun _ w => P w ∧ p.listens = none ∧ p ≠ .process_alive_at_last)
      (fun e' w => P w ∧ e' = e ∧ p.stage = .running) := by
  have hraise : ∀ q : Point, q.stage = .running → Triple P (point (lone p e) q)
      (fun _ w => P w ∧ q ≠ p) (fun e' w => P w ∧ e' = e ∧ p.stage = .running) := fun q hq =>
    (triple_lone q).raises fun _ _ ⟨hw, he, hqp⟩ => ⟨hw, he, hqp ▸ hq⟩
  unfold Point.turns
  rcases hlistens : p.listens with _ | m
  · dsimp only
    split_ifs with hlast
    · rw [wait_for_tcp_listener]
      refine triple_bind (hraise _ rfl) fun _ => triple_assume fun hne => ?_
      exact absurd hlast.symm hne
    · rw [wait_for_tcp_listener]
      refine triple_bind (hraise _ rfl) fun _ => triple_assume fun _ => ?_
      refine triple_bind (triple_orRaise fun h => by cases h) fun _ => ?_
      refine triple_bind (hraise _ rfl) fun _ => triple_assume fun _ => ?_
      rw [if_pos rfl]
      refine triple_bind (hraise _ rfl) fun _ => triple_assume fun _ => ?_
      exact (triple_orRaise fun h => by cases h).conseq (fun _ hw => hw)
        (fun _ _ hw => ⟨hw, rfl, hlast⟩) fun _ _ hw => hw
  · have hstage : p.stage = .running := by
      cases p <;> first | rfl | cases hlistens
    exact (listener_lone_turn port hlistens m 0 (Nat.zero_add m)).conseq (fun _ hw => hw)
      (fun _ _ hw => hw.elim) fun _ _ hw => ⟨hw.1, hw.2, hstage⟩

/-- The world once Xvfb is up. -/
def xvfbRuns : StartWorld := ⟨none, [77], [], some 77, none, none⟩

/-- The world when the simulator is to be started. -/
def beforeSim (headless : Bool) : StartWorld :=
  if headless then .initial none else { xvfbRuns with xvfb := some 77 }

section Harmful

variable (hp : ¬ HarmlessAt headless p e)

include hp

/-- What a harmful point and exception can be. -/
theorem stage_of_harmful :
    (p.stage = .running ∧ e.isException = false) ∨
      (headless = false ∧ p.stage = .xvfb ∧ e.isException = false) ∨
      (headless = false ∧ p.stage = .unguarded) := by
  unfold HarmlessAt at hp
  rcases hstage : p.stage <;> rw [hstage] at hp
  · exact absurd trivial hp
  · rw [not_or, Bool.not_eq_true, Bool.not_eq_true] at hp
    exact .inr (.inl ⟨hp.1, rfl, hp.2⟩)
  · exact .inl ⟨rfl, Bool.eq_false_iff.mpr hp⟩
  · exact .inr (.inr ⟨Bool.eq_false_iff.mpr hp, rfl⟩)

theorem triple_lone_idle {q : Point} (hq : q.stage = .idle) :
    Triple P (point (lone p e) q) (fun _ => P) E := by
  refine (triple_lone q).conseq (fun _ hw => hw) (fun _ _ hw => hw.1) fun e' w hw => ?_
  obtain ⟨-, -, rfl⟩ := hw
  rcases stage_of_harmful hp with h | h | h
  · rw [hq] at h
    cases h.1
  · rw [hq] at h
    cases h.2.1
  · rw [hq] at h
    cases h.2

theorem spawnXvfb_lone :
    Triple (· = .initial none) (spawnXvfb (lone p e) none)
      (fun _ w => w = xvfbRuns ∧ p ∉ [.selector, .select, .first_poll, .readline,
        .xvfb_stdout_close])
      (fun e' w => w = xvfbRuns ∧ ((e' = e ∧ p.stage = .xvfb) ∨ p = .first_poll)) := by
  have hraise : ∀ q : Point, q.stage = .xvfb → Triple (· = xvfbRuns) (point (lone p e) q)
      (fun _ w => w = xvfbRuns ∧ q ≠ p)
      (fun e' w => w = xvfbRuns ∧ ((e' = e ∧ p.stage = .xvfb) ∨ p = .first_poll)) := fun q hq =>
    (triple_lone q).raises fun e' w ⟨hw, he, hqp⟩ => ⟨hw, .inl ⟨he, hqp ▸ hq⟩⟩
  unfold spawnXvfb
  refine triple_bind (triple_lone_idle hp rfl) fun _ => ?_
  refine triple_bind (triple_update (R := (· = xvfbRuns)) fun w hw => ?_) fun _ => ?_
  · rw [hw]
    rfl
  have hnone : ¬ (none : Option String).getD "" ≠ "" := fun h => h rfl
  rw [if_neg hnone]
  refine triple_bind (hraise _ rfl) fun _ => triple_assume fun hselector => ?_
  refine triple_bind (hraise _ rfl) fun _ => triple_assume fun hselect => ?_
  refine triple_bind (triple_orRaise_ok fun h w hw =>
    ⟨hw, .inr (not_not.mp (of_decide_eq_false h))⟩) fun _ => triple_assume fun hselected => ?_
  refine triple_bind (hraise _ rfl) fun _ => triple_assume fun hreadline => ?_
  refine triple_bind (hraise _ rfl) fun _ => triple_assume fun hclose => ?_
  refine triple_bind (triple_orRaise fun h => by cases h) fun _ => triple_pure fun w hw => ⟨hw, ?_⟩
  have hfirst : p ≠ .first_poll := of_decide_eq_true hselected
  -- every point of the `try` clause has been passed without an exception
  simp [hfirst, hselector.symm, hselect.symm, hreadline.symm, hclose.symm]

omit hp in
/-- A handler that is interrupted while it polls. -/
theorem killXvfb_lone (killpg : Point) :
    Triple (· = xvfbRuns) (killXvfb (lone p e) p killpg) (fun _ _ => False)
      (fun _ w => w = xvfbRuns) := by
  unfold killXvfb
  refine triple_bind (triple_read (Q := fun process w => w = xvfbRuns ∧ process = some 77)
    fun w hw => ⟨hw, by rw [hw]; rfl⟩) fun process => triple_assume fun hprocess => ?_
  subst hprocess
  dsimp only
  refine triple_bind ((triple_lone p).raises fun _ _ hw => hw.1) fun _ => ?_
  exact triple_assume fun hne => absurd rfl hne

/-- The handlers, for what the two `try` clauses raise. -/
theorem onException_lone {α : Type} {body : Effect StartWorld PyExc α} {poll killpg : Point}
    {Q : α → StartWorld → Prop} {P : StartWorld → Prop}
    (hbody : Triple P body Q
      (fun e' w => w = xvfbRuns ∧ ((e' = e ∧ p.stage = .xvfb) ∨ p = poll))) :
    Triple P (onException body (killXvfb (lone p e) poll killpg)) Q
      (fun _ w => w = xvfbRuns) := by
  refine triple_onException hbody (fun e' he => ?_) fun _ _ w hw => hw.1
  refine triple_assume fun hcase => ?_
  rcases hcase with ⟨rfl, hstage⟩ | rfl
  · -- such an exception is none that the handlers are for
    rcases stage_of_harmful hp with h | h | h
    · rw [hstage] at h
      cases h.1
    · rw [h.2.2] at he
      cases he
    · rw [hstage] at h
      cases h.2
  · exact (killXvfb_lone killpg).conseq (fun _ hw => hw) (fun _ _ hw => hw.elim) fun _ _ hw => hw

/-- `_start_xvfb` raises, and nobody has Xvfb, unless the point is outside it. -/
theorem start_xvfb_lone :
    Triple (· = .initial none) (_start_xvfb (lone p e) none)
      (fun _ w => w = xvfbRuns ∧ p ∉ [.selector, .select, .first_poll, .readline,
        .xvfb_stdout_close, .error_stream_close, .second_poll] ∧ p.waits = none)
      (fun _ w => w = xvfbRuns) := by
  unfold _start_xvfb
  refine triple_bind (triple_update (R := (· = .initial none)) fun w hw => by rw [hw]; rfl)
    fun _ => ?_
  refine triple_bind (triple_lone_idle hp rfl) fun _ => ?_
  refine triple_bind (triple_lone_idle hp rfl) fun _ => ?_
  have hfirst : Triple (· = .initial none)
      (onException (spawnXvfb (lone p e) none) (killXvfb (lone p e) .first_poll .first_killpg))
      (fun _ w => w = xvfbRuns ∧ p ∉ [.selector, .select, .first_poll, .readline,
        .xvfb_stdout_close]) (fun _ w => w = xvfbRuns) :=
    onException_lone hp (spawnXvfb_lone hp)
  have hclosed : Triple (· = .initial none)
      (ensure (onException (spawnXvfb (lone p e) none)
        (killXvfb (lone p e) .first_poll .first_killpg)) (point (lone p e) .error_stream_close))
      (fun _ w => w = xvfbRuns ∧ p ∉ [.selector, .select, .first_poll, .readline,
        .xvfb_stdout_close, .error_stream_close]) (fun _ w => w = xvfbRuns) := by
    refine triple_ensure hfirst (fun _ => triple_assume fun hnot => ?_) fun _ => always_point _
    refine (triple_lone _).conseq (fun _ hw => hw) (fun _ w hw => ⟨hw.1, ?_⟩)
      fun _ _ hw => hw.1
    have hne := hw.2.symm
    simp only [List.mem_cons, List.not_mem_nil, or_false, not_or] at hnot ⊢
    tauto
  -- the first `try` is over; the second waits for the display
  refine triple_bind hclosed fun chosen => triple_assume fun hnot => ?_
  have hwait : Triple (· = xvfbRuns) (_wait_for_x (lone p e) chosen (List.finRange 100))
      (fun _ w => w = xvfbRuns ∧ p.waits = none ∧ p ≠ .second_poll)
      (fun e' w => w = xvfbRuns ∧ ((e' = e ∧ p.waits ≠ none) ∨ p = .second_poll)) :=
    wait_for_x_lone chosen _ (fun i _ => List.mem_finRange i) fun _ _ =>
      List.ne_nil_of_mem (List.mem_finRange 0)
  have hsecond : Triple (· = xvfbRuns)
      (onException (_wait_for_x (lone p e) chosen (List.finRange 100))
        (killXvfb (lone p e) .second_poll .second_killpg))
      (fun _ w => w = xvfbRuns ∧ p.waits = none ∧ p ≠ .second_poll)
      (fun _ w => w = xvfbRuns) := by
    refine onException_lone hp (hwait.raises fun e' w hw => ⟨hw.1, ?_⟩)
    refine hw.2.imp_left fun h => ⟨h.1, ?_⟩
    have hwaits := h.2
    cases p <;> first | rfl | exact absurd rfl hwaits
  refine triple_bind hsecond fun _ => triple_pure fun w hw => ⟨hw.1, ?_, hw.2.1⟩
  have hne := hw.2.2
  simp only [List.mem_cons, List.not_mem_nil, or_false, not_or] at hnot ⊢
  tauto

/-- Raised where nothing but Xvfb runs. -/
theorem triple_lone_before {q : Point} (hq : q.stage = .xvfb) :
    Triple (· = beforeSim headless) (point (lone p e) q)
      (fun _ w => w = beforeSim headless ∧ q ≠ p) (fun e' w => Lost e' w ∧ q = p) := by
  refine (triple_lone q).raises fun e' w hw => ?_
  obtain ⟨rfl, rfl, rfl⟩ := hw
  rcases stage_of_harmful hp with h | h | h
  · rw [hq] at h
    cases h.1
  · rw [h.1]
    refine ⟨⟨⟨by decide, rfl, rfl⟩, fun hexc => ?_⟩, rfl⟩
    rw [h.2.2] at hexc
    cases hexc
  · rw [hq] at h
    cases h.2

/-- Raised where the simulator runs, or by a function that runs there. -/
theorem lost_of_unreached {e' : PyExc} {w : StartWorld} (hw : Unreached w) (he : e' = e)
    (hstage : p.stage ≠ .unguarded) : Lost e' w := by
  refine ⟨hw, fun hexc => ?_⟩
  subst he
  rcases stage_of_harmful hp with h | h | h
  · rw [h.2] at hexc
    cases hexc
  · rw [h.2.2] at hexc
    cases hexc
  · exact absurd h.2 hstage

theorem triple_lone_running {q : Point} (hq : q.stage ≠ .unguarded) :
    Triple Unreached (point (lone p e) q) (fun _ w => Unreached w ∧ q ≠ p) Lost :=
  (triple_lone q).raises fun _ _ ⟨hw, he, hqp⟩ => lost_of_unreached hp hw he (hqp ▸ hq)

theorem spawnSim_lone :
    Triple (· = beforeSim headless) (spawnSim (lone p e))
      (fun _ w => Unreached w ∧
        p ∉ [.stdout_open, .stderr_open, .sim_popen, .stdout_close, .stderr_close]) Lost := by
  have hbefore : ∀ q : Point, q.stage = .xvfb → Triple (· = beforeSim headless)
      (point (lone p e) q) (fun _ w => w = beforeSim headless ∧ q ≠ p) Lost := fun q hq =>
    (triple_lone_before hp hq).raises fun _ _ hw => hw.1
  unfold spawnSim
  refine triple_bind (hbefore _ rfl) fun _ => triple_assume fun hout => ?_
  refine triple_bind (triple_skipIf (fun h => by cases h) fun _ => hbefore _ rfl) fun _ => ?_
  refine triple_assume fun herr => ?_
  have hpopen : Triple (· = beforeSim headless)
      (do
        point (lone p e) .sim_popen
        update fun w => { w with
          spawned := w.spawned ++ [(lone p e).sim_pid], sim := some (lone p e).sim_pid })
      (fun _ w => Unreached w ∧ Point.sim_popen ≠ p)
      (fun e' w => Lost e' w ∧ Point.sim_popen = p) := by
    refine triple_bind (triple_lone_before hp rfl) fun _ => triple_assume fun hne => ?_
    refine triple_update fun w hw => ⟨⟨List.append_ne_nil_of_right_ne_nil _ (by simp), ?_, ?_⟩, hne⟩
    · rw [hw]
      cases headless <;> rfl
    · rw [hw]
      cases headless <;> rfl
  refine triple_ensure hpopen (fun _ => triple_assume fun hsim => ?_) fun e' => ?_
  · have hrunning : ∀ q : Point, q.stage = .running → Triple Unreached (point (lone p e) q)
        (fun _ w => Unreached w ∧ q ≠ p) Lost := fun q hq =>
      triple_lone_running hp (by rw [hq]; decide)
    refine triple_bind (hrunning _ rfl) fun _ => triple_assume fun hclose => ?_
    refine (triple_skipIf (fun h => by cases h) fun _ => hrunning _ rfl).conseq (fun _ hw => hw)
      (fun _ w hw => ⟨hw.1, ?_⟩) fun _ _ hw => hw
    have hlast := hw.2
    simp only [List.mem_cons, List.not_mem_nil, or_false, not_or]
    exact ⟨hout.symm, herr.symm, hsim.symm, hclose.symm, hlast.symm⟩
  · -- what `Popen` raises is still there after the logs are closed
    refine triple_assume fun hpop => ?_
    have hquiet : ∀ q : Point, q ≠ p → Triple (Lost e') (point (lone p e) q) (fun _ => Lost e')
        Lost := fun q hq =>
      (triple_lone q).conseq (fun _ hw => hw) (fun _ _ hw => hw.1) fun _ _ hw =>
        absurd hw.2.2 hq
    refine triple_bind (hquiet _ (by rw [← hpop]; decide)) fun _ => ?_
    exact triple_skipIf (fun _ _ hw => hw) fun _ => hquiet _ (by rw [← hpop]; decide)

/-- The run passes every harmful point. -/
theorem passed_all
    (hout : headless = false → p ∉ [.selector, .select, .first_poll, .readline,
      .xvfb_stdout_close, .error_stream_close, .second_poll] ∧ p.waits = none)
    (hflash : .seed_flash ≠ p ∧ .link_flash ≠ p)
    (hsim : p ∉ [.stdout_open, .stderr_open, .sim_popen, .stdout_close, .stderr_close])
    (hfinds : headless = false → p.finds = none)
    (hfocus : headless = false → p ∉ [.windowfocus, .focus_sleep])
    (hlistens : p.listens = none ∧ p ≠ .process_alive_at_last)
    (hlast : .settle_sleep ≠ p ∧ .write_state ≠ p) : False := by
  simp only [List.mem_cons, List.not_mem_nil, or_false, not_or] at hout hsim hfocus
  rcases stage_of_harmful hp with ⟨hstage, -⟩ | ⟨hx, hstage, -⟩ | ⟨hx, hstage⟩
  · cases p <;> first | (cases hstage; done) | simp_all [Point.listens]
  · cases p <;> first | (cases hstage; done) | simp_all [Point.waits, Point.finds]
  · cases p <;> first | (cases hstage; done) | simp_all

/-- The `try` clause does not return. -/
theorem launch_lone :
    Triple (· = .initial none) (launch (lone p e) (loneArgs headless) 2) (fun _ _ => False)
      Lost := by
  have hxvfb : Triple (· = .initial none)
      (skipIf headless do
        let _ ← _start_xvfb (lone p e) none
        update fun w => { w with xvfb := w.process })
      (fun _ w => w = beforeSim headless ∧ (headless = false → p ∉ [.selector, .select,
        .first_poll, .readline, .xvfb_stdout_close, .error_stream_close, .second_poll] ∧
        p.waits = none)) Lost := by
    refine triple_skipIf (fun hx w hw => ⟨?_, fun h => ?_⟩) fun hx => ?_
    · rw [hw, hx]
      rfl
    · rw [hx] at h
      cases h
    · refine triple_bind ((start_xvfb_lone hp).raises fun _ w hw => ?_) fun _ =>
        triple_update fun w hw => ⟨?_, fun _ => hw.2⟩
      · rw [hw]
        exact ⟨⟨by decide, rfl, rfl⟩, fun _ => ⟨rfl, rfl⟩⟩
      · rw [hw.1, hx]
        rfl
  unfold launch
  refine triple_bind hxvfb fun _ => triple_assume fun hout => ?_
  refine triple_bind ((triple_lone_before hp rfl).raises fun _ _ hw => hw.1) fun _ => ?_
  refine triple_assume fun hseed => ?_
  refine triple_bind ((triple_lone_before hp rfl).raises fun _ _ hw => hw.1) fun _ => ?_
  refine triple_assume fun hlink => ?_
  refine triple_bind (spawnSim_lone hp) fun _ => triple_assume fun hsim => ?_
  refine triple_bind (triple_skipIf (R := fun w => Unreached w ∧
    (headless = false → p.finds = none)) (fun hx w hw => ⟨hw, fun h => ?_⟩) fun _ => ?_)
    fun _ => triple_assume fun hfinds => ?_
  · cases hx.symm.trans h
  · refine triple_bind ((findWindow_lone _ (fun i _ => List.mem_finRange i) fun _ =>
      List.ne_nil_of_mem (List.mem_finRange 0)).raises fun _ w hw => ?_) fun _ =>
      triple_pure fun w hw => ⟨hw.1, fun _ => hw.2⟩
    refine lost_of_unreached hp hw.1 hw.2.1 fun hstage => hw.2.2 ?_
    cases p <;> first | rfl | cases hstage
  refine triple_bind (triple_read (Q := fun _ => Unreached) fun _ hw => hw) fun state => ?_
  refine triple_bind (triple_skipIf (R := fun w => Unreached w ∧
    (headless = false → p ∉ [.windowfocus, .focus_sleep])) (fun hx w hw => ⟨hw, fun h => ?_⟩)
    fun _ => ?_) fun _ => triple_assume fun hfocus => ?_
  · cases hx.symm.trans h
  · refine triple_bind (triple_lone_running hp (by decide)) fun _ => triple_assume fun hfocus => ?_
    refine (triple_lone_running hp (by decide)).conseq (fun _ hw => hw)
      (fun _ w hw => ⟨hw.1, fun _ => ?_⟩) fun _ _ hw => hw
    have hsleep := hw.2
    simp only [List.mem_cons, List.not_mem_nil, or_false, not_or]
    exact ⟨hfocus.symm, hsleep.symm⟩
  refine triple_bind ((wait_for_tcp_listener_lone 2).raises fun _ w hw =>
    lost_of_unreached hp hw.1 hw.2.1 ?_) fun _ => triple_assume fun hlistens => ?_
  · rw [hw.2.2]
    decide
  refine triple_bind (triple_lone_running hp (by decide)) fun _ => triple_assume fun hsettle => ?_
  refine triple_bind (triple_lone_running hp (by decide)) fun _ => triple_assume fun hwrite => ?_
  -- a run that gets here has passed the point it was meant to stop at
  exact (passed_all hp hout ⟨hseed, hlink⟩ hsim hfinds hfocus hlistens ⟨hsettle, hwrite⟩).elim

/-- The run ends, and groups are left that nobody has. -/
theorem start_lone :
    ¬ AllReached ((start (lone p e) (loneArgs headless)).exec (.initial none)).2 := by
  have hports : Triple (· = .initial none) (choosePorts (lone p e) (loneArgs headless))
      (fun ports w => w = .initial none ∧ ports.2 = 2) (fun _ => Unreached) := by
    have hok : ∀ {ok : Bool} {message : String}, ok = true → Triple (· = .initial none)
        (orRaise ok message) (fun _ w => w = .initial none) (fun _ => Unreached) := by
      rintro _ _ rfl
      exact triple_orRaise fun h => by cases h
    unfold choosePorts
    refine triple_bind (triple_lone_idle hp rfl) fun _ => triple_bind (hok rfl) fun _ => ?_
    refine triple_bind (hok rfl) fun _ => ?_
    refine triple_bind (Q := fun bridge w => w = .initial none ∧ bridge = (1, 0))
      (triple_pure fun w hw => ⟨hw, rfl⟩) fun bridge => triple_assume fun hbridge => ?_
    subst hbridge
    refine triple_bind (hok rfl) fun _ => ?_
    refine triple_bind (Q := fun port w => w = .initial none ∧ port = 2)
      (triple_pure fun w hw => ⟨hw, rfl⟩) fun port => triple_assume fun hport => ?_
    subst hport
    refine triple_bind (hok rfl) fun _ => triple_bind (hok rfl) fun _ => ?_
    refine triple_bind (hok (by cases headless <;> rfl)) fun _ => ?_
    exact triple_bind (triple_lone_idle hp rfl) fun _ => triple_pure fun w hw => ⟨hw, rfl⟩
  have hfresh : Triple (· = .initial none) (startFresh (lone p e) (loneArgs headless))
      (fun _ => Unreached) (fun _ => Unreached) := by
    unfold startFresh
    refine triple_bind hports fun ⟨bridge_port, ble_control_port⟩ => triple_assume fun hport => ?_
    dsimp only at hport
    subst hport
    refine triple_onException ((launch_lone hp).conseq (fun _ hw => hw) (fun _ _ hw => hw.elim)
      fun _ _ hw => hw) (fun e' he => ?_) fun _ _ w hw => hw.1
    -- the `except` clause has no process to pass on
    unfold cleanUp
    refine triple_bind (triple_update (R := Unreached) fun w hw => ?_) fun _ => ?_
    · obtain ⟨hxvfb, hsim⟩ := hw.2 he
      refine ⟨hw.1.1, ?_, hw.1.2.2⟩
      rw [hxvfb, hsim, hw.1.2.1]
      rfl
    refine triple_bind (always_point _) fun _ => triple_bind (always_point _) fun _ => ?_
    exact triple_update fun w hw => ⟨hw.1, hw.2.1, rfl⟩
  have hstart : Triple (· = .initial none) (start (lone p e) (loneArgs headless))
      (fun _ => Unreached) (fun _ => Unreached) := by
    unfold start
    refine triple_bind (triple_lone_idle hp rfl) fun _ => ?_
    refine triple_bind (triple_read (Q := fun stateFile w => w = .initial none ∧ stateFile = none)
      fun w hw => ⟨hw, by rw [hw]; rfl⟩) fun stateFile => triple_assume fun hnone => ?_
    subst hnone
    exact hfresh
  have hend := hstart.final rfl (fun _ _ hw => hw) fun _ _ hw => hw
  exact hend.not_allReached

end Harmful

end Lost

/-! ## The contract -/

/-- A run in which nothing is raised, but Xvfb exits as soon as it is asked for. -/
def dying : Env :=
  { lone .state_written (.BaseException "KeyboardInterrupt") with
    fault := fun _ => none
    xvfb_alive := fun _ => false }

theorem start_dying :
    (start dying (loneArgs false)).exec (.initial none) =
      (.error (SimError "Xvfb exited before display :1 became ready"), xvfbRuns) := by
  decide +kernel

/-- Whatever the system answers, and whichever of these exceptions are raised,
`start` leaves no group behind. `exits` is whether Xvfb may exit by itself. -/
def NoOrphans (headless exits : Bool) (faults : Point → PyExc → Prop) : Prop :=
  ∀ (env : Env) (args : StartArgs) (stateFile : Option SimState), args.headless = headless →
    (∀ p e, env.fault p = some e → faults p e) →
    (exits = false → ∀ p, env.xvfb_alive p = true) →
    AllReached ((start env args).exec (.initial stateFile)).2

/-- **When `start` leaves nothing behind.** Exactly if all exceptions that may be
raised are harmless where they are, and Xvfb, if there is one, does not exit by
itself. -/
theorem start_no_orphans_iff (headless exits : Bool) (faults : Point → PyExc → Prop) :
    NoOrphans headless exits faults ↔
      (∀ p e, faults p e → HarmlessAt headless p e) ∧ (exits = true → headless = true) := by
  constructor
  · intro hsafe
    refine ⟨fun p e hfault => ?_, fun hexits => ?_⟩
    · -- a harmful fault that is allowed is one that `lone` can raise
      by_contra hharm
      refine start_lone hharm (hsafe (lone p e) (loneArgs headless) none rfl (fun q e' hq => ?_)
        fun _ _ => rfl)
      have hlone : (if q = p then some e else none) = some e' := hq
      split_ifs at hlone with hqp
      obtain rfl := Option.some.inj hlone
      exact hqp ▸ hfault
    · by_contra hheadless
      rw [Bool.not_eq_true] at hheadless
      have hall := hsafe dying (loneArgs false) none hheadless.symm (fun _ _ h => by cases h)
        fun h => by rw [hexits] at h; cases h
      rw [start_dying] at hall
      exact Unreached.not_allReached ⟨by decide, rfl, rfl⟩ hall
  · rintro ⟨hharmless, hexits⟩ env args stateFile hheadless hfaults halive
    refine start_reached (fun p e h => hharmless p e (hfaults p e h)) hheadless (fun hx => ?_)
      stateFile
    refine halive (Bool.eq_false_iff.mpr fun h => ?_)
    rw [hexits h] at hx
    cases hx

/-- **An orphan.** Ctrl-C while `start` looks for the window: Xvfb and the
simulator run, `start` has ended, and nothing is recorded. In a headless run the
same happens during the wait for the listener. -/
theorem interrupted_start_orphans :
    let interrupt : PyExc := .BaseException "KeyboardInterrupt"
    (start (lone (.search 3) interrupt) (loneArgs false)).exec (.initial none) =
        (.error interrupt, ⟨none, [77, 78], [], some 77, some 77, some 78⟩) ∧
      (start (lone (.probe 0) interrupt) (loneArgs true)).exec (.initial none) =
        (.error interrupt, ⟨none, [78], [], none, none, some 78⟩) := by
  decide +kernel

end Ptlab.Sim
