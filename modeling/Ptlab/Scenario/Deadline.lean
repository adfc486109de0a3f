/-
`scenario_deadline` (`src/ptlab/scenario.py`) and the one timer it has.

A block arms the interval timer of the process and installs its own handler, and on
the way out it puts back both as it found them. What it found is the time that was
left when it was entered. So the time an inner block takes is not counted against the
outer one: while the inner block is open the outer limit is off, and afterwards it has
as much left as before. `Tracked` says what the timer, the handler and the saved pairs
have to do with the open blocks as long as no such time passes, and
`deadlines_kept` that nothing less will do.
-/
import Ptlab.Scenario

set_option autoImplicit false

open Ptlab.Scenario

namespace Ptlab.Deadline

/-! ## The process -/

/-- What `setitimer` sets and returns: the time left, 0 for a timer that is off, and
what is left once it has expired. -/
structure Itimer where
  value : ℚ
  interval : ℚ
  deriving DecidableEq, Repr

/-- The handler of `SIGALRM`: the one there was, or the `expired` of a block. -/
inductive Handler where
  | prior
  | expired (number : ℕ)
  deriving DecidableEq, Repr

/-- An open block. `fired` is no value of the source: its `expired` has been called. -/
structure Block where
  number : ℕ
  entered : ℚ
  seconds : ℚ
  prior_handler : Handler
  prior_timer : Itimer
  fired : Bool
  deriving DecidableEq, Repr

/-- A process with its open blocks, the innermost first. -/
structure Process where
  now : ℚ
  timer : Itimer
  handler : Handler
  blocks : List Block
  opened : ℕ
  deriving DecidableEq, Repr

/-- The way into a block, up to the `yield`. -/
def Process.enter (p : Process) (seconds : ℚ) : Except PyError Process :=
  if seconds ≤ 0 then .error (.other "ValueError" "scenario timeout must be positive")
  else .ok
    { p with
      handler := .expired p.opened
      timer := ⟨seconds, 0⟩
      blocks := ⟨p.opened, p.now, seconds, p.handler, p.timer, false⟩ :: p.blocks
      opened := p.opened + 1 }

/-- The `finally` clause of the innermost block. -/
def Process.leave (p : Process) : Option Process :=
  match p.blocks with
  | [] => none
  | b :: rest => some { p with timer := b.prior_timer, handler := b.prior_handler, blocks := rest }

/-- A block whose handler is called. -/
def Block.called (handler : Handler) (b : Block) : Block :=
  if handler = .expired b.number then { b with fired := true } else b

/-- The timer expires: the handler in place is called. -/
def Process.alarm (p : Process) : Process :=
  { p with
    timer := ⟨p.timer.interval, p.timer.interval⟩
    blocks := p.blocks.map (Block.called p.handler) }

/-- Some time passes, no more than the timer has left. -/
def Process.pass (p : Process) (elapsed : ℚ) : Option Process :=
  if elapsed ≤ 0 then none
  else if p.timer.value = 0 then some { p with now := p.now + elapsed }
  else if elapsed < p.timer.value then
    some { p with now := p.now + elapsed, timer := { p.timer with value := p.timer.value - elapsed } }
  else if elapsed = p.timer.value then some { p with now := p.now + elapsed }.alarm
  else none

inductive Action where
  | enter (seconds : ℚ)
  | pass (elapsed : ℚ)
  /-- By a return or by an exception. -/
  | leave
  deriving DecidableEq, Repr

def Process.step (p : Process) : Action → Option Process
  | .enter seconds => (p.enter seconds).toOption
  | .pass elapsed => p.pass elapsed
  | .leave => p.leave

/-- Actions one after another. -/
def Process.run (p : Process) : List Action → Option Process
  | [] => some p
  | a :: as => (p.step a).bind fun p' => p'.run as

/-- A process outside of all blocks, with its timer off. -/
def Process.start (now : ℚ) : Process := ⟨now, ⟨0, 0⟩, .prior, [], 0⟩

/-! ## Deadlines -/

/-- No open block is past its limit without its alarm, and the timer counts what the
innermost one has left. -/
structure OnTime (p : Process) : Prop where
  within : ∀ b ∈ p.blocks, b.fired = false → p.now ≤ b.entered + b.seconds
  counting : ∀ b rest, p.blocks = b :: rest → b.fired = false →
    p.timer.value = b.entered + b.seconds - p.now

/-- No time passes in a block while the alarm of one around it is still to come. -/
def Unshadowed (p : Process) : Action → Prop
  | .pass _ => ∀ b ∈ p.blocks.tail, b.fired = true
  | _ => True

/-- A run in which no time passes so. -/
inductive Reached : Process → Prop where
  | start (now : ℚ) : Reached (.start now)
  | step {p p' : Process} {a : Action} (h : Reached p) (ha : Unshadowed p a)
      (hstep : p.step a = some p') : Reached p'

/-! ## The invariant -/

/-- What the timer and the handler have to do with the open blocks: they are the
innermost one's, and what it saved are those of the next. -/
def Tracked (now : ℚ) : List Block → Itimer → Handler → Prop
  | [], timer, handler => timer = ⟨0, 0⟩ ∧ handler = .prior
  | b :: rest, timer, handler =>
    timer = ⟨if b.fired then 0 else b.entered + b.seconds - now, 0⟩ ∧
      handler = .expired b.number ∧ (b.fired = false → now < b.entered + b.seconds) ∧
      (∀ c ∈ rest, c.number < b.number) ∧ Tracked now rest b.prior_timer b.prior_handler

structure Invariant (p : Process) : Prop where
  tracked : Tracked p.now p.blocks p.timer p.handler
  numbers : ∀ b ∈ p.blocks, b.number < p.opened

/-- Blocks whose alarms are over do not look at the time. -/
theorem tracked_of_fired {now : ℚ} (later : ℚ) {blocks : List Block} :
    ∀ {timer : Itimer} {handler : Handler}, (∀ b ∈ blocks, b.fired = true) →
      Tracked now blocks timer handler → Tracked later blocks timer handler := by
  induction blocks with
  | nil => exact fun _ h => h
  | cons b rest ih =>
      intro timer handler hfired h
      rw [List.forall_mem_cons] at hfired
      obtain ⟨htimer, hhandler, -, hnumbers, hrest⟩ := h
      refine ⟨?_, hhandler, fun hnot => ?_, hnumbers, ih hfired.2 hrest⟩
      · rw [htimer, if_pos hfired.1, if_pos hfired.1]
      · rw [hfired.1] at hnot
        cases hnot

/-- The handler of one block leaves the blocks around it alone. -/
theorem map_called_of_lt {number : ℕ} {rest : List Block}
    (h : ∀ c ∈ rest, c.number < number) : rest.map (Block.called (.expired number)) = rest := by
  refine (List.map_congr_left fun c hc => ?_).trans (List.map_id rest)
  have hlt := h c hc
  unfold Block.called
  rw [if_neg]
  · rfl
  · intro heq
    injection heq with heq
    omega

theorem Invariant.start (now : ℚ) : Invariant (.start now) :=
  ⟨⟨rfl, rfl⟩, by simp [Process.start]⟩

theorem Invariant.enter {p p' : Process} {seconds : ℚ} (h : Invariant p)
    (hstep : p.step (.enter seconds) = some p') : Invariant p' := by
  unfold Process.step Process.enter at hstep
  dsimp only at hstep
  -- no block is entered without a positive time
  by_cases hpos : seconds ≤ 0
  · rw [if_pos hpos] at hstep
    simp [Except.toOption] at hstep
  · rw [if_neg hpos] at hstep
    simp only [Except.toOption, Option.some.injEq] at hstep
    subst hstep
    refine ⟨⟨?_, rfl, fun _ => ?_, h.numbers, h.tracked⟩, ?_⟩
    · simp
    · show p.now < p.now + seconds
      linarith
    · rw [List.forall_mem_cons]
      refine ⟨Nat.lt_succ_self _, fun b hb => ?_⟩
      have hlt := h.numbers b hb
      show b.number < p.opened + 1
      omega

theorem Invariant.leave {p p' : Process} (h : Invariant p) (hstep : p.step .leave = some p') :
    Invariant p' := by
  obtain ⟨htracked, hnumbers⟩ := h
  unfold Process.step Process.leave at hstep
  dsimp only at hstep
  rcases hblocks : p.blocks with _ | ⟨b, rest⟩
  · rw [hblocks] at hstep
    simp at hstep
  · rw [hblocks] at hstep htracked hnumbers
    simp only [Option.some.injEq] at hstep
    subst hstep
    rw [List.forall_mem_cons] at hnumbers
    obtain ⟨-, -, -, -, hrest⟩ := htracked
    exact ⟨hrest, hnumbers.2⟩

theorem Invariant.pass {p p' : Process} {elapsed : ℚ} (h : Invariant p)
    (hshadow : ∀ b ∈ p.blocks.tail, b.fired = true)
    (hstep : p.step (.pass elapsed) = some p') : Invariant p' := by
  obtain ⟨htracked, hnumbers⟩ := h
  unfold Process.step Process.pass at hstep
  dsimp only at hstep
  by_cases hpos : elapsed ≤ 0
  · rw [if_pos hpos] at hstep
    simp at hstep
  rw [if_neg hpos] at hstep
  rcases hblocks : p.blocks with _ | ⟨b, rest⟩
  · rw [hblocks] at htracked
    have hoff : p.timer.value = 0 := by rw [htracked.1]
    rw [if_pos hoff, Option.some.injEq] at hstep
    subst hstep
    refine ⟨?_, hnumbers⟩
    show Tracked _ p.blocks p.timer p.handler
    rw [hblocks]
    exact htracked
  · rw [hblocks] at htracked hshadow
    obtain ⟨htimer, hhandler, hopen, hbelow, hrest⟩ := htracked
    have hrest' := tracked_of_fired (p.now + elapsed) hshadow hrest
    by_cases hfired : b.fired = true
    · -- the timer is off
      have hoff : p.timer.value = 0 := by rw [htimer, if_pos hfired]
      rw [if_pos hoff, Option.some.injEq] at hstep
      subst hstep
      refine ⟨?_, hnumbers⟩
      show Tracked _ p.blocks p.timer p.handler
      rw [hblocks]
      refine ⟨?_, hhandler, fun hnot => ?_, hbelow, hrest'⟩
      · rw [htimer, if_pos hfired, if_pos hfired]
      · rw [hfired] at hnot
        cases hnot
    · have hopen' := hopen (by simpa using hfired)
      have hvalue : p.timer.value = b.entered + b.seconds - p.now := by
        rw [htimer, if_neg hfired]
      have hinterval : p.timer.interval = 0 := by rw [htimer]
      rw [if_neg (by rw [hvalue]; linarith)] at hstep
      by_cases hless : elapsed < p.timer.value
      · rw [if_pos hless, Option.some.injEq] at hstep
        subst hstep
        refine ⟨?_, hnumbers⟩
        show Tracked _ p.blocks _ p.handler
        rw [hblocks]
        refine ⟨?_, hhandler, fun _ => ?_, hbelow, hrest'⟩
        · show (⟨p.timer.value - elapsed, p.timer.interval⟩ : Itimer) = _
          rw [if_neg hfired, hinterval, hvalue, Itimer.mk.injEq]
          exact ⟨by ring, rfl⟩
        · rw [hvalue] at hless
          show p.now + elapsed < b.entered + b.seconds
          linarith
      · rw [if_neg hless] at hstep
        by_cases hdue : elapsed = p.timer.value
        · -- the alarm: the handler in place is the innermost block's
          rw [if_pos hdue, Option.some.injEq] at hstep
          subst hstep
          have hblocks' : p.blocks.map (Block.called p.handler) = { b with fired := true } :: rest
              := by
            rw [hblocks, hhandler, List.map_cons, map_called_of_lt hbelow]
            unfold Block.called
            rw [if_pos rfl]
          constructor
          · show Tracked _ (p.blocks.map (Block.called p.handler)) ⟨p.timer.interval, _⟩ p.handler
            rw [hblocks', hinterval]
            refine ⟨by simp, hhandler, fun hnot => ?_, hbelow, hrest'⟩
            cases hnot
          · show ∀ c ∈ p.blocks.map (Block.called p.handler), c.number < p.opened
            rw [hblocks', List.forall_mem_cons]
            rw [hblocks, List.forall_mem_cons] at hnumbers
            exact hnumbers
        · rw [if_neg hdue] at hstep
          simp at hstep

theorem Reached.invariant {p : Process} (h : Reached p) : Invariant p := by
  induction h with
  | start now => exact .start now
  | @step p p' a _ ha hstep ih =>
      cases a with
      | enter seconds => exact ih.enter hstep
      | pass elapsed => exact ih.pass ha hstep
      | leave => exact ih.leave hstep

/-- No block is past its limit with its alarm still to come. -/
theorem Tracked.within {now : ℚ} {blocks : List Block} : ∀ {timer : Itimer} {handler : Handler},
    Tracked now blocks timer handler → ∀ b ∈ blocks, b.fired = false →
      now ≤ b.entered + b.seconds := by
  induction blocks with
  | nil => simp
  | cons b rest ih =>
      rintro timer handler ⟨-, -, hopen, -, hrest⟩
      rw [List.forall_mem_cons]
      exact ⟨fun hnot => le_of_lt (hopen hnot), ih hrest⟩

theorem Reached.onTime {p : Process} (h : Reached p) : OnTime p := by
  have htracked := h.invariant.tracked
  refine ⟨htracked.within, fun b rest hblocks hnot => ?_⟩
  rw [hblocks] at htracked
  obtain ⟨htimer, -⟩ := htracked
  rw [htimer, if_neg (by simp [hnot])]

/-! ## Time that is not counted -/

/-- What the block inside of `c` has saved is what `c` had left. -/
theorem Tracked.saved {now : ℚ} {c : Block} {rest : List Block} (hc : c.fired = false) :
    ∀ {pre : List Block} {timer : Itimer} {handler : Handler} (hpre : pre ≠ []),
      Tracked now (pre ++ c :: rest) timer handler →
        (pre.getLast hpre).prior_timer.value = c.entered + c.seconds - now := by
  intro pre
  induction pre with
  | nil => exact fun hpre _ => absurd rfl hpre
  | cons b pre ih =>
      rintro timer handler hpre ⟨-, -, -, -, hrest⟩
      -- the last one that is left puts back the timer it found
      by_cases hnil : pre = []
      · subst hnil
        obtain ⟨htimer, -⟩ := hrest
        rw [List.getLast_singleton, htimer, if_neg (by simp [hc])]
      · rw [List.getLast_cons hnil]
        exact ih hnil hrest

/-- Leaving all blocks inside of `c`: the timer has what the last of them saved. -/
theorem run_leave {c : Block} {rest : List Block} : ∀ {pre : List Block} (hpre : pre ≠ [])
    {p : Process}, p.blocks = pre ++ c :: rest →
      ∃ p', p.run (List.replicate pre.length .leave) = some p' ∧ p'.now = p.now ∧
        p'.blocks = c :: rest ∧ p'.timer = (pre.getLast hpre).prior_timer := by
  intro pre
  induction pre with
  | nil => exact fun hpre => absurd rfl hpre
  | cons b pre ih =>
      intro hpre p hblocks
      have hleave : p.step .leave = some { p with
          timer := b.prior_timer, handler := b.prior_handler, blocks := pre ++ c :: rest } := by
        unfold Process.step Process.leave
        dsimp only
        rw [hblocks]
        rfl
      rw [List.length_cons, List.replicate_succ, Process.run, hleave, Option.bind_some]
      by_cases hnil : pre = []
      · subst hnil
        exact ⟨_, rfl, rfl, rfl, rfl⟩
      · obtain ⟨p', hrun, hnow, hrest, htimer⟩ := @ih hnil { p with
          timer := b.prior_timer, handler := b.prior_handler, blocks := pre ++ c :: rest } rfl
        refine ⟨p', hrun, hnow, hrest, ?_⟩
        rw [htimer, List.getLast_cons hnil]

/-- Time passes: the blocks are the same up to the calls of their handlers. -/
theorem pass_blocks {p p' : Process} {elapsed : ℚ} (h : p.step (.pass elapsed) = some p') :
    0 < elapsed ∧ p'.now = p.now + elapsed ∧
      (p'.blocks = p.blocks ∨ p'.blocks = p.blocks.map (Block.called p.handler)) := by
  unfold Process.step Process.pass at h
  dsimp only at h
  split_ifs at h with h1 h2 h3 h4 <;> rw [Option.some.injEq] at h <;> subst h
  · exact ⟨not_le.mp h1, rfl, .inl rfl⟩
  · exact ⟨not_le.mp h1, rfl, .inl rfl⟩
  · exact ⟨not_le.mp h1, rfl, .inr rfl⟩

@[simp] theorem Block.called_prior_timer (handler : Handler) (b : Block) :
    (b.called handler).prior_timer = b.prior_timer := by
  unfold Block.called
  split_ifs
  · rfl
  · rfl

/-- Time that passes inside leaves the saved time of a block around as it was. -/
theorem pass_saved {p p' : Process} {elapsed : ℚ} (h : Invariant p)
    (hpass : p.step (.pass elapsed) = some p') {b c : Block} {pre rest : List Block}
    (hblocks : p.blocks = (b :: pre) ++ c :: rest) :
    ∃ (pre' rest' : List Block) (hpre' : pre' ≠ []), p'.blocks = pre' ++ c :: rest' ∧
      (pre'.getLast hpre').prior_timer =
        ((b :: pre).getLast (List.cons_ne_nil b pre)).prior_timer := by
  obtain ⟨-, -, hsame | hcalled⟩ := pass_blocks hpass
  · exact ⟨b :: pre, rest, List.cons_ne_nil b pre, hsame.trans hblocks, rfl⟩
  · have htracked := h.tracked
    rw [hblocks] at htracked
    obtain ⟨-, hhandler, -, hbelow, -⟩ := htracked
    -- the handler is the innermost block's, so `c` is not called
    have hc : c.called p.handler = c := by
      have hlt : c.number < b.number := hbelow c (by simp)
      unfold Block.called
      rw [hhandler, if_neg]
      intro heq
      injection heq with heq
      omega
    refine ⟨(b :: pre).map (Block.called p.handler), rest.map (Block.called p.handler), by simp,
      ?_, ?_⟩
    · rw [hcalled, hblocks, List.map_append]
      simp only [List.map_cons, hc]
    · rw [List.getLast_map, Block.called_prior_timer]

/-- **What it takes.** In a run in which no time passes in a block while the alarm of
one around it is still to come, every state is on time. And the first time that
passes otherwise shows, at the latest when the blocks inside have been left. -/
theorem deadlines_kept (p : Process) :
    (Reached p → OnTime p) ∧
    (∀ p' elapsed, Reached p → p.step (.pass elapsed) = some p' →
      ¬ Unshadowed p (.pass elapsed) →
        ∃ n p'', p'.run (List.replicate n .leave) = some p'' ∧ ¬ OnTime p'') := by
  refine ⟨fun h => h.onTime, fun p' elapsed h hpass hshadow => ?_⟩
  have hopen : ∃ c ∈ p.blocks.tail, c.fired = false := by
    by_contra hnone
    refine hshadow fun c hc => ?_
    by_contra hnot
    exact hnone ⟨c, hc, by simpa using hnot⟩
  obtain ⟨c, hmem, hc⟩ := hopen
  rcases hblocks : p.blocks with _ | ⟨b, tail⟩
  · rw [hblocks] at hmem
    simp at hmem
  rw [hblocks, List.tail_cons] at hmem
  obtain ⟨pre, rest, rfl⟩ := List.append_of_mem hmem
  have htracked := h.invariant.tracked
  rw [hblocks] at htracked
  have hsaved := Tracked.saved hc (List.cons_ne_nil b pre) htracked
  obtain ⟨pre', rest', hpre', hblocks', hkept⟩ := pass_saved h.invariant hpass hblocks
  obtain ⟨p'', hrun, hnow, hrest, htimer⟩ := run_leave hpre' hblocks'
  obtain ⟨hpos, hlater, -⟩ := pass_blocks hpass
  refine ⟨pre'.length, p'', hrun, fun honTime => ?_⟩
  -- `c` still has what it had before the time passed
  have hcounting := honTime.counting c rest' hrest hc
  rw [htimer, hkept, hsaved, hnow, hlater] at hcounting
  linarith

/-- 10 seconds from 0 on, and 20 inside, entered at 1: the clock is at 16. -/
def held : Process where
  now := 16
  timer := ⟨5, 0⟩
  handler := .expired 1
  blocks := [⟨1, 1, 20, .expired 0, ⟨9, 0⟩, false⟩, ⟨0, 0, 10, .prior, ⟨0, 0⟩, false⟩]
  opened := 2

/-- 10 seconds from 0 on, with 3 seconds spent in a block of 5 that was entered at 1. -/
def extended (now left : ℚ) : Process where
  now := now
  timer := ⟨left, 0⟩
  handler := .expired 0
  blocks := [⟨0, 0, 10, .prior, ⟨0, 0⟩, false⟩]
  opened := 2

/-- **An inner block holds the clock.** The first run is in its inner block at 16 and
the outer alarm has not come. The second has left it, has 9 seconds left at 4, and at
12 it goes on. -/
theorem inner_block_holds_the_clock :
    ((Process.start 0).run [.enter 10, .pass 1, .enter 20, .pass 15] = some held ∧
      ¬ OnTime held) ∧
    ((Process.start 0).run [.enter 10, .pass 1, .enter 5, .pass 3, .leave] =
        some (extended 4 9) ∧ ¬ OnTime (extended 4 9) ∧
      (extended 4 9).run [.pass 8] = some (extended 12 1) ∧ ¬ OnTime (extended 12 1)) := by
  refine ⟨⟨by decide +kernel, fun h => ?_⟩, by decide +kernel, fun h => ?_, by decide +kernel,
    fun h => ?_⟩
  · have houter := h.within ⟨0, 0, 10, .prior, ⟨0, 0⟩, false⟩ (by simp [held]) rfl
    norm_num [held] at houter
  · have houter := h.counting _ _ rfl rfl
    norm_num [extended] at houter
  · have houter := h.within ⟨0, 0, 10, .prior, ⟨0, 0⟩, false⟩ (by simp [extended]) rfl
    norm_num [extended] at houter

end Ptlab.Deadline
