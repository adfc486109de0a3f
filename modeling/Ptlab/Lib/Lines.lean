/-
The lines of a text that was read in text mode.

Reading turns both a carriage return and one with a line feed behind it into a line
feed; `split` then cuts at every symbol that is a line boundary, and a last line
without one counts if it is not empty. A text that was written line by line is read
back line by line (`readLines_flatMap`), whatever its lines hold.
-/
import Mathlib.Data.List.DropRight

set_option autoImplicit false

namespace Lines

variable {α : Type*} [DecidableEq α]

section Reading

variable (cr lf : α) (isBreak : α → Bool)

/-- The text as it is read; `afterReturn` is whether a carriage return came last. -/
def universal (afterReturn : Bool) : List α → List α
  | [] => []
  | c :: t =>
    if c = cr then lf :: universal true t
    else if c = lf ∧ afterReturn then universal false t
    else c :: universal false t

/-- The lines of a text that goes on from `line`. -/
def split (line : List α) : List α → List (List α)
  | [] => if line = [] then [] else [line]
  | c :: t => if isBreak c then line :: split [] t else split (line ++ [c]) t

/-- Both. -/
def readLines (afterReturn : Bool) (line text : List α) : List (List α) :=
  split isBreak line (universal cr lf afterReturn text)

variable {cr lf isBreak}

/-- What stands behind a line feed is read as a text of its own. -/
theorem universal_append (hne : cr ≠ lf) (b a : List α) : ∀ afterReturn,
    universal cr lf afterReturn (a ++ lf :: b) =
      universal cr lf afterReturn (a ++ [lf]) ++ universal cr lf false b := by
  induction a with
  | nil =>
      intro afterReturn
      simp only [List.nil_append, universal, if_neg hne.symm, true_and]
      split_ifs
      · rfl
      · rfl
  | cons c a ih =>
      intro afterReturn
      simp only [List.cons_append, universal]
      split_ifs
      · rw [ih, List.cons_append]
      · exact ih false
      · rw [ih, List.cons_append]

/-- A symbol that ends no line stays, and so do all in a row. -/
theorem universal_cons {c : α} (hcr : c ≠ cr) (hlf : c ≠ lf) (afterReturn : Bool) (t : List α) :
    universal cr lf afterReturn (c :: t) = c :: universal cr lf false t := by
  rw [universal, if_neg hcr, if_neg fun h => hlf h.1]

theorem universal_plain {a : List α} (ha : ∀ c ∈ a, c ≠ cr ∧ c ≠ lf) (t : List α) :
    universal cr lf false (a ++ t) = a ++ universal cr lf false t := by
  induction a with
  | nil => rfl
  | cons c a ih =>
      rw [List.forall_mem_cons] at ha
      rw [List.cons_append, universal_cons ha.1.1 ha.1.2, ih ha.2, List.cons_append]

/-- Nothing is read but the text's own symbols and line feeds, and of those that end no line
each one is. -/
theorem mem_universal {c : α} (text : List α) : ∀ afterReturn,
    c ∈ universal cr lf afterReturn text → c ∈ text ∨ c = lf := by
  induction text with
  | nil => exact fun _ h => absurd h List.not_mem_nil
  | cons d text ih =>
      intro afterReturn h
      unfold universal at h
      split_ifs at h
      · rcases List.mem_cons.mp h with rfl | h
        · exact .inr rfl
        · exact (ih true h).imp (List.mem_cons_of_mem _) id
      · exact (ih false h).imp (List.mem_cons_of_mem _) id
      · rcases List.mem_cons.mp h with rfl | h
        · exact .inl (List.mem_cons_self ..)
        · exact (ih false h).imp (List.mem_cons_of_mem _) id

theorem mem_universal_of_mem {c : α} (hcr : c ≠ cr) (hlf : c ≠ lf) (text : List α) :
    ∀ afterReturn, c ∈ text → c ∈ universal cr lf afterReturn text := by
  induction text with
  | nil => exact fun _ h => absurd h List.not_mem_nil
  | cons d text ih =>
      intro afterReturn h
      rcases List.mem_cons.mp h with rfl | h
      · rw [universal_cons hcr hlf]
        exact List.mem_cons_self ..
      · unfold universal
        split_ifs
        · exact List.mem_cons_of_mem _ (ih true h)
        · exact ih false h
        · exact List.mem_cons_of_mem _ (ih false h)

theorem return_not_mem_universal (hne : cr ≠ lf) (text : List α) : ∀ afterReturn,
    cr ∉ universal cr lf afterReturn text := by
  induction text with
  | nil => exact fun _ => List.not_mem_nil
  | cons c text ih =>
      intro afterReturn
      unfold universal
      split_ifs with hc
      · exact List.not_mem_cons_of_ne_of_not_mem hne (ih true)
      · exact ih false
      · exact List.not_mem_cons_of_ne_of_not_mem (Ne.symm hc) (ih false)

/-- A text is read as it is if there is no carriage return in it. -/
theorem universal_eq_self (hne : cr ≠ lf) {text : List α} :
    universal cr lf false text = text ↔ cr ∉ text := by
  constructor
  · intro h
    rw [← h]
    exact return_not_mem_universal hne text false
  · intro h
    induction text with
    | nil => rfl
    | cons c text ih =>
        rw [List.mem_cons, not_or] at h
        rw [universal, if_neg (Ne.symm h.1), if_neg fun hc => Bool.false_ne_true hc.2, ih h.2]

/-- Lines that were written are read without regard to what comes after them. -/
theorem universal_flatMap (hne : cr ≠ lf) (rest : List α) (texts : List (List α)) :
    universal cr lf false (texts.flatMap (· ++ [lf]) ++ rest) =
      universal cr lf false (texts.flatMap (· ++ [lf])) ++ universal cr lf false rest := by
  induction texts with
  | nil => rfl
  | cons text texts ih =>
      have hall := universal_append hne (texts.flatMap (· ++ [lf]) ++ rest) text false
      have hthese := universal_append hne (texts.flatMap (· ++ [lf])) text false
      rw [List.flatMap_cons, List.append_assoc, List.append_assoc, List.singleton_append, hall, ih,
        List.append_assoc, List.singleton_append, hthese, List.append_assoc]

/-- **So are its lines.** Behind a carriage return no line has begun. -/
theorem readLines_append (hne : cr ≠ lf) (hlf : isBreak lf = true) (b a : List α) :
    ∀ afterReturn line, (afterReturn = true → line = []) →
    readLines cr lf isBreak afterReturn line (a ++ lf :: b) =
      readLines cr lf isBreak afterReturn line (a ++ [lf]) ++
        readLines cr lf isBreak false [] b := by
  unfold readLines
  induction a with
  | nil =>
      intro afterReturn line hline
      simp only [List.nil_append, universal, if_neg hne.symm, true_and]
      split_ifs with hafter
      · -- the line feed of a pair adds nothing, and the line before it has been ended
        rw [hline hafter]
        rfl
      · simp only [split, hlf, if_true]
        rfl
  | cons c a ih =>
      intro afterReturn line hline
      simp only [List.cons_append, universal]
      split_ifs with hcr hc
      · -- a carriage return ends the line, and is remembered
        simp only [split, hlf, if_true, List.cons_append]
        rw [ih true [] fun _ => rfl]
      · exact ih false line fun h => absurd h (by decide)
      · simp only [split]
        split_ifs
        · rw [ih false [] fun _ => rfl, List.cons_append]
        · exact ih false _ fun h => absurd h (by decide)

/-- **Written and read.** -/
theorem readLines_flatMap (hne : cr ≠ lf) (hlf : isBreak lf = true) (texts : List (List α)) :
    readLines cr lf isBreak false [] (texts.flatMap (· ++ [lf])) =
      texts.flatMap fun text => readLines cr lf isBreak false [] (text ++ [lf]) := by
  induction texts with
  | nil => rfl
  | cons text texts ih =>
      rw [List.flatMap_cons, List.flatMap_cons, List.append_assoc, List.singleton_append,
        readLines_append hne hlf _ text false [] fun h => absurd h (by decide), ih]

omit [DecidableEq α] in
/-- A line begins with what it goes on from. -/
theorem split_line (text : List α) : ∀ line : List α, line ≠ [] →
    ∃ more lines, split isBreak line text = (line ++ more) :: lines := by
  induction text with
  | nil =>
      intro line hline
      exact ⟨[], [], by rw [split, if_neg hline, List.append_nil]⟩
  | cons c text ih =>
      intro line hline
      by_cases hc : isBreak c = true
      · exact ⟨[], _, by rw [split, if_pos hc, List.append_nil]⟩
      · obtain ⟨more, lines, hsplit⟩ := ih (line ++ [c]) (List.append_ne_nil_of_left_ne_nil hline _)
        refine ⟨c :: more, lines, ?_⟩
        rw [split, if_neg hc, hsplit, List.append_assoc, List.singleton_append]

omit [DecidableEq α] in
/-- No line holds a boundary. -/
theorem split_plain (text : List α) : ∀ start : List α, (∀ c ∈ start, isBreak c = false) →
    ∀ line ∈ split isBreak start text, ∀ c ∈ line, isBreak c = false := by
  induction text with
  | nil =>
      intro start hstart line hline
      unfold split at hline
      split_ifs at hline
      · exact absurd hline List.not_mem_nil
      · rw [List.mem_singleton.mp hline]
        exact hstart
  | cons c text ih =>
      intro start hstart line hline
      unfold split at hline
      -- a break ends the line, anything else is added to it
      by_cases hc : isBreak c = true
      · rw [if_pos hc] at hline
        rcases List.mem_cons.mp hline with rfl | hline
        · exact hstart
        · exact ih [] (by simp) line hline
      · rw [if_neg hc] at hline
        refine ih (start ++ [c]) ?_ line hline
        intro d hd
        rcases List.mem_append.mp hd with hd | hd
        · exact hstart d hd
        · rw [List.mem_singleton.mp hd]
          exact Bool.eq_false_iff.mpr hc

variable (hcr : isBreak cr = true)
include hcr

/-- Symbols that are no boundary are read one by one. -/
theorem readLines_plain {text : List α} (htext : ∀ c ∈ text, isBreak c = false) (rest : List α) :
    ∀ line, readLines cr lf isBreak false line (text ++ rest) =
      readLines cr lf isBreak false (line ++ text) rest := by
  induction text with
  | nil => intro line; rw [List.nil_append, List.append_nil]
  | cons c text ih =>
      intro line
      rw [List.forall_mem_cons] at htext
      have hne : c ≠ cr := by
        rintro rfl
        rw [hcr] at htext
        cases htext.1
      have hstep : readLines cr lf isBreak false line (c :: (text ++ rest)) =
          readLines cr lf isBreak false (line ++ [c]) (text ++ rest) := by
        simp only [readLines, universal, if_neg hne, Bool.false_eq_true, and_false, if_false,
          split, htext.1]
      rw [List.cons_append, hstep, ih htext.2, List.append_assoc, List.singleton_append]

/-- **One line.** -/
theorem readLines_single (hne : cr ≠ lf) (hlf : isBreak lf = true) {text : List α}
    (htext : ∀ c ∈ text, isBreak c = false) :
    readLines cr lf isBreak false [] (text ++ [lf]) = [text] := by
  rw [readLines_plain hcr htext, List.nil_append]
  simp only [readLines, universal, if_neg hne.symm, Bool.false_eq_true, and_false, if_false, split,
    hlf, if_true]

/-- The first line of a text that begins with no boundary. -/
theorem readLines_first {start : List α} (hstart : ∀ c ∈ start, isBreak c = false)
    (hne : start ≠ []) (rest : List α) :
    ∃ more lines, readLines cr lf isBreak false [] (start ++ rest) = (start ++ more) :: lines := by
  rw [readLines_plain hcr hstart, List.nil_append]
  exact split_line _ start hne

end Reading

/-! ## Stripping -/

/-- Stripping at the end stops at a symbol that stays. -/
theorem rdropWhile_append_of_last {β : Type*} {p : β → Bool} {start : List β} {last : β}
    (hlast : p last = false) (rest : List β) :
    (start ++ [last] ++ rest).rdropWhile p = start ++ [last] ++ rest.rdropWhile p := by
  induction rest using List.reverseRecOn with
  | nil => rw [List.append_nil, List.rdropWhile_nil, List.append_nil,
      List.rdropWhile_concat_neg _ _ _ (by rw [hlast]; exact Bool.false_ne_true)]
  | append_singleton rest c ih =>
      rw [← List.append_assoc, List.rdropWhile_concat, List.rdropWhile_concat]
      split_ifs
      · exact ih
      · rw [List.append_assoc (start ++ [last])]

end Lines
