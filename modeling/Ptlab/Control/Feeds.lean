/-
A `LineParser` (`src/ptlab/control.py`) over any number of `feed` calls.

The specification is the stream split at its newlines: the terminated lines and
what stands behind the last newline. `feed_cases` says once what a call can do
with the bytes before it: return, refuse a line that is not UTF-8, or refuse one
over the limit. Three results about whole sessions follow from it by induction on
the chunks: what is returned and when something is raised (`feeds_spec`), what a
refused line costs the lines around it (`bad_line_costs_itself_iff`), and what
the buffer may come to hold (`buffer_bounded_iff`).
-/
import Ptlab.Control.Line

set_option autoImplicit false

open Deframe

namespace Ptlab.Control

/-! ## The lines of a stream -/

/-- The lines of a stream that end in a newline. -/
def terminated (stream : List UInt8) : List (List UInt8) := (stream.splitOn NEWLINE).dropLast

/-- What stands behind the last newline. -/
def unterminated (stream : List UInt8) : List UInt8 := (stream.splitOn NEWLINE).getLastD []

/-- Lines, each with its newline. -/
def joinLines (raws : List (List UInt8)) : List UInt8 := raws.flatMap fun raw => raw ++ [NEWLINE]

/-- The texts of those lines that have one, without the empty ones. -/
def texts (raws : List (List UInt8)) : List String := (raws.filterMap lineText).filter (· ≠ "")

@[simp] theorem joinLines_cons (raw : List UInt8) (raws : List (List UInt8)) :
    joinLines (raw :: raws) = raw ++ NEWLINE :: joinLines raws := by
  unfold joinLines
  rw [List.flatMap_cons, List.append_assoc, List.singleton_append]

theorem texts_append (raws raws' : List (List UInt8)) :
    texts (raws ++ raws') = texts raws ++ texts raws' := by
  unfold texts
  rw [List.filterMap_append, List.filter_append]

theorem terminated_line {raw : List UInt8} (h : NEWLINE ∉ raw) (t : List UInt8) :
    terminated (raw ++ NEWLINE :: t) = raw :: terminated t := by
  unfold terminated
  rw [List.splitOn_append_cons_self_of_not_mem h,
    List.dropLast_cons_of_ne_nil (List.splitOn_ne_nil NEWLINE t)]

theorem unterminated_line {raw : List UInt8} (h : NEWLINE ∉ raw) (t : List UInt8) :
    unterminated (raw ++ NEWLINE :: t) = unterminated t := by
  unfold unterminated
  rw [List.splitOn_append_cons_self_of_not_mem h]
  obtain ⟨first, rest, hsplit⟩ := List.exists_cons_of_ne_nil (List.splitOn_ne_nil NEWLINE t)
  rw [hsplit]
  rfl

theorem terminated_open {b : List UInt8} (h : NEWLINE ∉ b) : terminated b = [] := by
  unfold terminated
  rw [List.splitOn_eq_singleton h]
  rfl

theorem unterminated_open {b : List UInt8} (h : NEWLINE ∉ b) : unterminated b = b := by
  unfold unterminated
  rw [List.splitOn_eq_singleton h]
  rfl

/-- Induction along the lines of a stream. -/
theorem line_induction {motive : List UInt8 → Prop} (last : ∀ b, NEWLINE ∉ b → motive b)
    (line : ∀ raw t, NEWLINE ∉ raw → motive t → motive (raw ++ NEWLINE :: t)) :
    ∀ b, motive b := by
  intro b
  induction hlen : b.length using Nat.strong_induction_on generalizing b with
  | _ len ih =>
      rcases findNewline_cases b with ⟨-, hb⟩ | ⟨raw, t, rfl, hraw, -⟩
      · exact last b hb
      · refine line raw t hraw (ih _ ?_ t rfl)
        rw [← hlen, List.length_append, List.length_cons]
        omega

/-- A stream is its terminated lines and what stands behind them. -/
theorem joinLines_terminated (b : List UInt8) : joinLines (terminated b) ++ unterminated b = b := by
  induction b using line_induction with
  | last b h => rw [terminated_open h, unterminated_open h]; rfl
  | line raw t h ih =>
      rw [terminated_line h, unterminated_line h, joinLines_cons, List.append_assoc,
        List.cons_append, ih]

theorem not_mem_terminated (b : List UInt8) : ∀ raw ∈ terminated b, NEWLINE ∉ raw := by
  induction b using line_induction with
  | last b h => rw [terminated_open h]; intro raw hraw; cases hraw
  | line raw t h ih => rw [terminated_line h]; exact List.forall_mem_cons.mpr ⟨h, ih⟩

theorem not_mem_unterminated (b : List UInt8) : NEWLINE ∉ unterminated b := by
  induction b using line_induction with
  | last b h => rw [unterminated_open h]; exact h
  | line raw t h ih => rw [unterminated_line h]; exact ih

/-- Whole lines in front of a stream come off first. -/
theorem terminated_joinLines {raws : List (List UInt8)} (h : ∀ raw ∈ raws, NEWLINE ∉ raw)
    (b : List UInt8) : terminated (joinLines raws ++ b) = raws ++ terminated b ∧
      unterminated (joinLines raws ++ b) = unterminated b := by
  induction raws with
  | nil => exact ⟨rfl, rfl⟩
  | cons raw raws ih =>
      rw [List.forall_mem_cons] at h
      rw [joinLines_cons, List.append_assoc, List.cons_append, terminated_line h.1,
        unterminated_line h.1, (ih h.2).1, (ih h.2).2]
      exact ⟨rfl, rfl⟩

/-- More bytes go on with what was not terminated. -/
theorem terminated_append (b c : List UInt8) :
    terminated (b ++ c) = terminated b ++ terminated (unterminated b ++ c) ∧
      unterminated (b ++ c) = unterminated (unterminated b ++ c) := by
  conv =>
    congr
    · lhs; rw [← joinLines_terminated b, List.append_assoc]
    · lhs; rw [← joinLines_terminated b, List.append_assoc]
  exact terminated_joinLines (not_mem_terminated b) _

/-! ## One call -/

/-- Within the limit, and UTF-8. -/
def Fine (m : ℕ) (raw : List UInt8) : Prop := raw.length ≤ m ∧ lineText raw ≠ none

/-- Whole lines within the limit come off, and the rest is looked at. -/
theorem drain_joinLines {m : ℕ} {raws : List (List UInt8)} (hnew : ∀ raw ∈ raws, NEWLINE ∉ raw)
    (hlen : ∀ raw ∈ raws, raw.length ≤ m) (b : List UInt8) :
    drain (lineFormat m) (joinLines raws ++ b) = (drain (lineFormat m) b).prepend raws :=
  (lineCodec m).drain_encode raws (fun raw hraw => ⟨hnew raw hraw, hlen raw hraw⟩) b

theorem readLines_fine {raws : List (List UInt8)} (h : ∀ raw ∈ raws, lineText raw ≠ none)
    (rest : List (List UInt8)) :
    readLines (raws ++ rest) = (texts raws ++ (readLines rest).1, (readLines rest).2) := by
  induction raws with
  | nil => rfl
  | cons raw raws ih =>
      rw [List.forall_mem_cons] at h
      obtain ⟨text, htext⟩ := Option.ne_none_iff_exists'.mp h.1
      rw [List.cons_append, readLines_line htext, ih h.2]
      unfold texts
      rw [List.filterMap_cons_some htext]
      by_cases hempty : text = ""
      · simp [hempty]
      · simp [hempty]

/-- A list has a property throughout, or up to a first entry without it. -/
theorem forall_or_first {α : Type} (p : α → Prop) (xs : List α) : (∀ x ∈ xs, p x) ∨
    ∃ done x behind, xs = done ++ x :: behind ∧ (∀ y ∈ done, p y) ∧ ¬ p x := by
  induction xs with
  | nil => exact .inl fun x hx => by cases hx
  | cons x xs ih =>
      by_cases hx : p x
      · rcases ih with hall | ⟨done, y, behind, rfl, hdone, hy⟩
        · exact .inl (List.forall_mem_cons.mpr ⟨hx, hall⟩)
        · exact .inr ⟨x :: done, y, behind, rfl, List.forall_mem_cons.mpr ⟨hx, hdone⟩, hy⟩
      · exact .inr ⟨[], x, xs, rfl, fun y hy => absurd hy List.not_mem_nil, hx⟩

/-- What a call comes to with these bytes before it: its result and the buffer it
leaves. -/
inductive Fed (m : ℕ) (b : List UInt8) : Except ControlExc (List String) → List UInt8 → Prop
  | returned (hfine : ∀ raw ∈ terminated b, Fine m raw) (hrest : (unterminated b).length ≤ m) :
      Fed m b (.ok (texts (terminated b))) (unterminated b)
  /-- The first line that is not fine is not UTF-8. The texts in front of it are lost. -/
  | notUtf8 (done : List (List UInt8)) (bad : List UInt8) (behind : List (List UInt8))
      (hsplit : terminated b = done ++ bad :: behind) (hdone : ∀ raw ∈ done, Fine m raw)
      (hlen : bad.length ≤ m) (hbad : lineText bad = none) :
      Fed m b (.error lineNotUtf8) (joinLines behind ++ unterminated b)
  /-- The first line that is not fine is over the limit, terminated or not. -/
  | tooLong (done : List (List UInt8)) (long : List UInt8) (hdone : ∀ raw ∈ done, Fine m raw)
      (hlong : m < long.length)
      (hsplit : (∃ behind, terminated b = done ++ long :: behind) ∨
        (terminated b = done ∧ unterminated b = long)) :
      Fed m b (.error lineTooLong) []

section Feed

variable {p : LineParser} {data : List UInt8}

theorem readLines_all {raws : List (List UInt8)} (h : ∀ raw ∈ raws, lineText raw ≠ none) :
    readLines raws = (texts raws, none) := by
  have hall := readLines_fine h []
  rw [List.append_nil] at hall
  rw [hall, readLines, List.append_nil]

/-- The bytes before a call, with the lines in front cut off. -/
theorem view_of_split {done rest : List (List UInt8)}
    (hsplit : terminated (p.buffer ++ data) = done ++ rest)
    (hdone : ∀ raw ∈ done, raw.length ≤ p.maximum_line) :
    p.view data = (drain (lineFormat p.maximum_line)
      (joinLines rest ++ unterminated (p.buffer ++ data))).prepend done := by
  have hnew := not_mem_terminated (p.buffer ++ data)
  rw [hsplit] at hnew
  rw [← drain_joinLines (fun raw hraw => hnew raw (List.mem_append_left _ hraw)) hdone]
  unfold LineParser.view
  congr 1
  conv_lhs => rw [← joinLines_terminated (p.buffer ++ data), hsplit]
  unfold joinLines
  rw [List.flatMap_append, List.append_assoc]

/-- A call that finds nothing wrong. -/
theorem feed_returned (hfine : ∀ raw ∈ terminated (p.buffer ++ data), Fine p.maximum_line raw)
    (hrest : (unterminated (p.buffer ++ data)).length ≤ p.maximum_line) :
    p.feed data = (.ok (texts (terminated (p.buffer ++ data))),
      { p with buffer := unterminated (p.buffer ++ data) }) := by
  have hlook : (lineFormat p.maximum_line).look (unterminated (p.buffer ++ data)) = .more :=
    (lookLine_open (not_mem_unterminated _)).trans (if_neg (by omega))
  have hview := view_of_split (List.append_nil _).symm fun raw hraw => (hfine raw hraw).1
  rw [joinLines, List.flatMap_nil, List.nil_append, drain_of_more _ hlook] at hview
  rw [feed_eq, hview, Drained.prepend_items, Drained.prepend_error, Drained.prepend_rest,
    List.append_nil, readLines_all fun raw hraw => (hfine raw hraw).2]

/-- A call that comes upon a line that is not UTF-8. -/
theorem feed_notUtf8 {done behind : List (List UInt8)} {bad : List UInt8}
    (hsplit : terminated (p.buffer ++ data) = done ++ bad :: behind)
    (hdone : ∀ raw ∈ done, Fine p.maximum_line raw) (hlen : bad.length ≤ p.maximum_line)
    (hbad : lineText bad = none) : p.feed data = (.error lineNotUtf8,
      { p with buffer := joinLines behind ++ unterminated (p.buffer ++ data) }) := by
  have hlens : ∀ raw ∈ done ++ [bad], raw.length ≤ p.maximum_line := by
    intro raw hraw
    rcases List.mem_append.mp hraw with hraw | hraw
    · exact (hdone raw hraw).1
    · rw [List.mem_singleton.mp hraw]
      exact hlen
  have hsplit' : terminated (p.buffer ++ data) = done ++ [bad] ++ behind := by
    rw [hsplit, List.append_cons]
  have hview := view_of_split hsplit' hlens
  rw [feed_eq, hview, Drained.prepend_items, Drained.prepend_rest, List.append_assoc,
    List.singleton_append, readLines_fine fun raw hraw => (hdone raw hraw).2, readLines_bad hbad]
  dsimp only
  -- what is behind the line stays, whether it would come off or not
  have hbehind := (lineCodec p.maximum_line).encode_drain
    (joinLines behind ++ unterminated (p.buffer ++ data))
  exact congrArg (fun buffer => (Except.error lineNotUtf8, LineParser.mk _ _ buffer)) hbehind

/-- A call that comes upon a line over the limit. -/
theorem feed_tooLong {done : List (List UInt8)} {long : List UInt8}
    (hdone : ∀ raw ∈ done, Fine p.maximum_line raw) (hlong : p.maximum_line < long.length)
    (hsplit : (∃ behind, terminated (p.buffer ++ data) = done ++ long :: behind) ∨
      (terminated (p.buffer ++ data) = done ∧ unterminated (p.buffer ++ data) = long)) :
    p.feed data = (.error lineTooLong, { p with buffer := [] }) := by
  have hnew := not_mem_terminated (p.buffer ++ data)
  obtain ⟨rest, hrest, hlook⟩ : ∃ rest, terminated (p.buffer ++ data) = done ++ rest ∧
      (lineFormat p.maximum_line).look
        (joinLines rest ++ unterminated (p.buffer ++ data)) = .reject () := by
    -- a terminated line that is too long, or too much without a terminator
    rcases hsplit with ⟨behind, hsplit⟩ | ⟨hsplit, hopen⟩
    · refine ⟨long :: behind, hsplit, ?_⟩
      have hmem : long ∈ terminated (p.buffer ++ data) := by rw [hsplit]; simp
      rw [joinLines_cons, List.append_assoc, List.cons_append]
      exact (lookLine_line (hnew long hmem) _).trans (if_pos hlong)
    · refine ⟨[], by rw [hsplit, List.append_nil], ?_⟩
      rw [← hopen] at hlong
      exact (lookLine_open (not_mem_unterminated _)).trans (if_pos hlong)
  rw [feed_eq, view_of_split hrest fun raw hraw => (hdone raw hraw).1, drain_of_reject _ hlook]
  dsimp only [Drained.prepend]
  rw [List.append_nil, readLines_all fun raw hraw => (hdone raw hraw).2]

/-- **One call.** -/
theorem feed_cases (p : LineParser) (data : List UInt8) :
    Fed p.maximum_line (p.buffer ++ data) (p.feed data).1 (p.feed data).2.buffer ∧
      (p.feed data).2.maximum_line = p.maximum_line := by
  -- the first line that is not fine decides, and without one what is left over
  rcases forall_or_first (Fine p.maximum_line) (terminated (p.buffer ++ data)) with
    hfine | ⟨done, x, behind, hsplit, hdone, hx⟩
  · by_cases hrest : (unterminated (p.buffer ++ data)).length ≤ p.maximum_line
    · rw [feed_returned hfine hrest]
      exact ⟨.returned hfine hrest, rfl⟩
    · rw [feed_tooLong hfine (not_le.mp hrest) (.inr ⟨rfl, rfl⟩)]
      exact ⟨.tooLong _ _ hfine (not_le.mp hrest) (.inr ⟨rfl, rfl⟩), rfl⟩
  · by_cases hlen : x.length ≤ p.maximum_line
    · have hbad : lineText x = none := by
        by_contra htext
        exact hx ⟨hlen, htext⟩
      rw [feed_notUtf8 hsplit hdone hlen hbad]
      exact ⟨.notUtf8 _ _ _ hsplit hdone hlen hbad, rfl⟩
    · rw [feed_tooLong hdone (not_le.mp hlen) (.inl ⟨behind, hsplit⟩)]
      exact ⟨.tooLong _ _ hdone (not_le.mp hlen) (.inl ⟨behind, hsplit⟩), rfl⟩

end Feed

/-! ## Any number of calls -/

/-- `feed` on one chunk after another, whatever each call did. -/
def LineParser.feeds (p : LineParser) :
    List (List UInt8) → List (Except ControlExc (List String)) × LineParser
  | [] => ([], p)
  | chunk :: chunks =>
    let (result, p) := p.feed chunk
    let (results, p) := p.feeds chunks
    (result :: results, p)

/-- The lines that a call returned. -/
def returnedBy : Except ControlExc (List String) → List String
  | .ok lines => lines
  | .error _ => []

/-- The lines returned, over all calls. -/
def LineParser.returned (p : LineParser) (chunks : List (List UInt8)) : List String :=
  (p.feeds chunks).1.flatMap returnedBy

theorem feeds_cons (p : LineParser) (chunk : List UInt8) (chunks : List (List UInt8)) :
    p.feeds (chunk :: chunks) = ((p.feed chunk).1 :: ((p.feed chunk).2.feeds chunks).1,
      ((p.feed chunk).2.feeds chunks).2) := rfl

theorem returned_cons (p : LineParser) (chunk : List UInt8) (chunks : List (List UInt8)) :
    p.returned (chunk :: chunks) =
      returnedBy (p.feed chunk).1 ++ (p.feed chunk).2.returned chunks := rfl

/-- There is no newline in the buffer, and no more than a line may have. -/
structure LineParser.Bounded (p : LineParser) : Prop where
  no_newline : NEWLINE ∉ p.buffer
  length_le : p.buffer.length ≤ p.maximum_line

theorem init_bounded {maximum_line : ℤ} {p : LineParser}
    (h : LineParser.init maximum_line = .ok p) :
    p.buffer = [] ∧ (p.maximum_line : ℤ) = maximum_line ∧ p.Bounded := by
  unfold LineParser.init at h
  split_ifs at h
  injection h with h
  subst h
  exact ⟨rfl, Int.toNat_of_nonneg (by omega), ⟨List.not_mem_nil, Nat.zero_le _⟩⟩

/-- Nothing in a stream is wrong. -/
def AllFine (m : ℕ) (b : List UInt8) : Prop :=
  (∀ raw ∈ terminated b, Fine m raw) ∧ (unterminated b).length ≤ m

theorem allFine_append (m : ℕ) (b c : List UInt8) :
    AllFine m (b ++ c) ↔ (∀ raw ∈ terminated b, Fine m raw) ∧ AllFine m (unterminated b ++ c) := by
  unfold AllFine
  rw [(terminated_append b c).1, (terminated_append b c).2, List.forall_mem_append, and_assoc]

/-- An unterminated line only grows. -/
theorem open_grows {b : List UInt8} (hb : NEWLINE ∉ b) (c : List UInt8) :
    b.length ≤ (unterminated (b ++ c)).length ∨
      ∃ raw ∈ terminated (b ++ c), b.length ≤ raw.length := by
  rcases findNewline_cases c with ⟨-, hc⟩ | ⟨raw, t, rfl, hraw, -⟩
  · have hbc : NEWLINE ∉ b ++ c := fun hmem => (List.mem_append.mp hmem).elim hb hc
    rw [unterminated_open hbc, List.length_append]
    exact .inl (Nat.le_add_right ..)
  · have hbraw : NEWLINE ∉ b ++ raw := fun hmem => (List.mem_append.mp hmem).elim hb hraw
    rw [← List.append_assoc, terminated_line hbraw]
    exact .inr ⟨b ++ raw, List.mem_cons_self .., by rw [List.length_append]; omega⟩

/-- What is wrong with the bytes before a call stays wrong. -/
theorem not_allFine_of_fed {m : ℕ} {b rest : List UInt8} {e : ControlExc}
    (h : Fed m b (.error e) rest) (c : List UInt8) : ¬ AllFine m (b ++ c) := by
  rw [allFine_append]
  rintro ⟨hfine, hall⟩
  cases h with
  | notUtf8 done bad behind hsplit hdone hlen hbad =>
      exact (hfine bad (by rw [hsplit]; simp)).2 hbad
  | tooLong done long hdone hlong hsplit =>
      rcases hsplit with ⟨behind, hsplit⟩ | ⟨-, rfl⟩
      · exact absurd (hfine long (by rw [hsplit]; simp)).1 (by omega)
      · rcases open_grows (not_mem_unterminated b) c with hle | ⟨raw, hmem, hle⟩
        · exact absurd hall.2 (by omega)
        · exact absurd (hall.1 raw hmem).1 (by omega)

/-- **The run without an exception.** -/
theorem feeds_fine (chunks : List (List UInt8)) : ∀ p : LineParser, p.Bounded →
    ((∀ e, .error e ∉ (p.feeds chunks).1) ↔
        AllFine p.maximum_line (p.buffer ++ chunks.flatten)) ∧
      (AllFine p.maximum_line (p.buffer ++ chunks.flatten) →
        p.returned chunks = texts (terminated (p.buffer ++ chunks.flatten)) ∧
          (p.feeds chunks).2.buffer = unterminated (p.buffer ++ chunks.flatten)) := by
  induction chunks with
  | nil =>
      intro p hp
      have hfine : AllFine p.maximum_line (p.buffer ++ [].flatten) := by
        rw [List.flatten_nil, List.append_nil]
        unfold AllFine
        rw [terminated_open hp.no_newline, unterminated_open hp.no_newline]
        exact ⟨fun raw hraw => absurd hraw List.not_mem_nil, hp.length_le⟩
      refine ⟨⟨fun _ => hfine, fun _ e he => absurd he List.not_mem_nil⟩, fun _ => ?_⟩
      rw [List.flatten_nil, List.append_nil, terminated_open hp.no_newline,
        unterminated_open hp.no_newline]
      exact ⟨rfl, rfl⟩
  | cons chunk chunks ih =>
      intro p hp
      obtain ⟨hfed, hm⟩ := feed_cases p chunk
      rw [feeds_cons, returned_cons, List.flatten_cons, ← List.append_assoc]
      generalize hbuffer : (p.feed chunk).2.buffer = buffer at hfed
      rcases hresult : (p.feed chunk).1 with e | lines
      · -- what this call refused, the whole stream has
        rw [hresult] at hfed
        have hwrong := not_allFine_of_fed hfed chunks.flatten
        exact ⟨⟨fun hnone => absurd (List.mem_cons_self ..) (hnone e),
          fun hall => absurd hall hwrong⟩, fun hall => absurd hall hwrong⟩
      · rw [hresult] at hfed
        cases hfed with
        | returned hfine hrest =>
            -- the rest of the session goes on with the unterminated line
            have hnext : (p.feed chunk).2.Bounded := by
              refine ⟨?_, ?_⟩
              · rw [hbuffer]; exact not_mem_unterminated _
              · rw [hbuffer, hm]; exact hrest
            have h := ih _ hnext
            rw [hm, hbuffer] at h
            have happend := terminated_append (p.buffer ++ chunk) chunks.flatten
            rw [allFine_append, happend.1, happend.2, texts_append]
            refine ⟨⟨fun hnone => ⟨hfine, h.1.mp fun e he => hnone e (List.mem_cons_of_mem _ he)⟩,
              fun hall e he => ?_⟩, fun hall => ?_⟩
            · rcases List.mem_cons.mp he with he | he
              · cases he
              · exact h.1.mpr hall.2 e he
            · rw [(h.2 hall.2).1, (h.2 hall.2).2]
              exact ⟨rfl, rfl⟩

/-- Not the octets of any text. -/
def NotUtf8 (raw : List UInt8) : Prop := ∀ text : List Char, Utf8.encode text ≠ raw

theorem lineText_eq_none {raw : List UInt8} :
    lineText raw = none ↔ NotUtf8 (stripReturn raw) := by
  unfold lineText NotUtf8
  rw [Option.map_eq_none_iff, Option.eq_none_iff_forall_ne_some]
  exact forall_congr' fun text => not_congr Utf8.decodeStrict_eq_some

/-- **`LineParser`, however the stream is cut.** Some call raises exactly if a line,
terminated or not, is over the limit or a terminated one is not UTF-8 without its
carriage return. If none does, what is returned is the texts of the terminated
lines, and the buffer holds what is not terminated. -/
theorem feeds_spec {maximum_line : ℤ} {p : LineParser}
    (hp : LineParser.init maximum_line = .ok p) (chunks : List (List UInt8)) :
    ((∃ e, .error e ∈ (p.feeds chunks).1) ↔
        (∃ raw ∈ terminated chunks.flatten, maximum_line < raw.length) ∨
          maximum_line < (unterminated chunks.flatten).length ∨
          ∃ raw ∈ terminated chunks.flatten, NotUtf8 (stripReturn raw)) ∧
      ((∀ e, .error e ∉ (p.feeds chunks).1) →
        p.returned chunks = texts (terminated chunks.flatten) ∧
          (p.feeds chunks).2.buffer = unterminated chunks.flatten) := by
  obtain ⟨hbuffer, hmaximum, hbounded⟩ := init_bounded hp
  have h := feeds_fine chunks p hbounded
  rw [hbuffer, List.nil_append] at h
  refine ⟨?_, fun hnone => h.2 (h.1.mp hnone)⟩
  have hwrong : (∃ e, .error e ∈ (p.feeds chunks).1) ↔
      ¬ AllFine p.maximum_line chunks.flatten := by
    rw [← h.1]
    push Not
    rfl
  rw [hwrong]
  unfold AllFine Fine
  simp only [← lineText_eq_none, ← hmaximum, Nat.cast_lt]
  push Not
  constructor
  · intro hraw
    -- with every terminated line fine, it is the rest that is too long
    by_cases hfine : ∀ raw ∈ terminated chunks.flatten,
        raw.length ≤ p.maximum_line ∧ lineText raw ≠ none
    · exact .inr (.inl (hraw hfine))
    · push Not at hfine
      obtain ⟨raw, hmem, hnot⟩ := hfine
      by_cases hlen : raw.length ≤ p.maximum_line
      · exact .inr (.inr ⟨raw, hmem, hnot hlen⟩)
      · exact .inl ⟨raw, hmem, not_le.mp hlen⟩
  · rintro (⟨raw, hmem, hlong⟩ | hlong | ⟨raw, hmem, hbad⟩) hfine
    · exact absurd (hfine raw hmem).1 (by omega)
    · exact hlong
    · exact absurd hbad (hfine raw hmem).2

/-- A line that ends in another chunk than its carriage return. -/
theorem feeds_spec_crlf :
    (⟨1024, by decide, []⟩ : LineParser).returned [[0x4F, 0x4B, 0x0D], [0x0A, 0x4F]] = ["OK"] := by
  have hnone : ∀ e, .error e ∉ ((⟨1024, by decide, []⟩ : LineParser).feeds
      [[0x4F, 0x4B, 0x0D], [0x0A, 0x4F]]).1 := by
    intro e he
    have hrun : ((⟨1024, by decide, []⟩ : LineParser).feeds
      [[0x4F, 0x4B, 0x0D], [0x0A, 0x4F]]).1 = [.ok [], .ok ["OK"]] := by decide
    rw [hrun] at he
    simp at he
  have hp : LineParser.init 1024 = .ok ⟨1024, by decide, []⟩ := rfl
  exact ((feeds_spec hp _).2 hnone).1.trans (by decide)

/-! ## What a refused line costs -/

/-- The lines in front of the first one that is not UTF-8 are empty. -/
def Spares (b : List UInt8) : Prop :=
  ∀ done bad behind, terminated b = done ++ bad :: behind →
    (∀ raw ∈ done, ¬ NotUtf8 (stripReturn raw)) → NotUtf8 (stripReturn bad) → texts done = []

/-- Every line is within the limit. -/
def Within (m : ℕ) (b : List UInt8) : Prop :=
  (∀ raw ∈ terminated b, raw.length ≤ m) ∧ (unterminated b).length ≤ m

theorem within_of_append {m : ℕ} {b c : List UInt8} (h : Within m (b ++ c)) : Within m b := by
  obtain ⟨hlines, hrest⟩ := h
  rw [(terminated_append b c).1, List.forall_mem_append] at hlines
  rw [(terminated_append b c).2] at hrest
  refine ⟨hlines.1, ?_⟩
  rcases open_grows (not_mem_unterminated b) c with hle | ⟨raw, hmem, hle⟩
  · exact hle.trans hrest
  · exact hle.trans (hlines.2 raw hmem)

/-- There is one first entry without a property. -/
theorem first_unique {α : Type} {p : α → Prop} {x y : α} {behind behind' : List α} (hx : ¬ p x)
    (hy : ¬ p y) : ∀ {done done' : List α}, done ++ x :: behind = done' ++ y :: behind' →
      (∀ z ∈ done, p z) → (∀ z ∈ done', p z) → done = done' ∧ x = y ∧ behind = behind' := by
  intro done
  induction done with
  | nil =>
      intro done' h _ hdone'
      cases done' with
      | nil =>
          injection h with hxy hbehind
          exact ⟨rfl, hxy, hbehind⟩
      | cons z done' =>
          injection h with hxz _
          exact absurd (hdone' z (List.mem_cons_self ..)) (hxz ▸ hx)
  | cons z done ih =>
      intro done' h hdone hdone'
      cases done' with
      | nil =>
          injection h with hzy _
          exact absurd (hdone z (List.mem_cons_self ..)) (hzy ▸ hy)
      | cons w done' =>
          injection h with hzw h
          rw [List.forall_mem_cons] at hdone hdone'
          obtain ⟨rfl, hxy, hbehind⟩ := ih h hdone.2 hdone'.2
          exact ⟨by rw [hzw], hxy, hbehind⟩

/-- In front of the first line that is not UTF-8, or there is none. -/
theorem spares_iff (b : List UInt8) :
    Spares b ↔ (∀ raw ∈ terminated b, (lineText raw).isSome) ∨
      texts ((terminated b).takeWhile fun raw => (lineText raw).isSome) = [] := by
  have hgood : ∀ raw, ¬ NotUtf8 (stripReturn raw) ↔ (lineText raw).isSome := by
    intro raw
    rw [← lineText_eq_none, Option.isSome_iff_ne_none]
  rcases forall_or_first (fun raw => (lineText raw).isSome = true) (terminated b) with
    hall | ⟨done, bad, behind, hsplit, hdone, hbad⟩
  · refine ⟨fun _ => .inl hall, fun _ done bad behind hsplit _ hbad => ?_⟩
    exact absurd hbad ((hgood bad).mpr (hall bad (by rw [hsplit]; simp)))
  · -- the lines in front of the first bad one are those that are taken
    have htake : (terminated b).takeWhile (fun raw => (lineText raw).isSome) = done := by
      rw [hsplit, List.takeWhile_append_of_pos hdone,
        List.takeWhile_cons_of_neg (p := fun raw => (lineText raw).isSome) hbad, List.append_nil]
    rw [htake]
    constructor
    · intro h
      refine .inr (h done bad behind hsplit (fun raw hraw => (hgood raw).mpr (hdone raw hraw)) ?_)
      exact not_not.mp (mt (hgood bad).mp hbad)
    · rintro (hall | htexts) done' bad' behind' hsplit' hdone' hbad'
      · exact absurd (hall bad (by rw [hsplit]; simp)) hbad
      · obtain ⟨rfl, -, -⟩ := first_unique (p := fun raw => (lineText raw).isSome = true) hbad
          (mt (hgood bad').mpr (not_not.mpr hbad')) (hsplit.symm.trans hsplit') hdone
          fun raw hraw => (hgood raw).mp (hdone' raw hraw)
        exact htexts

instance (b : List UInt8) : Decidable (Spares b) := decidable_of_iff _ (spares_iff b).symm

instance (m : ℕ) (b : List UInt8) : Decidable (Within m b) :=
  inferInstanceAs (Decidable ((∀ raw ∈ terminated b, raw.length ≤ m) ∧
    (unterminated b).length ≤ m))

/-- **One call**, with no line over the limit: the texts before it are lost, returned
or still to come, and none is lost if the call spares them. -/
theorem feed_accounts {p : LineParser} {data : List UInt8}
    (h : Within p.maximum_line (p.buffer ++ data)) :
    ∃ lost, texts (terminated (p.buffer ++ data)) =
        lost ++ (returnedBy (p.feed data).1 ++ texts (terminated (p.feed data).2.buffer)) ∧
      unterminated (p.feed data).2.buffer = unterminated (p.buffer ++ data) ∧
      (∀ raw ∈ terminated (p.feed data).2.buffer, raw.length ≤ p.maximum_line) ∧
      (lost = [] ↔ Spares (p.buffer ++ data)) := by
  have hfed := (feed_cases p data).1
  generalize (p.feed data).1 = result at hfed
  generalize (p.feed data).2.buffer = buffer at hfed
  have hopen := not_mem_unterminated (p.buffer ++ data)
  cases hfed with
  | returned hfine hrest =>
      refine ⟨[], ?_, unterminated_open hopen, ?_, ?_⟩
      · rw [terminated_open hopen]
        exact (List.append_nil _).symm
      · rw [terminated_open hopen]
        exact fun raw hraw => absurd hraw List.not_mem_nil
      · refine ⟨fun _ done bad behind hsplit _ hbad => ?_, fun _ => rfl⟩
        exact absurd (lineText_eq_none.mpr hbad) (hfine bad (by rw [hsplit]; simp)).2
  | notUtf8 done bad behind hsplit hdone hlen hbad =>
      have hnew := not_mem_terminated (p.buffer ++ data)
      have hnewBehind : ∀ raw ∈ behind, NEWLINE ∉ raw := fun raw hraw =>
        hnew raw (by rw [hsplit]; simp [hraw])
      have hbehind := terminated_joinLines hnewBehind (unterminated (p.buffer ++ data))
      rw [terminated_open hopen, unterminated_open hopen, List.append_nil] at hbehind
      rw [hbehind.1, hbehind.2]
      -- lost are the texts in front of the line; those behind it are in the buffer
      refine ⟨texts done, ?_, rfl, fun raw hraw => h.1 raw (by rw [hsplit]; simp [hraw]), ?_⟩
      · have hskip : texts (bad :: behind) = texts behind := by
          unfold texts
          rw [List.filterMap_cons_none hbad]
        rw [hsplit, texts_append, hskip]
        rfl
      · have hgood : ∀ raw ∈ done, ¬ NotUtf8 (stripReturn raw) := fun raw hraw hnot =>
          (hdone raw hraw).2 (lineText_eq_none.mpr hnot)
        constructor
        · intro hlost done' bad' behind' hsplit' hgood' hbad'
          obtain ⟨rfl, -, -⟩ := first_unique (p := fun raw => ¬ NotUtf8 (stripReturn raw))
            (not_not.mpr (lineText_eq_none.mp hbad)) (not_not.mpr hbad') (hsplit.symm.trans hsplit')
            hgood hgood'
          exact hlost
        · intro hspares
          exact hspares done bad behind hsplit hgood (lineText_eq_none.mp hbad)
  | tooLong done long hdone hlong hsplit =>
      rcases hsplit with ⟨behind, hsplit⟩ | ⟨-, rfl⟩
      · exact absurd (h.1 long (by rw [hsplit]; simp)) (by omega)
      · exact absurd h.2 (by omega)

/-- The parts of a session that begin with a chunk. -/
theorem forall_turns_cons {α : Type} {P : List α → α → Prop} {x : α} {xs : List α} :
    (∀ pre y post, x :: xs = pre ++ y :: post → P pre y) ↔
      P [] x ∧ ∀ pre y post, xs = pre ++ y :: post → P (x :: pre) y := by
  constructor
  · intro h
    exact ⟨h [] x xs rfl, fun pre y post heq => h (x :: pre) y post (by rw [heq, List.cons_append])⟩
  · rintro ⟨hfirst, hrest⟩ pre y post heq
    cases pre with
    | nil =>
        injection heq with hxy _
        exact hxy ▸ hfirst
    | cons z pre =>
        injection heq with hxz heq
        exact hxz ▸ hrest pre y post heq

/-- The texts returned so far, and those of the lines still in the buffer. -/
def LineParser.accounted (p : LineParser) (chunks : List (List UInt8)) : List String :=
  p.returned chunks ++ texts (terminated (p.feeds chunks).2.buffer)

/-- **The run**, with no line over the limit: the texts are all accounted for if every
call spares them, and are too few if one does not. -/
theorem feeds_account (chunks : List (List UInt8)) : ∀ p : LineParser,
    Within p.maximum_line (p.buffer ++ chunks.flatten) →
      (p.accounted chunks).length ≤ (texts (terminated (p.buffer ++ chunks.flatten))).length ∧
        (p.accounted chunks = texts (terminated (p.buffer ++ chunks.flatten)) ↔
          ∀ pre chunk post, chunks = pre ++ chunk :: post →
            Spares ((p.feeds pre).2.buffer ++ chunk)) := by
  induction chunks with
  | nil =>
      intro p _
      rw [List.flatten_nil, List.append_nil]
      refine ⟨le_rfl, fun _ pre chunk post h => absurd h (by simp), fun _ => rfl⟩
  | cons chunk chunks ih =>
      intro p hwithin
      rw [List.flatten_cons, ← List.append_assoc] at hwithin ⊢
      obtain ⟨lost, htexts, hopen, hlines, hlost⟩ := feed_accounts (within_of_append hwithin)
      have hm := (feed_cases p chunk).2
      -- what the call leaves and the rest of the stream
      have hnext := terminated_append (p.feed chunk).2.buffer chunks.flatten
      have hwhole := terminated_append (p.buffer ++ chunk) chunks.flatten
      rw [hopen] at hnext
      have htotal : texts (terminated (p.buffer ++ chunk ++ chunks.flatten)) =
          lost ++ (returnedBy (p.feed chunk).1 ++
            texts (terminated ((p.feed chunk).2.buffer ++ chunks.flatten))) := by
        rw [hwhole.1, hnext.1, texts_append, texts_append, htexts]
        simp only [List.append_assoc]
      have hwithin' : Within (p.feed chunk).2.maximum_line
          ((p.feed chunk).2.buffer ++ chunks.flatten) := by
        obtain ⟨hall, hrest⟩ := hwithin
        rw [hwhole.1, List.forall_mem_append] at hall
        rw [hwhole.2] at hrest
        unfold Within
        rw [hm, hnext.1, hnext.2, List.forall_mem_append]
        exact ⟨⟨hlines, hall.2⟩, hrest⟩
      obtain ⟨hle, hiff⟩ := ih _ hwithin'
      have hstart : p.accounted (chunk :: chunks) =
          returnedBy (p.feed chunk).1 ++ (p.feed chunk).2.accounted chunks := by
        unfold LineParser.accounted
        rw [returned_cons, feeds_cons, List.append_assoc]
      rw [hstart, htotal, forall_turns_cons]
      refine ⟨by simp only [List.length_append]; omega, ?_⟩
      have hfirst : (p.feeds []).2.buffer = p.buffer := rfl
      have hturns : (∀ pre next post, chunks = pre ++ next :: post →
            Spares ((p.feeds (chunk :: pre)).2.buffer ++ next)) ↔
          (p.feed chunk).2.accounted chunks =
            texts (terminated ((p.feed chunk).2.buffer ++ chunks.flatten)) := hiff.symm
      rw [hturns, hfirst, ← hlost]
      constructor
      · intro h
        have hlen := congrArg List.length h
        simp only [List.length_append] at hlen
        obtain rfl : lost = [] := List.length_eq_zero_iff.mp (by omega)
        exact ⟨rfl, List.append_cancel_left h⟩
      · rintro ⟨rfl, h⟩
        rw [h, List.nil_append]

/-- After a call that returns no line is left in the buffer. -/
theorem terminated_of_returned {p : LineParser} {data : List UInt8} {lines : List String}
    (h : (p.feed data).1 = .ok lines) : terminated (p.feed data).2.buffer = [] := by
  have hfed := (feed_cases p data).1
  rw [h] at hfed
  generalize (p.feed data).2.buffer = buffer at hfed
  cases hfed with
  | returned hfine hrest => exact terminated_open (not_mem_unterminated _)

theorem feeds_concat (chunks : List (List UInt8)) (chunk : List UInt8) : ∀ p : LineParser,
    (p.feeds (chunks ++ [chunk])).2 = ((p.feeds chunks).2.feed chunk).2 := by
  induction chunks with
  | nil => intro p; rfl
  | cons first chunks ih =>
      intro p
      rw [List.cons_append, feeds_cons, feeds_cons]
      exact ih _

/-- **A refused line costs only itself** exactly if no call finds a line with a text in
front of it: then all texts of the stream are returned, once and in order, or
still in the buffer. They are all returned once a call returns. -/
theorem bad_line_costs_itself_iff {maximum_line : ℤ} {p : LineParser}
    (hp : LineParser.init maximum_line = .ok p) {chunks : List (List UInt8)}
    (hlimit : Within p.maximum_line chunks.flatten) :
    (p.accounted chunks = texts (terminated chunks.flatten) ↔
        ∀ pre chunk post, chunks = pre ++ chunk :: post →
          Spares ((p.feeds pre).2.buffer ++ chunk)) ∧
      ∀ pre last lines, chunks = pre ++ [last] → ((p.feeds pre).2.feed last).1 = .ok lines →
        p.accounted chunks = p.returned chunks := by
  obtain ⟨hbuffer, -, -⟩ := init_bounded hp
  have h := feeds_account chunks p
  rw [hbuffer, List.nil_append] at h
  refine ⟨(h hlimit).2, ?_⟩
  rintro pre last lines rfl hlast
  unfold LineParser.accounted
  rw [feeds_concat, terminated_of_returned hlast]
  exact List.append_nil _

/-- A line that is not UTF-8 behind an empty one, and a line behind it. -/
theorem bad_line_costs_itself_first :
    (⟨1024, by decide, []⟩ : LineParser).accounted [[0x0A, 0xFF, 0x0A, 0x4F], [0x4B, 0x0A]] =
      ["OK"] := by
  have hp : LineParser.init 1024 = .ok ⟨1024, by decide, []⟩ := rfl
  refine ((bad_line_costs_itself_iff hp (by decide)).1.mpr ?_).trans (by decide)
  rw [forall_turns_cons, forall_turns_cons]
  exact ⟨by decide, by decide, fun pre chunk post h => absurd h (by simp)⟩

/-- **Not always only itself.** The line in front of it in the same chunk is neither
returned nor kept. -/
theorem bad_line_loses_line_before :
    let p : LineParser := ⟨1024, by decide, []⟩
    let chunks : List (List UInt8) := [[0x4F, 0x4B, 0x0A, 0xFF, 0x0A], [0x4F, 0x4B, 0x0A]]
    LineParser.init 1024 = .ok p ∧ Within 1024 chunks.flatten ∧
      (p.feeds chunks).1 = [.error lineNotUtf8, .ok ["OK"]] ∧
      texts (terminated chunks.flatten) = ["OK", "OK"] ∧
      p.accounted chunks ≠ texts (terminated chunks.flatten) := by
  intro p chunks
  exact ⟨rfl, by decide, by decide, by decide, by decide⟩

/-! ## What the buffer may hold -/

/-- Behind the first line that is not fine, if that one is not UTF-8, there is
nothing but an unterminated line within the limit. -/
def Contained (m : ℕ) (b : List UInt8) : Prop :=
  ∀ done bad behind, terminated b = done ++ bad :: behind → (∀ raw ∈ done, Fine m raw) →
    bad.length ≤ m → NotUtf8 (stripReturn bad) → behind = [] ∧ (unterminated b).length ≤ m

theorem newline_notMem_iff {raws : List (List UInt8)} {b : List UInt8} (h : NEWLINE ∉ b) :
    NEWLINE ∉ joinLines raws ++ b ↔ raws = [] := by
  cases raws with
  | nil => simpa [joinLines] using h
  | cons raw raws => simp

/-- **One call** leaves the buffer bounded exactly if what it refuses is contained. -/
theorem feed_bounded_iff (p : LineParser) (data : List UInt8) :
    (p.feed data).2.Bounded ↔ Contained p.maximum_line (p.buffer ++ data) := by
  obtain ⟨hfed, hm⟩ := feed_cases p data
  have hbounded : (p.feed data).2.Bounded ↔ NEWLINE ∉ (p.feed data).2.buffer ∧
      (p.feed data).2.buffer.length ≤ p.maximum_line := by
    rw [← hm]
    exact ⟨fun h => ⟨h.1, h.2⟩, fun h => ⟨h.1, h.2⟩⟩
  rw [hbounded]
  generalize (p.feed data).1 = result at hfed
  generalize (p.feed data).2.buffer = buffer at hfed
  have hopen := not_mem_unterminated (p.buffer ++ data)
  have hbadFine : ∀ bad, NotUtf8 (stripReturn bad) → ¬ Fine p.maximum_line bad :=
    fun bad hbad hfine => hfine.2 (lineText_eq_none.mpr hbad)
  cases hfed with
  | returned hfine hrest =>
      refine ⟨fun _ done bad behind hsplit _ _ hbad => ?_, fun _ => ⟨hopen, hrest⟩⟩
      exact absurd (hfine bad (by rw [hsplit]; simp)) (hbadFine bad hbad)
  | notUtf8 done bad behind hsplit hdone hlen hbad =>
      rw [newline_notMem_iff hopen]
      constructor
      · rintro ⟨rfl, hle⟩ done' bad' behind' hsplit' hdone' _ hbad'
        obtain ⟨-, -, rfl⟩ := first_unique (hbadFine bad (lineText_eq_none.mp hbad))
          (hbadFine bad' hbad') (hsplit.symm.trans hsplit') hdone hdone'
        exact ⟨rfl, hle⟩
      · intro h
        obtain ⟨rfl, hle⟩ := h done bad behind hsplit hdone hlen (lineText_eq_none.mp hbad)
        exact ⟨rfl, hle⟩
  | tooLong done long hdone hlong hsplit =>
      refine ⟨fun _ done' bad behind' hsplit' hdone' hlen hbad => ?_,
        fun _ => ⟨List.not_mem_nil, Nat.zero_le _⟩⟩
      -- the first line that is not fine is the long one
      rcases hsplit with ⟨behind, hsplit⟩ | ⟨hsplit, -⟩
      · obtain ⟨-, rfl, -⟩ := first_unique (fun hfine => absurd hfine.1 (by omega))
          (hbadFine bad hbad) (hsplit.symm.trans hsplit') hdone hdone'
        omega
      · exact absurd (hdone bad (by rw [← hsplit, hsplit']; simp)) (hbadFine bad hbad)

theorem feeds_maximum_line (chunks : List (List UInt8)) : ∀ p : LineParser,
    (p.feeds chunks).2.maximum_line = p.maximum_line := by
  induction chunks with
  | nil => intro p; rfl
  | cons chunk chunks ih =>
      intro p
      rw [feeds_cons]
      exact (ih _).trans (feed_cases p chunk).2

/-- **The buffer stays bounded** after every call exactly if what is refused in each is
contained. -/
theorem buffer_bounded_iff {maximum_line : ℤ} {p : LineParser}
    (hp : LineParser.init maximum_line = .ok p) (chunks : List (List UInt8)) :
    (∀ pre, pre <+: chunks → (p.feeds pre).2.Bounded) ↔
      ∀ pre chunk post, chunks = pre ++ chunk :: post →
        Contained p.maximum_line ((p.feeds pre).2.buffer ++ chunk) := by
  have hstep : ∀ pre chunk, (p.feeds (pre ++ [chunk])).2.Bounded ↔
      Contained p.maximum_line ((p.feeds pre).2.buffer ++ chunk) := by
    intro pre chunk
    rw [feeds_concat, feed_bounded_iff, feeds_maximum_line]
  constructor
  · rintro h pre chunk post rfl
    exact (hstep pre chunk).mp (h _ ⟨post, by simp⟩)
  · rintro h pre ⟨post, rfl⟩
    rcases List.eq_nil_or_concat pre with rfl | ⟨before, chunk, rfl⟩
    · exact (init_bounded hp).2.2
    · rw [List.concat_eq_append] at h ⊢
      exact (hstep before chunk).mpr (h before chunk post (by simp))

/-- A line that is not UTF-8 with an unterminated one behind it. -/
theorem buffer_bounded_contained :
    LineParser.init 1024 = .ok ⟨1024, by decide, []⟩ ∧
      ∀ pre, pre <+: [[0xFF, 0x0A, 0x4F]] →
        ((⟨1024, by decide, []⟩ : LineParser).feeds pre).2.Bounded := by
  have hp : LineParser.init 1024 = .ok ⟨1024, by decide, []⟩ := rfl
  refine ⟨hp, (buffer_bounded_iff hp _).mpr ?_⟩
  rw [forall_turns_cons]
  refine ⟨?_, fun pre chunk post h => absurd h (by simp)⟩
  intro done bad behind hsplit _ _ _
  have hlines : terminated ([] ++ [0xFF, 0x0A, 0x4F]) = [[0xFF]] := by decide
  have hlen := congrArg List.length (hlines.symm.trans hsplit)
  simp only [List.length_append, List.length_cons, List.length_nil] at hlen
  exact ⟨List.length_eq_zero_iff.mp (by omega), by decide⟩

/-- The chunks of a line that is not UTF-8 behind another one: each call refuses one
line and leaves one more. -/
theorem feeds_grow (n : ℕ) : ∀ (k : ℕ) (p : LineParser),
    p.buffer = joinLines (List.replicate k [0xFF]) →
    (p.feeds (List.replicate n [0xFF, 0x0A, 0xFF, 0x0A])).2.buffer =
      joinLines (List.replicate (k + n) [0xFF]) := by
  induction n with
  | zero => intro k p hp; exact hp
  | succ n ih =>
      intro k p hp
      have hbytes : p.buffer ++ [0xFF, 0x0A, 0xFF, 0x0A] =
          joinLines (List.replicate (k + 2) [0xFF]) ++ [] := by
        rw [hp, List.append_nil, List.replicate_add]
        unfold joinLines
        rw [List.flatMap_append]
        rfl
      have hnew : ∀ raw ∈ List.replicate (k + 2) [(0xFF : UInt8)], NEWLINE ∉ raw := by
        intro raw hraw
        rw [(List.mem_replicate.mp hraw).2]
        decide
      -- of `k + 2` lines the call refuses the first, and leaves the rest
      have hlines := terminated_joinLines hnew []
      rw [← hbytes, List.replicate_succ] at hlines
      have hsplit : terminated (p.buffer ++ [0xFF, 0x0A, 0xFF, 0x0A]) =
          [] ++ [0xFF] :: List.replicate (k + 1) [0xFF] := by
        rw [hlines.1]
        exact List.append_nil _
      have hfeed := feed_notUtf8 hsplit (fun raw hraw => absurd hraw List.not_mem_nil)
        p.maximum_line_pos (by decide)
      have hrest : joinLines (List.replicate (k + 1) [0xFF]) ++
          unterminated (p.buffer ++ [0xFF, 0x0A, 0xFF, 0x0A]) =
            joinLines (List.replicate (k + 1) [0xFF]) := by
        rw [hlines.2]
        exact List.append_nil _
      rw [List.replicate_succ, feeds_cons, hfeed, hrest,
        ih (k + 1) { p with buffer := joinLines (List.replicate (k + 1) [0xFF]) } rfl,
        Nat.add_right_comm]
      rfl

/-- **Not always bounded.** A line that is not UTF-8 leaves the newline behind it in the
buffer, and a peer that goes on so can make it as long as it likes. -/
theorem bad_lines_fill_buffer :
    let p : LineParser := ⟨1024, by decide, []⟩
    LineParser.init 1024 = .ok p ∧ ¬ (p.feeds [[0xFF, 0x0A, 0x0A]]).2.Bounded ∧
      ∀ n, ∃ chunks, n ≤ (p.feeds chunks).2.buffer.length := by
  intro p
  refine ⟨rfl, fun h => absurd h.no_newline (by decide), fun n => ?_⟩
  refine ⟨List.replicate n [0xFF, 0x0A, 0xFF, 0x0A], ?_⟩
  rw [feeds_grow n 0 p rfl]
  unfold joinLines
  rw [List.length_flatMap]
  simp only [List.map_replicate, List.sum_replicate, List.length_append, List.length_singleton,
    smul_eq_mul]
  omega

end Ptlab.Control
