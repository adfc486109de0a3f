/-
Files of JSON objects, one to a line: `events.ndjson` and `transcript.ndjson`.

A line holds no control character, so a file is read line by line. A file that was cut
somewhere reads as a beginning of what was written (`readLog_cut`): an object that is cut
short is no JSON.
-/
import Ptlab.Control.Feeds
import Ptlab.Lib.JsonValue

set_option autoImplicit false

open Ptlab.Control

namespace Ptlab.JsonLines

/-- The members of an object. -/
abbrev Members : Type := List (String × Json.Value)

/-- One object, as `orjson.dumps` writes it. -/
def dumps (members : Members) : List UInt8 := Json.write (.object members)

/-- The text of some objects. -/
def lines (objects : List Members) : List UInt8 := joinLines (objects.map dumps)

/-- A reader: what the complete lines are. -/
def readLog (stream : List UInt8) : List Json.Value := (terminated stream).filterMap Json.read

theorem newline_notMem_dumps (members : Members) : NEWLINE ∉ dumps members := fun h =>
  absurd (Json.write_visible _ NEWLINE h) (by decide)

theorem lines_append (objects : List Members) (members : Members) :
    lines (objects ++ [members]) = lines objects ++ (dumps members ++ [NEWLINE]) := by
  unfold lines joinLines
  rw [List.map_append, List.flatMap_append, List.map_singleton, List.flatMap_singleton]

/-- Lines that were written are read. -/
theorem readLog_lines (objects : List Members) {tail : List UInt8} (htail : NEWLINE ∉ tail) :
    readLog (lines objects ++ tail) = objects.map .object ∧
      unterminated (lines objects ++ tail) = tail := by
  have hlines : ∀ raw ∈ objects.map dumps, NEWLINE ∉ raw := by
    intro raw hraw
    obtain ⟨members, _, rfl⟩ := List.mem_map.mp hraw
    exact newline_notMem_dumps members
  have hread : Json.read ∘ dumps = some ∘ Json.Value.object :=
    funext fun members => Json.read_write _
  obtain ⟨hterminated, hunterminated⟩ := terminated_joinLines hlines tail
  refine ⟨?_, hunterminated.trans (unterminated_open htail)⟩
  unfold readLog lines
  rw [hterminated, terminated_open htail, List.append_nil, List.filterMap_map, hread,
    ← List.filterMap_map, List.filterMap_some]

/-- Where a stream of lines is cut: behind some of them, in the next. -/
theorem cut_joinLines : ∀ (raws : List (List UInt8)) {seen : List UInt8}, seen <+: joinLines raws →
    ∃ done rest tail, raws = done ++ rest ∧ seen = joinLines done ++ tail ∧
      (tail = [] ∨ ∃ raw ∈ rest.head?, tail <+: raw)
  | [], seen, h => ⟨[], [], [], rfl, List.prefix_nil.mp h, .inl rfl⟩
  | raw :: raws, seen, h => by
      rw [joinLines_cons] at h
      rcases Json.prefix_append_cases h with h | ⟨behind, hbehind, rfl⟩
      · exact ⟨[], raw :: raws, seen, rfl, rfl, .inr ⟨raw, rfl, h⟩⟩
      · rcases List.prefix_cons_iff.mp hbehind with rfl | ⟨seen, rfl, hseen⟩
        · exact ⟨[], raw :: raws, raw, rfl, List.append_nil _, .inr ⟨raw, rfl, List.prefix_refl _⟩⟩
        · obtain ⟨done, rest, tail, rfl, rfl, htail⟩ := cut_joinLines raws hseen
          refine ⟨raw :: done, rest, tail, rfl, ?_, htail⟩
          rw [joinLines_cons, List.append_assoc, List.cons_append]

/-- What a reader has of a file that was cut: some of the objects, and behind them no JSON,
or the whole next object. -/
def ReadsCut (objects : List Members) (seen : List UInt8) : Prop :=
  ∃ done rest, objects = done ++ rest ∧ readLog seen = done.map .object ∧
    (Json.IsText (unterminated seen) → ∃ members ∈ rest.head?,
      Json.read (unterminated seen) = some (.object members))

/-- **A file that is cut** anywhere. -/
theorem readLog_cut {objects : List Members} {seen : List UInt8} (hseen : seen <+: lines objects) :
    ReadsCut objects seen := by
  obtain ⟨done, rest, tail, hraws, rfl, htail⟩ := cut_joinLines _ hseen
  obtain ⟨done, rest, rfl, rfl, rfl⟩ := List.map_eq_append_iff.mp hraws
  rcases htail with rfl | ⟨raw, hraw, htail⟩
  · obtain ⟨hread, hrest⟩ := readLog_lines done List.not_mem_nil
    refine ⟨done, rest, rfl, hread, fun htext => ?_⟩
    change Json.IsText (unterminated (lines done ++ [])) at htext
    rw [hrest] at htext
    exact absurd rfl htext.level.2
  · rw [List.head?_map] at hraw
    obtain ⟨members, hmembers, rfl⟩ := Option.map_eq_some_iff.mp hraw
    have hopen : NEWLINE ∉ tail := fun hmem =>
      newline_notMem_dumps members (htail.subset hmem)
    obtain ⟨hread, hrest⟩ := readLog_lines done hopen
    refine ⟨done, rest, rfl, hread, fun htext => ⟨members, hmembers, ?_⟩⟩
    change Json.IsText (unterminated (lines done ++ tail)) at htext
    change Json.read (unterminated (lines done ++ tail)) = _
    rw [hrest] at htext ⊢
    -- an object that is cut short is no text
    by_cases hwhole : tail = dumps members
    · rw [hwhole]
      exact Json.read_write _
    · exact absurd htext (Json.not_isText_of_cut (Json.isObject_write _) htail hwhole)

end Ptlab.JsonLines
