/-
The grammar of a response line, and how far `parse_control_line`
(`src/ptlab/control.py`) follows it.

`Reads` is the grammar, said of the fields as they stand on the line; the parser
walks over them with two collections in hand. `parseFields_ok` is where the two
meet: what the loop adds to its `values` are the entries of the fields with an
equals sign, and what it adds to its `message` are the other fields.

The two part at a line of spaces. It is not empty, so it passes the first check,
and it has no first field to look at.
-/
import Ptlab.Control.Response
import Mathlib.Data.List.Forall2
import Mathlib.Data.List.TakeWhile

set_option autoImplicit false

namespace Ptlab.Control

/-! ## The grammar -/

def hasEquals (field : String) : Bool := decide ('=' ∈ field.toList)

/-- A field as a key, its first equals sign and a value. The value may have more
of them. -/
def Entry (field : String) (entry : String × String) : Prop :=
  '=' ∉ entry.1.toList ∧ field.toList = entry.1.toList ++ '=' :: entry.2.toList

/-- What the fields of a line say: whether it is `OK`, its message, and its
values. -/
structure ReadsFields (first : String) (fields : List String)
    (out : Bool × String × List (String × String)) : Prop where
  prefixed : first = "OK" ∨ first = "ERR"
  ok : out.1 = true ↔ first = "OK"
  message : out.2.1 = " ".intercalate (fields.filter fun field => !hasEquals field)
  values : List.Forall₂ Entry (fields.filter hasEquals) out.2.2
  keys : ∀ entry ∈ out.2.2, entry.1 ≠ ""
  once : (out.2.2.map Prod.fst).Nodup

/-- A line the grammar has, and what it says. -/
structure Reads (line : String) (out : Bool × String × List (String × String)) : Prop where
  nonempty : line ≠ ""
  no_feed : LINE_FEED ∉ line.toList
  no_return : RETURN ∉ line.toList
  fields : ∃ first fields, fieldsOf line = first :: fields ∧ ReadsFields first fields out

/-! ## One field -/

/-- What stands in front of the first equals sign, the sign, and what is behind. -/
theorem takeWhile_equals {text : List Char} (h : '=' ∈ text) :
    text = text.takeWhile (· ≠ '=') ++ '=' ::
      text.drop ((text.takeWhile (· ≠ '=')).length + 1) := by
  induction text with
  | nil => exact absurd h List.not_mem_nil
  | cons c text ih =>
      by_cases hc : c = '='
      · subst hc
        simp
      · have hmem : '=' ∈ text := (List.mem_cons.mp h).resolve_left (Ne.symm hc)
        have htake : (c :: text).takeWhile (· ≠ '=') = c :: text.takeWhile (· ≠ '=') :=
          List.takeWhile_cons_of_pos (by simpa using hc)
        rw [htake, List.length_cons, List.drop_succ_cons, List.cons_append, ← ih hmem]

theorem takeWhile_equals_append {key : List Char} (h : '=' ∉ key) (value : List Char) :
    (key ++ '=' :: value).takeWhile (· ≠ '=') = key := by
  have hall : ∀ c ∈ key, decide (c ≠ '=') = true := by
    intro c hc
    exact decide_eq_true fun he => h (he ▸ hc)
  rw [List.takeWhile_append_of_pos hall]
  simp

theorem splitField_entry {field : String} (h : '=' ∈ field.toList) :
    Entry field (splitField field) := by
  unfold Entry splitField
  dsimp only
  rw [String.toList_ofList, String.toList_ofList]
  refine ⟨fun hmem => ?_, takeWhile_equals h⟩
  have hother := List.mem_takeWhile_imp hmem
  exact absurd rfl (of_decide_eq_true hother)

/-- A field is an entry in one way at most. -/
theorem Entry.unique {field : String} {e e' : String × String} (h : Entry field e)
    (h' : Entry field e') : e = e' := by
  obtain ⟨key, value⟩ := e
  obtain ⟨key', value'⟩ := e'
  obtain ⟨hkey, htext⟩ := h
  obtain ⟨hkey', htext'⟩ := h'
  dsimp only at hkey htext hkey' htext'
  have htake : key.toList = key'.toList := by
    rw [← takeWhile_equals_append hkey value.toList, ← htext, htext',
      takeWhile_equals_append hkey']
  rw [htext, htake] at htext'
  have hvalue : value.toList = value'.toList :=
    List.tail_eq_of_cons_eq (List.append_cancel_left htext')
  rw [String.toList_inj.mp htake, String.toList_inj.mp hvalue]

theorem Entry.iff_splitField {field : String} (h : '=' ∈ field.toList) (e : String × String) :
    Entry field e ↔ e = splitField field := by
  constructor
  · intro he
    exact he.unique (splitField_entry h)
  · intro he
    rw [he]
    exact splitField_entry h

/-- The first entry is what the first field splits into. -/
theorem entries_cons {field : String} (h : '=' ∈ field.toList) (fields : List String)
    (entries : List (String × String)) :
    List.Forall₂ Entry (field :: fields) entries ↔
      ∃ entries', entries = splitField field :: entries' ∧ List.Forall₂ Entry fields entries' := by
  rw [List.forall₂_cons_left_iff]
  constructor
  · rintro ⟨entry, entries', hentry, hentries, rfl⟩
    rw [(Entry.iff_splitField h entry).mp hentry]
    exact ⟨entries', rfl, hentries⟩
  · rintro ⟨entries', rfl, hentries⟩
    exact ⟨_, entries', splitField_entry h, hentries, rfl⟩

/-! ## The loop over the fields -/

/-- What the loop comes to: the fields without an equals sign are added to the message,
and those with one add entries of their own keys to the values. -/
def LoopReads (fields : List String) (values : List (String × String)) (message : List String)
    (out : List String × List (String × String)) : Prop :=
  ∃ entries, out = (message ++ fields.filter (fun field => !hasEquals field), values ++ entries) ∧
    List.Forall₂ Entry (fields.filter hasEquals) entries ∧
    (∀ entry ∈ entries, entry.1 ≠ "") ∧ ((values ++ entries).map Prod.fst).Nodup

section Loop

variable {field : String} {fields : List String} {values : List (String × String)}
  {message : List String} {out : List String × List (String × String)}

theorem loopReads_nil (hvalues : (values.map Prod.fst).Nodup) :
    LoopReads [] values message out ↔ out = (message, values) := by
  unfold LoopReads
  rw [List.filter_nil, List.filter_nil, List.append_nil]
  constructor
  · rintro ⟨entries, rfl, hentries, -, -⟩
    rw [List.forall₂_nil_left_iff.mp hentries, List.append_nil]
  · rintro rfl
    refine ⟨[], ?_, .nil, ?_, ?_⟩
    · rw [List.append_nil]
    · exact fun entry hentry => absurd hentry List.not_mem_nil
    · rw [List.append_nil]
      exact hvalues

/-- A field with an equals sign is the first of the entries. -/
theorem loopReads_entry (hequals : '=' ∈ field.toList) :
    LoopReads (field :: fields) values message out ↔
      (splitField field).1 ≠ "" ∧
        LoopReads fields (values ++ [splitField field]) message out := by
  have hhas : hasEquals field = true := decide_eq_true hequals
  have hhead := entries_cons hequals (fields.filter hasEquals)
  unfold LoopReads
  rw [List.filter_cons_of_pos hhas, List.filter_cons_of_neg (by rw [hhas]; decide)]
  constructor
  · rintro ⟨entries, hout, hentries, hkeys, honce⟩
    obtain ⟨entries', rfl, hentries'⟩ := (hhead entries).mp hentries
    rw [List.forall_mem_cons] at hkeys
    rw [List.append_cons] at hout honce
    exact ⟨hkeys.1, entries', hout, hentries', hkeys.2, honce⟩
  · rintro ⟨hkey, entries, hout, hentries, hkeys, honce⟩
    rw [← List.append_cons] at hout honce
    exact ⟨splitField field :: entries, hout, (hhead _).mpr ⟨entries, rfl, hentries⟩,
      List.forall_mem_cons.mpr ⟨hkey, hkeys⟩, honce⟩

/-- Any other field is a word of the message. -/
theorem loopReads_word (hequals : '=' ∉ field.toList) :
    LoopReads (field :: fields) values message out ↔
      LoopReads fields values (message ++ [field]) out := by
  have hhas : hasEquals field = false := decide_eq_false hequals
  unfold LoopReads
  rw [List.filter_cons_of_pos (by rw [hhas]; rfl), List.filter_cons_of_neg (by rw [hhas]; decide),
    List.append_assoc, List.singleton_append]

/-- A new entry has a key of its own. -/
theorem nodup_entry_iff {entry : String × String} (hvalues : (values.map Prod.fst).Nodup) :
    ((values ++ [entry]).map Prod.fst).Nodup ↔ entry.1 ∉ values.map Prod.fst := by
  rw [List.map_append, List.map_singleton, List.nodup_append]
  constructor
  · rintro ⟨-, -, hapart⟩ hmem
    exact hapart _ hmem _ (List.mem_singleton.mpr rfl) rfl
  · intro hfresh
    refine ⟨hvalues, List.nodup_singleton _, ?_⟩
    rintro key hmem key' hkey' rfl
    rw [List.mem_singleton] at hkey'
    exact hfresh (hkey' ▸ hmem)

/-- The keys so far are pairwise different. -/
theorem LoopReads.nodup (h : LoopReads fields values message out) :
    (values.map Prod.fst).Nodup := by
  obtain ⟨entries, -, -, -, honce⟩ := h
  rw [List.map_append] at honce
  exact (List.nodup_append.mp honce).1

end Loop

/-- **The loop.** -/
theorem parseFields_ok (py : Builtins) (fields : List String) :
    ∀ {values : List (String × String)} {message : List String},
      (values.map Prod.fst).Nodup → ∀ out : List String × List (String × String),
      parseFields py fields values message = .ok out ↔ LoopReads fields values message out := by
  induction fields with
  | nil =>
      intro values message hvalues out
      rw [parseFields, loopReads_nil hvalues, Except.ok.injEq]
      exact eq_comm
  | cons field fields ih =>
      intro values message hvalues out
      rw [parseFields]
      by_cases hequals : '=' ∈ field.toList
      · rw [if_pos hequals, loopReads_entry hequals]
        dsimp only
        -- the loop raises at an empty key and at one it has seen
        by_cases hkey : (splitField field).1 = "" ∨ (splitField field).1 ∈ values.map Prod.fst
        · rw [if_pos hkey]
          refine iff_of_false (fun h => by cases h) ?_
          rintro ⟨hne, hreads⟩
          exact hkey.elim hne ((nodup_entry_iff hvalues).mp hreads.nodup)
        · rw [if_neg hkey]
          rw [not_or] at hkey
          rw [ih ((nodup_entry_iff hvalues).mpr hkey.2) out]
          exact (and_iff_right hkey.1).symm
      · rw [if_neg hequals, loopReads_word hequals, ih hvalues out]

/-! ## The fields of a line -/

/-- A text has no field exactly when all of it is space. -/
theorem fieldsOf_eq_nil (line : String) :
    fieldsOf line = [] ↔ ∀ c ∈ line.toList, isSpace c = true := by
  unfold fieldsOf
  rw [List.map_eq_nil_iff, List.filter_eq_nil_iff]
  generalize line.toList = text
  induction text with
  | nil => simp
  | cons c text ih =>
      rw [List.splitOnP_cons_eq_if_modifyHead, List.forall_mem_cons]
      by_cases hc : isSpace c = true
      · rw [if_pos hc, List.forall_mem_cons, ih]
        simp [hc]
      · rw [if_neg hc]
        -- the character is in the first piece
        rcases hsplit : text.splitOnP isSpace with _ | ⟨piece, pieces⟩
        · exact absurd hsplit (List.splitOnP_ne_nil _ _)
        · rw [List.modifyHead_cons, List.forall_mem_cons]
          simp [hc]

/-! ## The parser and the grammar -/

/-- Past the first check, and with a first field, the parser follows the grammar. -/
theorem parse_control_line_fields (py : Builtins) {line first : String} {fields : List String}
    (hline : ¬ (line = "" ∨ LINE_FEED ∈ line.toList ∨ RETURN ∈ line.toList))
    (hfields : fieldsOf line = first :: fields) (out : Bool × String × List (String × String)) :
    parse_control_line py line = .ok out ↔ ReadsFields first fields out := by
  unfold parse_control_line
  rw [if_neg hline, hfields]
  dsimp only
  by_cases hfirst : first ∈ ["OK", "ERR"]
  · rw [if_neg (not_not_intro hfirst)]
    -- the loop starts without keys
    have hnil : (([] : List (String × String)).map Prod.fst).Nodup := List.nodup_nil
    have hloop := @parseFields_ok py fields [] [] hnil
    simp only [LoopReads, List.nil_append] at hloop
    constructor
    · intro h
      rcases hparse : parseFields py fields [] [] with e | ⟨message, values⟩
      · rw [hparse] at h
        cases h
      · rw [hparse] at h
        injection h with h
        obtain ⟨entries, hout, hentries, hkeys, honce⟩ := (hloop _).mp hparse
        injection hout with hmessage hvalues
        subst hmessage hvalues h
        refine ⟨by simpa using hfirst, decide_eq_true_iff, rfl, hentries, hkeys, honce⟩
    · rintro ⟨-, hok, hmessage, hvalues, hkeys, honce⟩
      obtain ⟨ok, message, values⟩ := out
      dsimp only at hok hmessage hvalues hkeys honce
      rw [(hloop (_, values)).mpr ⟨values, rfl, hvalues, hkeys, honce⟩]
      dsimp only
      rw [← hmessage]
      have hsame : decide (first = "OK") = ok := by
        rw [Bool.eq_iff_iff, decide_eq_true_iff, hok]
      rw [hsame]
  · rw [if_pos hfirst]
    constructor
    · intro h
      cases h
    · intro h
      exact absurd (by simpa using h.prefixed) hfirst

/-- What the module says of a line: it returns what the grammar reads there, and
raises its own error where the grammar reads nothing. -/
def FollowsGrammar (py : Builtins) (line : String) : Prop :=
  (∀ out, parse_control_line py line = .ok out ↔ Reads line out) ∧
    ((¬ ∃ out, Reads line out) →
      ∃ text, parse_control_line py line = .error (.ControlProtocolError text))

/-- **The parser follows the grammar** on every line except one that is not empty,
is all space, and has neither a line feed nor a return. -/
theorem followsGrammar_iff (py : Builtins) (line : String) :
    FollowsGrammar py line ↔
      line = "" ∨ LINE_FEED ∈ line.toList ∨ RETURN ∈ line.toList ∨
        ∃ c ∈ line.toList, isSpace c = false := by
  by_cases hline : line = "" ∨ LINE_FEED ∈ line.toList ∨ RETURN ∈ line.toList
  · -- refused at the first check, and outside the grammar
    have hparse : parse_control_line py line =
        .error (.ControlProtocolError "invalid BLE-control response line") := by
      unfold parse_control_line
      rw [if_pos hline]
    have hreads : ∀ out, ¬ Reads line out := by
      intro out h
      rcases hline with hempty | hfeed | hreturn
      · exact h.nonempty hempty
      · exact h.no_feed hfeed
      · exact h.no_return hreturn
    refine iff_of_true ⟨fun out => ?_, fun _ => ⟨_, hparse⟩⟩ ?_
    · rw [hparse]
      exact iff_of_false (fun h => by cases h) (hreads out)
    · rcases hline with hempty | hfeed | hreturn
      · exact .inl hempty
      · exact .inr (.inl hfeed)
      · exact .inr (.inr (.inl hreturn))
  · rcases hfields : fieldsOf line with _ | ⟨first, fields⟩
    · -- all of the line is space: there is nothing at index 0
      have hspace := (fieldsOf_eq_nil line).mp hfields
      have hparse : parse_control_line py line = .error (.IndexError "list index out of range") := by
        unfold parse_control_line
        rw [if_neg hline, hfields]
      refine iff_of_false ?_ ?_
      · rintro ⟨-, herror⟩
        obtain ⟨text, htext⟩ := herror (by
          rintro ⟨out, hout⟩
          obtain ⟨first, fields, hcons, -⟩ := hout.fields
          rw [hfields] at hcons
          cases hcons)
        rw [hparse] at htext
        cases htext
      · rintro (hempty | hfeed | hreturn | ⟨c, hc, hnot⟩)
        · exact hline (.inl hempty)
        · exact hline (.inr (.inl hfeed))
        · exact hline (.inr (.inr hreturn))
        · rw [hspace c hc] at hnot
          cases hnot
    · have hok := parse_control_line_fields py hline hfields
      have hreads : ∀ out, ReadsFields first fields out ↔ Reads line out := by
        intro out
        constructor
        · intro h
          exact ⟨fun he => hline (.inl he), fun he => hline (.inr (.inl he)),
            fun he => hline (.inr (.inr he)), first, fields, hfields, h⟩
        · intro h
          obtain ⟨first', fields', hcons, h⟩ := h.fields
          rw [hfields] at hcons
          injection hcons with hfirst hrest
          subst hfirst hrest
          exact h
      refine iff_of_true ⟨fun out => (hok out).trans (hreads out), ?_⟩ (.inr (.inr (.inr ?_)))
      · intro hnone
        rcases hparse : parse_control_line py line with e | out
        · -- the only other error is that of a line without a field
          unfold parse_control_line at hparse
          rw [if_neg hline, hfields] at hparse
          dsimp only at hparse
          by_cases hfirst : first ∉ ["OK", "ERR"]
          · rw [if_pos hfirst] at hparse
            injection hparse with hparse
            exact ⟨_, congrArg _ hparse.symm⟩
          · rw [if_neg hfirst] at hparse
            rcases hloop : parseFields py fields [] [] with e' | ⟨message, values⟩
            · rw [hloop] at hparse
              injection hparse with hparse
              subst hparse
              obtain ⟨text, rfl⟩ := parseFields_error fields hloop
              exact ⟨text, rfl⟩
            · rw [hloop] at hparse
              cases hparse
        · exact absurd ⟨out, (hreads out).mp ((hok out).mp hparse)⟩ hnone
      · by_contra hall
        have hspace : ∀ c ∈ line.toList, isSpace c = true := by
          intro c hc
          by_contra hnot
          exact hall ⟨c, hc, by simpa using hnot⟩
        rw [(fieldsOf_eq_nil line).mpr hspace] at hfields
        cases hfields

/-- One space: nothing is read, and what comes out is no error of the module's. -/
theorem grammar_left_at_a_space : ∃ line, ∀ py : Builtins, ¬ FollowsGrammar py line ∧
    parse_control_line py line = .error (.IndexError "list index out of range") := by
  refine ⟨" ", fun py => ?_⟩
  have hparse : parse_control_line py " " = .error (.IndexError "list index out of range") := rfl
  refine ⟨?_, hparse⟩
  rintro ⟨-, herror⟩
  obtain ⟨text, htext⟩ := herror (by
    rintro ⟨out, hout⟩
    obtain ⟨first, fields, hcons, -⟩ := hout.fields
    have hnone : fieldsOf " " = [] := rfl
    rw [hnone] at hcons
    cases hcons)
  rw [hparse] at htext
  cases htext

end Ptlab.Control
