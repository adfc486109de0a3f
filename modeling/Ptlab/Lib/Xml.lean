/-
XML elements: how `xml.etree.ElementTree` writes them, and a reader.

An element has its text in front of its children, and each child the text behind it, its
tail. Texts and attribute values are written with their markup characters escaped; an
escaped value has no line ends in it, an escaped text has those of the text, and a reader
takes any of them for a line feed. `read_document` says what is read of a document that
was written, whatever its texts hold: nothing at all, if there is a character that XML
does not have, and otherwise the element with the line ends of its texts made equal.
-/
import Ptlab.Lib.Lines

set_option autoImplicit false

namespace Xml

/-! ## Characters -/

/-- The characters of XML 1.0. -/
def IsChar (c : Char) : Prop :=
  c ∈ ['\t', '\n', '\r'] ∨ 0x20 ≤ c.toNat ∧ c.toNat ≠ 0xFFFE ∧ c.toNat ≠ 0xFFFF

instance : DecidablePred IsChar := fun _ => inferInstanceAs (Decidable (_ ∨ _))

/-- The characters of names, as far as they are used here. -/
def IsNameChar (c : Char) : Bool := c.isAlphanum || c = '_' || c = '-'

structure Name where
  text : List Char
  nonempty : text ≠ []
  valid : text.all IsNameChar = true
  deriving DecidableEq

/-! ## Elements -/

inductive Element where
  | mk (tag : Name) (attributes : List (Name × List Char)) (text : List Char)
    (children : List Element) (tail : List Char)

namespace Element

def tag : Element → Name
  | mk tag _ _ _ _ => tag

def attributes : Element → List (Name × List Char)
  | mk _ attributes _ _ _ => attributes

def text : Element → List Char
  | mk _ _ text _ _ => text

def children : Element → List Element
  | mk _ _ _ children _ => children

def tail : Element → List Char
  | mk _ _ _ _ tail => tail

def withTail (tail : List Char) : Element → Element
  | mk tag attributes text children _ => mk tag attributes text children tail

end Element

/-! ## Writing -/

/-- `_escape_cdata`, of a character. -/
def escapeText (c : Char) : List Char :=
  if c = '&' then ['&', 'a', 'm', 'p', ';']
  else if c = '<' then ['&', 'l', 't', ';']
  else if c = '>' then ['&', 'g', 't', ';']
  else [c]

/-- `_escape_attrib`, of a character. -/
def escapeValue (c : Char) : List Char :=
  if c = '&' then ['&', 'a', 'm', 'p', ';']
  else if c = '<' then ['&', 'l', 't', ';']
  else if c = '>' then ['&', 'g', 't', ';']
  else if c = '"' then ['&', 'q', 'u', 'o', 't', ';']
  else if c = '\r' then ['&', '#', '1', '3', ';']
  else if c = '\n' then ['&', '#', '1', '0', ';']
  else if c = '\t' then ['&', '#', '0', '9', ';']
  else [c]

def writeAttribute (entry : Name × List Char) : List Char :=
  ' ' :: (entry.1.text ++ '=' :: '"' :: (entry.2.flatMap escapeValue ++ ['"']))

mutual

/-- `_serialize_xml`, up to the tail. -/
def writeElement : Element → List Char
  | .mk tag attributes text children _ =>
    '<' :: (tag.text ++ attributes.flatMap writeAttribute ++
      if text = [] ∧ children.isEmpty then [' ', '/', '>']
      else '>' :: (text.flatMap escapeText ++ writeAll children ++
        '<' :: '/' :: (tag.text ++ ['>'])))

/-- The children, each with its tail. -/
def writeAll : List Element → List Char
  | [] => []
  | e :: es => writeElement e ++ e.tail.flatMap escapeText ++ writeAll es

end

/-- The first line of a document. -/
def declaration : List Char := "<?xml version='1.0' encoding='utf-8'?>\n".toList

/-- `ElementTree.write`, with a declaration. -/
def document (root : Element) : List Char := declaration ++ writeElement root

/-! ## Reading -/

/-- Character data up to a character that ends it. -/
def readData (stop : Char → Bool) (plain : Char → Option Char) :
    List Char → Option (List Char × List Char)
  | [] => some ([], [])
  | '&' :: 'a' :: 'm' :: 'p' :: ';' :: t =>
    (readData stop plain t).map fun p => ('&' :: p.1, p.2)
  | '&' :: 'l' :: 't' :: ';' :: t => (readData stop plain t).map fun p => ('<' :: p.1, p.2)
  | '&' :: 'g' :: 't' :: ';' :: t => (readData stop plain t).map fun p => ('>' :: p.1, p.2)
  | '&' :: 'q' :: 'u' :: 'o' :: 't' :: ';' :: t =>
    (readData stop plain t).map fun p => ('"' :: p.1, p.2)
  | '&' :: '#' :: '1' :: '3' :: ';' :: t =>
    (readData stop plain t).map fun p => ('\r' :: p.1, p.2)
  | '&' :: '#' :: '1' :: '0' :: ';' :: t =>
    (readData stop plain t).map fun p => ('\n' :: p.1, p.2)
  | '&' :: '#' :: '0' :: '9' :: ';' :: t =>
    (readData stop plain t).map fun p => ('\t' :: p.1, p.2)
  | c :: t =>
    if stop c then some ([], c :: t)
    else match plain c with
      | none => none
      | some d => (readData stop plain t).map fun p => (d :: p.1, p.2)

/-- A character of a text. -/
def plainText (c : Char) : Option Char := if c ≠ '&' ∧ IsChar c then some c else none

/-- A character of an attribute value: white space is read as a space. -/
def plainValue (c : Char) : Option Char :=
  if c ∈ ['\t', '\n', '\r'] then some ' '
  else if c ≠ '&' ∧ c ≠ '<' ∧ IsChar c then some c
  else none

def readText : List Char → Option (List Char × List Char) := readData (· = '<') plainText

def readValue : List Char → Option (List Char × List Char) := readData (· = '"') plainValue

def readName (t : List Char) : Option (Name × List Char) :=
  if h : t.takeWhile IsNameChar ≠ [] then
    some (⟨t.takeWhile IsNameChar, h, List.all_takeWhile⟩, t.dropWhile IsNameChar)
  else none

/-- The attributes of a tag. -/
def readAttributes : ℕ → List Char → Option (List (Name × List Char) × List Char)
  | 0, _ => none
  | fuel + 1, t =>
    match t with
    | ' ' :: '/' :: t => some ([], ' ' :: '/' :: t)
    | ' ' :: t => do
      let (name, t) ← readName t
      match t with
      | '=' :: '"' :: t => do
        let (value, t) ← readValue t
        match t with
        | '"' :: t => do
          let (attributes, t) ← readAttributes fuel t
          some ((name, value) :: attributes, t)
        | _ => none
      | _ => none
    | t => some ([], t)

/-- The end tag of an element. -/
def readEnd (tag : Name) (t : List Char) : Option (List Char) :=
  match t with
  | '<' :: '/' :: t => do
    let (name, t) ← readName t
    match t with
    | '>' :: t => if name = tag then some t else none
    | _ => none
  | _ => none

mutual

/-- An element without its tail. -/
def readElement : ℕ → List Char → Option (Element × List Char)
  | 0, _ => none
  | fuel + 1, t =>
    match t with
    | '<' :: t => do
      let (tag, t) ← readName t
      let (attributes, t) ← readAttributes fuel t
      match t with
      | ' ' :: '/' :: '>' :: t => some (.mk tag attributes [] [] [], t)
      | '>' :: t => do
        let (text, t) ← readText t
        let (children, t) ← readAll fuel t
        let t ← readEnd tag t
        some (.mk tag attributes text children [], t)
      | _ => none
    | _ => none

/-- Elements with their tails, up to an end tag. -/
def readAll : ℕ → List Char → Option (List Element × List Char)
  | 0, _ => none
  | fuel + 1, t =>
    match t with
    | '<' :: '/' :: t => some ([], '<' :: '/' :: t)
    | t => do
      let (e, t) ← readElement fuel t
      let (tail, t) ← readText t
      let (es, t) ← readAll fuel t
      some (e.withTail tail :: es, t)

end

/-- A document: its line ends are made equal first. -/
def read (text : List Char) : Option Element :=
  let t := Lines.universal '\r' '\n' false text
  if declaration <+: t then
    match readElement (t.length + 1) (t.drop declaration.length) with
    | some (root, []) => some root
    | _ => none
  else none

/-! ## Character data -/

/-- What of a text can be read. -/
def Valid (text : List Char) : Prop := ∀ c ∈ text, IsChar c

instance : DecidablePred Valid := fun text =>
  decidable_of_iff (text.all (IsChar ·) = true) <| List.all_eq_true.trans <|
    forall_congr' fun _ => imp_congr_right fun _ => decide_eq_true_iff

theorem valid_nil : Valid [] := fun _ h => absurd h List.not_mem_nil

section Data

variable {stop : Char → Bool} {plain : Char → Option Char} {escape : Char → List Char}

/-- Data is read back character by character. -/
structure ReadsBack (stop : Char → Bool) (plain : Char → Option Char) (escape : Char → List Char) :
    Prop where
  valid : ∀ c, IsChar c → ∀ t, readData stop plain (escape c ++ t) =
    (readData stop plain t).map fun p => (c :: p.1, p.2)
  invalid : ∀ c, ¬ IsChar c → ∀ t, readData stop plain (escape c ++ t) = none

/-- A character that stands for itself, or for none. -/
theorem readData_plain {c : Char} (hamp : c ≠ '&') (hstop : stop c = false) (t : List Char) :
    readData stop plain (c :: t) = match plain c with
      | none => none
      | some d => (readData stop plain t).map fun p => (d :: p.1, p.2) := by
  rw [readData.eq_def]
  split
  all_goals first
    | next h => exact absurd (List.cons.inj h).1 hamp
    | next h => cases h
    | skip
  next h =>
    obtain ⟨rfl, rfl⟩ := List.cons.inj h
    rw [hstop, if_neg Bool.false_ne_true]

/-- The character that ends the data. -/
theorem readData_stop {c : Char} (hamp : c ≠ '&') (hstop : stop c = true) (t : List Char) :
    readData stop plain (c :: t) = some ([], c :: t) := by
  rw [readData.eq_def]
  split
  all_goals first
    | next h => exact absurd (List.cons.inj h).1 hamp
    | next h => cases h
    | skip
  next h =>
    obtain ⟨rfl, rfl⟩ := List.cons.inj h
    rw [if_pos hstop]

/-- **A text is read back**, up to the character that ends it, if all of it is valid. -/
theorem readData_flatMap (h : ReadsBack stop plain escape) {c : Char} (hamp : c ≠ '&')
    (hstop : stop c = true) (t text : List Char) :
    readData stop plain (text.flatMap escape ++ c :: t) =
      if Valid text then some (text, c :: t) else none := by
  induction text with
  | nil => exact (readData_stop hamp hstop t).trans (if_pos valid_nil).symm
  | cons d text ih =>
      rw [List.flatMap_cons, List.append_assoc]
      by_cases hd : IsChar d
      · rw [h.valid d hd, ih]
        have hvalid : Valid (d :: text) ↔ Valid text :=
          List.forall_mem_cons.trans (and_iff_right hd)
        simp only [hvalid]
        split_ifs <;> rfl
      · have hinvalid : ¬ Valid (d :: text) := fun hvalid => hd (hvalid d (List.mem_cons_self ..))
        rw [h.invalid d hd, if_neg hinvalid]

end Data

theorem readsBack_text : ReadsBack (· = '<') plainText escapeText := by
  constructor
  · intro c hc t
    unfold escapeText
    split_ifs with hamp hlt hgt
    · subst hamp; rw [List.cons_append]; rfl
    · subst hlt; rfl
    · subst hgt; rfl
    · rw [List.singleton_append, readData_plain hamp (decide_eq_false hlt), plainText,
        if_pos ⟨hamp, hc⟩]
  · intro c hc t
    have hne : ∀ d, IsChar d → c ≠ d := fun d hd heq => hc (heq ▸ hd)
    unfold escapeText
    rw [if_neg (hne _ (by decide)), if_neg (hne _ (by decide)), if_neg (hne _ (by decide)),
      List.singleton_append, readData_plain (hne _ (by decide)) (decide_eq_false (hne _ (by decide))),
      plainText, if_neg fun h => hc h.2]

theorem readsBack_value : ReadsBack (· = '"') plainValue escapeValue := by
  constructor
  · intro c hc t
    unfold escapeValue
    split_ifs with hamp hlt hgt hquote hreturn hfeed htab
    · subst hamp; rfl
    · subst hlt; rfl
    · subst hgt; rfl
    · subst hquote; rfl
    · subst hreturn; rfl
    · subst hfeed; rfl
    · subst htab; rfl
    · have hspace : c ∉ ['\t', '\n', '\r'] := by
        simp only [List.mem_cons, List.not_mem_nil, or_false, not_or]
        exact ⟨htab, hfeed, hreturn⟩
      rw [List.singleton_append, readData_plain hamp (decide_eq_false hquote), plainValue,
        if_neg hspace, if_pos ⟨hamp, hlt, hc⟩]
  · intro c hc t
    have hne : ∀ d, IsChar d → c ≠ d := fun d hd heq => hc (heq ▸ hd)
    have hspace : c ∉ ['\t', '\n', '\r'] := fun hmem => hc (.inl hmem)
    unfold escapeValue
    rw [if_neg (hne _ (by decide)), if_neg (hne _ (by decide)), if_neg (hne _ (by decide)),
      if_neg (hne _ (by decide)), if_neg (hne _ (by decide)), if_neg (hne _ (by decide)),
      if_neg (hne _ (by decide)), List.singleton_append,
      readData_plain (hne _ (by decide)) (decide_eq_false (hne _ (by decide))), plainValue,
      if_neg hspace, if_neg fun h => hc h.2.2]

theorem readText_flatMap (text t : List Char) :
    readText (text.flatMap escapeText ++ '<' :: t) =
      if Valid text then some (text, '<' :: t) else none :=
  readData_flatMap readsBack_text (by decide) rfl t text

theorem readValue_flatMap (value t : List Char) :
    readValue (value.flatMap escapeValue ++ '"' :: t) =
      if Valid value then some (value, '"' :: t) else none :=
  readData_flatMap readsBack_value (by decide) rfl t value

/-! ## Tags -/

theorem readName_append (name : Name) {c : Char} (hc : IsNameChar c = false) (t : List Char) :
    readName (name.text ++ c :: t) = some (name, c :: t) := by
  have hname : ∀ d ∈ name.text, IsNameChar d = true := List.all_eq_true.mp name.valid
  have htake : (name.text ++ c :: t).takeWhile IsNameChar = name.text := by
    rw [List.takeWhile_append_of_pos hname, List.takeWhile_cons_of_neg (by rw [hc]; decide),
      List.append_nil]
  have hdrop : (name.text ++ c :: t).dropWhile IsNameChar = c :: t := by
    rw [List.dropWhile_append_of_pos hname, List.dropWhile_cons_of_neg (by rw [hc]; decide)]
  unfold readName
  simp only [htake, hdrop]
  rw [dif_pos name.nonempty]

theorem Name.head (name : Name) : ∃ c t, name.text = c :: t ∧ IsNameChar c = true := by
  obtain ⟨c, t, ht⟩ := List.exists_cons_of_ne_nil name.nonempty
  refine ⟨c, t, ht, List.all_eq_true.mp name.valid c ?_⟩
  rw [ht]
  exact List.mem_cons_self ..

/-- The values of some attributes. -/
def ValidAll (attributes : List (Name × List Char)) : Prop := ∀ entry ∈ attributes, Valid entry.2

instance : DecidablePred ValidAll := fun attributes =>
  decidable_of_iff (attributes.all (fun entry => decide (Valid entry.2)) = true) <|
    List.all_eq_true.trans <| forall_congr' fun _ => imp_congr_right fun _ => decide_eq_true_iff

/-- What may stand behind the attributes of a tag. -/
def EndsTag (t : List Char) : Prop := t.head? = some '>' ∨ ∃ u, t = ' ' :: '/' :: u

theorem readAttributes_end (fuel : ℕ) {t : List Char} (ht : EndsTag t) :
    readAttributes (fuel + 1) t = some ([], t) := by
  rcases ht with ht | ⟨u, rfl⟩
  · cases t with
    | nil => cases ht
    | cons c t =>
        obtain rfl := Option.some.inj ht
        rfl
  · rfl

/-- **The attributes** are read back if their values are valid. -/
theorem readAttributes_flatMap (attributes : List (Name × List Char)) : ∀ (fuel : ℕ) {t : List Char},
    attributes.length ≤ fuel → EndsTag t →
    readAttributes (fuel + 1) (attributes.flatMap writeAttribute ++ t) =
      if ValidAll attributes then some (attributes, t) else none := by
  induction attributes with
  | nil =>
      intro fuel t _ ht
      exact (readAttributes_end fuel ht).trans (if_pos fun _ h => absurd h List.not_mem_nil).symm
  | cons entry attributes ih =>
      intro fuel t hlen ht
      obtain ⟨fuel, rfl⟩ : ∃ k, fuel = k + 1 :=
        ⟨fuel - 1, by rw [List.length_cons] at hlen; omega⟩
      obtain ⟨name, value⟩ := entry
      obtain ⟨c, u, hu, hc⟩ := name.head
      have hslash : c ≠ '/' := by
        rintro rfl
        exact absurd hc (by decide)
      have hname := readName_append name (c := '=') (by decide)
        ('"' :: (value.flatMap escapeValue ++ '"' :: (attributes.flatMap writeAttribute ++ t)))
      have hvalue := readValue_flatMap value (attributes.flatMap writeAttribute ++ t)
      have hrest := ih fuel (Nat.le_of_succ_le_succ hlen) ht
      have htext : ((name, value) :: attributes).flatMap writeAttribute ++ t =
          ' ' :: (name.text ++ '=' :: '"' :: (value.flatMap escapeValue ++
            '"' :: (attributes.flatMap writeAttribute ++ t))) := by
        simp only [List.flatMap_cons, writeAttribute, List.cons_append, List.append_assoc,
          List.nil_append]
      have hvalid : ValidAll ((name, value) :: attributes) ↔ Valid value ∧ ValidAll attributes :=
        List.forall_mem_cons
      rw [htext, readAttributes]
      · rw [hname]
        change (readValue _).bind _ = _
        rw [hvalue]
        by_cases hv : Valid value
        · rw [if_pos hv]
          change (readAttributes _ _).bind _ = _
          rw [hrest]
          simp only [hvalid, hv, true_and]
          split_ifs <;> rfl
        · rw [if_neg hv, if_neg fun h => hv (hvalid.mp h).1]
          rfl
      · rw [hu]
        rintro v heq
        exact hslash (List.cons.inj heq).1

/-! ## Elements read -/

mutual

/-- Whether all of an element, up to its tail, can be read. -/
def Element.valid : Element → Bool
  | .mk _ attributes text children _ =>
    decide (ValidAll attributes) && decide (Valid text) && validChildren children

/-- The same of its children, with their tails. -/
def validChildren : List Element → Bool
  | [] => true
  | e :: es => e.valid && decide (Valid e.tail) && validChildren es

end

theorem writeElement_head (e : Element) : ∃ c t, writeElement e = '<' :: c :: t ∧ c ≠ '/' := by
  obtain ⟨tag, attributes, text, children, tail⟩ := e
  obtain ⟨c, u, hu, hc⟩ := tag.head
  refine ⟨c, _, by rw [writeElement, hu]; rfl, ?_⟩
  rintro rfl
  exact absurd hc (by decide)

/-- Children are followed by a tag. -/
theorem writeAll_head (es : List Element) (t : List Char) :
    ∃ u, writeAll es ++ '<' :: t = '<' :: u := by
  cases es with
  | nil => exact ⟨t, rfl⟩
  | cons e es =>
      obtain ⟨c, u, hu, -⟩ := writeElement_head e
      exact ⟨_, by rw [writeAll, hu]; rfl⟩

theorem readEnd_append (tag : Name) (t : List Char) :
    readEnd tag ('<' :: '/' :: (tag.text ++ '>' :: t)) = some t := by
  have hname := readName_append tag (c := '>') (by decide) t
  change (readName _).bind _ = _
  rw [hname]
  exact if_pos rfl

/-- The tag that starts an element, and what stands behind its attributes. -/
theorem readElement_start (tag : Name) {attributes : List (Name × List Char)} {fuel : ℕ}
    {t : List Char} (hlen : attributes.length ≤ fuel) (ht : EndsTag t) :
    readElement (fuel + 2) ('<' :: (tag.text ++ (attributes.flatMap writeAttribute ++ t))) =
      if ValidAll attributes then
        match t with
        | ' ' :: '/' :: '>' :: t => some (.mk tag attributes [] [] [], t)
        | '>' :: t => do
          let (text, t) ← readText t
          let (children, t) ← readAll (fuel + 1) t
          let t ← readEnd tag t
          some (.mk tag attributes text children [], t)
        | _ => none
      else none := by
  have hnext : ∃ c u, attributes.flatMap writeAttribute ++ t = c :: u ∧ IsNameChar c = false := by
    cases attributes with
    | nil =>
        rcases ht with ht | ⟨u, rfl⟩
        · cases t with
          | nil => cases ht
          | cons c t =>
              obtain rfl := Option.some.inj ht
              exact ⟨_, t, rfl, by decide⟩
        · exact ⟨_, _, rfl, by decide⟩
    | cons entry attributes => exact ⟨_, _, rfl, by decide⟩
  obtain ⟨c, u, hu, hc⟩ := hnext
  have hname := readName_append tag hc u
  have hattributes := readAttributes_flatMap attributes fuel hlen ht
  rw [hu] at hattributes ⊢
  rw [readElement, hname]
  change (readAttributes _ _).bind _ = _
  rw [hattributes]
  split_ifs <;> rfl

theorem writeAttribute_length (attributes : List (Name × List Char)) :
    attributes.length ≤ (attributes.flatMap writeAttribute).length := by
  induction attributes with
  | nil => exact Nat.le_refl 0
  | cons entry attributes ih =>
      rw [List.flatMap_cons, List.length_append, List.length_cons, writeAttribute, List.length_cons]
      omega

mutual

/-- **An element is read back**, if all of it is valid. The fuel goes down with the text. -/
theorem readElement_write (t : List Char) : ∀ (e : Element) (fuel : ℕ),
    (writeElement e).length ≤ fuel →
    readElement fuel (writeElement e ++ t) = if e.valid then some (e.withTail [], t) else none
  | .mk tag attributes text children tail, fuel, hlen => by
    have hattributes := writeAttribute_length attributes
    have hvalid : (Element.mk tag attributes text children tail).valid = true ↔
        ValidAll attributes ∧ Valid text ∧ validChildren children = true := by
      rw [Element.valid, Bool.and_eq_true, Bool.and_eq_true, decide_eq_true_iff, decide_eq_true_iff,
        and_assoc]
    rw [writeElement] at hlen ⊢
    by_cases hempty : text = [] ∧ children.isEmpty
    · -- nothing stands inside: the tag that starts it ends it
      obtain ⟨rfl, hchildren⟩ := hempty
      obtain rfl := List.isEmpty_iff.mp hchildren
      rw [if_pos ⟨rfl, hchildren⟩] at hlen ⊢
      simp only [List.length_cons, List.length_append] at hlen
      obtain ⟨fuel, rfl⟩ : ∃ k, fuel = k + 2 := ⟨fuel - 2, by omega⟩
      have hlong : attributes.length ≤ fuel := by omega
      have hstart := readElement_start tag (t := ' ' :: '/' :: '>' :: t) hlong (.inr ⟨_, rfl⟩)
      rw [List.cons_append, List.append_assoc, List.append_assoc]
      refine hstart.trans ?_
      by_cases hvalues : ValidAll attributes
      · rw [if_pos hvalues, if_pos (hvalid.mpr ⟨hvalues, valid_nil, rfl⟩)]
        rfl
      · rw [if_neg hvalues, if_neg fun h => hvalues (hvalid.mp h).1]
    · rw [if_neg hempty] at hlen ⊢
      simp only [List.length_cons, List.length_append] at hlen
      obtain ⟨fuel, rfl⟩ : ∃ k, fuel = k + 2 := ⟨fuel - 2, by omega⟩
      obtain ⟨v, hv⟩ := writeAll_head children ('/' :: (tag.text ++ '>' :: t))
      have hlong : attributes.length ≤ fuel := by omega
      have hstart := readElement_start tag (t := '>' :: (text.flatMap escapeText ++ '<' :: v)) hlong
        (.inl rfl)
      have htext := readText_flatMap text v
      have hchildren := readAll_write (tag.text ++ '>' :: t) children (fuel + 1) (by omega)
      have hend := readEnd_append tag t
      rw [List.cons_append, List.append_assoc, List.append_assoc, List.cons_append,
        List.append_assoc, List.append_assoc, List.cons_append, List.cons_append, List.append_assoc,
        List.singleton_append, hv]
      refine hstart.trans ?_
      rw [hv] at hchildren
      by_cases hvalues : ValidAll attributes
      · rw [if_pos hvalues]
        change (readText _).bind _ = _
        rw [htext]
        by_cases hvalidText : Valid text
        · rw [if_pos hvalidText]
          change (readAll _ _).bind _ = _
          rw [hchildren]
          by_cases hvalidChildren : validChildren children = true
          · rw [if_pos hvalidChildren, if_pos (hvalid.mpr ⟨hvalues, hvalidText, hvalidChildren⟩)]
            change (readEnd _ _).bind _ = _
            rw [hend]
            rfl
          · rw [if_neg hvalidChildren, if_neg fun h => hvalidChildren (hvalid.mp h).2.2]
            rfl
        · rw [if_neg hvalidText, if_neg fun h => hvalidText (hvalid.mp h).2.1]
          rfl
      · rw [if_neg hvalues, if_neg fun h => hvalues (hvalid.mp h).1]

/-- So are its children, up to the end tag. -/
theorem readAll_write (t : List Char) : ∀ (es : List Element) (fuel : ℕ),
    (writeAll es).length < fuel →
    readAll fuel (writeAll es ++ '<' :: '/' :: t) =
      if validChildren es then some (es, '<' :: '/' :: t) else none
  | [], fuel, hlen => by
    obtain ⟨fuel, rfl⟩ : ∃ k, fuel = k + 1 := ⟨fuel - 1, by omega⟩
    rfl
  | e :: es, fuel, hlen => by
    obtain ⟨fuel, rfl⟩ : ∃ k, fuel = k + 1 := ⟨fuel - 1, by omega⟩
    obtain ⟨c, u, hu, hc⟩ := writeElement_head e
    obtain ⟨v, hv⟩ := writeAll_head es ('/' :: t)
    simp only [writeAll, List.length_append] at hlen
    have hpos : 0 < (writeElement e).length := by rw [hu]; exact Nat.succ_pos _
    have hthis := readElement_write (e.tail.flatMap escapeText ++ '<' :: v) e fuel (by omega)
    have htail := readText_flatMap e.tail v
    have hrest := readAll_write t es fuel (by omega)
    have hvalid : validChildren (e :: es) = true ↔
        e.valid = true ∧ Valid e.tail ∧ validChildren es = true := by
      rw [validChildren, Bool.and_eq_true, Bool.and_eq_true, decide_eq_true_iff, and_assoc]
    rw [hv] at hrest
    rw [writeAll, List.append_assoc, List.append_assoc, hv]
    rw [hu] at hthis ⊢
    rw [readAll]
    · change (readElement _ _).bind _ = _
      rw [hthis]
      by_cases hvalidThis : e.valid = true
      · rw [if_pos hvalidThis]
        change (readText _).bind _ = _
        rw [htail]
        by_cases hvalidTail : Valid e.tail
        · rw [if_pos hvalidTail]
          change (readAll _ _).bind _ = _
          rw [hrest]
          by_cases hvalidRest : validChildren es = true
          · rw [if_pos hvalidRest, if_pos (hvalid.mpr ⟨hvalidThis, hvalidTail, hvalidRest⟩)]
            cases e
            rfl
          · rw [if_neg hvalidRest, if_neg fun h => hvalidRest (hvalid.mp h).2.2]
            rfl
        · rw [if_neg hvalidTail, if_neg fun h => hvalidTail (hvalid.mp h).2.1]
          rfl
      · rw [if_neg hvalidThis, if_neg fun h => hvalidThis (hvalid.mp h).1]
        rfl
    · rintro w heq
      exact hc (List.cons.inj (List.cons.inj heq).2).1

end

/-! ## Line ends -/

/-- A text with its line ends made equal. -/
def normalized (text : List Char) : List Char := Lines.universal '\r' '\n' false text

mutual

def Element.normalized : Element → Element
  | .mk tag attributes text children tail =>
    .mk tag attributes (Xml.normalized text) (normalizedAll children) (Xml.normalized tail)

def normalizedAll : List Element → List Element
  | [] => []
  | e :: es => e.normalized :: normalizedAll es

end

/-- What ends no line. -/
def Inline (text : List Char) : Prop := ∀ c ∈ text, c ≠ '\r' ∧ c ≠ '\n'

instance : DecidablePred Inline := fun text =>
  List.decidableBAll (fun c => c ≠ '\r' ∧ c ≠ '\n') text

theorem Inline.append {a b : List Char} (ha : Inline a) (hb : Inline b) : Inline (a ++ b) :=
  fun c hc => (List.mem_append.mp hc).elim (ha c) (hb c)

theorem Inline.cons {c : Char} {a : List Char} (hc : c ≠ '\r' ∧ c ≠ '\n') (ha : Inline a) :
    Inline (c :: a) :=
  List.forall_mem_cons.mpr ⟨hc, ha⟩

theorem inline_nil : Inline [] := fun _ h => absurd h List.not_mem_nil

theorem Name.inline (name : Name) : Inline name.text := by
  intro c hc
  have hvalid := List.all_eq_true.mp name.valid c hc
  constructor
  · rintro rfl
    exact absurd hvalid (by decide)
  · rintro rfl
    exact absurd hvalid (by decide)

theorem inline_escapeValue (c : Char) : Inline (escapeValue c) := by
  unfold escapeValue
  split_ifs with hamp hlt hgt hquote hreturn hfeed htab
  case neg => exact .cons ⟨hreturn, hfeed⟩ inline_nil
  all_goals decide

theorem inline_escapeText {c : Char} (hreturn : c ≠ '\r') (hfeed : c ≠ '\n') :
    Inline (escapeText c) := by
  unfold escapeText
  split_ifs
  case neg => exact .cons ⟨hreturn, hfeed⟩ inline_nil
  all_goals decide

theorem inline_attributes (attributes : List (Name × List Char)) :
    Inline (attributes.flatMap writeAttribute) := by
  intro c hc
  obtain ⟨entry, -, hc⟩ := List.mem_flatMap.mp hc
  have hvalue : Inline (entry.2.flatMap escapeValue) := by
    intro d hd
    obtain ⟨e, -, hd⟩ := List.mem_flatMap.mp hd
    exact inline_escapeValue e d hd
  have hentry : Inline (writeAttribute entry) :=
    .cons (by decide) <| entry.1.inline.append <| .cons (by decide) <| .cons (by decide) <|
      hvalue.append <| .cons (by decide) inline_nil
  exact hentry c hc

/-- **Escaping and making the line ends equal** are done in either order. -/
theorem universal_escapeText {c : Char} (hreturn : c ≠ '\r') (hfeed : c ≠ '\n')
    (t text : List Char) : ∀ afterReturn,
    Lines.universal '\r' '\n' afterReturn (text.flatMap escapeText ++ c :: t) =
      (Lines.universal '\r' '\n' afterReturn text).flatMap escapeText ++
        Lines.universal '\r' '\n' false (c :: t) := by
  induction text with
  | nil =>
      intro afterReturn
      rw [List.flatMap_nil, List.nil_append, Lines.universal_cons hreturn hfeed,
        Lines.universal_cons hreturn hfeed]
      rfl
  | cons d text ih =>
      intro afterReturn
      rw [List.flatMap_cons, List.append_assoc]
      by_cases hd : d = '\r'
      · subst hd
        exact congrArg ('\n' :: ·) (ih true)
      · by_cases hfeed : d = '\n'
        · subst hfeed
          cases afterReturn
          · exact congrArg ('\n' :: ·) (ih false)
          · exact ih false
        · -- nothing is remembered behind a character that stays
          obtain ⟨e, u, hu⟩ : ∃ e u, escapeText d = e :: u := by
            unfold escapeText
            split_ifs <;> exact ⟨_, _, rfl⟩
          have hinline := inline_escapeText hd hfeed
          rw [hu] at hinline
          have he := List.forall_mem_cons.mp hinline
          rw [hu, List.cons_append, Lines.universal_cons he.1.1 he.1.2, Lines.universal_plain he.2,
            ih, Lines.universal_cons hd hfeed, List.flatMap_cons, hu, List.cons_append,
            List.cons_append, List.append_assoc]

theorem normalized_eq_nil {text : List Char} : normalized text = [] ↔ text = [] := by
  cases text with
  | nil => exact Iff.rfl
  | cons c text =>
      refine iff_of_false ?_ (List.cons_ne_nil c text)
      unfold normalized Lines.universal
      by_cases hreturn : c = '\r'
      · rw [if_pos hreturn]
        exact List.cons_ne_nil _ _
      · rw [if_neg hreturn, if_neg fun h => Bool.false_ne_true h.2]
        exact List.cons_ne_nil _ _

theorem Element.normalized_tail (e : Element) : e.normalized.tail = Xml.normalized e.tail := by
  cases e
  rfl

theorem normalizedAll_isEmpty (es : List Element) : (normalizedAll es).isEmpty = es.isEmpty := by
  cases es <;> rfl

mutual

/-- **Writing and making the line ends equal** are done in either order, too. -/
theorem universal_writeElement (t : List Char) : ∀ e : Element,
    Lines.universal '\r' '\n' false (writeElement e ++ t) =
      writeElement e.normalized ++ Lines.universal '\r' '\n' false t
  | .mk tag attributes text children tail => by
    have hstart : Inline (tag.text ++ attributes.flatMap writeAttribute) :=
      tag.inline.append (inline_attributes attributes)
    have hend : Inline ('<' :: '/' :: (tag.text ++ ['>'])) :=
      .cons (by decide) <| .cons (by decide) <| tag.inline.append <| .cons (by decide) inline_nil
    have hbehind := Lines.universal_plain hend t
    have hempty : Inline [' ', '/', '>'] := by decide
    obtain ⟨v, hv⟩ := writeAll_head children ('/' :: (tag.text ++ ['>'] ++ t))
    have htext := universal_escapeText (c := '<') (by decide) (by decide) v text false
    have hchildren := universal_writeAll ('/' :: (tag.text ++ ['>'] ++ t)) children
    rw [List.cons_append, List.cons_append] at hbehind
    rw [← hv, hchildren, hbehind] at htext
    simp only [Element.normalized, writeElement, normalized_eq_nil, normalizedAll_isEmpty]
    rw [List.cons_append, List.append_assoc, Lines.universal_cons (by decide) (by decide),
      Lines.universal_plain hstart, List.cons_append, List.append_assoc (tag.text ++ _)]
    congr 2
    split_ifs
    · exact Lines.universal_plain hempty t
    · simp only [List.cons_append, List.append_assoc] at htext ⊢
      rw [Lines.universal_cons (by decide) (by decide), htext]
      rfl

/-- And so it is with all children, whatever tag comes behind them. -/
theorem universal_writeAll (t : List Char) : ∀ es : List Element,
    Lines.universal '\r' '\n' false (writeAll es ++ '<' :: t) =
      writeAll (normalizedAll es) ++ Lines.universal '\r' '\n' false ('<' :: t)
  | [] => rfl
  | e :: es => by
    obtain ⟨v, hv⟩ := writeAll_head es t
    have htail := universal_escapeText (c := '<') (by decide) (by decide) v e.tail false
    have hthis := universal_writeElement (e.tail.flatMap escapeText ++ '<' :: v) e
    have hrest := universal_writeAll t es
    rw [← hv, hrest] at htail
    rw [writeAll, List.append_assoc, List.append_assoc, hv, hthis, ← hv, htail, normalizedAll,
      writeAll, Element.normalized_tail, List.append_assoc, List.append_assoc]
    rfl

end

theorem valid_normalized (text : List Char) : Valid (normalized text) ↔ Valid text := by
  constructor
  · intro h c hc
    by_cases hends : c = '\r' ∨ c = '\n'
    · rcases hends with rfl | rfl
      · decide
      · decide
    · rw [not_or] at hends
      exact h c (Lines.mem_universal_of_mem hends.1 hends.2 text false hc)
  · intro h c hc
    rcases Lines.mem_universal text false hc with hc | rfl
    · exact h c hc
    · decide

mutual

theorem normalized_valid : ∀ e : Element, e.normalized.valid = e.valid
  | .mk tag attributes text children tail => by
    rw [Element.normalized, Element.valid, Element.valid, normalizedAll_valid children,
      decide_eq_decide.mpr (valid_normalized text)]

theorem normalizedAll_valid : ∀ es : List Element, validChildren (normalizedAll es) = validChildren es
  | [] => rfl
  | e :: es => by
    rw [normalizedAll, validChildren, validChildren, normalized_valid e, normalizedAll_valid es,
      Element.normalized_tail, decide_eq_decide.mpr (valid_normalized e.tail)]

end

/-! ## Documents -/

/-- **What is read of a document that was written**: its root with the line ends made equal, or
nothing if any character of it is invalid. -/
theorem read_document (root : Element) :
    read (document root) = if root.valid then some (root.normalized.withTail []) else none := by
  have hdeclaration : Lines.universal '\r' '\n' false (document root) =
      declaration ++ writeElement root.normalized := by
    have hroot := universal_writeElement [] root
    rw [List.append_nil] at hroot
    have hline : declaration = "<?xml version='1.0' encoding='utf-8'?>".toList ++ ['\n'] := rfl
    have hinline : Inline "<?xml version='1.0' encoding='utf-8'?>".toList := by decide
    rw [document, hline, List.append_assoc, Lines.universal_plain hinline, List.append_assoc]
    exact congrArg (fun t => _ ++ '\n' :: t) (hroot.trans (List.append_nil _))
  have hread := readElement_write [] root.normalized
    ((declaration ++ writeElement root.normalized).length + 1)
    (by rw [List.length_append]; omega)
  rw [List.append_nil, normalized_valid] at hread
  unfold read
  rw [hdeclaration]
  dsimp only
  rw [if_pos (List.prefix_append ..), List.drop_left, hread]
  cases root.valid <;> rfl

/-! ## Indentation -/

section Indent

variable (isSpace : Char → Bool)

/-- The line end and the indentation of a level. -/
def indentation (level : ℕ) : List Char := '\n' :: List.replicate (2 * level) ' '

/-- A text that is replaced if it is blank. -/
def lay (line text : List Char) : List Char := if text.all isSpace then line else text

mutual

/-- `indent`, with two spaces for a level. -/
def indent (level : ℕ) : Element → Element
  | .mk tag attributes text children tail =>
    .mk tag attributes
      (if children.isEmpty then text else lay isSpace (indentation (level + 1)) text)
      (indentAll level children) tail

/-- The children; behind the last one the level goes back. -/
def indentAll (level : ℕ) : List Element → List Element
  | [] => []
  | e :: es =>
    (indent (level + 1) e).withTail
      (lay isSpace (indentation (if es.isEmpty then level else level + 1)) e.tail) ::
        indentAll level es

end

mutual

/-- An element without its layout: the texts that stand between children. -/
def Element.content : Element → Element
  | .mk tag attributes text children _ =>
    .mk tag attributes (if children.isEmpty then text else []) (contentAll children) []

def contentAll : List Element → List Element
  | [] => []
  | e :: es => e.content :: contentAll es

end

theorem Element.withTail_content (e : Element) (tail : List Char) :
    (e.withTail tail).content = e.content := by
  cases e
  rw [withTail, content, content]

theorem indentAll_isEmpty (level : ℕ) (es : List Element) :
    (indentAll isSpace level es).isEmpty = es.isEmpty := by
  cases es <;> rfl

mutual

/-- Indentation is layout. -/
theorem indent_content : ∀ (e : Element) (level : ℕ), (indent isSpace level e).content = e.content
  | .mk tag attributes text children tail, level => by
    rw [indent, Element.content, Element.content, indentAll_content children level,
      indentAll_isEmpty]
    split_ifs <;> rfl

theorem indentAll_content : ∀ (es : List Element) (level : ℕ),
    contentAll (indentAll isSpace level es) = contentAll es
  | [], _ => rfl
  | e :: es, level => by
    rw [indentAll, contentAll, contentAll, Element.withTail_content, indent_content e,
      indentAll_content es]

end

mutual

theorem normalized_content : ∀ e : Element, e.normalized.content = e.content.normalized
  | .mk tag attributes text children tail => by
    rw [Element.normalized, Element.content, Element.content, Element.normalized,
      normalizedAll_content children, normalizedAll_isEmpty]
    split_ifs <;> rfl

theorem normalizedAll_content : ∀ es : List Element,
    contentAll (normalizedAll es) = normalizedAll (contentAll es)
  | [] => rfl
  | e :: es => by
    rw [normalizedAll, contentAll, contentAll, normalizedAll, normalized_content e,
      normalizedAll_content es]

end

theorem valid_indentation (level : ℕ) : Valid (indentation level) := by
  intro c hc
  rcases List.mem_cons.mp hc with rfl | hc
  · decide
  · rw [List.eq_of_mem_replicate hc]
    decide

/-- Where there is no text, there is a line end afterwards. -/
theorem valid_lay_nil (level : ℕ) : Valid (lay isSpace (indentation level) []) :=
  valid_indentation level

theorem Element.withTail_tail (e : Element) (tail : List Char) : (e.withTail tail).tail = tail := by
  cases e
  rfl

theorem Element.withTail_valid (e : Element) (tail : List Char) :
    (e.withTail tail).valid = e.valid := by
  cases e
  rw [withTail, valid, valid]

mutual

/-- **Indentation makes no difference to validity** where there was no layout before. -/
theorem indent_valid : ∀ (e : Element) (level : ℕ), e.content = e →
    (indent isSpace level e).valid = e.valid
  | .mk tag attributes text children tail, level, h => by
    simp only [Element.content, Element.mk.injEq, true_and] at h
    obtain ⟨htext, hchildren, -⟩ := h
    rw [indent, Element.valid, Element.valid, indentAll_valid children level hchildren]
    by_cases hempty : children.isEmpty
    · rw [if_pos hempty]
    · rw [if_neg hempty] at htext ⊢
      subst htext
      rw [decide_eq_decide.mpr (iff_of_true (valid_lay_nil isSpace (level + 1)) valid_nil)]

theorem indentAll_valid : ∀ (es : List Element) (level : ℕ), contentAll es = es →
    validChildren (indentAll isSpace level es) = validChildren es
  | [], _, _ => rfl
  | e :: es, level, h => by
    rw [contentAll, List.cons.injEq] at h
    have htail : e.tail = [] := by
      rw [← h.1]
      cases e
      rfl
    rw [indentAll, validChildren, validChildren, indentAll_valid es level h.2, Element.withTail_valid,
      indent_valid e _ h.1, htail, Element.withTail_tail,
      decide_eq_decide.mpr (iff_of_true (valid_lay_nil isSpace _) valid_nil)]

end

/-- **What is read of an element that was indented and written**, but for the layout: the element
with its line ends made equal, or nothing. -/
theorem read_indented {e : Element} (he : e.content = e) :
    (read (document (indent isSpace 0 e))).map Element.content =
      if e.valid then some e.normalized else none := by
  rw [read_document, indent_valid isSpace e 0 he]
  split_ifs
  · rw [Option.map_some, Element.withTail_content, normalized_content, indent_content, he]
  · rfl

end Indent

end Xml
