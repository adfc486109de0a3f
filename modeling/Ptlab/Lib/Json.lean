/-
JSON texts as a grammar over octets, and what is left of one that is cut off.

A derivation is what a strict reader accepts, the well-formedness of the UTF-8 in
its strings apart. Where a text can be cut is read off a scan that knows only
strings and brackets: every part of a text leaves the depth where it was and
never goes below it (`Derives.level`), so an object is back at depth zero at its
last octet and not before (`not_isText_of_cut`).
-/
import Mathlib.Data.Bool.AllAny
import Mathlib.Tactic

set_option autoImplicit false

namespace Json

def QUOTE : UInt8 := 0x22

def BACKSLASH : UInt8 := 0x5C

/-! ## The grammar -/

def IsSpace (b : UInt8) : Prop := b ∈ [0x20, 0x09, 0x0A, 0x0D]

instance : DecidablePred IsSpace := fun b => inferInstanceAs (Decidable (b ∈ _))

def IsDigit (b : UInt8) : Prop := 0x30 ≤ b ∧ b ≤ 0x39

def IsHexDigit (b : UInt8) : Prop :=
  IsDigit b ∨ (0x41 ≤ b ∧ b ≤ 0x46) ∨ (0x61 ≤ b ∧ b ≤ 0x66)

def IsDigits (t : List UInt8) : Prop := t ≠ [] ∧ ∀ b ∈ t, IsDigit b

/-- A number: sign, integer, fraction and exponent. -/
inductive IsNumber : List UInt8 → Prop
  | mk {sign int frac exp : List UInt8} (hsign : sign = [] ∨ sign = [0x2D])
      (hint : int = [0x30] ∨ (IsDigits int ∧ int.head? ≠ some 0x30))
      (hfrac : frac = [] ∨ ∃ ds, IsDigits ds ∧ frac = 0x2E :: ds)
      (hexp : exp = [] ∨ ∃ e s ds, (e = 0x65 ∨ e = 0x45) ∧ (s = [] ∨ s = [0x2B] ∨ s = [0x2D]) ∧
        IsDigits ds ∧ exp = e :: (s ++ ds)) :
      IsNumber (sign ++ int ++ frac ++ exp)

/-- What there are derivations of: the inside of a string, a value, and what stands
between the brackets of an array or an object that is not empty. -/
inductive Part where
  | chars
  | value
  | elements
  | members

inductive Derives : Part → List UInt8 → Prop
  | chars_nil : Derives .chars []
  | char {b : UInt8} {t : List UInt8} (hb : 0x20 ≤ b) (hquote : b ≠ QUOTE) (hback : b ≠ BACKSLASH)
      (ht : Derives .chars t) : Derives .chars ([b] ++ t)
  | escape {b : UInt8} {t : List UInt8}
      (hb : b ∈ [QUOTE, BACKSLASH, 0x2F, 0x62, 0x66, 0x6E, 0x72, 0x74])
      (ht : Derives .chars t) : Derives .chars ([BACKSLASH, b] ++ t)
  | unicode {hex t : List UInt8} (hlen : hex.length = 4) (hhex : ∀ b ∈ hex, IsHexDigit b)
      (ht : Derives .chars t) : Derives .chars ([BACKSLASH, 0x75] ++ hex ++ t)
  | null : Derives .value [0x6E, 0x75, 0x6C, 0x6C]
  | true : Derives .value [0x74, 0x72, 0x75, 0x65]
  | false : Derives .value [0x66, 0x61, 0x6C, 0x73, 0x65]
  | number {t : List UInt8} (ht : IsNumber t) : Derives .value t
  | string {t : List UInt8} (ht : Derives .chars t) : Derives .value ([QUOTE] ++ t ++ [QUOTE])
  | array_empty {s : List UInt8} (hs : ∀ b ∈ s, IsSpace b) : Derives .value ([0x5B] ++ s ++ [0x5D])
  | array {t : List UInt8} (ht : Derives .elements t) : Derives .value ([0x5B] ++ t ++ [0x5D])
  | object_empty {s : List UInt8} (hs : ∀ b ∈ s, IsSpace b) :
      Derives .value ([0x7B] ++ s ++ [0x7D])
  | object {t : List UInt8} (ht : Derives .members t) : Derives .value ([0x7B] ++ t ++ [0x7D])
  | element {s t s' : List UInt8} (hs : ∀ b ∈ s, IsSpace b) (ht : Derives .value t)
      (hs' : ∀ b ∈ s', IsSpace b) : Derives .elements (s ++ t ++ s')
  | elements {t u : List UInt8} (ht : Derives .elements t) (hu : Derives .elements u) :
      Derives .elements (t ++ [0x2C] ++ u)
  | member {s key u v t w : List UInt8} (hs : ∀ b ∈ s, IsSpace b) (hkey : Derives .chars key)
      (hu : ∀ b ∈ u, IsSpace b) (hv : ∀ b ∈ v, IsSpace b) (ht : Derives .value t)
      (hw : ∀ b ∈ w, IsSpace b) :
      Derives .members (s ++ ([QUOTE] ++ key ++ [QUOTE]) ++ u ++ [0x3A] ++ v ++ t ++ w)
  | members {t u : List UInt8} (ht : Derives .members t) (hu : Derives .members u) :
      Derives .members (t ++ [0x2C] ++ u)

/-- A text: a value with space around it. -/
def IsText (t : List UInt8) : Prop :=
  ∃ s v s', t = s ++ v ++ s' ∧ (∀ b ∈ s, IsSpace b) ∧ Derives .value v ∧ ∀ b ∈ s', IsSpace b

/-- The text of an object, without space around it. -/
def IsObject (t : List UInt8) : Prop :=
  ∃ inner, t = [0x7B] ++ inner ++ [0x7D] ∧ ((∀ b ∈ inner, IsSpace b) ∨ Derives .members inner)

/-! ## Writing objects -/

/-- The members of an object, from the texts of their keys and values, one to a line
behind `indent`, and `last` behind them all. -/
def writeMembers (indent last : List UInt8) : List (List UInt8 × List UInt8) → List UInt8
  | [] => last
  | [(key, value)] =>
    0x0A :: indent ++ ([QUOTE] ++ key ++ [QUOTE]) ++ [] ++ [0x3A] ++ [0x20] ++ value ++ last
  | (key, value) :: member :: members =>
    0x0A :: indent ++ ([QUOTE] ++ key ++ [QUOTE]) ++ [] ++ [0x3A] ++ [0x20] ++ value ++ [] ++
      [0x2C] ++ writeMembers indent last (member :: members)

/-- An object whose bracket at the end stands behind `outer`. -/
def writeObject (indent outer : List UInt8) (members : List (List UInt8 × List UInt8)) :
    List UInt8 :=
  [0x7B] ++ writeMembers indent (0x0A :: outer) members ++ [0x7D]

theorem derives_chars {t : List UInt8} (h : ∀ b ∈ t, 0x20 ≤ b ∧ b ≠ QUOTE ∧ b ≠ BACKSLASH) :
    Derives .chars t := by
  induction t with
  | nil => exact .chars_nil
  | cons b t ih =>
      rw [List.forall_mem_cons] at h
      exact .char h.1.1 h.1.2.1 h.1.2.2 (ih h.2)

theorem derives_digits {t : List UInt8} (h : IsDigits t) (hzero : t.head? ≠ some 0x30) :
    Derives .value t := by
  have hnumber := IsNumber.mk (.inl rfl) (.inr ⟨h, hzero⟩) (.inl rfl) (.inl rfl)
  rw [List.nil_append, List.append_nil, List.append_nil] at hnumber
  exact .number hnumber

theorem derives_writeMembers {indent last : List UInt8} (hindent : ∀ b ∈ indent, IsSpace b)
    (hlast : ∀ b ∈ last, IsSpace b) {members : List (List UInt8 × List UInt8)}
    (hne : members ≠ [])
    (h : ∀ member ∈ members, Derives .chars member.1 ∧ Derives .value member.2) :
    Derives .members (writeMembers indent last members) := by
  have hline : ∀ b ∈ 0x0A :: indent, IsSpace b := List.forall_mem_cons.mpr ⟨by decide, hindent⟩
  have hspace : ∀ b ∈ [(0x20 : UInt8)], IsSpace b := List.forall_mem_singleton.mpr (by decide)
  have hnone : ∀ b ∈ ([] : List UInt8), IsSpace b := fun b hb => absurd hb List.not_mem_nil
  induction members with
  | nil => exact absurd rfl hne
  | cons member members ih =>
      rw [List.forall_mem_cons] at h
      cases members with
      | nil => exact .member hline h.1.1 hnone hspace h.1.2 hlast
      | cons next members =>
          exact .members (.member hline h.1.1 hnone hspace h.1.2 hnone)
            (ih (List.cons_ne_nil _ _) h.2)

/-- What is written is an object. -/
theorem isObject_writeObject {indent outer : List UInt8} (hindent : ∀ b ∈ indent, IsSpace b)
    (houter : ∀ b ∈ outer, IsSpace b) {members : List (List UInt8 × List UInt8)}
    (h : ∀ member ∈ members, Derives .chars member.1 ∧ Derives .value member.2) :
    IsObject (writeObject indent outer members) := by
  have hlast : ∀ b ∈ 0x0A :: outer, IsSpace b := List.forall_mem_cons.mpr ⟨by decide, houter⟩
  refine ⟨_, rfl, ?_⟩
  cases members with
  | nil => exact .inl hlast
  | cons member members =>
      exact .inr (derives_writeMembers hindent hlast (List.cons_ne_nil _ _) h)

theorem IsObject.derives {t : List UInt8} (h : IsObject t) : Derives .value t := by
  obtain ⟨inner, rfl, hinner | hinner⟩ := h
  · exact .object_empty hinner
  · exact .object hinner

/-! ## The scan -/

inductive Mode where
  | outside
  | string
  | escaped
  deriving DecidableEq, Repr

/-- How many brackets are open, and whether a string is. -/
structure Scan where
  depth : ℕ
  mode : Mode
  deriving DecidableEq, Repr

def step (s : Scan) (b : UInt8) : Scan :=
  match s.mode with
  | .outside =>
    if b = QUOTE then { s with mode := .string }
    else if b = 0x7B ∨ b = 0x5B then { s with depth := s.depth + 1 }
    else if b = 0x7D ∨ b = 0x5D then { s with depth := s.depth - 1 }
    else s
  | .string =>
    if b = QUOTE then { s with mode := .outside }
    else if b = BACKSLASH then { s with mode := .escaped }
    else s
  | .escaped => { s with mode := .string }

def scan (s : Scan) (t : List UInt8) : Scan := t.foldl step s

theorem scan_append (s : Scan) (t u : List UInt8) : scan s (t ++ u) = scan (scan s t) u :=
  List.foldl_append

/-- From `m`, these octets come back to `m` at the same depth, and do not go below it
on the way. -/
structure Level (m : Mode) (t : List UInt8) : Prop where
  settled : ∀ d, scan ⟨d, m⟩ t = ⟨d, m⟩
  above : ∀ d p, p <+: t → d ≤ (scan ⟨d, m⟩ p).depth

/-- A prefix of two parts ends in the first one or behind it. -/
theorem prefix_append_cases {α : Type} {p t u : List α} (h : p <+: t ++ u) :
    p <+: t ∨ ∃ q, q <+: u ∧ p = t ++ q := by
  rcases List.prefix_or_prefix_of_prefix h (List.prefix_append t u) with hp | ⟨q, rfl⟩
  · exact .inl hp
  · exact .inr ⟨q, (List.prefix_append_right_inj t).mp h, rfl⟩

theorem level_nil (m : Mode) : Level m [] := by
  refine ⟨fun d => rfl, fun d p hp => ?_⟩
  rw [List.prefix_nil.mp hp]
  exact le_rfl

theorem Level.append {m : Mode} {t u : List UInt8} (ht : Level m t) (hu : Level m u) :
    Level m (t ++ u) := by
  refine ⟨fun d => by rw [scan_append, ht.settled, hu.settled], fun d p hp => ?_⟩
  -- a prefix ends in the opening byte, in the middle or in the closing byte
  rcases prefix_append_cases hp with hp | ⟨q, hq, rfl⟩
  · exact ht.above d p hp
  · rw [scan_append, ht.settled]
    exact hu.above d q hq

/-- An octet that leaves the scan as it is. -/
theorem level_singleton {m : Mode} {b : UInt8} (h : ∀ d, step ⟨d, m⟩ b = ⟨d, m⟩) :
    Level m [b] := by
  refine ⟨h, fun d p hp => ?_⟩
  rcases List.prefix_cons_iff.mp hp with rfl | ⟨q, rfl, hq⟩
  · exact le_rfl
  · rw [List.prefix_nil.mp hq]
    exact (congrArg Scan.depth (h d)).ge

theorem level_of_forall {m : Mode} {t : List UInt8}
    (h : ∀ b ∈ t, ∀ d, step ⟨d, m⟩ b = ⟨d, m⟩) : Level m t := by
  induction t with
  | nil => exact level_nil m
  | cons b t ih =>
      rw [List.forall_mem_cons] at h
      exact (level_singleton h.1).append (ih h.2)

/-- What a first and a last octet enclose, if they take the scan somewhere and back. -/
theorem level_enclosed {m m' : Mode} {first last : UInt8} {t : List UInt8} (n : ℕ)
    (hfirst : ∀ d, step ⟨d, m⟩ first = ⟨d + n, m'⟩) (ht : Level m' t)
    (hlast : ∀ d, step ⟨d + n, m'⟩ last = ⟨d, m⟩) : Level m ([first] ++ t ++ [last]) := by
  have hall : ∀ d, scan ⟨d, m⟩ ([first] ++ t) = ⟨d + n, m'⟩ := by
    intro d
    rw [scan_append]
    exact (congrArg (scan · t) (hfirst d)).trans (ht.settled _)
  refine ⟨fun d => ?_, fun d p hp => ?_⟩
  · rw [scan_append, hall]
    exact hlast d
  · rcases prefix_append_cases hp with hp | ⟨q, hq, rfl⟩
    · rcases List.prefix_cons_iff.mp hp with rfl | ⟨q, rfl, hq⟩
      · exact le_rfl
      · have hdepth : d + n ≤ (scan (step ⟨d, m⟩ first) q).depth := by
          rw [hfirst d]
          exact ht.above _ q hq
        exact (Nat.le_add_right d n).trans hdepth
    · rw [scan_append, hall]
      rcases List.prefix_cons_iff.mp hq with rfl | ⟨rest, rfl, hrest⟩
      · exact Nat.le_add_right d n
      · rw [List.prefix_nil.mp hrest]
        exact (congrArg Scan.depth (hlast d)).ge

/-! ## The parts of a text -/

/-- Neither a quote nor a bracket. -/
def Plain (b : UInt8) : Prop := b ∉ [QUOTE, 0x7B, 0x5B, 0x7D, 0x5D]

instance : DecidablePred Plain := fun b => inferInstanceAs (Decidable (b ∉ _))

theorem level_plain {t : List UInt8} (h : ∀ b ∈ t, Plain b) : Level .outside t := by
  refine level_of_forall fun b hb d => ?_
  have hplain := h b hb
  simp only [Plain, List.mem_cons, List.not_mem_nil, or_false, not_or] at hplain
  simp [step, hplain]

theorem plain_of_isSpace {b : UInt8} (h : IsSpace b) : Plain b := by
  simp only [IsSpace, List.mem_cons, List.not_mem_nil, or_false] at h
  rcases h with rfl | rfl | rfl | rfl <;> decide

theorem level_spaces {s : List UInt8} (h : ∀ b ∈ s, IsSpace b) : Level .outside s :=
  level_plain fun b hb => plain_of_isSpace (h b hb)

theorem plain_of_isDigit {b : UInt8} (h : IsDigit b) : Plain b := by
  simp only [Plain, List.mem_cons, List.not_mem_nil, or_false, not_or]
  refine ⟨?_, ?_, ?_, ?_, ?_⟩ <;> (rintro rfl; exact absurd h (by unfold IsDigit; decide))

theorem IsDigits.plain {t : List UInt8} (h : IsDigits t) : ∀ b ∈ t, Plain b :=
  fun b hb => plain_of_isDigit (h.2 b hb)

theorem IsNumber.plain {t : List UInt8} (h : IsNumber t) : ∀ b ∈ t, Plain b := by
  obtain ⟨hsign, hint, hfrac, hexp⟩ := h
  simp only [List.forall_mem_append]
  refine ⟨⟨⟨?_, ?_⟩, ?_⟩, ?_⟩
  · -- the four parts of a number in turn: sign, integer, fraction, exponent
    rcases hsign with rfl | rfl
    · exact fun b hb => absurd hb List.not_mem_nil
    · exact List.forall_mem_singleton.mpr (by decide)
  · rcases hint with rfl | ⟨hdigits, -⟩
    · exact List.forall_mem_singleton.mpr (by decide)
    · exact hdigits.plain
  · rcases hfrac with rfl | ⟨ds, hds, rfl⟩
    · exact fun b hb => absurd hb List.not_mem_nil
    · exact List.forall_mem_cons.mpr ⟨by decide, hds.plain⟩
  · rcases hexp with rfl | ⟨e, s, ds, he, hs, hds, rfl⟩
    · exact fun b hb => absurd hb List.not_mem_nil
    · rw [List.forall_mem_cons, List.forall_mem_append]
      refine ⟨?_, ?_, hds.plain⟩
      · rcases he with rfl | rfl <;> decide
      · rcases hs with rfl | rfl | rfl
        · exact fun b hb => absurd hb List.not_mem_nil
        · exact List.forall_mem_singleton.mpr (by decide)
        · exact List.forall_mem_singleton.mpr (by decide)

/-- An octet of a string that is neither its end nor the start of an escape. -/
theorem level_char {b : UInt8} (hquote : b ≠ QUOTE) (hback : b ≠ BACKSLASH) :
    Level .string [b] := by
  refine level_singleton fun d => ?_
  simp [step, hquote, hback]

theorem level_escape (b : UInt8) : Level .string [BACKSLASH, b] := by
  refine ⟨fun d => ?_, fun d p hp => ?_⟩
  · simp [scan, step, QUOTE, BACKSLASH]
  · rcases List.prefix_cons_iff.mp hp with rfl | ⟨q, rfl, hq⟩
    · exact le_rfl
    · rcases List.prefix_cons_iff.mp hq with rfl | ⟨rest, rfl, hrest⟩
      · simp [scan, step, QUOTE, BACKSLASH]
      · rw [List.prefix_nil.mp hrest]
        simp [scan, step, QUOTE, BACKSLASH]

theorem ne_of_isHexDigit {b : UInt8} (h : IsHexDigit b) : b ≠ QUOTE ∧ b ≠ BACKSLASH := by
  constructor <;> (rintro rfl; exact absurd h (by unfold IsHexDigit IsDigit; decide))

theorem level_hex {hex : List UInt8} (h : ∀ b ∈ hex, IsHexDigit b) : Level .string hex := by
  refine level_of_forall fun b hb d => ?_
  obtain ⟨hquote, hback⟩ := ne_of_isHexDigit (h b hb)
  simp [step, hquote, hback]

theorem level_quoted {t : List UInt8} (h : Level .string t) :
    Level .outside ([QUOTE] ++ t ++ [QUOTE]) :=
  level_enclosed 0 (fun d => by simp [step]) h fun d => by simp [step]

theorem level_brackets {t : List UInt8} (h : Level .outside t) :
    Level .outside ([0x5B] ++ t ++ [0x5D]) :=
  level_enclosed 1 (fun d => by simp [step, QUOTE]) h fun d => by simp [step, QUOTE]

theorem level_braces {t : List UInt8} (h : Level .outside t) :
    Level .outside ([0x7B] ++ t ++ [0x7D]) :=
  level_enclosed 1 (fun d => by simp [step, QUOTE]) h fun d => by simp [step, QUOTE]

def Part.mode : Part → Mode
  | .chars => .string
  | .value | .elements | .members => .outside

/-- **Every part is level.** -/
theorem Derives.level {part : Part} {t : List UInt8} (h : Derives part t) :
    Level part.mode t := by
  have hcomma : Level .outside [0x2C] := level_plain (List.forall_mem_singleton.mpr (by decide))
  -- on the derivation: strings stay inside the quotes, brackets add a level around a part
  induction h with
  | chars_nil => exact level_nil _
  | char _ hquote hback _ ih => exact (level_char hquote hback).append ih
  | escape _ _ ih => exact (level_escape _).append ih
  | unicode _ hhex _ ih => exact ((level_escape _).append (level_hex hhex)).append ih
  | null => exact level_plain (List.all_iff_forall_prop.mp (by decide))
  | true => exact level_plain (List.all_iff_forall_prop.mp (by decide))
  | false => exact level_plain (List.all_iff_forall_prop.mp (by decide))
  | number ht => exact level_plain ht.plain
  | string _ ih => exact level_quoted ih
  | array_empty hs => exact level_brackets (level_spaces hs)
  | array _ ih => exact level_brackets ih
  | object_empty hs => exact level_braces (level_spaces hs)
  | object _ ih => exact level_braces ih
  | element hs _ hs' ih => exact ((level_spaces hs).append ih).append (level_spaces hs')
  | elements _ _ iht ihu => exact (iht.append hcomma).append ihu
  | member hs _ hu hv _ hw ihkey iht =>
      have hcolon : Level .outside [0x3A] :=
        level_plain (List.forall_mem_singleton.mpr (by decide))
      have hfront := (((level_spaces hs).append (level_quoted ihkey)).append
        (level_spaces hu)).append hcolon
      exact ((hfront.append (level_spaces hv)).append iht).append (level_spaces hw)
  | members _ _ iht ihu => exact (iht.append hcomma).append ihu

theorem Derives.value_ne_nil {t : List UInt8} (h : Derives .value t) : t ≠ [] := by
  rintro rfl
  generalize hpart : Part.value = part at h
  generalize ht : ([] : List UInt8) = t at h
  cases h with
  | number hnumber =>
      obtain ⟨hsign, hint, hfrac, hexp⟩ := hnumber
      obtain ⟨hrest, -⟩ := List.append_eq_nil_iff.mp ht.symm
      obtain ⟨hfront, -⟩ := List.append_eq_nil_iff.mp hrest
      obtain ⟨-, rfl⟩ := List.append_eq_nil_iff.mp hfront
      rcases hint with h | ⟨h, -⟩
      · cases h
      · exact h.1 rfl
  | _ => first | exact Part.noConfusion hpart | simp at ht

/-! ## A text that is cut off -/

theorem IsText.level {t : List UInt8} (h : IsText t) : Level .outside t ∧ t ≠ [] := by
  obtain ⟨s, v, s', rfl, hs, hv, hs'⟩ := h
  refine ⟨((level_spaces hs).append hv.level).append (level_spaces hs'), fun hnil => ?_⟩
  obtain ⟨hfront, -⟩ := List.append_eq_nil_iff.mp hnil
  exact hv.value_ne_nil (List.append_eq_nil_iff.mp hfront).2

theorem IsObject.inner {t : List UInt8} (h : IsObject t) :
    ∃ inner, t = [0x7B] ++ inner ++ [0x7D] ∧ Level .outside inner := by
  obtain ⟨inner, rfl, hs | hmembers⟩ := h
  · exact ⟨inner, rfl, level_spaces hs⟩
  · exact ⟨inner, rfl, hmembers.level⟩

theorem IsObject.isText {t s : List UInt8} (h : IsObject t) (hs : ∀ b ∈ s, IsSpace b) :
    IsText (t ++ s) := by
  exact ⟨[], t, s, rfl, fun b hb => absurd hb List.not_mem_nil, h.derives, hs⟩

/-- **An object that is cut off is no text**, wherever it is cut. -/
theorem not_isText_of_cut {t p : List UInt8} (ht : IsObject t) (hp : p <+: t) (hcut : p ≠ t) :
    ¬ IsText p := by
  intro htext
  obtain ⟨hlevel, hne⟩ := htext.level
  obtain ⟨inner, rfl, hinner⟩ := ht.inner
  obtain ⟨b, q, rfl⟩ := List.exists_cons_of_ne_nil hne
  rcases prefix_append_cases hp with hp | ⟨rest, hrest, heq⟩
  · -- inside the braces: one of them is still open
    rw [List.singleton_append, List.cons_prefix_cons] at hp
    obtain ⟨rfl, hq⟩ := hp
    have hopen : 0 + 1 ≤ (scan ⟨0 + 1, .outside⟩ q).depth := hinner.above _ q hq
    have hclosed : scan ⟨0 + 1, .outside⟩ q = ⟨0, .outside⟩ := hlevel.settled 0
    rw [hclosed] at hopen
    exact absurd hopen (by decide)
  · rcases List.prefix_cons_iff.mp hrest with rfl | ⟨rest', rfl, hrest'⟩
    · rw [heq, List.append_nil] at hlevel
      have hclosed : scan ⟨0 + 1, .outside⟩ inner = ⟨0, .outside⟩ := hlevel.settled 0
      rw [hinner.settled] at hclosed
      cases hclosed
    · rw [List.prefix_nil.mp hrest'] at heq
      exact hcut heq

end Json
