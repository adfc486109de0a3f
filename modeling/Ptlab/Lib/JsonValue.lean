/-
JSON values: how they are written without space, and a reader of what is written.

A text is octets, as in the grammar: a string has its characters in UTF-8, and
escapes for quotes, backslashes and control characters alone. `read_write` is the
round trip. `derives_write` is the connection with the grammar, which is what
makes a text that is cut off no text. What is written has no control character in
it, so texts can stand on lines.
-/
import Mathlib.Data.List.TakeWhile
import Mathlib.Data.Nat.Digits.Lemmas
import Ptlab.Lib.Json
import Ptlab.Lib.Utf8

set_option autoImplicit false

namespace Json

/-! ## Numbers -/

instance : DecidablePred IsDigit := fun _ => inferInstanceAs (Decidable (_ ∧ _))

instance : DecidablePred IsDigits := fun t =>
  decidable_of_iff (t ≠ [] ∧ t.all (IsDigit ·) = true) <| and_congr_right fun _ =>
    List.all_eq_true.trans <| forall_congr' fun _ => imp_congr_right fun _ => decide_eq_true_iff

/-- What can be checked of the octets of a text. -/
theorem forall_of_all {p : UInt8 → Prop} [DecidablePred p] {t : List UInt8}
    (h : t.all (p ·) = true) : ∀ b ∈ t, p b := fun b hb =>
  of_decide_eq_true (List.all_eq_true.mp h b hb)

/-- An octet of numbers. -/
def IsNumeric (b : UInt8) : Prop := IsDigit b ∨ b ∈ [0x2B, 0x2D, 0x2E, 0x45, 0x65]

instance : DecidablePred IsNumeric := fun b => inferInstanceAs (Decidable (_ ∨ b ∈ _))

/-- What stands behind the sign. -/
def unsigned : List UInt8 → List UInt8
  | 0x2D :: t => t
  | t => t

/-- What stands behind the sign of an exponent. -/
def unsignedExponent : List UInt8 → List UInt8
  | 0x2B :: t => t
  | 0x2D :: t => t
  | t => t

/-- The exponent, which may be missing. -/
def checkExponent : List UInt8 → Bool
  | [] => true
  | e :: t => (e = 0x65 ∨ e = 0x45) ∧ IsDigits (unsignedExponent t)

/-- The fraction and the exponent. -/
def checkFraction : List UInt8 → Bool
  | 0x2E :: t => (t.takeWhile (IsDigit ·) ≠ []) && checkExponent (t.dropWhile (IsDigit ·))
  | t => checkExponent t

/-- Whether a text is that of a number. -/
def checkNumber (t : List UInt8) : Bool :=
  let int := (unsigned t).takeWhile (IsDigit ·)
  (int = [0x30] ∨ (int ≠ [] ∧ int.head? ≠ some 0x30)) &&
    checkFraction ((unsigned t).dropWhile (IsDigit ·))

theorem sign_unsigned (t : List UInt8) :
    ∃ sign, (sign = [] ∨ sign = [0x2D]) ∧ t = sign ++ unsigned t := by
  unfold unsigned
  split
  · exact ⟨[0x2D], .inr rfl, rfl⟩
  · exact ⟨[], .inl rfl, rfl⟩

theorem sign_unsignedExponent (t : List UInt8) :
    ∃ sign, (sign = [] ∨ sign = [0x2B] ∨ sign = [0x2D]) ∧ t = sign ++ unsignedExponent t := by
  unfold unsignedExponent
  split
  · exact ⟨[0x2B], .inr (.inl rfl), rfl⟩
  · exact ⟨[0x2D], .inr (.inr rfl), rfl⟩
  · exact ⟨[], .inl rfl, rfl⟩

theorem isDigits_takeWhile {t : List UInt8} (h : t.takeWhile (IsDigit ·) ≠ []) :
    IsDigits (t.takeWhile (IsDigit ·)) :=
  ⟨h, fun _ hb => of_decide_eq_true (List.mem_takeWhile_imp (p := (IsDigit ·)) hb)⟩

theorem exponent_of_check {t : List UInt8} (h : checkExponent t) :
    t = [] ∨ ∃ e s ds, (e = 0x65 ∨ e = 0x45) ∧ (s = [] ∨ s = [0x2B] ∨ s = [0x2D]) ∧
      IsDigits ds ∧ t = e :: (s ++ ds) := by
  cases t with
  | nil => exact .inl rfl
  | cons e t =>
      obtain ⟨he, hds⟩ := of_decide_eq_true h
      obtain ⟨s, hs, ht⟩ := sign_unsignedExponent t
      exact .inr ⟨e, s, _, he, hs, hds, congrArg (e :: ·) ht⟩

theorem fraction_of_check {t : List UInt8} (h : checkFraction t) :
    ∃ frac exp, t = frac ++ exp ∧ (frac = [] ∨ ∃ ds, IsDigits ds ∧ frac = 0x2E :: ds) ∧
      checkExponent exp := by
  unfold checkFraction at h
  split at h
  · next t =>
    rw [Bool.and_eq_true, decide_eq_true_eq] at h
    refine ⟨0x2E :: t.takeWhile (IsDigit ·), _, ?_, .inr ⟨_, isDigits_takeWhile h.1, rfl⟩, h.2⟩
    rw [List.cons_append, List.takeWhile_append_dropWhile]
  · exact ⟨[], t, rfl, .inl rfl, h⟩

/-- The check accepts numbers alone. -/
theorem isNumber_of_check {t : List UInt8} (h : checkNumber t) : IsNumber t := by
  unfold checkNumber at h
  rw [Bool.and_eq_true, decide_eq_true_eq] at h
  obtain ⟨hint, hrest⟩ := h
  obtain ⟨sign, hsign, ht⟩ := sign_unsigned t
  obtain ⟨frac, exp, hfracexp, hfrac, hexp⟩ := fraction_of_check hrest
  have hparts : t = sign ++ (unsigned t).takeWhile (IsDigit ·) ++ frac ++ exp := by
    rw [List.append_assoc, List.append_assoc, ← hfracexp, List.takeWhile_append_dropWhile, ← ht]
  rw [hparts]
  exact .mk hsign (hint.imp id fun hint => ⟨isDigits_takeWhile hint.1, hint.2⟩) hfrac
    (exponent_of_check hexp)

/-- A number, as it is written. -/
structure Number where
  text : List UInt8
  check : checkNumber text
  deriving DecidableEq

theorem IsDigits.numeric {t : List UInt8} (h : IsDigits t) : ∀ b ∈ t, IsNumeric b :=
  fun b hb => .inl (h.2 b hb)

theorem IsNumber.numeric {t : List UInt8} (h : IsNumber t) : ∀ b ∈ t, IsNumeric b := by
  obtain ⟨hsign, hint, hfrac, hexp⟩ := h
  simp only [List.forall_mem_append]
  refine ⟨⟨⟨?_, ?_⟩, ?_⟩, ?_⟩
  · rcases hsign with rfl | rfl <;> exact forall_of_all rfl
  · rcases hint with rfl | ⟨hdigits, -⟩
    · exact forall_of_all rfl
    · exact hdigits.numeric
  · rcases hfrac with rfl | ⟨ds, hds, rfl⟩
    · exact forall_of_all rfl
    · exact List.forall_mem_cons.mpr ⟨by decide, hds.numeric⟩
  · rcases hexp with rfl | ⟨e, s, ds, he, hs, hds, rfl⟩
    · exact forall_of_all rfl
    · rw [List.forall_mem_cons, List.forall_mem_append]
      refine ⟨?_, ?_, hds.numeric⟩
      · rcases he with rfl | rfl <;> decide
      · rcases hs with rfl | rfl | rfl <;> exact forall_of_all rfl

theorem Number.numeric (n : Number) : ∀ b ∈ n.text, IsNumeric b :=
  (isNumber_of_check n.check).numeric

theorem Number.text_ne_nil (n : Number) : n.text ≠ [] := by
  intro h
  have hcheck := n.check
  rw [h] at hcheck
  exact absurd hcheck (by decide)

/-! ## Integers -/

/-- The digits of a natural number. -/
def decimal (n : ℕ) : List UInt8 :=
  if n = 0 then [0x30] else (Nat.digits 10 n).reverse.map fun d => UInt8.ofNat (0x30 + d)

theorem isDigit_ofNat : ∀ d < 10, IsDigit (UInt8.ofNat (0x30 + d)) := by decide

theorem isDigits_decimal (n : ℕ) : IsDigits (decimal n) := by
  unfold decimal
  split_ifs with h
  · exact ⟨List.cons_ne_nil _ _, forall_of_all rfl⟩
  · refine ⟨by simpa [Nat.digits_ne_nil_iff_ne_zero] using h, fun b hb => ?_⟩
    obtain ⟨d, hd, rfl⟩ := List.mem_map.mp hb
    exact isDigit_ofNat d (Nat.digits_lt_base (by decide) (List.mem_reverse.mp hd))

/-- No zero stands in front. -/
theorem head_decimal (n : ℕ) : decimal n = [0x30] ∨ (decimal n).head? ≠ some 0x30 := by
  unfold decimal
  split_ifs with h
  · exact .inl rfl
  · right
    have hne : Nat.digits 10 n ≠ [] := Nat.digits_ne_nil_iff_ne_zero.mpr h
    have hlast := Nat.getLast_digit_ne_zero 10 h
    have hlt := Nat.digits_lt_base (b := 10) (by decide) (List.getLast_mem hne)
    rw [List.head?_map, List.head?_reverse, List.getLast?_eq_getLast_of_ne_nil hne]
    have hoctet : ∀ d < 10, d ≠ 0 → UInt8.ofNat (0x30 + d) ≠ 0x30 := by decide
    exact fun heq => hoctet _ hlt hlast (Option.some.inj heq)

theorem takeWhile_digits {t : List UInt8} (h : IsDigits t) :
    t.takeWhile (IsDigit ·) = t ∧ t.dropWhile (IsDigit ·) = [] :=
  ⟨List.takeWhile_eq_self_iff.mpr fun b hb => decide_eq_true (h.2 b hb),
    List.dropWhile_eq_nil_iff.mpr fun b hb => decide_eq_true (h.2 b hb)⟩

theorem check_of_unsigned {t : List UInt8} {n : ℕ} (h : unsigned t = decimal n) : checkNumber t := by
  have hdigits := takeWhile_digits (isDigits_decimal n)
  unfold checkNumber
  rw [h, hdigits.1, hdigits.2]
  have hhead := (head_decimal n).imp id fun hhead => And.intro (isDigits_decimal n).1 hhead
  exact Bool.and_eq_true_iff.mpr ⟨decide_eq_true hhead, rfl⟩

theorem unsigned_decimal (n : ℕ) : unsigned (decimal n) = decimal n := by
  have hdigits := (isDigits_decimal n).2
  unfold unsigned
  split
  · next t heq => exact absurd (hdigits 0x2D (by rw [heq]; exact List.mem_cons_self ..)) (by decide)
  · rfl

def Number.ofNat (n : ℕ) : Number := ⟨decimal n, check_of_unsigned (unsigned_decimal n)⟩

def Number.ofInt : ℤ → Number
  | .ofNat n => .ofNat n
  | .negSucc n => ⟨0x2D :: decimal (n + 1), check_of_unsigned (n := n + 1) rfl⟩

/-! ## Values -/

/-- The members of an object are in the order of the text. -/
inductive Value where
  | null
  | bool (b : Bool)
  | number (n : Number)
  | string (text : String)
  | array (elements : List Value)
  | object (members : List (String × Value))

/-! ## Writing -/

def hexDigit (n : ℕ) : UInt8 := UInt8.ofNat (if n < 10 then 0x30 + n else 0x57 + n)

/-- A character of a string. -/
def writeChar (c : Char) : List UInt8 :=
  if c = '"' then [BACKSLASH, QUOTE]
  else if c = '\\' then [BACKSLASH, BACKSLASH]
  else if c = '\x08' then [BACKSLASH, 0x62]
  else if c = '\t' then [BACKSLASH, 0x74]
  else if c = '\n' then [BACKSLASH, 0x6E]
  else if c = '\x0c' then [BACKSLASH, 0x66]
  else if c = '\r' then [BACKSLASH, 0x72]
  else if c.toNat < 0x20 then
    [BACKSLASH, 0x75, 0x30, 0x30, hexDigit (c.toNat / 16), hexDigit (c.toNat % 16)]
  else String.utf8EncodeChar c

def writeChars (cs : List Char) : List UInt8 := cs.flatMap writeChar

def quote (text : String) : List UInt8 := QUOTE :: (writeChars text.toList ++ [QUOTE])

mutual

/-- `orjson.dumps`, of a value. -/
def write : Value → List UInt8
  | .null => [0x6E, 0x75, 0x6C, 0x6C]
  | .bool true => [0x74, 0x72, 0x75, 0x65]
  | .bool false => [0x66, 0x61, 0x6C, 0x73, 0x65]
  | .number n => n.text
  | .string text => quote text
  | .array [] => [0x5B, 0x5D]
  | .array (v :: vs) => 0x5B :: (write v ++ writeElements vs)
  | .object [] => [0x7B, 0x7D]
  | .object ((key, v) :: members) => 0x7B :: (quote key ++ 0x3A :: (write v ++ writeRest members))

/-- The elements behind the first. -/
def writeElements : List Value → List UInt8
  | [] => [0x5D]
  | v :: vs => 0x2C :: (write v ++ writeElements vs)

/-- The members behind the first. -/
def writeRest : List (String × Value) → List UInt8
  | [] => [0x7D]
  | (key, v) :: members => 0x2C :: (quote key ++ 0x3A :: (write v ++ writeRest members))

end

/-- `orjson.OPT_SORT_KEYS`. -/
def sortKeys (members : List (String × Value)) : List (String × Value) :=
  members.mergeSort fun a b => a.1 ≤ b.1

/-! ## Reading -/

def hexValue (b : UInt8) : Option ℕ :=
  if 0x30 ≤ b ∧ b ≤ 0x39 then some (b.toNat - 0x30)
  else if 0x61 ≤ b ∧ b ≤ 0x66 then some (b.toNat - 0x57)
  else if 0x41 ≤ b ∧ b ≤ 0x46 then some (b.toNat - 0x37)
  else none

/-- The octets of an escape of one letter. -/
def unescape (b : UInt8) : Option UInt8 :=
  if b = QUOTE ∨ b = BACKSLASH ∨ b = 0x2F then some b
  else if b = 0x62 then some 0x08
  else if b = 0x66 then some 0x0C
  else if b = 0x6E then some 0x0A
  else if b = 0x72 then some 0x0D
  else if b = 0x74 then some 0x09
  else none

/-- The octets of a string up to its quote, without escapes, and what stands behind it.
Escapes of more than an octet are not read. -/
def readChars : List UInt8 → Option (List UInt8 × List UInt8)
  | [] => none
  | 0x5C :: 0x75 :: a :: b :: c :: d :: t =>
    match hexValue a, hexValue b, hexValue c, hexValue d, readChars t with
    | some 0, some 0, some c, some d, some (text, t) =>
      if c < 8 then some (UInt8.ofNat (16 * c + d) :: text, t) else none
    | _, _, _, _, _ => none
  | 0x5C :: b :: t =>
    match unescape b, readChars t with
    | some b, some (text, t) => some (b :: text, t)
    | _, _ => none
  | b :: t =>
    if b = QUOTE then some ([], t)
    else (readChars t).map fun (text, t) => (b :: text, t)

/-- A string behind its first quote. -/
def readString (t : List UInt8) : Option (String × List UInt8) :=
  match readChars t with
  | none => none
  | some (octets, t) => (Utf8.decodeStrict octets).map fun cs => (String.ofList cs, t)

def readNumber (t : List UInt8) : Option (Value × List UInt8) :=
  if h : checkNumber (t.takeWhile (IsNumeric ·)) then
    some (.number ⟨_, h⟩, t.dropWhile (IsNumeric ·))
  else none

mutual

/-- A value, and what stands behind it. -/
def readValue : ℕ → List UInt8 → Option (Value × List UInt8)
  | 0, _ => none
  | fuel + 1, t =>
    match t with
    | 0x6E :: 0x75 :: 0x6C :: 0x6C :: t => some (.null, t)
    | 0x74 :: 0x72 :: 0x75 :: 0x65 :: t => some (.bool true, t)
    | 0x66 :: 0x61 :: 0x6C :: 0x73 :: 0x65 :: t => some (.bool false, t)
    | 0x22 :: t => (readString t).map fun (text, t) => (.string text, t)
    | 0x5B :: 0x5D :: t => some (.array [], t)
    | 0x5B :: t => do
      let (v, t) ← readValue fuel t
      let (vs, t) ← readElements fuel t
      some (.array (v :: vs), t)
    | 0x7B :: 0x7D :: t => some (.object [], t)
    | 0x7B :: t => do
      let (member, t) ← readMember fuel t
      let (members, t) ← readRest fuel t
      some (.object (member :: members), t)
    | t => readNumber t

/-- A key and its value. -/
def readMember : ℕ → List UInt8 → Option ((String × Value) × List UInt8)
  | 0, _ => none
  | fuel + 1, t =>
    match t with
    | 0x22 :: t => do
      let (key, t) ← readString t
      match t with
      | 0x3A :: t => do
        let (v, t) ← readValue fuel t
        some ((key, v), t)
      | _ => none
    | _ => none

def readElements : ℕ → List UInt8 → Option (List Value × List UInt8)
  | 0, _ => none
  | fuel + 1, t =>
    match t with
    | 0x5D :: t => some ([], t)
    | 0x2C :: t => do
      let (v, t) ← readValue fuel t
      let (vs, t) ← readElements fuel t
      some (v :: vs, t)
    | _ => none

def readRest : ℕ → List UInt8 → Option (List (String × Value) × List UInt8)
  | 0, _ => none
  | fuel + 1, t =>
    match t with
    | 0x7D :: t => some ([], t)
    | 0x2C :: t => do
      let (member, t) ← readMember fuel t
      let (members, t) ← readRest fuel t
      some (member :: members, t)
    | _ => none

end

/-- `orjson.loads`, of a text that `write` makes. -/
def read (t : List UInt8) : Option Value :=
  match readValue (t.length + 1) t with
  | some (v, []) => some v
  | _ => none

/-! ## Strings -/

theorem hexValue_hexDigit : ∀ d < 16, hexValue (hexDigit d) = some d := by decide

/-- An octet that is neither a quote nor a backslash stands for itself. -/
theorem readChars_cons {b : UInt8} (hquote : b ≠ QUOTE) (hback : b ≠ BACKSLASH) (t : List UInt8) :
    readChars (b :: t) = (readChars t).map fun p => (b :: p.1, p.2) := by
  rw [readChars.eq_def]
  split
  · next h => cases h
  · next h => exact absurd (List.cons.inj h).1 hback
  · next h => exact absurd (List.cons.inj h).1 hback
  · next h =>
      obtain ⟨rfl, rfl⟩ := List.cons.inj h
      rw [if_neg hquote]

theorem readChars_append {bs : List UInt8} (h : ∀ b ∈ bs, b ≠ QUOTE ∧ b ≠ BACKSLASH)
    (t : List UInt8) :
    readChars (bs ++ t) = (readChars t).map fun p => (bs ++ p.1, p.2) := by
  induction bs with
  | nil => exact Option.map_id'.symm
  | cons b bs ih =>
      rw [List.forall_mem_cons] at h
      rw [List.cons_append, readChars_cons h.1.1 h.1.2, ih h.2, Option.map_map]
      rfl

/-- An escape of one letter. -/
theorem readChars_escape {b octet : UInt8} (hletter : b ≠ 0x75) (hb : unescape b = some octet)
    (t : List UInt8) :
    readChars (BACKSLASH :: b :: t) = (readChars t).map fun p => (octet :: p.1, p.2) := by
  rw [readChars.eq_def]
  split
  · next h => cases h
  · next h => exact absurd (List.cons.inj (List.cons.inj h).2).1 hletter
  · next h =>
      obtain ⟨rfl, rfl⟩ := List.cons.inj (List.cons.inj h).2
      rw [hb]
      cases readChars t <;> rfl
  · next hno h =>
      obtain ⟨rfl, rfl⟩ := List.cons.inj h
      exact absurd rfl (hno b t rfl)

theorem readChars_control {n : ℕ} (hn : n < 0x20) (t : List UInt8) :
    readChars (BACKSLASH :: 0x75 :: 0x30 :: 0x30 :: hexDigit (n / 16) :: hexDigit (n % 16) :: t) =
      (readChars t).map fun p => (UInt8.ofNat n :: p.1, p.2) := by
  have hzero : hexValue 0x30 = some 0 := by decide
  have hhigh : hexValue (hexDigit (n / 16)) = some (n / 16) := hexValue_hexDigit _ (by omega)
  have hlow : hexValue (hexDigit (n % 16)) = some (n % 16) := hexValue_hexDigit _ (by omega)
  have hvalue : 16 * (n / 16) + n % 16 = n := Nat.div_add_mod n 16
  rw [show BACKSLASH = 0x5C from rfl, readChars, hzero, hhigh, hlow]
  rcases readChars t with _ | ⟨text, t⟩
  · rfl
  · simp only [if_pos (show n / 16 < 8 by omega), hvalue, Option.map_some]

/-- **One character.** -/
theorem readChars_writeChar (c : Char) (t : List UInt8) :
    readChars (writeChar c ++ t) =
      (readChars t).map fun p => (String.utf8EncodeChar c ++ p.1, p.2) := by
  unfold writeChar
  split_ifs with hquote hback h8 h9 h10 h12 h13 hcontrol
  · subst hquote; exact readChars_escape (by decide) rfl t
  · subst hback; exact readChars_escape (by decide) rfl t
  · subst h8; exact readChars_escape (by decide) rfl t
  · subst h9; exact readChars_escape (by decide) rfl t
  · subst h10; exact readChars_escape (by decide) rfl t
  · subst h12; exact readChars_escape (by decide) rfl t
  · subst h13; exact readChars_escape (by decide) rfl t
  · have hencoded : String.utf8EncodeChar c = [UInt8.ofNat c.toNat] := by
      unfold String.utf8EncodeChar
      exact if_pos (by exact hcontrol.le.trans (by decide))
    rw [hencoded]
    exact readChars_control hcontrol t
  · refine readChars_append (fun b hb => ⟨?_, ?_⟩) t
    · rintro rfl
      exact hquote (Utf8.ascii_mem_encodeChar (by decide) hb)
    · rintro rfl
      exact hback (Utf8.ascii_mem_encodeChar (by decide) hb)

theorem readChars_writeChars (cs : List Char) (t : List UInt8) :
    readChars (writeChars cs ++ QUOTE :: t) = some (Utf8.encode cs, t) := by
  induction cs with
  | nil => rw [writeChars, List.flatMap_nil, List.nil_append, readChars.eq_def]; rfl
  | cons c cs ih =>
      rw [writeChars, List.flatMap_cons, List.append_assoc, readChars_writeChar]
      rw [writeChars] at ih
      rw [ih]
      rfl

theorem readString_quote (text : String) (t : List UInt8) :
    readString (writeChars text.toList ++ [QUOTE] ++ t) = some (text, t) := by
  unfold readString
  rw [List.append_assoc, List.singleton_append, readChars_writeChars]
  dsimp only
  rw [Utf8.decodeStrict_eq_some.mpr rfl, Option.map_some, String.ofList_toList]

/-! ## The round trip -/

/-- What may stand behind a number. -/
def Follows (t : List UInt8) : Prop := ∀ b ∈ t.head?, ¬ IsNumeric b

theorem readNumber_append (n : Number) {t : List UInt8} (ht : Follows t) :
    readNumber (n.text ++ t) = some (.number n, t) := by
  have hstop : t.takeWhile (IsNumeric ·) = [] ∧ t.dropWhile (IsNumeric ·) = t := by
    cases t with
    | nil => exact ⟨rfl, rfl⟩
    | cons b t =>
        have hb : decide (IsNumeric b) = false := decide_eq_false (ht b rfl)
        exact ⟨List.takeWhile_cons_of_neg (by rw [hb]; decide),
          List.dropWhile_cons_of_neg (by rw [hb]; decide)⟩
  have hall : ∀ b ∈ n.text, decide (IsNumeric b) = true :=
    fun b hb => decide_eq_true (n.numeric b hb)
  have htake : (n.text ++ t).takeWhile (IsNumeric ·) = n.text := by
    rw [List.takeWhile_append_of_pos hall, hstop.1, List.append_nil]
  have hdrop : (n.text ++ t).dropWhile (IsNumeric ·) = t := by
    rw [List.dropWhile_append_of_pos hall, hstop.2]
  unfold readNumber
  simp only [htake, hdrop, n.check, dite_true]

/-- The first octet of a value. -/
theorem write_head (v : Value) : ∃ b t, write v = b :: t ∧ b ≠ 0x5D := by
  cases v with
  | null => exact ⟨_, _, rfl, by decide⟩
  | bool b => cases b <;> exact ⟨_, _, rfl, by decide⟩
  | number n =>
      obtain ⟨b, t, ht⟩ := List.exists_cons_of_ne_nil n.text_ne_nil
      refine ⟨b, t, ht, ?_⟩
      rintro rfl
      exact absurd (n.numeric _ (by rw [ht]; exact List.mem_cons_self ..)) (by decide)
  | string text => exact ⟨_, _, rfl, by decide⟩
  | array vs => cases vs <;> exact ⟨_, _, rfl, by decide⟩
  | object members => rcases members with _ | ⟨⟨key, v⟩, members⟩ <;> exact ⟨_, _, rfl, by decide⟩

/-- An array with an element. -/
theorem readValue_array (fuel : ℕ) {t : List UInt8} (h : t.head? ≠ some 0x5D) :
    readValue (fuel + 1) (0x5B :: t) = (do
      let (v, t) ← readValue fuel t
      let (vs, t) ← readElements fuel t
      some (.array (v :: vs), t)) := by
  rw [readValue]
  rintro u rfl
  exact h rfl

/-- A number. -/
theorem readValue_number (fuel : ℕ) {b : UInt8} {t : List UInt8} (hb : IsNumeric b) :
    readValue (fuel + 1) (b :: t) = readNumber (b :: t) := by
  rw [readValue]
  all_goals
    intros
    rename_i heq
    obtain ⟨rfl, -⟩ := List.cons.inj heq
    exact absurd hb (by decide)

/-- What stands behind the first element, or the first member, is no number. -/
theorem follows_writeElements (vs : List Value) (t : List UInt8) :
    Follows (writeElements vs ++ t) := by
  cases vs <;> (intro b hb; obtain rfl := Option.some.inj hb; decide)

theorem follows_writeRest (members : List (String × Value)) (t : List UInt8) :
    Follows (writeRest members ++ t) := by
  rcases members with _ | ⟨⟨key, v⟩, members⟩ <;>
    (intro b hb; obtain rfl := Option.some.inj hb; decide)

theorem length_writeElements (vs : List Value) : 0 < (writeElements vs).length := by
  cases vs <;> exact Nat.succ_pos _

theorem length_writeRest (members : List (String × Value)) : 0 < (writeRest members).length := by
  rcases members with _ | ⟨⟨key, v⟩, members⟩ <;> exact Nat.succ_pos _

mutual

/-- **Reading what was written**, by induction on the value; the fuel is the length of the
text. -/
theorem readValue_write : ∀ (v : Value) (fuel : ℕ) (t : List UInt8), (write v).length ≤ fuel →
    Follows t → readValue (fuel + 1) (write v ++ t) = some (v, t)
  | .null, fuel, t, _, _ => by rw [write]; rfl
  | .bool true, fuel, t, _, _ => by rw [write]; rfl
  | .bool false, fuel, t, _, _ => by rw [write]; rfl
  | .number n, fuel, t, _, ht => by
      obtain ⟨b, u, hu⟩ := List.exists_cons_of_ne_nil n.text_ne_nil
      have hb : IsNumeric b := n.numeric b (by rw [hu]; exact List.mem_cons_self ..)
      rw [write, ← readNumber_append n ht, hu, List.cons_append, readValue_number fuel hb]
  | .string text, fuel, t, _, _ => by
      have hread := readString_quote text t
      rw [write, quote, List.cons_append]
      change (readString _).map _ = _
      rw [hread]
      rfl
  | .array [], fuel, t, _, _ => by rw [write]; rfl
  | .array (v :: vs), fuel + 1, t, hlen, ht => by
      obtain ⟨b, u, hu, hb⟩ := write_head v
      rw [write, List.length_cons, List.length_append] at hlen
      rw [write, List.cons_append, readValue_array _ (by rw [hu]; simpa using hb),
        List.append_assoc, readValue_write v fuel _ (by omega) (follows_writeElements vs t)]
      dsimp only [Option.bind_eq_bind, Option.bind_some]
      rw [readElements_write vs fuel t (by omega)]
      rfl
  | .array (_ :: _), 0, t, hlen, _ => by rw [write] at hlen; exact absurd hlen (by simp)
  | .object [], fuel, t, _, _ => by rw [write]; rfl
  | .object ((key, v) :: members), 0, t, hlen, _ => by
      rw [write] at hlen
      exact absurd hlen (by simp)
  | .object ((key, v) :: members), fuel + 1, t, hlen, ht => by
      rw [write, List.length_cons, List.length_append, List.length_cons, List.length_append] at hlen
      have hbracket := length_writeRest members
      have hmember := readMember_write key v fuel (writeRest members ++ t) (by omega)
        (follows_writeRest members t)
      have hrest := readRest_write members fuel t (by omega)
      have htext : write (.object ((key, v) :: members)) ++ t =
          0x7B :: (quote key ++ 0x3A :: (write v ++ (writeRest members ++ t))) := by
        rw [write]
        simp only [List.cons_append, List.append_assoc]
      rw [htext, quote, List.cons_append]
      change (readMember _ _).bind _ = _
      rw [quote, List.cons_append] at hmember
      rw [hmember]
      dsimp only [Option.bind_eq_bind, Option.bind_some]
      rw [hrest]
      rfl

theorem readMember_write : ∀ (key : String) (v : Value) (fuel : ℕ) (t : List UInt8),
    (write v).length < fuel → Follows t →
    readMember (fuel + 1) (quote key ++ 0x3A :: (write v ++ t)) = some ((key, v), t)
  | _, _, 0, _, hlen, _ => absurd hlen (Nat.not_lt_zero _)
  | key, v, fuel + 1, t, hlen, ht => by
      have hkey := readString_quote key (0x3A :: (write v ++ t))
      have hv := readValue_write v fuel t (Nat.le_of_lt_succ hlen) ht
      rw [List.append_assoc, List.singleton_append] at hkey
      rw [quote, List.cons_append, List.append_assoc, List.singleton_append]
      change (readString _).bind _ = _
      rw [hkey]
      change (readValue _ _).bind _ = _
      rw [hv]
      rfl

theorem readElements_write : ∀ (vs : List Value) (fuel : ℕ) (t : List UInt8),
    (writeElements vs).length ≤ fuel + 1 →
    readElements (fuel + 1) (writeElements vs ++ t) = some (vs, t)
  | [], fuel, t, _ => by rw [writeElements]; rfl
  | v :: vs, fuel, t, hlen => by
      rw [writeElements, List.length_cons, List.length_append] at hlen
      have hrest := length_writeElements vs
      obtain ⟨fuel, rfl⟩ : ∃ k, fuel = k + 1 := ⟨fuel - 1, by omega⟩
      have hv := readValue_write v fuel (writeElements vs ++ t) (by omega)
        (follows_writeElements vs t)
      have hvs := readElements_write vs fuel t (by omega)
      rw [writeElements, List.cons_append, List.append_assoc]
      change (readValue _ _).bind _ = _
      rw [hv]
      dsimp only [Option.bind_eq_bind, Option.bind_some]
      rw [hvs]
      rfl

theorem readRest_write : ∀ (members : List (String × Value)) (fuel : ℕ) (t : List UInt8),
    (writeRest members).length ≤ fuel + 1 →
    readRest (fuel + 1) (writeRest members ++ t) = some (members, t)
  | [], fuel, t, _ => by rw [writeRest]; rfl
  | (key, v) :: members, fuel, t, hlen => by
      rw [writeRest, List.length_cons, List.length_append, List.length_cons,
        List.length_append] at hlen
      have hrest := length_writeRest members
      obtain ⟨fuel, rfl⟩ : ∃ k, fuel = k + 1 := ⟨fuel - 1, by omega⟩
      have hmember := readMember_write key v fuel (writeRest members ++ t) (by omega)
        (follows_writeRest members t)
      have hmembers := readRest_write members fuel t (by omega)
      rw [writeRest, List.cons_append, List.append_assoc, List.cons_append, List.append_assoc]
      change (readMember _ _).bind _ = _
      rw [hmember]
      dsimp only [Option.bind_eq_bind, Option.bind_some]
      rw [hmembers]
      rfl

end

/-- **The round trip.** -/
theorem read_write (v : Value) : read (write v) = some v := by
  unfold read
  have h := readValue_write v (write v).length [] le_rfl fun b hb => absurd hb (by simp)
  rw [List.append_nil] at h
  rw [h]

/-! ## In the grammar -/

theorem derives_append {t u : List UInt8} (h : ∀ b ∈ t, 0x20 ≤ b ∧ b ≠ QUOTE ∧ b ≠ BACKSLASH)
    (hu : Derives .chars u) : Derives .chars (t ++ u) := by
  induction t with
  | nil => exact hu
  | cons b t ih =>
      rw [List.forall_mem_cons] at h
      exact .char h.1.1 h.1.2.1 h.1.2.2 (ih h.2)

theorem isHexDigit_hexDigit : ∀ d < 16, IsHexDigit (hexDigit d) := by
  simp only [IsHexDigit, IsDigit]
  decide

/-- A character that is written as it is. -/
theorem plain_char {c : Char} (hquote : c ≠ '"') (hback : c ≠ '\\') (hcontrol : ¬ c.toNat < 0x20)
    {b : UInt8} (hb : b ∈ String.utf8EncodeChar c) : 0x20 ≤ b ∧ b ≠ QUOTE ∧ b ≠ BACKSLASH := by
  refine ⟨?_, ?_, ?_⟩
  · by_contra hlow
    have hsmall : b.toNat < 0x20 := by
      rw [UInt8.not_le, UInt8.lt_iff_toNat_lt] at hlow
      exact hlow
    have hc : c = Char.ofNat b.toNat := Utf8.ascii_mem_encodeChar (hsmall.trans (by decide)) hb
    have hnumbers : ∀ n < 0x20, (Char.ofNat n).toNat < 0x20 := by decide
    exact hcontrol (hc ▸ hnumbers _ hsmall)
  · rintro rfl
    exact hquote (Utf8.ascii_mem_encodeChar (by decide) hb)
  · rintro rfl
    exact hback (Utf8.ascii_mem_encodeChar (by decide) hb)

theorem hex_control {n : ℕ} (hn : n < 0x20) :
    ∀ b ∈ [0x30, 0x30, hexDigit (n / 16), hexDigit (n % 16)], IsHexDigit b := by
  simp only [List.forall_mem_cons]
  exact ⟨.inl (by decide), .inl (by decide), isHexDigit_hexDigit _ (by omega),
    isHexDigit_hexDigit _ (by omega), fun b hb => absurd hb List.not_mem_nil⟩

theorem derives_writeChar (c : Char) {t : List UInt8} (ht : Derives .chars t) :
    Derives .chars (writeChar c ++ t) := by
  unfold writeChar
  split_ifs with hquote hback h8 h9 h10 h12 h13 hcontrol
  iterate 7 exact .escape (by decide) ht
  · exact .unicode rfl (hex_control hcontrol) ht
  · exact derives_append (fun b hb => plain_char hquote hback hcontrol hb) ht

theorem derives_writeChars (cs : List Char) : Derives .chars (writeChars cs) := by
  induction cs with
  | nil => exact .chars_nil
  | cons c cs ih =>
      rw [writeChars, List.flatMap_cons]
      exact derives_writeChar c ih

/-- An element without space around it. -/
theorem derives_element {t : List UInt8} (ht : Derives .value t) : Derives .elements t := by
  have hnone : ∀ b ∈ ([] : List UInt8), IsSpace b := fun b hb => absurd hb List.not_mem_nil
  have h := Derives.element hnone ht hnone
  rwa [List.nil_append, List.append_nil] at h

theorem derives_member {key t : List UInt8} (hkey : Derives .chars key) (ht : Derives .value t) :
    Derives .members ((QUOTE :: (key ++ [QUOTE])) ++ 0x3A :: t) := by
  have hnone : ∀ b ∈ ([] : List UInt8), IsSpace b := fun b hb => absurd hb List.not_mem_nil
  have h := Derives.member hnone hkey hnone hnone ht hnone
  simp only [List.nil_append, List.append_nil, List.append_assoc, List.singleton_append] at h
  rw [List.cons_append, List.append_assoc, List.singleton_append]
  exact h

mutual

/-- **What is written is JSON.** -/
theorem derives_write : ∀ v : Value, Derives .value (write v)
  | .null => .null
  | .bool true => .true
  | .bool false => .false
  | .number n => .number (isNumber_of_check n.check)
  | .string text => by
      have h := Derives.string (derives_writeChars text.toList)
      rw [write, quote]
      exact h
  | .array [] => .array_empty (s := []) fun b hb => absurd hb List.not_mem_nil
  | .array (v :: vs) => by
      obtain ⟨t, ht, helements⟩ := derives_writeElements vs _ (derives_element (derives_write v))
      rw [write, ht]
      exact .array helements
  | .object [] => .object_empty (s := []) fun b hb => absurd hb List.not_mem_nil
  | .object ((key, v) :: members) => by
      obtain ⟨t, ht, hmembers⟩ := derives_writeRest members _
        (derives_member (derives_writeChars key.toList) (derives_write v))
      have htext : write (.object ((key, v) :: members)) =
          0x7B :: ((quote key ++ 0x3A :: write v) ++ writeRest members) := by
        rw [write, List.append_assoc, List.cons_append]
      rw [htext, quote, ht]
      exact .object hmembers

theorem derives_writeElements : ∀ (vs : List Value) (t : List UInt8), Derives .elements t →
    ∃ u, t ++ writeElements vs = u ++ [0x5D] ∧ Derives .elements u
  | [], t, ht => ⟨t, by rw [writeElements], ht⟩
  | v :: vs, t, ht => by
      obtain ⟨u, hu, helements⟩ := derives_writeElements vs _
        (.elements ht (derives_element (derives_write v)))
      refine ⟨u, ?_, helements⟩
      rw [← hu, writeElements]
      simp only [List.append_assoc, List.nil_append, List.cons_append]

theorem derives_writeRest : ∀ (members : List (String × Value)) (t : List UInt8),
    Derives .members t → ∃ u, t ++ writeRest members = u ++ [0x7D] ∧ Derives .members u
  | [], t, ht => ⟨t, by rw [writeRest], ht⟩
  | (key, v) :: members, t, ht => by
      obtain ⟨u, hu, hmembers⟩ := derives_writeRest members _
        (.members ht (derives_member (derives_writeChars key.toList) (derives_write v)))
      refine ⟨u, ?_, hmembers⟩
      rw [← hu, writeRest, quote]
      simp only [List.append_assoc, List.nil_append, List.cons_append]

end

theorem isObject_write (members : List (String × Value)) : IsObject (write (.object members)) := by
  rcases members with _ | ⟨⟨key, v⟩, members⟩
  · exact ⟨[], by rw [write]; rfl, .inl fun b hb => absurd hb List.not_mem_nil⟩
  · obtain ⟨t, ht, hmembers⟩ := derives_writeRest members _
      (derives_member (derives_writeChars key.toList) (derives_write v))
    refine ⟨t, ?_, .inr hmembers⟩
    rw [List.singleton_append, List.cons_append, ← ht, write, quote]
    simp only [List.append_assoc, List.cons_append]

/-! ## On a line -/

theorem writeChar_visible (c : Char) : ∀ b ∈ writeChar c, 0x20 ≤ b := by
  unfold writeChar
  split_ifs with hquote hback h8 h9 h10 h12 h13 hcontrol
  iterate 7 exact forall_of_all rfl
  · rw [List.forall_mem_cons, List.forall_mem_cons]
    refine ⟨by decide, by decide, fun b hb => ?_⟩
    have hhex := hex_control hcontrol b hb
    unfold IsHexDigit IsDigit at hhex
    rcases hhex with h | h | h
    · exact UInt8.le_trans (show 0x20 ≤ 0x30 by decide) h.1
    · exact UInt8.le_trans (show 0x20 ≤ 0x41 by decide) h.1
    · exact UInt8.le_trans (show 0x20 ≤ 0x61 by decide) h.1
  · exact fun b hb => (plain_char hquote hback hcontrol hb).1

theorem quote_visible (text : String) : ∀ b ∈ quote text, 0x20 ≤ b := by
  unfold quote
  rw [List.forall_mem_cons, List.forall_mem_append]
  refine ⟨by decide, fun b hb => ?_, forall_of_all rfl⟩
  obtain ⟨c, _, hc⟩ := List.mem_flatMap.mp hb
  exact writeChar_visible c b hc

mutual

/-- Nothing that is written is a control character. -/
theorem write_visible : ∀ (v : Value), ∀ b ∈ write v, 0x20 ≤ b
  | .null => by rw [write]; exact forall_of_all rfl
  | .bool true => by rw [write]; exact forall_of_all rfl
  | .bool false => by rw [write]; exact forall_of_all rfl
  | .number n => fun b hb => by
      have hsigns : ∀ b ∈ [0x2B, 0x2D, 0x2E, 0x45, 0x65], (0x20 : UInt8) ≤ b :=
        forall_of_all rfl
      rcases n.numeric b hb with h | h
      · exact UInt8.le_trans (show 0x20 ≤ 0x30 by decide) h.1
      · exact hsigns b h
  | .string text => quote_visible text
  | .array [] => by rw [write]; exact forall_of_all rfl
  | .array (v :: vs) => by
      rw [write, List.forall_mem_cons, List.forall_mem_append]
      exact ⟨by decide, write_visible v, writeElements_visible vs⟩
  | .object [] => by rw [write]; exact forall_of_all rfl
  | .object ((key, v) :: members) => by
      rw [write, List.forall_mem_cons, List.forall_mem_append, List.forall_mem_cons,
        List.forall_mem_append]
      exact ⟨by decide, quote_visible key, by decide, write_visible v, writeRest_visible members⟩

theorem writeElements_visible : ∀ (vs : List Value), ∀ b ∈ writeElements vs, 0x20 ≤ b
  | [] => by rw [writeElements]; exact forall_of_all rfl
  | v :: vs => by
      rw [writeElements, List.forall_mem_cons, List.forall_mem_append]
      exact ⟨by decide, write_visible v, writeElements_visible vs⟩

theorem writeRest_visible : ∀ (members : List (String × Value)), ∀ b ∈ writeRest members, 0x20 ≤ b
  | [] => by rw [writeRest]; exact forall_of_all rfl
  | (key, v) :: members => by
      rw [writeRest, List.forall_mem_cons, List.forall_mem_append, List.forall_mem_cons,
        List.forall_mem_append]
      exact ⟨by decide, quote_visible key, by decide, write_visible v, writeRest_visible members⟩

end

end Json
