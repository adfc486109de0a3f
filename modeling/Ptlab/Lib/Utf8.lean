/-
UTF-8 with a decoder that replaces, and UTF-16 code units.

The encoder is Lean's own. The decoder is the octet machine of the Encoding
standard: it owes continuation octets, with bounds on the next one, and an octet
outside them ends the sequence under way with U+FFFD and is read again as a
first octet. `decode_whole` says that it reads what was encoded and stops at the
zero octets behind it; `decode_cut` is what becomes of a sequence that a zero
octet, or the end, cuts short.

A string of UTF-16 code units is any list of them. A surrogate without its
partner reads as U+FFFD.
-/
import Mathlib.Tactic

set_option autoImplicit false

namespace Utf8

/-- U+FFFD. -/
def replacement : Char := Char.ofNat 0xFFFD

/-- U+0000. -/
def nul : Char := Char.ofNat 0

/-! ## Encoding -/

/-- The octets of some characters. -/
def encode (cs : List Char) : List UInt8 := cs.flatMap String.utf8EncodeChar

@[simp] theorem encode_nil : encode [] = [] := rfl

@[simp] theorem encode_cons (c : Char) (cs : List Char) :
    encode (c :: cs) = String.utf8EncodeChar c ++ encode cs := rfl

@[simp] theorem encode_append (cs ds : List Char) : encode (cs ++ ds) = encode cs ++ encode ds :=
  List.flatMap_append

theorem encode_replacement : String.utf8EncodeChar replacement = [0xEF, 0xBF, 0xBD] := by decide

/-! ## Decoding -/

/-- A sequence under way: how many octets it owes, between which bounds the next
one must lie, and the value read so far. -/
structure Pending where
  needed : ℕ
  lower : ℕ
  upper : ℕ
  value : ℕ
  deriving DecidableEq, Repr

/-- An octet read between sequences. -/
def first (b : ℕ) : List Char × Option Pending :=
  if b < 0x80 then ([Char.ofNat b], none)
  else if 0xC2 ≤ b ∧ b ≤ 0xDF then ([], some ⟨1, 0x80, 0xBF, b - 0xC0⟩)
  else if 0xE0 ≤ b ∧ b ≤ 0xEF then
    ([], some ⟨2, if b = 0xE0 then 0xA0 else 0x80, if b = 0xED then 0x9F else 0xBF, b - 0xE0⟩)
  else if 0xF0 ≤ b ∧ b ≤ 0xF4 then
    ([], some ⟨3, if b = 0xF0 then 0x90 else 0x80, if b = 0xF4 then 0x8F else 0xBF, b - 0xF0⟩)
  else ([replacement], none)

/-- One octet: the characters it completes, and the sequence under way after
it. -/
def step (pending : Option Pending) (b : UInt8) : List Char × Option Pending :=
  match pending with
  | none => first b.toNat
  | some p =>
    if p.lower ≤ b.toNat ∧ b.toNat ≤ p.upper then
      if p.needed = 1 then ([Char.ofNat (p.value * 64 + (b.toNat - 0x80))], none)
      else ([], some ⟨p.needed - 1, 0x80, 0xBF, p.value * 64 + (b.toNat - 0x80)⟩)
    else (replacement :: (first b.toNat).1, (first b.toNat).2)

/-- The machine over some octets. -/
def run : Option Pending → List UInt8 → List Char × Option Pending
  | pending, [] => ([], pending)
  | pending, b :: bs =>
    let (cs, pending') := step pending b
    let (ds, pending'') := run pending' bs
    (cs ++ ds, pending'')

/-- The characters of some octets. -/
def decode (bs : List UInt8) : List Char :=
  (run none bs).1 ++ if (run none bs).2.isSome then [replacement] else []

theorem run_append (bs cs : List UInt8) : ∀ p : Option Pending,
    run p (bs ++ cs) = ((run p bs).1 ++ (run (run p bs).2 cs).1, (run (run p bs).2 cs).2) := by
  induction bs with
  | nil => intro p; rfl
  | cons b bs ih =>
      intro p
      rw [List.cons_append, run, run]
      dsimp only
      rw [ih, List.append_assoc]

theorem run_zeros (n : ℕ) : run none (List.replicate n 0) = (List.replicate n nul, none) := by
  induction n with
  | zero => rfl
  | succ n ih =>
      rw [List.replicate_succ, run]
      dsimp only
      have hstep : step none 0 = ([nul], none) := rfl
      rw [hstep, ih]
      rfl

/-! ## One character -/

/-- The value of a character, and where it cannot be. -/
theorem char_bounds (c : Char) : c.val.toNat < 0xD800 ∨
    0xDFFF < c.val.toNat ∧ c.val.toNat < 0x110000 := c.valid

theorem ofNat_val (c : Char) : Char.ofNat c.val.toNat = c := Char.ofNat_toNat c

/-- An octet given by its value. -/
theorem toNat_ofNat {n : ℕ} (h : n < 256) : (UInt8.ofNat n).toNat = n := by
  rw [UInt8.toNat_ofNat']
  exact Nat.mod_eq_of_lt h

/-- An octet that begins a sequence. -/
theorem run_first {b needed lower upper value : ℕ} (hb : b < 256)
    (h : first b = ([], some ⟨needed, lower, upper, value⟩)) (bs : List UInt8) :
    run none (UInt8.ofNat b :: bs) = run (some ⟨needed, lower, upper, value⟩) bs := by
  have hstep : step none (UInt8.ofNat b) = ([], some ⟨needed, lower, upper, value⟩) := by
    unfold step
    rw [toNat_ofNat hb]
    exact h
  rw [run, hstep]
  rfl

/-- An octet that goes on with one. -/
theorem run_next {p : Pending} {b : ℕ} (hb : b < 256) (hlow : p.lower ≤ b) (hup : b ≤ p.upper)
    (hneeded : p.needed ≠ 1) (bs : List UInt8) :
    run (some p) (UInt8.ofNat b :: bs) =
      run (some ⟨p.needed - 1, 0x80, 0xBF, p.value * 64 + (b - 0x80)⟩) bs := by
  have hstep : step (some p) (UInt8.ofNat b) =
      ([], some ⟨p.needed - 1, 0x80, 0xBF, p.value * 64 + (b - 0x80)⟩) := by
    unfold step
    dsimp only
    rw [toNat_ofNat hb, if_pos ⟨hlow, hup⟩, if_neg hneeded]
  rw [run, hstep]
  rfl

/-- An octet that ends one. -/
theorem run_last {p : Pending} {b : ℕ} (hb : b < 256) (hlow : p.lower ≤ b) (hup : b ≤ p.upper)
    (hneeded : p.needed = 1) :
    run (some p) [UInt8.ofNat b] = ([Char.ofNat (p.value * 64 + (b - 0x80))], none) := by
  have hstep : step (some p) (UInt8.ofNat b) =
      ([Char.ofNat (p.value * 64 + (b - 0x80))], none) := by
    unfold step
    dsimp only
    rw [toNat_ofNat hb, if_pos ⟨hlow, hup⟩, if_pos hneeded]
  rw [run, hstep]
  rfl

/-- **One character's octets.** The machine is between sequences before and after
them, and inside one after any fewer. The cases are the four lengths. -/
theorem run_encodeChar (c : Char) : run none (String.utf8EncodeChar c) = ([c], none) ∧
    ∀ j, 0 < j → j < (String.utf8EncodeChar c).length →
      ∃ p, run none ((String.utf8EncodeChar c).take j) = ([], some p) ∧ 0x80 ≤ p.lower := by
  have hc := char_bounds c
  have hval := ofNat_val c
  generalize hn : c.val.toNat = n at hc hval
  unfold String.utf8EncodeChar
  simp only [hn]
  split_ifs with h1 h2 h3
  · -- one octet
    refine ⟨?_, fun j hpos hj => ?_⟩
    · have hfirst : first n = ([Char.ofNat n], none) := if_pos (by omega)
      have hstep : step none (UInt8.ofNat n) = ([c], none) := by
        unfold step
        rw [toNat_ofNat (by omega), hfirst, hval]
      rw [run, hstep]
      rfl
    · simp only [List.length_cons, List.length_nil] at hj
      omega
  · -- two octets
    have hfirst : first (n / 64 % 0x20 + 0xC0) =
        ([], some ⟨1, 0x80, 0xBF, n / 64 % 0x20 + 0xC0 - 0xC0⟩) := by
      unfold first
      rw [if_neg (by omega), if_pos (by omega)]
    have hrun := run_first (by omega) hfirst
    refine ⟨?_, fun j hpos hj => ?_⟩
    · rw [hrun, run_last (by omega) (by dsimp only; omega) (by dsimp only; omega) rfl]
      have hvalue : (n / 64 % 0x20 + 0xC0 - 0xC0) * 64 + (n % 0x40 + 0x80 - 0x80) = n := by omega
      dsimp only
      rw [hvalue, hval]
    · simp only [List.length_cons, List.length_nil] at hj
      obtain rfl : j = 1 := by omega
      exact ⟨_, hrun [], le_rfl⟩
  · -- three octets
    have hfirst : first (n / 4096 % 0x10 + 0xE0) = ([], some ⟨2,
        if n / 4096 % 0x10 + 0xE0 = 0xE0 then 0xA0 else 0x80,
        if n / 4096 % 0x10 + 0xE0 = 0xED then 0x9F else 0xBF,
        n / 4096 % 0x10 + 0xE0 - 0xE0⟩) := by
      unfold first
      rw [if_neg (by omega), if_neg (by omega), if_pos (by omega)]
    have hrun := run_first (by omega) hfirst
    have hnext := fun bs => run_next (p := ⟨2,
        if n / 4096 % 0x10 + 0xE0 = 0xE0 then 0xA0 else 0x80,
        if n / 4096 % 0x10 + 0xE0 = 0xED then 0x9F else 0xBF,
        n / 4096 % 0x10 + 0xE0 - 0xE0⟩) (b := n / 64 % 0x40 + 0x80) (by omega)
      (by dsimp only; split_ifs <;> omega) (by dsimp only; split_ifs <;> omega) (by simp) bs
    refine ⟨?_, fun j hpos hj => ?_⟩
    · rw [hrun, hnext, run_last (by omega) (by dsimp only; omega) (by dsimp only; omega) rfl]
      have hvalue : ((n / 4096 % 0x10 + 0xE0 - 0xE0) * 64 + (n / 64 % 0x40 + 0x80 - 0x80)) * 64 +
        (n % 0x40 + 0x80 - 0x80) = n := by omega
      dsimp only
      rw [hvalue, hval]
    · simp only [List.length_cons, List.length_nil] at hj
      obtain rfl | rfl : j = 1 ∨ j = 2 := by omega
      · exact ⟨_, hrun [], by dsimp only; split_ifs <;> omega⟩
      · exact ⟨_, (hrun _).trans (hnext []), le_rfl⟩
  · -- four octets
    have hfirst : first (n / 262144 % 0x08 + 0xF0) = ([], some ⟨3,
        if n / 262144 % 0x08 + 0xF0 = 0xF0 then 0x90 else 0x80,
        if n / 262144 % 0x08 + 0xF0 = 0xF4 then 0x8F else 0xBF,
        n / 262144 % 0x08 + 0xF0 - 0xF0⟩) := by
      unfold first
      rw [if_neg (by omega), if_neg (by omega), if_neg (by omega), if_pos (by omega)]
    have hrun := run_first (by omega) hfirst
    have hnext := fun bs => run_next (p := ⟨3,
        if n / 262144 % 0x08 + 0xF0 = 0xF0 then 0x90 else 0x80,
        if n / 262144 % 0x08 + 0xF0 = 0xF4 then 0x8F else 0xBF,
        n / 262144 % 0x08 + 0xF0 - 0xF0⟩) (b := n / 4096 % 0x40 + 0x80) (by omega)
      (by dsimp only; split_ifs <;> omega) (by dsimp only; split_ifs <;> omega) (by simp) bs
    have hnext' := fun bs => run_next (p := ⟨2, 0x80, 0xBF,
        (n / 262144 % 0x08 + 0xF0 - 0xF0) * 64 + (n / 4096 % 0x40 + 0x80 - 0x80)⟩)
      (b := n / 64 % 0x40 + 0x80) (by omega) (by dsimp only; omega) (by dsimp only; omega)
      (by simp) bs
    refine ⟨?_, fun j hpos hj => ?_⟩
    · rw [hrun, hnext]
      refine (hnext' _).trans ?_
      rw [run_last (by omega) (by dsimp only; omega) (by dsimp only; omega) rfl]
      have hvalue : (((n / 262144 % 0x08 + 0xF0 - 0xF0) * 64 +
        (n / 4096 % 0x40 + 0x80 - 0x80)) * 64 + (n / 64 % 0x40 + 0x80 - 0x80)) * 64 +
        (n % 0x40 + 0x80 - 0x80) = n := by omega
      dsimp only
      rw [hvalue, hval]
    · simp only [List.length_cons, List.length_nil] at hj
      obtain rfl | rfl | rfl : j = 1 ∨ j = 2 ∨ j = 3 := by omega
      · exact ⟨_, hrun [], by dsimp only; split_ifs <;> omega⟩
      · exact ⟨_, (hrun _).trans (hnext []), le_rfl⟩
      · exact ⟨_, (hrun _).trans ((hnext _).trans (hnext' [])), le_rfl⟩

/-! ## Whole and cut text -/

theorem run_encode (cs : List Char) : run none (encode cs) = (cs, none) := by
  induction cs with
  | nil => rfl
  | cons c cs ih => rw [encode_cons, run_append, (run_encodeChar c).1, ih]; rfl

/-- The first `n` octets of a text are whole characters, and perhaps the first
octets of one more. -/
theorem take_encode (cs : List Char) : ∀ n : ℕ,
    (∃ whole, (encode cs).take n = encode whole) ∨
      ∃ whole c j, 0 < j ∧ j < (String.utf8EncodeChar c).length ∧
        (encode cs).take n = encode whole ++ (String.utf8EncodeChar c).take j ∧
        n = (encode whole).length + j := by
  induction cs with
  | nil =>
      intro n
      exact .inl ⟨[], by rw [encode_nil, List.take_nil]⟩
  | cons c cs ih =>
      intro n
      rw [encode_cons]
      by_cases hn : n < (String.utf8EncodeChar c).length
      · -- the cut falls in front of `c` or inside it
        by_cases hzero : n = 0
        · subst hzero
          exact .inl ⟨[], rfl⟩
        · refine .inr ⟨[], c, n, by omega, hn, ?_, by simp⟩
          rw [List.take_append_of_le_length (by omega), encode_nil, List.nil_append]
      · obtain ⟨m, rfl⟩ : ∃ m, n = (String.utf8EncodeChar c).length + m :=
          ⟨n - (String.utf8EncodeChar c).length, by omega⟩
        rw [List.take_length_add_append]
        rcases ih m with ⟨whole, hwhole⟩ | ⟨whole, d, j, hpos, hj, hwhole, hm⟩
        · exact .inl ⟨c :: whole, by rw [hwhole, encode_cons]⟩
        · refine .inr ⟨c :: whole, d, j, hpos, hj, ?_, ?_⟩
          · rw [hwhole, encode_cons, List.append_assoc]
          · rw [encode_cons, List.length_append]
            omega

/-- Whole text behind which zeros stand. -/
theorem decode_whole (cs : List Char) (n : ℕ) :
    decode (encode cs ++ List.replicate n 0) = cs ++ List.replicate n nul := by
  rw [decode, run_append, run_encode, run_zeros]
  exact List.append_nil _

/-- **Cut text behind which zeros stand.** The piece of a character reads as one
U+FFFD. -/
theorem decode_cut (cs : List Char) {c : Char} {j : ℕ} (hpos : 0 < j)
    (hj : j < (String.utf8EncodeChar c).length) (n : ℕ) :
    decode (encode cs ++ (String.utf8EncodeChar c).take j ++ List.replicate (n + 1) 0) =
      cs ++ replacement :: List.replicate (n + 1) nul := by
  obtain ⟨p, hrun, hlow⟩ := (run_encodeChar c).2 j hpos hj
  -- the padding is no continuation byte, so that it ends the character that was cut
  have hstep : step (some p) 0 = ([replacement, nul], none) := by
    unfold step
    dsimp only
    rw [if_neg]
    · rfl
    · exact fun h => absurd h.1 (by simp; omega)
  have hzeros : run (some p) (List.replicate (n + 1) 0) =
      (replacement :: List.replicate (n + 1) nul, none) := by
    rw [List.replicate_succ, run, hstep]
    dsimp only
    rw [run_zeros]
    rfl
  rw [decode, run_append, run_append, run_encode, hrun, hzeros]
  simp

/-! ## Strict decoding -/

/-- The characters of octets that are UTF-8, and nothing for others. -/
def decodeStrict (bs : List UInt8) : Option (List Char) :=
  if encode (decode bs) = bs then some (decode bs) else none

theorem decode_encode (cs : List Char) : decode (encode cs) = cs := by
  have h := decode_whole cs 0
  rwa [List.replicate_zero, List.replicate_zero, List.append_nil, List.append_nil] at h

/-- Strict decoding is the inverse of encoding, where there is one. -/
theorem decodeStrict_eq_some {bs : List UInt8} {cs : List Char} :
    decodeStrict bs = some cs ↔ encode cs = bs := by
  unfold decodeStrict
  constructor
  · intro h
    split_ifs at h with hbs
    rw [← Option.some.inj h, hbs]
  · rintro rfl
    rw [decode_encode, if_pos rfl]

/-! ## ASCII octets -/

/-- An octet below `0x80` stands for the character with its number. -/
theorem ascii_mem_encodeChar {c : Char} {b : UInt8} (hb : b.toNat < 0x80)
    (h : b ∈ String.utf8EncodeChar c) : c = Char.ofNat b.toNat := by
  have hc := char_bounds c
  have hval := ofNat_val c
  generalize hn : c.val.toNat = n at hc hval
  have hoctet : ∀ m, m < 256 → b = UInt8.ofNat m → m = b.toNat := by
    intro m hm hbm
    rw [hbm, toNat_ofNat hm]
  have hnumber : n = b.toNat := by
    unfold String.utf8EncodeChar at h
    simp only [hn] at h
    split_ifs at h with h1 h2 h3
    · simp only [List.mem_cons, List.not_mem_nil, or_false] at h
      exact hoctet n (by omega) h
    -- the octets of a longer sequence are all `0x80` or above
    · simp only [List.mem_cons, List.not_mem_nil, or_false] at h
      rcases h with h | h <;> exact absurd (hoctet _ (by omega) h) (by omega)
    · simp only [List.mem_cons, List.not_mem_nil, or_false] at h
      rcases h with h | h | h <;> exact absurd (hoctet _ (by omega) h) (by omega)
    · simp only [List.mem_cons, List.not_mem_nil, or_false] at h
      rcases h with h | h | h | h <;> exact absurd (hoctet _ (by omega) h) (by omega)
  rw [← hval, hnumber]

theorem ascii_mem_encode {cs : List Char} {b : UInt8} (hb : b.toNat < 0x80) (h : b ∈ encode cs) :
    Char.ofNat b.toNat ∈ cs := by
  obtain ⟨c, hc, hmem⟩ := List.mem_flatMap.mp h
  rw [← ascii_mem_encodeChar hb hmem]
  exact hc

/-- The only character with a zero octet is U+0000. -/
theorem zero_mem_encode {cs : List Char} (h : 0 ∈ encode cs) : nul ∈ cs :=
  ascii_mem_encode (by decide) h

/-- A character of several octets has no zero among them. -/
theorem zero_notMem_take {c : Char} {j : ℕ} (hpos : 0 < j)
    (hj : j < (String.utf8EncodeChar c).length) : 0 ∉ (String.utf8EncodeChar c).take j := by
  intro h
  have hnul : c = nul := ascii_mem_encodeChar (by decide) (List.mem_of_mem_take h)
  rw [hnul] at hj
  exact absurd hj (by simp only [nul]; exact not_lt.mpr hpos)

/-! ## UTF-16 -/

/-- The code units of a character. -/
def unitsOf (c : Char) : List UInt16 :=
  if c.val.toNat < 0x10000 then [UInt16.ofNat c.val.toNat]
  else [UInt16.ofNat (0xD800 + (c.val.toNat - 0x10000) / 0x400),
    UInt16.ofNat (0xDC00 + (c.val.toNat - 0x10000) % 0x400)]

/-- The code units of some characters. -/
def units (cs : List Char) : List UInt16 := cs.flatMap unitsOf

def isHigh (u : UInt16) : Bool := 0xD800 ≤ u.toNat && u.toNat < 0xDC00

def isLow (u : UInt16) : Bool := 0xDC00 ≤ u.toNat && u.toNat < 0xE000

/-- The characters of some code units. -/
def scalars : List UInt16 → List Char
  | [] => []
  | [u] => [if isHigh u || isLow u then replacement else Char.ofNat u.toNat]
  | u :: v :: us =>
    if isHigh u then
      if isLow v then
        Char.ofNat (0x10000 + (u.toNat - 0xD800) * 0x400 + (v.toNat - 0xDC00)) :: scalars us
      else replacement :: scalars (v :: us)
    else (if isLow u then replacement else Char.ofNat u.toNat) :: scalars (v :: us)

theorem toNat_ofNat16 {n : ℕ} (h : n < 65536) : (UInt16.ofNat n).toNat = n := by
  rw [UInt16.toNat_ofNat']
  exact Nat.mod_eq_of_lt h

/-- A unit that is no surrogate. -/
theorem scalars_plain {u : UInt16} (hh : isHigh u = false) (hl : isLow u = false)
    (us : List UInt16) : scalars (u :: us) = Char.ofNat u.toNat :: scalars us := by
  cases us with
  | nil => simp [scalars, hh, hl]
  | cons v us => simp [scalars, hh, hl]

theorem isHigh_ofNat {k : ℕ} (h : k < 0x400) : isHigh (UInt16.ofNat (0xD800 + k)) = true := by
  unfold isHigh
  rw [toNat_ofNat16 (by omega)]
  simp
  omega

theorem isLow_ofNat {k : ℕ} (h : k < 0x400) : isLow (UInt16.ofNat (0xDC00 + k)) = true := by
  unfold isLow
  rw [toNat_ofNat16 (by omega)]
  simp
  omega

theorem scalars_unitsOf (c : Char) (us : List UInt16) :
    scalars (unitsOf c ++ us) = c :: scalars us := by
  have hc := char_bounds c
  have hval := ofNat_val c
  generalize hn : c.val.toNat = n at hc hval
  unfold unitsOf
  simp only [hn]
  split_ifs with h
  · have hu : (UInt16.ofNat n).toNat = n := toNat_ofNat16 (by omega)
    rw [List.singleton_append, scalars_plain, hu, hval]
    · unfold isHigh
      rw [hu]
      simp
      omega
    · unfold isLow
      rw [hu]
      simp
      omega
  · have hu : (UInt16.ofNat (0xD800 + (n - 0x10000) / 0x400)).toNat =
        0xD800 + (n - 0x10000) / 0x400 := toNat_ofNat16 (by omega)
    have hv : (UInt16.ofNat (0xDC00 + (n - 0x10000) % 0x400)).toNat =
        0xDC00 + (n - 0x10000) % 0x400 := toNat_ofNat16 (by omega)
    have hhigh := isHigh_ofNat (k := (n - 0x10000) / 0x400) (by omega)
    have hlow := isLow_ofNat (k := (n - 0x10000) % 0x400) (by omega)
    -- the two halves put together again
    have hvalue : 0x10000 + (0xD800 + (n - 0x10000) / 0x400 - 0xD800) * 0x400 +
        (0xDC00 + (n - 0x10000) % 0x400 - 0xDC00) = n := by omega
    rw [List.cons_append, List.singleton_append, scalars, if_pos hhigh, if_pos hlow, hu, hv,
      hvalue, hval]

/-- **Round trip.** -/
theorem scalars_units (cs : List Char) : scalars (units cs) = cs := by
  induction cs with
  | nil => rfl
  | cons c cs ih =>
      have hcons : units (c :: cs) = unitsOf c ++ units cs := rfl
      rw [hcons, scalars_unitsOf, ih]

/-- No unit of a character other than U+0000 is zero. -/
theorem unitsOf_ne_zero {c : Char} (h : c ≠ nul) : ∀ u ∈ unitsOf c, u ≠ 0 := by
  have hc := char_bounds c
  have hne : c.val.toNat ≠ 0 := by
    intro hzero
    apply h
    rw [← ofNat_val c, hzero]
    rfl
  have hofNat : ∀ n, 0 < n → n < 65536 → UInt16.ofNat n ≠ 0 := by
    intro n hpos hlt hzero
    have htoNat := congrArg UInt16.toNat hzero
    rw [toNat_ofNat16 hlt] at htoNat
    exact absurd htoNat (by simp; omega)
  intro u hu
  unfold unitsOf at hu
  split_ifs at hu
  · rw [List.mem_singleton.mp hu]
    exact hofNat _ (by omega) (by omega)
  · rcases List.mem_cons.mp hu with rfl | hu
    · exact hofNat _ (by omega) (by omega)
    · rw [List.mem_singleton.mp hu]
      exact hofNat _ (by omega) (by omega)

/-- The units in front of the first zero are those of the characters in front of
the first U+0000. -/
theorem takeWhile_units (cs : List Char) :
    (units cs).takeWhile (· ≠ 0) = units (cs.takeWhile (· ≠ nul)) := by
  induction cs with
  | nil => rfl
  | cons c cs ih =>
      have hcons : ∀ ds, units (c :: ds) = unitsOf c ++ units ds := fun _ => rfl
      by_cases hc : c = nul
      · subst hc
        rfl
      · have hall : ∀ u ∈ unitsOf c, (decide (u ≠ 0)) = true := fun u hu =>
          decide_eq_true (unitsOf_ne_zero hc u hu)
        have htake : (c :: cs).takeWhile (· ≠ nul) = c :: cs.takeWhile (· ≠ nul) :=
          List.takeWhile_cons_of_pos (by simpa using hc)
        rw [hcons, List.takeWhile_append_of_pos hall, ih, htake, hcons]

end Utf8
