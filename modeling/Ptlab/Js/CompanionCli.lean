/-
The record codec of `companion-cli.mjs`, and what it does to events the user did
not ask to change.

`add` and `delete` pull all records, decode them, encode them again and push
them back. `read_modify_write_iff` says which records come back as they were.
Three stages lose something: a `Date` made from a year below 100, an end date in
the year 0, and the title, which is read up to its first NUL and through a
decoder that replaces what it cannot read (`title_kept_iff`).
-/
import Mathlib.Data.List.TakeWhile
import Ptlab.Js.ScheduleProtocol

set_option autoImplicit false

open Bytes Utf8 Ptlab.Protocol Ptlab.Wire

namespace Ptlab.Js

/-! ## `decodeRecord` and `encodeRecord` -/

/-- A schedule record of the right size. -/
abbrev Record : Type := {b : List UInt8 // b.length = RECORDS.schedule_record_size}

/-- The object `decodeRecord` makes. -/
structure CliEvent where
  id : ℕ
  ruleKind : ℕ
  hour : ℕ
  minute : ℕ
  year : ℕ
  month : ℕ
  day : ℕ
  param : ℕ
  enabled : Bool
  title : List UInt16
  lastModified : ℕ
  endYear : ℕ
  endMonth : ℕ
  endDay : ℕ
  deriving DecidableEq, Repr

def decodeRecord (b : Record) : CliEvent where
  id := read16 b.val 0
  ruleKind := (b.val.getD 2 0).toNat
  hour := (b.val.getD 3 0).toNat
  minute := (b.val.getD 4 0).toNat
  year := read16 b.val 5
  month := (b.val.getD 7 0).toNat
  day := (b.val.getD 8 0).toNat
  param := (b.val.getD 9 0).toNat
  enabled := (b.val.getD 10 0).toNat % 2 = 1
  -- `.toString('utf8').replace(/\0.*$/s, '')`
  title := (units (decode ((b.val.drop 11).take 24))).takeWhile (· ≠ 0)
  lastModified := read32 b.val 35
  endYear := read16 b.val 39
  endMonth := (b.val.getD 41 0).toNat
  endDay := (b.val.getD 42 0).toNat

/-- The object `encodeRecord` hands to `encodeEventRecord`. -/
def CliEvent.args (e : CliEvent) : EventArgs where
  id := e.id
  ruleKind := e.ruleKind
  hour := e.hour
  minute := e.minute
  anchor := newDate e.year (e.month - 1) e.day
  param := e.param
  enabled := e.enabled
  title := e.title
  lastModified := e.lastModified
  end_ := if e.endYear ≠ 0 then some (newDate e.endYear (e.endMonth - 1) e.endDay) else none

def encodeRecord (e : CliEvent) : Except JsError (List UInt8) := encodeEventRecord e.args

/-! ## The title -/

/-- A kept title that can be read back: nothing stands behind a NUL, and the cut
went through no character, or left of it what U+FFFD begins with. -/
structure TitleKept (kept : List UInt8) : Prop where
  nul_last : ∀ pre post, kept = pre ++ 0 :: post → ∀ b ∈ post, b = 0
  whole : ∃ cs j, j < 3 ∧ kept = encode cs ++ [0xEF, 0xBF].take j

/-- The title's field after it was read and written again. -/
def rewritten (kept : List UInt8) : List UInt8 :=
  titleField ((encode ((decode (titleField kept)).takeWhile (· ≠ nul))).take 23)

theorem takeWhile_append_nuls (cs : List Char) (n : ℕ) :
    (cs ++ List.replicate n nul).takeWhile (· ≠ nul) = cs.takeWhile (· ≠ nul) := by
  induction cs with
  | nil =>
      cases n with
      | zero => rfl
      | succ n => rfl
  | cons c cs ih =>
      rw [List.cons_append, List.takeWhile_cons, List.takeWhile_cons, ih]

theorem takeWhile_append_of_notMem {front : List Char} (h : nul ∉ front) (cs : List Char) :
    (front ++ cs).takeWhile (· ≠ nul) = front ++ cs.takeWhile (· ≠ nul) :=
  List.takeWhile_append_of_pos fun c hc => by
    simpa using fun heq : c = nul => h (heq ▸ hc)

/-- Characters up to the first U+0000, and what stands behind them. -/
theorem takeWhile_nul_split (cs : List Char) : nul ∉ cs.takeWhile (· ≠ nul) ∧
    (cs = cs.takeWhile (· ≠ nul) ∨ ∃ rest, cs = cs.takeWhile (· ≠ nul) ++ nul :: rest) := by
  constructor
  · intro h
    simpa using List.mem_takeWhile_imp h
  · induction cs with
    | nil => exact .inl rfl
    | cons c cs ih =>
        by_cases hc : c = nul
        · subst hc
          exact .inr ⟨cs, rfl⟩
        · have htake : (c :: cs).takeWhile (· ≠ nul) = c :: cs.takeWhile (· ≠ nul) :=
            List.takeWhile_cons_of_pos (by simpa using hc)
          rw [htake]
          rcases ih with h | ⟨rest, h⟩
          · exact .inl (congrArg (c :: ·) h)
          · exact .inr ⟨rest, congrArg (c :: ·) h⟩

/-- Two fields are the same if the shorter title goes on with zeros only. -/
theorem titleField_append_eq_iff {xs ys : List UInt8} (h : (xs ++ ys).length ≤ 23) :
    titleField xs = titleField (xs ++ ys) ↔ ∀ b ∈ ys, b = 0 := by
  rw [List.length_append] at h
  unfold titleField
  rw [List.append_assoc, List.append_cancel_left_eq, List.length_append]
  have hsplit : List.replicate (24 - xs.length) (0 : UInt8) =
      List.replicate ys.length 0 ++ List.replicate (24 - (xs.length + ys.length)) 0 := by
    rw [← List.replicate_add]
    congr 1
    omega
  rw [hsplit, List.append_cancel_right_eq]
  constructor
  · intro heq b hb
    rw [← heq] at hb
    exact List.eq_of_mem_replicate hb
  · intro hall
    exact (List.eq_replicate_of_mem hall).symm

/-- Nothing behind a NUL, for a text in front of it that has none. -/
theorem nul_last_append_iff {xs ys : List UInt8} (hxs : 0 ∉ xs) (hys : ∀ y ∈ ys.head?, y = 0) :
    (∀ pre post, xs ++ ys = pre ++ 0 :: post → ∀ b ∈ post, b = 0) ↔ ∀ b ∈ ys, b = 0 := by
  constructor
  · intro h b hb
    cases ys with
    | nil => cases hb
    | cons y ys =>
        obtain rfl : y = 0 := hys y rfl
        rcases List.mem_cons.mp hb with rfl | hb
        · rfl
        · exact h xs ys rfl b hb
  · intro h pre post heq b hb
    -- the zero stands in `ys`, and so does what is behind it
    rcases List.append_eq_append_iff.mp heq with ⟨as, rfl, hys'⟩ | ⟨cs, rfl, hcs⟩
    · exact h b (by rw [hys']; exact List.mem_append_right _ (List.mem_cons_of_mem _ hb))
    · cases cs with
      | nil =>
          rw [List.nil_append] at hcs
          exact h b (by rw [← hcs]; exact List.mem_cons_of_mem _ hb)
      | cons c cs =>
          injection hcs with hc _
          exact absurd (by rw [← hc]; simp) hxs

/-- A title that was kept whole. It comes back if only NULs stand behind its
first NUL. -/
theorem rewritten_whole_iff (whole : List Char) (h : (encode whole).length ≤ 23) :
    rewritten (encode whole) = titleField (encode whole) ↔ TitleKept (encode whole) := by
  obtain ⟨hnul, hsplit⟩ := takeWhile_nul_split whole
  have hread : rewritten (encode whole) =
      titleField ((encode (whole.takeWhile (· ≠ nul))).take 23) := by
    have hfield : titleField (encode whole) =
        encode whole ++ List.replicate (24 - (encode whole).length) 0 := rfl
    unfold rewritten
    rw [hfield, decode_whole, takeWhile_append_nuls]
  rw [hread]
  -- `front` is what the reader keeps, `back` what it drops
  generalize whole.takeWhile (· ≠ nul) = front at hnul hsplit
  obtain ⟨back, rfl, hback⟩ : ∃ back, whole = front ++ back ∧ ∀ b ∈ (encode back).head?, b = 0 := by
    rcases hsplit with rfl | ⟨rest, rfl⟩
    · exact ⟨[], (List.append_nil _).symm, fun b hb => by cases hb⟩
    · exact ⟨nul :: rest, rfl, fun b hb => (Option.some.inj hb).symm⟩
  rw [encode_append] at h ⊢
  have hfront : (encode front).take 23 = encode front := by
    refine List.take_of_length_le ?_
    rw [List.length_append] at h
    omega
  have hzero : (0 : UInt8) ∉ encode front := fun hmem => hnul (zero_mem_encode hmem)
  rw [hfront, titleField_append_eq_iff h, ← nul_last_append_iff hzero hback]
  refine ⟨fun hlast => ⟨hlast, front ++ back, 0, by omega, ?_⟩, TitleKept.nul_last⟩
  rw [encode_append]
  exact (List.append_nil _).symm

/-- A piece of a character and as much of U+FFFD: they are the same exactly if
the title with the piece can be read back. -/
theorem cut_comes_back_iff {whole : List Char} {c : Char} {j : ℕ} (hpos : 0 < j)
    (hj : j < (String.utf8EncodeChar c).length) (hzero : 0 ∉ encode whole) :
    titleField (encode whole ++ ([0xEF, 0xBF, 0xBD] : List UInt8).take j) =
        titleField (encode whole ++ (String.utf8EncodeChar c).take j) ↔
      TitleKept (encode whole ++ (String.utf8EncodeChar c).take j) := by
  have hfour : j < 4 := by
    rw [String.length_utf8EncodeChar] at hj
    exact lt_of_lt_of_le hj c.utf8Size_le_four
  have hlength : (encode whole ++ ([0xEF, 0xBF, 0xBD] : List UInt8).take j).length =
      (encode whole ++ (String.utf8EncodeChar c).take j).length := by
    simp only [List.length_append, List.length_take, List.length_cons, List.length_nil]
    omega
  obtain ⟨p, hrun, -⟩ := (run_encodeChar c).2 j hpos hj
  constructor
  · intro h
    unfold titleField at h
    rw [hlength, List.append_cancel_right_eq, List.append_cancel_left_eq] at h
    -- three bytes would be all of U+FFFD, and no piece of a character
    have hthree : j ≠ 3 := by
      rintro rfl
      rw [← h] at hrun
      cases hrun
    refine ⟨fun pre post heq b _ => ?_, whole, j, by omega, ?_⟩
    · have hmem : (0 : UInt8) ∈ encode whole ++ (String.utf8EncodeChar c).take j := by
        rw [heq]
        simp
      rcases List.mem_append.mp hmem with hmem | hmem
      · exact absurd hmem hzero
      · exact absurd hmem (zero_notMem_take hpos hj)
    · rw [← h]
      obtain rfl | rfl : j = 1 ∨ j = 2 := by omega
      · rfl
      · rfl
  · rintro ⟨-, cs, i, hi, heq⟩
    -- the machine reads the whole characters alike on both sides
    have hboth := congrArg (run none) heq
    rw [run_append, run_append, run_encode, run_encode, hrun] at hboth
    have hpiece : (run none (([0xEF, 0xBF] : List UInt8).take i)).1 = [] := by
      obtain rfl | rfl | rfl : i = 0 ∨ i = 1 ∨ i = 2 := by omega
      · rfl
      · rfl
      · rfl
    have hsame : whole = cs := by
      have hfst := congrArg Prod.fst hboth
      simpa only [hpiece, List.append_nil] using hfst
    subst hsame
    rw [List.append_cancel_left_eq] at heq
    have hij : j = i := by
      have hl := congrArg List.length heq
      simp only [List.length_take, List.length_cons, List.length_nil] at hl
      omega
    subst hij
    rw [heq]
    obtain rfl | rfl : j = 1 ∨ j = 2 := by omega
    · rfl
    · rfl

/-- A title that was cut inside a character. It comes back if it has no NUL and
the piece of the character is what U+FFFD begins with. -/
theorem rewritten_cut_iff (whole : List Char) {c : Char} {j : ℕ} (hpos : 0 < j)
    (hj : j < (String.utf8EncodeChar c).length) (hlen : 23 = (encode whole).length + j) :
    rewritten (encode whole ++ (String.utf8EncodeChar c).take j) =
        titleField (encode whole ++ (String.utf8EncodeChar c).take j) ↔
      TitleKept (encode whole ++ (String.utf8EncodeChar c).take j) := by
  have hpiece : ((String.utf8EncodeChar c).take j).length = j := by
    rw [List.length_take]
    omega
  have hlength : (encode whole ++ (String.utf8EncodeChar c).take j).length = 23 := by
    rw [List.length_append, hpiece, ← hlen]
  have hpieceZero := zero_notMem_take hpos hj
  have hread : rewritten (encode whole ++ (String.utf8EncodeChar c).take j) = titleField ((encode
      ((whole ++ replacement :: List.replicate 1 nul).takeWhile (· ≠ nul))).take 23) := by
    have hfield : titleField (encode whole ++ (String.utf8EncodeChar c).take j) =
        encode whole ++ (String.utf8EncodeChar c).take j ++ List.replicate (0 + 1) 0 := by
      rw [titleField, hlength]
    unfold rewritten
    rw [hfield, decode_cut whole hpos hj 0]
  rw [hread]
  obtain ⟨hnul, hsplit⟩ := takeWhile_nul_split whole
  generalize whole.takeWhile (· ≠ nul) = front at hnul hsplit
  have hfrontZero : (0 : UInt8) ∉ encode front := fun hmem => hnul (zero_mem_encode hmem)
  rcases hsplit with rfl | ⟨rest, rfl⟩
  · -- no NUL: the piece has become U+FFFD, which is cut in turn
    have htake : (whole ++ replacement :: List.replicate 1 nul).takeWhile (· ≠ nul) =
        whole ++ [replacement] := takeWhile_append_of_notMem hnul _
    have hcut : (encode (whole ++ [replacement])).take 23 =
        encode whole ++ ([0xEF, 0xBF, 0xBD] : List UInt8).take j := by
      have hencode : encode (whole ++ [replacement]) = encode whole ++ [0xEF, 0xBF, 0xBD] := by
        rw [encode_append, encode_cons, encode_replacement]
        rfl
      rw [hencode, hlen, List.take_length_add_append]
    rw [htake, hcut]
    exact cut_comes_back_iff hpos hj hfrontZero
  · -- a NUL stands in front of the piece, which is not zero
    have htake : (front ++ nul :: rest ++ replacement :: List.replicate 1 nul).takeWhile
        (· ≠ nul) = front := by
      rw [List.append_assoc, takeWhile_append_of_notMem hnul]
      exact List.append_nil front
    have hfront : (encode front).take 23 = encode front := by
      refine List.take_of_length_le ?_
      rw [encode_append, List.length_append] at hlen
      omega
    have hassoc : encode (front ++ nul :: rest) ++ (String.utf8EncodeChar c).take j =
        encode front ++ (encode (nul :: rest) ++ (String.utf8EncodeChar c).take j) := by
      rw [encode_append, List.append_assoc]
    have hnot : ¬ ∀ b ∈ encode (nul :: rest) ++ (String.utf8EncodeChar c).take j, b = 0 := by
      intro hall
      obtain ⟨x, hx⟩ := List.exists_mem_of_length_pos (hpiece.symm ▸ hpos)
      rw [hall x (List.mem_append_right _ hx)] at hx
      exact hpieceZero hx
    have hhead : ∀ b ∈ (encode (nul :: rest) ++ (String.utf8EncodeChar c).take j).head?, b = 0 :=
      fun b hb => (Option.some.inj hb).symm
    rw [htake, hfront, hassoc, titleField_append_eq_iff (by rw [← hassoc, hlength])]
    exact ⟨fun hall => absurd hall hnot, fun hkept =>
      absurd ((nul_last_append_iff hfrontZero hhead).mp hkept.nul_last) hnot⟩

/-- **The title.** It comes back exactly if what was kept of it can be read
back. -/
theorem title_kept_iff (cs : List Char) :
    rewritten ((encode cs).take 23) = titleField ((encode cs).take 23) ↔
      TitleKept ((encode cs).take 23) := by
  -- the field keeps 23 bytes, cut between characters or inside one
  rcases take_encode cs 23 with ⟨whole, hwhole⟩ | ⟨whole, c, j, hpos, hj, hwhole, hlen⟩
  · have hle : (encode whole).length ≤ 23 := by
      rw [← hwhole]
      exact List.length_take_le 23 _
    rw [hwhole]
    exact rewritten_whole_iff whole hle
  · rw [hwhole]
    exact rewritten_cut_iff whole hpos hj hlen

/-! ## The dates -/

/-- A date comes back exactly if its year is 100 or later. -/
theorem anchor_kept_iff {date : Civil.Date} (h : YearFits date.year) :
    (newDate date.year.toNat (date.month - 1) date.day).year.toNat = date.year.toNat ∧
        (newDate date.year.toNat (date.month - 1) date.day).month = date.month ∧
        (newDate date.year.toNat (date.month - 1) date.day).day = date.day ∧
        YearFits (newDate date.year.toNat (date.month - 1) date.day).year ↔
      100 ≤ date.year := by
  have hyear : ((date.year.toNat : ℕ) : ℤ) = date.year := Int.toNat_of_nonneg h.1
  rw [hyear]
  constructor
  · -- `new Date` moves such a year into the 20th century
    rintro ⟨hsame, -⟩
    by_contra hlt
    have hpos := date.month_pos
    have hlow := h.1
    have hday : (1 : ℤ) ≤ date.day := by exact_mod_cast date.day_pos
    have hyear99 : 0 ≤ date.year ∧ date.year ≤ 99 := ⟨hlow, by omega⟩
    have hge := newDate_year_ge hyear99 date.month_pos date.month_le hday
    omega
  · intro hge
    rw [newDate_self date hge]
    exact ⟨rfl, rfl, rfl, h⟩

/-- The end date an event goes back with. -/
def endAgain (end_ : Option Civil.Date) : Option Civil.Date :=
  let year : ℕ := (end_.map (·.year.toNat)).getD 0
  let month : ℕ := (end_.map (·.month)).getD 0
  let day : ℕ := (end_.map (·.day)).getD 0
  if year ≠ 0 then some (newDate year (month - 1) day) else none

/-- An end date comes back exactly if its year is 100 or later; none always
does. -/
theorem end_kept_iff {end_ : Option Civil.Date} (h : ∀ date ∈ end_, YearFits date.year) :
    ((endAgain end_).map (·.year.toNat)).getD 0 = (end_.map (·.year.toNat)).getD 0 ∧
        ((endAgain end_).map (·.month)).getD 0 = (end_.map (·.month)).getD 0 ∧
        ((endAgain end_).map (·.day)).getD 0 = (end_.map (·.day)).getD 0 ∧
        (∀ date ∈ endAgain end_, YearFits date.year) ↔
      ∀ date ∈ end_, 100 ≤ date.year := by
  rcases end_ with _ | date
  · exact ⟨fun _ d hd => (by cases hd), fun _ => ⟨rfl, rfl, rfl, fun d hd => by cases hd⟩⟩
  have hfits := h date rfl
  have hsingle : (∀ d ∈ some date, 100 ≤ d.year) ↔ 100 ≤ date.year :=
    ⟨fun hall => hall date rfl, fun hge d hd => Option.some.inj hd ▸ hge⟩
  rw [hsingle]
  by_cases hzero : date.year.toNat = 0
  · -- the year 0 is read as no end date: its month is lost
    have hagain : endAgain (some date) = none := by
      simp only [endAgain, Option.map_some, Option.getD_some]
      rw [if_neg (not_not.mpr hzero)]
    rw [hagain]
    constructor
    · rintro ⟨-, hmonth, -⟩
      have hpos := date.month_pos
      have hlost : 0 = date.month := hmonth
      omega
    · intro hge
      omega
  · have hagain : endAgain (some date) =
        some (newDate date.year.toNat (date.month - 1) date.day) := by
      simp only [endAgain, Option.map_some, Option.getD_some]
      rw [if_pos hzero]
    rw [hagain, ← anchor_kept_iff hfits]
    constructor
    · rintro ⟨hy, hm, hd, hall⟩
      exact ⟨hy, hm, hd, hall _ rfl⟩
    · rintro ⟨hy, hm, hd, hyear⟩
      exact ⟨hy, hm, hd, fun d hd' => Option.some.inj hd' ▸ hyear⟩

/-! ## Read, modify, write -/

/-- What the record of an accepted object says fits it. -/
theorem EventArgs.InRange.fits {e : EventArgs} (h : e.InRange) (hyear : YearFits e.anchor.year)
    (hend : ∀ date ∈ e.end_, YearFits date.year) : e.record.Fits := by
  have hmonth := e.anchor.month_le
  have hday := le_trans e.anchor.day_le (Civil.daysInMonth_bounds _ _).2
  have hid := h.id
  have hkind := h.ruleKind
  have hhour := h.hour
  have hminute := h.minute
  have hparam := h.param
  have hmodified := h.lastModified
  have hlow := hyear.1
  have hhigh := hyear.2
  -- no end date is written as zeros
  have hlast : e.record.endYear < 65536 ∧ e.record.endMonth < 256 ∧ e.record.endDay < 256 := by
    unfold EventArgs.record
    dsimp only
    rcases hd : e.end_ with _ | date
    · exact ⟨by decide, by decide, by decide⟩
    · have hm := date.month_le
      have hdd := le_trans date.day_le (Civil.daysInMonth_bounds _ _).2
      have hy := hend date hd
      have hy0 := hy.1
      have hy1 := hy.2
      simp only [Option.map_some, Option.getD_some]
      omega
  refine ⟨?_, ?_, ?_, ?_, ?_, ?_, ?_, ?_, ?_, List.length_take_le 23 _, ?_, hlast.1, hlast.2.1,
    hlast.2.2⟩
  all_goals simp only [EventArgs.record]
  · omega
  · omega
  · omega
  · omega
  · omega
  · omega
  · omega
  · omega
  · cases e.enabled <;> decide
  · omega

/-- **One record.** Decoding and encoding it again gives it back exactly if both
dates and the title come back. -/
theorem encodeRecord_decodeRecord_iff {e : EventArgs} (h : e.InRange) {r : Record}
    (hr : encodeEventRecord e = .ok r.val) :
    encodeRecord (decodeRecord r) = .ok r.val ↔
      100 ≤ e.anchor.year ∧ (∀ date ∈ e.end_, 100 ≤ date.year) ∧
        TitleKept ((bufferFrom e.title).take 23) := by
  obtain ⟨⟨hyear, hend⟩, hbytes⟩ := (encodeEventRecord_ok_iff h r.val).mp hr
  have hfits := h.fits hyear hend
  obtain ⟨h1, h2, h3, h4, h5, h6, h7, h8, h9⟩ := e.record.read_head hfits
  obtain ⟨h10, h11, h12, h13, h14⟩ := e.record.read_tail hfits
  rw [← hbytes] at h1 h2 h3 h4 h5 h6 h7 h8 h9 h10 h11 h12 h13 h14
  -- the object that goes back
  have hargs : (decodeRecord r).args =
      { id := e.record.id, ruleKind := e.record.ruleKind, hour := e.record.hour,
        minute := e.record.minute,
        anchor := newDate e.anchor.year.toNat (e.anchor.month - 1) e.anchor.day,
        param := e.record.param, enabled := e.enabled,
        title := (units (decode (titleField e.record.title))).takeWhile (· ≠ 0),
        lastModified := e.record.lastModified, end_ := endAgain e.end_ } := by
    have henabled : (decide ((r.val.getD 10 0).toNat % 2 = 1)) = e.enabled := by
      rw [h9]
      unfold EventArgs.record
      cases e.enabled <;> rfl
    unfold CliEvent.args decodeRecord
    dsimp only
    rw [h1, h2, h3, h4, h5, h6, h7, h8, henabled, h10, h11, h12, h13, h14]
    rfl
  have htitle : titleField ((decodeRecord r).args.record.title) = rewritten e.record.title := by
    rw [hargs]
    unfold EventArgs.record bufferFrom
    dsimp only
    rw [takeWhile_units, scalars_units]
    rfl
  have hrange : (decodeRecord r).args.InRange := by
    have hid := hfits.id
    have hkind := hfits.ruleKind
    have hhour := hfits.hour
    have hminute := hfits.minute
    have hparam := hfits.param
    have hmodified := hfits.lastModified
    rw [hargs]
    refine ⟨?_, ?_, ?_, ?_, ?_, ?_⟩
    all_goals dsimp only; omega
  have hkept := title_kept_iff (scalars e.title)
  have hanchor := anchor_kept_iff hyear
  have hends := end_kept_iff hend
  unfold encodeRecord
  rw [encodeEventRecord_ok_iff hrange]
  constructor
  · -- equal bytes are equal fields, and three of them tell
    rintro ⟨⟨hfitsYear, hfitsEnd⟩, hsame⟩
    rw [hbytes] at hsame
    have hfields := (EventRecord.bytes_inj hfits (hrange.fits hfitsYear hfitsEnd)).mp hsame
    simp only [EventRecord.mk.injEq] at hfields
    obtain ⟨-, -, -, -, hy, hm, hd, -, -, ht, -, hey, hem, hed⟩ := hfields
    rw [htitle] at ht
    rw [hargs] at hy hm hd hey hem hed hfitsYear hfitsEnd
    exact ⟨hanchor.mp ⟨hy.symm, hm.symm, hd.symm, hfitsYear⟩,
      hends.mp ⟨hey.symm, hem.symm, hed.symm, hfitsEnd⟩, hkept.mp ht.symm⟩
  · rintro ⟨hge, hgeEnd, htitleKept⟩
    obtain ⟨hy, hm, hd, hfitsYear⟩ := hanchor.mpr hge
    obtain ⟨hey, hem, hed, hfitsEnd⟩ := hends.mpr hgeEnd
    have ht := htitle.trans (hkept.mpr htitleKept)
    have hfitsAgain : YearFits (decodeRecord r).args.anchor.year ∧
        ∀ date ∈ (decodeRecord r).args.end_, YearFits date.year := by
      rw [hargs]
      exact ⟨hfitsYear, hfitsEnd⟩
    refine ⟨hfitsAgain, ?_⟩
    rw [hbytes, EventRecord.bytes_inj hfits (hrange.fits hfitsAgain.1 hfitsAgain.2), ht, hargs]
    simp only [EventRecord.mk.injEq]
    exact ⟨rfl, rfl, rfl, rfl, hy.symm, hm.symm, hd.symm, rfl, rfl, rfl, rfl, hey.symm, hem.symm,
      hed.symm⟩

/-- A record that one of the two encoders of the repository makes, and from
what. -/
inductive Produced (r : Record) : EventArgs → Prop where
  | wire (a : ScheduleArgs) (h : encode_schedule_record a = .ok r.val) :
      Produced r (fromPython a)
  | scheduleProtocol (e : EventArgs) (hrange : e.InRange)
      (h : encodeEventRecord e = .ok r.val) : Produced r e

/-- Both dates have years from 100 on, and the title can be read back. -/
structure EventArgs.ReadBack (e : EventArgs) : Prop where
  anchor : 100 ≤ e.anchor.year
  end_ : ∀ date ∈ e.end_, 100 ≤ date.year
  title : TitleKept ((bufferFrom e.title).take 23)

/-- **Read, modify, write.** An untouched record goes back as it came exactly if
what it was made from can be read back. -/
theorem read_modify_write_iff {r : Record} {e : EventArgs} (h : Produced r e) :
    encodeRecord (decodeRecord r) = .ok r.val ↔ e.ReadBack := by
  have hiff : 100 ≤ e.anchor.year ∧ (∀ date ∈ e.end_, 100 ≤ date.year) ∧
      TitleKept ((bufferFrom e.title).take 23) ↔ e.ReadBack :=
    ⟨fun ⟨ha, he, ht⟩ => ⟨ha, he, ht⟩, fun ⟨ha, he, ht⟩ => ⟨ha, he, ht⟩⟩
  rw [← hiff]
  cases h with
  | wire a h =>
      obtain ⟨haccepted, -⟩ := (encode_schedule_record_ok_iff a _).mp h
      exact encodeRecord_decodeRecord_iff (fromPython_inRange haccepted)
        (encodeEventRecord_agrees h)
  | scheduleProtocol e hrange h => exact encodeRecord_decodeRecord_iff hrange h

/-- The golden vector of `bridge-test.mjs`. -/
def goldenArgs : EventArgs :=
  ⟨1, 2, 17, 0, ⟨2026, 7, 13, by decide, by decide, by decide, by decide⟩, 0x2A, true,
    units "Quran practice".toList, 1784000000, none⟩

def goldenRecord : Record :=
  ⟨[0x01, 0x00, 0x02, 0x11, 0x00, 0xEA, 0x07, 0x07, 0x0D, 0x2A, 0x01,
    0x51, 0x75, 0x72, 0x61, 0x6E, 0x20, 0x70, 0x72, 0x61, 0x63, 0x74, 0x69, 0x63, 0x65,
    0, 0, 0, 0, 0, 0, 0, 0, 0, 0, 0x00, 0xAE, 0x55, 0x6A, 0, 0, 0, 0], rfl⟩

theorem goldenArgs_inRange : goldenArgs.InRange := by
  refine ⟨?_, ?_, ?_, ?_, ?_, ?_⟩
  all_goals decide

theorem read_modify_write_iff_golden :
    encodeRecord (decodeRecord goldenRecord) = .ok goldenRecord.val := by
  refine (read_modify_write_iff (.scheduleProtocol goldenArgs goldenArgs_inRange rfl)).mpr
    ⟨by decide, fun date h => (by cases h), ?_, "Quran practice".toList, 0, by decide, by decide⟩
  intro pre post h
  have hzero : (0 : UInt8) ∉ (bufferFrom goldenArgs.title).take 23 := by decide
  exact absurd (by rw [h]; simp) hzero

/-- Twenty-two letters and an `é`, of which the field keeps the first byte. -/
def cutArgs : EventArgs :=
  { goldenArgs with title := List.replicate 22 0x61 ++ [0xE9] }

def cutRecord : Record :=
  ⟨[0x01, 0x00, 0x02, 0x11, 0x00, 0xEA, 0x07, 0x07, 0x0D, 0x2A, 0x01] ++
    List.replicate 22 0x61 ++ [0xC3, 0, 0x00, 0xAE, 0x55, 0x6A, 0, 0, 0, 0], rfl⟩

/-- The piece of the `é` is read as U+FFFD, and the first byte of that is
written back. -/
theorem read_modify_write_changes_cut_title : Produced cutRecord cutArgs ∧
    encodeRecord (decodeRecord cutRecord) = .ok (cutRecord.val.set 33 0xEF) ∧
    cutRecord.val.set 33 0xEF ≠ cutRecord.val := by
  refine ⟨.scheduleProtocol cutArgs ?_ rfl, rfl, by decide⟩
  refine ⟨?_, ?_, ?_, ?_, ?_, ?_⟩
  all_goals decide

end Ptlab.Js
