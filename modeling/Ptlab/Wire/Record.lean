/-
The 43-byte schedule record, and the encoder of `src/ptlab/wire.py`.

`EventRecord` is what a record says, and `EventRecord.bytes` the layout: the
fields at fixed offsets, the title in 24 bytes of which the last is zero. Both
encoders of the repository write into a zeroed buffer piece by piece;
`patch_bytes` says which writes amount to the layout.
-/
import Ptlab.Lib.Bytes
import Ptlab.Lib.Civil
import Ptlab.Lib.Utf8
import Ptlab.Protocol

set_option autoImplicit false

open Bytes Ptlab.Protocol

namespace Ptlab.Wire

/-! ## The layout -/

/-- What a schedule record says. The title is its bytes, without the zeros that
fill the field. -/
structure EventRecord where
  id : ℕ
  ruleKind : ℕ
  hour : ℕ
  minute : ℕ
  year : ℕ
  month : ℕ
  day : ℕ
  param : ℕ
  enabled : ℕ
  title : List UInt8
  lastModified : ℕ
  endYear : ℕ
  endMonth : ℕ
  endDay : ℕ
  deriving DecidableEq, Repr

/-- Every field fits its place. -/
structure EventRecord.Fits (e : EventRecord) : Prop where
  id : e.id < 65536
  ruleKind : e.ruleKind < 256
  hour : e.hour < 256
  minute : e.minute < 256
  year : e.year < 65536
  month : e.month < 256
  day : e.day < 256
  param : e.param < 256
  enabled : e.enabled < 256
  title : e.title.length ≤ 23
  lastModified : e.lastModified < 4294967296
  endYear : e.endYear < 65536
  endMonth : e.endMonth < 256
  endDay : e.endDay < 256

/-- The bytes in front of the title. -/
def EventRecord.head (e : EventRecord) : List UInt8 :=
  le16 e.id ++ [UInt8.ofNat e.ruleKind, UInt8.ofNat e.hour, UInt8.ofNat e.minute] ++
    le16 e.year ++
    [UInt8.ofNat e.month, UInt8.ofNat e.day, UInt8.ofNat e.param, UInt8.ofNat e.enabled]

/-- The title's field. -/
def titleField (title : List UInt8) : List UInt8 :=
  title ++ List.replicate (24 - title.length) 0

/-- The end date's bytes. -/
def endField (year month day : ℕ) : List UInt8 :=
  le16 year ++ [UInt8.ofNat month, UInt8.ofNat day]

/-- The record. -/
def EventRecord.bytes (e : EventRecord) : List UInt8 :=
  e.head ++ titleField e.title ++ le32 e.lastModified ++ endField e.endYear e.endMonth e.endDay

@[simp] theorem EventRecord.head_length (e : EventRecord) : e.head.length = 11 := rfl

theorem titleField_length {title : List UInt8} (h : title.length ≤ 23) :
    (titleField title).length = 24 := by
  rw [titleField, List.length_append, List.length_replicate]
  omega

theorem EventRecord.bytes_length {e : EventRecord} (h : e.title.length ≤ 23) :
    e.bytes.length = RECORDS.schedule_record_size := by
  simp only [EventRecord.bytes, endField, List.length_append, head_length, titleField_length h,
    le32_length, le16_length, List.length_cons, List.length_nil, RECORDS.schedule_record_size]

/-- The record in two pieces: what stands in front of the title, and the rest. -/
theorem EventRecord.bytes_head (e : EventRecord) : e.bytes = e.head ++
    (titleField e.title ++ (le32 e.lastModified ++ endField e.endYear e.endMonth e.endDay)) := by
  unfold EventRecord.bytes
  rw [List.append_assoc, List.append_assoc]

/-- **Reading the layout back**, field by field. -/
theorem EventRecord.read_head {e : EventRecord} (h : e.Fits) :
    read16 e.bytes 0 = e.id ∧ (e.bytes.getD 2 0).toNat = e.ruleKind ∧
      (e.bytes.getD 3 0).toNat = e.hour ∧ (e.bytes.getD 4 0).toNat = e.minute ∧
      read16 e.bytes 5 = e.year ∧ (e.bytes.getD 7 0).toNat = e.month ∧
      (e.bytes.getD 8 0).toNat = e.day ∧ (e.bytes.getD 9 0).toNat = e.param ∧
      (e.bytes.getD 10 0).toNat = e.enabled := by
  rw [e.bytes_head]
  have hyear : ∀ c, read16 (e.head ++ c) 5 = e.year := by
    intro c
    have hsplit : e.head ++ c = (le16 e.id ++ [UInt8.ofNat e.ruleKind, UInt8.ofNat e.hour,
        UInt8.ofNat e.minute]) ++ (le16 e.year ++ ([UInt8.ofNat e.month, UInt8.ofNat e.day,
        UInt8.ofNat e.param, UInt8.ofNat e.enabled] ++ c)) := by
      unfold EventRecord.head
      simp only [List.append_assoc]
    rw [hsplit]
    exact (read16_append_right _ (k := 5) rfl 0).trans (read16_le16 h.year _)
  refine ⟨?_, ?_, ?_, ?_, hyear _, ?_, ?_, ?_, ?_⟩
  · unfold EventRecord.head
    simp only [List.append_assoc]
    exact read16_le16 h.id _
  · exact toNat_ofNat_lt h.ruleKind
  · exact toNat_ofNat_lt h.hour
  · exact toNat_ofNat_lt h.minute
  · exact toNat_ofNat_lt h.month
  · exact toNat_ofNat_lt h.day
  · exact toNat_ofNat_lt h.param
  · exact toNat_ofNat_lt h.enabled

theorem EventRecord.read_tail {e : EventRecord} (h : e.Fits) :
    (e.bytes.drop 11).take 24 = titleField e.title ∧ read32 e.bytes 35 = e.lastModified ∧
      read16 e.bytes 39 = e.endYear ∧ (e.bytes.getD 41 0).toNat = e.endMonth ∧
      (e.bytes.getD 42 0).toNat = e.endDay := by
  have htitle := titleField_length h.title
  have h35 : (e.head ++ titleField e.title).length = 35 := by
    rw [List.length_append, EventRecord.head_length, htitle]
  have h39 : (e.head ++ titleField e.title ++ le32 e.lastModified).length = 39 := by
    rw [List.length_append, h35, le32_length]
  refine ⟨?_, ?_, ?_, ?_, ?_⟩
  · have hdrop : e.bytes.drop 11 = titleField e.title ++
        (le32 e.lastModified ++ endField e.endYear e.endMonth e.endDay) := by
      rw [e.bytes_head]
      exact List.drop_left' e.head_length
    rw [hdrop, ← htitle]
    exact List.take_left
  · have hread := read32_append_right
      (le32 e.lastModified ++ endField e.endYear e.endMonth e.endDay) h35 0
    rw [← List.append_assoc] at hread
    exact hread.trans (read32_le32 h.lastModified _)
  · exact (read16_append_right _ h39 0).trans (read16_le16 h.endYear _)
  · exact (congrArg UInt8.toNat (getD_append_right _ h39 2)).trans (toNat_ofNat_lt h.endMonth)
  · exact (congrArg UInt8.toNat (getD_append_right _ h39 3)).trans (toNat_ofNat_lt h.endDay)

/-- **Two records are the same** exactly if they agree in every number and in the
title's field. -/
theorem EventRecord.bytes_inj {e f : EventRecord} (he : e.Fits) (hf : f.Fits) :
    e.bytes = f.bytes ↔ { e with title := titleField e.title } =
      { f with title := titleField f.title } := by
  constructor
  · intro h
    obtain ⟨h1, h2, h3, h4, h5, h6, h7, h8, h9⟩ := e.read_head he
    obtain ⟨i1, i2, i3, i4, i5, i6, i7, i8, i9⟩ := f.read_head hf
    obtain ⟨h10, h11, h12, h13, h14⟩ := e.read_tail he
    obtain ⟨i10, i11, i12, i13, i14⟩ := f.read_tail hf
    rw [h] at h1 h2 h3 h4 h5 h6 h7 h8 h9 h10 h11 h12 h13 h14
    simp only [EventRecord.mk.injEq]
    exact ⟨h1.symm.trans i1, h2.symm.trans i2, h3.symm.trans i3, h4.symm.trans i4,
      h5.symm.trans i5, h6.symm.trans i6, h7.symm.trans i7, h8.symm.trans i8, h9.symm.trans i9,
      h10.symm.trans i10, h11.symm.trans i11, h12.symm.trans i12, h13.symm.trans i13,
      h14.symm.trans i14⟩
  · intro h
    simp only [EventRecord.mk.injEq] at h
    obtain ⟨h1, h2, h3, h4, h5, h6, h7, h8, h9, h10, h11, h12, h13, h14⟩ := h
    simp only [EventRecord.bytes, EventRecord.head, h1, h2, h3, h4, h5, h6, h7, h8, h9, h10, h11,
      h12, h13, h14]

/-- A zeroed buffer with everything but the end date written into it. -/
def EventRecord.written (e : EventRecord) : List UInt8 :=
  patch (patch (patch (List.replicate RECORDS.schedule_record_size 0) 0 e.head) 11 e.title) 35
    (le32 e.lastModified)

theorem EventRecord.written_eq (e : EventRecord) (h : e.title.length ≤ 23) :
    e.written = e.head ++ titleField e.title ++ le32 e.lastModified ++ [0, 0, 0, 0] := by
  -- cut the zeros where the writes go, so that each replaces a piece of its own length
  have hzeros : List.replicate RECORDS.schedule_record_size (0 : UInt8) =
      [] ++ List.replicate 11 0 ++ (List.replicate e.title.length 0 ++
        (List.replicate (24 - e.title.length) 0 ++ (List.replicate 4 0 ++
          [0, 0, 0, 0]))) := by
    have hlast : ([0, 0, 0, 0] : List UInt8) = List.replicate 4 0 := rfl
    rw [hlast]
    simp only [← List.replicate_add, List.nil_append]
    congr 1
    unfold RECORDS.schedule_record_size
    omega
  have h35 : (e.head ++ e.title ++ List.replicate (24 - e.title.length) 0).length = 35 := by
    simp only [List.length_append, head_length, List.length_replicate]
    omega
  rw [EventRecord.written, hzeros,
    patch_append List.length_nil (by rw [head_length, List.length_replicate]),
    List.nil_append, ← List.append_assoc,
    patch_append e.head_length (by rw [List.length_replicate]), ← List.append_assoc,
    ← List.append_assoc, patch_append h35 (by rw [List.length_replicate, le32_length])]
  unfold titleField
  simp only [List.append_assoc]

theorem EventRecord.written_length {e : EventRecord} (h : e.title.length ≤ 23) :
    e.written.length = RECORDS.schedule_record_size := by
  simp only [e.written_eq h, List.length_append, head_length, titleField_length h, le32_length,
    List.length_cons, List.length_nil, RECORDS.schedule_record_size]

/-- Without an end date that is all. -/
theorem EventRecord.written_eq_bytes {e : EventRecord} (h : e.title.length ≤ 23)
    (hend : e.endYear = 0 ∧ e.endMonth = 0 ∧ e.endDay = 0) : e.written = e.bytes := by
  rw [e.written_eq h, EventRecord.bytes, hend.1, hend.2.1, hend.2.2]
  rfl

/-- An end date goes over the last four zeros. -/
theorem EventRecord.patch_written {e : EventRecord} (h : e.title.length ≤ 23) :
    patch e.written 39 (endField e.endYear e.endMonth e.endDay) = e.bytes := by
  have h39 : (e.head ++ titleField e.title ++ le32 e.lastModified).length = 39 := by
    rw [List.length_append, List.length_append, head_length, titleField_length h, le32_length]
  have hlast : patch (e.head ++ titleField e.title ++ le32 e.lastModified ++ [0, 0, 0, 0] ++ [])
      39 (endField e.endYear e.endMonth e.endDay) = e.head ++ titleField e.title ++
        le32 e.lastModified ++ endField e.endYear e.endMonth e.endDay ++ [] :=
    patch_append h39 rfl
  rw [List.append_nil, List.append_nil] at hlast
  rw [e.written_eq h, hlast]
  rfl

/-! ## `encode_schedule_record` -/

/-- What the functions of `wire.py` raise. The text of a `struct.error` is the
library's. -/
inductive WireError where
  | ValueError (message : String)
  | StructError
  | RuntimeError (message : String)
  | KeyError (key : String)
  deriving DecidableEq, Repr

/-- A `datetime.date`. -/
abbrev PyDate : Type := {date : Civil.Date // 1 ≤ date.year ∧ date.year ≤ 9999}

/-- The arguments of `encode_schedule_record`. A title with a lone surrogate,
which `str.encode` refuses, is not among them. -/
structure ScheduleArgs where
  identifier : ℤ
  title : String
  hour : ℤ
  minute : ℤ
  rule_kind : ℤ
  anchor : PyDate
  parameter : ℤ
  enabled : Bool
  last_modified : ℤ
  end_ : Option PyDate

def encode_schedule_record (a : ScheduleArgs) : Except WireError (List UInt8) :=
  if ¬ (0 ≤ a.identifier ∧ a.identifier ≤ 0xFFFF) then
    .error (.ValueError "schedule identifier must be a u16")
  else if ¬ (0 ≤ a.rule_kind ∧ a.rule_kind ≤ 3) then
    .error (.ValueError "schedule rule kind must be between 0 and 3")
  else if ¬ (0 ≤ a.hour ∧ a.hour ≤ 23) ∨ ¬ (0 ≤ a.minute ∧ a.minute ≤ 59) then
    .error (.ValueError "schedule time is invalid")
  else if ¬ (0 ≤ a.parameter ∧ a.parameter ≤ 0xFF) then
    .error (.ValueError "schedule parameter must be a u8")
  else
    let title_bytes := Utf8.encode a.title.toList
    if title_bytes.length > 23 then
      .error (.ValueError "schedule title exceeds 23 UTF-8 bytes")
    else
      let record := List.replicate RECORDS.schedule_record_size 0
      let record := patch record 0 (le16 a.identifier.toNat ++
        [UInt8.ofNat a.rule_kind.toNat, UInt8.ofNat a.hour.toNat, UInt8.ofNat a.minute.toNat] ++
        le16 a.anchor.val.year.toNat ++
        [UInt8.ofNat a.anchor.val.month, UInt8.ofNat a.anchor.val.day,
          UInt8.ofNat a.parameter.toNat, UInt8.ofNat a.enabled.toNat])
      let record := patch record 11 title_bytes
      -- `pack_into("<I", ...)` does its own range check
      if ¬ (0 ≤ a.last_modified ∧ a.last_modified ≤ 0xFFFFFFFF) then
        .error .StructError
      else
        let record := patch record 35 (le32 a.last_modified.toNat)
        match a.end_ with
        | none => .ok record
        | some date =>
          .ok (patch record 39 (le16 date.val.year.toNat ++
            [UInt8.ofNat date.val.month, UInt8.ofNat date.val.day]))

/-- The arguments the encoder accepts. -/
structure ScheduleArgs.Accepted (a : ScheduleArgs) : Prop where
  identifier : 0 ≤ a.identifier ∧ a.identifier ≤ 0xFFFF
  rule_kind : 0 ≤ a.rule_kind ∧ a.rule_kind ≤ 3
  hour : 0 ≤ a.hour ∧ a.hour ≤ 23
  minute : 0 ≤ a.minute ∧ a.minute ≤ 59
  parameter : 0 ≤ a.parameter ∧ a.parameter ≤ 0xFF
  title : (Utf8.encode a.title.toList).length ≤ 23
  last_modified : 0 ≤ a.last_modified ∧ a.last_modified ≤ 0xFFFFFFFF

/-- What the arguments say. A date that is not given is all zeros. -/
def ScheduleArgs.record (a : ScheduleArgs) : EventRecord where
  id := a.identifier.toNat
  ruleKind := a.rule_kind.toNat
  hour := a.hour.toNat
  minute := a.minute.toNat
  year := a.anchor.val.year.toNat
  month := a.anchor.val.month
  day := a.anchor.val.day
  param := a.parameter.toNat
  enabled := a.enabled.toNat
  title := Utf8.encode a.title.toList
  lastModified := a.last_modified.toNat
  endYear := (a.end_.map (·.val.year.toNat)).getD 0
  endMonth := (a.end_.map (·.val.month)).getD 0
  endDay := (a.end_.map (·.val.day)).getD 0

/-- **The encoder** writes what its arguments say. -/
theorem encode_schedule_record_ok_iff (a : ScheduleArgs) (b : List UInt8) :
    encode_schedule_record a = .ok b ↔ a.Accepted ∧ b = a.record.bytes := by
  have hwrite : (Utf8.encode a.title.toList).length ≤ 23 →
      (match a.end_ with
        | none => (.ok a.record.written : Except WireError (List UInt8))
        | some date => .ok (patch a.record.written 39
            (endField date.val.year.toNat date.val.month date.val.day))) =
        .ok a.record.bytes := by
    intro htitle
    have htitle : a.record.title.length ≤ 23 := htitle
    rcases hend : a.end_ with _ | date
    · dsimp only
      rw [EventRecord.written_eq_bytes htitle (by simp [ScheduleArgs.record, hend])]
    · have hdate : endField date.val.year.toNat date.val.month date.val.day =
          endField a.record.endYear a.record.endMonth a.record.endDay := by
        simp only [ScheduleArgs.record, hend, Option.map_some, Option.getD_some]
      dsimp only
      rw [hdate, EventRecord.patch_written htitle]
  constructor
  · -- an accepted call has passed every check, and its writes are those of `hwrite`
    intro h
    unfold encode_schedule_record at h
    dsimp only at h
    split_ifs at h with h1 h2 h3 h4 h5 h6
    rw [not_or] at h3
    have htitle : (Utf8.encode a.title.toList).length ≤ 23 := by omega
    refine ⟨⟨by omega, by omega, by omega, by omega, by omega, htitle, by omega⟩, ?_⟩
    have hb := h.symm.trans (hwrite htitle)
    injection hb
  · rintro ⟨⟨h1, h2, h3, h4, h5, h6, h7⟩, rfl⟩
    unfold encode_schedule_record
    dsimp only
    rw [if_neg (not_not.mpr h1), if_neg (not_not.mpr h2), if_neg (by simp [h3, h4]),
      if_neg (not_not.mpr h5), if_neg (by omega), if_neg (not_not.mpr h7)]
    exact hwrite h6

end Ptlab.Wire
