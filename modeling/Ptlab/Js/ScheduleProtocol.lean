/-
The encoder of `schedule-protocol.mjs`, and its agreement with the Python one.

JavaScript strings are lists of UTF-16 code units. A `Buffer` is a list of
bytes: an assignment to an index stores a number modulo 256, the `writeUInt`
methods refuse numbers out of range. A `Date` counts by its local calendar day;
`newDate` is the constructor from year, month index and day, with its reading of
the years 0 to 99 and its normalisation of months and days, in a time zone that
skips no day.
-/
import Ptlab.Wire.Record

set_option autoImplicit false

open Bytes Ptlab.Protocol Ptlab.Wire

namespace Ptlab.Js

/-! ## JavaScript -/

/-- What the modelled functions raise. -/
inductive JsError where
  | ERR_OUT_OF_RANGE
  | Error (message : String)
  deriving DecidableEq, Repr

/-- `b[offset] = value`. -/
def setByte (b : List UInt8) (offset : ℕ) (value : ℤ) : List UInt8 :=
  patch b offset [UInt8.ofNat (value % 256).toNat]

/-- `b.writeUInt16LE(value, offset)`. -/
def writeUInt16LE (b : List UInt8) (value : ℤ) (offset : ℕ) : Except JsError (List UInt8) :=
  if 0 ≤ value ∧ value ≤ 0xFFFF then .ok (patch b offset (le16 value.toNat))
  else .error .ERR_OUT_OF_RANGE

/-- `b.writeUInt32LE(value, offset)`. -/
def writeUInt32LE (b : List UInt8) (value : ℤ) (offset : ℕ) : Except JsError (List UInt8) :=
  if 0 ≤ value ∧ value ≤ 0xFFFFFFFF then .ok (patch b offset (le32 value.toNat))
  else .error .ERR_OUT_OF_RANGE

/-- `Buffer.from(title, 'utf8')`. -/
def bufferFrom (title : List UInt16) : List UInt8 := Utf8.encode (Utf8.scalars title)

/-- `new Date(year, monthIndex, day)`. -/
def newDate (year monthIndex day : ℤ) : Civil.Date :=
  let year := if 0 ≤ year ∧ year ≤ 99 then 1900 + year else year
  (Civil.firstOf (year + monthIndex / 12) ((monthIndex % 12).toNat + 1) (by omega)
    (by omega)).shift (day - 1)

/-- A date of the year 100 or later is what its own fields construct. -/
theorem newDate_self (date : Civil.Date) (h : 100 ≤ date.year) :
    newDate date.year (date.month - 1) date.day = date := by
  have hpos := date.month_pos
  have hle := date.month_le
  have hyear : (if 0 ≤ date.year ∧ date.year ≤ 99 then 1900 + date.year else date.year) +
      ((date.month : ℤ) - 1) / 12 = date.year := by
    rw [if_neg (by omega)]
    omega
  have hmonth : (((date.month : ℤ) - 1) % 12).toNat + 1 = date.month := by omega
  have hfirst : ∀ (y : ℤ) (m : ℕ) (hp : 1 ≤ m) (hl : m ≤ 12), y = date.year → m = date.month →
      Civil.firstOf y m hp hl = Civil.firstOf date.year date.month hpos hle := by
    rintro y m hp hl rfl rfl
    rfl
  unfold newDate
  dsimp only
  rw [hfirst _ _ _ _ hyear hmonth]
  exact Civil.shift_first date

/-- The years 0 to 99 are read as 1900 to 1999. -/
theorem newDate_year_ge {year day : ℤ} {month : ℕ} (hyear : 0 ≤ year ∧ year ≤ 99)
    (hmonth : 1 ≤ month) (hle : month ≤ 12) (hday : 1 ≤ day) :
    1900 ≤ (newDate year (month - 1) day).year := by
  unfold newDate
  dsimp only
  rw [if_pos hyear]
  refine le_trans ?_ (Civil.year_le_shift _ (by omega))
  change 1900 ≤ 1900 + year + ((month : ℤ) - 1) / 12
  omega

/-! ## `encodeEventRecord` -/

/-- The object `encodeEventRecord` takes. -/
structure EventArgs where
  id : ℤ
  ruleKind : ℤ
  hour : ℤ
  minute : ℤ
  anchor : Civil.Date
  param : ℤ
  enabled : Bool
  title : List UInt16
  lastModified : ℤ
  end_ : Option Civil.Date

def encodeEventRecord (e : EventArgs) : Except JsError (List UInt8) := do
  let b := List.replicate RECORDS.schedule_record_size 0
  let b ← writeUInt16LE b e.id 0
  let b := setByte b 2 e.ruleKind
  let b := setByte b 3 e.hour
  let b := setByte b 4 e.minute
  let b ← writeUInt16LE b e.anchor.year 5
  let b := setByte b 7 e.anchor.month
  let b := setByte b 8 e.anchor.day
  let b := setByte b 9 e.param
  let b := setByte b 10 e.enabled.toNat
  let b := patch b 11 ((bufferFrom e.title).take 23)
  let b ← writeUInt32LE b e.lastModified 35
  match e.end_ with
  | none => return b
  | some date =>
    let b ← writeUInt16LE b date.year 39
    let b := setByte b 41 date.month
    let b := setByte b 42 date.day
    return b

/-- The integer fields of an object are in their byte ranges. -/
structure EventArgs.InRange (e : EventArgs) : Prop where
  id : 0 ≤ e.id ∧ e.id ≤ 0xFFFF
  ruleKind : 0 ≤ e.ruleKind ∧ e.ruleKind ≤ 0xFF
  hour : 0 ≤ e.hour ∧ e.hour ≤ 0xFF
  minute : 0 ≤ e.minute ∧ e.minute ≤ 0xFF
  param : 0 ≤ e.param ∧ e.param ≤ 0xFF
  lastModified : 0 ≤ e.lastModified ∧ e.lastModified ≤ 0xFFFFFFFF

/-- A year that `writeUInt16LE` takes. -/
def YearFits (year : ℤ) : Prop := 0 ≤ year ∧ year ≤ 0xFFFF

/-- What an object says. -/
def EventArgs.record (e : EventArgs) : EventRecord where
  id := e.id.toNat
  ruleKind := e.ruleKind.toNat
  hour := e.hour.toNat
  minute := e.minute.toNat
  year := e.anchor.year.toNat
  month := e.anchor.month
  day := e.anchor.day
  param := e.param.toNat
  enabled := e.enabled.toNat
  title := (bufferFrom e.title).take 23
  lastModified := e.lastModified.toNat
  endYear := (e.end_.map (·.year.toNat)).getD 0
  endMonth := (e.end_.map (·.month)).getD 0
  endDay := (e.end_.map (·.day)).getD 0

/-- Storing a number that is a byte. -/
theorem setByte_eq (b : List UInt8) (offset : ℕ) {value : ℤ} (h : 0 ≤ value ∧ value ≤ 0xFF) :
    setByte b offset value = patch b offset [UInt8.ofNat value.toNat] := by
  have hmod : value % 256 = value := by omega
  rw [setByte, hmod]

/-- The writes in front of the title are one write. -/
theorem patch_front (b : List UInt8) (hb : 11 ≤ b.length) (id year : ℕ)
    (kind hour minute month day param enabled : UInt8) :
    patch (patch (patch (patch (patch (patch (patch (patch (patch b 0 (le16 id)) 2 [kind]) 3 [hour])
      4 [minute]) 5 (le16 year)) 7 [month]) 8 [day]) 9 [param]) 10 [enabled] =
    patch b 0 (le16 id ++ [kind, hour, minute] ++ le16 year ++ [month, day, param, enabled]) := by
  have hnext : ∀ (xs ys : List UInt8) (j : ℕ), j = xs.length → xs.length ≤ 11 →
      patch (patch b 0 xs) j ys = patch b 0 (xs ++ ys) := fun xs ys j hj hxs =>
    patch_patch (by rw [hj, Nat.zero_add]) (by omega)
  rw [hnext _ _ 2 rfl (by simp), hnext _ _ 3 rfl (by simp), hnext _ _ 4 rfl (by simp),
    hnext _ _ 5 rfl (by simp), hnext _ _ 7 rfl (by simp), hnext _ _ 8 rfl (by simp),
    hnext _ _ 9 rfl (by simp), hnext _ _ 10 rfl (by simp)]
  rfl

/-- The writes of the end date are one write. -/
theorem patch_back (b : List UInt8) (hb : 43 ≤ b.length) (year : ℕ) (month day : UInt8) :
    patch (patch (patch b 39 (le16 year)) 41 [month]) 42 [day] =
      patch b 39 (le16 year ++ [month, day]) := by
  have hnext : ∀ (xs ys : List UInt8) (j : ℕ), j = 39 + xs.length → xs.length ≤ 4 →
      patch (patch b 39 xs) j ys = patch b 39 (xs ++ ys) := fun xs ys j hj hxs =>
    patch_patch hj (by omega)
  rw [hnext _ _ 41 rfl (by simp), hnext _ _ 42 rfl (by simp)]
  rfl

theorem patch_head {e : EventArgs} (h : e.InRange) (b : List UInt8) (hb : 11 ≤ b.length) :
    setByte (setByte (setByte (setByte (patch (setByte (setByte (setByte
      (patch b 0 (le16 e.id.toNat)) 2 e.ruleKind) 3 e.hour) 4 e.minute) 5
      (le16 e.anchor.year.toNat)) 7 e.anchor.month) 8 e.anchor.day) 9 e.param) 10
      e.enabled.toNat = patch b 0 e.record.head := by
  have hmonth := e.anchor.month_le
  have hday := le_trans e.anchor.day_le (Civil.daysInMonth_bounds _ _).2
  have henabled : e.enabled.toNat ≤ 1 := e.enabled.toNat_le
  rw [setByte_eq _ 2 h.ruleKind, setByte_eq _ 3 h.hour, setByte_eq _ 4 h.minute,
    setByte_eq _ 7 (by omega), setByte_eq _ 8 (by omega), setByte_eq _ 9 h.param,
    setByte_eq _ 10 (by omega)]
  exact patch_front b hb _ _ _ _ _ _ _ _ _

theorem patch_end (date : Civil.Date) (b : List UInt8) (hb : 43 ≤ b.length) :
    setByte (setByte (patch b 39 (le16 date.year.toNat)) 41 date.month) 42 date.day =
      patch b 39 (endField date.year.toNat date.month date.day) := by
  have hmonth := date.month_le
  have hday := le_trans date.day_le (Civil.daysInMonth_bounds _ _).2
  rw [setByte_eq _ 41 (by omega), setByte_eq _ 42 (by omega)]
  exact patch_back b hb _ _ _

/-- **The encoder** writes what the object says, if the years fit. -/
theorem encodeEventRecord_ok_iff {e : EventArgs} (h : e.InRange) (b : List UInt8) :
    encodeEventRecord e = .ok b ↔
      (YearFits e.anchor.year ∧ ∀ date ∈ e.end_, YearFits date.year) ∧ b = e.record.bytes := by
  have htitle : e.record.title.length ≤ 23 := List.length_take_le 23 _
  have hid : ∀ b, writeUInt16LE b e.id 0 = .ok (patch b 0 (le16 e.id.toNat)) := fun b =>
    if_pos h.id
  have hmodified : ∀ b, writeUInt32LE b e.lastModified 35 =
      .ok (patch b 35 (le32 e.lastModified.toNat)) := fun b => if_pos h.lastModified
  by_cases hyear : YearFits e.anchor.year
  · have hanchor : ∀ b, writeUInt16LE b e.anchor.year 5 =
        .ok (patch b 5 (le16 e.anchor.year.toNat)) := fun b => if_pos hyear
    unfold encodeEventRecord
    simp only [hid, hanchor, hmodified, bind, Except.bind, pure, Except.pure]
    rw [patch_head h _ (by simp [RECORDS.schedule_record_size])]
    have hwritten : patch (patch (patch (List.replicate RECORDS.schedule_record_size 0) 0
        e.record.head) 11 ((bufferFrom e.title).take 23)) 35 (le32 e.lastModified.toNat) =
        e.record.written := rfl
    rw [hwritten]
    rcases hend : e.end_ with _ | date
    · -- no end date
      dsimp only
      rw [EventRecord.written_eq_bytes htitle (by simp [EventArgs.record, hend])]
      constructor
      · intro hb
        injection hb with hb
        exact ⟨⟨hyear, fun date hdate => by cases hdate⟩, hb.symm⟩
      · rintro ⟨-, rfl⟩
        rfl
    · by_cases hfits : YearFits date.year
      · have hwrite : ∀ b, writeUInt16LE b date.year 39 =
            .ok (patch b 39 (le16 date.year.toNat)) := fun b => if_pos hfits
        have hdate : endField date.year.toNat date.month date.day =
            endField e.record.endYear e.record.endMonth e.record.endDay := by
          simp only [EventArgs.record, hend, Option.map_some, Option.getD_some]
        dsimp only
        rw [hwrite]
        dsimp only
        rw [patch_end date _ (EventRecord.written_length htitle).ge, hdate,
          EventRecord.patch_written htitle]
        constructor
        · intro hb
          injection hb with hb
          refine ⟨⟨hyear, fun d hd => ?_⟩, hb.symm⟩
          obtain rfl := Option.some.inj hd
          exact hfits
        · rintro ⟨-, rfl⟩
          rfl
      · have hwrite : ∀ b, writeUInt16LE b date.year 39 = .error .ERR_OUT_OF_RANGE := fun b =>
          if_neg hfits
        dsimp only
        rw [hwrite]
        exact ⟨fun hb => (by cases hb), fun hall => absurd (hall.1.2 date rfl) hfits⟩
  · have hanchor : ∀ b, writeUInt16LE b e.anchor.year 5 = .error .ERR_OUT_OF_RANGE := fun b =>
      if_neg hyear
    unfold encodeEventRecord
    simp only [hid, hanchor, bind, Except.bind]
    exact ⟨fun hb => (by cases hb), fun hall => absurd hall.1.1 hyear⟩

/-! ## Agreement with `encode_schedule_record` -/

/-- The same values as a JavaScript object: the dates as local dates, the title
as its code units. -/
def fromPython (a : ScheduleArgs) : EventArgs where
  id := a.identifier
  ruleKind := a.rule_kind
  hour := a.hour
  minute := a.minute
  anchor := a.anchor.val
  param := a.parameter
  enabled := a.enabled
  title := Utf8.units a.title.toList
  lastModified := a.last_modified
  end_ := a.end_.map Subtype.val

/-- Both say the same, as long as the title needs no cut. -/
theorem fromPython_record {a : ScheduleArgs}
    (h : (Utf8.encode a.title.toList).length ≤ 23) : (fromPython a).record = a.record := by
  have htitle : (bufferFrom (fromPython a).title).take 23 = Utf8.encode a.title.toList := by
    unfold bufferFrom fromPython
    rw [Utf8.scalars_units]
    exact List.take_of_length_le h
  unfold EventArgs.record ScheduleArgs.record
  rw [htitle]
  unfold fromPython
  rcases a.end_ with _ | date <;> rfl

theorem fromPython_inRange {a : ScheduleArgs} (h : a.Accepted) : (fromPython a).InRange := by
  have hkind := h.rule_kind
  have hhour := h.hour
  have hminute := h.minute
  refine ⟨h.identifier, ?_, ?_, ?_, h.parameter, h.last_modified⟩
  · exact ⟨hkind.1, hkind.2.trans (by decide)⟩
  · exact ⟨hhour.1, hhour.2.trans (by decide)⟩
  · exact ⟨hminute.1, hminute.2.trans (by decide)⟩

/-- **The encoders agree.** Whatever `encode_schedule_record` accepts,
`encodeEventRecord` encodes to the same bytes. -/
theorem encodeEventRecord_agrees {a : ScheduleArgs} {b : List UInt8}
    (h : encode_schedule_record a = .ok b) : encodeEventRecord (fromPython a) = .ok b := by
  obtain ⟨haccepted, rfl⟩ := (encode_schedule_record_ok_iff a b).mp h
  have hyears : ∀ date : PyDate, YearFits date.val.year := fun date =>
    ⟨le_trans (by decide) date.property.1, date.property.2.trans (by decide)⟩
  refine (encodeEventRecord_ok_iff (fromPython_inRange haccepted) _).mpr
    ⟨⟨hyears a.anchor, fun date hdate => ?_⟩, ?_⟩
  · obtain ⟨d, -, rfl⟩ := Option.map_eq_some_iff.mp hdate
    exact hyears d
  · rw [fromPython_record haccepted.title]

/-- The golden vector of `bridge-test.mjs`. -/
theorem encodeEventRecord_agrees_golden :
    encodeEventRecord ⟨1, 2, 17, 0, ⟨2026, 7, 13, by decide, by decide, by decide, by decide⟩,
        0x2A, true, Utf8.units "Quran practice".toList, 1784000000, none⟩ =
      .ok [0x01, 0x00, 0x02, 0x11, 0x00, 0xEA, 0x07, 0x07, 0x0D, 0x2A, 0x01,
        0x51, 0x75, 0x72, 0x61, 0x6E, 0x20, 0x70, 0x72, 0x61, 0x63, 0x74, 0x69, 0x63, 0x65,
        0, 0, 0, 0, 0, 0, 0, 0, 0, 0, 0x00, 0xAE, 0x55, 0x6A, 0, 0, 0, 0] := by
  have h : encode_schedule_record ⟨1, "Quran practice", 17, 0, 2,
      ⟨⟨2026, 7, 13, by decide, by decide, by decide, by decide⟩, by decide⟩, 0x2A, true,
      1784000000, none⟩ =
    .ok [0x01, 0x00, 0x02, 0x11, 0x00, 0xEA, 0x07, 0x07, 0x0D, 0x2A, 0x01,
      0x51, 0x75, 0x72, 0x61, 0x6E, 0x20, 0x70, 0x72, 0x61, 0x63, 0x74, 0x69, 0x63, 0x65,
      0, 0, 0, 0, 0, 0, 0, 0, 0, 0, 0x00, 0xAE, 0x55, 0x6A, 0, 0, 0, 0] := rfl
  exact encodeEventRecord_agrees h

end Ptlab.Js
