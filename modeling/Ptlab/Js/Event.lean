/-
Events of `companion-cli.mjs` as objects of JavaScript numbers, and the push of a list
of them.

The numbers of an event come out of a record or out of `Number(text)`, so that they can
be NaN, infinite, or no integers. What the encoder makes of such an object is again one
record (`encode_ok_iff`); a `Date` that has no time value counts as zeros there. An
event that was pulled is encoded as `encodeRecord` encodes it (`encode_pulled`).
-/
import Ptlab.Js.Push
import Ptlab.Lib.JsNumber

set_option autoImplicit false

open Bytes Dialogue Effect JsNumber Utf8 Ptlab.Gatt Ptlab.Protocol Ptlab.Wire

namespace Ptlab.Js

/-! ## Dates that may be invalid -/

/-- The days on which the time value of a `Date` begins and ends in a time zone: a day
apart from those of another zone, and in these years. -/
structure Zone where
  first : Civil.Date
  last : Civil.Date
  first_year : first.year = -271821
  last_year : last.year = 275760

/-- `a` is not behind `b`. -/
def notAfter (a b : Civil.Date) : Bool :=
  a.year < b.year || (a.year = b.year && (a.month < b.month ||
    (a.month = b.month && a.day ≤ b.day)))

theorem notAfter_of_year_lt {a b : Civil.Date} (h : a.year < b.year) : notAfter a b = true := by
  unfold notAfter
  rw [decide_eq_true h, Bool.true_or]

/-- `new Date(year, monthIndex, day)`, and nothing if that is invalid. -/
def Zone.date (zone : Zone) (year monthIndex day : JsNumber) : Option Civil.Date :=
  match year, monthIndex, day with
  | .finite y, .finite m, .finite d =>
    let date := newDate (trunc y) (trunc m) (trunc d)
    if notAfter zone.first date && notAfter date zone.last then some date else none
  | _, _, _ => none

/-- `date.getFullYear()`, where NaN is none. -/
def getFullYear (date : Option Civil.Date) : Option ℤ := date.map Civil.Date.year

/-- `date.getMonth() + 1`. -/
def getMonth (date : Option Civil.Date) : JsNumber :=
  (date.map fun d => JsNumber.finite d.month).getD .nan

/-- `date.getDate()`. -/
def getDate (date : Option Civil.Date) : JsNumber :=
  (date.map fun d => JsNumber.finite d.day).getD .nan

/-! ## The encoder -/

/-- The object of an event. What it does not have counts as NaN. -/
structure JsEvent where
  id : ℕ
  ruleKind : ℕ
  hour : JsNumber
  minute : JsNumber
  year : JsNumber
  month : JsNumber
  day : JsNumber
  param : JsNumber
  enabled : Bool
  title : List UInt16
  lastModified : ℕ
  endYear : JsNumber
  endMonth : JsNumber
  endDay : JsNumber

/-- `b[offset] = value`. -/
def store (b : List UInt8) (offset : ℕ) (value : JsNumber) : List UInt8 :=
  patch b offset [value.toUint8]

/-- `b.writeUInt16LE(value, offset)`: a NaN is not found out of range, and leaves
zeros. -/
def writeYear (b : List UInt8) (value : Option ℤ) (offset : ℕ) : Except JsError (List UInt8) :=
  match value with
  | some year => writeUInt16LE b year offset
  | none => .ok (patch b offset [0, 0])

section Encode

variable (zone : Zone)

def JsEvent.anchor (e : JsEvent) : Option Civil.Date := zone.date e.year (e.month.sub 1) e.day

def JsEvent.end_ (e : JsEvent) : Option (Option Civil.Date) :=
  if e.endYear.truthy then some (zone.date e.endYear (e.endMonth.sub 1) e.endDay) else none

/-- `encodeRecord`, down to the bytes that `encodeEventRecord` stores. -/
def JsEvent.encode (e : JsEvent) : Except JsError (List UInt8) := do
  let anchor := e.anchor zone
  let b := List.replicate RECORDS.schedule_record_size 0
  let b ← writeUInt16LE b e.id 0
  let b := store b 2 (.finite e.ruleKind)
  let b := store b 3 e.hour
  let b := store b 4 e.minute
  let b ← writeYear b (getFullYear anchor) 5
  let b := store b 7 (getMonth anchor)
  let b := store b 8 (getDate anchor)
  let b := store b 9 e.param
  let b := store b 10 (.finite e.enabled.toNat)
  let b := patch b 11 ((bufferFrom e.title).take 23)
  let b ← writeUInt32LE b e.lastModified 35
  match e.end_ zone with
  | none => return b
  | some date =>
    let b ← writeYear b (getFullYear date) 39
    let b := store b 41 (getMonth date)
    let b := store b 42 (getDate date)
    return b

/-- The parts of a date in a record. -/
def yearIn (date : Option Civil.Date) : ℕ := ((getFullYear date).map Int.toNat).getD 0

def monthIn (date : Option Civil.Date) : ℕ := (date.map Civil.Date.month).getD 0

def dayIn (date : Option Civil.Date) : ℕ := (date.map Civil.Date.day).getD 0

/-- What the object says. -/
def JsEvent.record (e : JsEvent) : EventRecord where
  id := e.id
  ruleKind := e.ruleKind % 256
  hour := e.hour.toUint8.toNat
  minute := e.minute.toUint8.toNat
  year := yearIn (e.anchor zone)
  month := monthIn (e.anchor zone)
  day := dayIn (e.anchor zone)
  param := e.param.toUint8.toNat
  enabled := e.enabled.toNat
  title := (bufferFrom e.title).take 23
  lastModified := e.lastModified
  endYear := ((e.end_ zone).map yearIn).getD 0
  endMonth := ((e.end_ zone).map monthIn).getD 0
  endDay := ((e.end_ zone).map dayIn).getD 0

end Encode

theorem toUint8_getMonth (date : Option Civil.Date) :
    (getMonth date).toUint8 = UInt8.ofNat (monthIn date) := by
  cases date with
  | none => rfl
  | some d => exact toUint8_natCast d.month

theorem toUint8_getDate (date : Option Civil.Date) :
    (getDate date).toUint8 = UInt8.ofNat (dayIn date) := by
  cases date with
  | none => rfl
  | some d => exact toUint8_natCast d.day

/-- A year that is written. -/
theorem writeYear_ok {date : Option Civil.Date} (h : ∀ d ∈ date, YearFits d.year) (b : List UInt8)
    (offset : ℕ) : writeYear b (getFullYear date) offset = .ok (patch b offset (le16 (yearIn date))) := by
  cases date with
  | none => rfl
  | some d => exact if_pos (h d rfl)

theorem writeYear_error {date : Option Civil.Date} (h : ¬ ∀ d ∈ date, YearFits d.year)
    (b : List UInt8) (offset : ℕ) :
    writeYear b (getFullYear date) offset = .error .ERR_OUT_OF_RANGE := by
  cases date with
  | none => exact absurd (fun d hd => by cases hd) h
  | some d => exact if_neg fun hfits => h fun d' hd' => Option.some.inj hd' ▸ hfits

/-- An object whose number and time fit their places. Those of its numbers that came
from texts need not. -/
structure JsEvent.Sized (e : JsEvent) : Prop where
  id : e.id ≤ 0xFFFF
  lastModified : e.lastModified ≤ 0xFFFFFFFF

/-- Both dates, if they are valid, have years that are written. -/
def JsEvent.Dated (zone : Zone) (e : JsEvent) : Prop :=
  (∀ date ∈ e.anchor zone, YearFits date.year) ∧
    ∀ end_ ∈ e.end_ zone, ∀ date ∈ end_, YearFits date.year

theorem head_record (zone : Zone) (e : JsEvent) : (e.record zone).head =
    le16 e.id ++ [JsNumber.toUint8 (.finite e.ruleKind), e.hour.toUint8, e.minute.toUint8] ++
      le16 (yearIn (e.anchor zone)) ++
      [(getMonth (e.anchor zone)).toUint8, (getDate (e.anchor zone)).toUint8, e.param.toUint8,
        JsNumber.toUint8 (.finite e.enabled.toNat)] := by
  have hkind : UInt8.ofNat (e.ruleKind % 256) = UInt8.ofNat e.ruleKind := by
    apply UInt8.toNat_inj.mp
    rw [UInt8.toNat_ofNat', UInt8.toNat_ofNat']
    omega
  rw [toUint8_getMonth, toUint8_getDate, toUint8_natCast, toUint8_natCast, ← hkind]
  unfold EventRecord.head JsEvent.record
  simp only [UInt8.ofNat_toNat]

/-- **The encoder** writes what the object says, if its dates can be written. -/
theorem encode_ok_iff {zone : Zone} {e : JsEvent} (h : e.Sized) (b : List UInt8) :
    e.encode zone = .ok b ↔ e.Dated zone ∧ b = (e.record zone).bytes := by
  have htitle : (e.record zone).title.length ≤ 23 := List.length_take_le 23 _
  have hid : ∀ b, writeUInt16LE b e.id 0 = .ok (patch b 0 (le16 e.id)) := fun b =>
    if_pos ⟨Int.natCast_nonneg _, by exact_mod_cast h.id⟩
  have hmodified : ∀ b, writeUInt32LE b e.lastModified 35 = .ok (patch b 35 (le32 e.lastModified)) :=
    fun b => if_pos ⟨Int.natCast_nonneg _, by exact_mod_cast h.lastModified⟩
  by_cases hanchor : ∀ date ∈ e.anchor zone, YearFits date.year
  · have hfront : ∀ b : List UInt8, 11 ≤ b.length →
        store (store (store (store (patch (store (store (store (patch b 0 (le16 e.id)) 2
          (.finite e.ruleKind)) 3 e.hour) 4 e.minute) 5 (le16 (yearIn (e.anchor zone)))) 7
          (getMonth (e.anchor zone))) 8 (getDate (e.anchor zone))) 9 e.param) 10
          (.finite e.enabled.toNat) = patch b 0 (e.record zone).head := by
      intro b hb
      rw [head_record]
      exact patch_front b hb _ _ _ _ _ _ _ _ _
    have hwritten : patch (patch (patch (List.replicate RECORDS.schedule_record_size 0) 0
        (e.record zone).head) 11 ((bufferFrom e.title).take 23)) 35 (le32 e.lastModified) =
        (e.record zone).written := rfl
    unfold JsEvent.encode
    simp only [hid, writeYear_ok hanchor, hmodified, bind, Except.bind, pure, Except.pure]
    rw [hfront _ (by simp [RECORDS.schedule_record_size]), hwritten]
    rcases hend : e.end_ zone with _ | date
    · -- no end date
      dsimp only
      rw [EventRecord.written_eq_bytes htitle (by simp [JsEvent.record, hend]), Except.ok.injEq]
      refine ⟨fun hb => ⟨⟨hanchor, fun end_ hend_ => ?_⟩, hb.symm⟩, fun hb => hb.2.symm⟩
      rw [hend] at hend_
      cases hend_
    · have hfield : endField (yearIn date) (monthIn date) (dayIn date) =
          endField (e.record zone).endYear (e.record zone).endMonth (e.record zone).endDay := by
        simp only [JsEvent.record, hend, Option.map_some, Option.getD_some]
      by_cases hfits : ∀ d ∈ date, YearFits d.year
      · dsimp only
        rw [writeYear_ok hfits]
        dsimp only
        have hback : store (store (patch (e.record zone).written 39 (le16 (yearIn date))) 41
            (getMonth date)) 42 (getDate date) = (e.record zone).bytes := by
          unfold store
          rw [patch_back _ (EventRecord.written_length htitle).ge, toUint8_getMonth,
            toUint8_getDate, ← EventRecord.patch_written htitle, ← hfield]
          rfl
        rw [hback, Except.ok.injEq]
        refine ⟨fun hb => ⟨⟨hanchor, fun end_ hend_ => ?_⟩, hb.symm⟩, fun hb => hb.2.symm⟩
        obtain rfl := Option.some.inj (hend.symm.trans hend_)
        exact hfits
      · dsimp only
        rw [writeYear_error hfits]
        refine ⟨fun hb => (by cases hb), fun hb => absurd (hb.1.2 date hend) hfits⟩
  · unfold JsEvent.encode
    simp only [hid, writeYear_error hanchor, bind, Except.bind]
    exact ⟨fun hb => (by cases hb), fun hb => absurd hb.1.1 hanchor⟩

/-! ## Pulled events -/

/-- A byte that may be missing. -/
def ofByte (n : Option ℕ) : JsNumber := (n.map fun n => JsNumber.finite n).getD .nan

/-- A pulled event as an object. -/
def PulledEvent.js (e : PulledEvent) : JsEvent where
  id := e.id
  ruleKind := e.ruleKind
  hour := .finite e.hour
  minute := .finite e.minute
  year := .finite e.year
  month := .finite e.month
  day := .finite e.day
  param := .finite e.param
  enabled := e.enabled
  title := e.title
  lastModified := e.lastModified
  endYear := .finite e.endYear
  endMonth := ofByte e.endMonth
  endDay := ofByte e.endDay

theorem store_natCast (b : List UInt8) (offset n : ℕ) :
    store b offset (.finite n) = setByte b offset n := by
  unfold store setByte
  rw [← Int.cast_natCast, toUint8_intCast]

theorem sub_one_natCast {n : ℕ} (h : n < 65536) :
    (JsNumber.finite n).sub 1 = .finite ((n - 1 : ℤ) : ℚ) := by
  have hcast : (n : ℚ) - 1 = ((n - 1 : ℤ) : ℚ) := by
    push_cast
    rfl
  unfold JsNumber.sub
  dsimp only
  rw [hcast, round_intCast (by rw [abs_lt]; constructor <;> omega)]

/-- The constructor at small numbers is `newDate`, which does not come near the ends. -/
theorem Zone.date_small (zone : Zone) {year month day : ℕ} (hyear : year < 65536)
    (hmonth : month < 65536) (hday : day < 65536) :
    zone.date (.finite year) ((JsNumber.finite month).sub 1) (.finite day) =
      some (newDate year (month - 1) day) := by
  have htrunc : ∀ n : ℕ, trunc (n : ℚ) = n := fun n => by
    rw [← Int.cast_natCast, trunc_intCast]
  -- the months move the year by a few thousand, and the days by less than their number
  have hbounds : -70000 ≤ (newDate year (month - 1) day).year ∧
      (newDate year (month - 1) day).year ≤ 140000 := by
    have hshift := Civil.year_shift_bounds (Civil.firstOf
      ((if 0 ≤ (year : ℤ) ∧ (year : ℤ) ≤ 99 then 1900 + (year : ℤ) else year) +
        ((month : ℤ) - 1) / 12) ((((month : ℤ) - 1) % 12).toNat + 1) (by omega) (by omega))
      ((day : ℤ) - 1)
    have hdays : |(day : ℤ) - 1| ≤ 65536 := abs_le.mpr ⟨by omega, by omega⟩
    unfold newDate
    dsimp only [Civil.firstOf] at hshift ⊢
    split_ifs at hshift ⊢ <;> omega
  have hfirst := zone.first_year
  have hlast := zone.last_year
  rw [sub_one_natCast hmonth]
  unfold Zone.date
  dsimp only
  rw [htrunc, htrunc, trunc_intCast, notAfter_of_year_lt (by omega), notAfter_of_year_lt (by omega)]
  rfl

/-- The constructor at a day of the calendar, from the year 100 on. -/
theorem Zone.date_civil (zone : Zone) {date : Civil.Date} (hlow : 100 ≤ date.year)
    (hhigh : date.year ≤ 65535) :
    zone.date (.finite date.year) ((JsNumber.finite date.month).sub 1) (.finite date.day) =
      some date := by
  have hmonth := date.month_le
  have hday := le_trans date.day_le (Civil.daysInMonth_bounds _ _).2
  have hyear : ((date.year.toNat : ℕ) : ℤ) = date.year := Int.toNat_of_nonneg (by omega)
  have hcast : (date.year : ℚ) = ((date.year.toNat : ℕ) : ℚ) := by
    rw [← Int.cast_natCast, hyear]
  rw [hcast, zone.date_small (by omega) (by omega) (by omega), hyear, newDate_self date hlow]

/-- An object with a valid anchor is encoded as its numbers are. -/
theorem encode_eq {zone : Zone} {e : JsEvent} {a : EventArgs} {hour minute param : ℕ}
    (hanchor : e.anchor zone = some a.anchor) (hend : e.end_ zone = a.end_.map some)
    (hid : a.id = e.id) (hkind : a.ruleKind = e.ruleKind)
    (hhour : e.hour = .finite hour ∧ a.hour = hour)
    (hminute : e.minute = .finite minute ∧ a.minute = minute)
    (hparam : e.param = .finite param ∧ a.param = param) (henabled : a.enabled = e.enabled)
    (htitle : a.title = e.title) (hmodified : a.lastModified = e.lastModified) :
    e.encode zone = encodeEventRecord a := by
  have hmonth : ∀ date : Civil.Date, getMonth (some date) = .finite date.month := fun _ => rfl
  have hday : ∀ date : Civil.Date, getDate (some date) = .finite date.day := fun _ => rfl
  have hyear : ∀ b (date : Civil.Date) offset,
      writeYear b (getFullYear (some date)) offset = writeUInt16LE b date.year offset :=
    fun _ _ _ => rfl
  unfold JsEvent.encode encodeEventRecord
  rw [hanchor, hend, hhour.1, hminute.1, hparam.1, hhour.2, hminute.2, hparam.2, hid, hkind,
    henabled, htitle, hmodified]
  -- with these the two encoders write the same numbers at the same places
  simp only [hmonth, hday, hyear, store_natCast]
  rcases a.end_ with _ | date
  · rfl
  · simp only [Option.map_some, hmonth, hday, hyear, store_natCast]

/-- A pulled record is encoded as `encodeRecord` encodes it. -/
theorem encode_pulled (zone : Zone) (r : Record) :
    (pulledEvent r.val).js.encode zone = encodeRecord (decodeRecord r) := by
  have hword := read16_lt r.val
  have hbyte : ∀ i, (r.val.getD i 0).toNat < 65536 := fun i =>
    lt_trans (UInt8.toNat_lt _) (by decide)
  have hanchor : (pulledEvent r.val).js.anchor zone = some (decodeRecord r).args.anchor :=
    zone.date_small (hword 5) (hbyte 7) (hbyte 8)
  have hend : (pulledEvent r.val).js.end_ zone = (decodeRecord r).args.end_.map some := by
    have hdate := zone.date_small (hword 39) (hbyte 41) (hbyte 42)
    rw [pulledEvent_record]
    -- a year 0 is falsy, and then there is no end date in either
    by_cases hzero : read16 r.val 39 = 0
    · have htruthy : (JsNumber.finite (read16 r.val 39 : ℕ)).truthy = false := by
        rw [hzero]
        rfl
      have hnone : (decodeRecord r).args.end_ = none := if_neg (not_not.mpr hzero)
      rw [hnone]
      exact if_neg (by rw [Bool.not_eq_true]; exact htruthy)
    · have htruthy : (JsNumber.finite (read16 r.val 39 : ℕ)).truthy = true := by
        unfold JsNumber.truthy
        exact decide_eq_true (Nat.cast_ne_zero.mpr hzero)
      have hsome : (decodeRecord r).args.end_ = some (newDate (read16 r.val 39)
          ((r.val.getD 41 0).toNat - 1) (r.val.getD 42 0).toNat) := if_pos hzero
      rw [hsome]
      exact (if_pos htruthy).trans (congrArg some hdate)
  exact encode_eq hanchor hend rfl rfl ⟨rfl, rfl⟩ ⟨rfl, rfl⟩ ⟨rfl, rfl⟩ rfl rfl rfl

/-! ## `push` of objects -/

/-- One turn of the loop over what the encoder makes of the events. -/
def pushRecord (turn : Except JsError (List UInt8) × ℕ) : Client CliError Unit := do
  let record ← ofJs turn.1
  writeExpected s!"record {turn.2} rejected" (eventMsg turn.2 record)

/-- `push`, of what the encoder makes of the events one by one. -/
def pushEncoded (version : ℤ) (outcomes : List (Except JsError (List UInt8))) :
    Client CliError ℤ := do
  let message ← ofJs (beginSync outcomes.length version)
  writeExpected "BeginSync rejected" message
  outcomes.zipIdx.forM pushRecord
  writeExpected "CommitSync rejected" (commitSync outcomes.length)
  confirm version outcomes.length 10

/-- It is `push`, for events that were decoded. -/
theorem push_eq (version : ℤ) (events : List CliEvent) :
    push version events = pushEncoded version (events.map encodeRecord) := by
  have hloop : events.zipIdx.forM pushEvent = (events.map encodeRecord).zipIdx.forM pushRecord := by
    rw [List.zipIdx_map]
    generalize events.zipIdx = turns
    induction turns with
    | nil => rfl
    | cons turn turns ih =>
        rw [List.map_cons, List.forM, List.forM, ih]
        rfl
  unfold push pushEncoded
  rw [List.length_map, hloop]

/-! ## What a push writes -/

/-- A message of a push of these outcomes: the begin, the commit, or a record at its
index. -/
def MessageOf (outcomes : List (Except JsError (List UInt8))) (payload : List UInt8) : Prop :=
  payload.head? = some 0 ∨ payload.head? = some 2 ∨
    ∃ turn ∈ outcomes.zipIdx, ∃ record, turn.1 = .ok record ∧ payload = eventMsg turn.2 record

/-- A call that writes nothing but `p` to the schedule. -/
def WritesOnly (p : List UInt8 → Prop) (call : Call) : Prop :=
  ∀ payload, call = .request "schedule_sync" OP_WRITE payload → p payload

theorem writesOnly_of_quiet {p : List UInt8 → Prop} {call : Call} (h : Quiet "schedule_sync" call) :
    WritesOnly p call := fun payload heq => absurd heq (h payload)

theorem mem_messagesOf {calls : List Call} {payload : List UInt8} :
    payload ∈ messagesOf "schedule_sync" calls ↔
      .request "schedule_sync" OP_WRITE payload ∈ calls := by
  unfold messagesOf
  rw [List.mem_filterMap]
  constructor
  · rintro ⟨call, hcall, hsome⟩
    cases call with
    | request characteristic operation payload' =>
        dsimp only at hsome
        split_ifs at hsome with hsame
        obtain ⟨rfl, rfl⟩ := hsame
        obtain rfl := Option.some.inj hsome
        exact hcall
    | monotonic => cases hsome
  · exact fun hcall => ⟨_, hcall, if_pos ⟨rfl, rfl⟩⟩

theorem writeExpected_only {p : List UInt8 → Prop} {payload : List UInt8} (h : p payload)
    (message : String) : (writeExpected message payload).AsksOnly (WritesOnly p) := by
  refine asksOnly_bind (asksOnly_question fun payload' heq => ?_) fun reply => ?_
  · injection heq with _ _ hpayload
    exact hpayload ▸ h
  · split_ifs
    · trivial
    · trivial

/-- Whatever the watch answers, a push writes its own messages. -/
theorem pushEncoded_only {version : ℤ} (hversion : 0 ≤ version ∧ version ≤ 0xFFFFFFFF)
    (outcomes : List (Except JsError (List UInt8))) :
    (pushEncoded version outcomes).AsksOnly (WritesOnly (MessageOf outcomes)) := by
  have hbegin : MessageOf outcomes (beginMessage outcomes.length version) := .inl rfl
  have hcommit : MessageOf outcomes (commitSync outcomes.length) := .inr (.inl rfl)
  have hconfirm := (confirm_quiet version outcomes.length 10).mono fun call hcall =>
    writesOnly_of_quiet (p := MessageOf outcomes) hcall
  unfold pushEncoded
  rw [beginSync_eq _ hversion]
  change (writeExpected "BeginSync rejected" (beginMessage outcomes.length version)
    >>= fun _ => _).AsksOnly _
  -- the begin, a record for each turn, the commit, and then nothing but reads
  refine asksOnly_bind (writeExpected_only hbegin _) fun _ => ?_
  refine asksOnly_bind (asksOnly_forM fun turn hturn => ?_) fun _ =>
    asksOnly_bind (writeExpected_only hcommit _) fun _ => hconfirm
  unfold pushRecord
  rcases hrecord : turn.1 with error | record
  · trivial
  · exact writeExpected_only (.inr (.inr ⟨turn, hturn, record, hrecord, rfl⟩)) _

/-- `pull` writes nothing to the schedule. -/
theorem pull_quiet : pull.AsksOnly (Quiet "schedule_sync") := by
  refine asksOnly_bind (read_quiet _) fun reply => asksOnly_bind (asksOnly_ofExcept _) fun version =>
    asksOnly_bind (asksOnly_mapM fun i _ => ?_) fun events => trivial
  refine asksOnly_bind (asksOnly_question fun payload heq => ?_) fun _ =>
    asksOnly_bind (read_quiet _) fun record => asksOnly_ofExcept _
  injection heq with hcharacteristic
  exact absurd hcharacteristic (by decide)

section Runs

variable {watch : Watch} {version : ℤ} {outcomes : List (Except JsError (List UInt8))}

/-- A push begins, whatever comes of it. -/
theorem pushEncoded_begins (watch : Watch) (outcomes : List (Except JsError (List UInt8)))
    (hversion : 0 ≤ version ∧ version ≤ 0xFFFFFFFF) (asked : List Call) :
    .request "schedule_sync" OP_WRITE (beginMessage outcomes.length version) ∈
      (((pushEncoded version outcomes).against watch).exec asked).2 := by
  unfold pushEncoded
  rw [beginSync_eq _ hversion]
  change _ ∈ (((writeExpected "BeginSync rejected" (beginMessage outcomes.length version)
    >>= fun _ => _).against watch).exec asked).2
  unfold writeExpected
  rw [bind_assoc, exec_write_bind]
  obtain ⟨later, hlater, -⟩ := (asksOnly_true _).against watch _
  rw [hlater]
  simp

/-- On a watch that accepts, a push whose records are all encoded writes each of
them. -/
theorem pushEncoded_writes (hwatch : Accepting "schedule_sync" watch)
    (hversion : 0 ≤ version ∧ version ≤ 0xFFFFFFFF)
    (hall : ∀ outcome ∈ outcomes, ∃ record, outcome = .ok record) {index : ℕ} {record : List UInt8}
    (hrecord : outcomes[index]? = some (.ok record)) (asked : List Call) :
    .request "schedule_sync" OP_WRITE (eventMsg index record) ∈
      (((pushEncoded version outcomes).against watch).exec asked).2 := by
  -- what the turns have written, after the begin
  let after (turns : List (Except JsError (List UInt8) × ℕ)) : List Call :=
    asked ++ [.request "schedule_sync" OP_WRITE (beginMessage outcomes.length version)] ++
      turns.map fun turn => .request "schedule_sync" OP_WRITE
        (eventMsg turn.2 (turn.1.toOption.getD []))
  have hloop : ((outcomes.zipIdx.forM pushRecord).against watch).exec (after []) =
      (.ok (), after outcomes.zipIdx) := by
    refine exec_against_forM (H := after) watch ?_
    intro pre turn post heq
    obtain ⟨record, hturn⟩ := hall turn.1 (List.fst_mem_of_mem_zipIdx (by rw [heq]; simp))
    unfold pushRecord
    rw [hturn]
    change ((writeExpected _ (eventMsg turn.2 record)).against watch).exec _ = _
    rw [writeExpected_against hwatch]
    simp only [after, List.map_append, List.map_cons, List.map_nil, hturn, List.append_assoc]
    rfl
  have hmem : .request "schedule_sync" OP_WRITE (eventMsg index record) ∈ after outcomes.zipIdx := by
    refine List.mem_append_right _ (List.mem_map.mpr ⟨(.ok record, index), ?_, rfl⟩)
    exact List.mem_zipIdx_iff_getElem?.mpr hrecord
  unfold pushEncoded
  rw [beginSync_eq _ hversion]
  change _ ∈ (((writeExpected "BeginSync rejected" (beginMessage outcomes.length version)
    >>= fun _ => _).against watch).exec asked).2
  rw [exec_against_bind, writeExpected_against hwatch]
  dsimp only
  have hempty : asked ++ [.request "schedule_sync" OP_WRITE
      (beginMessage outcomes.length version)] = after [] := (List.append_nil _).symm
  rw [hempty, exec_against_bind, hloop]
  obtain ⟨later, hlater, -⟩ := (asksOnly_true (writeExpected "CommitSync rejected"
    (commitSync outcomes.length) >>= fun _ => confirm version outcomes.length 10)).against watch
    (after outcomes.zipIdx)
  dsimp only
  rw [hlater]
  exact List.mem_append_left _ hmem

end Runs

end Ptlab.Js
