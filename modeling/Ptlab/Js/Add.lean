/-
`add` of `companion-cli.mjs`: from its arguments to the record that is pushed.

The arguments are free text. `Number`, `split`, `findIndex` and the constructor of `Date`
give something for every text, and the encoder stores what it is given in bytes.
`Carries` says what the pushed record has to hold of what was asked, `Asked` for which
arguments it does, and `add_faithful_iff` that it does for no others; of these only a
command without a time is refused before the first write.
-/
import Ptlab.Js.Event

set_option autoImplicit false

open Bytes Dialogue Effect JsNumber Utf8 Ptlab.Gatt Ptlab.Protocol Ptlab.Wire

namespace Ptlab.Js

/-! ## Texts -/

abbrev Text : Type := List UInt16

def text (s : String) : Text := units s.toList

def DAYS : List Text := ["Sun", "Mon", "Tue", "Wed", "Thu", "Fri", "Sat"].map text

/-- `text.split(separator)`, of one code unit. -/
def split (separator : Char) (t : Text) : List Text := t.splitOn (UInt16.ofNat separator.toNat)

/-- `Number` of an element that an array may not have. -/
def numberAt (parts : List Text) (i : ℕ) : JsNumber := (parts[i]?.map Number).getD .nan

/-- A letter of ASCII in lower case. -/
def lowerUnit (u : UInt16) : UInt16 := if 0x41 ≤ u ∧ u ≤ 0x5A then u + 0x20 else u

/-! ## The command -/

/-- Where the command runs: the time zone and the clock, which stands after the year 100
and before 2106, the numbers that are drawn, and `toLowerCase` beyond ASCII. -/
structure Machine where
  zone : Zone
  today : Civil.Date
  seconds : ℕ
  version : ℤ
  newId : List ℕ → ℕ
  toLowerCase : Text → Text
  today_year : 100 ≤ today.year ∧ today.year ≤ 65535
  seconds_le : seconds ≤ 0xFFFFFFFF
  version_range : 1 ≤ version ∧ version ≤ 0xFFFFFFFE
  newId_range : ∀ ids, 1 ≤ newId ids ∧ newId ids ≤ 0xFFFE
  newId_fresh : ∀ ids, ids.length ≤ 255 → newId ids ∉ ids
  toLowerCase_ascii : ∀ t, (∀ u ∈ t, u < 0x80) → toLowerCase t = t.map lowerUnit

/-- What the kind of an event decides. -/
structure Rule where
  ruleKind : ℕ
  param : JsNumber
  year : JsNumber
  month : JsNumber
  day : JsNumber

section Command

variable (m : Machine)

/-- `DAYS.findIndex(...)`, which is -1 for no day. -/
def Machine.dayIndex (name : Text) : ℤ :=
  match DAYS.findIdx? fun day => m.toLowerCase day = m.toLowerCase (trim name) with
  | some i => i
  | none => -1

/-- `mask | (1 << index)`: a shift takes its count modulo 32. -/
def orDay (mask : BitVec 32) (index : ℤ) : BitVec 32 := mask ||| 1#32 <<< (index % 32).toNat

def Machine.days (names : List Text) : BitVec 32 :=
  names.foldl (fun mask name => orDay mask (m.dayIndex name)) 0

/-- The rule of today, before the kind is looked at. -/
def Machine.daily : Rule where
  ruleKind := 1
  param := .finite 1
  year := .finite m.today.year
  month := .finite m.today.month
  day := .finite m.today.day

/-- The text of a date, if it is not empty. -/
def dateText (extra : Option Text) : Option Text := extra.filter fun t => t ≠ []

def Machine.rule (kind : Text) (extra : Option Text) : Rule :=
  if kind = text "once" then
    match dateText extra with
    | some named =>
      let parts := split '-' named
      { ruleKind := 0, param := .finite 0, year := numberAt parts 0, month := numberAt parts 1,
        day := numberAt parts 2 }
    | none => { m.daily with ruleKind := 0, param := .finite 0 }
  else if kind = text "weekly" then
    { m.daily with
      ruleKind := 2, param := .finite (m.days (split ',' (extra.getD (text "Mon")))).toInt }
  else if kind = text "monthly" then
    { m.daily with ruleKind := 3, param := (extra.map Number).getD m.daily.day }
  else if kind ≠ text "daily" then { m.daily with param := Number kind }
  else m.daily

/-- The event that is appended. -/
def Machine.event (title time : Text) (kind extra : Option Text) (ids : List ℕ) : JsEvent :=
  let rule := m.rule (kind.getD (text "daily")) extra
  { id := m.newId ids
    ruleKind := rule.ruleKind
    hour := numberAt (split ':' time) 0
    minute := numberAt (split ':' time) 1
    year := rule.year
    month := rule.month
    day := rule.day
    param := rule.param
    enabled := true
    title := title
    lastModified := m.seconds
    endYear := .nan
    endMonth := .nan
    endDay := .nan }

/-- What `add` makes of its arguments. Without a time there is no text to split. -/
def Machine.newEvent (args : List Text) (ids : List ℕ) : Except CliError JsEvent :=
  match args with
  | title :: time :: rest => .ok (m.event title time rest[0]? rest[1]? ids)
  | _ => .error (.js (.Error "Cannot read properties of undefined (reading 'split')"))

/-- What the encoder makes of pulled events. -/
def Machine.encodeAll (events : List PulledEvent) : List (Except JsError (List UInt8)) :=
  events.map fun e => e.js.encode m.zone

/-- `add`. It comes to the version and the number of events that it tells. -/
def Machine.add (args : List Text) : Client CliError (ℤ × ℕ) := do
  let pulled ← pull
  let event ← ofExcept (m.newEvent args (pulled.events.map PulledEvent.id))
  let outcomes := m.encodeAll pulled.events ++ [event.encode m.zone]
  let version ← pushEncoded m.version outcomes
  return (version, outcomes.length)

end Command

/-! ## What was asked -/

/-- The number that a text gives. A blank one gives none, though `Number` reads it as
0. -/
def Gives (t : Text) (n : ℕ) : Prop := trim t ≠ [] ∧ Number t = .finite n

/-- The time begins with an hour and a minute. -/
def GivesTime (time : Text) (hour minute : ℕ) : Prop :=
  ∃ h m rest, split ':' time = h :: m :: rest ∧
    (Gives h hour ∧ hour ≤ 23) ∧ Gives m minute ∧ minute ≤ 59

/-- The text begins with the year, the month and the day of a date. -/
def Names (named : Text) (date : Civil.Date) : Prop :=
  ∃ y m d rest, split '-' named = y :: m :: d :: rest ∧
    (0 ≤ date.year ∧ Gives y date.year.toNat) ∧ Gives m date.month ∧ Gives d date.day

theorem Names.nonneg {named : Text} {date : Civil.Date} (h : Names named date) :
    0 ≤ date.year := by
  obtain ⟨-, -, -, -, -, ⟨hpos, -⟩, -⟩ := h
  exact hpos

/-- What a byte of the record holds. -/
def byteAt (record : List UInt8) (i : ℕ) : ℕ := (record.getD i 0).toNat

/-- The record has the date. -/
def HasDate (record : List UInt8) (date : Civil.Date) : Prop :=
  (read16 record 5 : ℤ) = date.year ∧ byteAt record 7 = date.month ∧ byteAt record 8 = date.day

/-- The record has the number that the text gives. -/
def HasNumber (record : List UInt8) (t : Text) : Prop :=
  ∃ n ≤ 255, Gives t n ∧ byteAt record 9 = n

/-- The record has the days that are named. -/
def HasDays (toLowerCase : Text → Text) (record : List UInt8) (names : List Text) : Prop :=
  ∀ i < 8, (byteAt record 9).testBit i = true ↔
    ∃ day, DAYS[i]? = some day ∧ ∃ name ∈ names, toLowerCase (trim name) = toLowerCase day

/-- The record has the rule that was asked for. Of a date or number that was not given
nothing was asked. -/
def CarriesRule (toLowerCase : Text → Text) (kind : Text) (extra : Option Text)
    (record : List UInt8) : Prop :=
  if kind = text "once" then
    byteAt record 2 = 0 ∧ ∀ named, dateText extra = some named →
      ∃ date, Names named date ∧ HasDate record date
  else if kind = text "weekly" then
    byteAt record 2 = 2 ∧ HasDays toLowerCase record (split ',' (extra.getD (text "Mon")))
  else if kind = text "monthly" then
    byteAt record 2 = 3 ∧ ∀ number, extra = some number → HasNumber record number
  else if kind ≠ text "daily" then byteAt record 2 = 1 ∧ HasNumber record kind
  else byteAt record 2 = 1 ∧ byteAt record 9 = 1

/-- The record is what the arguments ask for. -/
def Carries (toLowerCase : Text → Text) (args : List Text) (record : List UInt8) : Prop :=
  ∃ title time rest hour minute, args = title :: time :: rest ∧ GivesTime time hour minute ∧
    (byteAt record 3 = hour ∧ byteAt record 4 = minute) ∧
    CarriesRule toLowerCase (rest[0]?.getD (text "daily")) rest[1]? record

/-- The rules that can be carried. -/
def AsksRule (kind : Text) (extra : Option Text) : Prop :=
  if kind = text "once" then
    ∀ named, dateText extra = some named →
      ∃ date, Names named date ∧ 100 ≤ date.year ∧ date.year ≤ 65535
  else if kind = text "weekly" then True
  else if kind = text "monthly" then ∀ number, extra = some number → ∃ n ≤ 255, Gives number n
  else if kind ≠ text "daily" then ∃ n ≤ 255, Gives kind n
  else True

/-- The arguments that can be carried, and those that are refused for want of a time. -/
def Asked (args : List Text) : Prop :=
  ∀ title time rest, args = title :: time :: rest →
    (∃ hour minute, GivesTime time hour minute) ∧
      AsksRule (rest[0]?.getD (text "daily")) rest[1]?

/-! ## The record -/

theorem yearIn_lt {date : Option Civil.Date} (h : ∀ d ∈ date, YearFits d.year) :
    yearIn date < 65536 := by
  cases date with
  | none => exact (by decide : (0 : ℕ) < 65536)
  | some d =>
      have hfits := h d rfl
      unfold YearFits at hfits
      change d.year.toNat < 65536
      omega

theorem monthIn_lt (date : Option Civil.Date) : monthIn date < 256 := by
  cases date with
  | none => exact (by decide : (0 : ℕ) < 256)
  | some d => exact lt_of_le_of_lt d.month_le (by decide)

theorem dayIn_lt (date : Option Civil.Date) : dayIn date < 256 := by
  cases date with
  | none => exact (by decide : (0 : ℕ) < 256)
  | some d =>
      exact lt_of_le_of_lt (le_trans d.day_le (Civil.daysInMonth_bounds _ _).2) (by decide)

/-- What an object says fits its record. -/
theorem JsEvent.fits {zone : Zone} {e : JsEvent} (h : e.Sized) (hdated : e.Dated zone) :
    (e.record zone).Fits := by
  have hid := h.id
  have hmodified := h.lastModified
  have henabled := e.enabled.toNat_le
  have hend : (e.record zone).endYear < 65536 ∧ (e.record zone).endMonth < 256 ∧
      (e.record zone).endDay < 256 := by
    unfold JsEvent.record
    dsimp only
    rcases hend : e.end_ zone with _ | date
    · exact ⟨by decide, by decide, by decide⟩
    · exact ⟨yearIn_lt (hdated.2 date hend), monthIn_lt date, dayIn_lt date⟩
  refine ⟨?_, Nat.mod_lt _ (by decide), UInt8.toNat_lt _, UInt8.toNat_lt _, yearIn_lt hdated.1,
    monthIn_lt _, dayIn_lt _, UInt8.toNat_lt _, ?_, List.length_take_le 23 _, ?_, hend.1,
    hend.2.1, hend.2.2⟩
  all_goals unfold JsEvent.record; dsimp only; omega

/-- The bytes of a record that is encoded. -/
structure Stored (zone : Zone) (e : JsEvent) (record : List UInt8) : Prop where
  ruleKind : byteAt record 2 = e.ruleKind % 256
  hour : byteAt record 3 = e.hour.toUint8.toNat
  minute : byteAt record 4 = e.minute.toUint8.toNat
  year : read16 record 5 = yearIn (e.anchor zone)
  month : byteAt record 7 = monthIn (e.anchor zone)
  day : byteAt record 8 = dayIn (e.anchor zone)
  param : byteAt record 9 = e.param.toUint8.toNat

theorem stored_of_encode {zone : Zone} {e : JsEvent} (h : e.Sized) {record : List UInt8}
    (hencode : e.encode zone = .ok record) : Stored zone e record := by
  obtain ⟨hdated, rfl⟩ := (encode_ok_iff h record).mp hencode
  obtain ⟨-, h2, h3, h4, h5, h7, h8, h9, -⟩ := (e.record zone).read_head (e.fits h hdated)
  exact ⟨h2, h3, h4, h5, h7, h8, h9⟩

/-! ## The days of the week -/

section Days

variable (m : Machine)

/-- Names of ASCII letters stay apart in lower case. -/
theorem toLowerCase_days : (DAYS.map m.toLowerCase).Nodup := by
  have hascii : DAYS.all (fun day => day.all fun u => u < 0x80) = true := by decide
  have hmap : DAYS.map m.toLowerCase = DAYS.map fun day => day.map lowerUnit := by
    refine List.map_congr_left fun day hday => m.toLowerCase_ascii day fun u hu => ?_
    exact of_decide_eq_true (List.all_eq_true.mp (List.all_eq_true.mp hascii day hday) u hu)
  rw [hmap]
  decide

/-- The index of a name is that of the day it is the name of. -/
theorem dayIndex_eq_iff (name : Text) (i : ℕ) :
    m.dayIndex name = i ↔ ∃ day, DAYS[i]? = some day ∧
      m.toLowerCase (trim name) = m.toLowerCase day := by
  have hsame : ∀ {i j : ℕ} {day day' : Text}, DAYS[i]? = some day → DAYS[j]? = some day' →
      m.toLowerCase day = m.toLowerCase day' → i = j := by
    intro i j day day' hi hj heq
    obtain ⟨hlt, -⟩ := List.getElem?_eq_some_iff.mp hi
    refine (List.getElem?_inj (by rwa [List.length_map]) (toLowerCase_days m)).mp ?_
    rw [List.getElem?_map, List.getElem?_map, hi, hj]
    exact congrArg some heq
  unfold Machine.dayIndex
  rcases hfind : DAYS.findIdx? (fun day => m.toLowerCase day = m.toLowerCase (trim name)) with _ | j
  · have hnone := List.findIdx?_eq_none_iff.mp hfind
    dsimp only
    refine ⟨fun h => by omega, ?_⟩
    rintro ⟨day, hday, hname⟩
    have hfalse := hnone day (List.mem_of_getElem? hday)
    rw [decide_eq_false_iff_not] at hfalse
    exact absurd hname.symm hfalse
  · -- the first day of the name is the only one
    obtain ⟨hlt, hmatch, -⟩ := List.findIdx?_eq_some_iff_getElem.mp hfind
    have hmatch := of_decide_eq_true hmatch
    have hj : DAYS[j]? = some DAYS[j] := List.getElem?_eq_getElem hlt
    dsimp only
    constructor
    · intro h
      obtain rfl : j = i := by exact_mod_cast h
      exact ⟨_, hj, hmatch.symm⟩
    · rintro ⟨day, hday, hname⟩
      exact_mod_cast hsame hj hday (hmatch.trans hname)

theorem dayIndex_bounds (name : Text) : -1 ≤ m.dayIndex name ∧ m.dayIndex name < 7 := by
  unfold Machine.dayIndex
  rcases hfind : DAYS.findIdx? (fun day => m.toLowerCase day = m.toLowerCase (trim name)) with _ | j
  · exact ⟨le_rfl, by decide⟩
  · obtain ⟨hlt, -⟩ := List.findIdx?_eq_some_iff_getElem.mp hfind
    have hseven : DAYS.length = 7 := rfl
    dsimp only
    omega

/-- Which of the low bits are set behind some names. The count of a name that is no day
is 31. -/
theorem getLsbD_days (names : List Text) {i : ℕ} (hi : i < 8) :
    (m.days names).getLsbD i = true ↔ ∃ name ∈ names, m.dayIndex name = i := by
  have hbit : ∀ name, (1#32 <<< (m.dayIndex name % 32).toNat).getLsbD i = true ↔
      m.dayIndex name = i := by
    intro name
    have hbounds := dayIndex_bounds m name
    -- a shift by -1 is one by 31, which sets none of the bits of the byte
    rw [BitVec.getLsbD_shiftLeft, BitVec.getLsbD_one]
    simp only [Bool.and_eq_true, decide_eq_true_eq, Bool.not_eq_true', decide_eq_false_iff_not]
    omega
  have hfold : ∀ (names : List Text) (mask : BitVec 32),
      (names.foldl (fun mask name => orDay mask (m.dayIndex name)) mask).getLsbD i = true ↔
        mask.getLsbD i = true ∨ ∃ name ∈ names, m.dayIndex name = i := by
    intro names
    induction names with
    | nil => simp
    | cons name names ih =>
        intro mask
        rw [List.foldl_cons, ih, List.exists_mem_cons_iff, ← or_assoc]
        unfold orDay
        rw [BitVec.getLsbD_or, Bool.or_eq_true, hbit]
  unfold Machine.days
  rw [hfold]
  simp

/-- A byte keeps the low bits of a word. -/
theorem testBit_toUint8 (w : BitVec 32) {i : ℕ} (hi : i < 8) :
    (JsNumber.toUint8 (.finite w.toInt)).toNat.testBit i = w.getLsbD i := by
  have hlow : (w.toInt % 256).toNat % 256 = w.toNat % 2 ^ 8 := by
    rw [BitVec.toInt_eq_toNat_cond]
    split_ifs <;> omega
  rw [toUint8_intCast, UInt8.toNat_ofNat', hlow, Nat.testBit_mod_two_pow, decide_eq_true hi,
    Bool.true_and]
  rfl

/-- **The days.** The byte has the days that were named, whatever else was. -/
theorem hasDays_of_param {record : List UInt8} (names : List Text)
    (h : byteAt record 9 = (JsNumber.toUint8 (.finite (m.days names).toInt)).toNat) :
    HasDays m.toLowerCase record names := by
  intro i hi
  rw [h, testBit_toUint8 _ hi, getLsbD_days m names hi]
  constructor
  · rintro ⟨name, hname, hindex⟩
    obtain ⟨day, hday, hsame⟩ := (dayIndex_eq_iff m name i).mp hindex
    exact ⟨day, hday, name, hname, hsame⟩
  · rintro ⟨day, hday, name, hname, hsame⟩
    exact ⟨name, hname, (dayIndex_eq_iff m name i).mpr ⟨day, hday, hsame⟩⟩

end Days

/-! ## The rule -/

section Rules

variable (m : Machine) {kind : Text} {extra : Option Text}

/-- The anchor of a rule. -/
def Machine.anchor (rule : Rule) : Option Civil.Date :=
  m.zone.date rule.year (rule.month.sub 1) rule.day

/-- A rule that leaves the date as it was begins today. -/
theorem anchor_today {rule : Rule} (hyear : rule.year = m.daily.year)
    (hmonth : rule.month = m.daily.month) (hday : rule.day = m.daily.day) :
    m.anchor rule = some m.today := by
  unfold Machine.anchor
  rw [hyear, hmonth, hday]
  exact m.zone.date_civil m.today_year.1 m.today_year.2

/-- The date of a text that names one. -/
theorem date_of_names {named : Text} {date : Civil.Date} (h : Names named date)
    (hyear : date.year ≤ 65535) :
    m.zone.date (numberAt (split '-' named) 0) ((numberAt (split '-' named) 1).sub 1)
      (numberAt (split '-' named) 2) = some (newDate date.year (date.month - 1) date.day) := by
  obtain ⟨y, mo, d, rest, hsplit, ⟨hpos, -, hy⟩, ⟨-, hmo⟩, -, hd⟩ := h
  have hmonth := date.month_le
  have hday := le_trans date.day_le (Civil.daysInMonth_bounds _ _).2
  have hcast : ((date.year.toNat : ℕ) : ℤ) = date.year := Int.toNat_of_nonneg hpos
  have hnumbers : numberAt (split '-' named) 0 = .finite date.year.toNat ∧
      numberAt (split '-' named) 1 = .finite date.month ∧
      numberAt (split '-' named) 2 = .finite date.day := by
    rw [hsplit]
    exact ⟨hy, hmo, hd⟩
  rw [hnumbers.1, hnumbers.2.1, hnumbers.2.2, m.zone.date_small (by omega) (by omega) (by omega),
    hcast]

/-- What an encoded record has of the rule. -/
structure HasRule (rule : Rule) (record : List UInt8) : Prop where
  ruleKind : byteAt record 2 = rule.ruleKind % 256
  param : byteAt record 9 = rule.param.toUint8.toNat
  year : read16 record 5 = yearIn (m.anchor rule)
  month : byteAt record 7 = monthIn (m.anchor rule)
  day : byteAt record 8 = dayIn (m.anchor rule)

/-- A byte holds a number that fits it. -/
theorem toUint8_gives {t : Text} {n : ℕ} (h : Gives t n) (hn : n ≤ 255) :
    (Number t).toUint8.toNat = n := by
  rw [h.2, toUint8_natCast, UInt8.toNat_ofNat']
  omega

/-- What is carried can be carried. -/
theorem asksRule_of_carries {record : List UInt8} (hrecord : HasRule m (m.rule kind extra) record)
    (h : CarriesRule m.toLowerCase kind extra record) : AsksRule kind extra := by
  unfold CarriesRule at h
  unfold AsksRule
  split_ifs at h ⊢ with honce hweekly hmonthly hdaily
  · intro named hnamed
    obtain ⟨date, hnames, hyear, -, -⟩ := h.2 named hnamed
    have hlt := read16_lt record 5
    refine ⟨date, hnames, ?_, by omega⟩
    -- a year below 100 would have been moved
    by_contra hlow
    have hanchor : m.anchor (m.rule kind extra) =
        some (newDate date.year (date.month - 1) date.day) := by
      unfold Machine.rule
      rw [if_pos honce, hnamed]
      exact date_of_names m hnames (by omega)
    have hmoved : 1900 ≤ (newDate date.year (date.month - 1) date.day).year :=
      newDate_year_ge ⟨hnames.nonneg, by omega⟩ date.month_pos date.month_le
        (by exact_mod_cast date.day_pos)
    have hsame := hrecord.year
    rw [hanchor] at hsame
    change read16 record 5 = (newDate date.year (date.month - 1) date.day).year.toNat at hsame
    omega
  · intro number hnumber
    obtain ⟨n, hn, hgives, -⟩ := h.2 number hnumber
    exact ⟨n, hn, hgives⟩
  · obtain ⟨n, hn, hgives, -⟩ := h.2
    exact ⟨n, hn, hgives⟩

/-- The anchor of what can be carried is a date that is written: the one that was named,
or today's. -/
theorem anchor_of_asksRule (h : AsksRule kind extra) :
    ∃ date, m.anchor (m.rule kind extra) = some date ∧ YearFits date.year ∧
      (kind = text "once" → ∀ named, dateText extra = some named → Names named date) := by
  have htoday : YearFits m.today.year := ⟨by have := m.today_year.1; omega, m.today_year.2⟩
  -- only `once` can name a date; the other kinds begin today
  by_cases honce : kind = text "once"
  · rcases hnamed : dateText extra with _ | named
    · refine ⟨m.today, ?_, htoday, fun _ named hnamed' => (by cases hnamed')⟩
      unfold Machine.rule
      rw [if_pos honce, hnamed]
      exact anchor_today m rfl rfl rfl
    · unfold AsksRule at h
      rw [if_pos honce] at h
      obtain ⟨date, hnames, hlow, hhigh⟩ := h named hnamed
      refine ⟨date, ?_, ⟨by omega, hhigh⟩, fun _ other hother => ?_⟩
      · unfold Machine.rule
        rw [if_pos honce, hnamed]
        exact (date_of_names m hnames hhigh).trans (congrArg some (newDate_self date hlow))
      · obtain rfl := Option.some.inj hother
        exact hnames
  · refine ⟨m.today, ?_, htoday, fun hkind => absurd hkind honce⟩
    unfold Machine.rule
    rw [if_neg honce]
    split_ifs
    all_goals exact anchor_today m rfl rfl rfl

/-- What can be carried is carried. -/
theorem carriesRule_of_asks {record : List UInt8} (hrecord : HasRule m (m.rule kind extra) record)
    (h : AsksRule kind extra) : CarriesRule m.toLowerCase kind extra record := by
  obtain ⟨date, hanchor, hfits, hnames⟩ := anchor_of_asksRule m h
  have hkind := hrecord.ruleKind
  have hparam := hrecord.param
  have hyear := hrecord.year
  have hmonth := hrecord.month
  have hday := hrecord.day
  rw [hanchor] at hyear hmonth hday
  unfold AsksRule at h
  unfold CarriesRule
  unfold Machine.rule at hkind hparam
  split_ifs at h hkind hparam ⊢ with honce hweekly hmonthly hdaily
  · refine ⟨?_, fun named hnamed => ⟨date, hnames honce named hnamed, ?_, hmonth, hday⟩⟩
    · rcases hnamed : dateText extra with _ | named <;> rw [hnamed] at hkind <;> exact hkind
    · rw [hyear]
      exact Int.toNat_of_nonneg hfits.1
  · exact ⟨hkind, hasDays_of_param m _ hparam⟩
  · refine ⟨hkind, fun number hnumber => ?_⟩
    obtain ⟨n, hn, hgives⟩ := h number hnumber
    rw [hnumber] at hparam
    exact ⟨n, hn, hgives, hparam.trans (toUint8_gives hgives hn)⟩
  · obtain ⟨n, hn, hgives⟩ := h
    exact ⟨hkind, n, hn, hgives, hparam.trans (toUint8_gives hgives hn)⟩
  · have hone : (JsNumber.finite 1).toUint8 = UInt8.ofNat 1 := by
      simpa only [Nat.cast_one] using toUint8_natCast 1
    exact ⟨hkind, hparam.trans (congrArg UInt8.toNat hone)⟩

end Rules

/-! ## The event -/

section Event

variable (m : Machine) {title time : Text} {rest : List Text} {ids : List ℕ}

theorem event_sized (title time : Text) (kind extra : Option Text) (ids : List ℕ) :
    (m.event title time kind extra ids).Sized :=
  ⟨le_trans (m.newId_range ids).2 (by decide), m.seconds_le⟩

theorem numberAt_of_gives {time : Text} {hour minute : ℕ} (h : GivesTime time hour minute) :
    (numberAt (split ':' time) 0).toUint8.toNat = hour ∧
      (numberAt (split ':' time) 1).toUint8.toNat = minute := by
  obtain ⟨ht, mt, more, hsplit, ⟨hhour, hhour_le⟩, hminute, hminute_le⟩ := h
  rw [hsplit]
  exact ⟨toUint8_gives hhour (by omega), toUint8_gives hminute (by omega)⟩

/-- **The record of the new event** carries what was asked, exactly if that can be
carried. -/
theorem carries_iff (title time : Text) (rest : List Text) (ids : List ℕ) :
    (∃ record, (m.event title time rest[0]? rest[1]? ids).encode m.zone = .ok record ∧
      Carries m.toLowerCase (title :: time :: rest) record) ↔ Asked (title :: time :: rest) := by
  have hsized := event_sized m title time rest[0]? rest[1]? ids
  have hrule : ∀ record, (m.event title time rest[0]? rest[1]? ids).encode m.zone = .ok record →
      HasRule m (m.rule (rest[0]?.getD (text "daily")) rest[1]?) record := fun record hencode => by
    have hstored := stored_of_encode hsized hencode
    exact ⟨hstored.ruleKind, hstored.param, hstored.year, hstored.month, hstored.day⟩
  constructor
  · rintro ⟨record, hencode, title', time', rest', hour, minute, hargs, htime, -, hcarries⟩
    injection hargs with htitle hargs
    injection hargs with hsame hrest
    subst htitle hsame hrest
    intro title' time' rest' hargs'
    injection hargs' with htitle hargs'
    injection hargs' with hsame hrest
    subst htitle hsame hrest
    exact ⟨⟨hour, minute, htime⟩, asksRule_of_carries m (hrule record hencode) hcarries⟩
  · intro hasked
    obtain ⟨⟨hour, minute, htime⟩, hasks⟩ := hasked title time rest rfl
    obtain ⟨date, hanchor, hfits, -⟩ := anchor_of_asksRule m hasks
    -- a new event has no end date
    have hdated : (m.event title time rest[0]? rest[1]? ids).Dated m.zone := by
      refine ⟨fun d hd => ?_, fun end_ hend => ?_⟩
      · obtain rfl : date = d := Option.some.inj (hanchor.symm.trans hd)
        exact hfits
      · cases hend
    have hencode := (encode_ok_iff hsized _).mpr ⟨hdated, rfl⟩
    have hstored := stored_of_encode hsized hencode
    obtain ⟨hhour, hminute⟩ := numberAt_of_gives htime
    exact ⟨_, hencode, title, time, rest, hour, minute, rfl, htime,
      ⟨hstored.hour.trans hhour, hstored.minute.trans hminute⟩,
      carriesRule_of_asks m (hrule _ hencode) hasks⟩

end Event

/-! ## The run -/

section Run

variable (m : Machine) (watch : Watch)

/-- The calls of the command, and how it ends. -/
def Machine.addRun (args : List Text) : Except CliError (ℤ × ℕ) × List Call :=
  ((m.add args).against watch).exec []

/-- A record that was written behind those of the events that were pulled. -/
def PushedBehind (calls : List Call) (record : List UInt8) : Prop :=
  eventMsg (pullCount watch) record ∈ messagesOf "schedule_sync" calls

/-- The watch accepts what is written to its schedule, and its events can be encoded
again. -/
structure TakesPart : Prop where
  accepting : Accepting "schedule_sync" watch
  encodable : ∀ pulled, ((pull.against watch).exec []).1 = .ok pulled →
    ∀ outcome ∈ m.encodeAll pulled.events, ∃ record, outcome = .ok record

/-- The command fails before its first write to the schedule, or the record that it
pushes for the new event carries what was asked; and a watch that takes part is written
one. -/
def Faithful (args : List Text) : Prop :=
  ((∃ error, (m.addRun watch args).1 = .error error) ∧
      messagesOf "schedule_sync" (m.addRun watch args).2 = []) ∨
    (∀ record, PushedBehind watch (m.addRun watch args).2 record →
        Carries m.toLowerCase args record) ∧
      (TakesPart m watch → ∃ record, PushedBehind watch (m.addRun watch args).2 record)

theorem Machine.version_fits : 0 ≤ m.version ∧ m.version ≤ 0xFFFFFFFF :=
  ⟨by have := m.version_range.1; omega, le_trans m.version_range.2 (by decide)⟩

/-- What was called before the arguments are looked at. -/
theorem pulled_quiet : ∀ call ∈ ((pull.against watch).exec []).2, Quiet "schedule_sync" call := by
  obtain ⟨later, hlater, hall⟩ := pull_quiet.against watch []
  rw [hlater, List.nil_append]
  exact hall

/-- A command that fails in front of its push has written nothing. -/
theorem faithful_of_unpushed {args : List Text}
    (h : (∃ error, ((pull.against watch).exec []).1 = .error error) ∨
      ∀ ids, ∃ error, m.newEvent args ids = .error error) : Faithful m watch args := by
  have hquiet := pulled_quiet watch
  left
  unfold Machine.addRun Machine.add
  rw [exec_against_bind]
  rcases hpull : (pull.against watch).exec [] with ⟨error | pulled, asked⟩
  · rw [hpull] at hquiet
    exact ⟨⟨error, rfl⟩, messagesOf_quiet hquiet⟩
  · rw [hpull] at hquiet h
    rcases h with ⟨error, herror⟩ | hevent
    · cases herror
    · obtain ⟨error, herror⟩ := hevent (pulled.events.map PulledEvent.id)
      dsimp only
      rw [herror]
      exact ⟨⟨error, rfl⟩, messagesOf_quiet hquiet⟩

variable {title time : Text} {rest : List Text} {pulled : Pulled} {asked : List Call}

/-- The outcomes that are pushed. -/
def Machine.outcomes (title time : Text) (rest : List Text) (pulled : Pulled) :
    List (Except JsError (List UInt8)) :=
  m.encodeAll pulled.events ++ [(m.event title time rest[0]? rest[1]?
    (pulled.events.map PulledEvent.id)).encode m.zone]

/-- Behind a pull the command is a push. -/
theorem addRun_pushed (hpull : (pull.against watch).exec [] = (.ok pulled, asked)) :
    (m.addRun watch (title :: time :: rest)).2 =
      (((pushEncoded m.version (m.outcomes title time rest pulled)).against watch).exec asked).2 := by
  unfold Machine.addRun Machine.add
  rw [exec_against_bind, hpull]
  dsimp only
  change (((pushEncoded m.version (m.outcomes title time rest pulled) >>= fun version =>
    pure (version, _)).against watch).exec asked).2 = _
  rw [exec_against_bind]
  rcases ((pushEncoded m.version _).against watch).exec asked with ⟨error | version, asked'⟩
  · rfl
  · rfl

/-- As many events were pulled as the digest announces, which are at most 255. -/
theorem length_pulled (hpull : (pull.against watch).exec [] = (.ok pulled, asked)) :
    pulled.events.length = pullCount watch ∧ pullCount watch < 256 := by
  obtain ⟨-, rfl⟩ := (pull_ok_iff watch pulled).mp (by rw [hpull])
  refine ⟨?_, UInt8.toNat_lt _⟩
  rw [List.length_map, List.length_range]

theorem outcomes_last (title time : Text) (rest : List Text)
    (hpull : (pull.against watch).exec [] = (.ok pulled, asked)) :
    (m.outcomes title time rest pulled)[pullCount watch]? =
      some ((m.event title time rest[0]? rest[1]? (pulled.events.map PulledEvent.id)).encode
        m.zone) := by
  have hlength : (m.encodeAll pulled.events).length = pullCount watch := by
    rw [← (length_pulled watch hpull).1]
    exact List.length_map _
  unfold Machine.outcomes
  rw [← hlength]
  exact List.getElem?_concat_length

/-- A record message says its index and its record, among the indices of a byte. -/
theorem eventMsg_inj {i j : ℕ} (hi : i < 256) (hj : j < 256) {record record' : List UInt8}
    (h : eventMsg i record = eventMsg j record') : i = j ∧ record = record' := by
  rw [eventMsg_eq, eventMsg_eq] at h
  unfold turnMessage at h
  obtain ⟨hhead, hrecord⟩ := List.append_inj h rfl
  injection hhead with _ hhead
  injection hhead with _ hhead
  injection hhead with hindex _
  have hindex := congrArg UInt8.toNat hindex
  rw [toNat_ofNat_lt hi, toNat_ofNat_lt hj] at hindex
  exact ⟨hindex, hrecord⟩

/-- What is pushed behind the pulled events is what the encoder made of the new one. -/
theorem encode_of_pushed (hpull : (pull.against watch).exec [] = (.ok pulled, asked))
    {record : List UInt8}
    (h : PushedBehind watch (m.addRun watch (title :: time :: rest)).2 record) :
    (m.event title time rest[0]? rest[1]? (pulled.events.map PulledEvent.id)).encode m.zone =
      .ok record := by
  have hlast := outcomes_last m watch title time rest hpull
  have hcount := (length_pulled watch hpull).2
  have hlength : (m.outcomes title time rest pulled).length = pullCount watch + 1 := by
    rw [← (length_pulled watch hpull).1]
    unfold Machine.outcomes Machine.encodeAll
    rw [List.length_append, List.length_map]
    rfl
  have hone : (eventMsg (pullCount watch) record).head? = some 1 := rfl
  -- a call of the push, for what was called before writes nothing
  have hcall := mem_messagesOf.mp h
  rw [addRun_pushed m watch hpull] at hcall
  obtain ⟨later, hlater, honly⟩ := (pushEncoded_only m.version_fits
    (m.outcomes title time rest pulled)).against watch asked
  rw [hlater] at hcall
  have hpulled := pulled_quiet watch
  rw [hpull] at hpulled
  rcases List.mem_append.mp hcall with hcall | hcall
  · exact absurd rfl (hpulled _ hcall _)
  · rcases honly _ hcall _ rfl with hhead | hhead | ⟨turn, hturn, record', hrecord', hsame⟩
    · exact absurd (Option.some.inj (hone.symm.trans hhead)) (by decide)
    · exact absurd (Option.some.inj (hone.symm.trans hhead)) (by decide)
    · have hget := List.mem_zipIdx_iff_getElem?.mp hturn
      obtain ⟨hlt, -⟩ := List.getElem?_eq_some_iff.mp hget
      obtain ⟨hindex, rfl⟩ := eventMsg_inj hcount (by omega) hsame
      rw [← hindex, hlast] at hget
      exact (Option.some.inj hget).trans hrecord'

/-- A watch that takes part is written the record, if it can be encoded. -/
theorem pushed_of_encode (hpull : (pull.against watch).exec [] = (.ok pulled, asked))
    (htakes : TakesPart m watch) {record : List UInt8}
    (h : (m.event title time rest[0]? rest[1]? (pulled.events.map PulledEvent.id)).encode m.zone =
      .ok record) : PushedBehind watch (m.addRun watch (title :: time :: rest)).2 record := by
  have hlast := outcomes_last m watch title time rest hpull
  rw [h] at hlast
  refine mem_messagesOf.mpr ?_
  rw [addRun_pushed m watch hpull]
  refine pushEncoded_writes htakes.accepting m.version_fits (fun outcome houtcome => ?_) hlast asked
  rcases List.mem_append.mp houtcome with houtcome | houtcome
  · exact htakes.encodable pulled (by rw [hpull]) outcome houtcome
  · exact ⟨record, (List.mem_singleton.mp houtcome).trans h⟩

end Run

/-! ## Which commands are faithful -/

/-- A number below 257 that is not drawn yet. -/
def firstFree (ids : List ℕ) : ℕ :=
  (((List.range 256).map (· + 1)).find? fun id => id ∉ ids).getD 1

theorem firstFree_range (ids : List ℕ) : 1 ≤ firstFree ids ∧ firstFree ids ≤ 0xFFFE := by
  unfold firstFree
  rcases hfind : ((List.range 256).map (· + 1)).find? (fun id => id ∉ ids) with _ | id
  · exact ⟨le_rfl, by decide⟩
  · obtain ⟨k, hk, rfl⟩ := List.mem_map.mp (List.mem_of_find?_eq_some hfind)
    rw [List.mem_range] at hk
    rw [Option.getD_some]
    omega

/-- 256 numbers are not all among 255. -/
theorem firstFree_fresh (ids : List ℕ) (h : ids.length ≤ 255) : firstFree ids ∉ ids := by
  unfold firstFree
  rcases hfind : ((List.range 256).map (· + 1)).find? (fun id => id ∉ ids) with _ | id
  · have hsub : (List.range 256).map (· + 1) ⊆ ids := fun id hid => by
      simpa using List.find?_eq_none.mp hfind id hid
    have hnodup : ((List.range 256).map (· + 1)).Nodup :=
      List.nodup_range.map fun i j hij => Nat.succ_injective hij
    have hle := (hnodup.subperm hsub).length_le
    rw [List.length_map, List.length_range] at hle
    omega
  · simpa using List.find?_some hfind

/-- The ends of the time values at UTC. -/
def utc : Zone :=
  ⟨.of (-271821) 4 20 (by decide), .of 275760 9 13 (by decide), rfl, rfl⟩

/-- A machine at UTC in July 2026, whose `toLowerCase` knows ASCII. -/
def julyMachine : Machine where
  zone := utc
  today := .of 2026 7 13 (by decide)
  seconds := 1783944000
  version := 7
  newId := firstFree
  toLowerCase := fun t => t.map lowerUnit
  today_year := ⟨by decide, by decide⟩
  seconds_le := by decide
  version_range := ⟨by decide, by decide⟩
  newId_range := firstFree_range
  newId_fresh := firstFree_fresh
  toLowerCase_ascii := fun _ _ => rfl

/-- A watch without events that accepts everything. -/
def emptyWatch : Watch := scripted [⟨0, [3, 16, 0, 0, 0, 0, 0]⟩]

theorem pull_emptyWatch : (pull.against emptyWatch).exec [] =
    (.ok ⟨[], 0, 16⟩, [.request "schedule_digest" OP_READ []]) := rfl

theorem takesPart_emptyWatch (m : Machine) : TakesPart m emptyWatch where
  accepting := by
    intro asked payload
    change (([⟨0, [3, 16, 0, 0, 0, 0, 0]⟩] : List GattResponse).getD asked.length ⟨0, []⟩).status = 0
    rcases asked with _ | ⟨call, asked⟩
    · rfl
    · rfl
  encodable := by
    intro pulled hpulled outcome houtcome
    rw [pull_emptyWatch] at hpulled
    obtain rfl := Except.ok.inj hpulled
    cases houtcome

/-- What is faithful on a watch that takes part can be carried. -/
theorem asked_of_faithful {m : Machine} {watch : Watch} (htakes : TakesPart m watch)
    {pulled : Pulled} {asked : List Call}
    (hpull : (pull.against watch).exec [] = (.ok pulled, asked)) {args : List Text}
    (h : Faithful m watch args) : Asked args := by
  intro title time rest hargs
  subst hargs
  rcases h with ⟨-, hnothing⟩ | ⟨hcarries, hpushed⟩
  · -- it has begun
    have hbegin := pushEncoded_begins watch (m.outcomes title time rest pulled) m.version_fits asked
    rw [← addRun_pushed m watch hpull] at hbegin
    have hmem := mem_messagesOf.mpr hbegin
    rw [hnothing] at hmem
    cases hmem
  · obtain ⟨record, hrecord⟩ := hpushed htakes
    exact (carries_iff m title time rest _).mp
      ⟨record, encode_of_pushed m watch hpull hrecord, hcarries record hrecord⟩ title time rest rfl

/-- **Faithful or refused.** On every machine and with every watch, exactly for the
arguments that can be carried. -/
theorem add_faithful_iff (args : List Text) :
    (∀ (m : Machine) (watch : Watch), Faithful m watch args) ↔ Asked args := by
  constructor
  · exact fun h => asked_of_faithful (takesPart_emptyWatch julyMachine) pull_emptyWatch
      (h julyMachine emptyWatch)
  · intro hasked m watch
    rcases args with _ | ⟨title, _ | ⟨time, rest⟩⟩
    · exact faithful_of_unpushed m watch (.inr fun ids => ⟨_, rfl⟩)
    · exact faithful_of_unpushed m watch (.inr fun ids => ⟨_, rfl⟩)
    · rcases hpull : (pull.against watch).exec [] with ⟨error | pulled, asked⟩
      · exact faithful_of_unpushed m watch (.inl ⟨error, by rw [hpull]⟩)
      · obtain ⟨record, hencode, hcarries⟩ :=
          (carries_iff m title time rest (pulled.events.map PulledEvent.id)).mpr hasked
        refine .inr ⟨fun record' hrecord' => ?_, fun htakes => ⟨record, ?_⟩⟩
        · obtain rfl := Except.ok.inj (hencode.symm.trans (encode_of_pushed m watch hpull hrecord'))
          exact hcarries
        · exact pushed_of_encode m watch hpull htakes hencode

/-- `add "Dentist" 09:15 once 2026-02-30` is pushed for another day. -/
theorem february_thirtieth_added :
    ¬ ∀ (m : Machine) (watch : Watch), Faithful m watch
      [text "Dentist", text "09:15", text "once", text "2026-02-30"] := by
  intro h
  have hasked := asked_of_faithful (takesPart_emptyWatch julyMachine) pull_emptyWatch
    (h julyMachine emptyWatch)
  have hrule : AsksRule (text "once") (some (text "2026-02-30")) := (hasked _ _ _ rfl).2
  unfold AsksRule at hrule
  rw [if_pos rfl] at hrule
  obtain ⟨date, ⟨y, mo, d, rest, hsplit, -, hmonth, hday⟩, -, -⟩ :=
    hrule (text "2026-02-30") rfl
  have hparts : split '-' (text "2026-02-30") = [text "2026", text "02", text "30"] := by decide
  have hnumbers : Number (text "02") = .finite 2 ∧ Number (text "30") = .finite 30 := by
    decide +kernel
  rw [hparts] at hsplit
  injection hsplit with _ hsplit
  injection hsplit with hmo hsplit
  injection hsplit with hd _
  rw [← hmo] at hmonth
  rw [← hd] at hday
  have htwo : date.month = 2 := by
    have hsame := JsNumber.finite.inj (hmonth.2.symm.trans hnumbers.1)
    exact_mod_cast hsame
  have hthirty : date.day = 30 := by
    have hsame := JsNumber.finite.inj (hday.2.symm.trans hnumbers.2)
    exact_mod_cast hsame
  -- no February has thirty days
  have hle := date.day_le
  rw [htwo, hthirty] at hle
  unfold Civil.daysInMonth at hle
  split_ifs at hle <;> omega

/-- The second of March. -/
example : ((julyMachine.event (text "Dentist") (text "09:15") (some (text "once"))
    (some (text "2026-02-30")) []).encode utc).toOption.map (fun record =>
      (read16 record 5, byteAt record 7, byteAt record 8)) = some (2026, 3, 2) := by
  decide +kernel

end Ptlab.Js
