/-
`delete` of `companion-cli.mjs` behind an `add` of the same title.

`delete` compares the title that was typed with the titles that the records read as, and
a record keeps 23 bytes of UTF-8. On a watch that stores what is pushed, at once or some
looks later, the second command undoes the first exactly if the typed title comes back, no other event comes
back with it, and the dates of the other events can be written again
(`delete_undoes_add_iff`). Which titles come back is `titleAgain_eq_iff`.
-/
import Ptlab.Js.Add
import Ptlab.Js.Keeper

set_option autoImplicit false

open Bytes Dialogue Effect JsNumber Utf8 Ptlab.Gatt Ptlab.Protocol Ptlab.Wire

namespace Ptlab.Js

/-! ## Titles -/

/-- What a title reads as when it was written to a record. -/
def titleAgain (title : Text) : Text :=
  (units (decode (titleField ((bufferFrom title).take 23)))).takeWhile (· ≠ 0)

/-- A text without U+0000 and without lone surrogates, of at most 23 bytes or with
U+FFFD at its end, in which the cut falls. -/
def ReadsBack (title : Text) : Prop :=
  ∃ cs, title = units cs ∧ nul ∉ cs ∧ ((encode cs).length ≤ 23 ∨
    ∃ front, cs = front ++ [replacement] ∧ 21 ≤ (encode front).length ∧
      (encode front).length ≤ 22)

theorem titleAgain_units (cs : List Char) : titleAgain (units cs) =
    units ((decode (titleField ((encode cs).take 23))).takeWhile (· ≠ nul)) := by
  unfold titleAgain bufferFrom
  rw [takeWhile_units, scalars_units]

theorem units_inj {cs ds : List Char} (h : units cs = units ds) : cs = ds := by
  rw [← scalars_units cs, h, scalars_units]

/-- A text that was kept whole reads as itself, up to its first U+0000. -/
theorem decode_kept {cs : List Char} :
    (decode (titleField (encode cs))).takeWhile (· ≠ nul) = cs.takeWhile (· ≠ nul) := by
  have hfield : titleField (encode cs) =
      encode cs ++ List.replicate (24 - (encode cs).length) 0 := rfl
  rw [hfield, decode_whole, takeWhile_append_nuls]

/-- A text that was cut inside a character reads as what is in front of it and U+FFFD. -/
theorem decode_kept_cut {whole : List Char} {c : Char} {j : ℕ} (hpos : 0 < j)
    (hj : j < (String.utf8EncodeChar c).length) (hlen : 23 = (encode whole).length + j) :
    (decode (titleField (encode whole ++ (String.utf8EncodeChar c).take j))).takeWhile (· ≠ nul) =
      (whole ++ [replacement]).takeWhile (· ≠ nul) := by
  have hlength : (encode whole ++ (String.utf8EncodeChar c).take j).length = 23 := by
    rw [List.length_append, List.length_take]
    omega
  have hfield : titleField (encode whole ++ (String.utf8EncodeChar c).take j) =
      encode whole ++ (String.utf8EncodeChar c).take j ++ List.replicate (0 + 1) 0 := by
    rw [titleField, hlength]
  have hsplit : whole ++ replacement :: List.replicate (0 + 1) nul =
      whole ++ [replacement] ++ List.replicate 1 nul := by
    rw [List.append_assoc]
    rfl
  rw [hfield, decode_cut whole hpos hj 0, hsplit, takeWhile_append_nuls]

theorem takeWhile_eq_self {cs : List Char} (h : nul ∉ cs) : cs.takeWhile (· ≠ nul) = cs :=
  List.takeWhile_eq_self_iff.mpr fun c hc => by simpa using fun heq : c = nul => h (heq ▸ hc)

theorem nul_ne_replacement : nul ≠ replacement := by decide

theorem encode_takeWhile_length (cs : List Char) :
    (encode (cs.takeWhile (· ≠ nul))).length ≤ (encode cs).length := by
  obtain ⟨rest, hrest⟩ := List.takeWhile_prefix (l := cs) (p := fun c => decide (c ≠ nul))
  conv_rhs => rw [← hrest, encode_append, List.length_append]
  omega

/-- **Which titles come back.** -/
theorem titleAgain_eq_iff (title : Text) : titleAgain title = title ↔ ReadsBack title := by
  constructor
  · intro h
    -- what comes back is a text without U+0000
    have hunits : title = units ((decode (titleField ((bufferFrom title).take 23))).takeWhile
        (· ≠ nul)) := by
      rw [← takeWhile_units]
      exact h.symm
    obtain ⟨cs, hcs⟩ : ∃ cs, cs =
        (decode (titleField ((bufferFrom title).take 23))).takeWhile (· ≠ nul) := ⟨_, rfl⟩
    rw [← hcs] at hunits
    have hnul : nul ∉ cs := by
      rw [hcs]
      exact (takeWhile_nul_split _).1
    subst hunits
    refine ⟨cs, rfl, hnul, ?_⟩
    rw [titleAgain_units] at h
    have hsame := units_inj h
    rcases take_encode cs 23 with ⟨whole, hwhole⟩ | ⟨whole, c, j, hpos, hj, hwhole, hlen⟩
    · left
      have hle : (encode whole).length ≤ 23 := by
        rw [← hwhole]
        exact List.length_take_le 23 _
      rw [hwhole, decode_kept] at hsame
      rw [← hsame]
      exact le_trans (encode_takeWhile_length whole) hle
    · rw [hwhole, decode_kept_cut hpos hj hlen] at hsame
      have hfour : (String.utf8EncodeChar c).length ≤ 4 := by
        rw [String.length_utf8EncodeChar]
        exact c.utf8Size_le_four
      by_cases hin : nul ∈ whole
      · -- it ends in front of the U+0000
        left
        have hshorter : (whole.takeWhile (· ≠ nul)).length ≠ whole.length := fun hlength => by
          have hwhole := (List.takeWhile_prefix (p := fun c => decide (c ≠ nul))).eq_of_length hlength
          rw [← hwhole] at hin
          exact (takeWhile_nul_split whole).1 hin
        rw [List.takeWhile_append, if_neg hshorter] at hsame
        have hle := encode_takeWhile_length whole
        rw [hsame] at hle
        omega
      · have hcut : cs = whole ++ [replacement] := by
          rw [← hsame]
          refine takeWhile_eq_self fun hmem => ?_
          rcases List.mem_append.mp hmem with hmem | hmem
          · exact hin hmem
          · exact nul_ne_replacement (List.mem_singleton.mp hmem)
        by_cases hthree : j = 3
        · left
          rw [hcut, encode_append, List.length_append]
          have hone : (encode [replacement]).length = 3 := by decide
          omega
        · exact .inr ⟨whole, hcut, by omega, by omega⟩
  · rintro ⟨cs, rfl, hnul, hshort | ⟨front, rfl, hlow, hhigh⟩⟩
    · rw [titleAgain_units, List.take_of_length_le hshort, decode_kept, takeWhile_eq_self hnul]
    · have htake : (encode (front ++ [replacement])).take 23 =
          encode front ++ (String.utf8EncodeChar replacement).take (23 - (encode front).length) := by
        rw [encode_append, List.take_append, List.take_of_length_le (by omega), encode_cons,
          encode_nil, List.append_nil]
      rw [titleAgain_units, htake, decode_kept_cut (by omega) (by
        rw [encode_replacement]
        change _ < 3
        omega) (by omega), takeWhile_eq_self hnul]

/-! ## Records that were written -/

/-- What the bytes of an event read as. -/
theorem decodeRecord_bytes {rec : EventRecord} (hfits : rec.Fits) {r : Record}
    (hr : r.val = rec.bytes) :
    decodeRecord r =
      { id := rec.id, ruleKind := rec.ruleKind, hour := rec.hour, minute := rec.minute,
        year := rec.year, month := rec.month, day := rec.day, param := rec.param,
        enabled := rec.enabled % 2 = 1,
        title := (units (decode (titleField rec.title))).takeWhile (· ≠ 0),
        lastModified := rec.lastModified, endYear := rec.endYear, endMonth := rec.endMonth,
        endDay := rec.endDay } := by
  obtain ⟨h1, h2, h3, h4, h5, h6, h7, h8, h9⟩ := rec.read_head hfits
  obtain ⟨h10, h11, h12, h13, h14⟩ := rec.read_tail hfits
  rw [← hr] at h1 h2 h3 h4 h5 h6 h7 h8 h9 h10 h11 h12 h13 h14
  unfold decodeRecord
  rw [h1, h2, h3, h4, h5, h6, h7, h8, h9, h10, h11, h12, h13, h14]

/-- Both dates of a record can be written again. -/
def Datable (r : Record) : Prop :=
  YearFits (decodeRecord r).args.anchor.year ∧
    ∀ date ∈ (decodeRecord r).args.end_, YearFits date.year

/-- A date that was written can be written again, if not always as the same. -/
theorem newDate_fits {date : Civil.Date} (h : YearFits date.year) :
    YearFits (newDate date.year.toNat (date.month - 1) date.day).year := by
  have hcast : ((date.year.toNat : ℕ) : ℤ) = date.year := Int.toNat_of_nonneg h.1
  rw [hcast]
  -- the years 0 to 99 are read as 1900 to 1999, whose days may be fewer
  by_cases hlow : 100 ≤ date.year
  · rw [newDate_self date hlow]
    exact h
  · have hmonth := date.month_le
    have hpos := date.month_pos
    have hday := le_trans date.day_le (Civil.daysInMonth_bounds _ _).2
    have hge : 1900 ≤ (newDate date.year (date.month - 1) date.day).year :=
      newDate_year_ge ⟨h.1, by omega⟩ hpos hmonth (by exact_mod_cast date.day_pos)
    refine ⟨by omega, ?_⟩
    have hshift := (Civil.year_shift_bounds (Civil.firstOf
      (1900 + date.year + ((date.month : ℤ) - 1) / 12) ((((date.month : ℤ) - 1) % 12).toNat + 1)
      (by omega) (by omega)) ((date.day : ℤ) - 1)).2
    have hdays : |(date.day : ℤ) - 1| ≤ 31 := abs_le.mpr ⟨by omega, by omega⟩
    have hyear := h.1
    unfold newDate
    dsimp only [Civil.firstOf] at hshift ⊢
    rw [if_pos ⟨h.1, by omega⟩]
    omega

/-- A record of dates that were written is datable. -/
theorem datable_of_dates {r : Record} {date : Civil.Date} {end_ : Option Civil.Date}
    (hyear : YearFits date.year) (hend : ∀ d ∈ end_, YearFits d.year)
    (hanchor : (decodeRecord r).year = date.year.toNat ∧ (decodeRecord r).month = date.month ∧
      (decodeRecord r).day = date.day)
    (hlast : (decodeRecord r).endYear = (end_.map (·.year.toNat)).getD 0 ∧
      (decodeRecord r).endMonth = (end_.map (·.month)).getD 0 ∧
      (decodeRecord r).endDay = (end_.map (·.day)).getD 0) : Datable r := by
  unfold Datable CliEvent.args
  dsimp only
  rw [hanchor.1, hanchor.2.1, hanchor.2.2, hlast.1, hlast.2.1, hlast.2.2]
  refine ⟨newDate_fits hyear, ?_⟩
  rcases end_ with _ | d
  · exact fun d hd => by cases hd
  · simp only [Option.map_some, Option.getD_some]
    intro d' hd'
    -- a year 0 stands for no end date
    split_ifs at hd' with hzero
    · obtain rfl := Option.some.inj hd'
      exact newDate_fits (hend d rfl)
    · cases hd'

/-- The numbers of a record are in their ranges. -/
theorem args_inRange (r : Record) : (decodeRecord r).args.InRange := by
  have hword : ∀ i, 0 ≤ ((read16 r.val i : ℕ) : ℤ) ∧ ((read16 r.val i : ℕ) : ℤ) ≤ 0xFFFF := fun i => by
    have := read16_lt r.val i
    omega
  have hbyte : ∀ i, 0 ≤ (((r.val.getD i 0).toNat : ℕ) : ℤ) ∧
      (((r.val.getD i 0).toNat : ℕ) : ℤ) ≤ 0xFF := fun i => by
    have := (r.val.getD i 0).toNat_lt
    omega
  refine ⟨hword 0, hbyte 2, hbyte 3, hbyte 4, hbyte 9, ?_⟩
  have hlow := read16_lt r.val 35
  have hhigh := read16_lt r.val (35 + 2)
  change 0 ≤ ((read32 r.val 35 : ℕ) : ℤ) ∧ ((read32 r.val 35 : ℕ) : ℤ) ≤ 0xFFFFFFFF
  unfold read32
  omega

/-- What a record is when it was read and written. -/
def again (r : Record) : Record :=
  ⟨(decodeRecord r).args.record.bytes, EventRecord.bytes_length (List.length_take_le 23 _)⟩

theorem encodeRecord_again_iff (r : Record) :
    (∃ b, encodeRecord (decodeRecord r) = .ok b) ↔ Datable r := by
  unfold encodeRecord
  constructor
  · rintro ⟨b, hb⟩
    exact ((encodeEventRecord_ok_iff (args_inRange r) b).mp hb).1
  · exact fun h => ⟨_, (encodeEventRecord_ok_iff (args_inRange r) _).mpr ⟨h, rfl⟩⟩

theorem encodeRecord_again {r : Record} (h : Datable r) :
    encodeRecord (decodeRecord r) = .ok (again r).val :=
  (encodeEventRecord_ok_iff (args_inRange r) _).mpr ⟨h, rfl⟩

/-- Two records say the same but for their dates and titles. -/
structure SameEvent (r r' : Record) : Prop where
  id : (decodeRecord r').id = (decodeRecord r).id
  ruleKind : (decodeRecord r').ruleKind = (decodeRecord r).ruleKind
  hour : (decodeRecord r').hour = (decodeRecord r).hour
  minute : (decodeRecord r').minute = (decodeRecord r).minute
  param : (decodeRecord r').param = (decodeRecord r).param
  enabled : (decodeRecord r').enabled = (decodeRecord r).enabled
  lastModified : (decodeRecord r').lastModified = (decodeRecord r).lastModified

theorem SameEvent.trans {r r' r'' : Record} (h : SameEvent r r') (h' : SameEvent r' r'') :
    SameEvent r r'' :=
  ⟨h'.id.trans h.id, h'.ruleKind.trans h.ruleKind, h'.hour.trans h.hour,
    h'.minute.trans h.minute, h'.param.trans h.param, h'.enabled.trans h.enabled,
    h'.lastModified.trans h.lastModified⟩

section Again

variable {r : Record}

theorem decodeRecord_again (h : Datable r) : decodeRecord (again r) =
    { id := (decodeRecord r).args.record.id, ruleKind := (decodeRecord r).args.record.ruleKind,
      hour := (decodeRecord r).args.record.hour, minute := (decodeRecord r).args.record.minute,
      year := (decodeRecord r).args.record.year, month := (decodeRecord r).args.record.month,
      day := (decodeRecord r).args.record.day, param := (decodeRecord r).args.record.param,
      enabled := (decodeRecord r).args.record.enabled % 2 = 1,
      title := titleAgain (decodeRecord r).title,
      lastModified := (decodeRecord r).args.record.lastModified,
      endYear := (decodeRecord r).args.record.endYear,
      endMonth := (decodeRecord r).args.record.endMonth,
      endDay := (decodeRecord r).args.record.endDay } :=
  decodeRecord_bytes ((args_inRange r).fits h.1 h.2) rfl

theorem sameEvent_again (h : Datable r) : SameEvent r (again r) := by
  have hdecode := decodeRecord_again h
  have henabled : decide ((decodeRecord r).args.record.enabled % 2 = 1) =
      (decodeRecord r).enabled := by
    change decide ((decodeRecord r).enabled.toNat % 2 = 1) = _
    cases (decodeRecord r).enabled <;> rfl
  refine ⟨?_, ?_, ?_, ?_, ?_, ?_, ?_⟩
  all_goals rw [hdecode]
  · rfl
  · rfl
  · rfl
  · rfl
  · rfl
  · exact henabled
  · rfl

theorem title_again (h : Datable r) : (decodeRecord (again r)).title =
    titleAgain (decodeRecord r).title := by
  rw [decodeRecord_again h]

theorem datable_again (h : Datable r) : Datable (again r) := by
  have hdecode := decodeRecord_again h
  refine datable_of_dates h.1 h.2 ?_ ?_
  · rw [hdecode]
    exact ⟨rfl, rfl, rfl⟩
  · rw [hdecode]
    exact ⟨rfl, rfl, rfl⟩

end Again

/-! ## The commands -/

/-- `delete`. It comes to the version and the number of events that it tells, or, where
no title was the one that is given, to `process.exit(1)`. -/
def Machine.delete (m : Machine) (args : List Text) : Client CliError (Option (ℤ × ℕ)) := do
  let pulled ← pull
  let keep := pulled.events.filter fun e => some e.title ≠ args[0]?
  if keep.length = pulled.events.length then return none
  else
    let version ← pushEncoded m.version (m.encodeAll keep)
    return some (version, keep.length)

section OnKeeper

variable (m : Machine) {w : Keeper}

/-- What the encoder makes of the events of some records. -/
theorem encodeAll_pulled (records : List Record) :
    m.encodeAll (records.map fun r => pulledEvent r.val) =
      records.map fun r => encodeRecord (decodeRecord r) := by
  unfold Machine.encodeAll
  rw [List.map_map]
  exact List.map_congr_left fun r _ => encode_pulled m.zone r

/-- The outcomes of records that can be written again. -/
theorem map_again {records : List Record} (h : ∀ r ∈ records, Datable r) :
    (records.map fun r => encodeRecord (decodeRecord r)) =
      (records.map again).map fun r => .ok r.val := by
  rw [List.map_map]
  exact List.map_congr_left fun r hr => encodeRecord_again (h r hr)

/-- The ids that `add` draws its own apart from. -/
def Keeper.ids (w : Keeper) : List ℕ := w.records.map fun r => (decodeRecord r).id

/-- The record of the event that `add` appends. -/
def Machine.added (w : Keeper) (title time : Text) (rest : List Text) : Record :=
  ⟨((m.event title time rest[0]? rest[1]? w.ids).record m.zone).bytes,
    EventRecord.bytes_length (List.length_take_le 23 _)⟩

/-- An event of today. -/
theorem added_dated (w : Keeper) (title time : Text) {rest : List Text}
    (hdaily : rest[0]?.getD (text "daily") = text "daily") :
    (m.event title time rest[0]? rest[1]? w.ids).anchor m.zone = some m.today ∧
      (m.event title time rest[0]? rest[1]? w.ids).Dated m.zone := by
  have htoday : YearFits m.today.year := ⟨by have := m.today_year.1; omega, m.today_year.2⟩
  have hanchor : (m.event title time rest[0]? rest[1]? w.ids).anchor m.zone = some m.today := by
    unfold Machine.event JsEvent.anchor
    rw [hdaily]
    exact m.zone.date_civil m.today_year.1 m.today_year.2
  refine ⟨hanchor, fun d hd => ?_, fun end_ hend => ?_⟩
  · obtain rfl : m.today = d := Option.some.inj (hanchor.symm.trans hd)
    exact htoday
  · cases hend

/-- What the appended record reads as. -/
theorem decodeRecord_added (w : Keeper) (title time : Text) {rest : List Text}
    (hdaily : rest[0]?.getD (text "daily") = text "daily") :
    (decodeRecord (m.added w title time rest)).id = m.newId w.ids ∧
      (decodeRecord (m.added w title time rest)).title = titleAgain title ∧
      Datable (m.added w title time rest) := by
  obtain ⟨hanchor, hdated⟩ := added_dated m w title time hdaily
  have htoday : YearFits m.today.year := ⟨by have := m.today_year.1; omega, m.today_year.2⟩
  have hdecode := decodeRecord_bytes (r := m.added w title time rest)
    ((m.event title time rest[0]? rest[1]? w.ids).fits (event_sized m _ _ _ _ _) hdated) rfl
  refine ⟨by rw [hdecode]; rfl, by rw [hdecode]; rfl, ?_⟩
  -- `add` gives its event no end date
  have hnone : ∀ d ∈ (none : Option Civil.Date), YearFits d.year := fun d hd => nomatch hd
  refine datable_of_dates htoday hnone ?_ ?_
  · rw [hdecode]
    unfold JsEvent.record
    rw [hanchor]
    exact ⟨rfl, rfl, rfl⟩
  · rw [hdecode]
    exact ⟨rfl, rfl, rfl⟩

theorem encode_added (w : Keeper) (title time : Text) {rest : List Text}
    (hdaily : rest[0]?.getD (text "daily") = text "daily") :
    (m.event title time rest[0]? rest[1]? w.ids).encode m.zone =
      .ok (m.added w title time rest).val :=
  (encode_ok_iff (event_sized m _ _ _ _ _) _).mpr ⟨(added_dated m w title time hdaily).2, rfl⟩

/-- The ids of the events that were pulled. -/
theorem ids_pulled (w : Keeper) :
    (w.records.map fun r => pulledEvent r.val).map PulledEvent.id = w.ids := by
  rw [List.map_map]
  exact List.map_congr_left fun r _ => by rw [Function.comp_apply, pulledEvent_record]; rfl

/-- **`add`** on a watch with room: the other records are written again, and the new one
behind them. -/
theorem add_keeper (title time : Text) {rest : List Text}
    (hroom : w.records.length < w.capacity.toNat)
    (hdaily : rest[0]?.getD (text "daily") = text "daily") (h : ∀ r ∈ w.records, Datable r) :
    ∃ told selected, (onKeeper (m.add (title :: time :: rest))).exec w.settled =
      (.ok told, { w with records := w.records.map again ++ [m.added w title time rest],
                          version := m.version.toNat, selected := selected,
                          session := none }.settled) := by
  have hfits := lt_trans hroom w.capacity.toNat_lt
  obtain ⟨selected, pulled, hpull, hevents⟩ := pull_keeper w hfits
  -- what is pushed are the records, read and written, and the new one
  have houtcomes : m.encodeAll pulled.events ++
      [(m.event title time rest[0]? rest[1]? (pulled.events.map PulledEvent.id)).encode m.zone] =
      (w.records.map again ++ [m.added w title time rest]).map fun r => .ok r.val := by
    rw [hevents, ids_pulled, encode_added m w title time hdaily, encodeAll_pulled, map_again h,
      List.map_append]
    rfl
  have hpush := push_keeper { w with selected := selected }
    (w.records.map again ++ [m.added w title time rest])
    (by rw [List.length_append, List.length_map]; exact hroom) hfits
    (by rw [List.length_append, List.length_map, List.length_singleton]; exact Nat.succ_ne_self _)
    m.version_fits
  refine ⟨(m.version, (m.encodeAll pulled.events ++ [(m.event title time rest[0]? rest[1]?
    (pulled.events.map PulledEvent.id)).encode m.zone]).length), selected, ?_⟩
  unfold Machine.add
  rw [onKeeper_bind, exec_bind, hpull]
  dsimp only
  rw [onKeeper_bind, exec_bind, exec_onKeeper_ofExcept]
  dsimp only [Machine.newEvent]
  rw [onKeeper_bind, exec_bind, houtcomes, hpush]
  rfl

/-- An `add` that returns could write every record again. -/
theorem datable_of_add {title time : Text} {rest : List Text} {told : ℤ × ℕ} {s : Keeping}
    (hfits : w.records.length < 256)
    (h : (onKeeper (m.add (title :: time :: rest))).exec w.settled = (.ok told, s)) :
    ∀ r ∈ w.records, Datable r := by
  obtain ⟨selected, pulled, hpull, hevents⟩ := pull_keeper w hfits
  unfold Machine.add at h
  rw [onKeeper_bind, exec_bind, hpull] at h
  dsimp only [Machine.newEvent] at h
  rw [onKeeper_bind, exec_bind, exec_onKeeper_ofExcept] at h
  dsimp only at h
  rw [onKeeper_bind] at h
  obtain ⟨version, t, hpush, -⟩ := exec_bind_ok.mp h
  intro r hr
  have hmem : encodeRecord (decodeRecord r) ∈ m.encodeAll pulled.events := by
    rw [hevents, encodeAll_pulled]
    exact List.mem_map_of_mem hr
  exact (encodeRecord_again_iff r).mp (encoded_of_push hpush _ (List.mem_append_left _ hmem))

/-- The records of another title. -/
def Keeper.others (w : Keeper) (title : Text) : List Record :=
  w.records.filter fun r => (decodeRecord r).title ≠ title

/-- What `delete` keeps of the events that were pulled. -/
theorem filter_pulled (w : Keeper) (title : Text) :
    (w.records.map fun r => pulledEvent r.val).filter (fun e => some e.title ≠ [title][0]?) =
      (w.others title).map fun r => pulledEvent r.val := by
  rw [List.filter_map]
  refine congrArg _ (List.filter_congr fun r _ => ?_)
  rw [Function.comp_apply, pulledEvent_record]
  exact decide_eq_decide.mpr (not_congr Option.some_inj)

/-- **`delete`** of a title that some events have: the others are written again. -/
theorem delete_keeper {title : Text} (hroom : w.records.length ≤ w.capacity.toNat)
    (hfound : (w.others title).length ≠ w.records.length)
    (h : ∀ r ∈ w.records, Datable r) :
    ∃ told selected, (onKeeper (m.delete [title])).exec w.settled =
      (.ok (some told), { w with records := (w.others title).map again,
                                 version := m.version.toNat, selected := selected,
                                 session := none }.settled) := by
  have hfits := lt_of_le_of_lt hroom w.capacity.toNat_lt
  obtain ⟨selected, pulled, hpull, hevents⟩ := pull_keeper w hfits
  -- fewer than were pulled, so that there is room for them
  have hothers : (w.others title).length ≤ w.records.length := List.length_filter_le _ _
  have hdatable : ∀ r ∈ w.others title, Datable r := fun r hr => h r (List.mem_of_mem_filter hr)
  have hpush := push_keeper { w with selected := selected } ((w.others title).map again)
    (by rw [List.length_map]; exact le_trans hothers hroom) hfits
    (by rw [List.length_map]; exact hfound) m.version_fits
  refine ⟨(m.version, ((w.others title).map fun r => pulledEvent r.val).length), selected, ?_⟩
  unfold Machine.delete
  rw [onKeeper_bind, exec_bind, hpull]
  dsimp only
  rw [hevents, filter_pulled, List.length_map, List.length_map, if_neg hfound, onKeeper_bind,
    exec_bind, encodeAll_pulled, map_again hdatable, hpush]
  rfl

/-- `delete` of a title that no event has. -/
theorem delete_keeper_none {title : Text} (hfits : w.records.length < 256)
    (hnone : (w.others title).length = w.records.length) :
    ((onKeeper (m.delete [title])).exec w.settled).1 = .ok none := by
  obtain ⟨selected, pulled, hpull, hevents⟩ := pull_keeper w hfits
  unfold Machine.delete
  rw [onKeeper_bind, exec_bind, hpull]
  dsimp only
  rw [hevents, filter_pulled, List.length_map, List.length_map, if_pos hnone]
  rfl

end OnKeeper

/-! ## Adding and deleting -/

/-- A record is stored again: it says the same, and it is the same where reading and
writing it changes nothing. -/
structure StoredAgain (r r' : Record) : Prop where
  same : SameEvent r r'
  kept : again r = r → r' = r

/-- The two commands succeed, and leave the events that there were without the one that
was added, and nothing that is to come. -/
def Undone (m m' : Machine) (w : Keeper) (title time : Text) (rest : List Text) : Prop :=
  ∃ told, ∃ w' : Keeper, ∃ told', ∃ w'' : Keeper,
    (onKeeper (m.add (title :: time :: rest))).exec w.settled = (.ok told, w'.settled) ∧
    (onKeeper (m'.delete [title])).exec w'.settled = (.ok (some told'), w''.settled) ∧
    List.Forall₂ StoredAgain w.records w''.records ∧
    ∀ r ∈ w''.records, (decodeRecord r).id ≠ m.newId w.ids

/-- The dates can be written again, the title comes back, and no other event's title
comes back as it. -/
structure Undoable (w : Keeper) (title : Text) : Prop where
  datable : ∀ r ∈ w.records, Datable r
  comesBack : ReadsBack title
  others : ∀ r ∈ w.records, titleAgain (decodeRecord r).title ≠ title

section Undo

variable {m m' : Machine} {w : Keeper} {title time : Text} {rest : List Text}

/-- A record that was written twice. -/
theorem storedAgain_twice {r : Record} (h : Datable r) : StoredAgain r (again (again r)) where
  same := (sameEvent_again h).trans (sameEvent_again (datable_again h))
  kept := fun hagain => by rw [hagain, hagain]

/-- The id that was drawn is no other event's. -/
theorem newId_ne (hroom : w.records.length < w.capacity.toNat) {r : Record}
    (hr : r ∈ w.records) : (decodeRecord r).id ≠ m.newId w.ids := by
  have hcapacity := w.capacity.toNat_lt
  have hlength : w.ids.length ≤ 255 := by
    unfold Keeper.ids
    rw [List.length_map]
    omega
  intro hid
  exact m.newId_fresh w.ids hlength (hid ▸ List.mem_map_of_mem hr)

/-- What `add` leaves on a watch with room. -/
theorem add_leaves (m : Machine) (title time : Text)
    (hroom : w.records.length < w.capacity.toNat)
    (hdaily : rest[0]?.getD (text "daily") = text "daily") (h : ∀ r ∈ w.records, Datable r) :
    ∃ told, ∃ w' : Keeper,
      (onKeeper (m.add (title :: time :: rest))).exec w.settled = (.ok told, w'.settled) ∧
      w'.records = w.records.map again ++ [m.added w title time rest] ∧
      w'.records.length ≤ w'.capacity.toNat ∧ ∀ r ∈ w'.records, Datable r := by
  obtain ⟨told, selected, hrun⟩ := add_keeper m title time hroom hdaily h
  refine ⟨told, _, hrun, rfl, ?_, fun r hr => ?_⟩
  · dsimp only
    rw [List.length_append, List.length_map]
    exact hroom
  · rcases List.mem_append.mp hr with hr | hr
    · obtain ⟨r', hr', rfl⟩ := List.mem_map.mp hr
      exact datable_again (h r' hr')
    · obtain rfl := List.mem_singleton.mp hr
      exact (decodeRecord_added m w title time hdaily).2.2

/-- The records behind an `add`, without those of its title. -/
theorem others_added (w' : Keeper) (new : Record) (hrecords : w'.records = w.records.map again ++ [new])
    (hnew : (decodeRecord new).title = title) :
    w'.others title = (w.records.map again).filter fun r => (decodeRecord r).title ≠ title := by
  unfold Keeper.others
  rw [hrecords, List.filter_append, List.filter_singleton, hnew]
  simp

theorem settled_inj {w w' : Keeper} (h : w.settled = w'.settled) : w = w' :=
  congrArg Keeping.keeper h

/-- A schedule that is restored had no other event of the title. -/
theorem undoable_of_undone (hroom : w.records.length < w.capacity.toNat)
    (hdaily : rest[0]?.getD (text "daily") = text "daily")
    (h : Undone m m' w title time rest) : Undoable w title := by
  obtain ⟨told, w', told', w'', hadd, hdelete, hsame, hids⟩ := h
  have hcapacity := w.capacity.toNat_lt
  have hdatable := datable_of_add m (by omega) hadd
  obtain ⟨_, added, hrun, hrecords, hroom', hall⟩ := add_leaves m title time hroom hdaily hdatable
  have hadded := settled_inj (Prod.mk.inj (hrun.symm.trans hadd)).2
  rw [hadded] at hrecords hroom' hall
  obtain ⟨hid, htitle, hnew⟩ := decodeRecord_added m w title time hdaily
  -- the title was found
  have hfound : (w'.others title).length ≠ w'.records.length := fun hnone => by
    have hexit := delete_keeper_none m' (lt_of_le_of_lt hroom' w'.capacity.toNat_lt) hnone
    rw [hdelete] at hexit
    cases hexit
  obtain ⟨_, _, hrun'⟩ := delete_keeper m' hroom' hfound hall
  have hw'' := settled_inj (Prod.mk.inj (hrun'.symm.trans hdelete)).2
  have hrecords'' : w''.records = (w'.others title).map again := by rw [← hw'']
  -- the new record is gone, so that it has the title
  have hback : titleAgain title = title := by
    by_contra hother
    have hmem : m.added w title time rest ∈ w'.others title := by
      refine List.mem_filter.mpr ⟨?_, decide_eq_true (by rw [htitle]; exact hother)⟩
      rw [hrecords]
      exact List.mem_append_right _ (List.mem_singleton_self _)
    refine hids _ ?_ ((sameEvent_again hnew).id.trans hid)
    rw [hrecords'']
    exact List.mem_map_of_mem hmem
  -- the others are as many as before, so that none of them has it
  have hothers := others_added w' _ hrecords (htitle.trans hback)
  have hlength := hsame.length_eq
  have hagain : (w.records.map again).length = w.records.length := List.length_map again
  rw [hrecords'', List.length_map, hothers, ← hagain] at hlength
  have hnone := List.length_filter_eq_length_iff.mp hlength.symm
  refine ⟨hdatable, (titleAgain_eq_iff title).mp hback, fun r hr => ?_⟩
  rw [← title_again (hdatable r hr)]
  exact of_decide_eq_true (hnone (again r) (List.mem_map_of_mem hr))

theorem undone_of_undoable (hroom : w.records.length < w.capacity.toNat)
    (hdaily : rest[0]?.getD (text "daily") = text "daily")
    (h : Undoable w title) : Undone m m' w title time rest := by
  obtain ⟨hdatable, hback, hothers⟩ := h
  obtain ⟨told, w', hadd, hrecords, hroom', hall⟩ := add_leaves m title time hroom hdaily hdatable
  obtain ⟨-, htitle, -⟩ := decodeRecord_added m w title time hdaily
  -- all but the new record are kept
  have hkept : w'.others title = w.records.map again := by
    rw [others_added w' _ hrecords (htitle.trans ((titleAgain_eq_iff title).mpr hback))]
    refine List.filter_eq_self.mpr fun r hr => ?_
    obtain ⟨r', hr', rfl⟩ := List.mem_map.mp hr
    rw [title_again (hdatable r' hr')]
    exact decide_eq_true (hothers r' hr')
  have hfound : (w'.others title).length ≠ w'.records.length := by
    rw [hkept, hrecords, List.length_append, List.length_singleton]
    omega
  obtain ⟨told', selected', hdelete⟩ := delete_keeper m' hroom' hfound hall
  refine ⟨told, w', told', _, hadd, hdelete, ?_, ?_⟩
  · dsimp only
    rw [hkept, List.map_map, List.forall₂_map_right_iff]
    exact List.forall₂_same.mpr fun r hr => storedAgain_twice (hdatable r hr)
  · dsimp only
    rw [hkept, List.map_map]
    intro r hr
    obtain ⟨r', hr', rfl⟩ := List.mem_map.mp hr
    rw [Function.comp_apply, (storedAgain_twice (hdatable r' hr')).same.id]
    exact newId_ne hroom hr'

/-- **Delete undoes add** exactly if the schedule and the title are undoable. -/
theorem delete_undoes_add_iff (m m' : Machine) (w : Keeper) (title time : Text) (rest : List Text)
    (hroom : w.records.length < w.capacity.toNat)
    (hdaily : rest[0]?.getD (text "daily") = text "daily") :
    Undone m m' w title time rest ↔ Undoable w title :=
  ⟨undoable_of_undone hroom hdaily, undone_of_undoable hroom hdaily⟩

/-- A watch without events. -/
def emptyKeeper : Keeper := ⟨16, [], 0, [], none, 3⟩

theorem delete_undoes_add_dentist :
    Undone julyMachine julyMachine emptyKeeper (text "Dentist") (text "17:00") [] := by
  refine (delete_undoes_add_iff julyMachine julyMachine emptyKeeper (text "Dentist")
    (text "17:00") [] (by decide) rfl).mpr ⟨?_, ?_, ?_⟩
  · exact fun r hr => nomatch hr
  · exact (titleAgain_eq_iff _).mp (by decide +kernel)
  · exact fun r hr => nomatch hr

/-- A title of 24 letters is added, and is not found when it is to be deleted. -/
theorem long_title_kept : ¬ Undone julyMachine julyMachine emptyKeeper
    (text "aaaaaaaaaaaaaaaaaaaaaaaa") (text "17:00") [] := by
  intro h
  have hback := (undoable_of_undone (by decide) rfl h).comesBack
  have hdiffers : titleAgain (text "aaaaaaaaaaaaaaaaaaaaaaaa") ≠
      text "aaaaaaaaaaaaaaaaaaaaaaaa" := by decide +kernel
  exact hdiffers ((titleAgain_eq_iff _).mpr hback)

end Undo

end Ptlab.Js
