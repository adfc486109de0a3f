/-
What can be read back from a record: `decodeRecord` (`companion-cli.mjs`) behind
`encode_schedule_record`, and `encode_task_record` by itself (`src/ptlab/wire.py`).

All numbers come back, since the encoders refuse those that would not fit. The
title is the exception in both: its field is filled up with zeros and a NUL is a
character of a title like any other, which neither encoder looks for. The decoder
stops at the first one (`tells_iff`), and the field forgets those at the end
(`TaskArgs.bytes_inj`).
-/
import Ptlab.Js.CompanionCli
import Ptlab.Wire.TaskRecord

set_option autoImplicit false

open Bytes Utf8 Ptlab.Protocol Ptlab.Wire

namespace Ptlab.Js

/-- The decoded object says what the arguments did. -/
structure Tells (e : CliEvent) (a : ScheduleArgs) : Prop where
  identifier : (e.id : ℤ) = a.identifier
  rule_kind : (e.ruleKind : ℤ) = a.rule_kind
  hour : (e.hour : ℤ) = a.hour
  minute : (e.minute : ℤ) = a.minute
  anchor : (e.year : ℤ) = a.anchor.val.year ∧ e.month = a.anchor.val.month ∧
    e.day = a.anchor.val.day
  parameter : (e.param : ℤ) = a.parameter
  enabled : e.enabled = a.enabled
  title : e.title = units a.title.toList
  last_modified : (e.lastModified : ℤ) = a.last_modified
  no_end : a.end_ = none → e.endYear = 0
  end_ : ∀ date ∈ a.end_, (e.endYear : ℤ) = date.val.year ∧ e.endMonth = date.val.month ∧
    e.endDay = date.val.day

/-- What accepted arguments say fits the record. -/
theorem accepted_fits {a : ScheduleArgs} (h : a.Accepted) : a.record.Fits := by
  have hyears : ∀ date : PyDate, YearFits date.val.year := fun date =>
    ⟨le_trans (by decide) date.property.1, date.property.2.trans (by decide)⟩
  rw [← fromPython_record h.title]
  refine (fromPython_inRange h).fits (hyears a.anchor) fun date hdate => ?_
  obtain ⟨d, -, rfl⟩ := Option.map_eq_some_iff.mp hdate
  exact hyears d

/-- The title comes back up to its first NUL. -/
theorem decoded_title (title : List Char) :
    (units (decode (titleField (encode title)))).takeWhile (· ≠ 0) =
      units (title.takeWhile (· ≠ nul)) := by
  have hfield : titleField (encode title) =
      encode title ++ List.replicate (24 - (encode title).length) 0 := rfl
  rw [hfield, decode_whole, takeWhile_units, takeWhile_append_nuls]

theorem takeWhile_nul_eq_iff (title : List Char) :
    units (title.takeWhile (· ≠ nul)) = units title ↔ nul ∉ title := by
  constructor
  · intro h hmem
    have hsame := congrArg scalars h
    rw [scalars_units, scalars_units, List.takeWhile_eq_self_iff] at hsame
    exact absurd rfl (of_decide_eq_true (hsame nul hmem))
  · intro h
    rw [List.takeWhile_eq_self_iff.mpr]
    intro c hc
    exact decide_eq_true fun he => h (he ▸ hc)

/-- **A schedule record** tells everything back exactly if the title has no NUL. -/
theorem tells_iff {a : ScheduleArgs} {r : Record} (hr : encode_schedule_record a = .ok r.val) :
    Tells (decodeRecord r) a ↔ nul ∉ a.title.toList := by
  obtain ⟨haccepted, hbytes⟩ := (encode_schedule_record_ok_iff a _).mp hr
  have hfits := accepted_fits haccepted
  obtain ⟨h1, h2, h3, h4, h5, h6, h7, h8, h9⟩ := a.record.read_head hfits
  obtain ⟨h10, h11, h12, h13, h14⟩ := a.record.read_tail hfits
  rw [← hbytes] at h1 h2 h3 h4 h5 h6 h7 h8 h9 h10 h11 h12 h13 h14
  have htitle : (decodeRecord r).title = units (a.title.toList.takeWhile (· ≠ nul)) := by
    unfold decodeRecord
    dsimp only
    rw [h10]
    exact decoded_title a.title.toList
  -- all fields but the title come back in any case
  rw [← takeWhile_nul_eq_iff, ← htitle]
  constructor
  · exact fun h => h.title
  · intro hkept
    have hnum : ∀ {n : ℤ} {m : ℕ}, 0 ≤ n → m = n.toNat → (m : ℤ) = n := fun hn hm => by omega
    have hyear := a.anchor.property.1
    refine ⟨hnum haccepted.identifier.1 h1, hnum haccepted.rule_kind.1 h2,
      hnum haccepted.hour.1 h3, hnum haccepted.minute.1 h4,
      ⟨hnum (by omega) h5, h6, h7⟩, hnum haccepted.parameter.1 h8, ?_, hkept,
      hnum haccepted.last_modified.1 h11, fun hnone => ?_, fun date hdate => ?_⟩
    · unfold decodeRecord
      dsimp only
      rw [h9]
      unfold ScheduleArgs.record
      cases a.enabled <;> rfl
    · refine h12.trans ?_
      unfold ScheduleArgs.record
      rw [hnone]
      rfl
    · have hend := date.property.1
      have hlast : a.record.endYear = date.val.year.toNat ∧ a.record.endMonth = date.val.month ∧
          a.record.endDay = date.val.day := by
        unfold ScheduleArgs.record
        rw [hdate]
        exact ⟨rfl, rfl, rfl⟩
      exact ⟨hnum (by omega) (h12.trans hlast.1), h13.trans hlast.2.1, h14.trans hlast.2.2⟩

/-- **What the encoders lose.** A schedule record tells its arguments back if and only
if the title has no NUL; and two task records of one content have the same arguments
unless these differ in NULs at the end of the title, and in nothing else. -/
theorem encoders_lossless_iff (args : ScheduleArgs) (a b : TaskArgs) :
    (∀ r : Record, encode_schedule_record args = .ok r.val →
      (Tells (decodeRecord r) args ↔ nul ∉ args.title.toList)) ∧
    (a.Accepted → b.Accepted →
      ((encode_task_record a = encode_task_record b → a = b) ↔
        (a.identifier ≠ b.identifier ∨ a.order ≠ b.order ∨ a.last_modified ≠ b.last_modified ∨
          a.title = b.title ∨ trimNuls a.title.toList ≠ trimNuls b.title.toList))) := by
  refine ⟨fun r hr => tells_iff hr, fun ha hb => ?_⟩
  have hsame : encode_task_record a = encode_task_record b ↔ a.bytes = b.bytes := by
    rw [(encode_task_record_ok_iff a _).mpr ⟨ha, rfl⟩, (encode_task_record_ok_iff b _).mpr ⟨hb, rfl⟩,
      Except.ok.injEq]
  rw [hsame, TaskArgs.bytes_inj ha hb, TaskArgs.ext_iff]
  tauto

/-- A NUL inside a title, with the encoder's defaults, cuts it; one at its end is not
told from none. -/
theorem encoders_lose_nuls :
    (∃ (args : ScheduleArgs) (r : Record), args.title = "a\x00b" ∧
      encode_schedule_record args = .ok r.val ∧ (decodeRecord r).title = units "a".toList ∧
      ¬ Tells (decodeRecord r) args) ∧
    (∃ a b : TaskArgs, ∃ bytes, encode_task_record a = .ok bytes ∧
      encode_task_record b = .ok bytes ∧ a ≠ b) := by
  constructor
  · have hrecord : encode_schedule_record ⟨1, "a\x00b", 7, 30, 1,
        ⟨⟨2026, 7, 14, by decide, by decide, by decide, by decide⟩, by decide⟩, 1, true,
        1789000000, none⟩ =
      .ok [1, 0, 1, 7, 30, 0xEA, 0x07, 7, 14, 1, 1, 0x61, 0, 0x62, 0, 0, 0, 0, 0, 0, 0, 0, 0, 0, 0,
        0, 0, 0, 0, 0, 0, 0, 0, 0, 0, 0x40, 0xF9, 0xA1, 0x6A, 0, 0, 0, 0] := rfl
    refine ⟨_, ⟨_, rfl⟩, rfl, hrecord, rfl, fun h => ?_⟩
    have hcut : units "a".toList = units "a\x00b".toList := h.title
    exact absurd hcut (by decide)
  · refine ⟨⟨1, 2, "a", 1789000000⟩, ⟨1, 2, "a\x00", 1789000000⟩, _, rfl, rfl, ?_⟩
    decide

end Ptlab.Js
