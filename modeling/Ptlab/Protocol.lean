/-
The generated companion protocol (`src/generated/companion_protocol.py`), as far
as the modelled code reads it.

The table is data: `BRIDGE_CHAR` in the source's order, and the entries of
`RECORDS` under their keys. The JavaScript table
(`generated/companion-protocol.mjs`) is generated from the same manifest and
holds the same numbers.
-/
import Mathlib.Data.List.Basic
import Mathlib.Tactic

set_option autoImplicit false

namespace Ptlab.Protocol

/-! ## Bridge IDs -/

/-- `BRIDGE_CHAR`: the GATT bridge ID of each characteristic. The code allows for
a characteristic without one. -/
def BRIDGE_CHAR : List (String × Option ℕ) := [
  ("battery", some 4),
  ("beacon_control", some 8),
  ("beacon_key", some 7),
  ("call_event", some 29),
  ("companion_status", some 33),
  ("companion_verify", some 34),
  ("current_time", some 2),
  ("dfu_control", some 10),
  ("dfu_packet", some 11),
  ("event_read", some 5),
  ("family_state_status", some 35),
  ("firmware_revision", some 13),
  ("fs_transfer", some 12),
  ("multi_alarm", some 9),
  ("music_album", some 20),
  ("music_artist", some 18),
  ("music_event", some 28),
  ("music_playback_speed", some 25),
  ("music_position", some 21),
  ("music_repeat", some 26),
  ("music_shuffle", some 27),
  ("music_status", some 17),
  ("music_total_length", some 22),
  ("music_track", some 19),
  ("music_track_number", some 23),
  ("music_track_total", some 24),
  ("new_alert", some 3),
  ("prayer_settings", some 6),
  ("schedule_digest", some 1),
  ("schedule_sync", some 0),
  ("steps", some 15),
  ("steps_yesterday", some 16),
  ("task_read", some 32),
  ("tasks_digest", some 31),
  ("tasks_sync", some 30),
  ("weather", some 14)]

/-- `_GENERATED_IDS`. -/
def GENERATED_IDS : List ℕ := BRIDGE_CHAR.filterMap Prod.snd

/-- The IDs are the numbers below 36. -/
theorem mem_generated_ids (id : ℕ) : id ∈ GENERATED_IDS ↔ id < 36 := by
  constructor
  · intro h
    have hall : ∀ x ∈ GENERATED_IDS, x < 36 := by decide
    exact hall id h
  · intro h
    have hall : ∀ x : Fin 36, x.val ∈ GENERATED_IDS := by decide
    exact hall ⟨id, h⟩

/-! ## Records -/

namespace RECORDS

/-- `RECORDS["schedule"]["record_size"]`. -/
def schedule_record_size : ℕ := 43

/-- `RECORDS["schedule"]["record_version"]`. -/
def schedule_record_version : ℕ := 3

/-- `RECORDS["task"]["record_size"]`. -/
def task_record_size : ℕ := 31

/-- `RECORDS["task"]["record_version"]`. -/
def task_record_version : ℕ := 2

/-- `RECORDS["family_state"]["status_size"]`. -/
def family_state_status_size : ℕ := 16

/-- `RECORDS["family_state"]["states"]`. -/
def family_state_states_succeeded : ℕ := 2
def family_state_states_failed : ℕ := 3

/-- `RECORDS["family_state"]["operations"]`. -/
def family_state_operations_schedule : ℕ := 1
def family_state_operations_tasks : ℕ := 2

end RECORDS

end Ptlab.Protocol
