/-
ADB: `AdbHardware` of `src/ptlab/hardware.py`, up to `snapshot`.

The snapshot of a phone keeps some lines of `dumpsys bluetooth_manager`: those with
one of two markers, and those with the address of the watch. A line about another
device is kept for the markers only, and where it has none nothing is said about
that device (`snapshot_evidence_iff`).
-/
import Ptlab.Control.Client
import Ptlab.Hardware.Sighting
import Ptlab.Lib.Lines
import Ptlab.Artifacts

set_option autoImplicit false

namespace Ptlab.Hardware

open Control (LINE_FEED RETURN strip fieldsOf)
open Artifacts (isLineBoundary)

/-! ## Commands -/

/-- A `subprocess.CompletedProcess`, with its output as text. -/
structure CompletedProcess where
  returncode : ℤ
  stdout : String
  stderr : String
  deriving DecidableEq, Repr

/-- What the commands do. A snapshot runs none of its commands twice. -/
abbrev Runner : Type := List String → Except PyExc CompletedProcess

def ANDROID_PACKAGE : String := "dev.faisal.pinetimecompanion"

/-- `_run_adb`. -/
def _run_adb (runner : Runner) (serial : String) (arguments : List String) :
    Except PyExc CompletedProcess :=
  runner ("adb" :: "-s" :: serial :: arguments)

/-- `output.splitlines()`. -/
def splitlines (output : String) : List String :=
  (Lines.readLines RETURN LINE_FEED isLineBoundary false [] output.toList).map String.ofList

/-- `parse_adb_devices`. A later line of a device replaces an earlier one. -/
def parse_adb_devices (output : String) : List (String × String) :=
  ((splitlines output).drop 1).filterMap fun line =>
    match fieldsOf (strip line) with
    | serial :: state :: _ => some (serial, state)
    | _ => none

/-- `devices.get(serial)`. -/
def stateOf (devices : List (String × String)) (serial : String) : Option String :=
  (devices.reverse.find? fun device => device.1 = serial).map Prod.snd

section Snapshot

variable (py : Builtins) (runner : Runner) (adb : AdbHardware)

/-- `AdbHardware._run`. -/
def _run (arguments : List String) : Except PyExc String := do
  let result ← _run_adb runner adb.serial arguments
  if result.returncode ≠ 0 then
    let detail := strip (if result.stderr ≠ "" then result.stderr else result.stdout)
    let command := String.intercalate " " arguments
    throw (HardwareError s!"adb {adb.serial} {command} failed: {detail}")
  return result.stdout

/-- `AdbHardware.verify`. -/
def verify : Except PyExc Unit := do
  let result ← runner ["adb", "devices"]
  if result.returncode ≠ 0 then
    throw (HardwareError "adb is unavailable")
  let state := stateOf (parse_adb_devices result.stdout) adb.serial
  if state ≠ some "device" then
    let shown := if truthy state then state.getD "" else "missing"
    throw (HardwareError s!"ADB device {py.repr adb.serial} is not ready (state: {shown})")
  let _ ← _run runner adb ["shell", "pm", "path", ANDROID_PACKAGE]

/-- `part in text`. -/
def occursIn (part text : String) : Bool := decide (part.toList <:+: text.toList)

/-- A line with a marker that says nothing of a device. -/
def marked (line : String) : Bool :=
  occursIn "enabled:" (py.casefold line) || occursIn "state:" (py.casefold line)

/-- A line with the address of the watch. -/
def ofWatch (watch_address : Option String) (line : String) : Bool :=
  truthy watch_address && occursIn (py.casefold (watch_address.getD "")) (py.casefold line)

/-- The loop over the lines of the dump. -/
def selected_lines (watch_address : Option String) (lines : List String) : List String :=
  (lines.filter fun line => marked py line || ofWatch py watch_address line).map strip

/-- `AdbHardware.snapshot`. -/
def snapshot (watch_address : Option String) : Except PyExc AdbSnapshot := do
  verify py runner adb
  let sdk ← _run runner adb ["shell", "getprop", "ro.build.version.sdk"]
  let model ← _run runner adb ["shell", "getprop", "ro.product.model"]
  let bluetooth ← _run runner adb ["shell", "dumpsys", "bluetooth_manager"]
  return ⟨strip model, strip sdk, selected_lines py watch_address (splitlines bluetooth)⟩

end Snapshot

/-! ## Lines about other devices -/

/-- A Bluetooth address: six pairs of digits. -/
def isAddress (text : List Char) : Bool :=
  let pairs := text.splitOn ':'
  pairs.length = 6 && pairs.all fun pair =>
    pair.length = 2 && pair.all fun c => c.isDigit || c.toLower ∈ ['a', 'b', 'c', 'd', 'e', 'f']

/-- A line with an address that is not the watch's, and without the watch's. -/
structure AboutAnother (py : Builtins) (watch_address : Option String) (line : String) : Prop where
  other : ∃ address, isAddress address = true ∧ address <:+: line.toList ∧
    py.casefold (String.ofList address) ≠ py.casefold (watch_address.getD "")
  notWatch : ofWatch py watch_address line = false

/-- Two texts that differ in such lines only. -/
inductive DifferIn (Other : String → Prop) : List String → List String → Prop
  | nil : DifferIn Other [] []
  | same (line : String) {lines lines' : List String} (h : DifferIn Other lines lines') :
      DifferIn Other (line :: lines) (line :: lines')
  | left {line : String} {lines lines' : List String} (hline : Other line)
      (h : DifferIn Other lines lines') : DifferIn Other (line :: lines) lines'
  | right {line : String} {lines lines' : List String} (hline : Other line)
      (h : DifferIn Other lines lines') : DifferIn Other lines (line :: lines')

/-- A text without line boundaries. -/
def IsLine (line : String) : Prop := ∀ c ∈ line.toList, isLineBoundary c = false

theorem isLine_of_mem {output line : String} (h : line ∈ splitlines output) : IsLine line := by
  obtain ⟨chars, hchars, rfl⟩ := List.mem_map.mp h
  intro c hc
  rw [String.toList_ofList] at hc
  exact Lines.split_plain _ [] (by simp) chars hchars c hc

theorem splitlines_single {line : String} (h : IsLine line) :
    splitlines (String.ofList (line.toList ++ [LINE_FEED])) = [line] := by
  unfold splitlines
  rw [String.toList_ofList,
    Lines.readLines_single (by decide) (by decide) (by decide) h, List.map_singleton,
    String.ofList_toList]

section Evidence

variable {py : Builtins} {watch_address : Option String}

theorem selected_skip {line : String} {lines : List String}
    (h : AboutAnother py watch_address line) (hmarked : marked py line = false) :
    selected_lines py watch_address (line :: lines) = selected_lines py watch_address lines := by
  unfold selected_lines
  rw [List.filter_cons_of_neg (by rw [hmarked, h.notWatch]; decide)]

theorem selected_same (line : String) {lines lines' : List String}
    (h : selected_lines py watch_address lines = selected_lines py watch_address lines') :
    selected_lines py watch_address (line :: lines) =
      selected_lines py watch_address (line :: lines') := by
  unfold selected_lines at h ⊢
  rw [List.filter_cons, List.filter_cons]
  split_ifs
  · rw [List.map_cons, List.map_cons, h]
  · exact h

/-- **Unmarked lines** about other devices leave the evidence as it is. -/
theorem selected_eq_of_differ {lines lines' : List String}
    (hdiffer : DifferIn (AboutAnother py watch_address) lines lines')
    (h : ∀ line ∈ lines ++ lines', AboutAnother py watch_address line → marked py line = false) :
    selected_lines py watch_address lines = selected_lines py watch_address lines' := by
  induction hdiffer with
  | nil => rfl
  | same line hdiffer ih =>
      apply selected_same
      exact ih fun other hother => h other (by simp at hother ⊢; tauto)
  | left hline hdiffer ih =>
      rw [selected_skip hline (h _ (by simp) hline)]
      exact ih fun other hother => h other (by simp at hother ⊢; tauto)
  | right hline hdiffer ih =>
      rw [selected_skip hline (h _ (by simp) hline)]
      exact ih fun other hother => h other (by simp at hother ⊢; tauto)

/-- What a phone dumps, line by line. -/
def dumped (runner : Runner) (adb : AdbHardware) : List String :=
  match _run runner adb ["shell", "dumpsys", "bluetooth_manager"] with
  | .ok bluetooth => splitlines bluetooth
  | .error _ => []

theorem bind_ok {α β : Type} {x : Except PyExc α} {f : α → Except PyExc β} {b : β}
    (h : (x >>= f) = .ok b) : ∃ a, x = .ok a ∧ f a = .ok b := by
  cases x with
  | error error => cases h
  | ok a => exact ⟨a, rfl, h⟩

theorem isLine_of_dumped {runner : Runner} {adb : AdbHardware} {line : String}
    (h : line ∈ dumped runner adb) : IsLine line := by
  unfold dumped at h
  cases hrun : _run runner adb ["shell", "dumpsys", "bluetooth_manager"] with
  | ok bluetooth =>
      rw [hrun] at h
      exact isLine_of_mem h
  | error error =>
      rw [hrun] at h
      exact absurd h List.not_mem_nil

/-- The evidence of a snapshot is selected from the dump. -/
theorem snapshot_evidence {runner : Runner} {adb : AdbHardware} {snap : AdbSnapshot}
    (h : snapshot py runner adb watch_address = .ok snap) :
    snap.bluetooth_evidence = selected_lines py watch_address (dumped runner adb) := by
  unfold snapshot at h
  obtain ⟨-, -, h⟩ := bind_ok h
  obtain ⟨sdk, -, h⟩ := bind_ok h
  obtain ⟨model, -, h⟩ := bind_ok h
  obtain ⟨bluetooth, hdump, h⟩ := bind_ok h
  injection h with h
  unfold dumped
  rw [hdump, ← h]

end Evidence

/-! ## The evidence -/

/-- A phone with this dump. -/
def phone (dump : String) : Runner := fun command =>
  if command = ["adb", "devices"] then
    .ok ⟨0, "List of devices attached\nphone\tdevice\n", ""⟩
  else if command = ["adb", "-s", "phone", "shell", "dumpsys", "bluetooth_manager"] then
    .ok ⟨0, dump, ""⟩
  else .ok ⟨0, "", ""⟩

def phoneHardware : AdbHardware := ⟨"phone", by decide +kernel⟩

theorem verify_phone (py : Builtins) (dump : String) :
    verify py (phone dump) phoneHardware = .ok () := by
  have hstate : stateOf (parse_adb_devices "List of devices attached\nphone\tdevice\n") "phone" =
      some "device" := by decide +kernel
  have hserial : phoneHardware.serial = "phone" := rfl
  have hdevices : phone dump ["adb", "devices"] =
      .ok ⟨0, "List of devices attached\nphone\tdevice\n", ""⟩ := rfl
  unfold verify
  simp only [hdevices, bind, Except.bind, hserial, hstate, ne_eq, not_true_eq_false, if_false]
  rfl

theorem dumped_phone (dump : String) : dumped (phone dump) phoneHardware = splitlines dump := rfl

theorem snapshot_phone (py : Builtins) (watch_address : Option String) (dump : String) :
    ∃ snap, snapshot py (phone dump) phoneHardware watch_address = .ok snap := by
  unfold snapshot
  rw [verify_phone]
  exact ⟨_, rfl⟩

/-- Phones whose dumps hold lines of one kind only, and differ only in lines about
other devices, have the same evidence. -/
def Independent (py : Builtins) (watch_address : Option String) (Kind : String → Prop) : Prop :=
  ∀ adb runner runner' snap snap',
    snapshot py runner adb watch_address = .ok snap →
    snapshot py runner' adb watch_address = .ok snap' →
    (∀ line ∈ dumped runner adb ++ dumped runner' adb, Kind line) →
    DifferIn (AboutAnother py watch_address) (dumped runner adb) (dumped runner' adb) →
    snap.bluetooth_evidence = snap'.bluetooth_evidence

/-- **The evidence says nothing of other devices** exactly when no line about another
device has a marker. -/
theorem snapshot_evidence_iff (py : Builtins) (watch_address : Option String)
    (Kind : String → Prop) :
    Independent py watch_address Kind ↔
      ∀ line, Kind line → IsLine line → AboutAnother py watch_address line →
        marked py line = false := by
  constructor
  · intro h line hkind hline hother
    by_contra hmarked
    rw [Bool.not_eq_false] at hmarked
    -- one phone dumps this line, another nothing
    obtain ⟨snap, hsnap⟩ := snapshot_phone py watch_address (String.ofList (line.toList ++ [LINE_FEED]))
    obtain ⟨snap', hsnap'⟩ := snapshot_phone py watch_address ""
    have hlines : dumped (phone (String.ofList (line.toList ++ [LINE_FEED]))) phoneHardware = [line] :=
      splitlines_single hline
    have hnone : dumped (phone "") phoneHardware = [] := rfl
    have hsame := h phoneHardware _ _ snap snap' hsnap hsnap'
      (by rw [hlines, hnone]; simpa using hkind) (by rw [hlines, hnone]; exact .left hother .nil)
    rw [snapshot_evidence hsnap, snapshot_evidence hsnap', hlines, hnone] at hsame
    unfold selected_lines at hsame
    rw [List.filter_cons_of_pos (by rw [hmarked]; rfl)] at hsame
    cases hsame
  · intro h adb runner runner' snap snap' hsnap hsnap' hkind hdiffer
    rw [snapshot_evidence hsnap, snapshot_evidence hsnap']
    apply selected_eq_of_differ hdiffer
    intro line hline hother
    refine h line (hkind line hline) ?_ hother
    rcases List.mem_append.mp hline with hline | hline
    · exact isLine_of_dumped hline
    · exact isLine_of_dumped hline

/-- The watch of the example. -/
def watchAddress : Option String := some "AA:BB:CC:DD:EE:FF"

/-- A paired device of the phone. -/
def pairedLine : String := "11:22:33:44:55:66 bond state: BONDED"

/-- **Another device** appears in the evidence, although the two dumps differ in the
line about it only. -/
theorem paired_device_told :
    ∃ snap snap',
      snapshot lowerCase (phone "enabled: true\n") phoneHardware watchAddress = .ok snap ∧
      snapshot lowerCase (phone ("enabled: true\n" ++ pairedLine ++ "\n")) phoneHardware
        watchAddress = .ok snap' ∧
      DifferIn (AboutAnother lowerCase watchAddress) (dumped (phone "enabled: true\n") phoneHardware)
        (dumped (phone ("enabled: true\n" ++ pairedLine ++ "\n")) phoneHardware) ∧
      snap.bluetooth_evidence = ["enabled: true"] ∧
      snap'.bluetooth_evidence = ["enabled: true", pairedLine] := by
  obtain ⟨snap, hsnap⟩ := snapshot_phone lowerCase watchAddress "enabled: true\n"
  obtain ⟨snap', hsnap'⟩ := snapshot_phone lowerCase watchAddress
    ("enabled: true\n" ++ pairedLine ++ "\n")
  have hlines : splitlines "enabled: true\n" = ["enabled: true"] := by decide +kernel
  have hlines' : splitlines ("enabled: true\n" ++ pairedLine ++ "\n") =
      ["enabled: true", pairedLine] := by decide +kernel
  have hother : AboutAnother lowerCase watchAddress pairedLine :=
    ⟨⟨"11:22:33:44:55:66".toList, by decide +kernel, by decide +kernel, by decide +kernel⟩,
      by decide +kernel⟩
  refine ⟨snap, snap', hsnap, hsnap', ?_, ?_, ?_⟩
  · rw [dumped_phone, dumped_phone, hlines, hlines']
    exact .same _ (.right hother .nil)
  · rw [snapshot_evidence hsnap, dumped_phone, hlines]
    decide +kernel
  · rw [snapshot_evidence hsnap', dumped_phone, hlines']
    decide +kernel

end Ptlab.Hardware
