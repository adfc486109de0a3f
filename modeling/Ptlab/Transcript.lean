/-
`TranscriptWriter` (`src/ptlab/transcript.py`) under threads.

`emit` numbers a record and appends its line while it has the writer's lock. The number is
read and written in separate steps, and what was written to the stream reaches the file
piece by piece, whenever the buffer is flushed; so without the lock both could be mixed up.
With it, `emitSection` is a section of `Ptlab.Lib.Lock`, and `transcript_interleaved` says
what is on file at any moment of any interleaving.
-/
import Ptlab.JsonLines
import Ptlab.Lib.Lock

set_option autoImplicit false

open Ptlab.Control Ptlab.JsonLines

namespace Ptlab.Transcript

/-- The arguments of `emit`. -/
structure Message where
  channel : String
  direction : String
  kind : String
  fields : Members

structure Record where
  sequence : ℕ
  timestamp : String
  message : Message

/-- `{**base, **fields}`. -/
def override (base fields : Members) : Members :=
  base.filter (fun member => member.1 ∉ fields.map Prod.fst) ++ fields

/-- The dict of a record, with its keys sorted. -/
def Record.dict (record : Record) : Members :=
  Json.sortKeys (override
    [("sequence", .number (.ofNat record.sequence)), ("timestamp", .string record.timestamp),
      ("channel", .string record.message.channel), ("direction", .string record.message.direction),
      ("kind", .string record.message.kind)] record.message.fields)

/-- The writer, with the file at its path. -/
structure TranscriptWriter where
  _sequence : ℕ
  file : List UInt8

/-- Where a call of `emit` is, with its variables and the buffer of its stream. -/
inductive At where
  | dict (message : Message)
  | load (record : Record)
  | store (record : Record) (sequence : ℕ)
  | opening (record : Record)
  | dumps (record : Record)
  | newline (buffer : List UInt8)
  | closing (buffer : List UInt8)
  | left

section Model

-- which messages `orjson.dumps` raises for
variable (refused : Message → Bool)

/-- The steps of `emit` between the two ends of the lock. The file can be opened, and
what is flushed is written: that the system refuses either is left out. -/
inductive EmitStep : At → TranscriptWriter → At → TranscriptWriter → Prop
  | dict (message : Message) (now : String) (w : TranscriptWriter) :
      EmitStep (.dict message) w (.load ⟨w._sequence, now, message⟩) w
  -- `self._sequence += 1`
  | load (record : Record) (w : TranscriptWriter) :
      EmitStep (.load record) w (.store record w._sequence) w
  | store (record : Record) (sequence : ℕ) (w : TranscriptWriter) :
      EmitStep (.store record sequence) w (.opening record) { w with _sequence := sequence + 1 }
  | opening (record : Record) (w : TranscriptWriter) :
      EmitStep (.opening record) w (.dumps record) w
  | dumps (record : Record) (w : TranscriptWriter) (h : refused record.message = false) :
      EmitStep (.dumps record) w (.newline (JsonLines.dumps record.dict)) w
  | refuse (record : Record) (w : TranscriptWriter) (h : refused record.message = true) :
      EmitStep (.dumps record) w .left w
  | newline (buffer : List UInt8) (w : TranscriptWriter) :
      EmitStep (.newline buffer) w (.closing (buffer ++ [NEWLINE])) w
  -- the buffer is flushed, as far as the system takes it
  | flushLine (buffer : List UInt8) (n : ℕ) (w : TranscriptWriter) :
      EmitStep (.newline buffer) w (.newline (buffer.drop n))
        { w with file := w.file ++ buffer.take n }
  | flush (buffer : List UInt8) (n : ℕ) (w : TranscriptWriter) :
      EmitStep (.closing buffer) w (.closing (buffer.drop n))
        { w with file := w.file ++ buffer.take n }
  | close (buffer : List UInt8) (w : TranscriptWriter) :
      EmitStep (.closing buffer) w .left { w with file := w.file ++ buffer }

/-- `TranscriptWriter.emit`. -/
def emitSection : Lock.Section Message At TranscriptWriter where
  enter := .dict
  step := EmitStep refused
  leave := (· = .left)

/-- What the calls come to that are not refused: the number of each is its place in the order
of the lock. -/
def accepted {T : Type*} (order : List (T × Message)) : List (ℕ × Message) :=
  order.zipIdx.filterMap fun (call, n) => if refused call.2 then none else some (n, call.2)

end Model

variable {refused : Message → Bool}

/-- Some thread can always go on. -/
theorem emitSection_live (l : At) (w : TranscriptWriter) :
    (emitSection refused).leave l ∨ ∃ l' w', (emitSection refused).step l w l' w' := by
  cases l with
  | dict message => exact .inr ⟨_, _, .dict message "" w⟩
  | load record => exact .inr ⟨_, _, .load record w⟩
  | store record sequence => exact .inr ⟨_, _, .store record sequence w⟩
  | opening record => exact .inr ⟨_, _, .opening record w⟩
  | dumps record =>
      cases h : refused record.message with
      | true => exact .inr ⟨_, _, .refuse record w h⟩
      | false => exact .inr ⟨_, _, .dumps record w h⟩
  | newline buffer => exact .inr ⟨_, _, .newline buffer w⟩
  | closing buffer => exact .inr ⟨_, _, .close buffer w⟩
  | left => exact .inl rfl

/-! ## One call -/

/-- Some of the line is in the file behind what was there, and the rest is in the buffer. -/
def Flushed (before file buffer line : List UInt8) : Prop :=
  ∃ flushed, file = before ++ flushed ∧ flushed ++ buffer = line

/-- What a call has done to the writer, which was `w` when it took the lock: `record` is the
record it writes. -/
def Inside (refused : Message → Bool) (w : TranscriptWriter) (record : Record) :
    At → TranscriptWriter → Prop
  | .dict message, w' => message = record.message ∧ w' = w
  | .load made, w' => made = record ∧ w' = w
  | .store made sequence, w' => made = record ∧ sequence = w._sequence ∧ w' = w
  | .opening made, w' => made = record ∧ w' = { w with _sequence := w._sequence + 1 }
  | .dumps made, w' => made = record ∧ w' = { w with _sequence := w._sequence + 1 }
  | .newline buffer, w' => refused record.message = false ∧ w'._sequence = w._sequence + 1 ∧
      Flushed w.file w'.file buffer (dumps record.dict)
  | .closing buffer, w' => refused record.message = false ∧ w'._sequence = w._sequence + 1 ∧
      Flushed w.file w'.file buffer (dumps record.dict ++ [NEWLINE])
  | .left, w' => w'._sequence = w._sequence + 1 ∧ w'.file =
      if refused record.message then w.file else w.file ++ (dumps record.dict ++ [NEWLINE])

theorem Flushed.next {before file buffer line : List UInt8} (n : ℕ)
    (h : Flushed before file buffer line) :
    Flushed before (file ++ buffer.take n) (buffer.drop n) line := by
  obtain ⟨flushed, rfl, hline⟩ := h
  refine ⟨flushed ++ buffer.take n, List.append_assoc .., ?_⟩
  rw [List.append_assoc, List.take_append_drop, hline]

theorem Flushed.more {before file buffer line : List UInt8} (more : List UInt8)
    (h : Flushed before file buffer line) : Flushed before file (buffer ++ more) (line ++ more) := by
  obtain ⟨flushed, hfile, rfl⟩ := h
  exact ⟨flushed, hfile, (List.append_assoc ..).symm⟩

theorem Flushed.whole {before file buffer line : List UInt8}
    (h : Flushed before file buffer line) : file ++ buffer = before ++ line := by
  obtain ⟨flushed, rfl, rfl⟩ := h
  exact List.append_assoc ..

/-- **The step.** The record is fixed once it has its time. -/
theorem Inside.step {w w' w'' : TranscriptWriter} {record : Record} {l l' : At}
    (hnumber : record.sequence = w._sequence) (h : Inside refused w record l w')
    (hstep : EmitStep refused l w' l' w'') :
    ∃ now, Inside refused w { record with timestamp := now } l' w'' := by
  cases hstep with
  | dict message now =>
      obtain ⟨rfl, rfl⟩ := h
      exact ⟨now, by rw [← hnumber], rfl⟩
  | load made => exact ⟨record.timestamp, h.1, h.2 ▸ rfl, h.2⟩
  | store made sequence => exact ⟨record.timestamp, h.1, by rw [h.2.1, h.2.2]⟩
  | opening made => exact ⟨record.timestamp, h⟩
  | dumps made _ haccepted =>
      obtain ⟨rfl, rfl⟩ := h
      exact ⟨made.timestamp, haccepted, rfl, [], (List.append_nil _).symm, rfl⟩
  | refuse made _ hrefused =>
      obtain ⟨rfl, rfl⟩ := h
      exact ⟨made.timestamp, rfl, (if_pos hrefused).symm⟩
  | newline buffer => exact ⟨record.timestamp, h.1, h.2.1, h.2.2.more [NEWLINE]⟩
  | flushLine buffer n => exact ⟨record.timestamp, h.1, h.2.1, h.2.2.next n⟩
  | flush buffer n => exact ⟨record.timestamp, h.1, h.2.1, h.2.2.next n⟩
  | close buffer =>
      refine ⟨record.timestamp, h.2.1, ?_⟩
      rw [if_neg (by rw [h.1]; exact Bool.false_ne_true)]
      exact h.2.2.whole

/-- **A call under way.** -/
theorem within_inside {message : Message} {w w' : TranscriptWriter} {l : At}
    (h : Lock.Within (emitSection refused) message w l w') :
    ∃ now, Inside refused w ⟨w._sequence, now, message⟩ l w' := by
  unfold Lock.Within at h
  generalize hq : (l, w') = q at h
  induction h generalizing l w' with
  | refl =>
      obtain ⟨rfl, rfl⟩ := Prod.mk.inj hq
      exact ⟨"", rfl, rfl⟩
  | @tail p q _ hstep ih =>
      obtain ⟨now, hinside⟩ := ih rfl
      subst hq
      exact hinside.step rfl hstep

/-! ## Calls one after another -/

/-- The file is the records of these calls. -/
structure Written (refused : Message → Bool) {T : Type*} (order : List (T × Message))
    (records : List Record) : Prop where
  accepted : records.map (fun record => (record.sequence, record.message)) = accepted refused order
  ordered : records.Pairwise fun a b => a.sequence < b.sequence
  below : ∀ record ∈ records, record.sequence < order.length

theorem accepted_snoc {T : Type*} (order : List (T × Message)) (call : T × Message) :
    accepted refused (order ++ [call]) = accepted refused order ++
      if refused call.2 then [] else [(order.length, call.2)] := by
  unfold accepted
  rw [List.zipIdx_append, List.filterMap_append, Nat.zero_add, List.zipIdx_singleton,
    List.filterMap_cons, List.filterMap_nil]
  dsimp only
  split_ifs <;> rfl

theorem written_nil {T : Type*} : Written refused ([] : List (T × Message)) [] :=
  ⟨rfl, .nil, fun _ h => absurd h List.not_mem_nil⟩

/-- What the next call adds: its record, if it is not refused. -/
def added (refused : Message → Bool) (record : Record) : List Record :=
  if refused record.message then [] else [record]

theorem Written.snoc {T : Type*} {order : List (T × Message)} {records : List Record}
    (h : Written refused order records) (t : T) (record : Record)
    (hnumber : record.sequence = order.length) :
    Written refused (order ++ [(t, record.message)]) (records ++ added refused record) := by
  unfold added
  refine ⟨?_, ?_, fun r hr => ?_⟩
  · rw [List.map_append, h.accepted, accepted_snoc, ← hnumber]
    cases refused record.message <;> rfl
  · rw [List.pairwise_append]
    refine ⟨h.ordered, ?_, fun r hr r' hr' => ?_⟩
    · split_ifs
      · exact .nil
      · exact List.pairwise_singleton _ _
    · split_ifs at hr'
      · cases hr'
      · rw [List.mem_singleton.mp hr', hnumber]
        exact h.below r hr
  · rw [List.length_append, List.length_singleton]
    rcases List.mem_append.mp hr with hr | hr
    · exact (h.below r hr).trans (Nat.lt_succ_self _)
    · split_ifs at hr
      · cases hr
      · rw [List.mem_singleton.mp hr, hnumber]
        exact Nat.lt_succ_self _

/-- The text of some records. -/
def text (records : List Record) : List UInt8 := lines (records.map Record.dict)

theorem text_dropLast (records : List Record) : text records.dropLast <+: text records := by
  obtain ⟨rest, hrest⟩ := List.dropLast_prefix records
  refine ⟨text rest, ?_⟩
  conv => rhs; rw [← hrest]
  unfold text lines joinLines
  rw [List.map_append, List.map_append, List.flatMap_append]

theorem text_added (records : List Record) (record : Record) :
    text (records ++ added refused record) = if refused record.message then text records
      else text records ++ (dumps record.dict ++ [NEWLINE]) := by
  unfold text added
  split_ifs
  · rw [List.append_nil]
  · rw [List.map_append, List.map_singleton, lines_append]

/-- **Calls in a row** write their records. -/
theorem serial_written {T : Type*} {done : List (T × Message)} {w : TranscriptWriter}
    (h : Lock.Serial (emitSection refused) ⟨0, []⟩ done w) :
    ∃ records, Written refused done records ∧ w._sequence = done.length ∧
      w.file = text records := by
  induction h with
  | nil => exact ⟨[], written_nil, rfl, rfl⟩
  | @snoc done t message w w' _ hrun ih =>
      obtain ⟨records, hwritten, hnumber, hfile⟩ := ih
      obtain ⟨l, hwithin, rfl⟩ := hrun
      obtain ⟨now, hsequence, hleft⟩ := within_inside hwithin
      refine ⟨_, hwritten.snoc t ⟨w._sequence, now, message⟩ hnumber, ?_, ?_⟩
      · rw [hsequence, hnumber, List.length_append, List.length_singleton]
      · rw [hleft, text_added, hfile]

/-! ## Any interleaving -/

/-- Between what was on file and the whole record. -/
theorem Flushed.between {refused : Message → Bool} {records : List Record} {record : Record}
    {file buffer line : List UInt8} (haccepted : refused record.message = false)
    (h : Flushed (text records) file buffer line) (hline : line <+: dumps record.dict ++ [NEWLINE]) :
    text records <+: file ∧ file <+: text (records ++ added refused record) := by
  obtain ⟨flushed, rfl, rfl⟩ := h
  refine ⟨List.prefix_append _ _, ?_⟩
  rw [text_added, if_neg (by rw [haccepted]; exact Bool.false_ne_true), List.prefix_append_right_inj]
  exact (List.prefix_append _ _).trans hline

theorem prefix_added (records : List Record) (record : Record) :
    text records <+: text (records ++ added refused record) := by
  rw [text_added]
  split_ifs
  · exact List.prefix_refl _
  · exact List.prefix_append _ _

theorem Inside.between {w w' : TranscriptWriter} {record : Record} {l : At} {records : List Record}
    (h : Inside refused w record l w') (hfile : w.file = text records) :
    text records <+: w'.file ∧ w'.file <+: text (records ++ added refused record) := by
  have hunchanged : w'.file = text records →
      text records <+: w'.file ∧ w'.file <+: text (records ++ added refused record) := fun heq => by
    rw [heq]
    exact ⟨List.prefix_refl _, prefix_added records record⟩
  cases l with
  | dict message => exact hunchanged (by rw [h.2, hfile])
  | load made => exact hunchanged (by rw [h.2, hfile])
  | store made sequence => exact hunchanged (by rw [h.2.2, hfile])
  | opening made => exact hunchanged (by rw [h.2, ← hfile])
  | dumps made => exact hunchanged (by rw [h.2, ← hfile])
  | newline buffer =>
      have hflushed := h.2.2
      rw [hfile] at hflushed
      exact hflushed.between h.1 (List.prefix_append _ _)
  | closing buffer =>
      have hflushed := h.2.2
      rw [hfile] at hflushed
      exact hflushed.between h.1 (List.prefix_refl _)
  | left =>
      have hleft := h.2
      rw [hfile, ← text_added] at hleft
      exact ⟨hleft ▸ prefix_added records record, hleft ▸ List.prefix_refl _⟩

/-- **The transcript, interleaved.** However many threads emit, and however their steps are
interleaved, the calls took the lock in some order, which for each thread is the order of its
calls. The file is a beginning of the records of those that are not refused, numbered by their
places in that order, and lacks at most the last; no record is torn apart, and a reader of the
file has whole records and behind them no JSON, or the next record. Once all calls are over it
is all of them. As long as there are calls left, some thread can go on. -/
theorem transcript_interleaved {T : Type*} [DecidableEq T] (refused : Message → Bool)
    (calls : T → List Message) {w : Lock.World T Message At TranscriptWriter}
    (h : Lock.Reached (emitSection refused) calls ⟨0, []⟩ w) :
    (∃ (order : List (T × Message)) (records : List Record),
      (∀ t, Lock.callsOf t order <+: calls t) ∧
      records.map (fun record => (record.sequence, record.message)) = accepted refused order ∧
      (records.Pairwise fun a b => a.sequence < b.sequence) ∧
      text records.dropLast <+: w.shared.file ∧ w.shared.file <+: text records ∧
      ReadsCut (records.map Record.dict) w.shared.file ∧
      ((∀ t, (w.threads t).calls = []) → (∀ t, Lock.callsOf t order = calls t) ∧
        readLog w.shared.file = (records.map Record.dict).map .object)) ∧
    ∀ t, (w.threads t).calls ≠ [] → ∃ w', Lock.Step (emitSection refused) w w' := by
  refine ⟨?_, fun t ht => h.progress emitSection_live ht⟩
  obtain ⟨done, w₀, hserialized⟩ := h.serial
  obtain ⟨records, hwritten, hnumber, hfile⟩ := serial_written hserialized.serial
  have horder := hserialized.order
  rcases hlock : w.lock with _ | holder
  · -- no one is in the section: the file is complete
    have hshared := (hserialized.held.free hlock).1
    rw [hshared, hfile]
    refine ⟨done, records, fun t => ⟨_, (horder t).symm⟩, hwritten.accepted, hwritten.ordered, ?_,
      List.prefix_refl _, readLog_cut (List.prefix_refl _), fun hover => ⟨fun t => ?_, ?_⟩⟩
    · exact text_dropLast records
    · rw [horder t, hover t, List.append_nil]
    · have hread := (readLog_lines (records.map Record.dict) List.not_mem_nil).1
      rwa [List.append_nil] at hread
  · obtain ⟨⟨message, ms, l, hholder, hwithin⟩, -⟩ := hserialized.held.holder hlock
    obtain ⟨now, hinside⟩ := within_inside hwithin
    obtain ⟨hlow, hhigh⟩ := hinside.between hfile
    have hsnoc := hwritten.snoc holder ⟨w₀._sequence, now, message⟩ hnumber
    refine ⟨_, _, fun t => ?_, hsnoc.accepted, hsnoc.ordered, ?_, hhigh, ?_, fun hover => ?_⟩
    · rw [horder t]
      by_cases heq : t = holder
      · rw [heq, hholder, Lock.callsOf_snoc_self]
        exact (List.prefix_append_right_inj _).mpr (List.prefix_append [message] ms)
      · rw [Lock.callsOf_snoc_of_ne (Ne.symm heq)]
        exact List.prefix_append _ _
    · refine List.IsPrefix.trans ?_ hlow
      unfold added
      split_ifs
      · rw [List.append_nil]
        exact text_dropLast records
      · rw [List.dropLast_concat]
    · exact readLog_cut hhigh
    · -- the holder has a call left
      have hcalls := hover holder
      rw [hholder] at hcalls
      cases hcalls

/-- Two clients. One has numbered its record when the other wants the lock. -/
theorem transcript_interleaved_clients :
    let query : Message := ⟨"ble-control", "send", "command", [("line", .string "QUERY")]⟩
    let battery : Message := ⟨"gatt", "send", "request", [("characteristic", .string "battery")]⟩
    let calls : Bool → List Message := fun control => if control then [query] else [battery]
    ∃ w : Lock.World Bool Message At TranscriptWriter,
      w.lock = some true ∧ w.shared._sequence = 1 ∧ (w.threads false).calls = [battery] ∧
      (∃ order records, (∀ t, Lock.callsOf t order <+: calls t) ∧
        records.map (fun record => (record.sequence, record.message)) =
          accepted (fun _ => false) order ∧ w.shared.file <+: text records) ∧
      ∃ w', Lock.Step (emitSection fun _ => false) w w' := by
  intro query battery calls
  let record : Record := ⟨0, "2026-01-05T09:00:00Z", query⟩
  let steps := fun p q : At × TranscriptWriter => EmitStep (fun _ => false) p.1 p.2 q.1 q.2
  have hdict : steps (.dict query, ⟨0, []⟩) (.load record, ⟨0, []⟩) := .dict query _ ⟨0, []⟩
  have hload : steps (.load record, ⟨0, []⟩) (.store record 0, ⟨0, []⟩) := .load record ⟨0, []⟩
  have hstore : steps (.store record 0, ⟨0, []⟩) (.opening record, ⟨1, []⟩) := .store record 0 ⟨0, []⟩
  have hreached : Lock.Reached (emitSection fun _ => false) calls ⟨0, []⟩ _ :=
    Lock.reached_within (t := true) (show calls true = [query] from rfl)
      (.tail (.tail (.single hdict) hload) hstore)
  obtain ⟨⟨order, records, horder, haccepted, -, -, hfile, -, -⟩, hprogress⟩ :=
    transcript_interleaved (fun _ => false) calls hreached
  exact ⟨_, rfl, rfl, rfl, ⟨order, records, horder, haccepted, hfile⟩,
    hprogress false (List.cons_ne_nil _ _)⟩

end Ptlab.Transcript
