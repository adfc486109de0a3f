/-
`LineParser` (`src/ptlab/control.py`): the incremental reader of the BLE-control
server's lines.

`feed` is the source's loop. `lineCodec` is the format it cuts, a line being the
bytes in front of a newline, and `feed_eq` is where the two meet. They part at a
line that is not UTF-8: `feed` raises there, keeps what stands behind the line,
and the lines it had in hand from the same call go with the exception.
-/
import Ptlab.Lib.Deframe
import Ptlab.Lib.Utf8

set_option autoImplicit false

open Deframe

namespace Ptlab.Control

/-- What the module raises, with its texts, and what else comes out of it. -/
inductive ControlExc where
  | ControlError (message : String)
  | ControlTimeout (message : String)
  | ControlProtocolError (message : String)
  | ValueError (message : String)
  | IndexError (message : String)
  | OSError (message : String)
  deriving DecidableEq, Repr

def MAX_CONTROL_LINE : ℕ := 1024

def NEWLINE : UInt8 := 0x0A

def CARRIAGE_RETURN : UInt8 := 0x0D

/-! ## The parser -/

/-- A `LineParser`. The limit is positive because `__init__` refuses any other. -/
structure LineParser where
  maximum_line : ℕ
  maximum_line_pos : 0 < maximum_line
  buffer : List UInt8

/-- `LineParser.__init__`. -/
def LineParser.init (maximum_line : ℤ) : Except ControlExc LineParser :=
  if h : maximum_line < 1 then .error (.ValueError "maximum line must be positive")
  else .ok ⟨maximum_line.toNat, by omega, []⟩

/-- `buffer.find(b"\n")`, where there is one. -/
def findNewline (buffer : List UInt8) : Option ℕ := buffer.findIdx? (· = NEWLINE)

/-- `raw[:-1]` if `raw` ends with a carriage return. -/
def stripReturn (raw : List UInt8) : List UInt8 :=
  if raw.getLast? = some CARRIAGE_RETURN then raw.dropLast else raw

/-- The text of a line, if it is UTF-8. -/
def lineText (raw : List UInt8) : Option String :=
  (Utf8.decodeStrict (stripReturn raw)).map String.ofList

/-- The text does not follow the parser's own limit. -/
def lineTooLong : ControlExc := .ControlProtocolError "BLE-control line exceeds 1024 bytes"

def lineNotUtf8 : ControlExc := .ControlProtocolError "BLE-control response is not UTF-8"

/-- The `while True` loop of `feed`: the buffer and the local list of lines, on
fuel that the buffer's length covers. -/
def feedLoop (maximum_line : ℕ) : ℕ → List UInt8 → List String →
    Except ControlExc (List String) × List UInt8
  | 0, buffer, lines => (.ok lines, buffer)
  | fuel + 1, buffer, lines =>
    match findNewline buffer with
    | none =>
      if buffer.length > maximum_line then (.error lineTooLong, [])
      else (.ok lines, buffer)
    | some newline =>
      if newline > maximum_line then (.error lineTooLong, [])
      else
        let raw := buffer.take newline
        let buffer := buffer.drop (newline + 1)
        match lineText raw with
        -- the line is out of the buffer by now, and `lines` is local
        | none => (.error lineNotUtf8, buffer)
        | some line =>
          feedLoop maximum_line fuel buffer (if line ≠ "" then lines ++ [line] else lines)

/-- `LineParser.feed`. -/
def LineParser.feed (p : LineParser) (data : List UInt8) :
    Except ControlExc (List String) × LineParser :=
  let buffer := p.buffer ++ data
  let (result, rest) := feedLoop p.maximum_line (buffer.length + 1) buffer []
  (result, { p with buffer := rest })

/-! ## The format -/

/-- A buffer has no newline, or it is a line, a newline and what stands behind. -/
theorem findNewline_cases (b : List UInt8) : (findNewline b = none ∧ NEWLINE ∉ b) ∨
    ∃ raw t, b = raw ++ NEWLINE :: t ∧ NEWLINE ∉ raw ∧ findNewline b = some raw.length := by
  induction b with
  | nil => exact .inl ⟨rfl, by simp⟩
  | cons x b ih =>
      unfold findNewline at ih ⊢
      by_cases hx : x = NEWLINE
      · exact .inr ⟨[], b, by rw [hx]; rfl, by simp, by simp [List.findIdx?_cons, hx]⟩
      · rcases ih with ⟨hnone, hb⟩ | ⟨raw, t, rfl, hraw, hsome⟩
        · refine .inl ⟨by simp [List.findIdx?_cons, hx, hnone], ?_⟩
          exact List.not_mem_cons_of_ne_of_not_mem (Ne.symm hx) hb
        · refine .inr ⟨x :: raw, t, rfl, List.not_mem_cons_of_ne_of_not_mem (Ne.symm hx) hraw, ?_⟩
          simp [List.findIdx?_cons, hx, hsome]

theorem findNewline_of_not_mem {b : List UInt8} (h : NEWLINE ∉ b) : findNewline b = none := by
  rcases findNewline_cases b with ⟨hnone, -⟩ | ⟨raw, t, rfl, -, -⟩
  · exact hnone
  · exact absurd (by simp) h

theorem findNewline_line {raw : List UInt8} (h : NEWLINE ∉ raw) (t : List UInt8) :
    findNewline (raw ++ NEWLINE :: t) = some raw.length := by
  unfold findNewline
  induction raw with
  | nil => simp [List.findIdx?_cons]
  | cons x raw ih =>
      have hx : x ≠ NEWLINE := fun he => h (by simp [he])
      have hraw : NEWLINE ∉ raw := fun hmem => h (List.mem_cons_of_mem _ hmem)
      simp [List.findIdx?_cons, hx, ih hraw]

/-- One turn of the loop, as a look at the buffer. -/
def lookLine (m : ℕ) (b : List UInt8) : Look (List UInt8) Unit :=
  match findNewline b with
  | none => if b.length > m then .reject () else .more
  | some newline => if newline > m then .reject () else .item (b.take newline) (newline + 1)

/-- A line that is cut off stands in front of its newline and is within the
limit. -/
theorem lookLine_item {m : ℕ} {b raw : List UInt8} {n : ℕ} (h : lookLine m b = .item raw n) :
    ∃ t, b = raw ++ NEWLINE :: t ∧ NEWLINE ∉ raw ∧ raw.length ≤ m ∧ n = raw.length + 1 := by
  unfold lookLine at h
  rcases findNewline_cases b with ⟨hnone, -⟩ | ⟨raw', t, rfl, hraw, hsome⟩
  · rw [hnone] at h
    dsimp only at h
    split_ifs at h
  · rw [hsome] at h
    dsimp only at h
    split_ifs at h with hlong
    injection h with htake hn
    rw [List.take_left] at htake
    subst htake
    exact ⟨t, rfl, hraw, by omega, hn.symm⟩

theorem lookLine_line {m : ℕ} {raw : List UInt8} (h : NEWLINE ∉ raw) (t : List UInt8) :
    lookLine m (raw ++ NEWLINE :: t) =
      if raw.length > m then .reject () else .item raw (raw.length + 1) := by
  unfold lookLine
  rw [findNewline_line h]
  dsimp only
  rw [List.take_left]

theorem lookLine_open {m : ℕ} {b : List UInt8} (h : NEWLINE ∉ b) :
    lookLine m b = if b.length > m then .reject () else .more := by
  unfold lookLine
  rw [findNewline_of_not_mem h]

/-- A line is refused as soon as more than `m` bytes of it are there. -/
theorem lookLine_reject_append {m : ℕ} {b : List UInt8} (h : lookLine m b = .reject ())
    (c : List UInt8) : lookLine m (b ++ c) = .reject () := by
  rcases findNewline_cases b with ⟨-, hb⟩ | ⟨raw, t, rfl, hraw, -⟩
  · rw [lookLine_open hb] at h
    split_ifs at h with hlong
    rcases findNewline_cases c with ⟨-, hc⟩ | ⟨raw, t, rfl, hraw, -⟩
    · have hbc : NEWLINE ∉ b ++ c := fun hmem => (List.mem_append.mp hmem).elim hb hc
      rw [lookLine_open hbc, if_pos (by rw [List.length_append]; omega)]
    · have hbraw : NEWLINE ∉ b ++ raw := fun hmem => (List.mem_append.mp hmem).elim hb hraw
      rw [← List.append_assoc, lookLine_line hbraw, if_pos (by rw [List.length_append]; omega)]
  · rw [lookLine_line hraw] at h
    rw [List.append_assoc, List.cons_append, lookLine_line hraw, h]

/-- The lines of a stream under the limit `m`. -/
def lineFormat (m : ℕ) : Format UInt8 (List UInt8) Unit where
  look := lookLine m
  look_nil := rfl
  item_pos := by
    intro b raw n h
    obtain ⟨-, -, -, -, rfl⟩ := lookLine_item h
    exact Nat.succ_pos _
  item_le := by
    intro b raw n h
    obtain ⟨t, rfl, -, -, rfl⟩ := lookLine_item h
    rw [List.length_append, List.length_cons]
    omega
  item_append := by
    intro b raw n c h
    obtain ⟨t, rfl, hraw, hle, rfl⟩ := lookLine_item h
    rw [List.append_assoc, List.cons_append, lookLine_line hraw, if_neg (by omega)]
  reject_append := by
    intro b e c h
    exact lookLine_reject_append h c

/-- The lines and their bytes. -/
def lineCodec (m : ℕ) : Codec UInt8 (List UInt8) Unit where
  toFormat := lineFormat m
  encode raw := raw ++ [NEWLINE]
  Valid raw := NEWLINE ∉ raw ∧ raw.length ≤ m
  encode_item := by
    intro b raw n h
    obtain ⟨t, rfl, -, -, rfl⟩ := lookLine_item h
    rw [List.take_length_add_append, List.take_succ_cons, List.take_zero]
  valid_item := by
    intro b raw n h
    obtain ⟨t, -, hraw, hle, -⟩ := lookLine_item h
    exact ⟨hraw, hle⟩
  look_encode := by
    rintro raw ⟨hraw, hle⟩ c
    have hlook : (lineFormat m).look = lookLine m := rfl
    rw [List.append_assoc, List.singleton_append, hlook, lookLine_line hraw, if_neg (by omega),
      List.length_append, List.length_singleton]

/-! ## What a call comes to -/

/-- Lines as `feed` reads them: the texts in front of the first line that is not
UTF-8, the empty ones left out, and the lines behind it, if there is one. -/
def readLines : List (List UInt8) → List String × Option (List (List UInt8))
  | [] => ([], none)
  | raw :: raws =>
    match lineText raw with
    | none => ([], some raws)
    | some line =>
      (if line ≠ "" then line :: (readLines raws).1 else (readLines raws).1, (readLines raws).2)

theorem readLines_bad {raw : List UInt8} (h : lineText raw = none) (raws : List (List UInt8)) :
    readLines (raw :: raws) = ([], some raws) := by
  rw [readLines, h]

theorem readLines_line {raw : List UInt8} {line : String} (h : lineText raw = some line)
    (raws : List (List UInt8)) : readLines (raw :: raws) =
      (if line ≠ "" then line :: (readLines raws).1 else (readLines raws).1,
        (readLines raws).2) := by
  rw [readLines, h]

/-- One turn of the loop is one look at the front. -/
theorem feedLoop_succ (m fuel : ℕ) (b : List UInt8) (lines : List String) :
    feedLoop m (fuel + 1) b lines = match lookLine m b with
      | .more => (.ok lines, b)
      | .reject () => (.error lineTooLong, [])
      | .item raw n => match lineText raw with
        | none => (.error lineNotUtf8, b.drop n)
        | some line =>
          feedLoop m fuel (b.drop n) (if line ≠ "" then lines ++ [line] else lines) := by
  rw [feedLoop, lookLine]
  rcases findNewline b with _ | newline
  · dsimp only
    split_ifs <;> rfl
  · dsimp only
    split_ifs <;> rfl

/-- The loop cuts off lines and reads them one by one. -/
theorem feedLoop_eq (m : ℕ) (fuel : ℕ) : ∀ (b : List UInt8) (lines : List String),
    b.length < fuel →
    feedLoop m fuel b lines = match (readLines (drain (lineFormat m) b).items).2 with
      | some later =>
        (.error lineNotUtf8, (lineCodec m).encodeAll later ++ (drain (lineFormat m) b).rest)
      | none => match (drain (lineFormat m) b).error with
        | none => (.ok (lines ++ (readLines (drain (lineFormat m) b).items).1),
            (drain (lineFormat m) b).rest)
        | some () => (.error lineTooLong, []) := by
  induction fuel with
  | zero => intro b lines hb; exact absurd hb (Nat.not_lt_zero _)
  | succ fuel ih =>
      intro b lines hb
      rw [feedLoop_succ]
      rcases hlook : lookLine m b with _ | ⟨raw, n⟩ | ⟨⟩
      · rw [drain_of_more (lineFormat m) hlook]
        simp [readLines]
      · have hpos := (lineFormat m).item_pos hlook
        have hle := (lineFormat m).item_le hlook
        have hdrop : (b.drop n).length = b.length - n := List.length_drop
        rw [drain_of_item (lineFormat m) hlook, Drained.prepend_items, Drained.prepend_rest,
          Drained.prepend_error, List.singleton_append]
        dsimp only
        rcases htext : lineText raw with _ | line
        · -- what stands behind the bad line stays in the buffer, cut or not
          rw [readLines_bad htext]
          dsimp only
          have hbehind : (lineCodec m).encodeAll (drain (lineFormat m) (b.drop n)).items ++
              (drain (lineFormat m) (b.drop n)).rest = b.drop n :=
            (lineCodec m).encode_drain (b.drop n)
          rw [hbehind]
        · rw [readLines_line htext]
          dsimp only
          rw [ih _ _ (by omega)]
          split_ifs with hline
          · rw [List.append_assoc, List.singleton_append]
          · rfl
      · rw [drain_of_reject (lineFormat m) hlook]
        rfl

/-- The lines in the bytes a `feed` call has before it. -/
def LineParser.view (p : LineParser) (data : List UInt8) : Drained UInt8 (List UInt8) Unit :=
  drain (lineFormat p.maximum_line) (p.buffer ++ data)

/-- **`feed`.** It returns the texts and keeps what is no line yet; at a line that
is not UTF-8 it raises and keeps what stands behind; at a line over the limit it
raises and keeps nothing. -/
theorem feed_eq (p : LineParser) (data : List UInt8) :
    p.feed data = match (readLines (p.view data).items).2 with
      | some later => (.error lineNotUtf8,
          { p with buffer := (lineCodec p.maximum_line).encodeAll later ++ (p.view data).rest })
      | none => match (p.view data).error with
        | none => (.ok (readLines (p.view data).items).1,
            { p with buffer := (p.view data).rest })
        | some () => (.error lineTooLong, { p with buffer := [] }) := by
  unfold LineParser.feed LineParser.view
  dsimp only
  rw [feedLoop_eq _ _ _ _ (Nat.lt_succ_self _)]
  rcases (readLines (drain (lineFormat p.maximum_line) (p.buffer ++ data)).items).2 with _ | later
  · dsimp only
    rcases (drain (lineFormat p.maximum_line) (p.buffer ++ data)).error with _ | ⟨⟩
    · rw [List.nil_append]
    · rfl
  · rfl

/-- The bytes of any lines, a first part of which is in the buffer: what comes off
are the first lines, and the rest of the buffer goes on with the others. -/
theorem drain_stream {m : ℕ} {b c : List UInt8} {raws : List (List UInt8)}
    (h : b ++ c = (lineCodec m).encodeAll raws) (hraws : ∀ raw ∈ raws, NEWLINE ∉ raw) :
    ∃ later, raws = (drain (lineFormat m) b).items ++ later ∧
      (drain (lineFormat m) b).rest ++ c = (lineCodec m).encodeAll later := by
  -- under a limit that no line is over, all of them are items
  let M := m + raws.flatten.length
  have hlen : ∀ raw ∈ raws, raw.length ≤ M := by
    intro raw hraw
    have hle : raw.length ≤ raws.flatten.length :=
      (List.sublist_flatten_of_mem hraw).length_le
    omega
  have hbytes : (lineCodec M).encodeAll (drain (lineFormat m) b).items ++
      ((drain (lineFormat m) b).rest ++ c) = (lineCodec M).encodeAll raws := by
    rw [← List.append_assoc]
    have hdrain : (lineCodec m).encodeAll (drain (lineFormat m) b).items ++
      (drain (lineFormat m) b).rest = b := (lineCodec m).encode_drain b
    exact (congrArg (· ++ c) hdrain).trans h
  obtain ⟨later, hlater, -⟩ := (lineCodec M).prefix_of_encodeAll _ raws
    (fun raw hraw => by
      obtain ⟨hnew, hle⟩ := (lineCodec m).valid_drain b raw hraw
      exact ⟨hnew, by omega⟩)
    (fun raw hraw => ⟨hraws raw hraw, hlen raw hraw⟩) 
    ((drain (lineFormat m) b).rest ++ c) ⟨[], (List.append_nil _).trans hbytes⟩
  refine ⟨later, hlater, ?_⟩
  rw [hlater] at hbytes
  unfold Codec.encodeAll at hbytes
  rw [List.flatMap_append] at hbytes
  exact List.append_cancel_left hbytes

end Ptlab.Control
