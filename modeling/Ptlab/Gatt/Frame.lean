/-
`GattFrameParser` (`src/ptlab/gatt.py`): the incremental reader of the GATT
bridge's byte stream.

The stream carries two kinds of frame, told apart by their first byte. A
response is a status byte other than `0xF0`, a little-endian 16-bit length and
the payload; a notification is `0xF0`, a characteristic byte, the length and the
payload. `GattFrameParser.feed` is the source's loop, buffer and local list
included. `frameCodec` says the same thing as a `Deframe.Codec`, and
`feed_eq_drain` is the one place where the two meet; the losslessness and the
round trip are the library's, read through it.

What the loop does with an oversized header is in `feed` and nowhere else: the
buffer is cleared and the frames already cut off in that call go with it.
-/
import Ptlab.Lib.Deframe
import Ptlab.Lib.Bytes

set_option autoImplicit false

open Deframe Bytes

namespace Ptlab.Gatt

/-! ## Frames -/

/-- `GattResponse`. -/
structure GattResponse where
  status : UInt8
  payload : List UInt8
  deriving DecidableEq, Repr

/-- `GattNotification`. -/
structure GattNotification where
  characteristic : UInt8
  payload : List UInt8
  deriving DecidableEq, Repr

/-- What `feed` returns a list of. -/
inductive GattFrame where
  | response (frame : GattResponse)
  | notification (frame : GattNotification)
  deriving DecidableEq, Repr

/-- The exceptions the GATT module raises, with their texts. -/
inductive GattExc where
  | GattTimeout (message : String)
  | GattProtocolError (message : String)
  | ValueError (message : String)
  | TypeError (message : String)
  | OSError (message : String)
  deriving DecidableEq, Repr

/-- The first byte of a notification. -/
def NOTIFICATION : UInt8 := 0xF0

/-- The bytes a frame is sent as. -/
def GattFrame.wire : GattFrame → List UInt8
  | .response r => r.status :: (le16 r.payload.length ++ r.payload)
  | .notification n => NOTIFICATION :: n.characteristic :: (le16 n.payload.length ++ n.payload)

def GattFrame.payload : GattFrame → List UInt8
  | .response r => r.payload
  | .notification n => n.payload

/-- A frame the bridge can put on the wire within the payload limit `m`: a
response does not start like a notification. -/
def GattFrame.Fits (m : ℕ) (f : GattFrame) : Prop :=
  f.payload.length ≤ m ∧ ∀ r, f = .response r → r.status ≠ NOTIFICATION

/-! ## The parser -/

/-- The default of `maximum_payload`. -/
def MAX_RESPONSE_PAYLOAD : ℕ := 64

theorem MAX_RESPONSE_PAYLOAD_le : MAX_RESPONSE_PAYLOAD ≤ 0xFFFF := by decide

/-- A `GattFrameParser`. The limit is in range because `__init__` refuses any
other. -/
structure GattFrameParser where
  maximum_payload : ℕ
  maximum_payload_le : maximum_payload ≤ 0xFFFF
  buffer : List UInt8

/-- `GattFrameParser.__init__`. -/
def GattFrameParser.init (maximum_payload : ℤ) : Except GattExc GattFrameParser :=
  if h : maximum_payload < 0 ∨ maximum_payload > 0xFFFF then
    .error (.ValueError "maximum payload must be between 0 and 65535")
  else
    .ok ⟨maximum_payload.toNat, by omega, []⟩

/-- The error `feed` raises on an oversized header. -/
def oversized (payload_size maximum_payload : ℕ) : GattExc :=
  .GattProtocolError s!"GATT frame payload {payload_size} exceeds {maximum_payload}"

/-- The `while self._buffer` loop of `feed`: the buffer and the local list of
frames, on fuel that the buffer's length covers. -/
def feedLoop (maximum_payload : ℕ) : ℕ → List UInt8 → List GattFrame →
    Except GattExc (List GattFrame) × List UInt8
  | 0, buffer, frames => (.ok frames, buffer)
  | fuel + 1, buffer, frames =>
    match buffer with
    | [] => (.ok frames, buffer)
    | first :: _ =>
      let notification := first == NOTIFICATION
      let header_size := if notification then 4 else 3
      if buffer.length < header_size then (.ok frames, buffer)
      else
        let payload_size := if notification then read16 buffer 2 else read16 buffer 1
        if payload_size > maximum_payload then
          -- `self._buffer.clear()`, and the frames cut off so far go with the exception
          (.error (oversized payload_size maximum_payload), [])
        else
          let total := header_size + payload_size
          if buffer.length < total then (.ok frames, buffer)
          else
            let payload := (buffer.take total).drop header_size
            let frame :=
              if notification then .notification ⟨buffer.getD 1 0, payload⟩
              else .response ⟨first, payload⟩
            feedLoop maximum_payload fuel (buffer.drop total) (frames ++ [frame])

/-- `GattFrameParser.feed`. -/
def GattFrameParser.feed (p : GattFrameParser) (data : List UInt8) :
    Except GattExc (List GattFrame) × GattFrameParser :=
  let buffer := p.buffer ++ data
  let (result, rest) := feedLoop p.maximum_payload buffer.length buffer []
  (result, { p with buffer := rest })

/-- `GattFrameParser.pending_bytes`. -/
def GattFrameParser.pending_bytes (p : GattFrameParser) : ℕ := p.buffer.length

/-! ## The format

`lookFrame` is one turn of the loop seen from outside: it only reads. -/

/-- The header's length, by its first byte. -/
def headerSize (first : UInt8) : ℕ := if first == NOTIFICATION then 4 else 3

/-- The payload length a complete header announces. -/
def payloadSize (buffer : List UInt8) : ℕ := read16 buffer (headerSize (buffer.headD 0) - 2)

/-- The frame at the front of a buffer that holds it whole. -/
def frontFrame (buffer : List UInt8) : GattFrame :=
  let header_size := headerSize (buffer.headD 0)
  let payload := (buffer.take (header_size + payloadSize buffer)).drop header_size
  if buffer.headD 0 == NOTIFICATION then .notification ⟨buffer.getD 1 0, payload⟩
  else .response ⟨buffer.headD 0, payload⟩

/-- One look at the front of the buffer under the payload limit `m`. -/
def lookFrame (m : ℕ) (buffer : List UInt8) : Look GattFrame ℕ :=
  let header_size := headerSize (buffer.headD 0)
  if buffer.length < header_size then .more
  else if payloadSize buffer > m then .reject (payloadSize buffer)
  else if buffer.length < header_size + payloadSize buffer then .more
  else .item (frontFrame buffer) (header_size + payloadSize buffer)

theorem headerSize_cases (first : UInt8) :
    (first = NOTIFICATION ∧ headerSize first = 4) ∨
      (first ≠ NOTIFICATION ∧ headerSize first = 3) := by
  by_cases h : first = NOTIFICATION
  · exact .inl ⟨h, by simp [headerSize, h]⟩
  · exact .inr ⟨h, by simp [headerSize, h]⟩

theorem headerSize_bounds (first : UInt8) : 3 ≤ headerSize first ∧ headerSize first ≤ 4 := by
  rcases headerSize_cases first with ⟨_, h⟩ | ⟨_, h⟩ <;> omega

/-- What a look that stops the loop or cuts off a frame says about the buffer. -/
theorem lookFrame_cases (m : ℕ) (b : List UInt8) :
    (lookFrame m b = .more ∧ (b.length < headerSize (b.headD 0) ∨
        (payloadSize b ≤ m ∧ b.length < headerSize (b.headD 0) + payloadSize b))) ∨
      (lookFrame m b = .reject (payloadSize b) ∧ headerSize (b.headD 0) ≤ b.length ∧
        m < payloadSize b) ∨
      (lookFrame m b = .item (frontFrame b) (headerSize (b.headD 0) + payloadSize b) ∧
        payloadSize b ≤ m ∧ headerSize (b.headD 0) + payloadSize b ≤ b.length) := by
  unfold lookFrame
  dsimp only
  -- the three tests of the loop in their order: a header, its size, a payload
  by_cases hhead : b.length < headerSize (b.headD 0)
  · exact .inl ⟨if_pos hhead, .inl hhead⟩
  · rw [if_neg hhead]
    by_cases hbig : payloadSize b > m
    · exact .inr (.inl ⟨if_pos hbig, by omega, hbig⟩)
    · rw [if_neg hbig]
      by_cases hshort : b.length < headerSize (b.headD 0) + payloadSize b
      · exact .inl ⟨if_pos hshort, .inr ⟨by omega, hshort⟩⟩
      · exact .inr (.inr ⟨if_neg hshort, by omega, by omega⟩)

theorem headD_append {b : List UInt8} (hb : 0 < b.length) (c : List UInt8) :
    (b ++ c).headD 0 = b.headD 0 := by
  cases b with
  | nil => simp at hb
  | cons x t => rfl

/-- A complete header reads the same whatever stands behind it. -/
theorem payloadSize_append {b : List UInt8} (h : headerSize (b.headD 0) ≤ b.length)
    (c : List UInt8) : payloadSize (b ++ c) = payloadSize b := by
  have hbounds := headerSize_bounds (b.headD 0)
  unfold payloadSize
  rw [headD_append (by omega)]
  exact read16_append (by omega) c

/-- A complete frame reads the same whatever stands behind it. -/
theorem frontFrame_append {b : List UInt8}
    (h : headerSize (b.headD 0) + payloadSize b ≤ b.length) (c : List UInt8) :
    frontFrame (b ++ c) = frontFrame b := by
  have hbounds := headerSize_bounds (b.headD 0)
  unfold frontFrame
  dsimp only
  rw [headD_append (by omega), payloadSize_append (by omega), List.take_append_of_le_length h,
    List.getD_append _ _ _ _ (by omega)]

theorem headerSize_pos (first : UInt8) : 0 < headerSize first := by
  have h := headerSize_bounds first
  omega

@[simp] theorem lookFrame_nil (m : ℕ) : lookFrame m [] = .more := by
  unfold lookFrame
  exact if_pos (headerSize_pos 0)

/-- The format of the bridge's stream under the payload limit `m`. -/
def frameFormat (m : ℕ) : Format UInt8 GattFrame ℕ where
  look := lookFrame m
  look_nil := lookFrame_nil m
  item_pos := by
    intro b f n h
    have hpos := headerSize_pos (b.headD 0)
    rcases lookFrame_cases m b with ⟨hl, _⟩ | ⟨hl, _⟩ | ⟨hl, _⟩ <;> rw [hl] at h
    · cases h
    · cases h
    · injection h with _ hn
      omega
  item_le := by
    intro b f n h
    rcases lookFrame_cases m b with ⟨hl, _⟩ | ⟨hl, _⟩ | ⟨hl, _, hle⟩ <;> rw [hl] at h
    · cases h
    · cases h
    · injection h with _ hn
      omega
  item_append := by
    -- header, length and frame are read from bytes that are all there already
    intro b f n c h
    have hpos := headerSize_pos (b.headD 0)
    rcases lookFrame_cases m b with ⟨hl, _⟩ | ⟨hl, _⟩ | ⟨hl, hm, hle⟩ <;> rw [hl] at h
    · cases h
    · cases h
    · have hhead : (b ++ c).headD 0 = b.headD 0 := headD_append (by omega) c
      have hsize : payloadSize (b ++ c) = payloadSize b := payloadSize_append (by omega) c
      have hlen : (b ++ c).length = b.length + c.length := List.length_append
      rw [← h, lookFrame, hhead, hsize, frontFrame_append hle]
      rw [if_neg (by omega), if_neg (by omega), if_neg (by omega)]
  reject_append := by
    intro b e c h
    have hpos := headerSize_pos (b.headD 0)
    rcases lookFrame_cases m b with ⟨hl, _⟩ | ⟨hl, hle, hm⟩ | ⟨hl, _⟩ <;> rw [hl] at h
    · cases h
    · have hhead : (b ++ c).headD 0 = b.headD 0 := headD_append (by omega) c
      have hsize : payloadSize (b ++ c) = payloadSize b := payloadSize_append (by omega) c
      have hlen : (b ++ c).length = b.length + c.length := List.length_append
      rw [← h, lookFrame, hhead, hsize]
      rw [if_neg (by omega), if_pos hm]
    · cases h

/-! ## The encodings -/

/-- A buffer that starts like a notification or not, and has a whole header,
written out by its bytes. -/
theorem header_eq {b : List UInt8} (h : headerSize (b.headD 0) ≤ b.length) :
    (∃ ch lo hi t, b = NOTIFICATION :: ch :: lo :: hi :: t) ∨
      (∃ st lo hi t, st ≠ NOTIFICATION ∧ b = st :: lo :: hi :: t) := by
  rcases headerSize_cases (b.headD 0) with ⟨hn, hsz⟩ | ⟨hn, hsz⟩
  · rcases b with _ | ⟨x, _ | ⟨ch, _ | ⟨lo, _ | ⟨hi, t⟩⟩⟩⟩ <;>
      simp only [List.length_cons, List.length_nil, List.headD_cons, List.headD_nil] at h hsz hn
    · omega
    · omega
    · omega
    · omega
    · exact .inl ⟨ch, lo, hi, t, by rw [hn]⟩
  · rcases b with _ | ⟨x, _ | ⟨lo, _ | ⟨hi, t⟩⟩⟩ <;>
      simp only [List.length_cons, List.length_nil, List.headD_cons, List.headD_nil] at h hsz hn
    · omega
    · omega
    · omega
    · exact .inr ⟨x, lo, hi, t, hn, rfl⟩

theorem le16_of_bytes {n : ℕ} {lo hi : UInt8} (h : n = lo.toNat + 256 * hi.toNat) :
    le16 n = [lo, hi] := by
  subst h
  exact le16_read16 (b := [lo, hi]) (i := 0) rfl rfl

/-- The frame at the front is sent as the bytes it was read from. -/
theorem wire_frontFrame {b : List UInt8}
    (h : headerSize (b.headD 0) + payloadSize b ≤ b.length) :
    (frontFrame b).wire = b.take (headerSize (b.headD 0) + payloadSize b) := by
  -- with the header's bytes written out, both sides are the same list
  rcases header_eq (Nat.le_of_add_right_le h) with ⟨ch, lo, hi, t, rfl⟩ | ⟨st, lo, hi, t, hst, rfl⟩
  · have hsz : headerSize NOTIFICATION = 4 := rfl
    have hps : payloadSize (NOTIFICATION :: ch :: lo :: hi :: t) = lo.toNat + 256 * hi.toNat := rfl
    simp only [List.headD_cons, List.length_cons, hsz, hps] at h
    simp only [frontFrame, List.headD_cons, hsz, hps, beq_self_eq_true, if_true, GattFrame.wire,
      Nat.add_comm 4, List.take_succ_cons, List.drop_succ_cons, List.drop_zero, List.getD_cons_succ,
      List.getD_cons_zero, List.length_take]
    rw [@le16_of_bytes _ lo hi (by omega)]
    rfl
  · have hsz : headerSize st = 3 := by simp [headerSize, hst]
    have hps : payloadSize (st :: lo :: hi :: t) = lo.toNat + 256 * hi.toNat := by
      simp only [payloadSize, List.headD_cons, hsz]
      rfl
    have hbeq : (st == NOTIFICATION) = false := by simpa using hst
    simp only [List.headD_cons, List.length_cons, hsz, hps] at h
    simp only [frontFrame, List.headD_cons, hsz, hps, hbeq, Bool.false_eq_true, if_false,
      GattFrame.wire, Nat.add_comm 3, List.take_succ_cons, List.drop_succ_cons, List.drop_zero,
      List.length_take]
    rw [@le16_of_bytes _ lo hi (by omega)]
    rfl

/-- The frame at the front fits whatever limit its length passed. -/
theorem frontFrame_fits {m : ℕ} {b : List UInt8} (hm : payloadSize b ≤ m) :
    (frontFrame b).Fits m := by
  have hlen : ((b.take (headerSize (b.headD 0) + payloadSize b)).drop
      (headerSize (b.headD 0))).length ≤ m := by
    simp only [List.length_drop, List.length_take]
    omega
  unfold frontFrame GattFrame.Fits
  dsimp only
  by_cases hn : b.headD 0 = NOTIFICATION
  · rw [if_pos (by simpa using hn)]
    exact ⟨hlen, fun r hr => by cases hr⟩
  · rw [if_neg (by simpa using hn)]
    refine ⟨hlen, fun r hr => ?_⟩
    injection hr with hr
    rw [← hr]
    exact hn

/-- The header of a sent frame, read back: its length and the payload length it
announces. -/
theorem header_wire {f : GattFrame} (hf : f.Fits 0xFFFF) (c : List UInt8) :
    payloadSize (f.wire ++ c) = f.payload.length ∧
      headerSize ((f.wire ++ c).headD 0) + f.payload.length = f.wire.length := by
  obtain ⟨hlen, hstatus⟩ := hf
  cases f with
  | response r =>
      -- only a status other than `0xF0` makes this header three bytes long
      have hst : r.status ≠ NOTIFICATION := hstatus r rfl
      have hsz : headerSize r.status = 3 := by simp [headerSize, hst]
      simp only [GattFrame.payload] at hlen
      refine ⟨?_, ?_⟩
      · simp only [payloadSize, GattFrame.wire, List.cons_append, List.headD_cons, hsz,
          List.append_assoc, GattFrame.payload]
        exact (read16_append_right (p := [r.status]) _ rfl 0).trans (read16_le16 (by omega) _)
      · simp only [GattFrame.wire, List.cons_append, List.headD_cons, hsz, GattFrame.payload,
          List.length_cons, List.length_append, le16_length]
        omega
  | notification n =>
      have hsz : headerSize NOTIFICATION = 4 := rfl
      simp only [GattFrame.payload] at hlen
      refine ⟨?_, ?_⟩
      · simp only [payloadSize, GattFrame.wire, List.cons_append, List.headD_cons, hsz,
          List.append_assoc, GattFrame.payload]
        exact (read16_append_right (p := [NOTIFICATION, n.characteristic]) _ rfl 0).trans
          (read16_le16 (by omega) _)
      · simp only [GattFrame.wire, List.cons_append, List.headD_cons, hsz, GattFrame.payload,
          List.length_cons, List.length_append, le16_length]
        omega

/-- The frame read from the front of its own bytes is itself. -/
theorem frontFrame_wire {f : GattFrame} (hf : f.Fits 0xFFFF) (c : List UInt8) :
    frontFrame (f.wire ++ c) = f := by
  obtain ⟨hps, hlen⟩ := header_wire hf c
  unfold frontFrame
  rw [hps]
  cases f with
  | response r =>
      -- a response must not begin as a notification does
      have hst : r.status ≠ NOTIFICATION := hf.2 r rfl
      have hbeq : (r.status == NOTIFICATION) = false := by simpa using hst
      have hsz : headerSize r.status = 3 := by simp [headerSize, hst]
      simp only [GattFrame.wire, GattFrame.payload, List.cons_append, List.headD_cons, hsz, hbeq,
        Bool.false_eq_true, if_false, le16, List.nil_append, Nat.add_comm 3, List.take_succ_cons,
        List.drop_succ_cons, List.drop_zero, List.take_left]
  | notification n =>
      have hsz : headerSize NOTIFICATION = 4 := rfl
      simp only [GattFrame.wire, GattFrame.payload, List.cons_append, List.headD_cons, hsz,
        beq_self_eq_true, if_true, le16, List.nil_append, Nat.add_comm 4, List.take_succ_cons,
        List.drop_succ_cons, List.drop_zero, List.take_left, List.getD_cons_succ,
        List.getD_cons_zero]

theorem GattFrame.Fits.mono {m k : ℕ} (h : m ≤ k) {f : GattFrame} (hf : f.Fits m) : f.Fits k :=
  ⟨hf.1.trans h, hf.2⟩

/-- A frame that fits is what one look at its bytes sees. -/
theorem lookFrame_wire {m : ℕ} (hm : m ≤ 0xFFFF) {f : GattFrame} (hf : f.Fits m)
    (c : List UInt8) : lookFrame m (f.wire ++ c) = .item f f.wire.length := by
  obtain ⟨hps, hlen⟩ := header_wire (hf.mono hm) c
  have hle : f.payload.length ≤ m := hf.1
  have htotal : (f.wire ++ c).length = f.wire.length + c.length := List.length_append
  rw [lookFrame, hps, frontFrame_wire (hf.mono hm) c, if_neg (by omega), if_neg (by omega),
    if_neg (by omega), hlen]

/-- A frame whose payload is over the limit is refused. -/
theorem lookFrame_oversized {m : ℕ} {f : GattFrame} (hf : f.Fits 0xFFFF)
    (hm : m < f.payload.length) (c : List UInt8) :
    lookFrame m (f.wire ++ c) = .reject f.payload.length := by
  obtain ⟨hps, hlen⟩ := header_wire hf c
  have htotal : (f.wire ++ c).length = f.wire.length + c.length := List.length_append
  rw [lookFrame, hps, if_neg (by omega), if_pos hm]

/-- The bridge's stream as a codec: the frames that fit the limit, and their
bytes. -/
def frameCodec (m : ℕ) (hm : m ≤ 0xFFFF) : Codec UInt8 GattFrame ℕ where
  toFormat := frameFormat m
  encode := GattFrame.wire
  Valid := GattFrame.Fits m
  encode_item := by
    intro b f n h
    rcases lookFrame_cases m b with ⟨hl, _⟩ | ⟨hl, _⟩ | ⟨hl, _, hle⟩ <;>
      rw [show (frameFormat m).look b = lookFrame m b from rfl, hl] at h
    · cases h
    · cases h
    · injection h with hf hn
      rw [← hf, ← hn, wire_frontFrame hle]
  valid_item := by
    intro b f n h
    rcases lookFrame_cases m b with ⟨hl, _⟩ | ⟨hl, _⟩ | ⟨hl, hps, _⟩ <;>
      rw [show (frameFormat m).look b = lookFrame m b from rfl, hl] at h
    · cases h
    · cases h
    · injection h with hf _
      rw [← hf]
      exact frontFrame_fits hps
  look_encode := fun hf c => lookFrame_wire hm hf c

end Ptlab.Gatt
