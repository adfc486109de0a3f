/-
What `GattFrameParser.feed` computes, over any number of calls.

`feed_eq_drain` carries the source's loop to `Deframe.drain`; after it no proof
unfolds the loop. `Ready` is the invariant a parser has between calls -- nothing
complete and nothing oversized at the front of its buffer -- and `feeds` is a
caller's session: `feed` called on one chunk after another, whatever each call
did. `feeds_lossless` is the parser's contract.
-/
import Ptlab.Gatt.Frame

set_option autoImplicit false

open Deframe Bytes

namespace Ptlab.Gatt

/-! ## One call -/

/-- One turn of the loop is one look at the front. -/
theorem feedLoop_succ (m fuel : ℕ) (b : List UInt8) (frames : List GattFrame) :
    feedLoop m (fuel + 1) b frames = match lookFrame m b with
      | .more => (.ok frames, b)
      | .reject size => (.error (oversized size m), [])
      | .item f n => feedLoop m fuel (b.drop n) (frames ++ [f]) := by
  cases b with
  | nil =>
      rw [lookFrame_nil]
      rfl
  | cons first t =>
      -- the two headers differ in their length
      by_cases hn : first = NOTIFICATION
      · subst hn
        have hsz : headerSize NOTIFICATION = 4 := rfl
        simp only [feedLoop, lookFrame, frontFrame, payloadSize, List.headD_cons, hsz,
          beq_self_eq_true, if_true]
        split_ifs <;> rfl
      · have hbeq : (first == NOTIFICATION) = false := by simpa using hn
        have hsz : headerSize first = 3 := by simp [headerSize, hn]
        simp only [feedLoop, lookFrame, frontFrame, payloadSize, List.headD_cons, hsz, hbeq,
          Bool.false_eq_true, if_false]
        split_ifs <;> rfl

/-- The loop drains the buffer. A refusal drops the local list and the buffer. -/
theorem feedLoop_eq (m : ℕ) (fuel : ℕ) : ∀ (b : List UInt8) (frames : List GattFrame),
    b.length ≤ fuel →
    feedLoop m fuel b frames = match (drain (frameFormat m) b).error with
      | none => (.ok (frames ++ (drain (frameFormat m) b).items), (drain (frameFormat m) b).rest)
      | some size => (.error (oversized size m), []) := by
  induction fuel with
  | zero =>
      intro b frames hb
      have hnil : b = [] := List.length_eq_zero_iff.mp (by omega)
      subst hnil
      simp [feedLoop]
  | succ fuel ih =>
      -- the local list only grows at its end, so it stays in front of what the drain finds
      intro b frames hb
      rw [feedLoop_succ]
      rcases hl : lookFrame m b with _ | ⟨f, n⟩ | size
      · rw [drain_of_more (frameFormat m) hl]
        simp
      · have hpos := (frameFormat m).item_pos hl
        have hdrop : (b.drop n).length = b.length - n := List.length_drop
        rw [drain_of_item (frameFormat m) hl]
        simp only [Drained.prepend_error, Drained.prepend_items, Drained.prepend_rest]
        rw [ih _ _ (by omega), List.append_assoc]
      · rw [drain_of_reject (frameFormat m) hl]

/-- The frames, the rest and the refusal in the bytes a `feed` call has before
it. -/
def GattFrameParser.view (p : GattFrameParser) (data : List UInt8) :
    Drained UInt8 GattFrame ℕ :=
  drain (frameFormat p.maximum_payload) (p.buffer ++ data)

/-- **`feed`.** It returns the frames and keeps the rest, or raises and keeps
nothing. -/
theorem feed_eq_drain (p : GattFrameParser) (data : List UInt8) :
    p.feed data = match (p.view data).error with
      | none => (.ok (p.view data).items, { p with buffer := (p.view data).rest })
      | some size => (.error (oversized size p.maximum_payload), { p with buffer := [] }) := by
  unfold GattFrameParser.feed GattFrameParser.view
  dsimp only
  rw [feedLoop_eq _ _ _ _ le_rfl]
  rcases (drain (frameFormat p.maximum_payload) (p.buffer ++ data)).error with _ | size
  · rw [List.nil_append]
  · rfl

theorem feed_of_ok {p : GattFrameParser} {data : List UInt8} (h : (p.view data).error = none) :
    p.feed data = (.ok (p.view data).items, { p with buffer := (p.view data).rest }) := by
  rw [feed_eq_drain, h]

theorem feed_of_error {p : GattFrameParser} {data : List UInt8} {size : ℕ}
    (h : (p.view data).error = some size) :
    p.feed data = (.error (oversized size p.maximum_payload), { p with buffer := [] }) := by
  rw [feed_eq_drain, h]

/-! ## Between calls -/

/-- Nothing complete and nothing oversized stands at the front of the buffer. -/
def GattFrameParser.Ready (p : GattFrameParser) : Prop :=
  lookFrame p.maximum_payload p.buffer = .more

/-- A parser with an empty buffer, as `__init__` makes it and as a refusal leaves
it. -/
theorem ready_of_empty {p : GattFrameParser} (h : p.buffer = []) : p.Ready := by
  unfold GattFrameParser.Ready
  rw [h, lookFrame_nil]

theorem feed_ready (p : GattFrameParser) (data : List UInt8) : (p.feed data).2.Ready := by
  rcases h : (p.view data).error with _ | size
  · rw [feed_of_ok h]
    exact look_rest_of_ok (frameFormat p.maximum_payload) h
  · rw [feed_of_error h]
    exact ready_of_empty rfl

/-- A ready parser holds less than one whole frame of the largest kind. -/
theorem pending_le_of_ready {p : GattFrameParser} (h : p.Ready) :
    p.pending_bytes ≤ p.maximum_payload + 3 := by
  have hbounds := headerSize_bounds (p.buffer.headD 0)
  unfold GattFrameParser.pending_bytes
  unfold GattFrameParser.Ready at h
  rcases lookFrame_cases p.maximum_payload p.buffer with ⟨_, hl⟩ | ⟨hl, _⟩ | ⟨hl, _⟩
  · rcases hl with hl | ⟨hm, hl⟩ <;> omega
  · rw [hl] at h; cases h
  · rw [hl] at h; cases h

/-- A ready parser sees nothing in no new bytes. -/
theorem view_nil {p : GattFrameParser} (h : p.Ready) : p.view [] = ⟨[], p.buffer, none⟩ := by
  unfold GattFrameParser.view
  rw [List.append_nil]
  exact drain_of_more (frameFormat p.maximum_payload) h

/-- **Two calls see what one would.** The rest of a chunk is read together with
what is fed next. -/
theorem view_append_of_ok {p : GattFrameParser} {chunk : List UInt8}
    (h : (p.view chunk).error = none) (later : List UInt8) :
    p.view (chunk ++ later) = ((p.feed chunk).2.view later).prepend (p.view chunk).items := by
  rw [feed_of_ok h]
  unfold GattFrameParser.view at h ⊢
  rw [← List.append_assoc, drain_append_of_ok _ _ h]

theorem view_append_of_error {p : GattFrameParser} {chunk : List UInt8} {size : ℕ}
    (h : (p.view chunk).error = some size) (later : List UInt8) :
    (p.view (chunk ++ later)).error = some size := by
  unfold GattFrameParser.view at h ⊢
  rw [← List.append_assoc, drain_append_of_error _ _ h]

theorem init_eq {m : ℤ} {p : GattFrameParser} (h : GattFrameParser.init m = .ok p) :
    0 ≤ m ∧ m ≤ 0xFFFF ∧ p.maximum_payload = m.toNat ∧ p.buffer = [] := by
  unfold GattFrameParser.init at h
  split_ifs at h with hm
  injection h with h
  rw [← h]
  exact ⟨by omega, by omega, rfl, rfl⟩

/-! ## Sessions -/

/-- `feed` called on one chunk after another: what each call did, and the parser
at the end. -/
def GattFrameParser.feeds (p : GattFrameParser) :
    List (List UInt8) → List (Except GattExc (List GattFrame)) × GattFrameParser
  | [] => ([], p)
  | chunk :: chunks =>
    let (result, p') := p.feed chunk
    let (results, p'') := p'.feeds chunks
    (result :: results, p'')

/-- The frames a session's calls returned, in order. -/
def framesOf (results : List (Except GattExc (List GattFrame))) : List GattFrame :=
  results.flatMap fun result => match result with
    | .ok frames => frames
    | .error _ => []

/-- No call raised. -/
def NoneRaised (results : List (Except GattExc (List GattFrame))) : Prop :=
  ∀ result ∈ results, ∃ frames, result = .ok frames

theorem feeds_cons (p : GattFrameParser) (chunk : List UInt8) (chunks : List (List UInt8)) :
    p.feeds (chunk :: chunks) =
      ((p.feed chunk).1 :: ((p.feed chunk).2.feeds chunks).1,
        ((p.feed chunk).2.feeds chunks).2) := rfl

theorem feeds_maximum_payload (chunks : List (List UInt8)) : ∀ p : GattFrameParser,
    (p.feeds chunks).2.maximum_payload = p.maximum_payload := by
  induction chunks with
  | nil => intro p; rfl
  | cons chunk chunks ih => intro p; rw [feeds_cons]; exact ih _

theorem feeds_ready (chunks : List (List UInt8)) : ∀ p : GattFrameParser,
    p.Ready → (p.feeds chunks).2.Ready := by
  induction chunks with
  | nil => intro p h; exact h
  | cons chunk chunks ih =>
      intro p _
      rw [feeds_cons]
      exact ih _ (feed_ready p chunk)

theorem feeds_append (xs ys : List (List UInt8)) : ∀ p : GattFrameParser,
    p.feeds (xs ++ ys) =
      ((p.feeds xs).1 ++ ((p.feeds xs).2.feeds ys).1, ((p.feeds xs).2.feeds ys).2) := by
  induction xs with
  | nil => intro p; rfl
  | cons x xs ih => intro p; rw [List.cons_append, feeds_cons, feeds_cons, ih]; rfl

/-- **A session is one long call.** No call raises exactly if the bytes hold no
oversized header, and then the session returns what one drain of all the bytes
cuts off. The invariant is `Ready`, which is what lets the rest of one chunk be
read together with the next. -/
theorem feeds_eq_view (chunks : List (List UInt8)) : ∀ p : GattFrameParser, p.Ready →
    (NoneRaised (p.feeds chunks).1 ↔ (p.view chunks.flatten).error = none) ∧
      ((p.view chunks.flatten).error = none →
        framesOf (p.feeds chunks).1 = (p.view chunks.flatten).items ∧
          (p.feeds chunks).2.buffer = (p.view chunks.flatten).rest) := by
  induction chunks with
  | nil =>
      intro p hp
      rw [List.flatten_nil, view_nil hp]
      exact ⟨⟨fun _ => rfl, fun _ r hr => by cases hr⟩, fun _ => ⟨rfl, rfl⟩⟩
  | cons chunk chunks ih =>
      intro p hp
      rw [feeds_cons, List.flatten_cons]
      rcases h : (p.view chunk).error with _ | size
      · -- the call returns: the rest of the session starts from what it kept
        obtain ⟨ihok, iheq⟩ := ih _ (feed_ready p chunk)
        rw [view_append_of_ok h, Drained.prepend_error, Drained.prepend_items, Drained.prepend_rest]
        refine ⟨?_, fun herr => ?_⟩
        · rw [← ihok, feed_of_ok h]
          constructor
          · exact fun hall r hr => hall r (List.mem_cons_of_mem _ hr)
          · intro hall r hr
            rcases List.mem_cons.mp hr with rfl | hr
            · exact ⟨_, rfl⟩
            · exact hall r hr
        · obtain ⟨hframes, hrest⟩ := iheq herr
          refine ⟨?_, hrest⟩
          rw [framesOf, List.flatMap_cons, ← framesOf, hframes, feed_of_ok h]
      · -- the call raises, and so does the drain of everything
        rw [view_append_of_error h, feed_of_error h]
        refine ⟨⟨fun hall => ?_, fun hnone => by cases hnone⟩, fun hnone => by cases hnone⟩
        obtain ⟨frames, hf⟩ := hall _ (List.mem_cons_self ..)
        cases hf

/-! ## The contract -/

/-- A ready parser's buffer does not begin with a frame, of any payload length a
header can announce. -/
theorem no_frame_pending {p : GattFrameParser} (h : p.Ready) {f : GattFrame}
    (hf : f.Fits 0xFFFF) : ¬ f.wire <+: p.buffer := by
  rintro ⟨c, hc⟩
  unfold GattFrameParser.Ready at h
  rw [← hc] at h
  by_cases hm : f.payload.length ≤ p.maximum_payload
  · rw [lookFrame_wire p.maximum_payload_le ⟨hm, hf.2⟩ c] at h
    cases h
  · rw [lookFrame_oversized hf (by omega) c] at h
    cases h

/-- **The parser loses nothing.** As long as no call raises, the frames returned
so far, as bytes, and the pending buffer are the bytes fed so far, every frame
returned is within the limit, and no complete frame is pending. Frames within
the limit come back as they are, in order and whatever the cuts, and leave
nothing pending. After any session, raises included, fewer bytes are pending
than the largest frame has. -/
theorem feeds_lossless {m : ℤ} {p : GattFrameParser} (hp : GattFrameParser.init m = .ok p)
    (chunks : List (List UInt8)) :
    (NoneRaised (p.feeds chunks).1 →
        (framesOf (p.feeds chunks).1).flatMap GattFrame.wire ++ (p.feeds chunks).2.buffer
            = chunks.flatten ∧
          (∀ f ∈ framesOf (p.feeds chunks).1, f.Fits m.toNat) ∧
          ∀ f : GattFrame, f.Fits 0xFFFF → ¬ f.wire <+: (p.feeds chunks).2.buffer) ∧
      (∀ frames : List GattFrame, (∀ f ∈ frames, f.Fits m.toNat) →
        chunks.flatten = frames.flatMap GattFrame.wire →
          NoneRaised (p.feeds chunks).1 ∧ framesOf (p.feeds chunks).1 = frames ∧
            (p.feeds chunks).2.buffer = []) ∧
      ((p.feeds chunks).2.pending_bytes : ℤ) ≤ m + 3 := by
  obtain ⟨hm0, hm1, hmax, hempty⟩ := init_eq hp
  have hready : p.Ready := ready_of_empty hempty
  have hlast : (p.feeds chunks).2.Ready := feeds_ready chunks p hready
  obtain ⟨hok, hout⟩ := feeds_eq_view chunks p hready
  -- the session's bytes, drained by the codec at this limit
  let C := frameCodec p.maximum_payload p.maximum_payload_le
  have hview : p.view chunks.flatten = drain C.toFormat chunks.flatten := by
    unfold GattFrameParser.view
    rw [hempty, List.nil_append]
    rfl
  refine ⟨fun hnone => ?_, fun frames hfits hflat => ?_, ?_⟩
  · obtain ⟨hframes, hrest⟩ := hout (hok.mp hnone)
    refine ⟨?_, ?_, fun f hf => no_frame_pending hlast hf⟩
    · rw [hframes, hrest, hview]
      exact C.encode_drain chunks.flatten
    · intro f hf
      rw [hframes, hview] at hf
      rw [← hmax]
      exact C.valid_drain chunks.flatten f hf
  · -- frames within the limit are what the drain of their bytes cuts off
    have hdrain : p.view chunks.flatten = ⟨frames, [], none⟩ := by
      have h : drain C.toFormat (frames.flatMap GattFrame.wire ++ []) =
          (drain C.toFormat []).prepend frames :=
        C.drain_encode frames (fun f hf => by rw [← hmax] at hfits; exact hfits f hf) []
      rw [List.append_nil] at h
      rw [hview, hflat, h, drain_nil]
      exact congrArg (fun fs => Drained.mk fs [] none) (List.append_nil frames)
    obtain ⟨hframes, hrest⟩ := hout (by rw [hdrain])
    rw [hframes, hrest, hdrain]
    exact ⟨hok.mpr (by rw [hdrain]), rfl, rfl⟩
  · -- `feed` leaves a ready parser even when it raises
    have hpend := pending_le_of_ready hlast
    rw [feeds_maximum_payload] at hpend
    omega

/-- The split of `test_gatt_parser_reassembles_fragmented_response_and_notification`. -/
theorem feeds_lossless_fragmented :
    let p : GattFrameParser := ⟨64, by decide, []⟩
    let chunks : List (List UInt8) := [[0, 2], [0, 111, 107, 0xF0, 4, 1], [0, 0x64]]
    framesOf (p.feeds chunks).1 = [.response ⟨0, [111, 107]⟩, .notification ⟨4, [0x64]⟩] ∧
      (p.feeds chunks).2.buffer = [] := by
  intro p chunks
  have h := feeds_lossless (m := 64) (p := p) rfl chunks
  exact (h.2.1 [.response ⟨0, [111, 107]⟩, .notification ⟨4, [0x64]⟩]
    (by
      intro f hf
      fin_cases hf
      · exact ⟨by decide, fun r hr => by cases hr; decide⟩
      · exact ⟨by decide, fun r hr => by cases hr⟩)
    (by decide)).2

end Ptlab.Gatt
