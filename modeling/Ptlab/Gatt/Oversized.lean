/-
An oversized header in the bridge's stream, and what a caller of
`GattFrameParser.feed` still gets.

`readUntilError` is a caller that feeds chunk after chunk and stops at the first
`GattProtocolError`. Which frames it is handed depends on the cuts: the loop
raises with the frames of the current call still in its local list
(`oversized_header_cut_dependent`). What does not depend on them is
`readUntilError_spec`: frames completed by earlier calls have been handed over,
nothing behind the header ever is, and the parser starts again from nothing.
-/
import Ptlab.Gatt.Parser

set_option autoImplicit false

open Deframe Bytes

namespace Ptlab.Gatt

/-! ## Reading up to the first error -/

/-- Feed chunks until a call raises: the frames returned before it, and, if one
did raise, the parser it left and the chunks not yet fed. -/
def GattFrameParser.readUntilError (p : GattFrameParser) :
    List (List UInt8) → List GattFrame × Option (GattFrameParser × List (List UInt8))
  | [] => ([], none)
  | chunk :: chunks =>
    match p.feed chunk with
    | (.ok frames, p') =>
      let (later, stop) := p'.readUntilError chunks
      (frames ++ later, stop)
    | (.error _, p') => ([], some (p', chunks))

/-- The frames `lead`, then a complete header that announces more than `m` bytes. -/
def OversizedAfter (m : ℕ) (lead : List GattFrame) (stream : List UInt8) : Prop :=
  (∀ f ∈ lead, f.Fits m) ∧ ∃ tail, stream = lead.flatMap GattFrame.wire ++ tail ∧
    headerSize (tail.headD 0) ≤ tail.length ∧ m < payloadSize tail

/-- `OversizedAfter` is what makes the drain stop with an error. -/
theorem oversizedAfter_iff {m : ℕ} (hm : m ≤ 0xFFFF) (lead : List GattFrame)
    (stream : List UInt8) : OversizedAfter m lead stream ↔
      (drain (frameFormat m) stream).items = lead ∧
        ∃ size, (drain (frameFormat m) stream).error = some size := by
  let C := frameCodec m hm
  constructor
  · rintro ⟨hfits, tail, rfl, hhead, hbig⟩
    have hreject : (frameFormat m).look tail = .reject (payloadSize tail) := by
      rcases lookFrame_cases m tail with ⟨_, h⟩ | ⟨h, _⟩ | ⟨_, h, _⟩
      · rcases h with h | ⟨h, _⟩ <;> omega
      · exact h
      · omega
    have h : drain C.toFormat (lead.flatMap GattFrame.wire ++ tail) =
        (drain C.toFormat tail).prepend lead := C.drain_encode lead hfits tail
    have ht : drain C.toFormat tail = ⟨[], tail, some (payloadSize tail)⟩ :=
      drain_of_reject C.toFormat hreject
    rw [show frameFormat m = C.toFormat from rfl, h, ht]
    exact ⟨List.append_nil lead, _, rfl⟩
  · -- what stopped the drain stands at the front of the rest
    rintro ⟨hitems, size, herr⟩
    have hstop := look_rest (frameFormat m) stream
    rw [herr] at hstop
    refine ⟨?_, (drain (frameFormat m) stream).rest, ?_, ?_⟩
    · rw [← hitems]
      exact C.valid_drain stream
    · rw [← hitems]
      exact (C.encode_drain stream).symm
    · rcases lookFrame_cases m (drain (frameFormat m) stream).rest with ⟨h, _⟩ | ⟨_, h⟩ | ⟨h, _⟩
      · rw [show (frameFormat m).look _ = lookFrame m _ from rfl, h] at hstop
        cases hstop
      · exact h
      · rw [show (frameFormat m).look _ = lookFrame m _ from rfl, h] at hstop
        cases hstop

/-- A caller that meets no error is handed everything. -/
theorem readUntilError_of_ok (chunks : List (List UInt8)) : ∀ p : GattFrameParser, p.Ready →
    (p.view chunks.flatten).error = none →
    p.readUntilError chunks = ((p.view chunks.flatten).items, none) := by
  induction chunks with
  | nil =>
      intro p hp _
      rw [List.flatten_nil, view_nil hp]
      rfl
  | cons chunk chunks ih =>
      intro p hp herr
      -- no chunk of a clean stream raises, so this one does not
      have hchunk : (p.view chunk).error = none := by
        unfold GattFrameParser.view at herr ⊢
        rw [List.flatten_cons, ← List.append_assoc] at herr
        exact error_none_of_append _ herr
      rw [List.flatten_cons, view_append_of_ok hchunk] at herr ⊢
      rw [GattFrameParser.readUntilError, feed_of_ok hchunk]
      have hready := feed_ready p chunk
      rw [feed_of_ok hchunk] at hready herr
      simp only [ih _ hready herr, Drained.prepend_items]

/-- A caller that meets an oversized header is handed what the chunks before the
raising one complete, and is left with an empty parser. -/
theorem readUntilError_of_error (chunks : List (List UInt8)) : ∀ (p : GattFrameParser) (size : ℕ),
    p.Ready → (p.view chunks.flatten).error = some size →
    ∃ pre chunk rest, chunks = pre ++ chunk :: rest ∧ (p.view pre.flatten).error = none ∧
      (p.view (pre ++ [chunk]).flatten).error = some size ∧
      p.readUntilError chunks =
        ((p.view pre.flatten).items, some ({ p with buffer := [] }, rest)) := by
  induction chunks with
  | nil =>
      intro p size hp herr
      rw [List.flatten_nil, view_nil hp] at herr
      cases herr
  | cons chunk chunks ih =>
      intro p size hp herr
      rcases hchunk : (p.view chunk).error with _ | size'
      · -- this chunk is fine: the raising one is further on
        have hcut : ∀ cs : List (List UInt8), p.view (chunk :: cs).flatten =
            ((p.feed chunk).2.view cs.flatten).prepend (p.view chunk).items := by
          intro cs
          rw [List.flatten_cons, view_append_of_ok hchunk]
        rw [hcut, Drained.prepend_error] at herr
        obtain ⟨pre, c, rest, rfl, hpre, hc, hread⟩ := ih _ size (feed_ready p chunk) herr
        refine ⟨chunk :: pre, c, rest, rfl, ?_, ?_, ?_⟩
        · rw [hcut, Drained.prepend_error, hpre]
        · rw [List.cons_append, hcut, Drained.prepend_error, hc]
        · rw [hcut, Drained.prepend_items, GattFrameParser.readUntilError]
          rw [feed_of_ok hchunk] at hread ⊢
          simp only [hread]
      · -- this chunk raises
        have hsize : size' = size := by
          rw [List.flatten_cons, view_append_of_error hchunk] at herr
          exact Option.some.inj herr
        subst hsize
        refine ⟨[], chunk, chunks, rfl, ?_, ?_, ?_⟩
        · rw [List.flatten_nil, view_nil hp]
        · rw [List.nil_append, List.flatten_cons, List.flatten_nil, List.append_nil, hchunk]
        · rw [GattFrameParser.readUntilError, feed_of_error hchunk, List.flatten_nil,
            view_nil hp]

/-! ## Where a returned frame's bytes come from -/

theorem wire_infix_of_mem {f : GattFrame} {frames : List GattFrame} (h : f ∈ frames) :
    f.wire <:+: frames.flatMap GattFrame.wire := by
  obtain ⟨s, t, rfl⟩ := List.append_of_mem h
  rw [List.flatMap_append, List.flatMap_cons]
  exact ⟨_, _, by rw [List.append_assoc]⟩

/-- Every frame a session returns is cut out of what was pending and what was
fed. -/
theorem wire_infix_of_feeds (chunks : List (List UInt8)) : ∀ p : GattFrameParser,
    ∀ f ∈ framesOf (p.feeds chunks).1, f.wire <:+: p.buffer ++ chunks.flatten := by
  induction chunks with
  | nil => intro p f hf; cases hf
  | cons chunk chunks ih =>
      intro p f hf
      rw [feeds_cons, framesOf, List.flatMap_cons, ← framesOf, List.mem_append] at hf
      rw [List.flatten_cons, ← List.append_assoc]
      -- frames of this chunk lie in front of its rest, later ones behind its frames
      have hlossless : (p.view chunk).items.flatMap GattFrame.wire ++ (p.view chunk).rest =
          p.buffer ++ chunk :=
        (frameCodec p.maximum_payload p.maximum_payload_le).encode_drain (p.buffer ++ chunk)
      rcases herr : (p.view chunk).error with _ | size
      · rw [feed_of_ok herr] at hf
        rcases hf with hf | hf
        · rw [← hlossless]
          exact (wire_infix_of_mem hf).trans
            ((List.prefix_append _ _).trans (List.prefix_append _ _)).isInfix
        · have h := ih _ f hf
          rw [← hlossless, List.append_assoc]
          exact h.trans (List.suffix_append _ _).isInfix
      · rw [feed_of_error herr] at hf
        rcases hf with hf | hf
        · cases hf
        · have h := ih _ f hf
          rw [List.nil_append] at h
          exact h.trans (List.suffix_append _ _).isInfix

/-! ## What the caller gets -/

/-- The same bytes, cut once and not at all: the response before the oversized
header reaches the caller in the first case only. And the payload of the
rejected frame, fed afterwards, comes back as a response of its own. -/
theorem oversized_header_cut_dependent :
    let p : GattFrameParser := ⟨MAX_RESPONSE_PAYLOAD, MAX_RESPONSE_PAYLOAD_le, []⟩
    let answer : GattFrame := .response ⟨0, [7]⟩
    let header : List UInt8 := [0, 65, 0]
    (p.readUntilError [answer.wire, header]).1 = [answer] ∧
      (p.readUntilError [answer.wire ++ header]).1 = [] ∧
      framesOf (p.feeds [header, [0, 0, 0]]).1 = [.response ⟨0, []⟩] := by
  decide

/-- A new parser sees the frames of the stream itself. -/
theorem view_of_init {m : ℤ} {p : GattFrameParser} (hp : GattFrameParser.init m = .ok p)
    (stream : List UInt8) : p.view stream = drain (frameFormat m.toNat) stream := by
  obtain ⟨_, _, hmax, hempty⟩ := init_eq hp
  unfold GattFrameParser.view
  rw [hempty, List.nil_append, hmax]

/-- Frames whose bytes begin a stream come off it first. -/
theorem prefix_view_of_wire {m : ℤ} {p : GattFrameParser} (hp : GattFrameParser.init m = .ok p)
    {stream : List UInt8} {done : List GattFrame} (hfits : ∀ f ∈ done, f.Fits m.toNat)
    (h : done.flatMap GattFrame.wire <+: stream) : done <+: (p.view stream).items := by
  obtain ⟨_, _, hmax, _⟩ := init_eq hp
  obtain ⟨c, rfl⟩ := h
  have hdrain : drain (frameFormat m.toNat) (done.flatMap GattFrame.wire ++ c) =
      (drain (frameFormat m.toNat) c).prepend done :=
    (frameCodec m.toNat (hmax ▸ p.maximum_payload_le)).drain_encode done hfits c
  rw [view_of_init hp, hdrain]
  exact List.prefix_append _ _

/-- **Up to the first error.** A stream without an oversized header is read alike
whatever the cuts. With one, some call raises however the stream is cut; the
frames handed over before it come from in front of the header and include every
frame that an earlier chunk completed, so all of them if the raising chunk
completes none. The parser is then as new: later frames are cut out of bytes fed
after the raising chunk, which lie behind the rejected frame once that chunk
reached its end. -/
theorem readUntilError_spec {m : ℤ} {p : GattFrameParser} (hp : GattFrameParser.init m = .ok p)
    (chunks : List (List UInt8)) :
    ((∀ lead, ¬ OversizedAfter m.toNat lead chunks.flatten) →
        (p.readUntilError chunks).2 = none ∧
        (∀ done : List GattFrame, (∀ f ∈ done, f.Fits m.toNat) →
          done.flatMap GattFrame.wire <+: chunks.flatten →
          done <+: (p.readUntilError chunks).1) ∧
        ∀ cuts : List (List UInt8), cuts.flatten = chunks.flatten →
          p.readUntilError cuts = p.readUntilError chunks) ∧
      ∀ lead, OversizedAfter m.toNat lead chunks.flatten →
        ∃ pre chunk rest p', chunks = pre ++ chunk :: rest ∧
          (p.readUntilError chunks).2 = some (p', rest) ∧ p'.buffer = [] ∧
          (∀ other, ¬ OversizedAfter m.toNat other pre.flatten) ∧
          OversizedAfter m.toNat lead (pre ++ [chunk]).flatten ∧
          (p.readUntilError chunks).1 <+: lead ∧
          (∀ done : List GattFrame, (∀ f ∈ done, f.Fits m.toNat) →
            done.flatMap GattFrame.wire <+: pre.flatten →
            done <+: (p.readUntilError chunks).1) ∧
          (lead.flatMap GattFrame.wire <+: pre.flatten → (p.readUntilError chunks).1 = lead) ∧
          (∀ later, ∀ f ∈ framesOf (p'.feeds later).1, f.wire <:+: later.flatten) ∧
          ∀ (rejected : GattFrame) (suffix : List UInt8),
            chunks.flatten = lead.flatMap GattFrame.wire ++ rejected.wire ++ suffix →
            (lead.flatMap GattFrame.wire ++ rejected.wire).length ≤
              (pre ++ [chunk]).flatten.length →
            rest.flatten <:+ suffix := by
  obtain ⟨_, _, hmax, hempty⟩ := init_eq hp
  have hready : p.Ready := ready_of_empty hempty
  have hm : m.toNat ≤ 0xFFFF := hmax ▸ p.maximum_payload_le
  have hview := view_of_init hp
  refine ⟨fun hnone => ?_, fun lead hlead => ?_⟩
  · -- without an oversized header the result depends on the bytes alone
    have herr : (p.view chunks.flatten).error = none := by
      rcases h : (p.view chunks.flatten).error with _ | size
      · rfl
      · rw [hview] at h
        exact absurd ((oversizedAfter_iff hm _ _).mpr ⟨rfl, size, h⟩) (hnone _)
    rw [readUntilError_of_ok chunks p hready herr]
    refine ⟨rfl, fun _ => prefix_view_of_wire hp, fun cuts hcuts => ?_⟩
    rw [readUntilError_of_ok cuts p hready (by rw [hcuts]; exact herr), hcuts]
  · -- with one, `chunk` is the first to bring its header to the front
    obtain ⟨hitems, size, herr⟩ := (oversizedAfter_iff hm lead chunks.flatten).mp hlead
    rw [← hview] at herr hitems
    obtain ⟨pre, chunk, rest, rfl, hpre, hchunk, hread⟩ :=
      readUntilError_of_error chunks p size hready herr
    have hflat : (pre ++ chunk :: rest).flatten = (pre ++ [chunk]).flatten ++ rest.flatten := by
      simp
    have hlead' : (p.view (pre ++ [chunk]).flatten).items = lead := by
      rw [hview] at hchunk hitems ⊢
      rw [hflat, drain_append_of_error _ _ hchunk] at hitems
      exact hitems
    have hhanded : (p.view pre.flatten).items <+: lead := by
      rw [← hlead', hview, hview, List.flatten_append]
      exact items_prefix_append _ _ _
    rw [hread]
    refine ⟨pre, chunk, rest, _, rfl, rfl, rfl, ?_, ?_, hhanded, fun _ => prefix_view_of_wire hp,
      ?_, ?_, ?_⟩
    · intro other hother
      obtain ⟨_, size', herr'⟩ := (oversizedAfter_iff hm other pre.flatten).mp hother
      rw [← hview, hpre] at herr'
      cases herr'
    · exact (oversizedAfter_iff hm _ _).mpr ⟨by rw [← hview, hlead'], size, by rw [← hview, hchunk]⟩
    · intro hall
      exact hhanded.eq_of_length_le (prefix_view_of_wire hp hlead.1 hall).length_le
    · intro later f hf
      have h := wire_infix_of_feeds later _ f hf
      rwa [List.nil_append] at h
    · -- the raising chunk took the rejected frame with it, so `rest` begins behind it
      intro rejected suffix hstream hreached
      rw [hflat] at hstream
      obtain ⟨extra, hextra⟩ := List.prefix_of_prefix_length_le
        (List.prefix_append _ suffix) (hstream ▸ List.prefix_append _ rest.flatten) hreached
      rw [← hextra, List.append_assoc] at hstream
      exact ⟨extra, List.append_cancel_left hstream⟩

/-- The first cut of `oversized_header_cut_dependent`. -/
theorem readUntilError_spec_cut :
    ((⟨64, by decide, []⟩ : GattFrameParser).readUntilError [[0, 1, 0, 7], [0, 65, 0]]).1 <+:
      [.response ⟨0, [7]⟩] := by
  have hlead : OversizedAfter 64 [.response ⟨0, [7]⟩] [[0, 1, 0, 7], [0, 65, 0]].flatten := by
    refine ⟨fun f hf => ?_, [0, 65, 0], by decide, by decide, by decide⟩
    rw [List.mem_singleton.mp hf]
    exact ⟨by decide, fun r hr => by cases hr; decide⟩
  obtain ⟨_, _, _, _, _, _, _, _, _, h, _⟩ :=
    (readUntilError_spec (m := 64) (p := ⟨64, by decide, []⟩) rfl _).2 _ hlead
  exact h

end Ptlab.Gatt
