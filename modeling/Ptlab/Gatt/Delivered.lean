/-
Notifications in a session with the bridge: each one reaches a caller, once and
in order.

Both loops of the client fill both queues, and a call may give up with part of a
frame in the parser. `Took` (`Gatt/Unknown.lean`) has the queues; what is left is
to read the frames the parser completed off the stream. `stream_completed` does
it: they are the frames of the bytes read so far, whatever the chunks, and no
further frame is whole there.
-/
import Ptlab.Gatt.Unknown

set_option autoImplicit false

open Deframe Bytes Ptlab.Protocol

namespace Ptlab.Gatt

/-- The chunks that feed the parser are the bytes of the script: the end of the
stream, a timeout and an error bring none. -/
theorem fed_flatten (script : List Recv) : (fed script).flatten = recvBytes script := by
  induction script with
  | nil => rfl
  | cons r script ih =>
      rw [← List.singleton_append, fed_append, List.flatten_append, ih]
      unfold recvBytes
      rw [List.singleton_append, List.flatMap_cons]
      congr 1
      rcases r with (_ | ⟨x, t⟩) | _ | _
      · rfl
      · exact List.append_nil _
      · rfl
      · rfl

theorem recvBytes_append (xs ys : List Recv) :
    recvBytes (xs ++ ys) = recvBytes xs ++ recvBytes ys := List.flatMap_append

/-- The frames completed chunk by chunk are those that the calls of `feed` returned. -/
theorem completed_flatten (p : GattFrameParser) (script : List Recv) :
    (p.completed script).flatten = framesOf (p.feeds (fed script)).1 := by
  unfold GattFrameParser.completed framesOf
  rw [List.flatMap_def]
  rfl

/-- Without unknown notifications nothing stands behind one. -/
theorem beforeUnknown_of_known {chunks : List (List GattFrame)}
    (h : ∀ f ∈ chunks.flatten, f.known) : chunks.flatMap beforeUnknown = chunks.flatten := by
  have hmap : chunks.map beforeUnknown = chunks.map id := by
    refine List.map_congr_left fun frames hframes => ?_
    refine List.takeWhile_eq_self_iff.mpr fun f hf => ?_
    exact h f (List.mem_flatten_of_mem hframes hf)
  rw [List.flatMap_def, hmap, List.map_id]

/-- The bytes read so far have these whole frames of the stream in front, and the
next one is not whole. -/
structure WholeIn (frames : List GattFrame) (bytes : List UInt8) (whole later : List GattFrame) :
    Prop where
  frames : frames = whole ++ later
  read : whole.flatMap GattFrame.wire <+: bytes
  next : ∀ f ∈ later.head?, ¬ (whole ++ [f]).flatMap GattFrame.wire <+: bytes

/-- **The frames of the stream.** Reading a stream of frames within the limit, a
parser completes those that are whole in the bytes it got. -/
theorem stream_completed {p : GattFrameParser} (hempty : p.buffer = [])
    {frames : List GattFrame} (hfits : ∀ f ∈ frames, f.Fits p.maximum_payload)
    {script : List Recv} (hs : recvBytes script <+: frames.flatMap GattFrame.wire) :
    ∃ later, WholeIn frames (recvBytes script) (p.completed script).flatten later := by
  let C := frameCodec p.maximum_payload p.maximum_payload_le
  have hready : p.Ready := ready_of_empty hempty
  have hview : p.view (fed script).flatten = drain C.toFormat (recvBytes script) := by
    rw [fed_flatten]
    unfold GattFrameParser.view
    rw [hempty, List.nil_append]
    rfl
  -- the whole stream has no oversized header, so what was read of it has none
  have herror : (p.view (fed script).flatten).error = none := by
    obtain ⟨rest, hrest⟩ := hs
    have hwire : C.encodeAll frames ++ [] = recvBytes script ++ rest := by
      rw [List.append_nil]
      exact hrest.symm
    have hstream := C.drain_encode frames hfits []
    rw [hwire] at hstream
    rw [hview]
    apply error_none_of_append C.toFormat (c := rest)
    rw [hstream]
    rfl
  obtain ⟨hframes, hbuffer⟩ := (feeds_eq_view (fed script) p hready).2 herror
  have hbytes : (framesOf (p.feeds (fed script)).1).flatMap GattFrame.wire ++
      (p.feeds (fed script)).2.buffer = recvBytes script := by
    rw [hframes, hbuffer, hview]
    exact C.encode_drain (recvBytes script)
  have hvalid : ∀ f ∈ framesOf (p.feeds (fed script)).1, C.Valid f := by
    rw [hframes, hview]
    exact C.valid_drain (recvBytes script)
  obtain ⟨later, hlater, -⟩ := C.prefix_of_encodeAll _ frames hvalid hfits
    (p.feeds (fed script)).2.buffer (by rw [← hbytes] at hs; exact hs)
  rw [completed_flatten]
  refine ⟨later, hlater, ⟨_, hbytes⟩, ?_⟩
  -- the next frame would stand at the front of what is pending
  intro f hf hprefix
  have hmem : f ∈ frames := by
    rw [hlater]
    exact List.mem_append_right _ (List.mem_of_mem_head? hf)
  rw [← hbytes, List.flatMap_append, List.prefix_append_right_inj, List.flatMap_singleton]
    at hprefix
  exact no_frame_pending (feeds_ready (fed script) p hready)
    ((hfits f hmem).mono p.maximum_payload_le) hprefix

/-- **Once and in order.** Whatever the calls of a session, the chunks and the
timeouts, what `next_notification` has returned so far is the beginning of the
notifications of the stream. With those still queued it is all of those that are
whole in the bytes read, so that none is lost, handed over twice, or taken by a
request that waited for its response. -/
theorem notifications_delivered {host : String} {port : ℤ} {timeout : ℚ}
    {transcript : Option (List TranscriptRecord)} {c : GattClient}
    (hc : GattClient.init host port timeout transcript true = .ok c)
    {frames : List GattFrame} (hframes : ∀ f ∈ frames, f.Fits MAX_RESPONSE_PAYLOAD ∧ f.known)
    {script : List Recv} (hs : recvBytes script <+: frames.flatMap GattFrame.wire)
    (calls : List ClientCall) :
    (c.session calls script).1.flatMap CallEvent.notifications <+: notificationsOf frames ∧
      ∃ used whole later, script = used ++ (c.session calls script).2.2 ∧
        WholeIn frames (recvBytes used) whole later ∧
        (c.session calls script).1.flatMap CallEvent.notifications ++
          (c.session calls script).2.1.notifications = notificationsOf whole := by
  obtain ⟨hparser, -, -, hnotifications⟩ := GattClient.init_eq hc
  have hempty : c.parser.buffer = [] := congrArg GattFrameParser.buffer hparser
  have hmaximum : c.parser.maximum_payload = MAX_RESPONSE_PAYLOAD :=
    congrArg GattFrameParser.maximum_payload hparser
  obtain ⟨used, hscript, htook⟩ := session_took calls c script
  have hused : recvBytes used <+: frames.flatMap GattFrame.wire := by
    refine List.IsPrefix.trans ?_ hs
    rw [hscript, recvBytes_append]
    exact List.prefix_append ..
  obtain ⟨later, hwhole⟩ := stream_completed hempty
    (fun f hf => by rw [hmaximum]; exact (hframes f hf).1) hused
  have hknown : ∀ f ∈ (c.parser.completed used).flatten, f.known := fun f hf =>
    (hframes f (by rw [hwhole.frames]; exact List.mem_append_left _ hf)).2
  -- the queue began empty, and no frame of the stream is refused
  have hall := htook.notifications
  rw [hnotifications, List.nil_append, beforeUnknown_of_known hknown] at hall
  refine ⟨?_, used, _, later, hscript, hwhole, hall⟩
  rw [hwhole.frames, notificationsOf_append, ← hall, List.append_assoc]
  exact List.prefix_append ..

/-- A wait that times out inside a notification, a read that meets the rest of it and
one more in front of its answer, and two waits. -/
theorem notifications_delivered_across_read :
    let frames : List GattFrame := [.notification ⟨4, [99]⟩, .notification ⟨4, [98]⟩,
      .response ⟨0, [100]⟩]
    let script : List Recv := [.chunk [0xF0, 4, 1], .timeout,
      .chunk [0, 99, 0xF0, 4, 1, 0, 98, 0, 1, 0, 100]]
    let calls : List ClientCall := [.next_notification, .request (.id 4) OP_READ [] .ok,
      .next_notification, .next_notification]
    ∃ c, GattClient.init "127.0.0.1" 18632 3 none true = .ok c ∧
      (c.session calls script).1.flatMap CallEvent.notifications = [⟨4, [99]⟩, ⟨4, [98]⟩] ∧
      (c.session calls script).1.flatMap CallEvent.notifications <+: notificationsOf frames := by
  intro frames script calls
  refine ⟨_, rfl, by rfl, ?_⟩
  refine (@notifications_delivered "127.0.0.1" 18632 3 none _ rfl frames ?_ script (by decide)
    calls).1
  simp only [frames, List.forall_mem_cons]
  exact ⟨⟨⟨by decide, fun r hr => by cases hr⟩, by decide⟩,
    ⟨⟨by decide, fun r hr => by cases hr⟩, by decide⟩,
    ⟨⟨by decide, fun r hr => by cases hr; decide⟩, by decide⟩, fun f hf => by cases hf⟩

end Ptlab.Gatt
