/-
The `Bridge` class of `companion-cli.mjs`, whose twin in `bridge-test.mjs` has
the same loop under the name `drain`.

It knows one kind of frame. Whatever stands at the front of its buffer is read
as a status byte, a length and a payload, and goes to the waiter that has waited
longest; without a waiter it stays in the buffer. So the class cuts the stream
like `GattFrameParser` as long as the frames its waiters get are responses
(`bridge_resolves_iff`): at a notification it takes the characteristic byte for
half of the length.
-/
import Ptlab.Gatt.Receive

set_option autoImplicit false

open Deframe Bytes Ptlab.Gatt

namespace Ptlab.Js

/-! ## The class -/

/-- A `Bridge`. A waiter is known by what stands for its `resolve`; `resolved`
has the calls made, each with the status and the payload handed over. -/
structure Bridge (ω : Type) where
  buf : List UInt8
  waiters : List ω
  resolved : List (ω × GattResponse)
  deriving DecidableEq, Repr

variable {ω : Type}

/-- The `while` loop of the data handler. Each turn that does not leave it takes a
waiter off the list; what the waiter goes on to do runs after the handler. -/
def drainLoop : List ω → List UInt8 → List (ω × GattResponse) → Bridge ω
  | [], buf, resolved => ⟨buf, [], resolved⟩
  | waiter :: waiters, buf, resolved =>
    if buf.length < 3 then ⟨buf, waiter :: waiters, resolved⟩
    else
      let len := read16 buf 1
      if buf.length < 3 + len then ⟨buf, waiter :: waiters, resolved⟩
      else
        let status := buf.getD 0 0
        let payload := (buf.drop 3).take len
        drainLoop waiters (buf.drop (3 + len)) (resolved ++ [(waiter, ⟨status, payload⟩)])

/-- `socket.on('data', ...)`. -/
def Bridge.data (bridge : Bridge ω) (d : List UInt8) : Bridge ω :=
  drainLoop bridge.waiters (bridge.buf ++ d) bridge.resolved

/-- One data event after another. -/
def Bridge.datas (bridge : Bridge ω) (chunks : List (List UInt8)) : Bridge ω :=
  chunks.foldl Bridge.data bridge

/-! ## The format it reads -/

/-- One turn of the loop, as a look at the buffer. -/
def lookReply (buf : List UInt8) : Look GattResponse Empty :=
  if buf.length < 3 then .more
  else if buf.length < 3 + read16 buf 1 then .more
  else .item ⟨buf.getD 0 0, (buf.drop 3).take (read16 buf 1)⟩ (3 + read16 buf 1)

theorem lookReply_item {buf : List UInt8} {r : GattResponse} {n : ℕ}
    (h : lookReply buf = .item r n) :
    n = 3 + read16 buf 1 ∧ n ≤ buf.length ∧
      r = ⟨buf.getD 0 0, (buf.drop 3).take (read16 buf 1)⟩ := by
  unfold lookReply at h
  split_ifs at h with hhead hshort
  injection h with hr hn
  exact ⟨hn.symm, by omega, hr.symm⟩

theorem lookReply_append {buf : List UInt8} (h : 3 + read16 buf 1 ≤ buf.length)
    (c : List UInt8) : lookReply (buf ++ c) = lookReply buf := by
  have hlen : (buf ++ c).length = buf.length + c.length := List.length_append
  have hread : read16 (buf ++ c) 1 = read16 buf 1 := read16_append (by omega) c
  unfold lookReply
  rw [hread, List.getD_append _ _ _ _ (by omega), List.drop_append_of_le_length (by omega),
    List.take_append_of_le_length (by rw [List.length_drop]; omega),
    if_neg (by omega), if_neg (by omega), if_neg (by omega), if_neg (by omega)]

/-- The format of the class: no byte is special, and nothing is refused. -/
def replyFormat : Format UInt8 GattResponse Empty where
  look := lookReply
  look_nil := rfl
  item_pos := by
    intro b r n h
    obtain ⟨hn, -, -⟩ := lookReply_item h
    omega
  item_le := by
    intro b r n h
    exact (lookReply_item h).2.1
  item_append := by
    intro b r n c h
    obtain ⟨hn, hle, -⟩ := lookReply_item h
    rw [lookReply_append (by omega) c, h]
  reject_append := by
    intro b e c h
    exact e.elim

/-- What a look cuts off, by its bytes. -/
theorem lookReply_bytes {buf : List UInt8} {r : GattResponse} {n : ℕ}
    (h : lookReply buf = .item r n) : ∃ lo hi t, buf = r.status :: lo :: hi :: t ∧
      r.payload = t.take (lo.toNat + 256 * hi.toNat) ∧
      r.payload.length = lo.toNat + 256 * hi.toNat ∧ n = 3 + r.payload.length := by
  obtain ⟨hn, hle, hr⟩ := lookReply_item h
  -- fewer than three bytes are no header
  rcases buf with _ | ⟨st, _ | ⟨lo, _ | ⟨hi, t⟩⟩⟩
  · simp only [List.length_nil] at hle
    omega
  · simp only [List.length_cons, List.length_nil] at hle
    omega
  · simp only [List.length_cons, List.length_nil] at hle
    omega
  have hread : read16 (st :: lo :: hi :: t) 1 = lo.toNat + 256 * hi.toNat := rfl
  rw [hread] at hn hr
  simp only [List.length_cons] at hle
  have hpayload : r.payload = t.take (lo.toNat + 256 * hi.toNat) := by rw [hr]; rfl
  have hlen : r.payload.length = lo.toNat + 256 * hi.toNat := by
    rw [hpayload, List.length_take]
    omega
  exact ⟨lo, hi, t, by rw [hr]; rfl, hpayload, hlen, by omega⟩

/-- A response on the wire is what one look at it sees. -/
theorem lookReply_wire {r : GattResponse} (hr : r.payload.length ≤ 0xFFFF) (c : List UInt8) :
    lookReply ((GattFrame.response r).wire ++ c) =
      .item r (GattFrame.response r).wire.length := by
  have hlen : ((GattFrame.response r).wire ++ c).length =
      3 + r.payload.length + c.length := by
    simp only [GattFrame.wire, List.length_append, List.length_cons, le16_length]
    omega
  have hwire : (GattFrame.response r).wire.length = 3 + r.payload.length := by
    simp only [GattFrame.wire, List.length_append, List.length_cons, le16_length]
    omega
  have hread : read16 ((GattFrame.response r).wire ++ c) 1 = r.payload.length := by
    simp only [GattFrame.wire, List.cons_append, List.append_assoc]
    exact (read16_append_right (p := [r.status]) _ rfl 0).trans (read16_le16 (by omega) _)
  have hdrop : ((GattFrame.response r).wire ++ c).drop 3 = r.payload ++ c := rfl
  unfold lookReply
  rw [hread, hdrop, List.take_left, if_neg (by omega), if_neg (by omega), hwire]
  rfl

/-- A response that is read has a payload that a frame can announce. -/
theorem lookReply_valid {buf : List UInt8} {r : GattResponse} {n : ℕ}
    (h : lookReply buf = .item r n) : r.payload.length ≤ 0xFFFF := by
  obtain ⟨lo, hi, t, -, -, hlen, -⟩ := lookReply_bytes h
  have hlo := lo.toNat_lt
  have hhi := hi.toNat_lt
  omega

/-- Responses as the class reads them, and their bytes. -/
def replyCodec : Codec UInt8 GattResponse Empty where
  toFormat := replyFormat
  encode r := (GattFrame.response r).wire
  Valid r := r.payload.length ≤ 0xFFFF
  encode_item := by
    intro b r n h
    obtain ⟨lo, hi, t, hb, hpayload, hlen, hn⟩ := lookReply_bytes h
    rw [hb, hn, GattFrame.wire, le16_of_bytes hlen, Nat.add_comm 3, hlen, hpayload]
    rfl
  valid_item := fun h => lookReply_valid h
  look_encode := fun hr c => lookReply_wire hr c

/-! ## What a session hands out -/

/-- The loop cuts off an item for each waiter, as long as there is one. -/
theorem drainLoop_eq (waiters : List ω) : ∀ (buf : List UInt8) (resolved : List (ω × GattResponse)),
    drainLoop waiters buf resolved =
      ⟨(drainFuel replyFormat waiters.length buf).rest,
        waiters.drop (drainFuel replyFormat waiters.length buf).items.length,
        resolved ++ waiters.zip (drainFuel replyFormat waiters.length buf).items⟩ := by
  induction waiters with
  | nil => intro buf resolved; simp [drainLoop, drainFuel]
  | cons waiter waiters ih =>
      intro buf resolved
      rw [List.length_cons, drainFuel, drainLoop]
      have hlook : replyFormat.look buf = lookReply buf := rfl
      rw [hlook, lookReply]
      dsimp only
      -- the two tests of the loop: the header, and the payload it announces
      by_cases hhead : buf.length < 3
      · rw [if_pos hhead, if_pos hhead]
        simp
      · rw [if_neg hhead, if_neg hhead]
        by_cases hshort : buf.length < 3 + read16 buf 1
        · rw [if_pos hshort, if_pos hshort]
          simp
        · rw [if_neg hshort, if_neg hshort, ih]
          simp

/-- What all the waiters of a bridge are handed out of some more bytes. -/
def Bridge.view (bridge : Bridge ω) (d : List UInt8) : Drained UInt8 GattResponse Empty :=
  drainFuel replyFormat bridge.waiters.length (bridge.buf ++ d)

theorem drained_error_none (d : Drained UInt8 GattResponse Empty) : d.error = none := by
  rcases d.error with _ | e
  · rfl
  · exact e.elim

theorem data_eq (bridge : Bridge ω) (d : List UInt8) : bridge.data d =
    ⟨(bridge.view d).rest, bridge.waiters.drop (bridge.view d).items.length,
      bridge.resolved ++ bridge.waiters.zip (bridge.view d).items⟩ := drainLoop_eq ..

/-- One event hands out what there is to see, and what comes later is seen by the
waiters that are left. -/
theorem data_view (bridge : Bridge ω) (d later : List UInt8) :
    bridge.view (d ++ later) = ((bridge.data d).view later).prepend (bridge.view d).items := by
  rw [data_eq]
  unfold Bridge.view
  rw [← List.append_assoc, drainFuel_append, drained_error_none]
  dsimp only
  rw [List.length_drop]

theorem zip_append_right {α β : Type} (xs : List β) : ∀ (ws : List α) (ys : List β),
    ws.zip (xs ++ ys) = ws.zip xs ++ (ws.drop xs.length).zip ys := by
  induction xs with
  | nil => intro ws ys; simp
  | cons x xs ih =>
      intro ws ys
      cases ws with
      | nil => simp
      | cons w ws => simp [ih]

/-- **A session is one long event**: the waiters are handed what one drain of all
the bytes cuts off for them. -/
theorem datas_resolved (chunks : List (List UInt8)) : ∀ (bridge : Bridge ω) (d : List UInt8),
    ((bridge.data d).datas chunks).resolved =
      bridge.resolved ++ bridge.waiters.zip (bridge.view (d ++ chunks.flatten)).items := by
  induction chunks with
  | nil =>
      intro bridge d
      rw [List.flatten_nil, List.append_nil, data_eq]
      rfl
  | cons chunk chunks ih =>
      intro bridge d
      have hdata : (bridge.data d).datas (chunk :: chunks) =
          ((bridge.data d).data chunk).datas chunks := rfl
      have hresolved : (bridge.data d).resolved =
          bridge.resolved ++ bridge.waiters.zip (bridge.view d).items := by rw [data_eq]
      have hwaiters : (bridge.data d).waiters =
          bridge.waiters.drop (bridge.view d).items.length := by rw [data_eq]
      rw [hdata, ih, hresolved, hwaiters, List.flatten_cons, data_view bridge d,
        Drained.prepend_items, zip_append_right, List.append_assoc]

/-- A bridge with these requests outstanding and nothing read yet. -/
def Bridge.waiting (waiters : List ω) : Bridge ω := ⟨[], waiters, []⟩

theorem waiting_resolved (waiters : List ω) (chunks : List (List UInt8)) :
    ((Bridge.waiting waiters).datas chunks).resolved =
      waiters.zip (drainFuel replyFormat waiters.length chunks.flatten).items := by
  have hidle : (Bridge.waiting waiters).data [] = Bridge.waiting waiters := by
    cases waiters <;> rfl
  have h := datas_resolved chunks (Bridge.waiting waiters) []
  rw [hidle] at h
  exact h

/-! ## Where the two clients agree -/

/-- Every notification comes after the last response. -/
def ResponsesFirst (frames : List GattFrame) : Prop :=
  ∃ (rs : List GattResponse) (ns : List GattNotification),
    frames = rs.map .response ++ ns.map .notification

theorem notifications_of_responsesOf_nil {frames : List GattFrame} (h : responsesOf frames = []) :
    ∃ ns : List GattNotification, frames = ns.map .notification := by
  induction frames with
  | nil => exact ⟨[], rfl⟩
  | cons f frames ih =>
      cases f with
      | response r => cases h
      | notification n =>
          obtain ⟨ns, hns⟩ := ih h
          exact ⟨n :: ns, by rw [List.map_cons, ← hns]⟩

/-- If not, a notification stands before a response. -/
theorem responsesFirst_or (frames : List GattFrame) : ResponsesFirst frames ∨
    ∃ (rs : List GattResponse) (n : GattNotification) (post : List GattFrame),
      frames = rs.map .response ++ .notification n :: post ∧ responsesOf post ≠ [] := by
  induction frames with
  | nil => exact .inl ⟨[], [], rfl⟩
  | cons f frames ih =>
      cases f with
      | response r =>
          rcases ih with ⟨rs, ns, h⟩ | ⟨rs, n, post, h, hpost⟩
          · exact .inl ⟨r :: rs, ns, by rw [h]; rfl⟩
          · exact .inr ⟨r :: rs, n, post, by rw [h]; rfl, hpost⟩
      | notification n =>
          by_cases hpost : responsesOf frames = []
          · obtain ⟨ns, hns⟩ := notifications_of_responsesOf_nil hpost
            exact .inl ⟨[], n :: ns, by rw [hns]; rfl⟩
          · exact .inr ⟨[], n, frames, rfl, hpost⟩

theorem responsesOf_map_response (rs : List GattResponse) :
    responsesOf (rs.map .response) = rs := by
  induction rs with
  | nil => rfl
  | cons r rs ih => rw [List.map_cons, responsesOf_response, ih]

theorem responsesOf_map_notification (ns : List GattNotification) :
    responsesOf (ns.map .notification) = [] := by
  induction ns with
  | nil => rfl
  | cons n ns ih => rw [List.map_cons, responsesOf_notification, ih]

/-- Responses in front go to as many waiters; the other waiters look behind
them. -/
theorem drainFuel_responses {rs : List GattResponse} (post : List GattFrame)
    (hrs : ∀ r ∈ rs, r.payload.length ≤ 0xFFFF) (k : ℕ) :
    (drainFuel replyFormat (rs.length + k)
        ((rs.map GattFrame.response ++ post).flatMap GattFrame.wire)).items =
      rs ++ (drainFuel replyFormat k (post.flatMap GattFrame.wire)).items := by
  have hwire : (rs.map GattFrame.response).flatMap GattFrame.wire = replyCodec.encodeAll rs := by
    rw [List.flatMap_map]
    rfl
  have h := replyCodec.drainFuel_encode rs hrs k (post.flatMap GattFrame.wire)
  rw [List.flatMap_append, hwire]
  exact congrArg Drained.items h

/-- What a waiter is handed at a notification has the status `0xF0`. -/
theorem drainFuel_notification (n : GattNotification) (c : List UInt8) (k : ℕ) :
    ∀ r ∈ (drainFuel replyFormat k ((GattFrame.notification n).wire ++ c)).items.head?,
      r.status = NOTIFICATION := by
  intro r hr
  cases k with
  | zero => cases hr
  | succ k =>
      rw [drainFuel] at hr
      have hlook : replyFormat.look ((GattFrame.notification n).wire ++ c) =
        lookReply ((GattFrame.notification n).wire ++ c) := rfl
      rcases hl : lookReply ((GattFrame.notification n).wire ++ c) with _ | ⟨r', m⟩ | e
      · rw [hlook, hl] at hr
        cases hr
      · rw [hlook, hl] at hr
        obtain ⟨-, -, hr'⟩ := lookReply_item hl
        cases hr
        rw [hr']
        rfl
      · exact e.elim

theorem zip_inj {α β : Type} {ws : List α} {xs ys : List β} (hx : xs.length ≤ ws.length)
    (hy : ys.length ≤ ws.length) (h : ws.zip xs = ws.zip ys) : xs = ys := by
  have hsnd := congrArg (List.map Prod.snd) h
  rwa [List.map_snd_zip hx, List.map_snd_zip hy] at hsnd

/-- **Where the two clients agree.** A stream of frames arrives in any chunks, and
there is a waiter for each response. The waiters of the bridge are handed the
responses that the parser yields on the same chunks, in order, exactly if no
notification stands before a response. -/
theorem bridge_resolves_iff (frames : List GattFrame) (chunks : List (List UInt8))
    (waiters : List ω) (hfits : ∀ f ∈ frames, f.Fits MAX_RESPONSE_PAYLOAD)
    (hchunks : chunks.flatten = frames.flatMap GattFrame.wire)
    (hwaiters : waiters.length = (responsesOf frames).length) {p : GattFrameParser}
    (hp : GattFrameParser.init MAX_RESPONSE_PAYLOAD = .ok p) :
    ((Bridge.waiting waiters).datas chunks).resolved =
        waiters.zip (responsesOf (framesOf (p.feeds chunks).1)) ↔ ResponsesFirst frames := by
  obtain ⟨-, hround, -⟩ := feeds_lossless hp chunks
  obtain ⟨-, hpython, -⟩ := hround frames hfits hchunks
  rw [hpython, waiting_resolved, hchunks]
  have hpayload : ∀ r : GattResponse, .response r ∈ frames → r.payload.length ≤ 0xFFFF :=
    fun r hr => ((hfits _ hr).mono MAX_RESPONSE_PAYLOAD_le).1
  constructor
  · intro h
    rcases responsesFirst_or frames with hfirst | ⟨rs, n, post, hframes, hpost⟩
    · exact hfirst
    exfalso
    -- the waiter after those of `rs` is handed the notification, or nothing
    have hresponses : responsesOf frames = rs ++ responsesOf post := by
      rw [hframes, responsesOf_append, responsesOf_map_response, responsesOf_notification]
    have hlen : waiters.length = rs.length + (responsesOf post).length := by
      rw [hwaiters, hresponses, List.length_append]
    have heq := zip_inj (drainFuel_length replyFormat _ _) hwaiters.ge h
    rw [hlen, hresponses, hframes, drainFuel_responses _ fun r hr => hpayload r (by
      rw [hframes]
      exact List.mem_append_left _ (List.mem_map_of_mem hr))] at heq
    have htail := List.append_cancel_left heq
    rw [List.flatMap_cons] at htail
    obtain ⟨r, rest, hr⟩ := List.exists_cons_of_ne_nil hpost
    have hstatus := drainFuel_notification n (post.flatMap GattFrame.wire)
      (responsesOf post).length r (by rw [htail, hr]; rfl)
    have hmem : GattFrame.response r ∈ post := by
      have hin : r ∈ responsesOf post := by rw [hr]; exact List.mem_cons_self ..
      obtain ⟨f, hf, hfr⟩ := List.mem_filterMap.mp hin
      cases f with
      | response r' => exact Option.some.inj hfr ▸ hf
      | notification n' => cases hfr
    have hin : GattFrame.response r ∈ frames := by
      rw [hframes]
      exact List.mem_append_right _ (List.mem_cons_of_mem _ hmem)
    exact (hfits _ hin).2 r rfl hstatus
  · rintro ⟨rs, ns, hframes⟩
    have hresponses : responsesOf frames = rs := by
      rw [hframes, responsesOf_append, responsesOf_map_response, responsesOf_map_notification,
        List.append_nil]
    have hrs : ∀ r ∈ rs, r.payload.length ≤ 0xFFFF := by
      intro r hr
      refine hpayload r ?_
      rw [hframes]
      exact List.mem_append_left _ (List.mem_map_of_mem hr)
    have hdrain := drainFuel_responses (ns.map GattFrame.notification) hrs 0
    rw [Nat.add_zero] at hdrain
    rw [hwaiters, hresponses, hframes, hdrain]
    exact congrArg waiters.zip (List.append_nil rs)

/-- The two frames of `test_gatt_parser_reassembles_fragmented_response_and_notification`
fit. -/
theorem fragmented_fits : ∀ f ∈ [GattFrame.response ⟨0, [111, 107]⟩, .notification ⟨4, [0x64]⟩],
    f.Fits MAX_RESPONSE_PAYLOAD := by
  intro f hf
  fin_cases hf
  · exact ⟨by decide, fun r hr => by cases hr; decide⟩
  · exact ⟨by decide, fun r hr => by cases hr⟩

/-- In this order the one waiter has its response. -/
theorem bridge_resolves_fragmented :
    let p : GattFrameParser := ⟨64, by decide, []⟩
    let chunks : List (List UInt8) := [[0, 2], [0, 111, 107, 0xF0], [4, 1, 0, 0x64]]
    ((Bridge.waiting [(7 : ℕ)]).datas chunks).resolved =
        [7].zip (responsesOf (framesOf (p.feeds chunks).1)) ↔
      ResponsesFirst [.response ⟨0, [111, 107]⟩, .notification ⟨4, [0x64]⟩] := by
  intro p chunks
  exact bridge_resolves_iff _ chunks [(7 : ℕ)] fragmented_fits (by decide) rfl rfl

/-- **A misread notification.** The same two frames the other way round: the
parser yields the response, and the bridge's waiter goes on waiting. -/
theorem notification_misread :
    let p : GattFrameParser := ⟨64, by decide, []⟩
    let frames : List GattFrame := [.notification ⟨4, [0x64]⟩, .response ⟨0, [111, 107]⟩]
    let chunks := [frames.flatMap GattFrame.wire]
    (∀ f ∈ frames, f.Fits MAX_RESPONSE_PAYLOAD) ∧
      responsesOf (framesOf (p.feeds chunks).1) = [⟨0, [111, 107]⟩] ∧
      ((Bridge.waiting [(7 : ℕ)]).datas chunks).resolved = [] :=
  ⟨fun f hf => fragmented_fits f (List.mem_pair.mpr (List.mem_pair.mp hf).symm), by decide, by decide⟩

end Ptlab.Js
