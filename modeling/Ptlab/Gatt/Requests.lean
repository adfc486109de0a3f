/-
What a session puts on the wire, read back.

A request frame announces its payload's length in two bytes, so no frame is the
beginning of another one (`wire_prefixFree`), and a row of them has one reading.
This is a fact about the requests that pass the checks of `request` only: they
have an ID that fits a byte, one of three operations and a length that fits the
field. `requestFrame_ok` is where the checks are used, `session_sent` that nothing
else ever goes out.
-/
import Ptlab.Gatt.Session

set_option autoImplicit false

open Bytes Deframe Ptlab.Protocol

namespace Ptlab.Gatt

/-! ## Requests -/

/-- A characteristic ID, an operation and a payload. -/
structure Request where
  characteristic_id : ℕ
  operation : ℤ
  payload : List UInt8
  deriving DecidableEq, Repr

/-- The frame of a request. -/
def Request.wire (r : Request) : List UInt8 :=
  UInt8.ofNat r.characteristic_id :: UInt8.ofNat r.operation.toNat ::
    (le16 r.payload.length ++ r.payload)

/-- What the checks of `request` let through. -/
structure Request.Checked (r : Request) : Prop where
  characteristic_id : r.characteristic_id ∈ GENERATED_IDS
  operation : r.operation ∈ [OP_WRITE, OP_READ, OP_WRITE_WITHOUT_RESPONSE]
  length_le : r.payload.length ≤ MAX_REQUEST_PAYLOAD
  read_empty : r.operation = OP_READ → r.payload = []

/-- A characteristic resolves to an ID of the table, whichever way it was named. -/
theorem resolve_characteristic_id {characteristic : Characteristic} {name : String} {id : ℕ}
    (h : resolve_characteristic characteristic = .ok (name, id)) : id ∈ GENERATED_IDS := by
  cases characteristic with
  | name text =>
      unfold resolve_characteristic at h
      dsimp only at h
      rcases hlookup : BRIDGE_CHAR.lookup text with _ | _ | value <;> rw [hlookup] at h
      · cases h
      · cases h
      · injection h with h
        injection h with _ hid
        rw [List.lookup_eq_some_iff] at hlookup
        obtain ⟨before, after, hchar, -⟩ := hlookup
        unfold GENERATED_IDS
        rw [hchar, List.mem_filterMap]
        exact ⟨(text, some value), List.mem_append_right _ (List.mem_cons_self ..), by rw [← hid]⟩
  | id value =>
      -- an integer that is found in the table is one of its natural numbers
      have hvalue : ∃ n : ℕ, value = n := by
        unfold resolve_characteristic at h
        dsimp only at h
        rcases hfind : BRIDGE_CHAR.find? fun entry => entry.2.map Int.ofNat == some value with
          _ | ⟨name', _ | n⟩
        · rw [hfind] at h
          cases h
        · cases List.find?_some hfind
        · exact ⟨n, Eq.symm (by simpa using List.find?_some hfind)⟩
      obtain ⟨n, rfl⟩ := hvalue
      have hid : n = id := by
        unfold resolve_characteristic at h
        dsimp only at h
        split at h
        · cases h
        · injection h with h
          injection h
      rw [← hid, ← resolve_id_iff]
      exact ⟨_, h⟩

/-- **The checks.** A frame that `request` builds is the frame of a checked
request. -/
theorem requestFrame_ok {characteristic : Characteristic} {operation : ℤ} {payload : List UInt8}
    {name : String} {id : ℕ} {frame : List UInt8}
    (h : requestFrame characteristic operation payload = .ok (name, id, frame)) :
    (Request.mk id operation payload).Checked ∧
      frame = (Request.mk id operation payload).wire := by
  unfold requestFrame at h
  rcases hres : resolve_characteristic characteristic with e | ⟨name', id'⟩ <;> rw [hres] at h
  · cases h
  dsimp only at h
  split_ifs at h with hop hlen hread
  injection h with h
  injection h with _ h
  injection h with hid hframe
  subst hid
  refine ⟨⟨resolve_characteristic_id hres, hop, not_lt.mp hlen, fun hr => ?_⟩,
    hframe.symm⟩
  -- a read with a payload is the last that is refused
  by_contra hne
  exact hread ⟨hr, hne⟩

theorem Request.Checked.id_lt {r : Request} (h : r.Checked) : r.characteristic_id < 256 := by
  have hid := (mem_generated_ids r.characteristic_id).mp h.characteristic_id
  omega

theorem Request.Checked.operation_eq {r : Request} (h : r.Checked) :
    ((UInt8.ofNat r.operation.toNat).toNat : ℤ) = r.operation := by
  have hop := h.operation
  simp only [List.mem_cons, List.not_mem_nil, or_false] at hop
  rcases hop with hop | hop | hop <;> rw [hop] <;> decide

/-- Bytes begin with one checked request's frame at most. -/
theorem wire_prefixFree : PrefixFree Request.Checked Request.wire := by
  intro r r' x y h h' heq
  have hmax : MAX_REQUEST_PAYLOAD < 65536 := by decide
  have hlen := h.length_le
  have hlen' := h'.length_le
  unfold Request.wire at heq
  simp only [List.cons_append, List.append_assoc] at heq
  injection heq with hid heq
  injection heq with hop heq
  -- the length field says where the payload ends
  have hlength : r.payload.length = r'.payload.length := by
    have hread := congrArg (fun bytes => read16 bytes 0) heq
    rwa [read16_le16 (by omega), read16_le16 (by omega)] at hread
  rw [hlength] at heq
  have hpayload := (List.append_inj (List.append_cancel_left heq) hlength).1
  have hid : r.characteristic_id = r'.characteristic_id := by
    have hbyte := congrArg UInt8.toNat hid
    rwa [toNat_ofNat_lt h.id_lt, toNat_ofNat_lt h'.id_lt] at hbyte
  have hop : r.operation = r'.operation := by
    rw [← h.operation_eq, ← h'.operation_eq, hop]
  cases r
  cases r'
  simp only at hid hop hpayload
  rw [hid, hop, hpayload]

/-! ## What goes out -/

/-- The request a call put on the wire, if it passed the checks. -/
def CallEvent.accepted : CallEvent → Option Request
  | .request characteristic operation payload _ _ _ =>
    match requestFrame characteristic operation payload with
    | .error _ => none
    | .ok (_, characteristic_id, _) => some ⟨characteristic_id, operation, payload⟩
  | .next_notification _ => none

section Accepted

variable {characteristic : Characteristic} {operation : ℤ} {payload : List UInt8} {send : Send}
  {index : ℕ} {outcome : Ended (Option GattResponse)}

theorem accepted_refused {e : GattExc} (h : requestFrame characteristic operation payload = .error e) :
    (CallEvent.request characteristic operation payload send index outcome).accepted = none := by
  unfold CallEvent.accepted
  dsimp only
  rw [h]

theorem accepted_ok {name : String} {id : ℕ} {frame : List UInt8}
    (h : requestFrame characteristic operation payload = .ok (name, id, frame)) :
    (CallEvent.request characteristic operation payload send index outcome).accepted =
      some ⟨id, operation, payload⟩ := by
  unfold CallEvent.accepted
  dsimp only
  rw [h]

end Accepted

/-- The socket takes all data. -/
def ClientCall.Taken : ClientCall → Prop
  | .request _ _ _ send => send = .ok
  | .next_notification => True

instance : DecidablePred ClientCall.Taken := fun call => by
  cases call <;> unfold ClientCall.Taken <;> infer_instance

theorem accepted_checked {event : CallEvent} {r : Request} (h : event.accepted = some r) :
    r.Checked := by
  cases event with
  | next_notification _ => cases h
  | request characteristic operation payload send index outcome =>
      rcases hframe : requestFrame characteristic operation payload with e | ⟨name, id, frame⟩
      · rw [accepted_refused hframe] at h
        cases h
      · rw [accepted_ok hframe] at h
        injection h with h
        rw [← h]
        exact (requestFrame_ok hframe).1

/-- A `recv` sends nothing. -/
theorem _receive_sent (c : GattClient) (r : Recv) : (c._receive r).2.sent = c.sent := by
  rcases r with (_ | ⟨x, t⟩) | _ | _
  · rw [GattClient._receive]
    split_ifs <;> rfl
  · rcases herr : (c.parser.view (x :: t)).error with _ | size
    · exact (_receive_chunk c (List.cons_ne_nil x t) herr).1.sent
    · rw [GattClient._receive, feed_of_error herr]
      exact List.cons_ne_nil x t
  · rfl
  · rfl

/-- Nor does a wait, if taking a value does not. -/
theorem await_sent {α : Type} {take : GattClient → Option (α × GattClient)}
    (htake : ∀ c a c', take c = some (a, c') → c'.sent = c.sent) (c : GattClient)
    (script : List Recv) : (Await.await take GattClient._receive c script).2.1.sent = c.sent := by
  refine Await.await_rule (I := fun c₁ _ => c₁.sent = c.sent)
    (Q := fun _ c₁ _ => c₁.sent = c.sent) ?_ (fun _ h => h) ?_ ?_ script c rfl
  · exact fun c₁ _ a c₂ h htaken => (htake c₁ a c₂ htaken).trans h
  · intro c₁ r _ e c₂ h hrecv
    rw [← h, ← _receive_sent c₁ r, hrecv]
  · intro c₁ r _ c₂ h hrecv
    rw [← h, ← _receive_sent c₁ r, hrecv]

theorem next_notification_sent (c : GattClient) (script : List Recv) :
    (c.next_notification script).2.1.sent = c.sent := by
  refine await_sent (fun c₁ n c₂ hpop => ?_) c script
  obtain ⟨ns, -, rfl⟩ := GattClient.popNotification_eq hpop
  rfl

theorem awaitResponse_sent (c : GattClient) (script : List Recv) :
    (c.awaitResponse script).2.1.sent = c.sent := by
  refine await_sent (fun c₁ response c₂ hpop => ?_) c script
  obtain ⟨rs, -, rfl⟩ := GattClient.popResponse_eq hpop
  rfl

/-- An accepted request puts its frame on the wire, whatever becomes of its answer. -/
theorem request_sent {characteristic : Characteristic} {operation : ℤ} {payload : List UInt8}
    {name : String} {id : ℕ} {frame : List UInt8} (c : GattClient) (script : List Recv)
    (h : requestFrame characteristic operation payload = .ok (name, id, frame)) :
    (c.request characteristic operation payload .ok script).2.1.sent = c.sent ++ [frame] := by
  by_cases hop : operation = OP_WRITE_WITHOUT_RESPONSE
  · rw [request_unanswered c script h hop, GattClient.sending_sent]
  · have hawait : ((c.sending name id operation payload frame).awaitResponse script).2.1.sent =
        c.sent ++ [frame] := awaitResponse_sent _ script
    rw [request_answered c script h hop]
    rcases hcall : (c.sending name id operation payload frame).awaitResponse script with
      ⟨outcome, c', script'⟩
    rw [hcall] at hawait
    cases outcome <;> exact hawait

/-- **One call** puts the frame of its request on the wire if it has one, and
nothing else. -/
theorem call_sent (c : GattClient) (script : List Recv) {call : ClientCall} (h : call.Taken) :
    (c.call script call).2.1.sent =
      c.sent ++ ((c.call script call).1.accepted.map Request.wire).toList := by
  cases call with
  | next_notification =>
      rw [call_next_notification]
      exact (next_notification_sent c script).trans (List.append_nil _).symm
  | request characteristic operation payload send =>
      obtain rfl : send = .ok := h
      rw [call_request]
      rcases hframe : requestFrame characteristic operation payload with e | ⟨name, id, frame⟩
      · rw [accepted_refused hframe, request_refused c script .ok hframe]
        exact (List.append_nil _).symm
      · rw [accepted_ok hframe, request_sent c script hframe, (requestFrame_ok hframe).2]
        rfl

/-- **The run.** What a session has put on the wire are the frames of its accepted
requests, in order. -/
theorem session_sent (calls : List ClientCall) : ∀ (c : GattClient) (script : List Recv),
    (∀ call ∈ calls, call.Taken) →
    (c.session calls script).2.1.sent =
      c.sent ++ ((c.session calls script).1.filterMap CallEvent.accepted).map Request.wire := by
  induction calls with
  | nil => intro c script _; exact (List.append_nil _).symm
  | cons call calls ih =>
      intro c script h
      rw [List.forall_mem_cons] at h
      have hcall := call_sent c script h.1
      unfold GattClient.session
      rcases hrun : c.call script call with ⟨event, c', script'⟩
      rw [hrun] at hcall
      dsimp only at hcall ⊢
      have hevents : ∀ events : List CallEvent, (event :: events).filterMap CallEvent.accepted =
          event.accepted.toList ++ events.filterMap CallEvent.accepted := by
        intro events
        rcases haccepted : event.accepted with _ | r
        · exact List.filterMap_cons_none haccepted
        · exact List.filterMap_cons_some haccepted
      have hnow : (event.accepted.map Request.wire).toList =
          event.accepted.toList.map Request.wire := by
        cases event.accepted <;> rfl
      by_cases hwait : event.waiting
      · -- the session ends with a call that still waits
        rw [if_pos hwait, hevents, hcall, hnow]
        exact congrArg (c.sent ++ ·) (congrArg (List.map Request.wire) (List.append_nil _).symm)
      · rw [if_neg hwait]
        dsimp only
        rw [ih c' script' h.2, hcall, hevents, hnow, List.map_append, List.append_assoc]

/-! ## The contract -/

/-- **Requests have one reading.** On a socket that takes all data, a call that does
not pass the checks raises, puts nothing on the wire and records nothing; and two
sessions that have put the same bytes on the wire have made the same requests, in
the same order. -/
theorem requests_uniquely_framed {host host' : String} {port port' : ℤ} {timeout timeout' : ℚ}
    {transcript transcript' : Option (List TranscriptRecord)} {c c' : GattClient}
    (hc : GattClient.init host port timeout transcript true = .ok c)
    (hc' : GattClient.init host' port' timeout' transcript' true = .ok c')
    {calls calls' : List ClientCall} (hcalls : ∀ call ∈ calls, call.Taken)
    (hcalls' : ∀ call ∈ calls', call.Taken) (script script' : List Recv) :
    (∀ (client : GattClient) (ahead : List Recv) characteristic operation payload e,
        requestFrame characteristic operation payload = .error e →
        client.request characteristic operation payload .ok ahead = (.raised e, client, ahead)) ∧
      ((c.session calls script).2.1.sent.flatten = (c'.session calls' script').2.1.sent.flatten →
        (c.session calls script).1.filterMap CallEvent.accepted =
          (c'.session calls' script').1.filterMap CallEvent.accepted) := by
  refine ⟨fun client ahead _ _ _ e h => request_refused client ahead .ok h, fun hwire => ?_⟩
  have hchecked : ∀ events : List CallEvent, ∀ r ∈ events.filterMap CallEvent.accepted,
      r.Checked := by
    intro events r hr
    obtain ⟨event, -, haccepted⟩ := List.mem_filterMap.mp hr
    exact accepted_checked haccepted
  -- a new client has sent nothing, so the bytes are those of the accepted requests
  obtain ⟨-, -, hsent, -⟩ := GattClient.init_eq hc
  obtain ⟨-, -, hsent', -⟩ := GattClient.init_eq hc'
  rw [session_sent calls c script hcalls, session_sent calls' c' script' hcalls', hsent, hsent',
    List.nil_append, List.nil_append, ← List.flatMap_def, ← List.flatMap_def] at hwire
  exact wire_prefixFree.flatMap_injective (fun r => List.cons_ne_nil _ _) _ _ (hchecked _)
    (hchecked _) hwire

/-- A write by name and one by number, with a request between them that is refused. -/
theorem requests_uniquely_framed_by_name :
    ∃ c, GattClient.init "127.0.0.1" 18632 3 none true = .ok c ∧
      (c.session [.request (.name "battery") OP_WRITE_WITHOUT_RESPONSE [7] .ok] []).1.filterMap
          CallEvent.accepted =
        (c.session [.request (.id 4) 9 [7] .ok,
          .request (.id 4) OP_WRITE_WITHOUT_RESPONSE [7] .ok] []).1.filterMap
          CallEvent.accepted := by
  refine ⟨_, rfl, ?_⟩
  refine (@requests_uniquely_framed "127.0.0.1" "127.0.0.1" 18632 18632 3 3 none none _ _ rfl rfl
    [.request (.name "battery") OP_WRITE_WITHOUT_RESPONSE [7] .ok]
    [.request (.id 4) 9 [7] .ok, .request (.id 4) OP_WRITE_WITHOUT_RESPONSE [7] .ok]
    (by decide) (by decide) [] []).2 ?_
  rfl

end Ptlab.Gatt
