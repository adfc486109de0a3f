/-
`GattClient` (`src/ptlab/gatt.py`): requests, responses and notifications over
one socket.

The socket is the environment: `Send` is what `sendall` does and a list of
`Recv` is what the successive `recv` calls do, in order, timeouts included. A
client keeps its parser and its two queues between calls; `request` and
`next_notification` consume as much of the script as they need and leave the
rest to later calls. A call still inside `recv` when the script runs out is
`waiting`.
-/
import Ptlab.Gatt.Parser
import Ptlab.Lib.Await
import Ptlab.Protocol

set_option autoImplicit false

open Bytes Ptlab.Protocol

namespace Ptlab.Gatt

/-! ## Characteristics and operations -/

def OP_WRITE : ℤ := 0
def OP_READ : ℤ := 1
def OP_WRITE_WITHOUT_RESPONSE : ℤ := 2
def MAX_REQUEST_PAYLOAD : ℕ := 508

/-- A characteristic as callers name it: `str | int`. -/
inductive Characteristic where
  | name (value : String)
  | id (value : ℤ)
  deriving DecidableEq, Repr

/-- A character in quotes, as `repr` writes it. -/
def escaped (quote : Char) (c : Char) : String :=
  if c = quote ∨ c.toNat = 0x5C then "\\" ++ c.toString
  else if c.toNat = 0x0A then "\\n"
  else if c.toNat = 0x0D then "\\r"
  else if c.toNat = 0x09 then "\\t"
  else if c.toNat < 0x20 ∨ c.toNat = 0x7F then
    "\\x" ++ String.ofList [Nat.digitChar (c.toNat / 16), Nat.digitChar (c.toNat % 16)]
  else c.toString

/-- `repr(text)`, but that characters beyond ASCII are all taken for printable. The quotes
are double if the text has single ones only. -/
def quoted (text : String) : String :=
  let single := Char.ofNat 0x27
  let double := Char.ofNat 0x22
  let quote := if single ∈ text.toList ∧ double ∉ text.toList then double else single
  quote.toString ++ String.join (text.toList.map (escaped quote)) ++ quote.toString

/-- `resolve_characteristic`. For a number, the test against `_GENERATED_IDS` and
the search for the name look at the same entries. -/
def resolve_characteristic : Characteristic → Except GattExc (String × ℕ)
  | .name characteristic =>
    match BRIDGE_CHAR.lookup characteristic with
    | none =>
      .error (.ValueError ("unknown generated characteristic " ++ quoted characteristic))
    | some none =>
      .error (.ValueError ("characteristic " ++ quoted characteristic ++ " has no GATT bridge ID"))
    | some (some value) => .ok (characteristic, value)
  | .id characteristic =>
    match BRIDGE_CHAR.find? fun entry => entry.2.map Int.ofNat == some characteristic with
    | none => .error (.ValueError "characteristic must be a generated bridge name or ID")
    | some (name, _) => .ok (name, characteristic.toNat)

/-- A number resolves exactly if it is a generated bridge ID. -/
theorem resolve_id_iff (id : ℕ) :
    (∃ r, resolve_characteristic (.id id) = .ok r) ↔ id ∈ GENERATED_IDS := by
  unfold GENERATED_IDS
  simp only [resolve_characteristic, List.mem_filterMap]
  cases hf : BRIDGE_CHAR.find? fun entry => entry.2.map Int.ofNat == some (id : ℤ) with
  | none =>
      simp only [reduceCtorEq, exists_false, false_iff, not_exists, not_and]
      intro entry hmem hentry
      have h := List.find?_eq_none.mp hf entry hmem
      rw [hentry] at h
      exact h (by simp)
  | some entry =>
      obtain ⟨n, v⟩ := entry
      refine ⟨fun _ => ⟨(n, v), List.mem_of_find?_eq_some hf, ?_⟩, fun _ => ⟨_, rfl⟩⟩
      have h := List.find?_some hf
      rcases v with _ | v
      · simp at h
      · simpa using h

/-- A number that does not resolve raises `ValueError`. -/
theorem resolve_id_error {id : ℕ} {e : GattExc}
    (h : resolve_characteristic (.id id) = .error e) :
    id ∉ GENERATED_IDS ∧ ∃ message, e = .ValueError message := by
  constructor
  · intro hmem
    obtain ⟨r, hr⟩ := (resolve_id_iff id).mpr hmem
    rw [h] at hr
    cases hr
  · unfold resolve_characteristic at h
    dsimp only at h
    split at h
    · injection h with h
      exact ⟨_, h.symm⟩
    · cases h

/-! ## The client -/

/-- What one `sendall` does. -/
inductive Send where
  | ok
  | timeout
  | oserror (message : String)
  deriving DecidableEq, Repr

/-- What one `recv` does. No data is the end of the stream. -/
inductive Recv where
  | chunk (data : List UInt8)
  | timeout
  | oserror (message : String)
  deriving DecidableEq, Repr

/-- One record of the GATT transcript: the fields `_record` emits. -/
structure TranscriptRecord where
  direction : String
  kind : String
  characteristic : String
  characteristic_id : ℕ
  payload : List UInt8
  operation : Option ℤ
  status : Option UInt8
  deriving DecidableEq, Repr

/-- A `GattClient` with an open socket. `sent` is what its socket has taken, one
entry for each request frame; the transcript is absent if none was asked for. -/
structure GattClient where
  host : String
  port : ℕ
  parser : GattFrameParser
  responses : List GattResponse
  notifications : List GattNotification
  transcript : Option (List TranscriptRecord)
  sent : List (List UInt8)

/-- `GattClient.__init__`; `connects` is whether the socket factory returns. -/
def GattClient.init (host : String) (port : ℤ) (timeout : ℚ)
    (transcript : Option (List TranscriptRecord)) (connects : Bool) :
    Except GattExc GattClient :=
  if host = "" then .error (.ValueError "host cannot be empty")
  else if ¬ (1 ≤ port ∧ port ≤ 65535) then
    .error (.ValueError "port must be between 1 and 65535")
  else if timeout ≤ 0 then .error (.ValueError "timeout must be positive")
  else if !connects then
    .error (.GattTimeout s!"timed out connecting to GATT bridge {host}:{port}")
  else
    .ok ⟨host, port.toNat, ⟨MAX_RESPONSE_PAYLOAD, MAX_RESPONSE_PAYLOAD_le, []⟩, [], [], transcript,
      []⟩

/-- A new client has sent nothing and holds nothing, and its parser takes payloads of
up to `MAX_RESPONSE_PAYLOAD` bytes. -/
theorem GattClient.init_eq {host : String} {port : ℤ} {timeout : ℚ}
    {transcript : Option (List TranscriptRecord)} {connects : Bool} {c : GattClient}
    (h : GattClient.init host port timeout transcript connects = .ok c) :
    c.parser = ⟨MAX_RESPONSE_PAYLOAD, MAX_RESPONSE_PAYLOAD_le, []⟩ ∧ c.responses = [] ∧
      c.sent = [] ∧ c.notifications = [] := by
  unfold GattClient.init at h
  split_ifs at h
  injection h with h
  subst h
  exact ⟨rfl, rfl, rfl, rfl⟩

/-- `GattClient._record`. -/
def GattClient._record (c : GattClient) (record : TranscriptRecord) : GattClient :=
  { c with transcript := c.transcript.map (· ++ [record]) }

@[simp] theorem GattClient._record_responses (c : GattClient) (r : TranscriptRecord) :
    (c._record r).responses = c.responses := rfl

@[simp] theorem GattClient._record_notifications (c : GattClient) (r : TranscriptRecord) :
    (c._record r).notifications = c.notifications := rfl

@[simp] theorem GattClient._record_sent (c : GattClient) (r : TranscriptRecord) :
    (c._record r).sent = c.sent := rfl

/-- The loop over the frames of one chunk in `_receive`. -/
def GattClient.dispatch (c : GattClient) : List GattFrame → Except GattExc Unit × GattClient
  | [] => (.ok (), c)
  | .notification frame :: frames =>
    match resolve_characteristic (.id frame.characteristic.toNat) with
    | .error e => (.error e, c)
    | .ok (name, _) =>
      ({ c with notifications := c.notifications ++ [frame] }._record
        ⟨"receive", "notify", name, frame.characteristic.toNat, frame.payload, none, none⟩).dispatch
        frames
  | .response frame :: frames =>
    { c with responses := c.responses ++ [frame] }.dispatch frames

/-- `GattClient._receive`. -/
def GattClient._receive (c : GattClient) : Recv → Except GattExc Unit × GattClient
  | .timeout =>
    (.error (.GattTimeout s!"timed out waiting for GATT bridge {c.host}:{c.port}"), c)
  | .oserror message => (.error (.OSError message), c)
  | .chunk [] =>
    if c.parser.pending_bytes ≠ 0 then
      (.error (.GattProtocolError "GATT bridge closed with a fragmented frame"), c)
    else (.error (.GattProtocolError "GATT bridge closed before a response"), c)
  | .chunk data =>
    -- the frames have left the parser by the time the loop below may raise
    match c.parser.feed data with
    | (.error e, parser) => (.error e, { c with parser := parser })
    | (.ok frames, parser) => { c with parser := parser }.dispatch frames

/-- How a call ends: it may still be inside `recv`. -/
abbrev Ended (α : Type) : Type := Await.Ended GattExc α

/-- `self.responses.popleft()`, if there is one. -/
def GattClient.popResponse (c : GattClient) : Option (GattResponse × GattClient) :=
  match c.responses with
  | [] => none
  | response :: responses => some (response, { c with responses := responses })

/-- `self.notifications.popleft()`, if there is one. -/
def GattClient.popNotification (c : GattClient) : Option (GattNotification × GattClient) :=
  match c.notifications with
  | [] => none
  | frame :: frames => some (frame, { c with notifications := frames })

/-- `while not self.responses: self._receive()`, then `popleft`. -/
def GattClient.awaitResponse (c : GattClient) (script : List Recv) :
    Ended GattResponse × GattClient × List Recv :=
  Await.await GattClient.popResponse GattClient._receive c script

/-- `GattClient.next_notification`. -/
def GattClient.next_notification (c : GattClient) (script : List Recv) :
    Ended GattNotification × GattClient × List Recv :=
  Await.await GattClient.popNotification GattClient._receive c script

theorem GattClient.popResponse_eq {c c' : GattClient} {r : GattResponse}
    (h : c.popResponse = some (r, c')) :
    ∃ rs, c.responses = r :: rs ∧ c' = { c with responses := rs } := by
  unfold GattClient.popResponse at h
  rcases hc : c.responses with _ | ⟨r', rs⟩ <;> rw [hc] at h
  · cases h
  · injection h with h
    injection h with hr hc'
    exact ⟨rs, by rw [hr], hc'.symm⟩

theorem GattClient.popNotification_eq {c c' : GattClient} {n : GattNotification}
    (h : c.popNotification = some (n, c')) :
    ∃ ns, c.notifications = n :: ns ∧ c' = { c with notifications := ns } := by
  unfold GattClient.popNotification at h
  rcases hc : c.notifications with _ | ⟨n', ns⟩ <;> rw [hc] at h
  · cases h
  · injection h with h
    injection h with hn hc'
    exact ⟨ns, by rw [hn], hc'.symm⟩

/-- The checks at the head of `request`, and the frame they let through: name, ID
and bytes. -/
def requestFrame (characteristic : Characteristic) (operation : ℤ) (payload : List UInt8) :
    Except GattExc (String × ℕ × List UInt8) :=
  match resolve_characteristic characteristic with
  | .error e => .error e
  | .ok (name, characteristic_id) =>
    if operation ∉ [OP_WRITE, OP_READ, OP_WRITE_WITHOUT_RESPONSE] then
      .error (.ValueError
        "GATT operation must be write(0), read(1), or write-without-response(2)")
    else if payload.length > MAX_REQUEST_PAYLOAD then
      .error (.ValueError s!"GATT payload exceeds {MAX_REQUEST_PAYLOAD} bytes")
    else if operation = OP_READ ∧ payload ≠ [] then
      .error (.ValueError "GATT reads cannot include a payload")
    else
      .ok (name, characteristic_id,
        UInt8.ofNat characteristic_id :: UInt8.ofNat operation.toNat ::
          (le16 payload.length ++ payload))

/-- A client that is about to send a request frame: the transcript has it. -/
def GattClient.recordRequest (c : GattClient) (name : String) (characteristic_id : ℕ)
    (operation : ℤ) (payload : List UInt8) : GattClient :=
  c._record ⟨"send", "request", name, characteristic_id, payload, some operation, none⟩

/-- `GattClient.request`. -/
def GattClient.request (c : GattClient) (characteristic : Characteristic) (operation : ℤ)
    (payload : List UInt8) (send : Send) (script : List Recv) :
    Ended (Option GattResponse) × GattClient × List Recv :=
  match requestFrame characteristic operation payload with
  | .error e => (.raised e, c, script)
  | .ok (name, characteristic_id, frame) =>
    -- the transcript has the request whether or not the socket takes it
    let c := c.recordRequest name characteristic_id operation payload
    match send with
    | .timeout =>
      (.raised (.GattTimeout s!"timed out sending GATT request to {c.host}:{c.port}"), c, script)
    | .oserror message => (.raised (.OSError message), c, script)
    | .ok =>
      let c := { c with sent := c.sent ++ [frame] }
      if operation = OP_WRITE_WITHOUT_RESPONSE then (.returned none, c, script)
      else
        match c.awaitResponse script with
        | (.returned response, c, script) =>
          (.returned (some response),
            c._record ⟨"receive", "response", name, characteristic_id, response.payload, none,
              some response.status⟩,
            script)
        | (.raised e, c, script) => (.raised e, c, script)
        | (.waiting, c, script) => (.waiting, c, script)

/-! ## The four ways through `request` -/

section Request

variable {characteristic : Characteristic} {operation : ℤ} {payload : List UInt8}
  {name : String} {id : ℕ} {frame : List UInt8} (c : GattClient) (script : List Recv)

/-- The client once its request frame is on the wire. -/
def GattClient.sending (c : GattClient) (name : String) (id : ℕ) (operation : ℤ)
    (payload frame : List UInt8) : GattClient :=
  { c.recordRequest name id operation payload with sent := c.sent ++ [frame] }

@[simp] theorem GattClient.sending_sent :
    (c.sending name id operation payload frame).sent = c.sent ++ [frame] := rfl

/-- Refused: nothing is recorded and nothing is sent. -/
theorem request_refused {e : GattExc} (send : Send)
    (h : requestFrame characteristic operation payload = .error e) :
    c.request characteristic operation payload send script = (.raised e, c, script) := by
  rw [GattClient.request, h]

/-- The socket does not take the frame. -/
theorem request_send_failed {send : Send}
    (h : requestFrame characteristic operation payload = .ok (name, id, frame))
    (hsend : send ≠ .ok) :
    ∃ e, c.request characteristic operation payload send script =
      (.raised e, c.recordRequest name id operation payload, script) := by
  rw [GattClient.request, h]
  cases send with
  | ok => exact absurd rfl hsend
  | timeout => exact ⟨_, rfl⟩
  | oserror message => exact ⟨_, rfl⟩

/-- A write without response is over once it is sent. -/
theorem request_unanswered
    (h : requestFrame characteristic operation payload = .ok (name, id, frame))
    (hop : operation = OP_WRITE_WITHOUT_RESPONSE) :
    c.request characteristic operation payload .ok script =
      (.returned none, c.sending name id operation payload frame, script) := by
  rw [GattClient.request, h]
  exact if_pos hop

/-- A read or a write waits for a response. -/
theorem request_answered
    (h : requestFrame characteristic operation payload = .ok (name, id, frame))
    (hop : operation ≠ OP_WRITE_WITHOUT_RESPONSE) :
    c.request characteristic operation payload .ok script =
      match (c.sending name id operation payload frame).awaitResponse script with
      | (.returned response, c, script) =>
        (.returned (some response),
          c._record ⟨"receive", "response", name, id, response.payload, none,
            some response.status⟩,
          script)
      | (.raised e, c, script) => (.raised e, c, script)
      | (.waiting, c, script) => (.waiting, c, script) := by
  rw [GattClient.request, h]
  exact if_neg hop

end Request

end Ptlab.Gatt
