/-
`BleControlClient` (`src/ptlab/control.py`) on a socket whose other end answers.

The server answers the command number `k` with the line `server k`. The socket
has the bytes that are on their way: a command that is sent puts its answer
behind them, and a `recv` hands over some of them. So an answer never arrives
before its command was sent, and otherwise it arrives in any pieces at any time.
-/
import Ptlab.Lib.Await
import Ptlab.Control.Response

set_option autoImplicit false

namespace Ptlab.Control

/-! ## The socket -/

/-- What one `sendall` does. -/
inductive Send where
  | ok
  | timeout
  | oserror (message : String)
  deriving DecidableEq, Repr

/-- What one `recv` hands over. No data is the end of the stream. -/
inductive Recv where
  | chunk (data : List UInt8)
  | timeout
  | oserror (message : String)
  deriving DecidableEq, Repr

/-- What happens while the client is in `recv`: up to `size` of the bytes on
their way arrive, or something else ends it. -/
inductive Arrival where
  | bytes (size : ℕ)
  | timeout
  | closed
  | oserror (message : String)
  deriving DecidableEq, Repr

/-- The socket. `sent` is what it has taken, one entry for each command. -/
structure Socket where
  sent : List (List UInt8)
  inflight : List UInt8
  deriving DecidableEq, Repr

/-- `sendall` of a command, and the server's answer. -/
def Socket.sendall (server : ℕ → List UInt8) (socket : Socket) (data : List UInt8) : Socket where
  sent := socket.sent ++ [data]
  inflight := socket.inflight ++ (server socket.sent.length ++ [NEWLINE])

/-- `recv(4096)`. It does not return while nothing is on its way. -/
def Socket.recv (socket : Socket) : Arrival → Option Recv × Socket
  | .bytes size =>
    let data := socket.inflight.take (min size 4096)
    (if data = [] then none else some (.chunk data),
      { socket with inflight := socket.inflight.drop (min size 4096) })
  | .timeout => (some .timeout, socket)
  | .closed => (some (.chunk []), socket)
  | .oserror message => (some (.oserror message), socket)

/-! ## The client -/

/-- One record of the transcript. -/
inductive TranscriptRecord where
  | command (line : String)
  | response (line : String) (ok : Bool) (message : String) (values : List (String × String))
  deriving DecidableEq, Repr

/-- A `BleControlClient` with an open socket. -/
structure BleControlClient where
  host : String
  port : ℕ
  transcript : Option (List TranscriptRecord)
  socket : Socket
  parser : LineParser
  lines : List String

/-- `BleControlClient.__init__`; `connects` is whether the socket factory
returns. -/
def BleControlClient.init (host : String) (port : ℤ) (timeout : ℚ)
    (transcript : Option (List TranscriptRecord)) (connects : Bool) :
    Except ControlExc BleControlClient :=
  if host = "" then .error (.ValueError "host cannot be empty")
  else if ¬ (1 ≤ port ∧ port ≤ 65535) then
    .error (.ValueError "port must be between 1 and 65535")
  else if timeout ≤ 0 then .error (.ValueError "timeout must be positive")
  else if !connects then
    .error (.ControlTimeout s!"timed out connecting to BLE control {host}:{port}")
  else
    .ok ⟨host, port.toNat, transcript, ⟨[], []⟩, ⟨MAX_CONTROL_LINE, by decide, []⟩, []⟩

/-- `transcript.emit`, if there is a transcript. -/
def BleControlClient.emit (c : BleControlClient) (record : TranscriptRecord) : BleControlClient :=
  { c with transcript := c.transcript.map (· ++ [record]) }

/-- `self.lines.pop(0)`, if there is one. -/
def BleControlClient.popLine (c : BleControlClient) : Option (String × BleControlClient) :=
  match c.lines with
  | [] => none
  | line :: lines => some (line, { c with lines := lines })

def closedBeforeResponse : ControlExc :=
  .ControlProtocolError "BLE-control connection closed before a response"

/-- What a turn of the loop of `_next_line` does with what `recv` returned. -/
def BleControlClient.received (c : BleControlClient) : Recv →
    Except ControlExc Unit × BleControlClient
  | .timeout =>
    (.error (.ControlTimeout s!"timed out waiting for BLE control {c.host}:{c.port}"), c)
  | .oserror message => (.error (.OSError message), c)
  | .chunk [] => (.error closedBeforeResponse, c)
  | .chunk data =>
    match c.parser.feed data with
    | (.error e, parser) => (.error e, { c with parser := parser })
    | (.ok lines, parser) => (.ok (), { c with parser := parser, lines := c.lines ++ lines })

/-- A turn of the loop of `_next_line`. -/
def BleControlClient.receive (c : BleControlClient) (arrival : Arrival) :
    Except ControlExc Unit × BleControlClient :=
  match c.socket.recv arrival with
  | (none, socket) => (.ok (), { c with socket := socket })
  | (some r, socket) => { c with socket := socket }.received r

/-- How a call ends: it may still be inside `recv`. -/
abbrev Ended (α : Type) : Type := Await.Ended ControlExc α

/-- `BleControlClient._next_line`. -/
def BleControlClient._next_line (c : BleControlClient) (script : List Arrival) :
    Ended String × BleControlClient × List Arrival :=
  Await.await BleControlClient.popLine BleControlClient.receive c script

/-- Waiting sends nothing. -/
theorem receive_sent (c : BleControlClient) (arrival : Arrival) :
    (c.receive arrival).2.socket.sent = c.socket.sent := by
  have hreceived : ∀ (c' : BleControlClient) (r : Recv),
      (c'.received r).2.socket = c'.socket := by
    intro c' r
    rcases r with (_ | ⟨x, t⟩) | _ | message
    · rfl
    · rw [BleControlClient.received]
      · rcases c'.parser.feed (x :: t) with ⟨e | lines, parser⟩ <;> rfl
      · simp
    · rfl
    · rfl
  unfold BleControlClient.receive
  cases arrival with
  | bytes size =>
      rw [Socket.recv]
      -- nothing in flight: the call blocks until its timeout
      by_cases hnil : c.socket.inflight.take (min size 4096) = []
      · rw [if_pos hnil]
      · rw [if_neg hnil]
        dsimp only
        rw [hreceived]
  | timeout => exact congrArg Socket.sent (hreceived _ _)
  | closed => exact congrArg Socket.sent (hreceived _ _)
  | oserror message => exact congrArg Socket.sent (hreceived _ _)

theorem next_line_sent (c : BleControlClient) (script : List Arrival) :
    (c._next_line script).2.1.socket.sent = c.socket.sent := by
  refine Await.await_rule (I := fun c₁ _ => c₁.socket.sent = c.socket.sent)
    (Q := fun _ c₁ _ => c₁.socket.sent = c.socket.sent) ?_ (fun _ h => h) ?_ ?_ script c rfl
  · intro c₁ script₁ line c₂ hsent hpop
    unfold BleControlClient.popLine at hpop
    rcases hlines : c₁.lines with _ | ⟨first, lines⟩ <;> rw [hlines] at hpop
    · cases hpop
    · injection hpop with hpop
      injection hpop with _ hc
      rw [← hc]
      exact hsent
  · intro c₁ arrival script₁ e c₂ hsent hreceive
    have hturn := receive_sent c₁ arrival
    rw [hreceive] at hturn
    exact hturn.trans hsent
  · intro c₁ arrival script₁ c₂ hsent hreceive
    have hturn := receive_sent c₁ arrival
    rw [hreceive] at hturn
    exact hturn.trans hsent

/-! ## Commands -/

/-- `text.strip()`. -/
def strip (text : String) : String :=
  String.ofList (((text.toList.dropWhile isSpace).reverse.dropWhile isSpace).reverse)

/-- `text.encode("utf-8")`. -/
def encoded (text : String) : List UInt8 := Utf8.encode text.toList

/-- The checks at the head of `command`: what they raise. -/
def refusal (command : String) : Option ControlExc :=
  if command = "" ∨ strip command ≠ command ∨ LINE_FEED ∈ command.toList ∨
      RETURN ∈ command.toList then
    some (.ValueError "BLE-control command must be one non-empty trimmed line")
  else if (encoded command).length > MAX_CONTROL_LINE then
    some (.ValueError s!"BLE-control command exceeds {MAX_CONTROL_LINE} bytes")
  else none

/-- `BleControlClient.command`. -/
def BleControlClient.command (py : Builtins) (server : ℕ → List UInt8) (c : BleControlClient)
    (command : String) (allow_error : Bool) (send : Send) (script : List Arrival) :
    Ended (String × List (String × ControlValue)) × BleControlClient × List Arrival :=
  match refusal command with
  | some e => (.raised e, c, script)
  | none =>
    let c := c.emit (.command command)
    match send with
    | .timeout =>
      (.raised (.ControlTimeout s!"timed out sending BLE-control command {py.repr command}"), c,
        script)
    | .oserror message => (.raised (.OSError message), c, script)
    | .ok =>
      let c := { c with socket := c.socket.sendall server (encoded command ++ [NEWLINE]) }
      match c._next_line script with
      | (.raised e, c, script) => (.raised e, c, script)
      | (.waiting, c, script) => (.waiting, c, script)
      | (.returned line, c, script) =>
        match parse_control_line py line with
        | .error e => (.raised e, c, script)
        | .ok (ok, message, values) =>
          let c := c.emit (.response line ok message values)
          if !ok && !allow_error then (.raised (.ControlError s!"{command}: {line}"), c, script)
          else (.returned (message, coerce_control_values py values), c, script)

/-! ## What a call makes of its line -/

/-- How `command` ends once it has taken a line: a function of that line. -/
def answerOf (py : Builtins) (command : String) (allow_error : Bool) (line : String) :
    Ended (String × List (String × ControlValue)) :=
  match parse_control_line py line with
  | .error e => .raised e
  | .ok (ok, message, values) =>
    if !ok && !allow_error then .raised (.ControlError s!"{command}: {line}")
    else .returned (message, coerce_control_values py values)

section Command

variable (py : Builtins) (server : ℕ → List UInt8) (c : BleControlClient) {command : String}
  (allow_error : Bool) (script : List Arrival)

/-- The client whose command is on its way. -/
def BleControlClient.sending (c : BleControlClient) (server : ℕ → List UInt8) (command : String) :
    BleControlClient :=
  { c.emit (.command command) with
    socket := c.socket.sendall server (encoded command ++ [NEWLINE]) }

theorem command_refused {e : ControlExc} (h : refusal command = some e) (send : Send) :
    c.command py server command allow_error send script = (.raised e, c, script) := by
  rw [BleControlClient.command, h]

theorem refusal_eq {e : ControlExc} (h : refusal command = some e) :
    ∃ text, e = .ValueError text := by
  unfold refusal at h
  split_ifs at h
  · exact ⟨_, (Option.some.inj h).symm⟩
  · exact ⟨_, (Option.some.inj h).symm⟩

theorem command_send_failed (h : refusal command = none) {send : Send} (hsend : send ≠ .ok) :
    ∃ e, c.command py server command allow_error send script =
      (.raised e, c.emit (.command command), script) ∧ ∀ message, e ≠ .ControlError message := by
  rw [BleControlClient.command, h]
  cases send with
  | ok => exact absurd rfl hsend
  | timeout => exact ⟨_, rfl, by simp⟩
  | oserror message => exact ⟨_, rfl, by simp⟩

/-- **`command`, once the command is on its way.** It ends as the wait for a line
does, or as the line says. -/
theorem command_sent (h : refusal command = none) :
    match (c.sending server command)._next_line script with
    | (.raised e, c', script') =>
      c.command py server command allow_error .ok script = (.raised e, c', script')
    | (.waiting, c', script') =>
      c.command py server command allow_error .ok script = (.waiting, c', script')
    | (.returned line, c', script') => ∃ transcript,
      c.command py server command allow_error .ok script =
        (answerOf py command allow_error line, { c' with transcript := transcript }, script') := by
  -- the part of `command` behind the checks of its argument
  have hcommand : c.command py server command allow_error .ok script =
      match (c.sending server command)._next_line script with
      | (.raised e, c, script) => (.raised e, c, script)
      | (.waiting, c, script) => (.waiting, c, script)
      | (.returned line, c, script) =>
        match parse_control_line py line with
        | .error e => (.raised e, c, script)
        | .ok (ok, message, values) =>
          let c := c.emit (.response line ok message values)
          if !ok && !allow_error then (.raised (.ControlError s!"{command}: {line}"), c, script)
          else (.returned (message, coerce_control_values py values), c, script) := by
    rw [BleControlClient.command, h]
    rfl
  rw [hcommand]
  rcases (c.sending server command)._next_line script with ⟨line | e | _, c', script'⟩
  · dsimp only
    unfold answerOf
    rcases parse_control_line py line with e | ⟨ok, message, values⟩
    · exact ⟨c'.transcript, rfl⟩
    · refine ⟨(c'.emit (.response line ok message values)).transcript, ?_⟩
      dsimp only
      split_ifs <;> rfl
  · rfl
  · rfl

/-- How a call ends that takes a line: not in `ControlTimeout`. -/
theorem answerOf_no_timeout (command : String) (line : String) (message : String) :
    answerOf py command allow_error line ≠ .raised (.ControlTimeout message) := by
  unfold answerOf
  rcases hparse : parse_control_line py line with e | ⟨ok, message', values⟩
  · rcases parse_control_line_error hparse with ⟨text, rfl⟩ | ⟨text, rfl⟩ <;> simp
  · dsimp only
    split_ifs <;> simp

/-- **What `command` sends**: the command with a newline, and nothing else. -/
theorem command_sent_wire (h : refusal command = none) :
    (c.command py server command allow_error .ok script).2.1.socket.sent =
      c.socket.sent ++ [encoded command ++ [NEWLINE]] := by
  have hcommand := command_sent py server c allow_error script h
  have hnext : ((c.sending server command)._next_line script).2.1.socket.sent =
      c.socket.sent ++ [encoded command ++ [NEWLINE]] := next_line_sent _ script
  rcases hwait : (c.sending server command)._next_line script with ⟨line | e | _, c', script'⟩ <;>
    rw [hwait] at hcommand hnext <;> dsimp only at hcommand hnext
  · obtain ⟨transcript, hcommand⟩ := hcommand
    rw [hcommand, ← hnext]
  · rw [hcommand, ← hnext]
  · rw [hcommand, ← hnext]

/-- A command that is sent is one more on the socket's list. -/
theorem command_sent_length (h : refusal command = none) :
    (c.command py server command allow_error .ok script).2.1.socket.sent.length =
      c.socket.sent.length + 1 := by
  rw [command_sent_wire py server c allow_error script h]
  exact List.length_append

end Command

end Ptlab.Control
