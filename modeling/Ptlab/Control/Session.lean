/-
A session of one `BleControlClient` with the control server: which line a command
takes.

A line carries no number, so the client pairs by position, and what it holds
lives on when a call ends early. `InSync` is the invariant: which answers have
been taken, which are queued, and which are in the buffer or on their way. A call
that times out leaves its answer to the next one. A line over the limit falls
apart, and its end is taken for a line of its own. A line that is not UTF-8 takes
only itself away, as long as nothing else is on its way.
-/
import Ptlab.Control.Client

set_option autoImplicit false

open Deframe

namespace Ptlab.Control

/-! ## Sessions -/

/-- One call of `command`. -/
structure ControlCall where
  command : String
  allow_error : Bool
  send : Send
  deriving DecidableEq, Repr

/-- What a call did. `index` is the number of commands sent before it, and with
that the number of its own. -/
structure CallEvent where
  call : ControlCall
  index : ℕ
  outcome : Ended (String × List (String × ControlValue))
  deriving DecidableEq, Repr

/-- One call: what it did, the client it left, and the rest of the script. -/
def BleControlClient.call (py : Builtins) (server : ℕ → List UInt8) (c : BleControlClient)
    (script : List Arrival) (call : ControlCall) :
    CallEvent × BleControlClient × List Arrival :=
  let (outcome, c', script') := c.command py server call.command call.allow_error call.send script
  (⟨call, c.socket.sent.length, outcome⟩, c', script')

/-- The calls one after another on the same client, up to one that never ends. -/
def BleControlClient.session (py : Builtins) (server : ℕ → List UInt8) (c : BleControlClient) :
    List ControlCall → List Arrival → List CallEvent × BleControlClient × List Arrival
  | [], script => ([], c, script)
  | call :: calls, script =>
    let (event, c', script') := c.call py server script call
    if event.outcome = .waiting then ([event], c', script')
    else
      let (events, c'', script'') := c'.session py server calls script'
      (event :: events, c'', script'')

/-- The call returned or raised `ControlError` itself: it answers its caller. -/
def CallEvent.Answers (event : CallEvent) : Prop :=
  (∃ answer, event.outcome = .returned answer) ∨
    ∃ message, event.outcome = .raised (.ControlError message)

/-- The call ends as this line says. -/
def CallEvent.From (py : Builtins) (event : CallEvent) (raw : List UInt8) : Prop :=
  ∃ line, lineText raw = some line ∧
    event.outcome = answerOf py event.call.command event.call.allow_error line

/-- The call returned, was refused before anything was sent, or raised for no
other reason than its line: because it had not arrived, or for what it is. -/
def CallEvent.Timely (event : CallEvent) : Prop :=
  match event.outcome with
  | .returned _ => True
  | .raised e => refusal event.call.command ≠ none ∨
    (event.call.send = .ok ∧ e ≠ closedBeforeResponse ∧ ∀ message, e ≠ .OSError message)
  | .waiting => False

/-- The call put a command on its way, and timed out waiting for the line. -/
def CallEvent.gaveUp (event : CallEvent) : Bool :=
  match event.outcome with
  | .raised (.ControlTimeout _) => refusal event.call.command = none
  | _ => false

/-! ## In step -/

/-- What is assumed of the server: its answer to a command is one line, and not
an empty one. -/
structure OneLine (server : ℕ → List UInt8) : Prop where
  newline : ∀ k, NEWLINE ∉ server k
  nonempty : ∀ k, stripReturn (server k) ≠ []

/-- The client is in step with the server: `taken` answers are gone, the next
ones are queued, and the others are in the buffer and on their way. -/
structure InSync (server : ℕ → List UInt8) (taken : ℕ) (c : BleControlClient) : Prop where
  limit : c.parser.maximum_line = MAX_CONTROL_LINE
  queued : c.lines.map some = (List.range' taken c.lines.length).map (lineText ∘ server)
  ahead : ∃ n, taken + c.lines.length + n = c.socket.sent.length ∧
    c.parser.buffer ++ c.socket.inflight = (lineCodec MAX_CONTROL_LINE).encodeAll
      ((List.range' (taken + c.lines.length) n).map server)

/-- The answers so far are within the limit, and they are UTF-8 unless at most one
of them is still to be taken. -/
structure Tame (server : ℕ → List UInt8) (taken sent : ℕ) : Prop where
  length : ∀ i < sent, (server i).length ≤ MAX_CONTROL_LINE
  utf8 : sent ≤ taken + 1 ∨ ∀ i < sent, (lineText (server i)).isSome

/-- A new client is in step. -/
theorem inSync_start {host : String} {port : ℤ} {timeout : ℚ}
    {transcript : Option (List TranscriptRecord)} {c : BleControlClient}
    (hc : BleControlClient.init host port timeout transcript true = .ok c)
    (server : ℕ → List UInt8) : InSync server 0 c ∧ c.socket.sent = [] := by
  unfold BleControlClient.init at hc
  split_ifs at hc
  injection hc with hc
  subst hc
  exact ⟨⟨rfl, rfl, 0, rfl, rfl⟩, rfl⟩

/-! ## Reading lines -/

theorem lineText_ne_empty {raw : List UInt8} (h : stripReturn raw ≠ []) :
    lineText raw ≠ some "" := by
  intro htext
  obtain ⟨cs, hcs, hempty⟩ := Option.map_eq_some_iff.mp htext
  have hnil : cs = [] := by
    have hl := congrArg String.toList hempty
    rwa [String.toList_ofList] at hl
  rw [hnil, Utf8.decodeStrict_eq_some] at hcs
  exact h hcs.symm

/-- Lines that are all UTF-8 and not empty are read one by one. -/
theorem readLines_texts {raws : List (List UInt8)} (hraws : ∀ raw ∈ raws, stripReturn raw ≠ [])
    (h : (readLines raws).2 = none) : (readLines raws).1.map some = raws.map lineText := by
  induction raws with
  | nil => rfl
  | cons raw raws ih =>
      rcases htext : lineText raw with _ | line
      · rw [readLines_bad htext] at h
        cases h
      · have hline : line ≠ "" := fun he =>
          lineText_ne_empty (hraws raw (List.mem_cons_self ..)) (he ▸ htext)
        rw [readLines_line htext] at h ⊢
        rw [if_pos hline, List.map_cons, List.map_cons, htext,
          ih (fun r hr => hraws r (List.mem_cons_of_mem _ hr)) h]

theorem readLines_none {raws : List (List UInt8)} (h : ∀ raw ∈ raws, (lineText raw).isSome) :
    (readLines raws).2 = none := by
  induction raws with
  | nil => rfl
  | cons raw raws ih =>
      obtain ⟨line, hline⟩ := Option.isSome_iff_exists.mp (h raw (List.mem_cons_self ..))
      rw [readLines_line hline]
      exact ih fun r hr => h r (List.mem_cons_of_mem _ hr)

section Sync

variable {server : ℕ → List UInt8} {taken : ℕ} {c c' : BleControlClient}

/-- In-step depends on the parser, the lines and what is on its way. -/
theorem InSync.of_eq (h : InSync server taken c) (hparser : c'.parser = c.parser)
    (hlines : c'.lines = c.lines) (hsocket : c'.socket = c.socket) : InSync server taken c' := by
  refine ⟨?_, ?_, ?_⟩
  · rw [hparser]; exact h.limit
  · rw [hlines]; exact h.queued
  · rw [hparser, hlines, hsocket]; exact h.ahead

/-- The client as it is when `data` has left the socket. -/
def BleControlClient.reading (c : BleControlClient) (inflight : List UInt8) : BleControlClient :=
  { c with socket := { c.socket with inflight := inflight } }

/-- What the parser sees of some bytes of the answers: the first of those that are
not queued yet, and the rest goes on with the others. -/
theorem InSync.view (h : InSync server taken c) (hserver : OneLine server)
    {data inflight : List UInt8} (hdata : data ++ inflight = c.socket.inflight) :
    ∃ n m, taken + c.lines.length + (n + m) = c.socket.sent.length ∧
      (c.parser.view data).items =
        (List.range' (taken + c.lines.length) n).map server ∧
      (c.parser.view data).rest ++ inflight = (lineCodec MAX_CONTROL_LINE).encodeAll
        ((List.range' (taken + c.lines.length + n) m).map server) := by
  obtain ⟨k, hk, hbytes⟩ := h.ahead
  rw [← hdata, ← List.append_assoc] at hbytes
  have hnew : ∀ raw ∈ (List.range' (taken + c.lines.length) k).map server, NEWLINE ∉ raw := by
    intro raw hraw
    obtain ⟨i, -, rfl⟩ := List.mem_map.mp hraw
    exact hserver.newline i
  obtain ⟨later, hitems, hrest⟩ := drain_stream hbytes hnew
  unfold LineParser.view
  rw [h.limit]
  -- the answers split where the items end
  have hlen := congrArg List.length hitems
  rw [List.length_map, List.length_range', List.length_append] at hlen
  rw [hlen, ← List.range'_append_1, List.map_append] at hitems
  obtain ⟨hfirst, hsecond⟩ := List.append_inj hitems (by simp)
  refine ⟨_, later.length, by omega, hfirst.symm, ?_⟩
  rw [hrest]
  exact congrArg (lineCodec MAX_CONTROL_LINE).encodeAll hsecond.symm

/-- **The step.** A feed that returns keeps the client in step. -/
theorem InSync.feed_ok (h : InSync server taken c) (hserver : OneLine server)
    {data inflight : List UInt8} (hdata : data ++ inflight = c.socket.inflight)
    {lines : List String} {parser : LineParser} (hfeed : c.parser.feed data = (.ok lines, parser)) :
    InSync server taken
      { c.reading inflight with parser := parser, lines := c.lines ++ lines } := by
  obtain ⟨n, m, hsent, hitems, hrest⟩ := h.view hserver hdata
  rw [feed_eq] at hfeed
  rcases hread : (readLines (c.parser.view data).items).2 with _ | later <;> rw [hread] at hfeed
  · rcases herror : (c.parser.view data).error with _ | ⟨⟩ <;> rw [herror] at hfeed
    · injection hfeed with hlines hparser
      injection hlines with hlines
      subst hlines hparser
      -- the new items are the answers behind those that were read, `n` of them
      have htexts := readLines_texts (fun raw hraw => by
        rw [hitems] at hraw
        obtain ⟨i, -, rfl⟩ := List.mem_map.mp hraw
        exact hserver.nonempty i) hread
      rw [hitems, List.map_map] at htexts
      have hlen : (readLines (c.parser.view data).items).1.length = n := by
        have hl := congrArg List.length htexts
        rwa [← hitems, List.length_map, List.length_map, List.length_range'] at hl
      refine ⟨h.limit, ?_, m, ?_, ?_⟩
      · dsimp only
        rw [List.map_append, h.queued, List.length_append, hlen, ← List.range'_append_1,
          List.map_append, hitems, htexts]
      · dsimp only
        rw [List.length_append, hlen, ← Nat.add_assoc, Nat.add_assoc]
        exact hsent
      · dsimp only
        rw [List.length_append, hlen, ← Nat.add_assoc]
        exact hrest
    · cases hfeed
  · cases hfeed

/-- Within the limit no line is refused. -/
theorem InSync.error_none (h : InSync server taken c) (hserver : OneLine server)
    {data inflight : List UInt8} (hdata : data ++ inflight = c.socket.inflight)
    (hlength : ∀ i < c.socket.sent.length, (server i).length ≤ MAX_CONTROL_LINE) :
    (c.parser.view data).error = none := by
  obtain ⟨k, hk, hbytes⟩ := h.ahead
  have hvalid : ∀ raw ∈ (List.range' (taken + c.lines.length) k).map server,
      (lineCodec MAX_CONTROL_LINE).Valid raw := by
    intro raw hraw
    obtain ⟨i, hi, rfl⟩ := List.mem_map.mp hraw
    obtain ⟨-, hlt⟩ := List.mem_range'_1.mp hi
    exact ⟨hserver.newline i, hlength i (by omega)⟩
  have hdrain := (lineCodec MAX_CONTROL_LINE).drain_encode _ hvalid []
  rw [List.append_nil, ← hbytes, ← hdata, ← List.append_assoc] at hdrain
  unfold LineParser.view
  rw [h.limit]
  exact error_none_of_append _ (congrArg Drained.error hdrain)

/-- A feed that raises takes one answer away, if the answers are tame: the next
one, which is not UTF-8 and the only one left. -/
theorem InSync.feed_error (h : InSync server taken c) (hserver : OneLine server)
    {data inflight : List UInt8} (hdata : data ++ inflight = c.socket.inflight)
    {e : ControlExc} {parser : LineParser} (hfeed : c.parser.feed data = (.error e, parser)) :
    (∃ text, e = .ControlProtocolError text) ∧ (Tame server taken c.socket.sent.length →
      InSync server (taken + 1) { c.reading inflight with parser := parser }) := by
  obtain ⟨n, m, hsent, hitems, hrest⟩ := h.view hserver hdata
  rw [feed_eq] at hfeed
  rcases hread : (readLines (c.parser.view data).items).2 with _ | later <;> rw [hread] at hfeed
  · rcases herror : (c.parser.view data).error with _ | ⟨⟩ <;> rw [herror] at hfeed
    · cases hfeed
    · injection hfeed with he _
      injection he with he
      refine ⟨⟨_, he.symm⟩, fun htame => ?_⟩
      exact absurd (herror.symm.trans (h.error_none hserver hdata htame.length)) (by simp)
  · injection hfeed with he hparser
    injection he with he
    refine ⟨⟨_, he.symm⟩, fun htame => ?_⟩
    rcases htame.utf8 with hone | hall
    · -- nothing else is queued or on its way
      have hn : n ≠ 0 := by
        rintro rfl
        rw [hitems] at hread
        cases hread
      obtain ⟨rfl, rfl, hlines⟩ : n = 1 ∧ m = 0 ∧ c.lines.length = 0 := by omega
      rw [hlines, Nat.add_zero] at hitems hrest
      have hbad : lineText (server taken) = none := by
        by_contra hsome
        obtain ⟨line, hline⟩ := Option.ne_none_iff_exists'.mp hsome
        rw [hitems, List.range'_one, List.map_singleton, readLines_line hline] at hread
        cases hread
      rw [hitems, List.range'_one, List.map_singleton, readLines_bad hbad] at hread
      obtain rfl := Option.some.inj hread
      subst hparser
      refine ⟨h.limit, ?_, 0, ?_, ?_⟩
      · dsimp only [BleControlClient.reading]
        rw [List.length_eq_zero_iff.mp hlines]
        rfl
      · dsimp only [BleControlClient.reading]
        omega
      · dsimp only [BleControlClient.reading]
        rw [Codec.encodeAll_nil, List.nil_append, hrest]
        rfl
    · exfalso
      rw [readLines_none fun raw hraw => ?_] at hread
      · cases hread
      · rw [hitems] at hraw
        obtain ⟨i, hi, rfl⟩ := List.mem_map.mp hraw
        obtain ⟨-, hlt⟩ := List.mem_range'_1.mp hi
        exact hall i (by omega)

/-- What a turn of the loop that raises leaves. -/
inductive RaisedInStep (server : ℕ → List UInt8) (taken : ℕ) (c' : BleControlClient) :
    ControlExc → Prop
  /-- Nothing had arrived. -/
  | timeout (message : String) (h : InSync server taken c') :
      RaisedInStep server taken c' (.ControlTimeout message)
  /-- The next answer is gone. -/
  | line (text : String)
      (h : Tame server taken c'.socket.sent.length → InSync server (taken + 1) c') :
      RaisedInStep server taken c' (.ControlProtocolError text)
  | closed : RaisedInStep server taken c' closedBeforeResponse
  | oserror (message : String) : RaisedInStep server taken c' (.OSError message)

/-- What a turn of the loop leaves. -/
def AfterTurn (server : ℕ → List UInt8) (taken : ℕ) :
    Except ControlExc Unit × BleControlClient → Prop
  | (.ok (), c') => InSync server taken c'
  | (.error e, c') => RaisedInStep server taken c' e

/-- A turn that hands some bytes over. -/
theorem InSync.received (h : InSync server taken c) (hserver : OneLine server)
    {data inflight : List UInt8} (hdata : data ++ inflight = c.socket.inflight) (hne : data ≠ []) :
    AfterTurn server taken ((c.reading inflight).received (.chunk data)) := by
  obtain ⟨x, t, rfl⟩ := List.exists_cons_of_ne_nil hne
  have hparser : (c.reading inflight).parser = c.parser := rfl
  rw [BleControlClient.received, hparser]
  · rcases hfeed : c.parser.feed (x :: t) with ⟨e | lines, parser⟩
    · obtain ⟨⟨text, rfl⟩, hsync⟩ := h.feed_error hserver hdata hfeed
      exact .line text hsync
    · exact h.feed_ok hserver hdata hfeed
  · simp

theorem InSync.receive (h : InSync server taken c) (hserver : OneLine server) (arrival : Arrival) :
    AfterTurn server taken (c.receive arrival) := by
  unfold BleControlClient.receive
  cases arrival with
  | bytes size =>
      have hdata : c.socket.inflight.take (min size 4096) ++ c.socket.inflight.drop (min size 4096) =
        c.socket.inflight := List.take_append_drop _ _
      rw [Socket.recv]
      by_cases hnil : c.socket.inflight.take (min size 4096) = []
      · -- the socket goes on waiting
        rw [hnil, List.nil_append] at hdata
        rw [if_pos hnil, hdata]
        exact h.of_eq rfl rfl rfl
      · rw [if_neg hnil]
        exact h.received hserver hdata hnil
  | timeout => exact .timeout _ (h.of_eq rfl rfl rfl)
  | closed => exact .closed
  | oserror message => exact .oserror message

/-- Taking the first line takes the next answer. -/
theorem InSync.popLine (h : InSync server taken c) {line : String}
    (hpop : c.popLine = some (line, c')) :
    lineText (server taken) = some line ∧ InSync server (taken + 1) c' := by
  unfold BleControlClient.popLine at hpop
  rcases hlines : c.lines with _ | ⟨first, lines⟩ <;> rw [hlines] at hpop
  · cases hpop
  injection hpop with hpop
  injection hpop with hfirst hc
  subst hfirst hc
  have hqueued := h.queued
  rw [hlines, List.length_cons, List.range'_succ, List.map_cons, List.map_cons] at hqueued
  injection hqueued with hline hqueued
  obtain ⟨n, hsent, hbytes⟩ := h.ahead
  have hnext : taken + (lines.length + 1) = taken + 1 + lines.length := by omega
  rw [hlines, List.length_cons, hnext] at hsent hbytes
  exact ⟨hline.symm, h.limit, hqueued, n, hsent, hbytes⟩

/-- What the wait for a line leaves. -/
def AfterWait (server : ℕ → List UInt8) (taken : ℕ) : Ended String → BleControlClient → Prop
  | .returned line, c' => lineText (server taken) = some line ∧ InSync server (taken + 1) c'
  | .raised e, c' => RaisedInStep server taken c' e
  | .waiting, _ => True

/-- **The wait.** It takes the next answer, or leaves the client as its last turn
does. -/
theorem InSync.next_line (h : InSync server taken c) (hserver : OneLine server)
    (script : List Arrival) :
    AfterWait server taken (c._next_line script).1 (c._next_line script).2.1 := by
  refine Await.await_rule (I := fun c₁ _ => InSync server taken c₁)
    (Q := fun ended c₁ _ => AfterWait server taken ended c₁)
    (fun c₁ _ line c₂ hsync hpop => hsync.popLine hpop) (fun _ _ => trivial) ?_ ?_ script c h
  · intro c₁ arrival script₁ e c₂ hsync hreceive
    have hturn := hsync.receive hserver arrival
    rw [hreceive] at hturn
    exact hturn
  · intro c₁ arrival script₁ c₂ hsync hreceive
    have hturn := hsync.receive hserver arrival
    rw [hreceive] at hturn
    exact hturn

/-- A command that is sent puts its answer behind those on their way. -/
theorem InSync.sending (h : InSync server taken c) (command : String) :
    InSync server taken (c.sending server command) := by
  obtain ⟨n, hsent, hbytes⟩ := h.ahead
  refine ⟨h.limit, h.queued, n + 1, ?_, ?_⟩
  · dsimp only [BleControlClient.sending, Socket.sendall, BleControlClient.emit]
    rw [List.length_append, List.length_singleton, ← hsent]
    rfl
  · dsimp only [BleControlClient.sending, Socket.sendall, BleControlClient.emit]
    rw [← List.append_assoc, hbytes, List.range'_concat, List.map_append, Nat.one_mul, hsent]
    unfold Codec.encodeAll
    rw [List.flatMap_append, List.map_singleton, List.flatMap_singleton]
    rfl

end Sync

/-! ## One call -/

/-- What a call does to a client in step. If it answers its caller, it does so
from the first answer not taken yet. A timely call whose answers are tame leaves
the client in step, with as many commands unanswered as before, and one more if
it gave up. -/
structure KeepsStep (py : Builtins) (server : ℕ → List UInt8) (taken : ℕ) (c : BleControlClient)
    (event : CallEvent) (c' : BleControlClient) : Prop where
  index : event.index = c.socket.sent.length
  answer : event.Answers → event.From py (server taken)
  timely : event.Timely → Tame server taken c'.socket.sent.length →
    ∃ taken', InSync server taken' c' ∧ c'.socket.sent.length + taken =
      c.socket.sent.length + taken' + if event.gaveUp then 1 else 0

section Call

variable {py : Builtins} {server : ℕ → List UInt8} {taken : ℕ} {c : BleControlClient}

theorem not_answers_of_raised {event : CallEvent} {e : ControlExc}
    (h : event.outcome = .raised e) (he : ∀ message, e ≠ .ControlError message) :
    ¬ event.Answers := by
  rintro (⟨answer, hout⟩ | ⟨message, hout⟩)
  · rw [h] at hout
    cases hout
  · rw [h] at hout
    injection hout with hout
    exact he message hout

/-- A call that is refused changes nothing. -/
theorem InSync.call_refused (h : InSync server taken c) {call : ControlCall} {e : ControlExc}
    (hrefused : refusal call.command = some e) :
    KeepsStep py server taken c ⟨call, c.socket.sent.length, .raised e⟩ c := by
  obtain ⟨text, rfl⟩ := refusal_eq hrefused
  refine ⟨rfl, fun hanswers => absurd hanswers (not_answers_of_raised rfl (by simp)), ?_⟩
  intro _ _
  refine ⟨taken, h, ?_⟩
  simp [CallEvent.gaveUp]

/-- A call whose command is sent takes the next answer, or leaves it behind. -/
theorem InSync.call_sent (h : InSync server taken c) (hserver : OneLine server)
    (script : List Arrival) {call : ControlCall} (haccepted : refusal call.command = none) :
    KeepsStep py server taken c
      ⟨call, c.socket.sent.length,
        (c.command py server call.command call.allow_error .ok script).1⟩
      (c.command py server call.command call.allow_error .ok script).2.1 := by
  have hwait := (h.sending call.command).next_line hserver script
  have hcommand := command_sent py server c call.allow_error script haccepted
  have hlen := command_sent_length py server c call.allow_error script haccepted
  rcases hnext : (c.sending server call.command)._next_line script with
    ⟨line | e | _, c', script'⟩ <;> rw [hnext] at hwait hcommand <;> dsimp only at hwait hcommand
  · -- one more sent and one more taken
    obtain ⟨hline, hsync⟩ := hwait
    obtain ⟨transcript, hcommand⟩ := hcommand
    rw [hcommand] at hlen ⊢
    refine ⟨rfl, fun _ => ⟨line, hline, rfl⟩, fun _ _ => ⟨taken + 1, hsync.of_eq rfl rfl rfl, ?_⟩⟩
    have hgave : (⟨call, c.socket.sent.length,
        answerOf py call.command call.allow_error line⟩ : CallEvent).gaveUp = false := by
      unfold CallEvent.gaveUp
      dsimp only
      split
      · exact absurd ‹_› (answerOf_no_timeout py call.allow_error call.command line _)
      · rfl
    rw [hgave, hlen, if_neg Bool.false_ne_true]
    omega
  · rw [hcommand] at hlen ⊢
    refine ⟨rfl, ?_, fun htimely htame => ?_⟩
    · refine fun hanswers => absurd hanswers (not_answers_of_raised rfl ?_)
      cases hwait <;> simp [closedBeforeResponse]
    have hheld : e ≠ closedBeforeResponse ∧ ∀ message, e ≠ .OSError message := by
      rcases htimely with hno | ⟨-, hheld⟩
      · exact absurd haccepted hno
      · exact hheld
    rw [hlen]
    cases hwait with
    | timeout message hstill =>
        -- one more sent and none taken
        refine ⟨taken, hstill, ?_⟩
        simp only [CallEvent.gaveUp, haccepted, decide_true, if_true]
        omega
    | line text hgone =>
        refine ⟨taken + 1, hgone htame, ?_⟩
        simp only [CallEvent.gaveUp, Bool.false_eq_true, if_false]
        omega
    | closed => exact absurd rfl hheld.1
    | oserror message => exact absurd rfl (hheld.2 message)
  · rw [hcommand]
    refine ⟨rfl, ?_, fun htimely => htimely.elim⟩
    rintro (⟨answer, hout⟩ | ⟨message, hout⟩)
    · cases hout
    · cases hout

/-- **One call of a session.** -/
theorem InSync.call (h : InSync server taken c) (hserver : OneLine server)
    (script : List Arrival) (call : ControlCall) :
    KeepsStep py server taken c (c.call py server script call).1
      (c.call py server script call).2.1 := by
  unfold BleControlClient.call
  dsimp only
  rcases hrefusal : refusal call.command with _ | e
  · by_cases hsend : call.send = .ok
    · rw [hsend]
      exact h.call_sent hserver script hrefusal
    · -- not timely: part of the command may be on its way
      obtain ⟨e, hcommand, he⟩ := command_send_failed py server c call.allow_error script
        hrefusal hsend
      rw [hcommand]
      refine ⟨rfl, fun hanswers => absurd hanswers (not_answers_of_raised rfl he), ?_⟩
      rintro (hno | ⟨hok, -⟩)
      · exact absurd hrefusal hno
      · exact absurd hok hsend
  · rw [command_refused py server c call.allow_error script hrefusal]
    exact h.call_refused hrefusal

end Call

/-! ## Whole sessions -/

section Run

variable {py : Builtins} {server : ℕ → List UInt8}

/-- A call sends at most one command. -/
theorem call_sent_length (c : BleControlClient) (script : List Arrival) (call : ControlCall) :
    c.socket.sent.length ≤ (c.call py server script call).2.1.socket.sent.length ∧
      (c.call py server script call).2.1.socket.sent.length ≤ c.socket.sent.length + 1 := by
  unfold BleControlClient.call
  dsimp only
  rcases hrefusal : refusal call.command with _ | e
  · by_cases hsend : call.send = .ok
    · rw [hsend, command_sent_length py server c call.allow_error script hrefusal]
      exact ⟨Nat.le_succ _, le_rfl⟩
    · obtain ⟨e, hcommand, -⟩ := command_send_failed py server c call.allow_error script
        hrefusal hsend
      rw [hcommand]
      exact ⟨le_rfl, Nat.le_succ _⟩
  · rw [command_refused py server c call.allow_error script hrefusal]
    exact ⟨le_rfl, Nat.le_succ _⟩

/-- A session whose log is not empty: its first event is that of the first call,
and the others are those of the session that goes on from there. -/
theorem session_cons {c : BleControlClient} {call : ControlCall} {calls : List ControlCall}
    {script : List Arrival} {event : CallEvent} {events : List CallEvent}
    (h : (c.session py server (call :: calls) script).1 = event :: events) :
    event = (c.call py server script call).1 ∧ (events ≠ [] →
      ((c.call py server script call).2.1.session py server calls
        (c.call py server script call).2.2).1 = events) := by
  unfold BleControlClient.session at h
  rcases hcall : c.call py server script call with ⟨event', c', script'⟩
  rw [hcall] at h
  dsimp only at h
  split_ifs at h with hwait
  · injection h with hevent hevents
    exact ⟨hevent.symm, fun hne => absurd hevents.symm hne⟩
  · injection h with hevent hevents
    exact ⟨hevent.symm, fun _ => hevents⟩

/-- Calls are numbered upwards. -/
theorem session_index_le (calls : List ControlCall) :
    ∀ (c : BleControlClient) (script : List Arrival),
      ∀ event ∈ (c.session py server calls script).1, c.socket.sent.length ≤ event.index := by
  induction calls with
  | nil => intro c script event hevent; cases hevent
  | cons call calls ih =>
      intro c script event hevent
      rcases hlog : (c.session py server (call :: calls) script).1 with _ | ⟨first, events⟩
      · rw [hlog] at hevent
        cases hevent
      obtain ⟨hfirst, hrest⟩ := session_cons hlog
      rw [hlog] at hevent
      rcases List.mem_cons.mp hevent with rfl | hlater
      · rw [hfirst]
        rfl
      · have hin := hrest (List.ne_nil_of_mem hlater)
        rw [← hin] at hlater
        exact (call_sent_length c script call).1.trans (ih _ _ event hlater)

/-- **The run.** As long as the calls of a session are timely, each that answers
its caller does so from the answer as many places earlier as calls have given up
before. Once one has, the answers must be UTF-8 for that. -/
theorem session_from (hserver : OneLine server) (calls : List ControlCall) :
    ∀ (c : BleControlClient) (script : List Arrival) (taken lag : ℕ), InSync server taken c →
      c.socket.sent.length = taken + lag →
      ∀ pre event post, (c.session py server calls script).1 = pre ++ event :: post →
        (∀ e ∈ pre, e.Timely) → (∀ i < event.index, (server i).length ≤ MAX_CONTROL_LINE) →
        (lag + pre.countP CallEvent.gaveUp = 0 ∨
          ∀ i < event.index, (lineText (server i)).isSome) →
        event.Answers →
          event.From py (server (event.index - (lag + pre.countP CallEvent.gaveUp))) := by
  induction calls with
  | nil =>
      intro c script taken lag _ _ pre event post hlog
      cases pre <;> cases hlog
  | cons call calls ih =>
      intro c script taken lag hsync hlag pre event post hlog htimely hlength hutf8 hanswers
      have hstep := @InSync.call py server taken c hsync hserver script call
      cases pre with
      | nil =>
          -- this very call answers: `lag` more have been sent than answers taken
          obtain ⟨hevent, -⟩ := session_cons hlog
          subst hevent
          have hfrom := hstep.answer hanswers
          rw [hstep.index, hlag]
          simpa using hfrom
      | cons e pre =>
          obtain ⟨he, hrest⟩ := session_cons hlog
          have hlog' := hrest (by simp)
          have hindex : (c.call py server script call).2.1.socket.sent.length ≤ event.index :=
            session_index_le calls _ _ event (by rw [hlog']; simp)
          obtain ⟨-, hsent⟩ := @call_sent_length py server c script call
          have htame : Tame server taken
              (c.call py server script call).2.1.socket.sent.length := by
            refine ⟨fun i hi => hlength i (by omega), ?_⟩
            rcases hutf8 with hnone | hall
            · exact .inl (by omega)
            · exact .inr fun i hi => hall i (by omega)
          -- the session goes on, one more behind if this call gave up
          have hnow := htimely e (List.mem_cons_self ..)
          rw [he] at hnow
          obtain ⟨taken', hsync', hcount⟩ := hstep.timely hnow htame
          rw [← he] at hcount
          have hcountP : lag + (e :: pre).countP CallEvent.gaveUp =
              (lag + if e.gaveUp then 1 else 0) + pre.countP CallEvent.gaveUp := by
            rw [List.countP_cons]
            omega
          rw [hcountP] at hutf8 ⊢
          exact ih _ _ taken' _ hsync' (by omega) pre event post hlog'
            (fun x hx => htimely x (List.mem_cons_of_mem _ hx)) hlength hutf8 hanswers

end Run

/-! ## The contract -/

/-- **The pairing.** On a new client, after calls that returned, were refused, or
raised because their line had not arrived or for what it was, and answers within
the limit: a call that answers its caller does so from the answer to its own
command if no earlier call timed out waiting. If some did, it does so from the
answer as many places earlier, as long as the answers so far are UTF-8. -/
theorem command_pairing {host : String} {port : ℤ} {timeout : ℚ}
    {transcript : Option (List TranscriptRecord)} {c : BleControlClient}
    (hc : BleControlClient.init host port timeout transcript true = .ok c) (py : Builtins)
    {server : ℕ → List UInt8} (hserver : OneLine server) {calls : List ControlCall}
    {script : List Arrival} {pre post : List CallEvent} {event : CallEvent}
    (hlog : (c.session py server calls script).1 = pre ++ event :: post)
    (htimely : ∀ e ∈ pre, e.Timely)
    (hlength : ∀ i < event.index, (server i).length ≤ MAX_CONTROL_LINE)
    (hanswers : event.Answers) :
    ((∀ e ∈ pre, ¬ e.gaveUp) → event.From py (server event.index)) ∧
      ((∀ i < event.index, (lineText (server i)).isSome) →
        event.From py (server (event.index - pre.countP CallEvent.gaveUp))) := by
  -- nothing was sent, nothing is queued and nothing was lost
  obtain ⟨hsync, hsent⟩ := inSync_start hc server
  have hlag : c.socket.sent.length = 0 + 0 := by rw [hsent]; rfl
  have hrun := session_from hserver calls c script 0 0 hsync hlag pre event post hlog htimely
    hlength
  rw [Nat.zero_add] at hrun
  constructor
  · intro hnone
    have hzero := List.countP_eq_zero.mpr hnone
    have hfrom := hrun (.inl hzero) hanswers
    rwa [hzero] at hfrom
  · exact fun hall => hrun (.inr hall) hanswers

/-- Enough of Python for lines of words. -/
def plain : Builtins := ⟨fun text => "\x27" ++ text ++ "\x27", String.toInt?⟩

/-- A server that answers the first command with this line, and the others with
`OK b`. -/
def serverOf (first : List UInt8) : ℕ → List UInt8
  | 0 => first
  | _ + 1 => encoded "OK b"

theorem serverOf_oneLine {first : List UInt8} (hnew : NEWLINE ∉ first)
    (hne : stripReturn first ≠ []) : OneLine (serverOf first) := by
  refine ⟨fun k => ?_, fun k => ?_⟩
  · cases k with
    | zero => exact hnew
    | succ k =>
        have h : NEWLINE ∉ encoded "OK b" := by decide +kernel
        exact h
  · cases k with
    | zero => exact hne
    | succ k =>
        have h : stripReturn (encoded "OK b") ≠ [] := by decide +kernel
        exact h

/-- Two commands. -/
def twoCommands : List ControlCall := [⟨"QUERY", false, .ok⟩, ⟨"CONNECT", false, .ok⟩]

/-- The line of the first is not UTF-8, and the second takes its own. -/
theorem command_pairing_bad_line :
    ∃ c, BleControlClient.init "127.0.0.1" 1234 3 none true = .ok c ∧
      (c.session plain (serverOf [0xFF]) twoCommands [.bytes 1, .bytes 1, .bytes 3, .bytes 9]).1 =
        [⟨⟨"QUERY", false, .ok⟩, 0, .raised lineNotUtf8⟩,
          ⟨⟨"CONNECT", false, .ok⟩, 1, .returned ("b", [])⟩] ∧
      CallEvent.From plain ⟨⟨"CONNECT", false, .ok⟩, 1, .returned ("b", [])⟩
        (serverOf [0xFF] 1) := by
  obtain ⟨c, hc⟩ : ∃ c, BleControlClient.init "127.0.0.1" 1234 3 none true = .ok c := ⟨_, rfl⟩
  have hlog : (c.session plain (serverOf [0xFF]) twoCommands
      [.bytes 1, .bytes 1, .bytes 3, .bytes 9]).1 =
        [⟨⟨"QUERY", false, .ok⟩, 0, .raised lineNotUtf8⟩] ++
          ⟨⟨"CONNECT", false, .ok⟩, 1, .returned ("b", [])⟩ :: [] := by
    injection hc with hc
    subst hc
    decide +kernel
  have hserver := @serverOf_oneLine [0xFF] (by decide) (by decide)
  refine ⟨c, hc, hlog, (command_pairing hc plain hserver hlog ?_ ?_ (.inl ⟨_, rfl⟩)).1 ?_⟩
  · intro e he
    rw [List.mem_singleton.mp he]
    exact .inr ⟨rfl, by decide, fun message => by simp [lineNotUtf8]⟩
  · intro i hi
    obtain rfl : i = 0 := Nat.lt_one_iff.mp hi
    decide
  · intro e he
    rw [List.mem_singleton.mp he]
    decide

/-- A call that answers from another line than its own. -/
theorem not_from_own {event : CallEvent} {raw : List UInt8} {line : String}
    (hline : lineText raw = some line)
    (hne : event.outcome ≠ answerOf plain event.call.command event.call.allow_error line) :
    ¬ event.From plain raw := by
  rintro ⟨line', hline', hout⟩
  rw [hline] at hline'
  rw [← Option.some.inj hline'] at hout
  exact hne hout

/-- **Not always its own line.** After a command that timed out, the next one is
handed its line. After a line of 1028 bytes that was refused at the first 1026,
the next command is handed the two bytes left of it. -/
theorem stale_lines_are_taken :
    ∃ c, BleControlClient.init "127.0.0.1" 1234 3 none true = .ok c ∧
      (∃ e event, OneLine (serverOf (encoded "OK a")) ∧
        (c.session plain (serverOf (encoded "OK a")) twoCommands [.timeout, .bytes 10]).1 =
          [e, event] ∧
        e.Timely ∧ event.Answers ∧ ¬ event.From plain (serverOf (encoded "OK a") event.index)) ∧
      ∃ e event, OneLine (serverOf (List.replicate 1026 0x78 ++ encoded "OK")) ∧
        (c.session plain (serverOf (List.replicate 1026 0x78 ++ encoded "OK")) twoCommands
          [.bytes 1026, .bytes 10]).1 = [e, event] ∧
        e.Timely ∧ event.Answers ∧
        ¬ event.From plain
          (serverOf (List.replicate 1026 0x78 ++ encoded "OK") event.index) := by
  have hown : lineText (encoded "OK b") = some "OK b" := by decide +kernel
  refine ⟨_, rfl, ⟨⟨⟨"QUERY", false, .ok⟩, 0, .raised (.ControlTimeout
      "timed out waiting for BLE control 127.0.0.1:1234")⟩,
    ⟨⟨"CONNECT", false, .ok⟩, 1, .returned ("a", [])⟩,
    serverOf_oneLine (by decide +kernel) (by decide +kernel), by decide +kernel, ?_, .inl ⟨_, rfl⟩,
    not_from_own hown (by decide +kernel)⟩,
    ⟨⟨⟨"QUERY", false, .ok⟩, 0, .raised lineTooLong⟩,
    ⟨⟨"CONNECT", false, .ok⟩, 1, .returned ("", [])⟩,
    serverOf_oneLine (by decide +kernel) (by decide +kernel), by decide +kernel, ?_, .inl ⟨_, rfl⟩,
    not_from_own hown (by decide +kernel)⟩⟩
  · exact .inr ⟨rfl, by decide, fun message => by simp⟩
  · exact .inr ⟨rfl, by decide, fun message => by simp [lineTooLong]⟩

end Ptlab.Control
