/-
A session of one `GattClient` with the bridge: which answer a request gets.

A session is a list of calls and a script of `recv` results, each call taking
from the script what it needs. The bridge is a stream of frames: its responses
are the answers to the read and write requests, in the order these were sent,
with notifications anywhere between (`BridgeStream`). Nothing on the wire says
which request a response answers, so the client pairs by position, and a call
that gives up leaves its answer to the next one
(`late_answer_is_taken_for_the_next`).

`InSync` is the invariant: how many answers callers have taken, what is queued,
and what is still to come. `session_pairing` reads the pairing off it.
-/
import Ptlab.Gatt.Receive

set_option autoImplicit false

open Deframe Bytes Ptlab.Protocol

namespace Ptlab.Gatt

/-! ## Sessions -/

/-- One call on a client. -/
inductive ClientCall where
  | request (characteristic : Characteristic) (operation : ℤ) (payload : List UInt8) (send : Send)
  | next_notification
  deriving DecidableEq, Repr

/-- The bridge answers this request frame: it is not a write without response. -/
def answered (frame : List UInt8) : Bool := frame.getD 1 0 != 2

/-- What a call did. `index` numbers the answered requests on the wire: it is how
many of them were sent before this call. -/
inductive CallEvent where
  | request (characteristic : Characteristic) (operation : ℤ) (payload : List UInt8) (send : Send)
      (index : ℕ) (outcome : Ended (Option GattResponse))
  | next_notification (outcome : Ended GattNotification)
  deriving DecidableEq, Repr

/-- One call: what it did, the client it left, and the rest of the script. -/
def GattClient.call (c : GattClient) (script : List Recv) : ClientCall →
    CallEvent × GattClient × List Recv
  | .request characteristic operation payload send =>
    let (outcome, c', script') := c.request characteristic operation payload send script
    (.request characteristic operation payload send (c.sent.countP answered) outcome, c', script')
  | .next_notification =>
    let (outcome, c', script') := c.next_notification script
    (.next_notification outcome, c', script')

theorem call_request (c : GattClient) (script : List Recv) (characteristic : Characteristic)
    (operation : ℤ) (payload : List UInt8) (send : Send) :
    c.call script (.request characteristic operation payload send) =
      (.request characteristic operation payload send (c.sent.countP answered)
          (c.request characteristic operation payload send script).1,
        (c.request characteristic operation payload send script).2) := rfl

theorem call_next_notification (c : GattClient) (script : List Recv) :
    c.call script .next_notification =
      (.next_notification (c.next_notification script).1, (c.next_notification script).2) := rfl

/-- The call has not ended. -/
def CallEvent.waiting : CallEvent → Bool
  | .request _ _ _ _ _ .waiting => true
  | .next_notification .waiting => true
  | _ => false

/-- The calls one after another on the same client, up to one that never ends. -/
def GattClient.session (c : GattClient) : List ClientCall → List Recv →
    List CallEvent × GattClient × List Recv
  | [], script => ([], c, script)
  | call :: calls, script =>
    let (event, c', script') := c.call script call
    if event.waiting then ([event], c', script')
    else
      let (events, c'', script'') := c'.session calls script'
      (event :: events, c'', script'')

/-- The bytes a script delivers. -/
def recvBytes (script : List Recv) : List UInt8 :=
  script.flatMap fun r => match r with
    | .chunk data => data
    | .timeout => []
    | .oserror _ => []

/-! ## The bridge -/

/-- What the bridge sends: responses that answer the requests in order, whatever
else stands between them. -/
structure BridgeStream (answers : ℕ → GattResponse) (frames : List GattFrame) : Prop where
  fits : ∀ f ∈ frames, f.Fits 0xFFFF
  in_order : ∃ n, responsesOf frames = (List.range n).map answers

/-- The client is in step with the bridge: `taken` answers have been returned,
the next ones are queued, and the frames still to be read carry the rest. -/
structure InSync (answers : ℕ → GattResponse) (taken : ℕ) (c : GattClient)
    (script : List Recv) : Prop where
  ready : c.parser.Ready
  queued : c.responses = (List.range' taken c.responses.length).map answers
  ahead : ∃ frames : List GattFrame, (∀ f ∈ frames, f.Fits 0xFFFF) ∧
    c.parser.buffer ++ recvBytes script <+: frames.flatMap GattFrame.wire ∧
    ∃ n, responsesOf frames = (List.range' (taken + c.responses.length) n).map answers

/-- A new client is in step. -/
theorem inSync_start {answers : ℕ → GattResponse} {frames : List GattFrame}
    (hb : BridgeStream answers frames) {c : GattClient} (hparser : c.parser.buffer = [])
    (hresponses : c.responses = []) {script : List Recv}
    (hs : recvBytes script <+: frames.flatMap GattFrame.wire) : InSync answers 0 c script := by
  obtain ⟨n, hn⟩ := hb.in_order
  refine ⟨ready_of_empty hparser, by rw [hresponses]; rfl, frames, hb.fits, ?_, n, ?_⟩
  · rw [hparser, List.nil_append]
    exact hs
  · rw [hn, hresponses, List.length_nil, List.range_eq_range']

section Sync

variable {answers : ℕ → GattResponse} {taken : ℕ} {c c' : GattClient} {script : List Recv}

/-- In-step depends only on the parser and the queue of responses. -/
theorem InSync.of_eq (h : InSync answers taken c script) (hparser : c'.parser = c.parser)
    (hresponses : c'.responses = c.responses) : InSync answers taken c' script := by
  refine ⟨?_, ?_, ?_⟩
  · rw [hparser]; exact h.ready
  · rw [hresponses]; exact h.queued
  · rw [hparser, hresponses]; exact h.ahead

/-- A timeout carries no bytes. -/
theorem InSync.timeout (h : InSync answers taken c (.timeout :: script)) :
    InSync answers taken c script :=
  ⟨h.ready, h.queued, h.ahead⟩

/-- **The step.** A `recv` that returns keeps the client in step: the frames it
reads are the next ones ahead. -/
theorem InSync.receive {r : Recv} (h : InSync answers taken c (r :: script))
    (hr : c._receive r = (.ok (), c')) : InSync answers taken c' script := by
  obtain ⟨data, rfl, herr, _, hrec⟩ := _receive_ok hr
  obtain ⟨frames, hfits, hprefix, n, hn⟩ := h.ahead
  have hbytes : (c.parser.view data).items.flatMap GattFrame.wire ++
      (c.parser.view data).rest = c.parser.buffer ++ data :=
    (frameCodec c.parser.maximum_payload c.parser.maximum_payload_le).encode_drain _
  have hvalid : ∀ f ∈ (c.parser.view data).items, f.Fits 0xFFFF := fun f hf =>
    ((frameCodec c.parser.maximum_payload c.parser.maximum_payload_le).valid_drain _ f hf).mono
      c.parser.maximum_payload_le
  have hnext : (c.parser.view data).items.flatMap GattFrame.wire ++
      ((c.parser.view data).rest ++ recvBytes script) <+: frames.flatMap GattFrame.wire := by
    rw [← List.append_assoc, hbytes, List.append_assoc]
    exact hprefix
  -- frames have one reading, so those just cut off are the first of those ahead
  obtain ⟨later, rfl, hrest⟩ :=
    (frameCodec 0xFFFF le_rfl).prefix_of_encodeAll _ frames hvalid hfits _ hnext
  -- the responses just read are the next answers, and the later ones follow them
  rw [responsesOf_append] at hn
  have hlen : (responsesOf (c.parser.view data).items).length +
      (responsesOf later).length = n := by
    have hl := congrArg List.length hn
    simpa using hl
  rw [← hlen, ← List.range'_append_1, List.map_append] at hn
  obtain ⟨hread, hlater⟩ := List.append_inj hn (by simp)
  have hresponses := hrec.responses
  refine ⟨?_, ?_, later, fun f hf => hfits f (List.mem_append_right _ hf), ?_,
    (responsesOf later).length, ?_⟩
  · rw [hrec.parser]
    exact look_rest_of_ok (frameFormat c.parser.maximum_payload) herr
  · rw [hresponses, List.length_append, ← List.range'_append_1, List.map_append, ← hread,
      ← h.queued]
  · rw [hrec.parser]
    exact hrest
  · rw [hresponses, List.length_append, ← Nat.add_assoc]
    exact hlater

/-- Taking the head of the queue takes the next answer. -/
theorem InSync.take {r : GattResponse} {rs : List GattResponse}
    (h : InSync answers taken c script) (hc : c.responses = r :: rs) :
    r = answers taken ∧ InSync answers (taken + 1) { c with responses := rs } script := by
  have hqueued := h.queued
  rw [hc, List.length_cons, List.range'_succ, List.map_cons] at hqueued
  injection hqueued with hr hrs
  refine ⟨hr, h.ready, hrs, ?_⟩
  obtain ⟨frames, hfits, hprefix, n, hn⟩ := h.ahead
  refine ⟨frames, hfits, hprefix, n, ?_⟩
  rw [hn, hc, List.length_cons]
  congr 2
  dsimp only
  omega

/-! ## One call -/

/-- What a wait leaves: `R` of what it took, and after a timeout the client in
step as before. -/
def Waited (answers : ℕ → GattResponse) (taken : ℕ) (sent : List (List UInt8)) {α : Type}
    (R : α → GattClient → List Recv → Prop) : Ended α → GattClient → List Recv → Prop
  | .returned a, c, script => R a c script
  | .raised (.GattTimeout _), c, script => InSync answers taken c script ∧ c.sent = sent
  | _, _, _ => True

/-- **The wait.** Up to what it takes, a wait keeps the client in step and sends
nothing. -/
theorem InSync.await {α : Type} {take : GattClient → Option (α × GattClient)}
    {R : α → GattClient → List Recv → Prop} (h : InSync answers taken c script)
    (htake : ∀ c₁ script₁ a c₂, InSync answers taken c₁ script₁ → c₁.sent = c.sent →
      take c₁ = some (a, c₂) → R a c₂ script₁) :
    Waited answers taken c.sent R (Await.await take GattClient._receive c script).1
      (Await.await take GattClient._receive c script).2.1
      (Await.await take GattClient._receive c script).2.2 := by
  refine Await.await_rule
    (I := fun c₁ script₁ => InSync answers taken c₁ script₁ ∧ c₁.sent = c.sent)
    (fun c₁ script₁ a c₂ hI htaken => htake c₁ script₁ a c₂ hI.1 hI.2 htaken)
    (fun _ _ => trivial) ?_ ?_ script c ⟨h, rfl⟩
  · intro c₁ recv script₁ e c₂ hI hrecv
    cases e with
    | GattTimeout message =>
        obtain ⟨rfl, rfl⟩ := _receive_timeout hrecv
        exact ⟨hI.1.timeout, hI.2⟩
    | _ => trivial
  · intro c₁ recv script₁ c₂ hI hrecv
    obtain ⟨_, _, _, _, hrec⟩ := _receive_ok hrecv
    exact ⟨hI.1.receive hrecv, hrec.sent.trans hI.2⟩

/-- Waiting for a response returns the next answer. -/
theorem InSync.awaitResponse (h : InSync answers taken c script) :
    Waited answers taken c.sent
      (fun r c' script' => r = answers taken ∧ InSync answers (taken + 1) c' script' ∧
        c'.sent = c.sent)
      (c.awaitResponse script).1 (c.awaitResponse script).2.1 (c.awaitResponse script).2.2 := by
  refine h.await fun c₁ script₁ r c₂ hsync hsent hpop => ?_
  obtain ⟨rs, hc, rfl⟩ := GattClient.popResponse_eq hpop
  obtain ⟨hr, hsync'⟩ := hsync.take hc
  exact ⟨hr, hsync', hsent⟩

/-- Waiting for a notification takes no answer. -/
theorem InSync.next_notification (h : InSync answers taken c script) :
    Waited answers taken c.sent
      (fun _ c' script' => InSync answers taken c' script' ∧ c'.sent = c.sent)
      (c.next_notification script).1 (c.next_notification script).2.1
      (c.next_notification script).2.2 := by
  refine h.await fun c₁ script₁ n c₂ hsync hsent hpop => ?_
  obtain ⟨ns, -, rfl⟩ := GattClient.popNotification_eq hpop
  exact ⟨hsync.of_eq rfl rfl, hsent⟩

end Sync

/-- A frame that `request` builds is answered unless it is a write without
response. -/
theorem answered_requestFrame {characteristic : Characteristic} {operation : ℤ}
    {payload : List UInt8} {name : String} {id : ℕ} {frame : List UInt8}
    (h : requestFrame characteristic operation payload = .ok (name, id, frame)) :
    answered frame = true ↔ operation ≠ OP_WRITE_WITHOUT_RESPONSE := by
  unfold requestFrame at h
  split at h
  · cases h
  · split_ifs at h with hop
    injection h with h
    injection h with _ h
    injection h with _ h
    subst h
    simp only [List.mem_cons, List.not_mem_nil, or_false] at hop
    by_cases hw : operation = OP_WRITE_WITHOUT_RESPONSE
    · subst hw
      simp [answered, OP_WRITE_WITHOUT_RESPONSE]
    · -- of the three operations only the last has no answer
      rcases hop with rfl | rfl | rfl
      · simp [answered, OP_WRITE, OP_WRITE_WITHOUT_RESPONSE]
      · simp [answered, OP_READ, OP_WRITE_WITHOUT_RESPONSE]
      · exact absurd rfl hw

/-- The call returned, was refused before anything was sent, or gave up because
nothing had arrived yet. -/
def CallEvent.Timely : CallEvent → Prop
  | .request _ _ _ _ _ (.returned _) => True
  | .request characteristic operation payload send _ (.raised e) =>
    requestFrame characteristic operation payload = .error e ∨
      (send = .ok ∧ ∃ message, e = .GattTimeout message)
  | .request _ _ _ _ _ .waiting => False
  | .next_notification (.returned _) => True
  | .next_notification (.raised e) => ∃ message, e = .GattTimeout message
  | .next_notification .waiting => False

/-- The call put a request on the wire that the bridge answers, and did not wait
for the answer. -/
def CallEvent.gaveUp : CallEvent → Bool
  | .request characteristic operation payload _ _ (.raised _) =>
    match requestFrame characteristic operation payload with
    | .error _ => false
    | .ok _ => operation != OP_WRITE_WITHOUT_RESPONSE
  | _ => false

/-- The answer a call returned, with its request's number. -/
def CallEvent.answer : CallEvent → Option (ℕ × GattResponse)
  | .request _ _ _ _ index (.returned (some response)) => some (index, response)
  | _ => none

section Run

variable {answers : ℕ → GattResponse}

/-- What a call does to a client in step. The answer it returns is the first one
not taken yet. A timely call leaves the client in step, with as many requests
unanswered as before, and one more if it gave up. -/
structure KeepsStep (answers : ℕ → GattResponse) (taken : ℕ) (c : GattClient)
    (event : CallEvent) (c' : GattClient) (script' : List Recv) : Prop where
  answer : ∀ k r, event.answer = some (k, r) → k = c.sent.countP answered ∧ r = answers taken
  timely : event.Timely → ∃ taken', InSync answers taken' c' script' ∧
    c'.sent.countP answered + taken =
      c.sent.countP answered + taken' + if event.gaveUp then 1 else 0

section Call

variable {taken : ℕ} {c : GattClient} {script : List Recv} {characteristic : Characteristic}
  {operation : ℤ} {payload : List UInt8} {name : String} {id : ℕ} {frame : List UInt8}

/-- A wait for a notification. -/
theorem InSync.call_next_notification (h : InSync answers taken c script) :
    KeepsStep answers taken c (.next_notification (c.next_notification script).1)
      (c.next_notification script).2.1 (c.next_notification script).2.2 := by
  have hnext := h.next_notification
  rcases hcall : c.next_notification script with ⟨outcome, c', script'⟩
  rw [hcall] at hnext
  refine ⟨fun k r hk => (by cases outcome <;> cases hk), fun htimely => ⟨taken, ?_⟩⟩
  cases outcome with
  | returned n => exact ⟨hnext.1, by rw [hnext.2]; rfl⟩
  | raised e =>
      obtain ⟨message, rfl⟩ := htimely
      exact ⟨hnext.1, by rw [hnext.2]; rfl⟩
  | waiting => exact htimely.elim

/-- A write without response, once it is on the wire. -/
theorem InSync.call_unanswered (h : InSync answers taken c script)
    (hframe : requestFrame characteristic operation payload = .ok (name, id, frame))
    (hop : operation = OP_WRITE_WITHOUT_RESPONSE) :
    KeepsStep answers taken c
      (.request characteristic operation payload .ok (c.sent.countP answered) (.returned none))
      (c.sending name id operation payload frame) script := by
  refine ⟨fun k r hk => (by cases hk), fun _ => ⟨taken, h.of_eq rfl rfl, ?_⟩⟩
  have hcount : [frame].countP answered = 0 := by
    rw [List.countP_eq_zero]
    intro f hf
    rw [List.mem_singleton.mp hf, answered_requestFrame hframe]
    exact fun hne => hne hop
  simp only [GattClient.sending_sent, List.countP_append, hcount, CallEvent.gaveUp]
  rfl

/-- A read or a write, once it is on the wire: it waits for the next answer, and
gives up if it times out. -/
theorem InSync.call_answered (h : InSync answers taken c script)
    (hframe : requestFrame characteristic operation payload = .ok (name, id, frame))
    (hop : operation ≠ OP_WRITE_WITHOUT_RESPONSE) :
    KeepsStep answers taken c
      (.request characteristic operation payload .ok (c.sent.countP answered)
        (c.request characteristic operation payload .ok script).1)
      (c.request characteristic operation payload .ok script).2.1
      (c.request characteristic operation payload .ok script).2.2 := by
  have hcount : [frame].countP answered = 1 := by
    rw [List.countP_singleton, if_pos ((answered_requestFrame hframe).mpr hop)]
  have hsync : InSync answers taken (c.sending name id operation payload frame) script :=
    h.of_eq rfl rfl
  have hawait := hsync.awaitResponse
  rw [request_answered c script hframe hop]
  rcases hcall : (c.sending name id operation payload frame).awaitResponse script with
    ⟨outcome, c', script'⟩
  rw [hcall] at hawait
  dsimp only at hawait
  cases outcome with
  | returned response =>
      obtain ⟨hr, hsync', hsent⟩ := hawait
      refine ⟨fun k r hk => ?_, fun _ => ⟨taken + 1, hsync'.of_eq rfl rfl, ?_⟩⟩
      · injection hk with hk
        injection hk with hk hresp
        exact ⟨hk.symm, hresp ▸ hr⟩
      · -- one more sent and one more taken
        simp only [GattClient._record_sent, hsent, GattClient.sending_sent,
          List.countP_append, hcount, CallEvent.gaveUp, Bool.false_eq_true, if_false]
        omega
  | raised e =>
      refine ⟨fun k r hk => (by cases hk), fun htimely => ?_⟩
      rcases htimely with hbad | ⟨_, message, rfl⟩
      · rw [hframe] at hbad; cases hbad
      · -- one more sent and none taken
        obtain ⟨hsync', hsent⟩ := hawait
        refine ⟨taken, hsync', ?_⟩
        have hgave : (operation != OP_WRITE_WITHOUT_RESPONSE) = true := by
          simpa using hop
        simp only [hsent, GattClient.sending_sent, List.countP_append, hcount,
          CallEvent.gaveUp, hframe, hgave, if_true]
        omega
  | waiting => exact ⟨fun k r hk => (by cases hk), fun htimely => htimely.elim⟩

/-- **One call of a session**, in the four ways a request can go. -/
theorem InSync.call (h : InSync answers taken c script) (call : ClientCall) :
    KeepsStep answers taken c (c.call script call).1 (c.call script call).2.1
      (c.call script call).2.2 := by
  cases call with
  | next_notification => exact h.call_next_notification
  | request characteristic operation payload send =>
      rw [call_request]
      rcases hframe : requestFrame characteristic operation payload with e | ⟨name, id, frame⟩
      · rw [request_refused c script send hframe]
        refine ⟨fun k r hk => (by cases hk), fun _ => ⟨taken, h, ?_⟩⟩
        simp only [CallEvent.gaveUp, hframe]
        rfl
      by_cases hsend : send = .ok
      · subst hsend
        by_cases hop : operation = OP_WRITE_WITHOUT_RESPONSE
        · rw [request_unanswered c script hframe hop]
          exact h.call_unanswered hframe hop
        · exact h.call_answered hframe hop
      · -- not timely: part of the frame may be on the wire
        obtain ⟨e, he⟩ := request_send_failed c script hframe hsend
        rw [he]
        refine ⟨fun k r hk => (by cases hk), fun htimely => ?_⟩
        rcases htimely with hbad | ⟨hbad, _⟩
        · rw [hframe] at hbad; cases hbad
        · exact absurd hbad hsend

end Call

/-- **The run.** As long as the calls of a session are timely, every answer
returned belongs to the request as many places earlier as calls have given up
before. -/
theorem session_answer (calls : List ClientCall) :
    ∀ (c : GattClient) (script : List Recv) (taken lag : ℕ), InSync answers taken c script →
      c.sent.countP answered = taken + lag →
      ∀ pre event post, (c.session calls script).1 = pre ++ event :: post →
        (∀ e ∈ pre, e.Timely) → ∀ k r, event.answer = some (k, r) →
          r = answers (k - (lag + pre.countP CallEvent.gaveUp)) := by
  induction calls with
  | nil =>
      intro c script taken lag _ _ pre event post hlog
      cases pre <;> cases hlog
  | cons call calls ih =>
      intro c script taken lag hsync hlag pre event post hlog htimely k r hanswer
      obtain ⟨hnow, hnext⟩ := hsync.call call
      unfold GattClient.session at hlog
      rcases hcall : c.call script call with ⟨event', c', script'⟩
      rw [hcall] at hlog hnow hnext
      dsimp only at hlog hnow hnext
      cases pre with
      | nil =>
          -- this very call returned it: the requests sent are `lag` ahead of the answers taken
          have hevent : event' = event := by
            split_ifs at hlog <;> injection hlog
          subst hevent
          obtain ⟨hk, hr⟩ := hnow k r hanswer
          rw [hr, hk, hlag]
          simp
      | cons e pre =>
          -- a later call did: the session went on, one more behind if this call gave up
          have hrest : event' = e ∧ (c'.session calls script').1 = pre ++ event :: post := by
            split_ifs at hlog with hwait
            · injection hlog with _ hlog
              cases pre <;> cases hlog
            · injection hlog with he hlog
              exact ⟨he, hlog⟩
          obtain ⟨rfl, hlog'⟩ := hrest
          obtain ⟨taken', hsync', hcount⟩ := hnext (htimely event' (List.mem_cons_self ..))
          have hlag' : c'.sent.countP answered =
              taken' + (lag + if event'.gaveUp then 1 else 0) := by omega
          rw [ih c' script' taken' _ hsync' hlag' pre event post hlog'
            (fun x hx => htimely x (List.mem_cons_of_mem _ hx)) k r hanswer,
            List.countP_cons, Nat.add_assoc, Nat.add_comm (if event'.gaveUp then 1 else 0)]

end Run

/-! ## The contract -/

/-- **The pairing.** On a new client, after calls that returned, were refused
before anything was sent, or timed out waiting, a returned response answers the
request as many places earlier as calls have given up. If none has, it answers
the request of the very call that returns it. -/
theorem session_pairing {host : String} {port : ℤ} {timeout : ℚ}
    {transcript : Option (List TranscriptRecord)} {c : GattClient}
    (hc : GattClient.init host port timeout transcript true = .ok c)
    {answers : ℕ → GattResponse} {frames : List GattFrame} (hb : BridgeStream answers frames)
    {script : List Recv} (hs : recvBytes script <+: frames.flatMap GattFrame.wire)
    {calls : List ClientCall} {pre post : List CallEvent} {event : CallEvent}
    (hlog : (c.session calls script).1 = pre ++ event :: post)
    (htimely : ∀ e ∈ pre, e.Timely) {k : ℕ} {r : GattResponse}
    (hanswer : event.answer = some (k, r)) :
    r = answers (k - pre.countP CallEvent.gaveUp) ∧
      ((∀ e ∈ pre, ¬ e.gaveUp) → r = answers k) := by
  obtain ⟨hparser, hresponses, hsent, -⟩ := GattClient.init_eq hc
  have hempty : c.parser.buffer = [] := congrArg GattFrameParser.buffer hparser
  -- nothing was sent and nothing has given up
  have hsync : InSync answers 0 c script := inSync_start hb hempty hresponses hs
  have hlag : c.sent.countP answered = 0 + 0 := by
    rw [hsent]
    rfl
  have h := session_answer calls c script 0 0 hsync hlag pre event post hlog htimely k r hanswer
  rw [Nat.zero_add] at h
  refine ⟨h, fun hnone => ?_⟩
  rw [h, List.countP_eq_zero.mpr hnone, Nat.sub_zero]

/-- Two reads with a wait for a notification between them that times out. -/
theorem session_pairing_two_reads :
    let answers : ℕ → GattResponse := fun k => if k = 0 then ⟨0, [100]⟩ else ⟨0, [49, 46, 49]⟩
    let script : List Recv := [.chunk [0, 1], .chunk [0, 100, 0xF0, 4], .timeout,
      .chunk [1, 0, 99, 0, 3, 0, 49, 46, 49]]
    ∃ c, GattClient.init "127.0.0.1" 18632 3 none true = .ok c ∧
      (c.session [.request (.id 4) OP_READ [] .ok, .next_notification,
          .request (.id 13) OP_READ [] .ok] script).1 =
        [.request (.id 4) OP_READ [] .ok 0 (.returned (some ⟨0, [100]⟩)),
          .next_notification (.raised (.GattTimeout
            "timed out waiting for GATT bridge 127.0.0.1:18632")),
          .request (.id 13) OP_READ [] .ok 1 (.returned (some ⟨0, [49, 46, 49]⟩))] ∧
      (⟨0, [49, 46, 49]⟩ : GattResponse) = answers 1 := by
  intro answers script
  let frames : List GattFrame := [.response (answers 0), .notification ⟨4, [99]⟩,
    .response (answers 1)]
  have hb : BridgeStream answers frames := by
    refine ⟨?_, 2, rfl⟩
    simp only [frames, List.forall_mem_cons]
    exact ⟨⟨by decide, fun r hr => by cases hr; decide⟩, ⟨by decide, fun r hr => by cases hr⟩,
      ⟨by decide, fun r hr => by cases hr; decide⟩, fun f hf => by cases hf⟩
  refine ⟨_, rfl, by rfl, ?_⟩
  refine (@session_pairing "127.0.0.1" 18632 3 none _ rfl answers frames hb script (by decide)
    [.request (.id 4) OP_READ [] .ok, .next_notification, .request (.id 13) OP_READ [] .ok]
    [.request (.id 4) OP_READ [] .ok 0 (.returned (some ⟨0, [100]⟩)),
      .next_notification (.raised (.GattTimeout
        "timed out waiting for GATT bridge 127.0.0.1:18632"))] []
    (.request (.id 13) OP_READ [] .ok 1 (.returned (some ⟨0, [49, 46, 49]⟩)))
    (by rfl) ?_ 1 _ rfl).2 ?_
  · simp only [List.forall_mem_cons]
    exact ⟨trivial, ⟨_, rfl⟩, fun e he => by cases he⟩
  · simp only [List.forall_mem_cons]
    exact ⟨by decide, by decide, fun e he => by cases he⟩

/-- **Not always its own answer.** A read of the battery times out, and the read
of the firmware revision after it is handed the battery's answer. -/
theorem late_answer_is_taken_for_the_next :
    let answers : ℕ → GattResponse := fun k => if k = 0 then ⟨0, [100]⟩ else ⟨0, [49, 46, 49]⟩
    let frames : List GattFrame := [.response (answers 0), .response (answers 1)]
    let script : List Recv := [.timeout, .chunk [0, 1, 0, 100, 0, 3, 0, 49, 46, 49]]
    ∃ c, GattClient.init "127.0.0.1" 18632 3 none true = .ok c ∧
      BridgeStream answers frames ∧ recvBytes script = frames.flatMap GattFrame.wire ∧
      ∃ e event, (c.session [.request (.id 4) OP_READ [] .ok, .request (.id 13) OP_READ [] .ok]
          script).1 = [e, event] ∧
        e.Timely ∧ event.answer = some (1, answers 0) ∧ answers 0 ≠ answers 1 := by
  intro answers frames script
  have hb : BridgeStream answers frames := by
    refine ⟨?_, 2, rfl⟩
    simp only [frames, List.forall_mem_cons]
    exact ⟨⟨by decide, fun r hr => by cases hr; decide⟩,
      ⟨by decide, fun r hr => by cases hr; decide⟩, fun f hf => by cases hf⟩
  refine ⟨_, rfl, hb, by decide,
    .request (.id 4) OP_READ [] .ok 0 (.raised (.GattTimeout
      "timed out waiting for GATT bridge 127.0.0.1:18632")),
    .request (.id 13) OP_READ [] .ok 1 (.returned (some ⟨0, [100]⟩)), by rfl, ?_, rfl, by decide⟩
  exact Or.inr ⟨rfl, _, rfl⟩

end Ptlab.Gatt
