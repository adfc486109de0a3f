/-
What the GATT transcript says of a session.

`_record` is called in three places: before a request goes out, for each
notification as it is queued, and when a response is handed over. So a call leaves
its own record, the notifications that came while it waited, and the record of its
answer, in this order. `Wrote` follows the records and the notifications through
calls of any kind. `transcript_tells_session` reads the session back off the file:
the calls that passed the checks, the answers, and every notification that a caller
got or that is queued.
-/
import Ptlab.Gatt.Requests
import Ptlab.Gatt.Unknown

set_option autoImplicit false

open Deframe Bytes Ptlab.Protocol

namespace Ptlab.Gatt

/-! ## Records -/

/-- The record of a request frame. -/
def requestRecord (name : String) (id : ℕ) (operation : ℤ) (payload : List UInt8) :
    TranscriptRecord :=
  ⟨"send", "request", name, id, payload, some operation, none⟩

/-- The record of a response that `request` returns. -/
def responseRecord (name : String) (id : ℕ) (response : GattResponse) : TranscriptRecord :=
  ⟨"receive", "response", name, id, response.payload, none, some response.status⟩

/-- A record that `_receive` makes of a notification: it has the generated name of
the characteristic. -/
structure Noted (notification : GattNotification) (record : TranscriptRecord) : Prop where
  resolved : ∃ id, resolve_characteristic (.id notification.characteristic.toNat) =
    .ok (record.characteristic, id)
  eq : record = ⟨"receive", "notify", record.characteristic, notification.characteristic.toNat,
    notification.payload, none, none⟩

/-- The notification that a record is about. -/
def TranscriptRecord.notification? (record : TranscriptRecord) : Option GattNotification :=
  if record.kind = "notify" then
    some ⟨UInt8.ofNat record.characteristic_id, record.payload⟩
  else none

/-- The request that a record is about. -/
def TranscriptRecord.request? (record : TranscriptRecord) : Option Request :=
  record.operation.map fun operation =>
    ⟨record.characteristic_id, operation, record.payload⟩

/-- The response that a record is about. -/
def TranscriptRecord.response? (record : TranscriptRecord) : Option GattResponse :=
  record.status.map fun status => ⟨status, record.payload⟩

theorem Noted.notification? {n : GattNotification} {r : TranscriptRecord} (h : Noted n r) :
    r.notification? = some n := by
  rw [h.eq]
  unfold TranscriptRecord.notification?
  rw [if_pos rfl, UInt8.ofNat_toNat]

/-- Records of notifications, and of nothing else. -/
def Notes (records : List TranscriptRecord) : Prop := ∀ r ∈ records, ∃ n, Noted n r

theorem Notes.append {xs ys : List TranscriptRecord} (h : Notes xs) (h' : Notes ys) :
    Notes (xs ++ ys) := by
  intro r hr
  rcases List.mem_append.mp hr with hr | hr
  · exact h r hr
  · exact h' r hr

/-- No record of a notification says that it is one of a request or a response. -/
theorem Notes.none {records : List TranscriptRecord} (h : Notes records) :
    records.filterMap TranscriptRecord.request? = [] ∧
      records.filterMap TranscriptRecord.response? = [] := by
  constructor
  · refine List.filterMap_eq_nil_iff.mpr fun r hr => ?_
    obtain ⟨n, hn⟩ := h r hr
    rw [hn.eq]
    rfl
  · refine List.filterMap_eq_nil_iff.mpr fun r hr => ?_
    obtain ⟨n, hn⟩ := h r hr
    rw [hn.eq]
    rfl

/-- The records of a call before it waits: that of its request, if it passes the
checks, whether or not the socket takes it. -/
def CallEvent.before : CallEvent → List TranscriptRecord
  | .request characteristic operation payload _ _ _ =>
    match requestFrame characteristic operation payload with
    | .error _ => []
    | .ok (name, id, _) => [requestRecord name id operation payload]
  | .next_notification _ => []

/-- The records of a call after it has waited: that of its answer, under the name of
its request. -/
def CallEvent.after : CallEvent → List TranscriptRecord
  | .request characteristic operation payload _ _ (.returned (some response)) =>
    match requestFrame characteristic operation payload with
    | .error _ => []
    | .ok (name, id, _) => [responseRecord name id response]
  | _ => []

/-- The records of one call, in the order they are made. The answer that its caller got
is one of them. -/
structure CallEvent.Recorded (event : CallEvent) (records : List TranscriptRecord) : Prop where
  order : ∃ notes, Notes notes ∧ records = event.before ++ notes ++ event.after
  answer : event.after.filterMap TranscriptRecord.response? = event.responses

/-! ## What is written -/

/-- From `c` to `c'` the client made these records and handed these notifications to
callers. Those it recorded are the ones it queued. -/
structure Wrote (c c' : GattClient) (records : List TranscriptRecord)
    (handed : List GattNotification) : Prop where
  transcript : c'.transcript = c.transcript.map (· ++ records)
  notifications : handed ++ c'.notifications =
    c.notifications ++ records.filterMap TranscriptRecord.notification?

section Wrote

variable {a b c c' : GattClient} {xs ys : List TranscriptRecord} {ns ms : List GattNotification}

theorem Wrote.of_eq (htranscript : c'.transcript = c.transcript)
    (hnotifications : c'.notifications = c.notifications) : Wrote c c' [] [] := by
  refine ⟨?_, ?_⟩
  · rw [htranscript]
    cases c.transcript with
    | none => rfl
    | some records => exact congrArg some (List.append_nil _).symm
  · rw [hnotifications]
    exact (List.append_nil _).symm

theorem Wrote.trans (h : Wrote a b xs ns) (h' : Wrote b c ys ms) :
    Wrote a c (xs ++ ys) (ns ++ ms) := by
  refine ⟨?_, ?_⟩
  · rw [h'.transcript, h.transcript, Option.map_map]
    congr 1
    funext records
    exact List.append_assoc _ _ _
  · rw [List.filterMap_append, ← List.append_assoc, ← h.notifications, List.append_assoc,
      List.append_assoc, h'.notifications]

/-- A record that is not of a notification. -/
theorem Wrote.record (c : GattClient) {r : TranscriptRecord} (h : r.notification? = none) :
    Wrote c (c._record r) [r] [] := by
  refine ⟨rfl, ?_⟩
  rw [List.filterMap_cons_none h]
  exact (List.append_nil _).symm

/-- A client that goes on from the one that wrote, with the same transcript and
queue. -/
theorem Wrote.mono (h : Wrote a b xs ns) (htranscript : c.transcript = b.transcript)
    (hnotifications : c.notifications = b.notifications) : Wrote a c xs ns :=
  ⟨htranscript.trans h.transcript, by rw [hnotifications]; exact h.notifications⟩

end Wrote

/-- A new client has the transcript it was given. -/
theorem GattClient.init_transcript {host : String} {port : ℤ} {timeout : ℚ}
    {transcript : Option (List TranscriptRecord)} {connects : Bool} {c : GattClient}
    (h : GattClient.init host port timeout transcript connects = .ok c) :
    c.transcript = transcript := by
  unfold GattClient.init at h
  split_ifs at h
  injection h with h
  subst h
  rfl

/-- **The loop over a chunk** records the notifications it queues. -/
theorem dispatch_wrote (frames : List GattFrame) : ∀ c : GattClient,
    ∃ records, Notes records ∧ Wrote c (c.dispatch frames).2 records [] := by
  induction frames with
  | nil => exact fun c => ⟨[], fun r hr => (by cases hr), Wrote.of_eq rfl rfl⟩
  | cons frame frames ih =>
      intro c
      cases frame with
      | response response =>
          obtain ⟨records, hnotes, hwrote⟩ := ih { c with responses := c.responses ++ [response] }
          exact ⟨records, hnotes, hwrote.transcript, hwrote.notifications⟩
      | notification n =>
          rw [GattClient.dispatch]
          rcases hres : resolve_characteristic (.id n.characteristic.toNat) with e | ⟨name, id⟩
          · exact ⟨[], fun r hr => (by cases hr), Wrote.of_eq rfl rfl⟩
          · -- the notification is queued, then recorded
            have hnoted : Noted n ⟨"receive", "notify", name, n.characteristic.toNat, n.payload,
                none, none⟩ := ⟨⟨id, hres⟩, rfl⟩
            obtain ⟨records, hnotes, hwrote⟩ :=
              ih ({ c with notifications := c.notifications ++ [n] }._record
                ⟨"receive", "notify", name, n.characteristic.toNat, n.payload, none, none⟩)
            refine ⟨_ :: records, List.forall_mem_cons.mpr ⟨⟨n, hnoted⟩, hnotes⟩, ?_, ?_⟩
            · refine hwrote.transcript.trans ?_
              unfold GattClient._record
              rw [Option.map_map]
              congr 1
              funext before
              exact (List.append_assoc before [_] records)
            · rw [List.filterMap_cons_some hnoted.notification?]
              exact hwrote.notifications.trans (List.append_assoc _ [n] _)

/-- **The step.** One `recv`, however `_receive` ends. -/
theorem _receive_wrote (c : GattClient) (r : Recv) :
    ∃ records, Notes records ∧ Wrote c (c._receive r).2 records [] := by
  have hsame : ∀ c' : GattClient, c'.transcript = c.transcript →
      c'.notifications = c.notifications →
      ∃ records, Notes records ∧ Wrote c c' records [] := fun c' ht hn =>
    ⟨[], fun r hr => (by cases hr), Wrote.of_eq ht hn⟩
  rcases r with (_ | ⟨x, t⟩) | _ | _
  · rw [GattClient._receive]
    split_ifs <;> exact hsame _ rfl rfl
  · rw [GattClient._receive]
    rcases c.parser.feed (x :: t) with ⟨e | frames, parser⟩
    · exact hsame _ rfl rfl
    · -- the loop starts from the client with the parser's rest
      obtain ⟨records, hnotes, hwrote⟩ := dispatch_wrote frames { c with parser := parser }
      exact ⟨records, hnotes, hwrote.transcript, hwrote.notifications⟩
    · simp
  · exact hsame _ rfl rfl
  · exact hsame _ rfl rfl

/-- **The wait** records the notifications that come, and nothing when it ends. -/
theorem await_wrote {α : Type} {take : GattClient → Option (α × GattClient)}
    (ns : List α → List GattNotification) (hns : ns [] = [])
    (htake : ∀ c a c', take c = some (a, c') → Wrote c c' [] (ns [a]))
    (c : GattClient) (script : List Recv) :
    ∃ records, Notes records ∧
      Wrote c (Await.await take GattClient._receive c script).2.1 records
        (ns (Await.await take GattClient._receive c script).1.toList) := by
  -- what was recorded so far is the invariant of the wait
  refine Await.await_rule
    (I := fun c₁ _ => ∃ records, Notes records ∧ Wrote c c₁ records [])
    (Q := fun ended c₁ _ => ∃ records, Notes records ∧ Wrote c c₁ records (ns ended.toList))
    ?_ ?_ ?_ ?_ script c ⟨[], fun r hr => (by cases hr), Wrote.of_eq rfl rfl⟩
  · rintro c₁ script₁ a c₂ ⟨records, hnotes, hwrote⟩ htaken
    have hall := hwrote.trans (htake c₁ a c₂ htaken)
    rw [List.append_nil] at hall
    exact ⟨records, hnotes, hall⟩
  · rintro c₁ ⟨records, hnotes, hwrote⟩
    exact ⟨records, hnotes, by rw [Await.Ended.toList, hns]; exact hwrote⟩
  · rintro c₁ r script₁ e c₂ ⟨records, hnotes, hwrote⟩ hrecv
    obtain ⟨more, hmore, hstep⟩ := _receive_wrote c₁ r
    rw [hrecv] at hstep
    refine ⟨records ++ more, hnotes.append hmore, ?_⟩
    rw [Await.Ended.toList, hns]
    exact hwrote.trans hstep
  · rintro c₁ r script₁ c₂ ⟨records, hnotes, hwrote⟩ hrecv
    obtain ⟨more, hmore, hstep⟩ := _receive_wrote c₁ r
    rw [hrecv] at hstep
    exact ⟨records ++ more, hnotes.append hmore, hwrote.trans hstep⟩

theorem awaitResponse_wrote (c : GattClient) (script : List Recv) :
    ∃ records, Notes records ∧ Wrote c (c.awaitResponse script).2.1 records [] := by
  refine await_wrote (fun _ => []) rfl ?_ c script
  intro c₁ r c₂ hpop
  obtain ⟨rs, -, rfl⟩ := GattClient.popResponse_eq hpop
  exact Wrote.of_eq rfl rfl

theorem next_notification_wrote (c : GattClient) (script : List Recv) :
    ∃ records, Notes records ∧
      Wrote c (c.next_notification script).2.1 records
        (c.next_notification script).1.toList := by
  refine await_wrote id rfl ?_ c script
  intro c₁ n c₂ hpop
  obtain ⟨ns, hc, rfl⟩ := GattClient.popNotification_eq hpop
  refine ⟨(Wrote.of_eq rfl rfl).transcript, ?_⟩
  rw [hc]
  exact (List.append_nil _).symm

/-! ## Sessions -/

section Call

variable {characteristic : Characteristic} {operation : ℤ} {payload : List UInt8} {send : Send}
  {index : ℕ} {outcome : Ended (Option GattResponse)}

theorem before_refused {e : GattExc}
    (h : requestFrame characteristic operation payload = .error e) :
    (CallEvent.request characteristic operation payload send index outcome).before = [] := by
  unfold CallEvent.before
  dsimp only
  rw [h]

theorem before_ok {name : String} {id : ℕ} {frame : List UInt8}
    (h : requestFrame characteristic operation payload = .ok (name, id, frame)) :
    (CallEvent.request characteristic operation payload send index outcome).before =
      [requestRecord name id operation payload] := by
  unfold CallEvent.before
  dsimp only
  rw [h]

theorem after_returned {name : String} {id : ℕ} {frame : List UInt8} {response : GattResponse}
    (h : requestFrame characteristic operation payload = .ok (name, id, frame)) :
    (CallEvent.request characteristic operation payload send index
        (.returned (some response))).after = [responseRecord name id response] := by
  unfold CallEvent.after
  dsimp only
  rw [h]

theorem after_raised {e : GattExc} :
    (CallEvent.request characteristic operation payload send index (.raised e)).after = [] := rfl

end Call

/-- **One call** makes the records of its kind. -/
theorem call_wrote (c : GattClient) (script : List Recv) (call : ClientCall) :
    ∃ records, (c.call script call).1.Recorded records ∧
      Wrote c (c.call script call).2.1 records (c.call script call).1.notifications := by
  cases call with
  | next_notification =>
      obtain ⟨notes, hnotes, hwrote⟩ := next_notification_wrote c script
      rw [call_next_notification]
      refine ⟨notes, ⟨⟨notes, hnotes, (List.append_nil _).symm⟩, rfl⟩, ?_⟩
      rcases hcall : c.next_notification script with ⟨outcome, c', script'⟩
      rw [hcall] at hwrote
      cases outcome <;> exact hwrote
  | request characteristic operation payload send =>
      rw [call_request]
      have hnone : Notes [] := fun r hr => (by cases hr)
      rcases hframe : requestFrame characteristic operation payload with e | ⟨name, id, frame⟩
      · rw [request_refused c script send hframe]
        refine ⟨[], ⟨⟨[], hnone, ?_⟩, rfl⟩, Wrote.of_eq rfl rfl⟩
        rw [before_refused hframe]
        rfl
      -- from here on the transcript has the request
      have hfirst : Wrote c (c.recordRequest name id operation payload)
          [requestRecord name id operation payload] [] := Wrote.record c rfl
      by_cases hsend : send = .ok
      · subst hsend
        by_cases hop : operation = OP_WRITE_WITHOUT_RESPONSE
        · rw [request_unanswered c script hframe hop]
          refine ⟨_, ⟨⟨[], hnone, rfl⟩, rfl⟩, ?_⟩
          rw [before_ok hframe]
          exact hfirst.mono rfl rfl
        · obtain ⟨notes, hnotes, hwait⟩ :=
            awaitResponse_wrote (c.sending name id operation payload frame) script
          have hsent := (hfirst.mono (c := c.sending name id operation payload frame)
            rfl rfl).trans hwait
          rw [request_answered c script hframe hop]
          rcases hcall : (c.sending name id operation payload frame).awaitResponse script with
            ⟨outcome, c', script'⟩
          rw [hcall] at hsent
          cases outcome with
          | returned response =>
              refine ⟨_, ⟨⟨notes, hnotes, rfl⟩, (by rw [after_returned hframe]; rfl)⟩, ?_⟩
              rw [before_ok hframe, after_returned hframe]
              exact hsent.trans (Wrote.record c' rfl)
          | raised e =>
              refine ⟨_, ⟨⟨notes, hnotes, rfl⟩, rfl⟩, ?_⟩
              rw [before_ok hframe, after_raised, List.append_nil]
              exact hsent
          | waiting =>
              refine ⟨_, ⟨⟨notes, hnotes, rfl⟩, rfl⟩, ?_⟩
              rw [before_ok hframe]
              exact hsent.trans (Wrote.of_eq rfl rfl)
      · obtain ⟨e, he⟩ := request_send_failed c script hframe hsend
        rw [he]
        refine ⟨_, ⟨⟨[], hnone, rfl⟩, rfl⟩, ?_⟩
        rw [before_ok hframe, after_raised]
        exact hfirst

/-- **The run.** The transcript grows by the records of each call, call by call. -/
theorem session_wrote (calls : List ClientCall) : ∀ (c : GattClient) (script : List Recv),
    ∃ chunks, List.Forall₂ CallEvent.Recorded (c.session calls script).1 chunks ∧
      Wrote c (c.session calls script).2.1 chunks.flatten
        ((c.session calls script).1.flatMap CallEvent.notifications) := by
  induction calls with
  | nil => exact fun c script => ⟨[], .nil, Wrote.of_eq rfl rfl⟩
  | cons call calls ih =>
      intro c script
      obtain ⟨records, hrecorded, hwrote⟩ := call_wrote c script call
      unfold GattClient.session
      rcases hcall : c.call script call with ⟨event, c', script'⟩
      rw [hcall] at hrecorded hwrote
      dsimp only at hrecorded hwrote ⊢
      by_cases hwait : event.waiting
      · -- a call that never ends is the last one
        rw [if_pos hwait]
        refine ⟨[records], .cons hrecorded .nil, ?_⟩
        rw [List.flatten_singleton, List.flatMap_singleton]
        exact hwrote
      · rw [if_neg hwait]
        obtain ⟨chunks, hchunks, hlater⟩ := ih c' script'
        exact ⟨records :: chunks, .cons hrecorded hchunks, hwrote.trans hlater⟩

/-! ## Reading the transcript -/

/-- The records of one call have its request and its answer. -/
theorem CallEvent.Recorded.read {event : CallEvent} {records : List TranscriptRecord}
    (h : event.Recorded records) :
    records.filterMap TranscriptRecord.request? = event.accepted.toList ∧
      records.filterMap TranscriptRecord.response? = event.responses := by
  obtain ⟨notes, hnotes, rfl⟩ := h.order
  obtain ⟨hrequest, hresponse⟩ := hnotes.none
  simp only [List.filterMap_append, hrequest, hresponse, h.answer, List.append_nil]
  cases event with
  | next_notification outcome => exact ⟨rfl, rfl⟩
  | request characteristic operation payload send index outcome =>
      have hafter : (CallEvent.request characteristic operation payload send index
          outcome).after.filterMap TranscriptRecord.request? = [] := by
        unfold CallEvent.after
        split
        · split <;> rfl
        · rfl
      rw [hafter, List.append_nil]
      rcases hframe : requestFrame characteristic operation payload with e | ⟨name, id, frame⟩
      · rw [before_refused hframe, accepted_refused hframe]
        exact ⟨rfl, rfl⟩
      · rw [before_ok hframe, accepted_ok hframe]
        exact ⟨rfl, rfl⟩

/-- The records of a session have its requests and its answers. -/
theorem recorded_read {events : List CallEvent} {chunks : List (List TranscriptRecord)}
    (h : List.Forall₂ CallEvent.Recorded events chunks) :
    chunks.flatten.filterMap TranscriptRecord.request? = events.filterMap CallEvent.accepted ∧
      chunks.flatten.filterMap TranscriptRecord.response? =
        events.flatMap CallEvent.responses := by
  induction h with
  | nil => exact ⟨rfl, rfl⟩
  | @cons event records events chunks hrecorded _ ih =>
      obtain ⟨hrequest, hresponse⟩ := hrecorded.read
      rw [List.flatten_cons, List.filterMap_append, List.filterMap_append, List.flatMap_cons,
        hrequest, hresponse, ih.1, ih.2]
      refine ⟨?_, rfl⟩
      rcases haccepted : event.accepted with _ | r
      · exact (List.filterMap_cons_none haccepted).symm
      · exact (List.filterMap_cons_some haccepted).symm

/-- **The transcript tells the session.** Whatever the calls, the chunks, the timeouts
and the errors of the socket, the transcript of a new client is made of the records of
its calls, one after another: the request if it passed the checks, the notifications
that came, the answer. So it has every request that passed the checks, every answer a
caller got, and every notification that a caller got or that is queued, each once and
in order; and where the socket took all data, what is on the wire are the frames of
the requests in it. -/
theorem transcript_tells_session {host : String} {port : ℤ} {timeout : ℚ} {c : GattClient}
    (hc : GattClient.init host port timeout (some []) true = .ok c)
    (calls : List ClientCall) (script : List Recv) :
    ∃ chunks, List.Forall₂ CallEvent.Recorded (c.session calls script).1 chunks ∧
      (c.session calls script).2.1.transcript = some chunks.flatten ∧
      chunks.flatten.filterMap TranscriptRecord.request? =
        (c.session calls script).1.filterMap CallEvent.accepted ∧
      chunks.flatten.filterMap TranscriptRecord.response? =
        (c.session calls script).1.flatMap CallEvent.responses ∧
      chunks.flatten.filterMap TranscriptRecord.notification? =
        (c.session calls script).1.flatMap CallEvent.notifications ++
          (c.session calls script).2.1.notifications ∧
      ((∀ call ∈ calls, call.Taken) → (c.session calls script).2.1.sent =
        (chunks.flatten.filterMap TranscriptRecord.request?).map Request.wire) := by
  obtain ⟨-, -, hsent, hnotifications⟩ := GattClient.init_eq hc
  obtain ⟨chunks, hrecorded, hwrote⟩ := session_wrote calls c script
  obtain ⟨hrequest, hresponse⟩ := recorded_read hrecorded
  have htranscript : c.transcript = some [] := GattClient.init_transcript hc
  refine ⟨chunks, hrecorded, ?_, hrequest, hresponse, ?_, fun htaken => ?_⟩
  · rw [hwrote.transcript, htranscript]
    rfl
  · rw [hwrote.notifications, hnotifications]
    rfl
  · rw [session_sent calls c script htaken, hsent, hrequest]
    rfl

/-- A read that meets a notification in front of its answer, and a write that the socket
does not take. -/
theorem transcript_tells_session_failed_write :
    let calls : List ClientCall := [.request (.name "battery") OP_READ [] .ok,
      .request (.id 4) OP_WRITE [7] .timeout]
    let script : List Recv := [.chunk [0xF0, 4, 1, 0, 99, 0, 1, 0, 100]]
    ∃ c, GattClient.init "127.0.0.1" 18632 3 (some []) true = .ok c ∧
      (c.session calls script).2.1.transcript = some
        [requestRecord "battery" 4 OP_READ [],
          ⟨"receive", "notify", "battery", 4, [99], none, none⟩,
          responseRecord "battery" 4 ⟨0, [100]⟩,
          requestRecord "battery" 4 OP_WRITE [7]] ∧
      ∃ chunks : List (List TranscriptRecord),
        (c.session calls script).2.1.transcript = some chunks.flatten ∧
        chunks.flatten.filterMap TranscriptRecord.response? = [⟨0, [100]⟩] := by
  intro calls script
  refine ⟨_, rfl, by rfl, ?_⟩
  obtain ⟨chunks, -, htranscript, -, hresponse, -⟩ :=
    @transcript_tells_session "127.0.0.1" 18632 3 _ rfl calls script
  exact ⟨chunks, htranscript, hresponse⟩

end Ptlab.Gatt
