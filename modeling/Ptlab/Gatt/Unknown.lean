/-
Notifications with an ID outside the bridge table, and what becomes of the
frames around them.

`_receive` queues the frames of a chunk one by one and raises at the first
unknown notification, after the parser has given all of them up. `Took` follows
the queues through calls of any kind: what callers were handed and what is still
queued is, chunk by chunk, what stood in front of the first unknown
notification. `session_keeps_known_iff` is what that amounts to: nothing known
is lost exactly if no chunk has a known frame behind an unknown notification.
-/
import Ptlab.Gatt.Session

set_option autoImplicit false

open Ptlab.Protocol

namespace Ptlab.Gatt

/-! ## What the parser completed -/

/-- The data a script brings, one entry for each `recv` that feeds the parser. -/
def fed (script : List Recv) : List (List UInt8) :=
  script.filterMap fun r => match r with
    | .chunk (x :: t) => some (x :: t)
    | _ => none

/-- The frames one `feed` hands over. -/
def handed : Except GattExc (List GattFrame) → List GattFrame
  | .ok frames => frames
  | .error _ => []

/-- The frames the parser completes, chunk by chunk. -/
def GattFrameParser.completed (p : GattFrameParser) (script : List Recv) :
    List (List GattFrame) :=
  (p.feeds (fed script)).1.map handed

theorem fed_append (xs ys : List Recv) : fed (xs ++ ys) = fed xs ++ fed ys :=
  List.filterMap_append

theorem completed_append (p : GattFrameParser) (xs ys : List Recv) :
    p.completed (xs ++ ys) =
      p.completed xs ++ (p.feeds (fed xs)).2.completed ys := by
  unfold GattFrameParser.completed
  rw [fed_append, feeds_append, List.map_append]

/-- The frames of a chunk that are not unknown notifications. -/
def knownOf (frames : List GattFrame) : List GattFrame := frames.filter (·.known)

/-- The frames of a chunk in front of the first unknown notification. -/
def beforeUnknown (frames : List GattFrame) : List GattFrame := frames.takeWhile (·.known)

/-- Behind the first unknown notification stand unknown notifications only. -/
def Sparing (frames : List GattFrame) : Prop :=
  ∀ f ∈ frames.dropWhile (·.known), ¬ f.known

instance (frames : List GattFrame) : Decidable (Sparing frames) :=
  inferInstanceAs (Decidable (∀ f ∈ frames.dropWhile (·.known), ¬ f.known))

/-- The known frames are those in front of the first unknown one and those behind
it. -/
theorem knownOf_eq (frames : List GattFrame) :
    knownOf frames = beforeUnknown frames ++ knownOf (frames.dropWhile (·.known)) := by
  unfold knownOf beforeUnknown
  conv_lhs => rw [← List.takeWhile_append_dropWhile (p := (·.known)) (l := frames),
    List.filter_append]
  congr 1
  rw [List.filter_eq_self]
  exact fun f hf => List.mem_takeWhile_imp hf

theorem sparing_iff (frames : List GattFrame) :
    Sparing frames ↔ knownOf (frames.dropWhile (·.known)) = [] := by
  unfold Sparing knownOf
  rw [List.filter_eq_nil_iff]

/-! ## What becomes of it -/

/-- From `c` to `c'` the client used up part of its script and handed responses
and notifications to callers. Together with what is queued these are the frames
that stood in front of the first unknown notification of their chunk. -/
structure Took (c c' : GattClient) (used : List Recv) (responses : List GattResponse)
    (notifications : List GattNotification) : Prop where
  parser : c'.parser = (c.parser.feeds (fed used)).2
  responses : responses ++ c'.responses =
    c.responses ++ responsesOf ((c.parser.completed used).flatMap beforeUnknown)
  notifications : notifications ++ c'.notifications =
    c.notifications ++ notificationsOf ((c.parser.completed used).flatMap beforeUnknown)

/-- Nothing fed and nothing handed over. -/
theorem Took.of_eq {c c' : GattClient} {used : List Recv} (hused : fed used = [])
    (hparser : c'.parser = c.parser) (hresponses : c'.responses = c.responses)
    (hnotifications : c'.notifications = c.notifications) : Took c c' used [] [] := by
  have hcompleted : c.parser.completed used = [] := by
    unfold GattFrameParser.completed
    rw [hused]
    rfl
  refine ⟨?_, ?_, ?_⟩
  · rw [hused, hparser]; rfl
  · rw [hcompleted, hresponses]; exact (List.append_nil _).symm
  · rw [hcompleted, hnotifications]; exact (List.append_nil _).symm

theorem Took.trans {a b c : GattClient} {used used' : List Recv} {rs rs' : List GattResponse}
    {ns ns' : List GattNotification} (h : Took a b used rs ns) (h' : Took b c used' rs' ns') :
    Took a c (used ++ used') (rs ++ rs') (ns ++ ns') := by
  have hparser : c.parser = (a.parser.feeds (fed (used ++ used'))).2 := by
    rw [h'.parser, h.parser, fed_append, feeds_append]
  have hcompleted : a.parser.completed (used ++ used') =
      a.parser.completed used ++ b.parser.completed used' := by
    rw [completed_append, h.parser]
  refine ⟨hparser, ?_, ?_⟩
  · rw [hcompleted, List.flatMap_append, responsesOf_append, ← List.append_assoc, ← h.responses,
      List.append_assoc, List.append_assoc, h'.responses]
  · rw [hcompleted, List.flatMap_append, notificationsOf_append, ← List.append_assoc,
      ← h.notifications, List.append_assoc, List.append_assoc, h'.notifications]

/-- **The step.** One `recv`, however `_receive` ends. -/
theorem _receive_took (c : GattClient) (r : Recv) : Took c (c._receive r).2 [r] [] [] := by
  rcases r with (_ | ⟨x, t⟩) | _ | _
  · -- the end of the stream feeds nothing
    have hc : (c._receive (.chunk [])).2 = c := by
      rw [GattClient._receive]
      split_ifs <;> rfl
    rw [hc]
    exact Took.of_eq rfl rfl rfl rfl
  · have hfeeds : c.parser.feeds (fed [.chunk (x :: t)]) =
        ([(c.parser.feed (x :: t)).1], (c.parser.feed (x :: t)).2) := rfl
    have hcompleted : c.parser.completed [.chunk (x :: t)] =
        [handed (c.parser.feed (x :: t)).1] := rfl
    rcases herr : (c.parser.view (x :: t)).error with _ | size
    · -- frames behind an unknown notification are completed but never queued
      obtain ⟨hrec, -, -⟩ := _receive_chunk c (List.cons_ne_nil x t) herr
      refine ⟨?_, ?_, ?_⟩
      · rw [hfeeds, hrec.parser, feed_of_ok herr]
      · rw [hcompleted, hrec.responses, feed_of_ok herr, List.flatMap_singleton]
        rfl
      · rw [hcompleted, hrec.notifications, feed_of_ok herr, List.flatMap_singleton]
        rfl
    · -- the parser raises: no frame of this chunk was handed over
      have hc : (c._receive (.chunk (x :: t))).2 =
          { c with parser := { c.parser with buffer := [] } } := by
        rw [GattClient._receive, feed_of_error herr]
        simp
      rw [hc]
      refine ⟨?_, ?_, ?_⟩
      · rw [hfeeds, feed_of_error herr]
      · rw [hcompleted, feed_of_error herr]
        exact (List.append_nil _).symm
      · rw [hcompleted, feed_of_error herr]
        exact (List.append_nil _).symm
  · exact Took.of_eq rfl rfl rfl rfl
  · exact Took.of_eq rfl rfl rfl rfl

/-- **The wait.** If taking a value hands over `rs` and `ns`, so does the wait. -/
theorem await_took {α : Type} {take : GattClient → Option (α × GattClient)}
    (rs : List α → List GattResponse) (ns : List α → List GattNotification)
    (hrs : rs [] = []) (hns : ns [] = [])
    (htake : ∀ c a c', take c = some (a, c') → Took c c' [] (rs [a]) (ns [a]))
    (c : GattClient) (script : List Recv) :
    ∃ used, script = used ++ (Await.await take GattClient._receive c script).2.2 ∧
      Took c (Await.await take GattClient._receive c script).2.1 used
        (rs (Await.await take GattClient._receive c script).1.toList)
        (ns (Await.await take GattClient._receive c script).1.toList) := by
  -- the chunks that were used so far are the invariant of the wait
  refine Await.await_rule
    (I := fun c₁ script₁ => ∃ used, script = used ++ script₁ ∧ Took c c₁ used [] [])
    (Q := fun ended c₁ script₁ => ∃ used, script = used ++ script₁ ∧
      Took c c₁ used (rs ended.toList) (ns ended.toList))
    ?_ ?_ ?_ ?_ script c ⟨[], rfl, Took.of_eq rfl rfl rfl rfl⟩
  · rintro c₁ script₁ a c₂ ⟨used, hscript, htook⟩ htaken
    have hall := htook.trans (htake c₁ a c₂ htaken)
    rw [List.append_nil] at hall
    exact ⟨used, hscript, hall⟩
  · rintro c₁ ⟨used, hscript, htook⟩
    exact ⟨used, hscript, by rw [Await.Ended.toList, hrs, hns]; exact htook⟩
  · rintro c₁ r script₁ e c₂ ⟨used, hscript, htook⟩ hrecv
    have hstep := _receive_took c₁ r
    rw [hrecv] at hstep
    refine ⟨used ++ [r], by rw [hscript, List.append_assoc]; rfl, ?_⟩
    rw [Await.Ended.toList, hrs, hns]
    exact htook.trans hstep
  · rintro c₁ r script₁ c₂ ⟨used, hscript, htook⟩ hrecv
    have hstep := _receive_took c₁ r
    rw [hrecv] at hstep
    exact ⟨used ++ [r], by rw [hscript, List.append_assoc]; rfl, htook.trans hstep⟩

theorem awaitResponse_took (c : GattClient) (script : List Recv) :
    ∃ used, script = used ++ (c.awaitResponse script).2.2 ∧
      Took c (c.awaitResponse script).2.1 used (c.awaitResponse script).1.toList [] := by
  refine await_took id (fun _ => []) rfl rfl ?_ c script
  intro c₁ r c₂ hpop
  obtain ⟨rs, hc, rfl⟩ := GattClient.popResponse_eq hpop
  exact ⟨rfl, by rw [hc]; exact (List.append_nil _).symm, (List.append_nil _).symm⟩

theorem next_notification_took (c : GattClient) (script : List Recv) :
    ∃ used, script = used ++ (c.next_notification script).2.2 ∧
      Took c (c.next_notification script).2.1 used [] (c.next_notification script).1.toList := by
  refine await_took (fun _ => []) id rfl rfl ?_ c script
  intro c₁ n c₂ hpop
  obtain ⟨ns, hc, rfl⟩ := GattClient.popNotification_eq hpop
  exact ⟨rfl, (List.append_nil _).symm, by rw [hc]; exact (List.append_nil _).symm⟩

/-! ## Sessions -/

/-- The responses a call handed to its caller. -/
def CallEvent.responses : CallEvent → List GattResponse
  | .request _ _ _ _ _ (.returned (some response)) => [response]
  | _ => []

/-- The notifications a call handed to its caller. -/
def CallEvent.notifications : CallEvent → List GattNotification
  | .next_notification (.returned notification) => [notification]
  | _ => []

/-- **One call of a session.** -/
theorem call_took (c : GattClient) (script : List Recv) (call : ClientCall) :
    ∃ used, script = used ++ (c.call script call).2.2 ∧
      Took c (c.call script call).2.1 used (c.call script call).1.responses
        (c.call script call).1.notifications := by
  cases call with
  | next_notification =>
      obtain ⟨used, hscript, htook⟩ := next_notification_took c script
      rw [call_next_notification]
      refine ⟨used, hscript, ?_⟩
      rcases hcall : c.next_notification script with ⟨outcome, c', script'⟩
      rw [hcall] at htook
      cases outcome <;> exact htook
  | request characteristic operation payload send =>
      rw [call_request]
      rcases hframe : requestFrame characteristic operation payload with e | ⟨name, id, frame⟩
      · rw [request_refused c script send hframe]
        exact ⟨[], rfl, Took.of_eq rfl rfl rfl rfl⟩
      by_cases hsend : send = .ok
      · subst hsend
        by_cases hop : operation = OP_WRITE_WITHOUT_RESPONSE
        · rw [request_unanswered c script hframe hop]
          exact ⟨[], rfl, Took.of_eq rfl rfl rfl rfl⟩
        · obtain ⟨used, hscript, htook⟩ :=
            awaitResponse_took (c.sending name id operation payload frame) script
          have hsending : Took c (c.sending name id operation payload frame) [] [] [] :=
            Took.of_eq rfl rfl rfl rfl
          rw [request_answered c script hframe hop]
          rcases hcall : (c.sending name id operation payload frame).awaitResponse script with
            ⟨outcome, c', script'⟩
          rw [hcall] at hscript htook
          -- the record that `request` adds on return touches no queue
          have hall := hsending.trans htook
          cases outcome with
          | returned response =>
              exact ⟨used, hscript, hall.parser, hall.responses, hall.notifications⟩
          | raised e => exact ⟨used, hscript, hall⟩
          | waiting => exact ⟨used, hscript, hall⟩
      · obtain ⟨e, he⟩ := request_send_failed c script hframe hsend
        rw [he]
        exact ⟨[], rfl, Took.of_eq rfl rfl rfl rfl⟩

/-- **The run.** -/
theorem session_took (calls : List ClientCall) : ∀ (c : GattClient) (script : List Recv),
    ∃ used, script = used ++ (c.session calls script).2.2 ∧
      Took c (c.session calls script).2.1 used
        ((c.session calls script).1.flatMap CallEvent.responses)
        ((c.session calls script).1.flatMap CallEvent.notifications) := by
  induction calls with
  | nil =>
      intro c script
      exact ⟨[], rfl, Took.of_eq rfl rfl rfl rfl⟩
  | cons call calls ih =>
      intro c script
      obtain ⟨used, hscript, htook⟩ := call_took c script call
      unfold GattClient.session
      rcases hcall : c.call script call with ⟨event, c', script'⟩
      rw [hcall] at hscript htook
      dsimp only at hscript htook ⊢
      by_cases hwait : event.waiting
      · -- a call that never ends is the last one
        rw [if_pos hwait]
        refine ⟨used, hscript, ?_⟩
        simpa using htook
      · rw [if_neg hwait]
        obtain ⟨used', hscript', htook'⟩ := ih c' script'
        refine ⟨used ++ used', ?_, htook.trans htook'⟩
        rw [List.append_assoc, ← hscript', ← hscript]

/-! ## The contract -/

theorem length_byKind (frames : List GattFrame) :
    frames.length = (responsesOf frames).length + (notificationsOf frames).length := by
  induction frames with
  | nil => rfl
  | cons f frames ih =>
      cases f with
      | response r =>
          rw [responsesOf_response, notificationsOf_response, List.length_cons, List.length_cons]
          omega
      | notification n =>
          rw [responsesOf_notification, notificationsOf_notification, List.length_cons,
            List.length_cons]
          omega

/-- Chunk by chunk there are at most as many frames in front of the first unknown
notification as known ones, so their total number tells whether any chunk has
fewer. -/
theorem length_beforeUnknown (chunks : List (List GattFrame)) :
    (chunks.flatMap beforeUnknown).length ≤ (chunks.flatMap knownOf).length ∧
      ((chunks.flatMap beforeUnknown).length = (chunks.flatMap knownOf).length →
        ∀ frames ∈ chunks, Sparing frames) := by
  induction chunks with
  | nil => exact ⟨le_rfl, fun _ frames hf => by cases hf⟩
  | cons frames chunks ih =>
      obtain ⟨hle, heq⟩ := ih
      have hlen := congrArg List.length (knownOf_eq frames)
      rw [List.length_append] at hlen
      simp only [List.flatMap_cons, List.length_append, List.forall_mem_cons]
      refine ⟨by omega, fun h => ⟨?_, heq (by omega)⟩⟩
      rw [sparing_iff, ← List.length_eq_zero_iff]
      omega

theorem beforeUnknown_of_sparing {chunks : List (List GattFrame)}
    (h : ∀ frames ∈ chunks, Sparing frames) :
    chunks.flatMap beforeUnknown = chunks.flatMap knownOf := by
  induction chunks with
  | nil => rfl
  | cons frames chunks ih =>
      rw [List.forall_mem_cons] at h
      rw [List.flatMap_cons, List.flatMap_cons, ih h.2, knownOf_eq, (sparing_iff _).mp h.1,
        List.append_nil]

/-- **What an unknown notification costs.** In any session of a new client, all
responses and known notifications the parser completed have been handed to
callers or are queued, in order, exactly if no chunk had one of them behind an
unknown notification. -/
theorem session_keeps_known_iff {host : String} {port : ℤ} {timeout : ℚ}
    {transcript : Option (List TranscriptRecord)} {c : GattClient}
    (hc : GattClient.init host port timeout transcript true = .ok c)
    (calls : List ClientCall) (script : List Recv) :
    ∃ used, script = used ++ (c.session calls script).2.2 ∧
      (((c.session calls script).1.flatMap CallEvent.responses ++
            (c.session calls script).2.1.responses =
          responsesOf ((c.parser.completed used).flatMap knownOf) ∧
        (c.session calls script).1.flatMap CallEvent.notifications ++
            (c.session calls script).2.1.notifications =
          notificationsOf ((c.parser.completed used).flatMap knownOf)) ↔
      ∀ frames ∈ c.parser.completed used, Sparing frames) := by
  obtain ⟨used, hscript, htook⟩ := session_took calls c script
  obtain ⟨-, hresponses, -, hnotifications⟩ := GattClient.init_eq hc
  refine ⟨used, hscript, ?_⟩
  rw [htook.responses, htook.notifications, hresponses, hnotifications, List.nil_append,
    List.nil_append]
  constructor
  · -- equal queues have equal lengths, and a chunk that loses a frame is shorter
    rintro ⟨hr, hn⟩
    refine (length_beforeUnknown (c.parser.completed used)).2 ?_
    rw [length_byKind, hr, hn, ← length_byKind]
  · intro h
    rw [beforeUnknown_of_sparing h]
    exact ⟨rfl, rfl⟩

/-- A response and an unknown notification behind it: the read raises, and the
response stays queued. -/
theorem session_keeps_known_iff_behind :
    let script : List Recv := [.chunk [0, 1, 0, 100, 0xF0, 255, 0, 0]]
    ∃ c, GattClient.init "127.0.0.1" 18632 3 none true = .ok c ∧
      ((c.session [.request (.id 4) OP_READ [] .ok] script).1.flatMap CallEvent.responses ++
          (c.session [.request (.id 4) OP_READ [] .ok] script).2.1.responses =
        [⟨0, [100]⟩]) := by
  intro script
  refine ⟨_, rfl, ?_⟩
  obtain ⟨used, hscript, hiff⟩ := @session_keeps_known_iff "127.0.0.1" 18632 3 none _ rfl
    [.request (.id 4) OP_READ [] .ok] script
  have hused : used = script := by
    rw [hscript]
    exact (List.append_nil used).symm
  subst hused
  exact (hiff.mpr (by decide)).1

/-- **A response is lost.** The unknown notification stands in front of the
battery's answer in one chunk: the read raises, and the answer is neither
returned nor queued. -/
theorem unknown_notification_drops_response :
    let script : List Recv := [.chunk [0xF0, 255, 0, 0, 0, 1, 0, 100]]
    ∃ c, GattClient.init "127.0.0.1" 18632 3 none true = .ok c ∧
      c.parser.completed script = [[.notification ⟨255, []⟩, .response ⟨0, [100]⟩]] ∧
      (c.session [.request (.id 4) OP_READ [] .ok] script).1 =
        [.request (.id 4) OP_READ [] .ok 0 (.raised (.ValueError
          "characteristic must be a generated bridge name or ID"))] ∧
      (c.session [.request (.id 4) OP_READ [] .ok] script).2.1.responses = [] :=
  ⟨_, rfl, by decide, by rfl, by rfl⟩

end Ptlab.Gatt
