/-
What one `GattClient._receive` does to the queues.

The frames of a chunk have left the parser before the loop over them runs, so
the loop's early exit decides which of them survive. `dispatch_spec` says which:
those in front of the first notification with an unknown ID. `_receive_chunk`
says it of a chunk without an oversized header, `_receive_ok` and
`_receive_timeout` what a normal return and a timeout mean.
-/
import Mathlib.Data.List.TakeWhile
import Ptlab.Gatt.Client

set_option autoImplicit false

open Deframe Bytes Ptlab.Protocol

namespace Ptlab.Gatt

/-! ## Frames by kind -/

/-- The responses among some frames, in order. -/
def responsesOf (frames : List GattFrame) : List GattResponse :=
  frames.filterMap fun f => match f with
    | .response r => some r
    | .notification _ => none

/-- The notifications among some frames, in order. -/
def notificationsOf (frames : List GattFrame) : List GattNotification :=
  frames.filterMap fun f => match f with
    | .response _ => none
    | .notification n => some n

@[simp] theorem responsesOf_nil : responsesOf [] = [] := rfl

@[simp] theorem notificationsOf_nil : notificationsOf [] = [] := rfl

@[simp] theorem responsesOf_response (r : GattResponse) (frames : List GattFrame) :
    responsesOf (.response r :: frames) = r :: responsesOf frames := rfl

@[simp] theorem responsesOf_notification (n : GattNotification) (frames : List GattFrame) :
    responsesOf (.notification n :: frames) = responsesOf frames := rfl

@[simp] theorem notificationsOf_response (r : GattResponse) (frames : List GattFrame) :
    notificationsOf (.response r :: frames) = notificationsOf frames := rfl

@[simp] theorem notificationsOf_notification (n : GattNotification) (frames : List GattFrame) :
    notificationsOf (.notification n :: frames) = n :: notificationsOf frames := rfl

@[simp] theorem responsesOf_append (xs ys : List GattFrame) :
    responsesOf (xs ++ ys) = responsesOf xs ++ responsesOf ys := List.filterMap_append

@[simp] theorem notificationsOf_append (xs ys : List GattFrame) :
    notificationsOf (xs ++ ys) = notificationsOf xs ++ notificationsOf ys :=
  List.filterMap_append

/-- Not a notification with an ID outside the bridge table. -/
def GattFrame.known : GattFrame → Bool
  | .response _ => true
  | .notification n => n.characteristic.toNat ∈ GENERATED_IDS

/-! ## The loop over a chunk's frames -/

/-- Two clients that differ in their queues and their transcript at most. -/
structure SameLink (c c' : GattClient) : Prop where
  host : c'.host = c.host
  port : c'.port = c.port
  parser : c'.parser = c.parser
  sent : c'.sent = c.sent

theorem SameLink.refl (c : GattClient) : SameLink c c := ⟨rfl, rfl, rfl, rfl⟩

/-- **The loop.** It queues the frames in front of the first unknown
notification, each in its queue, and returns if there is none; otherwise it
raises `ValueError`. -/
theorem dispatch_spec (frames : List GattFrame) : ∀ c : GattClient,
    SameLink c (c.dispatch frames).2 ∧
      (c.dispatch frames).2.responses = c.responses ++ responsesOf (frames.takeWhile (·.known)) ∧
      (c.dispatch frames).2.notifications =
        c.notifications ++ notificationsOf (frames.takeWhile (·.known)) ∧
      ((∀ f ∈ frames, f.known) → (c.dispatch frames).1 = .ok ()) ∧
      (¬ (∀ f ∈ frames, f.known) →
        ∃ message, (c.dispatch frames).1 = .error (.ValueError message)) := by
  induction frames with
  | nil =>
      intro c
      refine ⟨SameLink.refl c, by simp [GattClient.dispatch], by simp [GattClient.dispatch],
        fun _ => rfl, fun h => ?_⟩
      exact absurd (fun f hf => by cases hf) h
  | cons frame frames ih =>
      intro c
      cases frame with
      | response r =>
          -- a response needs no name: it is always queued
          obtain ⟨hlink, hresp, hnote, hok, hbad⟩ := ih { c with responses := c.responses ++ [r] }
          have hknown : (GattFrame.response r).known = true := rfl
          rw [GattClient.dispatch, List.takeWhile_cons_of_pos hknown]
          refine ⟨⟨hlink.host, hlink.port, hlink.parser, hlink.sent⟩, ?_, ?_, ?_, ?_⟩
          · rw [hresp, responsesOf_response, List.append_assoc, List.singleton_append]
          · rw [hnote, notificationsOf_response]
          · exact fun hall => hok (List.forall_mem_cons.mp hall).2
          · exact fun hnot => hbad fun hall => hnot (List.forall_mem_cons.mpr ⟨hknown, hall⟩)
      | notification n =>
          rw [GattClient.dispatch]
          rcases hres : resolve_characteristic (.id n.characteristic.toNat) with e | ⟨name, _⟩
          · -- unknown: nothing more is queued
            obtain ⟨hid, hmessage⟩ := resolve_id_error hres
            have hunknown : (GattFrame.notification n).known ≠ true := by
              simpa [GattFrame.known] using hid
            rw [List.takeWhile_cons_of_neg hunknown]
            refine ⟨SameLink.refl c, by simp, by simp, fun hall => ?_, fun _ => ?_⟩
            · exact absurd (hall _ (List.mem_cons_self ..)) hunknown
            · obtain ⟨message, rfl⟩ := hmessage
              exact ⟨message, rfl⟩
          · have hknown : (GattFrame.notification n).known = true := by
              have hmem := (resolve_id_iff n.characteristic.toNat).mp ⟨_, hres⟩
              simpa [GattFrame.known] using hmem
            obtain ⟨hlink, hresp, hnote, hok, hbad⟩ :=
              ih ({ c with notifications := c.notifications ++ [n] }._record
                ⟨"receive", "notify", name, n.characteristic.toNat, n.payload, none, none⟩)
            rw [List.takeWhile_cons_of_pos hknown]
            refine ⟨⟨hlink.host, hlink.port, hlink.parser, hlink.sent⟩, ?_, ?_, ?_, ?_⟩
            · rw [hresp, responsesOf_notification, GattClient._record_responses]
            · rw [hnote, notificationsOf_notification, GattClient._record_notifications,
                List.append_assoc, List.singleton_append]
            · exact fun hall => hok (List.forall_mem_cons.mp hall).2
            · exact fun hnot => hbad fun hall => hnot (List.forall_mem_cons.mpr ⟨hknown, hall⟩)

/-! ## One `recv` -/

/-- What is left of the client after a chunk whose frames were all queued. -/
structure Received (c c' : GattClient) (frames : List GattFrame) (parser : GattFrameParser) :
    Prop where
  host : c'.host = c.host
  port : c'.port = c.port
  sent : c'.sent = c.sent
  parser : c'.parser = parser
  responses : c'.responses = c.responses ++ responsesOf frames
  notifications : c'.notifications = c.notifications ++ notificationsOf frames

/-- **A chunk without an oversized header.** The client keeps the parser's rest,
queues the frames in front of the first unknown notification, and raises
`ValueError` if there is one. -/
theorem _receive_chunk (c : GattClient) {data : List UInt8} (hdata : data ≠ [])
    (herr : (c.parser.view data).error = none) :
    Received c (c._receive (.chunk data)).2
        ((c.parser.view data).items.takeWhile (·.known))
        { c.parser with buffer := (c.parser.view data).rest } ∧
      ((∀ f ∈ (c.parser.view data).items, f.known) → (c._receive (.chunk data)).1 = .ok ()) ∧
      (¬ (∀ f ∈ (c.parser.view data).items, f.known) →
        ∃ message, (c._receive (.chunk data)).1 = .error (.ValueError message)) := by
  obtain ⟨x, t, rfl⟩ := List.exists_cons_of_ne_nil hdata
  obtain ⟨hlink, hresp, hnote, hok, hbad⟩ := dispatch_spec (c.parser.view (x :: t)).items
    { c with parser := { c.parser with buffer := (c.parser.view (x :: t)).rest } }
  rw [GattClient._receive, feed_of_ok herr]
  exact ⟨⟨hlink.host, hlink.port, hlink.sent, hlink.parser, hresp, hnote⟩, hok, hbad⟩
  all_goals simp

/-- **A `recv` that returns normally** brought data without an oversized header
and without an unknown notification. -/
theorem _receive_ok {c c' : GattClient} {r : Recv} (h : c._receive r = (.ok (), c')) :
    ∃ data, r = .chunk data ∧ (c.parser.view data).error = none ∧
      (∀ f ∈ (c.parser.view data).items, f.known) ∧
      Received c c' (c.parser.view data).items
        { c.parser with buffer := (c.parser.view data).rest } := by
  rcases r with (_ | ⟨x, t⟩) | _ | _
  · rw [GattClient._receive] at h
    split_ifs at h <;> cases h
  · rcases herr : (c.parser.view (x :: t)).error with _ | size
    · obtain ⟨hrec, hok, hbad⟩ := _receive_chunk c (List.cons_ne_nil x t) herr
      -- an unknown characteristic would have raised
      by_cases hall : ∀ f ∈ (c.parser.view (x :: t)).items, f.known
      · refine ⟨_, rfl, herr, hall, ?_⟩
        rw [h, List.takeWhile_eq_self_iff.mpr hall] at hrec
        exact hrec
      · obtain ⟨message, hm⟩ := hbad hall
        rw [h] at hm
        cases hm
    · rw [GattClient._receive, feed_of_error herr] at h
      · cases h
      · simp
  · cases h
  · cases h

/-- A `recv` that raises `GattTimeout` timed out and changed nothing. -/
theorem _receive_timeout {c c' : GattClient} {r : Recv} {message : String}
    (h : c._receive r = (.error (.GattTimeout message), c')) : r = .timeout ∧ c' = c := by
  rcases r with (_ | ⟨x, t⟩) | _ | _
  · rw [GattClient._receive] at h
    split_ifs at h <;> cases h
  · rcases herr : (c.parser.view (x :: t)).error with _ | size
    · obtain ⟨-, hok, hbad⟩ := _receive_chunk c (List.cons_ne_nil x t) herr
      by_cases hall : ∀ f ∈ (c.parser.view (x :: t)).items, f.known
      · have hok := hok hall
        rw [h] at hok
        cases hok
      · obtain ⟨m, hm⟩ := hbad hall
        rw [h] at hm
        cases hm
    · rw [GattClient._receive, feed_of_error herr] at h
      · cases h
      · simp
  · rw [GattClient._receive] at h
    injection h with _ h
    exact ⟨rfl, h.symm⟩
  · cases h

end Ptlab.Gatt
