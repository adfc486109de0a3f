/-
The exceptions that leave a `GattClient`.

`_receive` gives a timeout and the end of the stream their place in the
`GattError` family, and the parser raises in it too. Two things go past: an
`OSError` of the socket, which is how a reset or a broken pipe arrives, and the
`ValueError` of `resolve_characteristic` for a notification with an unknown ID.
Whether a call meets one of them is a matter of what it reads before it is done.
`Guarded` says of a script that each of them stands behind something that ends
the wait, and `call_contained_iff` that this is what it takes.
-/
import Ptlab.Gatt.Unknown

set_option autoImplicit false

open Ptlab.Protocol

namespace Ptlab.Gatt

/-! ## What a script has for a wait -/

/-- A `GattError`. -/
def GattExc.isGattError : GattExc → Bool
  | .GattTimeout _ => true
  | .GattProtocolError _ => true
  | _ => false

/-- The `recv` finds that the peer has dropped the link. -/
def Recv.drops : Recv → Bool
  | .chunk [] => true
  | .oserror _ => true
  | _ => false

/-- The parser behind the data of a script. -/
def GattFrameParser.after (p : GattFrameParser) (script : List Recv) : GattFrameParser :=
  (p.feeds (fed script)).2

/-- The frames that one `recv` completes. -/
def GattFrameParser.completes (p : GattFrameParser) (r : Recv) : List GattFrame :=
  (p.completed [r]).flatten

/-- The `recv` fails, or it completes a notification with an unknown ID. -/
def Escapes (p : GattFrameParser) (r : Recv) : Prop :=
  (∃ message, r = .oserror message) ∨ ∃ f ∈ p.completes r, f.known = false

/-- The `recv` ends a wait: with an exception of the family, or with a frame that is
waited for. -/
def Ends (wanted : GattFrame → Bool) (p : GattFrameParser) (r : Recv) : Prop :=
  r = .timeout ∨ r = .chunk [] ∨ ¬ NoneRaised (p.feeds (fed [r])).1 ∨
    ∃ f ∈ p.completes r, wanted f = true

/-- Each `recv` that lets an exception escape stands behind one that ends the wait. -/
def Guarded (wanted : GattFrame → Bool) (p : GattFrameParser) (script : List Recv) : Prop :=
  ∀ before r rest, script = before ++ r :: rest → Escapes (p.after before) r →
    ∃ sooner r' between, before = sooner ++ r' :: between ∧ Ends wanted (p.after sooner) r'

/-- A response is waited for by `request`. -/
def GattFrame.isResponse : GattFrame → Bool
  | .response _ => true
  | .notification _ => false

/-- A notification is waited for by `next_notification`. -/
def GattFrame.isNotification : GattFrame → Bool
  | .response _ => false
  | .notification _ => true

theorem after_cons (p : GattFrameParser) (r : Recv) (script : List Recv) :
    p.after (r :: script) = (p.after [r]).after script := by
  unfold GattFrameParser.after
  rw [← List.singleton_append, fed_append, feeds_append]

theorem guarded_nil (wanted : GattFrame → Bool) (p : GattFrameParser) : Guarded wanted p [] := by
  intro before r rest h
  simp at h

/-- **One `recv` of a guarded script**: it does not let anything escape, and it ends the
wait or the rest is guarded. -/
theorem guarded_cons {wanted : GattFrame → Bool} {p : GattFrameParser} {r : Recv}
    {script : List Recv} :
    Guarded wanted p (r :: script) ↔
      ¬ Escapes p r ∧ (Ends wanted p r ∨ Guarded wanted (p.after [r]) script) := by
  constructor
  · intro h
    refine ⟨fun hescapes => ?_, ?_⟩
    · obtain ⟨sooner, r', between, hbefore, -⟩ := h [] r script rfl hescapes
      simp at hbefore
    · by_cases hends : Ends wanted p r
      · exact Or.inl hends
      · refine Or.inr fun before r' rest hscript hescapes => ?_
        rw [← after_cons] at hescapes
        obtain ⟨sooner, r'', between, hbefore, hsooner⟩ :=
          h (r :: before) r' rest (by rw [hscript]; rfl) hescapes
        -- what ends the wait is not `r`, so it stands in `before`
        cases sooner with
        | nil =>
            injection hbefore with hr hbefore
            subst hr
            exact absurd hsooner hends
        | cons r₀ sooner =>
            injection hbefore with hr hbefore
            subst hr
            rw [after_cons] at hsooner
            exact ⟨sooner, r'', between, hbefore, hsooner⟩
  · rintro ⟨hnot, hrest⟩ before r' rest hscript hescapes
    cases before with
    | nil =>
        injection hscript with hr hscript
        subst hr
        exact absurd hescapes hnot
    | cons r₀ before =>
        injection hscript with hr hscript
        subst hr
        rcases hrest with hends | hrest
        · exact ⟨[], r, before, rfl, hends⟩
        · rw [after_cons] at hescapes
          obtain ⟨sooner, r'', between, hbefore, hsooner⟩ := hrest before r' rest hscript hescapes
          refine ⟨r :: sooner, r'', between, by rw [hbefore]; rfl, ?_⟩
          rw [after_cons]
          exact hsooner

/-! ## One `recv` -/

/-- What a chunk completes, and the parser behind it. -/
theorem completes_chunk {p : GattFrameParser} {x : UInt8} {t : List UInt8}
    (h : (p.view (x :: t)).error = none) :
    p.completes (.chunk (x :: t)) = (p.view (x :: t)).items ∧
      p.after [.chunk (x :: t)] = { p with buffer := (p.view (x :: t)).rest } ∧
      NoneRaised (p.feeds (fed [.chunk (x :: t)])).1 := by
  have hfeeds : p.feeds (fed [.chunk (x :: t)]) = ([(p.feed (x :: t)).1], (p.feed (x :: t)).2) :=
    rfl
  unfold GattFrameParser.completes GattFrameParser.completed GattFrameParser.after
  rw [hfeeds, feed_of_ok h]
  refine ⟨by simp [handed], rfl, ?_⟩
  intro r hr
  rw [List.mem_singleton.mp hr]
  exact ⟨_, rfl⟩

/-- A chunk with an oversized header completes nothing. -/
theorem completes_oversized {p : GattFrameParser} {x : UInt8} {t : List UInt8} {size : ℕ}
    (h : (p.view (x :: t)).error = some size) :
    p.completes (.chunk (x :: t)) = [] ∧ ¬ NoneRaised (p.feeds (fed [.chunk (x :: t)])).1 := by
  have hfeeds : p.feeds (fed [.chunk (x :: t)]) = ([(p.feed (x :: t)).1], (p.feed (x :: t)).2) :=
    rfl
  unfold GattFrameParser.completes GattFrameParser.completed
  rw [hfeeds, feed_of_error h]
  refine ⟨rfl, fun hnone => ?_⟩
  obtain ⟨frames, hframes⟩ := hnone _ (List.mem_singleton.mpr rfl)
  cases hframes

/-- What is left of a `recv` that neither fails nor completes anything. -/
theorem not_escapes {p : GattFrameParser} {r : Recv} (hr : ∀ message, r ≠ .oserror message)
    (hcompletes : p.completes r = []) : ¬ Escapes p r := by
  rintro (⟨message, h⟩ | ⟨f, hf, -⟩)
  · exact hr message h
  · rw [hcompletes] at hf
    cases hf

/-- A chunk that the parser takes ends a wait by its frames alone. -/
theorem ends_chunk {wanted : GattFrame → Bool} {p : GattFrameParser} {x : UInt8} {t : List UInt8}
    (hnone : NoneRaised (p.feeds (fed [.chunk (x :: t)])).1) :
    Ends wanted p (.chunk (x :: t)) ↔ ∃ f ∈ p.completes (.chunk (x :: t)), wanted f = true := by
  constructor
  · rintro (h | h | h | h)
    · cases h
    · cases h
    · exact absurd hnone h
    · exact h
  · exact fun h => Or.inr (Or.inr (Or.inr h))

/-- It lets an exception escape if one of its frames is not known. -/
theorem escapes_chunk {p : GattFrameParser} {data : List UInt8} :
    Escapes p (.chunk data) ↔ ¬ ∀ f ∈ p.completes (.chunk data), f.known = true := by
  simp only [not_forall]
  constructor
  · rintro (⟨message, h⟩ | ⟨f, hf, hunknown⟩)
    · cases h
    · exact ⟨f, hf, by simpa using hunknown⟩
  · rintro ⟨f, hf, hunknown⟩
    exact Or.inr ⟨f, hf, by simpa using hunknown⟩

/-- **How a `recv` ends.** A return is for frames that are all known and for data that
ends a wait only by a frame that is waited for. An exception of the family ends every
wait, and one outside of it escapes. -/
theorem _receive_ends (wanted : GattFrame → Bool) (c : GattClient) (r : Recv) :
    match c._receive r with
    | (.ok (), c') => ¬ Escapes c.parser r ∧ r.drops = false ∧
        Received c c' (c.parser.completes r) (c.parser.after [r]) ∧
        (Ends wanted c.parser r ↔ ∃ f ∈ c.parser.completes r, wanted f = true)
    | (.error e, _) =>
        (e.isGattError = true ∧ ¬ Escapes c.parser r ∧ Ends wanted c.parser r ∧
          (r.drops = true → ∃ message, e = .GattProtocolError message)) ∨
        (e.isGattError = false ∧ Escapes c.parser r) := by
  -- the peer has closed, bytes came, the time is over, or the socket raised
  rcases r with (_ | ⟨x, t⟩) | _ | message
  · have hnot : ¬ Escapes c.parser (.chunk []) := not_escapes (fun _ h => by cases h) rfl
    unfold GattClient._receive
    split_ifs
    all_goals exact Or.inl ⟨rfl, hnot, Or.inr (Or.inl rfl), fun _ => ⟨_, rfl⟩⟩
  · rcases herr : (c.parser.view (x :: t)).error with _ | size
    · obtain ⟨hcompletes, hafter, hnone⟩ := completes_chunk herr
      obtain ⟨hrec, hok, hbad⟩ := _receive_chunk c (List.cons_ne_nil x t) herr
      rw [← hcompletes] at hok hbad hrec
      rw [← hafter] at hrec
      -- a characteristic that is not known raises behind the frames in front of it
      by_cases hall : ∀ f ∈ c.parser.completes (.chunk (x :: t)), f.known = true
      · rw [List.takeWhile_eq_self_iff.mpr hall] at hrec
        rcases hr : c._receive (.chunk (x :: t)) with ⟨r, c'⟩
        rw [hr] at hrec hok
        obtain rfl := hok hall
        exact ⟨escapes_chunk.not.mpr (not_not_intro hall), rfl, hrec, ends_chunk hnone⟩
      · obtain ⟨message, hm⟩ := hbad hall
        rcases hr : c._receive (.chunk (x :: t)) with ⟨r, c'⟩
        rw [hr] at hm
        dsimp only at hm
        subst hm
        exact Or.inr ⟨rfl, escapes_chunk.mpr hall⟩
    · -- the parser refuses the size, and drops its buffer
      obtain ⟨hcompletes, hraised⟩ := completes_oversized herr
      have hnot : ¬ Escapes c.parser (.chunk (x :: t)) :=
        not_escapes (fun _ h => by cases h) hcompletes
      rw [GattClient._receive, feed_of_error herr]
      · exact Or.inl ⟨rfl, hnot, Or.inr (Or.inr (Or.inl hraised)), fun _ => ⟨_, rfl⟩⟩
      · simp
  · exact Or.inl ⟨rfl, not_escapes (fun _ h => by cases h) rfl, Or.inl rfl, fun h => by cases h⟩
  · exact Or.inr ⟨rfl, Or.inl ⟨message, rfl⟩⟩

/-! ## A wait -/

/-- The exception that a call ended with. -/
def errorOf {α : Type} : Ended α → Option GattExc
  | .returned _ => none
  | .raised e => some e
  | .waiting => none

/-- No exception but one of the family. -/
def InFamily (error : Option GattExc) : Prop := ∀ e, error = some e → e.isGattError = true

/-- The call stays in the family, and it says so with a `GattProtocolError` if it found
the link dropped, in `sendall` or in what it read of the script. -/
structure Contained (script : List Recv) (lost : Bool) (error : Option GattExc)
    (rest : List Recv) : Prop where
  family : InFamily error
  dropped : ∀ used, script = used ++ rest → (lost = true ∨ ∃ r ∈ used, r.drops = true) →
    ∃ message, error = some (.GattProtocolError message)

section Wait

variable {α : Type} {take : GattClient → Option (α × GattClient)} {wanted : GattFrame → Bool}

/-- **A wait stays in the family** iff its script is guarded. -/
theorem await_inFamily
    (htake : ∀ {c c' : GattClient} {frames : List GattFrame} {parser : GattFrameParser},
      take c = none → Received c c' frames parser →
        (take c' = none ↔ ¬ ∃ f ∈ frames, wanted f = true))
    (script : List Recv) : ∀ c, take c = none →
      (InFamily (errorOf (Await.await take GattClient._receive c script).1) ↔
        Guarded wanted c.parser script) := by
  induction script with
  | nil =>
      intro c hc
      unfold Await.await
      rw [hc]
      exact ⟨fun _ => guarded_nil wanted c.parser, fun _ e h => by cases h⟩
  | cons r script ih =>
      intro c hc
      have hstep := _receive_ends wanted c r
      unfold Await.await
      rw [hc, guarded_cons]
      dsimp only
      rcases hr : c._receive r with ⟨e | ⟨⟩, c'⟩
      · rw [hr] at hstep
        dsimp only at hstep ⊢
        rcases hstep with ⟨hfamily, hnot, hends, -⟩ | ⟨hfamily, hescapes⟩
        · refine ⟨fun _ => ⟨hnot, Or.inl hends⟩, fun _ e' h => ?_⟩
          injection h with h
          rw [← h]
          exact hfamily
        · refine ⟨fun h => ?_, fun h => absurd hescapes h.1⟩
          have hin := h e rfl
          rw [hfamily] at hin
          cases hin
      · rw [hr] at hstep
        obtain ⟨hnot, -, hrec, hends⟩ := hstep
        dsimp only
        by_cases hmore : take c' = none
        · -- nothing to take yet: the wait goes on with the rest
          have hgoes : ¬ Ends wanted c.parser r := by
            rw [hends]
            exact (htake hc hrec).mp hmore
          rw [ih c' hmore, hrec.parser]
          exact ⟨fun h => ⟨hnot, Or.inr h⟩, fun h => h.2.resolve_left hgoes⟩
        · obtain ⟨⟨a, c''⟩, htaken⟩ := Option.ne_none_iff_exists'.mp hmore
          have hdone : Await.await take GattClient._receive c' script = (.returned a, c'', script) := by
            unfold Await.await
            rw [htaken]
          have hover : Ends wanted c.parser r := by
            rw [hends]
            by_contra hnone
            exact hmore ((htake hc hrec).mpr hnone)
          rw [hdone]
          exact ⟨fun _ => ⟨hnot, Or.inl hover⟩, fun _ e h => by cases h⟩

/-- Where nothing read has found the link dropped, no reading of it has. -/
theorem not_dropped {script before used rest : List Recv} (hbefore : script = before ++ rest)
    (hnone : ∀ r ∈ before, r.drops = false) (hused : script = used ++ rest) :
    ¬ ∃ r ∈ used, r.drops = true := by
  rintro ⟨r, hr, hdrop⟩
  rw [hbefore] at hused
  rw [← List.append_cancel_right hused] at hr
  rw [hnone r hr] at hdrop
  cases hdrop

/-- A wait that found the link dropped ended with that. -/
theorem await_dropped (c : GattClient) (script used : List Recv)
    (hscript : script = used ++ (Await.await take GattClient._receive c script).2.2)
    (hdropped : ∃ r ∈ used, r.drops = true) :
    ∃ e, (Await.await take GattClient._receive c script).1 = .raised e ∧
      (e.isGattError = true → ∃ message, e = .GattProtocolError message) := by
  refine Await.await_rule
    (I := fun _ rest => ∃ before, script = before ++ rest ∧ ∀ r ∈ before, r.drops = false)
    (Q := fun ended _ rest => ∀ used, script = used ++ rest → (∃ r ∈ used, r.drops = true) →
      ∃ e, ended = .raised e ∧ (e.isGattError = true → ∃ message, e = .GattProtocolError message))
    ?_ ?_ ?_ ?_ script c ⟨[], rfl, fun r hr => by cases hr⟩ used hscript hdropped
  · rintro c₁ rest a c₂ ⟨before, hbefore, hnone⟩ - used hused hdrop
    exact absurd hdrop (not_dropped hbefore hnone hused)
  · rintro c₁ ⟨before, hbefore, hnone⟩ used hused hdrop
    exact absurd hdrop (not_dropped hbefore hnone hused)
  · -- nothing was dropped before, so that it is the last of those that were used
    rintro c₁ r rest e c₂ ⟨before, hbefore, hnone⟩ hr used hused ⟨r', hr', hdrop⟩
    have hstep := _receive_ends (fun _ => false) c₁ r
    rw [hr] at hstep
    have hlast : before ++ [r] = used := by
      rw [hbefore, List.append_cons] at hused
      exact List.append_cancel_right hused
    have hdropped : r.drops = true := by
      rw [← hlast] at hr'
      rcases List.mem_append.mp hr' with hmem | hmem
      · rw [hnone r' hmem] at hdrop
        cases hdrop
      · rw [← List.mem_singleton.mp hmem]
        exact hdrop
    refine ⟨e, rfl, fun hfamily => ?_⟩
    rcases hstep with ⟨-, -, -, hclosed⟩ | ⟨hout, -⟩
    · exact hclosed hdropped
    · rw [hfamily] at hout
      cases hout
  · rintro c₁ r rest c₂ ⟨before, hbefore, hnone⟩ hr
    have hstep := _receive_ends (fun _ => false) c₁ r
    rw [hr] at hstep
    refine ⟨before ++ [r], by rw [hbefore, List.append_cons], fun r' hr' => ?_⟩
    rcases List.mem_append.mp hr' with hmem | hmem
    · exact hnone r' hmem
    · rw [List.mem_singleton.mp hmem]
      exact hstep.2.1

/-- **The wait**: something is there already, or the script is guarded. -/
theorem await_contained_iff
    (htake : ∀ {c c' : GattClient} {frames : List GattFrame} {parser : GattFrameParser},
      take c = none → Received c c' frames parser →
        (take c' = none ↔ ¬ ∃ f ∈ frames, wanted f = true))
    (c : GattClient) (script : List Recv) :
    Contained script false (errorOf (Await.await take GattClient._receive c script).1)
        (Await.await take GattClient._receive c script).2.2 ↔
      take c ≠ none ∨ Guarded wanted c.parser script := by
  have hdropped : InFamily (errorOf (Await.await take GattClient._receive c script).1) →
      Contained script false (errorOf (Await.await take GattClient._receive c script).1)
        (Await.await take GattClient._receive c script).2.2 := by
    refine fun hfamily => ⟨hfamily, fun used hused hdrop => ?_⟩
    have hread : ∃ r ∈ used, r.drops = true := hdrop.resolve_left (by simp)
    obtain ⟨e, he, hprotocol⟩ := await_dropped c script used hused hread
    rw [he] at hfamily ⊢
    obtain ⟨message, rfl⟩ := hprotocol (hfamily e rfl)
    exact ⟨message, rfl⟩
  rcases htaken : take c with _ | ⟨a, c'⟩
  · have hwait := await_inFamily htake script c htaken
    refine ⟨fun h => Or.inr (hwait.mp h.family), fun h => hdropped (hwait.mpr ?_)⟩
    exact h.resolve_left fun hne => hne rfl
  · -- what is there already is taken without a receive
    have hdone : Await.await take GattClient._receive c script = (.returned a, c', script) := by
      unfold Await.await
      rw [htaken]
    refine ⟨fun _ => Or.inl (Option.some_ne_none _), fun _ => hdropped ?_⟩
    rw [hdone]
    intro e h
    cases h

end Wait

theorem popResponse_none {c : GattClient} : c.popResponse = none ↔ c.responses = [] := by
  unfold GattClient.popResponse
  rcases c.responses with _ | ⟨response, responses⟩ <;> simp

theorem popNotification_none {c : GattClient} :
    c.popNotification = none ↔ c.notifications = [] := by
  unfold GattClient.popNotification
  rcases c.notifications with _ | ⟨frame, frames⟩ <;> simp

theorem responsesOf_eq_nil {frames : List GattFrame} :
    responsesOf frames = [] ↔ ¬ ∃ f ∈ frames, f.isResponse = true := by
  unfold responsesOf
  rw [List.filterMap_eq_nil_iff, not_exists]
  refine forall_congr' fun f => ?_
  cases f <;> simp [GattFrame.isResponse]

theorem notificationsOf_eq_nil {frames : List GattFrame} :
    notificationsOf frames = [] ↔ ¬ ∃ f ∈ frames, f.isNotification = true := by
  unfold notificationsOf
  rw [List.filterMap_eq_nil_iff, not_exists]
  refine forall_congr' fun f => ?_
  cases f <;> simp [GattFrame.isNotification]

theorem popResponse_received {c c' : GattClient} {frames : List GattFrame}
    {parser : GattFrameParser} (hc : c.popResponse = none) (h : Received c c' frames parser) :
    c'.popResponse = none ↔ ¬ ∃ f ∈ frames, f.isResponse = true := by
  rw [popResponse_none, h.responses, popResponse_none.mp hc, List.nil_append, responsesOf_eq_nil]

theorem popNotification_received {c c' : GattClient} {frames : List GattFrame}
    {parser : GattFrameParser} (hc : c.popNotification = none) (h : Received c c' frames parser) :
    c'.popNotification = none ↔ ¬ ∃ f ∈ frames, f.isNotification = true := by
  rw [popNotification_none, h.notifications, popNotification_none.mp hc, List.nil_append,
    notificationsOf_eq_nil]

/-! ## A call -/

/-- The exception that a call of a session ended with. -/
def CallEvent.error : CallEvent → Option GattExc
  | .request _ _ _ _ _ outcome => errorOf outcome
  | .next_notification outcome => errorOf outcome

/-- The request passes its checks. -/
def ClientCall.Valid : ClientCall → Prop
  | .request characteristic operation payload _ =>
    ∃ r, requestFrame characteristic operation payload = .ok r
  | .next_notification => True

/-- `sendall` finds that the peer has dropped the link. -/
def ClientCall.lost : ClientCall → Bool
  | .request _ _ _ (.oserror _) => true
  | _ => false

/-- The condition: `sendall` does not fail with an `OSError`, and where the call has to
wait, its script is guarded. -/
def ClientCall.Spared (c : GattClient) (script : List Recv) : ClientCall → Prop
  | .request _ operation _ .ok =>
    operation = OP_WRITE_WITHOUT_RESPONSE ∨ c.responses ≠ [] ∨
      Guarded GattFrame.isResponse c.parser script
  | .request _ _ _ .timeout => True
  | .request _ _ _ (.oserror _) => False
  | .next_notification =>
    c.notifications ≠ [] ∨ Guarded GattFrame.isNotification c.parser script

/-- A call that read nothing and did not raise, or raised in the family. -/
theorem contained_unread {script : List Recv} {error : Option GattExc} (h : InFamily error) :
    Contained script false error script := by
  refine ⟨h, fun used hused hdrop => ?_⟩
  have hnil : used = [] := by simpa using hused
  subst hnil
  rcases hdrop with hdrop | ⟨r, hr, -⟩
  · cases hdrop
  · cases hr

theorem awaitResponse_contained_iff (c : GattClient) (script : List Recv) :
    Contained script false (errorOf (c.awaitResponse script).1) (c.awaitResponse script).2.2 ↔
      c.responses ≠ [] ∨ Guarded GattFrame.isResponse c.parser script := by
  have hwait := await_contained_iff popResponse_received c script
  rw [Ne, popResponse_none] at hwait
  exact hwait

theorem next_notification_contained_iff (c : GattClient) (script : List Recv) :
    Contained script false (errorOf (c.next_notification script).1)
        (c.next_notification script).2.2 ↔
      c.notifications ≠ [] ∨ Guarded GattFrame.isNotification c.parser script := by
  have hwait := await_contained_iff popNotification_received c script
  rw [Ne, popNotification_none] at hwait
  exact hwait

/-- **What leaves a call.** A valid call returns or raises a `GattError`, and raises a
`GattProtocolError` if the peer has dropped the link, iff `sendall` does not fail with
an `OSError` and each `recv` that fails with one, or that completes a notification with
an unknown ID, stands behind one that ends the wait. -/
theorem call_contained_iff (c : GattClient) (script : List Recv) {call : ClientCall}
    (h : call.Valid) :
    Contained script call.lost (c.call script call).1.error (c.call script call).2.2 ↔
      call.Spared c script := by
  cases call with
  | next_notification =>
      rw [call_next_notification]
      exact next_notification_contained_iff c script
  | request characteristic operation payload send =>
      obtain ⟨⟨name, id, frame⟩, hframe⟩ := h
      rw [call_request]
      cases send with
      | timeout =>
          rw [GattClient.request, hframe]
          refine ⟨fun _ => trivial, fun _ => contained_unread ?_⟩
          intro e he
          injection he with he
          rw [← he]
          rfl
      | oserror message =>
          rw [GattClient.request, hframe]
          refine ⟨fun h => ?_, fun h => h.elim⟩
          have hin := h.family _ rfl
          cases hin
      | ok =>
          by_cases hop : operation = OP_WRITE_WITHOUT_RESPONSE
          · rw [request_unanswered c script hframe hop]
            refine ⟨fun _ => Or.inl hop, fun _ => contained_unread ?_⟩
            intro e he
            cases he
          · have hwait := awaitResponse_contained_iff
              (c.sending name id operation payload frame) script
            rw [request_answered c script hframe hop]
            rcases hcall : (c.sending name id operation payload frame).awaitResponse script with
              ⟨outcome, c', script'⟩
            rw [hcall] at hwait
            have hspared : ClientCall.Spared c script (.request characteristic operation payload
                .ok) ↔ c.responses ≠ [] ∨ Guarded GattFrame.isResponse c.parser script :=
              ⟨fun h => h.resolve_left hop, Or.inr⟩
            rw [hspared]
            -- what `request` makes of the response is no exception
            cases outcome with
            | returned response => exact hwait
            | raised e => exact hwait
            | waiting => exact hwait

/-- A read of the battery, from a bridge that closes the connection. -/
theorem call_contained_iff_closed :
    ∃ c, GattClient.init "127.0.0.1" 18632 3 none true = .ok c ∧
      Contained [.chunk []] false
        (c.call [.chunk []] (.request (.name "battery") OP_READ [] .ok)).1.error
        (c.call [.chunk []] (.request (.name "battery") OP_READ [] .ok)).2.2 := by
  have hvalid : (ClientCall.request (.name "battery") OP_READ [] .ok).Valid := ⟨_, rfl⟩
  refine ⟨_, rfl, (call_contained_iff _ _ hvalid).mpr (Or.inr (Or.inr ?_))⟩
  rw [guarded_cons]
  exact ⟨not_escapes (fun _ h => by cases h) rfl, Or.inl (Or.inr (Or.inl rfl))⟩

/-- A read of the battery whose connection is reset while it waits, one that is sent
into a broken pipe, and one that a notification with an unknown ID comes in front of:
each is raised outside the family. -/
theorem resets_and_unknown_ids_escape :
    ∃ c, GattClient.init "127.0.0.1" 18632 3 none true = .ok c ∧
      ∀ send script, (send, script) ∈ [
          (Send.ok, [Recv.oserror "[Errno 104] Connection reset by peer"]),
          (Send.oserror "[Errno 32] Broken pipe", []),
          (Send.ok, [Recv.chunk [0xF0, 255, 0, 0, 0, 1, 0, 100]])] →
        (ClientCall.request (.name "battery") OP_READ [] send).Valid ∧
        ¬ Contained script (ClientCall.request (.name "battery") OP_READ [] send).lost
          (c.call script (.request (.name "battery") OP_READ [] send)).1.error
          (c.call script (.request (.name "battery") OP_READ [] send)).2.2 := by
  refine ⟨_, rfl, fun send script h => ?_⟩
  simp only [List.mem_cons, List.not_mem_nil, or_false, Prod.mk.injEq] at h
  refine ⟨⟨_, rfl⟩, fun hcontained => ?_⟩
  rcases h with ⟨rfl, rfl⟩ | ⟨rfl, rfl⟩ | ⟨rfl, rfl⟩
  all_goals
    have hin := hcontained.family _ rfl
    cases hin

end Ptlab.Gatt
