/-
What a client of the watch asks, and the link that carries it out.

The Python functions and `companion-cli.mjs` speak to the same watch. Here they
are dialogues of the same calls, so that they can be held against the same
answers; `Link.call` carries a call out with the client of `src/ptlab/gatt.py`.

That client takes no reply of more than 64 bytes, and the one of `companion-cli.mjs` takes
them all. So a Python function meets a watch through `received`, where a longer reply is an
exception, and a JavaScript function `against` it.
-/
import Ptlab.Lib.Dialogue
import Ptlab.Wire.Push

set_option autoImplicit false

open Dialogue Effect Ptlab.Gatt Ptlab.Protocol

namespace Ptlab.Wire

/-- A call of a client: a request to the watch, or a reading of the clock. -/
inductive Call where
  | request (characteristic : String) (operation : ℤ) (payload : List UInt8)
  | monotonic
  deriving DecidableEq, Repr

/-- What a call comes back with. -/
@[reducible] def Call.Reply : Call → Type
  | .request _ _ _ => GattResponse
  | .monotonic => ℤ

/-- A client: what it calls, and what it makes of the replies. -/
abbrev Client (ε α : Type) : Type := Dialogue Call Call.Reply ε α

/-- A watch and a clock. A script of replies is a watch that counts the calls. -/
abbrev Watch : Type := Server Call Call.Reply

/-- `read` of a characteristic. -/
def Client.read {ε : Type} (characteristic : String) : Client ε GattResponse :=
  question (A := Call.Reply) (Call.request characteristic OP_READ [])

/-- `write` to a characteristic. -/
def Client.write {ε : Type} (characteristic : String) (payload : List UInt8) :
    Client ε GattResponse :=
  question (A := Call.Reply) (Call.request characteristic OP_WRITE payload)

/-- `time.monotonic()`. -/
def Client.monotonic {ε : Type} : Client ε ℤ := question (A := Call.Reply) Call.monotonic

/-- A response that must have status 0; `what` is its name in the error. -/
def expectAccepted (what : String) (response : GattResponse) : Except WireError Unit :=
  if response.status ≠ 0 then
    .error (.RuntimeError s!"{what} failed with ATT status 0x{hex02 response.status}")
  else .ok ()

theorem expectAccepted_ok_iff (what : String) (response : GattResponse) :
    expectAccepted what response = .ok () ↔ response.status = 0 := by
  unfold expectAccepted
  split_ifs with hstatus
  · exact ⟨fun h => (by cases h), fun h => absurd h hstatus⟩
  · exact ⟨fun _ => not_not.mp hstatus, fun _ => rfl⟩

/-! ## On a watch -/

section Against

variable {ε α : Type} (watch : Watch) (asked : List Call)

theorem exec_read_bind (characteristic : String) (f : GattResponse → Client ε α) :
    ((Client.read characteristic >>= f).against watch).exec asked =
      ((f (watch asked (.request characteristic OP_READ []))).against watch).exec
        (asked ++ [.request characteristic OP_READ []]) :=
  exec_against_question_bind watch (Call.request characteristic OP_READ []) f asked

theorem exec_write_bind (characteristic : String) (payload : List UInt8)
    (f : GattResponse → Client ε α) :
    ((Client.write characteristic payload >>= f).against watch).exec asked =
      ((f (watch asked (.request characteristic OP_WRITE payload))).against watch).exec
        (asked ++ [.request characteristic OP_WRITE payload]) :=
  exec_against_question_bind watch (Call.request characteristic OP_WRITE payload) f asked

end Against

/-! ## Through the client of `gatt.py` -/

/-- The parser of `GattClient` takes the response. -/
def Taken (response : GattResponse) : Prop := response.payload.length ≤ MAX_RESPONSE_PAYLOAD

instance : DecidablePred Taken := fun _ => inferInstanceAs (Decidable (_ ≤ _))

/-- What comes out of `GattClient.request` for a longer one. -/
def refusedReply (response : GattResponse) : PushExc :=
  .gatt (oversized response.payload.length MAX_RESPONSE_PAYLOAD)

/-- A call, carried out by `GattClient` with a watch that gives these replies. -/
def receive (watch : Watch) : (c : Call) → Effect (List Call) PushExc c.Reply
  | .request characteristic operation payload => .of fun asked =>
    let call := Call.request characteristic operation payload
    let response : GattResponse := watch asked call
    (if Taken response then .ok response else .error (refusedReply response), asked ++ [call])
  | .monotonic => .of fun asked => (.ok (watch asked .monotonic), asked ++ [.monotonic])

/-- A client on `GattClient`; `raise` places its exceptions among those of the calls. -/
def Client.received {ε α : Type} (raise : ε → PushExc) (client : Client ε α) (watch : Watch) :
    Effect (List Call) PushExc α :=
  client.perform (receive watch) raise

/-- The replies to these calls are taken. -/
def AllTaken (watch : Watch) : List Call → List Call → Prop
  | _, [] => True
  | asked, .request characteristic operation payload :: rest =>
    Taken (watch asked (.request characteristic operation payload)) ∧
      AllTaken watch (asked ++ [.request characteristic operation payload]) rest
  | asked, .monotonic :: rest => AllTaken watch (asked ++ [.monotonic]) rest

section Received

variable {ε α : Type} (raise : ε → PushExc) (watch : Watch) (asked : List Call)

theorem allTaken_append (calls later : List Call) :
    AllTaken watch asked (calls ++ later) ↔
      AllTaken watch asked calls ∧ AllTaken watch (asked ++ calls) later := by
  induction calls generalizing asked with
  | nil =>
      rw [List.nil_append, List.append_nil]
      exact (and_iff_right trivial).symm
  | cons call calls ih =>
      cases call with
      | request characteristic operation payload =>
          rw [List.cons_append, AllTaken, AllTaken, ih, and_assoc, List.append_assoc]
          rfl
      | monotonic =>
          rw [List.cons_append, AllTaken, AllTaken, ih, List.append_assoc]
          rfl

theorem exec_receive_bind {characteristic : String} {operation : ℤ} {payload : List UInt8}
    (h : Taken (watch asked (.request characteristic operation payload)))
    (f : GattResponse → Effect (List Call) PushExc α) :
    (receive watch (.request characteristic operation payload) >>= f).exec asked =
      (f (watch asked (.request characteristic operation payload))).exec
        (asked ++ [.request characteristic operation payload]) := by
  rw [exec_bind, receive, exec_of]
  dsimp only
  rw [if_pos h]

theorem exec_receive_refused {characteristic : String} {operation : ℤ} {payload : List UInt8}
    (h : ¬ Taken (watch asked (.request characteristic operation payload)))
    (f : GattResponse → Effect (List Call) PushExc α) :
    (receive watch (.request characteristic operation payload) >>= f).exec asked =
      (.error (refusedReply (watch asked (.request characteristic operation payload))),
        asked ++ [.request characteristic operation payload]) := by
  rw [exec_bind, receive, exec_of]
  dsimp only
  rw [if_neg h]

theorem exec_received_read_bind {characteristic : String}
    (h : Taken (watch asked (.request characteristic OP_READ [])))
    (f : GattResponse → Client ε α) :
    ((Client.read characteristic >>= f).received raise watch).exec asked =
      ((f (watch asked (.request characteristic OP_READ []))).received raise watch).exec
        (asked ++ [.request characteristic OP_READ []]) :=
  exec_receive_bind watch asked h fun response => (f response).received raise watch

theorem exec_received_read_refused {characteristic : String}
    (h : ¬ Taken (watch asked (.request characteristic OP_READ [])))
    (f : GattResponse → Client ε α) :
    ((Client.read characteristic >>= f).received raise watch).exec asked =
      (.error (refusedReply (watch asked (.request characteristic OP_READ []))),
        asked ++ [.request characteristic OP_READ []]) :=
  exec_receive_refused watch asked h fun response => (f response).received raise watch

theorem exec_received_monotonic_bind (f : ℤ → Client ε α) :
    ((Client.monotonic >>= f).received raise watch).exec asked =
      ((f (watch asked .monotonic)).received raise watch).exec (asked ++ [.monotonic]) :=
  exec_bind (receive watch .monotonic) _ asked

/-- **The limit.** On `GattClient` a client does what it does without, up to the first reply
that is not taken. By induction on the client. -/
theorem received_cases (client : Client ε α) :
    ∃ later, ((client.against watch).exec asked).2 = asked ++ later ∧
      ((AllTaken watch asked later ∧ (client.received raise watch).exec asked =
          (((client.against watch).exec asked).1.mapError raise, asked ++ later)) ∨
        ∃ pre characteristic operation payload post,
          let call := Call.request characteristic operation payload
          let response : GattResponse := watch (asked ++ pre) call
          later = pre ++ call :: post ∧ AllTaken watch asked pre ∧ ¬ Taken response ∧
            (client.received raise watch).exec asked =
              (.error (refusedReply response), asked ++ pre ++ [call])) := by
  induction client generalizing asked with
  | ret a => exact ⟨[], (List.append_nil _).symm, .inl ⟨trivial, by rw [List.append_nil]; rfl⟩⟩
  | fail e => exact ⟨[], (List.append_nil _).symm, .inl ⟨trivial, by rw [List.append_nil]; rfl⟩⟩
  | ask call next ih =>
      rw [exec_against_ask]
      cases call with
      | monotonic =>
          obtain ⟨later, hlater, hrun⟩ := ih (watch asked .monotonic) (asked ++ [.monotonic])
          refine ⟨.monotonic :: later, by rw [hlater, List.append_assoc]; rfl, ?_⟩
          rcases hrun with ⟨htaken, hrun⟩ | ⟨pre, c, o, p, post, rfl, htaken, hlong, hrun⟩
          · refine .inl ⟨htaken, hrun.trans ?_⟩
            rw [List.append_assoc]
            rfl
          · refine .inr ⟨.monotonic :: pre, c, o, p, post, rfl, htaken, ?_⟩
            rw [List.append_assoc] at hlong hrun
            exact ⟨hlong, hrun⟩
      | request characteristic operation payload =>
          let reply : GattResponse := watch asked (.request characteristic operation payload)
          obtain ⟨later, hlater, hrun⟩ := ih reply (asked ++ [.request characteristic operation
            payload])
          refine ⟨.request characteristic operation payload :: later,
            by rw [hlater, List.append_assoc]; rfl, ?_⟩
          by_cases htake : Taken reply
          · have hfirst : ((Dialogue.ask (.request characteristic operation payload) next).perform
                (receive watch) raise).exec asked = _ :=
              exec_receive_bind watch asked htake fun answer =>
                (next answer).perform (receive watch) raise
            rcases hrun with ⟨htaken, hrun⟩ | ⟨pre, c, o, p, post, rfl, htaken, hlong, hrun⟩
            · refine .inl ⟨⟨htake, htaken⟩, hfirst.trans (hrun.trans ?_)⟩
              rw [List.append_assoc]
              rfl
            · refine .inr ⟨.request characteristic operation payload :: pre, c, o, p, post, rfl,
                ⟨htake, htaken⟩, ?_⟩
              rw [List.append_assoc] at hlong hrun
              exact ⟨hlong, hfirst.trans hrun⟩
          · refine .inr ⟨[], characteristic, operation, payload, later, rfl, trivial, ?_⟩
            rw [List.append_nil]
            exact ⟨htake, exec_receive_refused watch asked htake _⟩

/-- A client returns on `GattClient` exactly if it returns without, and every reply it got is
taken. -/
theorem received_ok_iff (client : Client ε α) (a : α) :
    ((client.received raise watch).exec asked).1 = .ok a ↔
      ((client.against watch).exec asked).1 = .ok a ∧
        ∃ later, ((client.against watch).exec asked).2 = asked ++ later ∧
          AllTaken watch asked later := by
  obtain ⟨later, hlater, hrun⟩ := received_cases raise watch asked client
  rcases hrun with ⟨htaken, hrun⟩ | ⟨pre, c, o, p, post, rfl, -, hlong, hrun⟩
  · rw [hrun]
    have hmap : ((client.against watch).exec asked).1.mapError raise = .ok a ↔
        ((client.against watch).exec asked).1 = .ok a := by
      rcases ((client.against watch).exec asked).1 with e | b
      · exact iff_of_false (fun h => by cases h) fun h => by cases h
      · exact ⟨fun h => congrArg Except.ok (Except.ok.inj h),
          fun h => congrArg Except.ok (Except.ok.inj h)⟩
    exact hmap.trans ⟨fun h => ⟨h, later, hlater, htaken⟩, fun h => h.1⟩
  · rw [hrun]
    refine iff_of_false (fun h => by cases h) fun ⟨_, later', hlater', htaken⟩ => ?_
    obtain rfl := List.append_cancel_left (hlater.symm.trans hlater')
    exact hlong ((allTaken_append watch asked pre _).mp htaken).2.1

end Received

/-! ## On a link -/

/-- A call, carried out by the client in use. -/
def Link.call : (c : Call) → Effect Link PushExc c.Reply
  | .request characteristic operation payload => Link.request characteristic operation payload
  | .monotonic => Wire.monotonic

/-- A client on a link; `raise` places its exceptions among those of the link. -/
def Client.onLink {ε α : Type} (raise : ε → PushExc) (client : Client ε α) :
    Effect Link PushExc α :=
  client.perform Link.call raise

/-- The exchanges of some calls that were carried out. -/
def exchangesOf (answered : List (Sigma Call.Reply)) : List Exchange :=
  answered.filterMap fun
    | ⟨.request characteristic operation payload, response⟩ =>
      some ⟨characteristic, operation, payload, response⟩
    | ⟨.monotonic, _⟩ => none

/-- The link records the requests that were answered, and nothing else. -/
theorem exchanges_of_carried {link link' : Link} {answered : List (Sigma Call.Reply)}
    (h : Carried Link.call link answered link') :
    link'.exchanges = link.exchanges ++ exchangesOf answered := by
  induction h with
  | nil => exact (List.append_nil _).symm
  | @cons c reply _ _ _ _ first _ ih =>
      rw [ih]
      cases c with
      | request characteristic operation payload =>
          have hlog := (link_request_spec characteristic operation payload).of_ok rfl first
          rw [hlog, List.append_assoc]
          rfl
      | monotonic =>
          rw [monotonic_spec.of_ok rfl first]
          rfl

/-- **From a link to a watch.** A client that returned on a link returns the same
from a watch that gives the replies recorded there. -/
theorem onLink_against {ε α : Type} {raise : ε → PushExc} {client : Client ε α} {a : α}
    {link link' : Link} (h : (client.onLink raise).exec link = (.ok a, link')) :
    ∃ answered : List (Sigma Call.Reply),
      link'.exchanges = link.exchanges ++ exchangesOf answered ∧
      ∀ watch : Watch, watch.Gives [] answered →
        (client.against watch).exec [] = (.ok a, answered.map Sigma.fst) := by
  obtain ⟨answered, hcarried, hserver⟩ := perform_answers client link h
  exact ⟨answered, exchanges_of_carried hcarried, fun watch hgives => hserver watch [] hgives⟩

end Ptlab.Wire
