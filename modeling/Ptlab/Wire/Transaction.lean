/-
The order of a push (`push_records`, `src/ptlab/wire.py`) on the wire.

A push writes its messages one after another, each only when the one before was
accepted, and then reads the status. So at every point the frames it has put on
the wire are the first messages, all but the last of them accepted, and behind
the commit nothing but status reads. `Progress` is that invariant, `Stopped` is
what is left of it where the push gives up, and `push_records_transaction` reads
the order off them for every link, that is for every script of answers, timeouts
and socket errors.
-/
import Ptlab.Gatt.Requests
import Ptlab.Wire.Push

set_option autoImplicit false

open Bytes Effect Ptlab.Gatt Ptlab.Protocol

namespace Ptlab.Wire

/-! ## The messages -/

/-- The messages of a push with arguments in range. -/
def pushMessages (records : List (List UInt8)) (version record_version : ℤ) :
    List (List UInt8) :=
  ([0, 0, UInt8.ofNat records.length] ++ le32 version.toNat) ::
    records.zipIdx.map (fun turn =>
      [1, UInt8.ofNat record_version.toNat, UInt8.ofNat turn.2] ++ turn.1) ++
    [[2, 0, UInt8.ofNat records.length]]

/-- The arguments that the claim of an order is about: what the three message
builders and `request` let through. -/
structure Pushable (sync_characteristic : String) (records : List (List UInt8))
    (version record_version : ℤ) : Prop where
  sync : sync_characteristic = "schedule_sync" ∨ sync_characteristic = "tasks_sync"
  count : records.length ≤ 255
  fits : ∀ record ∈ records, 3 + record.length ≤ MAX_REQUEST_PAYLOAD
  version : 0 ≤ version ∧ version ≤ 0xFFFFFFFF
  record_version : 0 ≤ record_version ∧ record_version ≤ 0xFF

/-- The frame that `request` makes of a payload. -/
def frameOf (characteristic : String) (operation : ℤ) (payload : List UInt8) : List UInt8 :=
  match requestFrame (.name characteristic) operation payload with
  | .ok (_, _, frame) => frame
  | .error _ => []

/-- The frame of a status read. -/
def statusFrame : List UInt8 := frameOf "family_state_status" OP_READ []

/-- A write to a characteristic that resolves is let through if it fits. -/
theorem requestFrame_resolved {name : String} {id : ℕ} {payload : List UInt8}
    (hid : resolve_characteristic (.name name) = .ok (name, id))
    (hfit : payload.length ≤ MAX_REQUEST_PAYLOAD) :
    requestFrame (.name name) OP_WRITE payload = .ok (name, id, frameOf name OP_WRITE payload) := by
  have hframe : requestFrame (.name name) OP_WRITE payload =
      .ok (name, id, UInt8.ofNat id :: UInt8.ofNat OP_WRITE.toNat ::
        (le16 payload.length ++ payload)) := by
    unfold requestFrame
    rw [hid]
    dsimp only
    rw [if_neg (by decide), if_neg (not_lt.mpr hfit), if_neg (fun h => absurd h.1 (by decide))]
  unfold frameOf
  rw [hframe]

theorem requestFrame_sync {sync_characteristic : String} {payload : List UInt8}
    (hsync : sync_characteristic = "schedule_sync" ∨ sync_characteristic = "tasks_sync")
    (hfit : payload.length ≤ MAX_REQUEST_PAYLOAD) :
    ∃ id, requestFrame (.name sync_characteristic) OP_WRITE payload =
      .ok (sync_characteristic, id, frameOf sync_characteristic OP_WRITE payload) := by
  have hresolve : ∃ id, resolve_characteristic (.name sync_characteristic) =
      .ok (sync_characteristic, id) := by
    rcases hsync with rfl | rfl
    · exact ⟨0, by decide⟩
    · exact ⟨30, by decide⟩
  obtain ⟨id, hid⟩ := hresolve
  exact ⟨id, requestFrame_resolved hid hfit⟩

theorem requestFrame_status : ∃ id, requestFrame (.name "family_state_status") OP_READ [] =
    .ok ("family_state_status", id, statusFrame) := ⟨35, by decide⟩

/-! ## One request -/

/-- The three ways through a request that is let through: not sent, sent and not
answered, sent and answered. -/
theorem request_cases {characteristic name : String} {operation : ℤ} {payload frame : List UInt8}
    {id : ℕ} (hframe : requestFrame (.name characteristic) operation payload =
      .ok (name, id, frame)) (hop : operation ≠ OP_WRITE_WITHOUT_RESPONSE) (link : Link) :
    (∃ error link', (Link.request characteristic operation payload).exec link =
        (.error error, link') ∧ link'.client.sent = link.client.sent ∧
        link'.exchanges = link.exchanges) ∨
    (∃ error link', (Link.request characteristic operation payload).exec link =
        (.error error, link') ∧ link'.client.sent = link.client.sent ++ [frame] ∧
        link'.exchanges = link.exchanges) ∨
    (∃ response link', (Link.request characteristic operation payload).exec link =
        (.ok response, link') ∧ link'.client.sent = link.client.sent ++ [frame] ∧
        link'.exchanges =
          link.exchanges ++ [⟨characteristic, operation, payload, response⟩]) := by
  unfold Link.request
  rw [exec_of]
  by_cases hsend : link.sends.headD .ok = .ok
  · right
    rw [hsend, request_answered link.client link.script hframe hop]
    have hsent := awaitResponse_sent (link.client.sending name id operation payload frame)
      link.script
    rw [GattClient.sending_sent] at hsent
    rcases hawait : (link.client.sending name id operation payload frame).awaitResponse
      link.script with ⟨response | e | _, client, script⟩ <;> rw [hawait] at hsent
    · exact .inr ⟨response, _, rfl, hsent, rfl⟩
    · exact .inl ⟨_, _, rfl, hsent, rfl⟩
    · exact .inl ⟨_, _, rfl, hsent, rfl⟩
  · left
    obtain ⟨e, hrequest⟩ := request_send_failed link.client link.script hframe hsend
    rw [hrequest]
    exact ⟨_, _, rfl, rfl, rfl⟩

/-! ## A write -/

section Order

variable {sync_characteristic : String} {S : List (List UInt8)} {L : List Exchange}

/-- The messages as frames. -/
def framesOf (sync_characteristic : String) (messages : List (List UInt8)) : List (List UInt8) :=
  messages.map (frameOf sync_characteristic OP_WRITE)

/-- These messages were sent and accepted, and nothing else was sent. -/
def Progress (sync_characteristic : String) (S : List (List UInt8)) (L : List Exchange)
    (messages : List (List UInt8)) (link : Link) : Prop :=
  link.client.sent = S ++ framesOf sync_characteristic messages ∧
    ∃ writes, link.exchanges = L ++ writes ∧
      List.Forall₂ (Accepted sync_characteristic) messages writes

/-- The push has given up at one of these messages, those before it accepted: it
was not sent, or not answered, or refused. -/
def Stopped (sync_characteristic : String) (S : List (List UInt8)) (L : List Exchange)
    (messages : List (List UInt8)) (error : PushExc) (link : Link) : Prop :=
  ∃ done message rest writes, messages = done ++ message :: rest ∧
    List.Forall₂ (Accepted sync_characteristic) done writes ∧
    ((link.client.sent = S ++ framesOf sync_characteristic done ∧ link.exchanges = L ++ writes) ∨
      (link.client.sent = S ++ framesOf sync_characteristic (done ++ [message]) ∧
        link.exchanges = L ++ writes) ∨
      (link.client.sent = S ++ framesOf sync_characteristic (done ++ [message]) ∧
        ∃ response text, link.exchanges =
            L ++ (writes ++ [⟨sync_characteristic, OP_WRITE, message, response⟩]) ∧
          response.status ≠ 0 ∧ error = .wire (.RuntimeError text)))

theorem framesOf_concat (messages : List (List UInt8)) (message : List UInt8) :
    framesOf sync_characteristic (messages ++ [message]) =
      framesOf sync_characteristic messages ++
        [frameOf sync_characteristic OP_WRITE message] := List.map_append

/-- **A write**: one message more was accepted, or the push stops at it. -/
theorem writeAccepted_order (done rest : List (List UInt8)) (message : List UInt8)
    (what : String)
    (hsync : sync_characteristic = "schedule_sync" ∨ sync_characteristic = "tasks_sync")
    (hfit : message.length ≤ MAX_REQUEST_PAYLOAD) :
    Triple (Progress sync_characteristic S L done)
      (writeAccepted sync_characteristic what message)
      (fun _ => Progress sync_characteristic S L (done ++ [message]))
      (Stopped sync_characteristic S L (done ++ message :: rest)) := by
  rintro link ⟨hsent, writes, hexchanges, haccepted⟩
  obtain ⟨id, hframe⟩ := requestFrame_sync hsync hfit
  unfold writeAccepted Link.write
  rw [exec_bind]
  rcases request_cases hframe (by decide) link with ⟨error, link', hrun, hsent', hexchanges'⟩ |
    ⟨error, link', hrun, hsent', hexchanges'⟩ | ⟨response, link', hrun, hsent', hexchanges'⟩ <;>
    rw [hrun] <;> rw [hsent] at hsent' <;> rw [hexchanges] at hexchanges'
  · exact ⟨done, message, rest, writes, rfl, haccepted, .inl ⟨hsent', hexchanges'⟩⟩
  · refine ⟨done, message, rest, writes, rfl, haccepted, .inr (.inl ⟨?_, hexchanges'⟩)⟩
    rw [hsent', framesOf_concat, List.append_assoc]
  · have hframes : link'.client.sent =
        S ++ framesOf sync_characteristic (done ++ [message]) := by
      rw [hsent', framesOf_concat, List.append_assoc]
    rw [List.append_assoc] at hexchanges'
    dsimp only
    split_ifs with hstatus
    · exact ⟨done, message, rest, writes, rfl, haccepted,
        .inr (.inr ⟨hframes, response, _, hexchanges', hstatus, rfl⟩)⟩
    · refine ⟨hframes, _, hexchanges', List.rel_append haccepted (.cons ?_ .nil)⟩
      exact ⟨rfl, rfl, rfl, not_not.mp hstatus⟩

/-! ## The reads behind the commit -/

/-- All messages were accepted, and then the status was read, at most the last
time without an answer. -/
def Polled (sync_characteristic : String) (S : List (List UInt8)) (L : List Exchange)
    (messages : List (List UInt8)) (pending : ℕ) (link : Link) : Prop :=
  ∃ (writes : List Exchange) (reads : List GattResponse),
    link.client.sent = S ++ framesOf sync_characteristic messages ++
      List.replicate (reads.length + pending) statusFrame ∧
    link.exchanges = L ++ writes ++ reads.map statusRead ∧
    List.Forall₂ (Accepted sync_characteristic) messages writes

/-- The same, however it ended. -/
def PolledOut (sync_characteristic : String) (S : List (List UInt8)) (L : List Exchange)
    (messages : List (List UInt8)) (link : Link) : Prop :=
  ∃ pending ≤ 1, Polled sync_characteristic S L messages pending link

variable {messages : List (List UInt8)}

theorem read_order : Triple (Polled sync_characteristic S L messages 0)
    (Link.read "family_state_status") (fun _ => Polled sync_characteristic S L messages 0)
    (fun _ => PolledOut sync_characteristic S L messages) := by
  rintro link ⟨writes, reads, hsent, hexchanges, haccepted⟩
  obtain ⟨id, hframe⟩ := requestFrame_status
  rw [Nat.add_zero] at hsent
  unfold Link.read
  rcases request_cases hframe (by decide) link with ⟨error, link', hrun, hsent', hexchanges'⟩ |
    ⟨error, link', hrun, hsent', hexchanges'⟩ | ⟨response, link', hrun, hsent', hexchanges'⟩ <;>
    rw [hrun] <;> rw [hsent] at hsent' <;> rw [hexchanges] at hexchanges'
  · exact ⟨0, by omega, writes, reads, hsent', hexchanges', haccepted⟩
  · refine ⟨1, le_rfl, writes, reads, ?_, hexchanges', haccepted⟩
    rw [hsent', List.replicate_succ', List.append_assoc]
  · refine ⟨writes, reads ++ [response], ?_, ?_, haccepted⟩
    · rw [hsent', List.length_append, List.length_singleton, Nat.add_zero, List.replicate_succ',
        List.append_assoc]
    · rw [hexchanges', List.map_append, List.append_assoc]
      rfl

theorem monotonic_order : Triple (Polled sync_characteristic S L messages 0) monotonic
    (fun _ => Polled sync_characteristic S L messages 0)
    (fun _ => PolledOut sync_characteristic S L messages) := by
  intro link h
  unfold monotonic
  rw [exec_of]
  rcases link.clock with _ | ⟨now, clock⟩
  · exact ⟨0, by omega, h⟩
  · dsimp only
    exact h

/-- **The wait** sends nothing but status reads. -/
theorem waitLoop_order (operation : ℕ) (token deadline : ℤ) (fuel : ℕ) :
    Triple (Polled sync_characteristic S L messages 0) (waitLoop operation token deadline fuel)
      (fun _ => Polled sync_characteristic S L messages 0)
      (fun _ => PolledOut sync_characteristic S L messages) := by
  have hraise : ∀ error, Triple (Polled sync_characteristic S L messages 0)
      (throw error : Effect Link PushExc Unit)
      (fun _ => Polled sync_characteristic S L messages 0)
      (fun _ => PolledOut sync_characteristic S L messages) := fun error =>
    triple_throw fun link h => ⟨0, by omega, h⟩
  induction fuel with
  | zero => exact hraise _
  | succ fuel ih =>
      rw [waitLoop]
      refine triple_bind monotonic_order fun now => ?_
      split_ifs
      · refine triple_bind read_order fun status => ?_
        rcases commitReport status with _ | ⟨state, active_operation, active_token⟩
        · exact ih
        · dsimp only
          split_ifs
          · exact triple_pure fun _ h => h
          · exact hraise _
          · exact ih
          · exact ih
      · exact hraise _

/-! ## The push -/

/-- The message of one turn. -/
def turnMessage (record_version : ℤ) (turn : List UInt8 × ℕ) : List UInt8 :=
  [1, UInt8.ofNat record_version.toNat, UInt8.ofNat turn.2] ++ turn.1

/-- The first message. -/
def beginMessage (count : ℕ) (version : ℤ) : List UInt8 :=
  [0, 0, UInt8.ofNat count] ++ le32 version.toNat

theorem pushMessages_eq (records : List (List UInt8)) (version record_version : ℤ) :
    pushMessages records version record_version =
      beginMessage records.length version :: records.zipIdx.map (turnMessage record_version) ++
        [[2, 0, UInt8.ofNat records.length]] := rfl

/-- The builders, for arguments in range. -/
theorem begin_sync_eq {count : ℕ} {version : ℤ} (hcount : count ≤ 0xFF)
    (hversion : 0 ≤ version ∧ version ≤ 0xFFFFFFFF) :
    begin_sync count version = .ok (beginMessage count version) := by
  unfold begin_sync
  rw [if_neg (by omega), if_neg (not_not.mpr hversion)]
  rfl

theorem record_message_eq {turn : List UInt8 × ℕ} {record_version : ℤ} (hindex : turn.2 ≤ 0xFF)
    (hrecord : 0 ≤ record_version ∧ record_version ≤ 0xFF) :
    record_message turn.2 turn.1 record_version = .ok (turnMessage record_version turn) := by
  unfold record_message
  rw [if_neg (by omega), if_neg (not_not.mpr hrecord)]
  rfl

theorem commit_sync_eq {count : ℕ} (hcount : count ≤ 0xFF) :
    commit_sync count = .ok [2, 0, UInt8.ofNat count] := by
  unfold commit_sync
  rw [if_neg (by omega)]

theorem sync_operation_known {sync_characteristic : String}
    (hsync : sync_characteristic = "schedule_sync" ∨ sync_characteristic = "tasks_sync") :
    ∃ operation, sync_operation sync_characteristic = .ok operation := by
  rcases hsync with rfl | rfl
  · exact ⟨_, rfl⟩
  · exact ⟨_, rfl⟩

section Push

variable {records : List (List UInt8)} {version record_version : ℤ}

theorem Pushable.begin_sync
    (h : Pushable sync_characteristic records version record_version) :
    begin_sync records.length version = .ok (beginMessage records.length version) :=
  begin_sync_eq h.count h.version

theorem Pushable.commit_sync
    (h : Pushable sync_characteristic records version record_version) :
    commit_sync records.length = .ok [2, 0, UInt8.ofNat records.length] :=
  commit_sync_eq h.count

/-- A turn of the loop over the records has a record that fits. -/
theorem Pushable.turn (h : Pushable sync_characteristic records version record_version)
    {turn : List UInt8 × ℕ} (hturn : turn ∈ records.zipIdx) :
    record_message turn.2 turn.1 record_version = .ok (turnMessage record_version turn) ∧
      (turnMessage record_version turn).length ≤ MAX_REQUEST_PAYLOAD := by
  have hindex : turn.2 < records.length := by
    have := List.snd_lt_of_mem_zipIdx hturn
    omega
  have hrecord : turn.1 ∈ records := List.fst_mem_of_mem_zipIdx hturn
  have hcount := h.count
  constructor
  · exact record_message_eq (by omega) h.record_version
  · have hfit := h.fits turn.1 hrecord
    unfold turnMessage
    rw [List.length_append]
    exact hfit

/-- Where a push may end with an exception. -/
def PushOut (sync_characteristic : String) (S : List (List UInt8)) (L : List Exchange)
    (messages : List (List UInt8)) (error : PushExc) (link : Link) : Prop :=
  Stopped sync_characteristic S L messages error link ∨
    PolledOut sync_characteristic S L messages link

theorem lift_order {α : Type} {P : Link → Prop} {E : PushExc → Link → Prop} {r : Except WireError α}
    {a : α} (h : r = .ok a) : Triple P (lift r) (fun b link => P link ∧ b = a) E := by
  subst h
  exact triple_pure fun _ hP => ⟨hP, rfl⟩

/-- The loop over the records. -/
theorem records_order (h : Pushable sync_characteristic records version record_version) :
    Triple (Progress sync_characteristic S L [beginMessage records.length version])
      (records.zipIdx.forM (writeRecord sync_characteristic record_version))
      (fun _ => Progress sync_characteristic S L
        (beginMessage records.length version :: records.zipIdx.map (turnMessage record_version)))
      (Stopped sync_characteristic S L (pushMessages records version record_version)) := by
  refine triple_forM_turns (I := fun turns => Progress sync_characteristic S L
    (beginMessage records.length version :: turns.map (turnMessage record_version))) ?_
  intro pre turn post heq
  have hmem : turn ∈ records.zipIdx := by rw [heq]; simp
  obtain ⟨hmessage, hfit⟩ := h.turn hmem
  unfold writeRecord
  refine triple_bind (lift_order hmessage) fun message => triple_assume fun hmessage => ?_
  subst hmessage
  have hall : pushMessages records version record_version =
      (beginMessage records.length version :: pre.map (turnMessage record_version)) ++
        turnMessage record_version turn :: (post.map (turnMessage record_version) ++
          [[2, 0, UInt8.ofNat records.length]]) := by
    rw [pushMessages_eq, heq]
    simp
  rw [hall, List.map_append, List.map_singleton, ← List.cons_append]
  exact writeAccepted_order _ _ _ _ h.sync hfit

/-- **The order of a push**, as an invariant. -/
theorem push_records_order (h : Pushable sync_characteristic records version record_version) :
    Triple (fun link => link.client.sent = S ∧ link.exchanges = L)
      (push_records sync_characteristic records version record_version)
      (fun _ => Polled sync_characteristic S L (pushMessages records version record_version) 0)
      (PushOut sync_characteristic S L (pushMessages records version record_version)) := by
  have hseven : (beginMessage records.length version).length ≤ MAX_REQUEST_PAYLOAD :=
    show 7 ≤ 508 by decide
  have hthree : [2, 0, UInt8.ofNat records.length].length ≤ MAX_REQUEST_PAYLOAD :=
    show 3 ≤ 508 by decide
  unfold push_records
  refine triple_bind (lift_order h.begin_sync) fun first => triple_assume fun hfirst => ?_
  subst hfirst
  have hbegin : Triple (fun link => link.client.sent = S ∧ link.exchanges = L)
      (writeAccepted sync_characteristic "begin" (beginMessage records.length version))
      (fun _ => Progress sync_characteristic S L [beginMessage records.length version])
      (PushOut sync_characteristic S L (pushMessages records version record_version)) := by
    refine (writeAccepted_order [] _ (beginMessage records.length version) "begin" h.sync
      hseven).conseq ?_ (fun _ _ hs => hs) fun _ _ hs => .inl hs
    rintro link ⟨rfl, rfl⟩
    exact ⟨(List.append_nil _).symm, [], (List.append_nil _).symm, .nil⟩
  refine triple_bind hbegin fun _ => ?_
  refine triple_bind ((records_order h).raises fun _ _ hs => .inl hs) fun _ => ?_
  refine triple_bind (lift_order h.commit_sync) fun commit => triple_assume fun hcommit => ?_
  subst hcommit
  have hcommitted : Triple (Progress sync_characteristic S L
        (beginMessage records.length version :: records.zipIdx.map (turnMessage record_version)))
      (writeAccepted sync_characteristic "commit" [2, 0, UInt8.ofNat records.length])
      (fun _ => Polled sync_characteristic S L (pushMessages records version record_version) 0)
      (PushOut sync_characteristic S L (pushMessages records version record_version)) := by
    refine (writeAccepted_order _ [] _ "commit" h.sync hthree).conseq (fun _ hs => hs) ?_
      fun _ _ hs => .inl hs
    rintro _ link ⟨hsent, writes, hexchanges, haccepted⟩
    refine ⟨writes, [], ?_, ?_, haccepted⟩
    · rw [List.length_nil, List.replicate_zero, List.append_nil]
      exact hsent
    · rw [List.map_nil, List.append_nil]
      exact hexchanges
  refine triple_bind hcommitted fun _ => ?_
  -- the operation is known, so only the wait is left
  obtain ⟨operation, hoperation⟩ := sync_operation_known h.sync
  refine triple_bind (lift_order hoperation) fun _ => triple_assume fun _ => ?_
  unfold wait_family_commit
  refine triple_bind (monotonic_order.raises fun _ _ hs => .inr hs) fun start => ?_
  refine triple_bind (triple_read (Q := fun _ => Polled sync_characteristic S L
    (pushMessages records version record_version) 0) fun _ hs => hs) fun readings => ?_
  exact (waitLoop_order _ _ _ _).raises fun _ _ hs => .inr hs

end Push

/-! ## The transaction -/

/-- The order on the wire, from the frames that were sent, the exchanges that were
answered and the result. -/
structure Transaction (sync_characteristic : String) (messages : List (List UInt8))
    (result : Except PushExc Unit) (frames : List (List UInt8)) (exchanges : List Exchange) :
    Prop where
  /-- The frames are the first messages, and status reads behind all of them. -/
  order : ∃ written polled, frames =
      framesOf sync_characteristic written ++ List.replicate polled statusFrame ∧
    written <+: messages ∧ (polled ≠ 0 → written = messages)
  /-- The exchanges answer the frames, in order, all but the last at most. -/
  answered : exchanges.map (fun x => frameOf x.characteristic x.operation x.payload) <+: frames ∧
    frames.length ≤ exchanges.length + 1
  /-- When the commit is on the wire, all messages before it were accepted. -/
  commit : messages.length ≤ frames.length →
    List.Forall₂ (Accepted sync_characteristic) messages.dropLast
      (exchanges.take (messages.length - 1))
  /-- When the status is read, the commit was accepted too. -/
  polled : messages.length < frames.length →
    List.Forall₂ (Accepted sync_characteristic) messages (exchanges.take messages.length)
  /-- A message that was refused is the last thing sent, and the push raises. -/
  stops : ∀ i x, i < messages.length → exchanges[i]? = some x → x.response.status ≠ 0 →
    frames.length = i + 1 ∧ exchanges.length = i + 1 ∧
      ∃ text, result = .error (.wire (.RuntimeError text))

theorem Accepted.frame {message : List UInt8} {x : Exchange}
    (h : Accepted sync_characteristic message x) :
    frameOf x.characteristic x.operation x.payload = frameOf sync_characteristic OP_WRITE message := by
  rw [h.1, h.2.1, h.2.2.1]

theorem accepted_frames {messages : List (List UInt8)} {writes : List Exchange}
    (h : List.Forall₂ (Accepted sync_characteristic) messages writes) :
    writes.map (fun x => frameOf x.characteristic x.operation x.payload) =
      framesOf sync_characteristic messages := by
  induction h with
  | nil => rfl
  | cons hx _ ih =>
      unfold framesOf at ih ⊢
      rw [List.map_cons, List.map_cons, ih, hx.frame]

/-- No accepted message was refused. -/
theorem accepted_status {messages : List (List UInt8)} {writes : List Exchange}
    (h : List.Forall₂ (Accepted sync_characteristic) messages writes) :
    ∀ x ∈ writes, x.response.status = 0 := by
  induction h with
  | nil => simp
  | cons hx _ ih =>
      intro y hy
      rcases List.mem_cons.mp hy with rfl | hy
      · exact hx.2.2.2
      · exact ih y hy

theorem framesOf_length (messages : List (List UInt8)) :
    (framesOf sync_characteristic messages).length = messages.length := List.length_map _

/-- A refused exchange is none of the accepted ones. -/
theorem refused_index {messages : List (List UInt8)} {writes rest : List Exchange} {i : ℕ}
    {x : Exchange} (h : List.Forall₂ (Accepted sync_characteristic) messages writes)
    (hx : (writes ++ rest)[i]? = some x) (hstatus : x.response.status ≠ 0) :
    writes.length ≤ i := by
  by_contra hlt
  rw [List.getElem?_append_left (by omega)] at hx
  exact hstatus (accepted_status h x (List.mem_of_getElem? hx))

theorem Transaction.of_polled {messages : List (List UInt8)} {result : Except PushExc Unit}
    {link link' : Link}
    (h : PolledOut sync_characteristic link.client.sent link.exchanges messages link') :
    ∃ frames exchanges, link'.client.sent = link.client.sent ++ frames ∧
      link'.exchanges = link.exchanges ++ exchanges ∧
      Transaction sync_characteristic messages result frames exchanges := by
  -- the messages are all out, so only status reads can be behind them
  obtain ⟨pending, hpending, writes, reads, hsent, hexchanges, haccepted⟩ := h
  have hlength := haccepted.length_eq
  refine ⟨_, _, hsent.trans (List.append_assoc ..), hexchanges.trans (List.append_assoc ..), ?_⟩
  constructor
  case order => exact ⟨messages, _, rfl, List.prefix_rfl, fun _ => rfl⟩
  case answered =>
    have hreads : (reads.map statusRead).map
        (fun x => frameOf x.characteristic x.operation x.payload) =
        List.replicate reads.length statusFrame := by
      rw [List.map_map]
      change reads.map (fun _ => statusFrame) = _
      exact List.map_const'
    constructor
    · rw [List.map_append, accepted_frames haccepted, hreads, ← List.replicate_append_replicate,
        ← List.append_assoc]
      exact List.prefix_append ..
    · simp only [List.length_append, framesOf_length, List.length_replicate, List.length_map]
      omega
  case commit =>
    intro _
    rw [List.take_append_of_le_length (by omega), List.dropLast_eq_take]
    exact List.forall₂_take _ haccepted
  case polled =>
    intro _
    rw [hlength, List.take_left]
    exact haccepted
  case stops =>
    intro i x hi hx hstatus
    have := refused_index haccepted hx hstatus
    omega

/-- A push that has given up: behind the accepted messages stands at most one more,
and at most its answer. -/
theorem Transaction.of_done {done rest last : List (List UInt8)} {message : List UInt8}
    {writes tail : List Exchange} {result : Except PushExc Unit}
    (haccepted : List.Forall₂ (Accepted sync_characteristic) done writes)
    (hlast : last <+: message :: rest) (hone : last.length ≤ 1)
    (htail : tail.map (fun x => frameOf x.characteristic x.operation x.payload) <+:
      framesOf sync_characteristic last)
    (hstops : ∀ x ∈ tail, x.response.status ≠ 0 →
      ∃ text, result = .error (.wire (.RuntimeError text))) :
    Transaction sync_characteristic (done ++ message :: rest) result
      (framesOf sync_characteristic (done ++ last)) (writes ++ tail) := by
  have hlength := haccepted.length_eq
  have htailLength : tail.length ≤ last.length := by
    have hle := htail.length_le
    rwa [List.length_map, framesOf_length] at hle
  have hframes : (framesOf sync_characteristic (done ++ last)).length =
      done.length + last.length := by
    rw [framesOf_length, List.length_append]
  have hmessages : (done ++ message :: rest).length = done.length + 1 + rest.length := by
    rw [List.length_append, List.length_cons]
    omega
  constructor
  case order =>
    refine ⟨done ++ last, 0, (List.append_nil _).symm, ?_, fun h => absurd rfl h⟩
    exact (List.prefix_append_right_inj done).mpr hlast
  case answered =>
    constructor
    · have hsplit : framesOf sync_characteristic (done ++ last) =
          framesOf sync_characteristic done ++ framesOf sync_characteristic last := List.map_append
      rw [List.map_append, accepted_frames haccepted, hsplit]
      exact (List.prefix_append_right_inj _).mpr htail
    · rw [hframes, List.length_append]
      omega
  case commit =>
    -- the commit is out only if it is the message at which the push stopped
    intro hle
    obtain rfl : rest = [] := List.eq_nil_of_length_eq_zero (by omega)
    rw [List.dropLast_concat, List.length_append, List.length_singleton, Nat.add_sub_cancel,
      hlength, List.take_left]
    exact haccepted
  case polled =>
    intro hlt
    omega
  case stops =>
    intro i x _ hx hstatus
    have hge := refused_index haccepted hx hstatus
    have hlt : i < (writes ++ tail).length := (List.getElem?_eq_some_iff.mp hx).1
    rw [List.getElem?_append_right hge] at hx
    have hraised := hstops x (List.mem_of_getElem? hx) hstatus
    rw [List.length_append] at hlt
    refine ⟨by omega, ?_, hraised⟩
    rw [List.length_append]
    omega

theorem Transaction.of_stopped {messages : List (List UInt8)} {error : PushExc} {link link' : Link}
    (h : Stopped sync_characteristic link.client.sent link.exchanges messages error link') :
    ∃ frames exchanges, link'.client.sent = link.client.sent ++ frames ∧
      link'.exchanges = link.exchanges ++ exchanges ∧
      Transaction sync_characteristic messages (.error error) frames exchanges := by
  obtain ⟨done, message, rest, writes, rfl, haccepted, hends⟩ := h
  have hmessage : [message] <+: message :: rest := ⟨rest, rfl⟩
  rcases hends with ⟨hsent, hexchanges⟩ | ⟨hsent, hexchanges⟩ |
    ⟨hsent, response, text, hexchanges, hrefused, rfl⟩
  · -- not sent
    refine ⟨framesOf sync_characteristic (done ++ []), writes ++ [], ?_, ?_, ?_⟩
    · rw [List.append_nil]
      exact hsent
    · rw [List.append_nil]
      exact hexchanges
    · exact .of_done haccepted List.nil_prefix (by simp) List.nil_prefix
        fun x hx => absurd hx List.not_mem_nil
  · -- sent, but not answered
    refine ⟨framesOf sync_characteristic (done ++ [message]), writes ++ [], hsent, ?_, ?_⟩
    · rw [List.append_nil]
      exact hexchanges
    · exact .of_done haccepted hmessage le_rfl List.nil_prefix
        fun x hx => absurd hx List.not_mem_nil
  · -- sent and refused
    exact ⟨_, _, hsent, hexchanges, .of_done haccepted hmessage le_rfl List.prefix_rfl
      fun x _ _ => ⟨text, rfl⟩⟩

end Order

/-- **The order of a push.** Whatever the link does, the messages go out in order,
the commit only behind accepted ones, and nothing behind a refused one. A return
rests on the commit's acceptance and on a later status that confirms it. -/
theorem push_records_transaction (sync_characteristic : String) (records : List (List UInt8))
    (version record_version : ℤ)
    (h : Pushable sync_characteristic records version record_version) (link : Link) :
    let run := (push_records sync_characteristic records version record_version).exec link
    ∃ frames exchanges, run.2.client.sent = link.client.sent ++ frames ∧
      run.2.exchanges = link.exchanges ++ exchanges ∧
      Transaction sync_characteristic (pushMessages records version record_version) run.1 frames
        exchanges ∧
      (run.1 = .ok () → Committed sync_characteristic records version record_version exchanges) := by
  have hrun := @push_records_order sync_characteristic link.client.sent link.exchanges records
    version record_version h
  have hcommitted := @push_records_committed link.exchanges sync_characteristic records version
    record_version
  dsimp only
  rcases hresult : (push_records sync_characteristic records version record_version).exec link with
    ⟨error | ⟨⟩, link'⟩
  · obtain hstopped | hpolled := hrun.of_error ⟨rfl, rfl⟩ hresult
    · obtain ⟨frames, exchanges, hsent, hexchanges, horder⟩ := Transaction.of_stopped hstopped
      exact ⟨frames, exchanges, hsent, hexchanges, horder, fun hok => by cases hok⟩
    · obtain ⟨frames, exchanges, hsent, hexchanges, horder⟩ := Transaction.of_polled hpolled
      exact ⟨frames, exchanges, hsent, hexchanges, horder, fun hok => by cases hok⟩
  · obtain ⟨frames, exchanges, hsent, hexchanges, horder⟩ :=
      Transaction.of_polled ⟨0, by omega, hrun.of_ok ⟨rfl, rfl⟩ hresult⟩
    obtain ⟨exchanges', hexchanges', hreturned⟩ := hcommitted.of_ok rfl hresult
    obtain rfl : exchanges = exchanges' :=
      List.append_cancel_left (hexchanges.symm.trans hexchanges')
    exact ⟨frames, exchanges, hsent, hexchanges, horder, fun _ => hreturned⟩

/-- One record, which the watch refuses. -/
theorem push_records_transaction_refused :
    let link := scripted [accepts, [0x80, 0, 0]] [0, 0]
    let run := (push_records "schedule_sync" [List.replicate 43 0] 7 3).exec link
    ∃ frames exchanges, run.2.client.sent = link.client.sent ++ frames ∧
      run.2.exchanges = link.exchanges ++ exchanges ∧
      Transaction "schedule_sync" (pushMessages [List.replicate 43 0] 7 3) run.1 frames exchanges ∧
      (run.1 = .ok () → Committed "schedule_sync" [List.replicate 43 0] 7 3 exchanges) :=
  push_records_transaction "schedule_sync" [List.replicate 43 0] 7 3
    ⟨.inl rfl, by decide, by decide, by decide, by decide⟩ (scripted [accepts, [0x80, 0, 0]] [0, 0])

end Ptlab.Wire
