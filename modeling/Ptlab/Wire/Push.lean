/-
`push_records` and `wait_family_commit` (`src/ptlab/wire.py`): a set of records
is written to the watch and its durable commit awaited.

The watch says which commit it has carried out by an operation and a token, and
the token of a push is the version its caller chose. `exchanges` is every request
that was answered, with its answer; `push_records_committed` reads off it what a
push that returned rests on.
-/
import Ptlab.Gatt.Client
import Ptlab.Lib.Effect
import Ptlab.Wire.Record

set_option autoImplicit false

open Bytes Effect Ptlab.Gatt Ptlab.Protocol

namespace Ptlab.Wire

/-! ## Messages -/

def begin_sync (count : ℕ) (version : ℤ) : Except WireError (List UInt8) :=
  if count > 0xFF then .error (.ValueError "sync count must be a u8")
  else if ¬ (0 ≤ version ∧ version ≤ 0xFFFFFFFF) then .error .StructError
  else .ok ([0, 0, UInt8.ofNat count] ++ le32 version.toNat)

def record_message (index : ℕ) (record : List UInt8) (record_version : ℤ) :
    Except WireError (List UInt8) :=
  if index > 0xFF then .error (.ValueError "record index must be a u8")
  else if ¬ (0 ≤ record_version ∧ record_version ≤ 0xFF) then
    .error (.ValueError "bytes must be in range(0, 256)")
  else .ok ([1, UInt8.ofNat record_version.toNat, UInt8.ofNat index] ++ record)

def commit_sync (count : ℕ) : Except WireError (List UInt8) :=
  if count > 0xFF then .error (.ValueError "sync count must be a u8")
  else .ok [2, 0, UInt8.ofNat count]

/-- The operation a sync characteristic stands for. -/
def sync_operation (sync_characteristic : String) : Except WireError ℕ :=
  match sync_characteristic with
  | "schedule_sync" => .ok RECORDS.family_state_operations_schedule
  | "tasks_sync" => .ok RECORDS.family_state_operations_tasks
  | other => .error (.KeyError other)

/-! ## The client in use -/

/-- What a push raises. -/
inductive PushExc where
  | wire (error : WireError)
  | gatt (error : GattExc)
  | AssertionError
  /-- Not an exception: the call has not ended. -/
  | waiting
  deriving DecidableEq, Repr

/-- A request that was answered. -/
structure Exchange where
  characteristic : String
  operation : ℤ
  payload : List UInt8
  response : GattResponse
  deriving DecidableEq, Repr

/-- A client with what its socket and its clock are going to do: for each request
what its `sendall` does, the successive `recv` calls, and the readings of
`time.monotonic`, in nanoseconds. -/
structure Link where
  client : GattClient
  sends : List Send
  script : List Recv
  clock : List ℤ
  exchanges : List Exchange

/-- `GattClient.request`, with the `assert` of `read` and `write`. -/
def Link.request (characteristic : String) (operation : ℤ) (payload : List UInt8) :
    Effect Link PushExc GattResponse :=
  .of fun link =>
    match link.client.request (.name characteristic) operation payload
        (link.sends.headD .ok) link.script with
    | (ended, client, script) =>
      let link := { link with client := client, sends := link.sends.tail, script := script }
      match ended with
      | .returned none => (.error .AssertionError, link)
      | .returned (some response) => (.ok response, { link with
          exchanges := link.exchanges ++ [⟨characteristic, operation, payload, response⟩] })
      | .raised e => (.error (.gatt e), link)
      | .waiting => (.error .waiting, link)

/-- `GattClient.read`. -/
def Link.read (characteristic : String) : Effect Link PushExc GattResponse :=
  Link.request characteristic OP_READ []

/-- `GattClient.write`. -/
def Link.write (characteristic : String) (payload : List UInt8) :
    Effect Link PushExc GattResponse :=
  Link.request characteristic OP_WRITE payload

/-- `time.monotonic()`. -/
def monotonic : Effect Link PushExc ℤ :=
  .of fun link =>
    match link.clock with
    | [] => (.error .waiting, link)
    | now :: clock => (.ok now, { link with clock := clock })

/-- What a function of this module returns or raises, as a step of a push. -/
def lift {α : Type} : Except WireError α → Effect Link PushExc α
  | .ok a => pure a
  | .error e => throw (.wire e)

/-! ## `wait_family_commit` -/

/-- State, operation and token of a family-state status, if it is one. -/
def commitReport (status : GattResponse) : Option (ℕ × ℕ × ℕ) :=
  if status.status = 0 ∧ status.payload.length = RECORDS.family_state_status_size then
    some ((status.payload.getD 2 0).toNat, (status.payload.getD 3 0).toNat,
      read32 status.payload 6)
  else none

/-- The loop of `wait_family_commit`. Each turn reads the clock, so the readings
that are left bound it. -/
def waitLoop (operation : ℕ) (token : ℤ) (deadline : ℤ) : ℕ → Effect Link PushExc Unit
  | 0 => throw .waiting
  | fuel + 1 => do
    let now ← monotonic
    if now < deadline then
      let status ← Link.read "family_state_status"
      match commitReport status with
      | none => waitLoop operation token deadline fuel
      | some (state, active_operation, active_token) =>
        -- any other status is one of an earlier commit, and is passed over
        if active_operation = operation ∧ active_token = token then
          if state = RECORDS.family_state_states_succeeded then pure ()
          else if state = RECORDS.family_state_states_failed then
            throw (.wire (.RuntimeError "family-state durable commit failed"))
          else waitLoop operation token deadline fuel
        else waitLoop operation token deadline fuel
    else throw (.wire (.RuntimeError "family-state durable commit timed out"))

def wait_family_commit (operation : ℕ) (token : ℤ) (timeout : ℤ) : Effect Link PushExc Unit := do
  let start ← monotonic
  let readings ← Effect.read fun link => link.clock.length
  waitLoop operation token (start + timeout) readings

/-! ## `push_records` -/

/-- A byte as `02x` prints it. -/
def hex02 (b : UInt8) : String :=
  String.ofList [Nat.digitChar (b.toNat / 16), Nat.digitChar (b.toNat % 16)]

/-- A write that has to be accepted; `what` is its name in the error. -/
def writeAccepted (sync_characteristic what : String) (payload : List UInt8) :
    Effect Link PushExc Unit := do
  let response ← Link.write sync_characteristic payload
  if response.status ≠ 0 then
    throw (.wire (.RuntimeError
      s!"{sync_characteristic} {what} failed with ATT status 0x{hex02 response.status}"))
  else pure ()

/-- One turn of the loop over the records. -/
def writeRecord (sync_characteristic : String) (record_version : ℤ) (turn : List UInt8 × ℕ) :
    Effect Link PushExc Unit := do
  let payload ← lift (record_message turn.2 turn.1 record_version)
  writeAccepted sync_characteristic s!"record {turn.2}" payload

def push_records (sync_characteristic : String) (records : List (List UInt8))
    (version record_version : ℤ) : Effect Link PushExc Unit := do
  let payload ← lift (begin_sync records.length version)
  writeAccepted sync_characteristic "begin" payload
  records.zipIdx.forM (writeRecord sync_characteristic record_version)
  let payload ← lift (commit_sync records.length)
  writeAccepted sync_characteristic "commit" payload
  let operation ← lift (sync_operation sync_characteristic)
  wait_family_commit operation version 5000000000

/-! ## What a return rests on -/

section Return

variable {L : List Exchange}

theorem link_request_spec (characteristic : String) (operation : ℤ) (payload : List UInt8) :
    Triple (fun link => link.exchanges = L) (Link.request characteristic operation payload)
      (fun response link =>
        link.exchanges = L ++ [⟨characteristic, operation, payload, response⟩])
      (fun _ _ => True) := by
  intro link hlink
  unfold Link.request
  rw [exec_of]
  rcases link.client.request (.name characteristic) operation payload (link.sends.headD .ok)
    link.script with ⟨ended, client, script⟩
  rcases ended with (_ | response) | e | _
  · trivial
  · exact congrArg (· ++ _) hlink
  · trivial
  · trivial

theorem monotonic_spec : Triple (fun link => link.exchanges = L) monotonic
    (fun _ link => link.exchanges = L) (fun _ _ => True) := by
  intro link hlink
  unfold monotonic
  rw [exec_of]
  rcases link.clock with _ | ⟨now, clock⟩
  · trivial
  · exact hlink

theorem lift_spec {α : Type} (r : Except WireError α) {P : Link → Prop} :
    Triple P (lift r) (fun a link => P link ∧ r = .ok a) (fun _ _ => True) := by
  rcases r with e | a
  · exact triple_throw fun _ _ => trivial
  · exact triple_pure fun _ hP => ⟨hP, rfl⟩

/-- A status that reports this commit as succeeded. -/
def Confirms (status : GattResponse) (operation : ℕ) (token : ℤ) : Prop :=
  ∃ active_token : ℕ, active_token = token ∧
    commitReport status = some (RECORDS.family_state_states_succeeded, operation, active_token)

/-- A status read and its answer. -/
def statusRead (response : GattResponse) : Exchange :=
  ⟨"family_state_status", OP_READ, [], response⟩

/-- **The wait** returns on a status that was read in it and confirms the
commit. -/
theorem waitLoop_spec (operation : ℕ) (token : ℤ) (deadline : ℤ) (fuel : ℕ) :
    Triple (fun link => link.exchanges = L) (waitLoop operation token deadline fuel)
      (fun _ link => ∃ earlier last,
        link.exchanges = L ++ (earlier ++ [last]).map statusRead ∧
          Confirms last operation token)
      (fun _ _ => True) := by
  induction fuel generalizing L with
  | zero => exact triple_throw fun _ _ => trivial
  | succ fuel ih =>
      -- a turn that goes on has one status more behind it
      have hnext : ∀ status, Triple (fun link => link.exchanges = L ++ [statusRead status])
          (waitLoop operation token deadline fuel)
          (fun _ link => ∃ earlier last,
            link.exchanges = L ++ (earlier ++ [last]).map statusRead ∧
              Confirms last operation token) (fun _ _ => True) := by
        intro status
        refine (@ih (L ++ [statusRead status])).conseq (fun _ h => h) ?_ (fun _ _ h => h)
        rintro _ link ⟨earlier, last, hlog, hconfirms⟩
        refine ⟨status :: earlier, last, ?_, hconfirms⟩
        rw [hlog, List.append_assoc]
        rfl
      rw [waitLoop]
      refine triple_bind monotonic_spec fun now => ?_
      split_ifs with hnow
      · refine triple_bind (link_request_spec _ _ _) fun status => ?_
        rcases hreport : commitReport status with _ | ⟨state, active_operation, active_token⟩
        · exact hnext status
        · dsimp only
          split_ifs with hmine hsucceeded hfailed
          · -- the only way out with a return: this status is the last one read
            obtain ⟨rfl, htoken⟩ := hmine
            refine triple_pure fun link hlink => ⟨[], status, hlink, active_token, htoken, ?_⟩
            rw [hreport, hsucceeded]
          · exact triple_throw fun _ _ => trivial
          · exact hnext status
          · exact hnext status
      · exact triple_throw fun _ _ => trivial

theorem wait_family_commit_spec (operation : ℕ) (token : ℤ) (timeout : ℤ) :
    Triple (fun link => link.exchanges = L) (wait_family_commit operation token timeout)
      (fun _ link => ∃ earlier last,
        link.exchanges = L ++ (earlier ++ [last]).map statusRead ∧
          Confirms last operation token)
      (fun _ _ => True) := by
  unfold wait_family_commit
  refine triple_bind monotonic_spec fun start => ?_
  refine triple_bind (triple_read (Q := fun _ link => link.exchanges = L) fun _ h => h) fun n => ?_
  exact waitLoop_spec operation token _ n

/-- A message to a sync characteristic that the watch accepted. -/
def Accepted (sync_characteristic : String) (payload : List UInt8) (x : Exchange) : Prop :=
  x.characteristic = sync_characteristic ∧ x.operation = OP_WRITE ∧ x.payload = payload ∧
    x.response.status = 0

theorem writeAccepted_spec (sync_characteristic what : String) (payload : List UInt8) :
    Triple (fun link => link.exchanges = L) (writeAccepted sync_characteristic what payload)
      (fun _ link => ∃ x, link.exchanges = L ++ [x] ∧ Accepted sync_characteristic payload x)
      (fun _ _ => True) := by
  unfold writeAccepted
  refine triple_bind (link_request_spec _ _ _) fun response => ?_
  split_ifs with hstatus
  · exact triple_throw fun _ _ => trivial
  · exact triple_pure fun link hlink => ⟨_, hlink, rfl, rfl, rfl, not_not.mp hstatus⟩

/-- The messages of some turns. -/
def recordMessages (record_version : ℤ) (turns : List (List UInt8 × ℕ)) :
    Except WireError (List (List UInt8)) :=
  turns.mapM fun turn => record_message turn.2 turn.1 record_version

/-- After some turns: the first message and theirs were accepted. -/
def Written (L : List Exchange) (sync_characteristic : String) (first : List UInt8)
    (record_version : ℤ) (turns : List (List UInt8 × ℕ)) (link : Link) : Prop :=
  ∃ messages writes, link.exchanges = L ++ writes ∧
    recordMessages record_version turns = .ok messages ∧
    List.Forall₂ (Accepted sync_characteristic) (first :: messages) writes

theorem writeRecord_spec {sync_characteristic : String} {first : List UInt8} {record_version : ℤ}
    (turns : List (List UInt8 × ℕ)) (turn : List UInt8 × ℕ) :
    Triple (Written L sync_characteristic first record_version turns)
      (writeRecord sync_characteristic record_version turn)
      (fun _ => Written L sync_characteristic first record_version (turns ++ [turn]))
      (fun _ _ => True) := by
  unfold writeRecord
  refine triple_exists fun messages => triple_exists fun writes => ?_
  refine triple_assume fun ⟨hmessages, hwrites⟩ => ?_
  refine triple_bind (lift_spec _) fun payload => triple_assume fun hpayload => ?_
  refine (writeAccepted_spec _ _ _).conseq (fun _ h => h) ?_ (fun _ _ h => h)
  rintro _ link ⟨x, hlink, hx⟩
  refine ⟨messages ++ [payload], writes ++ [x], ?_, ?_, List.rel_append hwrites (.cons hx .nil)⟩
  · rw [hlink, List.append_assoc]
  · have hone : recordMessages record_version [turn] = .ok [payload] := by
      unfold recordMessages
      rw [List.mapM_cons, hpayload]
      rfl
    unfold recordMessages at hmessages hone ⊢
    rw [List.mapM_append, hmessages, hone]
    rfl

/-- The messages of a push, in order. -/
def pushPayloads (records : List (List UInt8)) (version record_version : ℤ) :
    Except WireError (List (List UInt8)) := do
  let first ← begin_sync records.length version
  let messages ← recordMessages record_version records.zipIdx
  let last ← commit_sync records.length
  return first :: messages ++ [last]

/-- What a push that returned has done: it wrote its messages, the commit last,
and all were accepted; then it read the status until one confirmed its own
operation and version. -/
def Committed (sync_characteristic : String) (records : List (List UInt8))
    (version record_version : ℤ) (exchanges : List Exchange) : Prop :=
  ∃ payloads writes operation earlier last,
    pushPayloads records version record_version = .ok payloads ∧
    List.Forall₂ (Accepted sync_characteristic) payloads writes ∧
    sync_operation sync_characteristic = .ok operation ∧
    Confirms last operation version ∧
    exchanges = writes ++ (earlier ++ [last]).map statusRead

/-- **What a return rests on.** -/
theorem push_records_committed (sync_characteristic : String) (records : List (List UInt8))
    (version record_version : ℤ) :
    Triple (fun link => link.exchanges = L)
      (push_records sync_characteristic records version record_version)
      (fun _ link => ∃ exchanges, link.exchanges = L ++ exchanges ∧
        Committed sync_characteristic records version record_version exchanges)
      (fun _ _ => True) := by
  unfold push_records
  refine triple_bind (lift_spec _) fun first => triple_assume fun hfirst => ?_
  refine triple_bind (writeAccepted_spec _ _ _) fun _ => ?_
  have hloop : Triple
      (fun link => ∃ x, link.exchanges = L ++ [x] ∧ Accepted sync_characteristic first x)
      (records.zipIdx.forM (writeRecord sync_characteristic record_version))
      (fun _ => Written L sync_characteristic first record_version records.zipIdx)
      (fun _ _ => True) := by
    refine (triple_forM_turns (I := Written L sync_characteristic first record_version)
      fun turns turn _ _ => writeRecord_spec turns turn).conseq ?_ (fun _ _ h => h) fun _ _ h => h
    rintro link ⟨x, hlink, hx⟩
    exact ⟨[], [x], hlink, rfl, .cons hx .nil⟩
  -- the commit is written behind all records, and the wait comes behind the commit
  refine triple_bind hloop fun _ => triple_exists fun messages => triple_exists fun writes => ?_
  refine triple_assume fun ⟨hmessages, hwrites⟩ => ?_
  refine triple_bind (lift_spec _) fun commit => triple_assume fun hcommit => ?_
  refine triple_bind (writeAccepted_spec _ _ _) fun _ => triple_exists fun x => ?_
  refine triple_assume fun hx => ?_
  refine triple_bind (lift_spec _) fun operation => triple_assume fun hoperation => ?_
  refine (wait_family_commit_spec _ _ _).conseq (fun _ h => h) ?_ (fun _ _ h => h)
  rintro _ link ⟨earlier, last, hlink, hconfirms⟩
  refine ⟨writes ++ [x] ++ (earlier ++ [last]).map statusRead, ?_, first :: messages ++ [commit],
    writes ++ [x], operation, earlier, last, ?_, List.rel_append hwrites (.cons hx .nil),
    hoperation, hconfirms, rfl⟩
  · rw [hlink]
    simp only [List.append_assoc]
  · unfold pushPayloads
    rw [hfirst, hmessages, hcommit]
    rfl

end Return

/-! ## A second push -/

theorem sync_operation_ok {sync : String} {operation : ℕ}
    (h : sync_operation sync = .ok operation) :
    (sync = "schedule_sync" ∧ operation = RECORDS.family_state_operations_schedule) ∨
      (sync = "tasks_sync" ∧ operation = RECORDS.family_state_operations_tasks) := by
  unfold sync_operation at h
  split at h
  · injection h with h
    exact .inl ⟨rfl, h.symm⟩
  · injection h with h
    exact .inr ⟨rfl, h.symm⟩
  · cases h

/-- The two characteristics stand for different operations. -/
theorem sync_operation_inj {sync sync' : String} {operation : ℕ}
    (h : sync_operation sync = .ok operation) (h' : sync_operation sync' = .ok operation) :
    sync = sync' := by
  rcases sync_operation_ok h with ⟨rfl, rfl⟩ | ⟨rfl, rfl⟩ <;>
    rcases sync_operation_ok h' with ⟨rfl, hop⟩ | ⟨rfl, hop⟩
  · rfl
  · exact absurd hop (by decide)
  · exact absurd hop (by decide)
  · rfl

/-- Every status read after `link₁` reports what the last one before it did. -/
def StatusUnchanged (link₁ link₂ : Link) : Prop :=
  ∀ first ∈ link₁.exchanges.getLast?, ∀ x ∈ link₂.exchanges.drop link₁.exchanges.length,
    x.characteristic = "family_state_status" →
      commitReport x.response = commitReport first.response

instance (link₁ link₂ : Link) : Decidable (StatusUnchanged link₁ link₂) :=
  inferInstanceAs (Decidable (∀ first ∈ link₁.exchanges.getLast?,
    ∀ x ∈ link₂.exchanges.drop link₁.exchanges.length, x.characteristic = "family_state_status" →
      commitReport x.response = commitReport first.response))

/-- **Two pushes.** The second returns only on a status that was read in it, after
its own commit was accepted, and that confirms its own operation and version. If
the watch goes on reporting the first, it returns only if it pushes to the same
characteristic under the same version. -/
theorem second_push_rests_on_own_status {link link₁ link₂ : Link} {sync sync' : String}
    {records records' : List (List UInt8)} {version version' record_version record_version' : ℤ}
    {result : Except PushExc Unit}
    (hfirst : (push_records sync records version record_version).exec link = (.ok (), link₁))
    (hsecond : (push_records sync' records' version' record_version').exec link₁ =
      (result, link₂)) :
    (result = .ok () → ∃ exchanges, link₂.exchanges = link₁.exchanges ++ exchanges ∧
      Committed sync' records' version' record_version' exchanges) ∧
    (StatusUnchanged link₁ link₂ → (sync', version') ≠ (sync, version) → result ≠ .ok ()) := by
  have hcommitted : result = .ok () → ∃ exchanges,
      link₂.exchanges = link₁.exchanges ++ exchanges ∧
        Committed sync' records' version' record_version' exchanges := by
    rintro rfl
    exact (push_records_committed _ _ _ _).of_ok rfl hsecond
  refine ⟨hcommitted, fun hunchanged hne hok => hne ?_⟩
  obtain ⟨before, hbefore, -, writes, operation, earlier, last, -, -, hoperation, hconfirms, hlog⟩ :=
    (push_records_committed _ _ _ _).of_ok rfl hfirst
  obtain ⟨after, hafter, -, writes', operation', earlier', last', -, -, hoperation', hconfirms',
    hlog'⟩ := hcommitted hok
  -- the first push ended with a status that confirms it, the second with one of its own
  have hlast : link₁.exchanges.getLast? = some (statusRead last) := by
    rw [hbefore, hlog, List.map_append, List.map_singleton, ← List.append_assoc,
      ← List.append_assoc]
    exact List.getLast?_concat
  have hmem : statusRead last' ∈ link₂.exchanges.drop link₁.exchanges.length := by
    rw [hafter, List.drop_left, hlog']
    simp
  -- if both report the same, both name the same operation and token
  have hsame : commitReport last' = commitReport last :=
    hunchanged (statusRead last) hlast (statusRead last') hmem rfl
  obtain ⟨token, htoken, hreport⟩ := hconfirms
  obtain ⟨token', htoken', hreport'⟩ := hconfirms'
  rw [hreport, hreport'] at hsame
  simp only [Option.some.injEq, Prod.mk.injEq, true_and] at hsame
  obtain ⟨rfl, rfl⟩ := hsame
  rw [sync_operation_inj hoperation' hoperation, ← htoken', ← htoken]

/-- A new client, a socket that will answer `responses` one to a `recv`, and a
clock. -/
def scripted (responses : List (List UInt8)) (clock : List ℤ) : Link :=
  ⟨⟨"127.0.0.1", 18632, ⟨MAX_RESPONSE_PAYLOAD, MAX_RESPONSE_PAYLOAD_le, []⟩, [], [], none, []⟩, [],
    responses.map .chunk, clock, []⟩

/-- Status 0 and no payload. -/
def accepts : List UInt8 := [0, 0, 0]

/-- The family-state status with a succeeded schedule commit of token 7. -/
def succeededSeven : List UInt8 :=
  [0, 16, 0, 1, 0, 2, 1, 0, 0, 7, 0, 0, 0, 0, 0, 0, 0, 0, 0]

/-- Version 8 after version 7: the old success is read and not taken. -/
theorem second_push_rests_on_own_status_next_version :
    let link := scripted [accepts, accepts, succeededSeven, accepts, accepts, succeededSeven]
      [0, 0, 0, 0, 6000000000]
    let first := (push_records "schedule_sync" [] 7 3).exec link
    let second := (push_records "schedule_sync" [] 8 3).exec first.2
    first.1 = .ok () ∧ StatusUnchanged first.2 second.2 ∧ second.1 ≠ .ok () := by
  intro link first second
  have hfirst : first.1 = .ok () := by decide +kernel
  have hunchanged : StatusUnchanged first.2 second.2 := by decide +kernel
  have hsplit : ∀ run : Except PushExc Unit × Link, run = (run.1, run.2) := fun _ => rfl
  have hreturned : (push_records "schedule_sync" [] 7 3).exec link = (.ok (), first.2) := by
    rw [← hfirst]
  exact ⟨hfirst, hunchanged,
    (second_push_rests_on_own_status hreturned (hsplit second)).2 hunchanged (by decide)⟩

/-- **An old success.** Two pushes under version 7, all writes accepted, and the
status does not change any more after the first: the second returns. -/
theorem second_push_takes_old_success :
    let link := scripted [accepts, accepts, succeededSeven,
      accepts, accepts, accepts, succeededSeven] [0, 0, 0, 0]
    let first := (push_records "schedule_sync" [] 7 3).exec link
    let second := (push_records "schedule_sync" [List.replicate 43 0] 7 3).exec first.2
    first.1 = .ok () ∧ (∀ x ∈ second.2.exchanges, x.response.status = 0) ∧
      StatusUnchanged first.2 second.2 ∧ second.1 = .ok () := by
  decide +kernel

end Ptlab.Wire
