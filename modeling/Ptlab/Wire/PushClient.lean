/-
`push_records` as a client, and the messages it writes.

The client makes the calls of `push_records`, so that they can be set beside
those of another client: `push_records_onLink` says that the function on a link
is the client on it. `push_records_written` gives its calls on a watch that
accepts every message: the messages of `pushMessages` and then the wait, if the
records can be counted in a byte, and none at all otherwise. `push_records_received` says the
same of the client on `GattClient`, which takes the replies to the messages.
-/
import Ptlab.Wire.Transaction
import Ptlab.Wire.Watch

set_option autoImplicit false

open Bytes Dialogue Effect Ptlab.Gatt Ptlab.Protocol

namespace Ptlab.Wire

/-- `SCHEDULE_RECORD_VERSION`. -/
def SCHEDULE_RECORD_VERSION : ℤ := RECORDS.schedule_record_version

namespace Client

/-! ## The client -/

/-- What a function of `wire.py` returns or raises. -/
def ofWire {α : Type} (outcome : Except WireError α) : Client PushExc α :=
  ofExcept (outcome.mapError .wire)

/-- The loop of `wait_family_commit`. -/
def waitLoop (operation : ℕ) (token deadline : ℤ) : ℕ → Client PushExc Unit
  | 0 => .fail .waiting
  | fuel + 1 => do
    let now ← monotonic
    if now < deadline then
      let status ← read "family_state_status"
      match commitReport status with
      | none => waitLoop operation token deadline fuel
      | some (state, active_operation, active_token) =>
        if active_operation = operation ∧ active_token = token then
          if state = RECORDS.family_state_states_succeeded then pure ()
          else if state = RECORDS.family_state_states_failed then
            .fail (.wire (.RuntimeError "family-state durable commit failed"))
          else waitLoop operation token deadline fuel
        else waitLoop operation token deadline fuel
    else .fail (.wire (.RuntimeError "family-state durable commit timed out"))

/-- `wait_family_commit`, for at most so many readings of the clock. -/
def wait_family_commit (readings operation : ℕ) (token timeout : ℤ) : Client PushExc Unit := do
  let start ← monotonic
  waitLoop operation token (start + timeout) readings

/-- A write that has to be accepted. -/
def writeAccepted (sync_characteristic what : String) (payload : List UInt8) :
    Client PushExc Unit := do
  let response ← write sync_characteristic payload
  ofWire (expectAccepted s!"{sync_characteristic} {what}" response)

/-- One turn of the loop over the records. -/
def writeRecord (sync_characteristic : String) (record_version : ℤ) (turn : List UInt8 × ℕ) :
    Client PushExc Unit := do
  let payload ← ofWire (record_message turn.2 turn.1 record_version)
  writeAccepted sync_characteristic s!"record {turn.2}" payload

def push_records (readings : ℕ) (sync_characteristic : String) (records : List (List UInt8))
    (version record_version : ℤ) : Client PushExc Unit := do
  let payload ← ofWire (begin_sync records.length version)
  writeAccepted sync_characteristic "begin" payload
  records.zipIdx.forM (writeRecord sync_characteristic record_version)
  let payload ← ofWire (commit_sync records.length)
  writeAccepted sync_characteristic "commit" payload
  let operation ← ofWire (sync_operation sync_characteristic)
  wait_family_commit readings operation version 5000000000

end Client

/-! ## On a link -/

section OnLink

theorem onLink_bind {ε α β : Type} (raise : ε → PushExc) (client : Client ε α)
    (f : α → Client ε β) :
    (client >>= f).onLink raise = client.onLink raise >>= fun a => (f a).onLink raise :=
  perform_bind Link.call raise client f

theorem write_onLink (characteristic : String) (payload : List UInt8) :
    (Client.write characteristic payload).onLink id = Link.write characteristic payload :=
  perform_question Link.call id (Call.request characteristic OP_WRITE payload)

theorem read_onLink (characteristic : String) :
    (Client.read characteristic).onLink id = Link.read characteristic :=
  perform_question Link.call id (Call.request characteristic OP_READ [])

theorem monotonic_onLink : Client.monotonic.onLink id = monotonic :=
  perform_question Link.call id Call.monotonic

theorem ofWire_onLink {α : Type} (outcome : Except WireError α) :
    (Client.ofWire outcome).onLink id = lift outcome := by
  rcases outcome with e | a
  · rfl
  · rfl

theorem writeAccepted_onLink (sync_characteristic what : String) (payload : List UInt8) :
    (Client.writeAccepted sync_characteristic what payload).onLink id =
      writeAccepted sync_characteristic what payload := by
  unfold Client.writeAccepted writeAccepted
  rw [onLink_bind, write_onLink]
  refine congrArg (Link.write sync_characteristic payload >>= ·) (funext fun response => ?_)
  rw [ofWire_onLink]
  unfold expectAccepted
  split_ifs with hstatus
  · rfl
  · rfl

theorem writeRecord_onLink (sync_characteristic : String) (record_version : ℤ)
    (turn : List UInt8 × ℕ) :
    (Client.writeRecord sync_characteristic record_version turn).onLink id =
      writeRecord sync_characteristic record_version turn := by
  unfold Client.writeRecord writeRecord
  rw [onLink_bind, ofWire_onLink]
  exact congrArg (lift _ >>= ·) (funext fun payload => writeAccepted_onLink _ _ payload)

theorem waitLoop_onLink (operation : ℕ) (token deadline : ℤ) (fuel : ℕ) :
    (Client.waitLoop operation token deadline fuel).onLink id =
      waitLoop operation token deadline fuel := by
  induction fuel with
  | zero => rfl
  | succ fuel ih =>
      rw [Client.waitLoop, waitLoop, onLink_bind, monotonic_onLink]
      refine congrArg (monotonic >>= ·) (funext fun now => ?_)
      by_cases hnow : now < deadline
      · rw [if_pos hnow, if_pos hnow, onLink_bind, read_onLink]
        refine congrArg (Link.read "family_state_status" >>= ·) (funext fun status => ?_)
        rcases commitReport status with _ | ⟨state, active_operation, active_token⟩
        · exact ih
        · dsimp only
          split_ifs
          · rfl
          · rfl
          · exact ih
          · exact ih
      · rw [if_neg hnow, if_neg hnow]
        rfl

/-- A bound that a computation reads off the state is the same as one it is given. -/
theorem exists_readings {α β : Type} {m : Effect Link PushExc α}
    {f : α → Effect Link PushExc β} {g : ℕ → α → Effect Link PushExc β} {link : Link}
    (h : ∀ a link', ∃ n, (f a).exec link' = (g n a).exec link') :
    ∃ n, (m >>= f).exec link = (m >>= g n).exec link := by
  rcases hrun : m.exec link with ⟨e | a, link'⟩
  · refine ⟨0, ?_⟩
    rw [exec_bind, exec_bind, hrun]
  · obtain ⟨n, hn⟩ := h a link'
    refine ⟨n, ?_⟩
    rw [exec_bind, exec_bind, hrun]
    exact hn

theorem wait_family_commit_onLink (operation : ℕ) (token timeout : ℤ) (link : Link) :
    ∃ readings, (wait_family_commit operation token timeout).exec link =
      ((Client.wait_family_commit readings operation token timeout).onLink id).exec link := by
  unfold Client.wait_family_commit wait_family_commit
  simp only [onLink_bind, monotonic_onLink, waitLoop_onLink]
  refine exists_readings fun start link' => ⟨link'.clock.length, ?_⟩
  rw [exec_bind]
  rfl

/-- **`push_records` on a link is the client on it.** -/
theorem push_records_onLink (sync_characteristic : String) (records : List (List UInt8))
    (version record_version : ℤ) (link : Link) :
    ∃ readings, (push_records sync_characteristic records version record_version).exec link =
      ((Client.push_records readings sync_characteristic records version record_version).onLink
        id).exec link := by
  have hforM : (records.zipIdx.forM (Client.writeRecord sync_characteristic record_version)).onLink
      id = records.zipIdx.forM (writeRecord sync_characteristic record_version) := by
    unfold Client.onLink
    rw [perform_forM]
    exact congrArg records.zipIdx.forM (funext fun turn => writeRecord_onLink _ _ turn)
  unfold push_records Client.push_records
  simp only [onLink_bind, ofWire_onLink, writeAccepted_onLink, hforM]
  -- up to the wait both are the same; there the function reads its bound off the clock
  refine exists_readings fun payload _ => exists_readings fun _ _ => exists_readings fun _ _ =>
    exists_readings fun payload _ => exists_readings fun _ _ => exists_readings fun operation _ => ?_
  exact wait_family_commit_onLink operation version 5000000000 _

end OnLink

/-! ## On a watch that accepts -/

/-- A watch that accepts every write to a characteristic. -/
def Accepting (sync_characteristic : String) (watch : Watch) : Prop :=
  ∀ asked payload, (show GattResponse from
    watch asked (.request sync_characteristic OP_WRITE payload)).status = 0

/-- A watch whose replies to these writes `GattClient` takes. -/
def TakenWrites (sync_characteristic : String) (watch : Watch) : Prop :=
  ∀ asked payload, Taken (watch asked (.request sync_characteristic OP_WRITE payload))

/-- The calls that write some messages. -/
def writeCalls (sync_characteristic : String) (messages : List (List UInt8)) : List Call :=
  messages.map (.request sync_characteristic OP_WRITE)

/-- The messages that some calls write. -/
def messagesOf (sync_characteristic : String) (calls : List Call) : List (List UInt8) :=
  calls.filterMap fun
    | .request characteristic operation payload =>
      if characteristic = sync_characteristic ∧ operation = OP_WRITE then some payload else none
    | .monotonic => none

/-- A call that writes no message. -/
def Quiet (sync_characteristic : String) (call : Call) : Prop :=
  ∀ payload, call ≠ .request sync_characteristic OP_WRITE payload

theorem messagesOf_writeCalls (sync_characteristic : String) (messages : List (List UInt8)) :
    messagesOf sync_characteristic (writeCalls sync_characteristic messages) = messages := by
  unfold messagesOf writeCalls
  rw [List.filterMap_map]
  refine (List.filterMap_congr fun message _ => ?_).trans List.filterMap_some
  exact if_pos ⟨rfl, rfl⟩

theorem messagesOf_quiet {sync_characteristic : String} {calls : List Call}
    (h : ∀ call ∈ calls, Quiet sync_characteristic call) :
    messagesOf sync_characteristic calls = [] := by
  unfold messagesOf
  rw [List.filterMap_eq_nil_iff]
  intro call hcall
  cases call with
  | request characteristic operation payload =>
      refine if_neg ?_
      rintro ⟨rfl, rfl⟩
      exact h _ hcall payload rfl
  | monotonic => rfl

/-- What calls write in front of quiet ones. -/
theorem messagesOf_append_quiet {sync_characteristic : String} {calls later : List Call}
    (h : ∀ call ∈ later, Quiet sync_characteristic call) :
    messagesOf sync_characteristic (calls ++ later) = messagesOf sync_characteristic calls := by
  have hlater := messagesOf_quiet h
  unfold messagesOf at hlater ⊢
  rw [List.filterMap_append, hlater, List.append_nil]

section Written

variable {sync_characteristic : String} {watch : Watch}

theorem writeAccepted_against (h : Accepting sync_characteristic watch) (what : String)
    (message : List UInt8) (asked : List Call) :
    ((Client.writeAccepted sync_characteristic what message).against watch).exec asked =
      (.ok (), asked ++ [.request sync_characteristic OP_WRITE message]) := by
  unfold Client.writeAccepted
  rw [exec_write_bind, (expectAccepted_ok_iff _ _).mpr (h asked message)]
  rfl

theorem read_quiet {ε : Type} (characteristic : String) :
    (Client.read characteristic : Client ε GattResponse).AsksOnly (Quiet sync_characteristic) := by
  refine asksOnly_question fun payload heq => ?_
  injection heq with _ hoperation
  exact absurd hoperation (by decide)

theorem monotonic_quiet {ε : Type} :
    (Client.monotonic : Client ε ℤ).AsksOnly (Quiet sync_characteristic) :=
  asksOnly_question fun _ heq => by cases heq

/-- The wait reads the status and the clock. -/
theorem waitLoop_quiet (operation : ℕ) (token deadline : ℤ) (fuel : ℕ) :
    (Client.waitLoop operation token deadline fuel).AsksOnly (Quiet sync_characteristic) := by
  induction fuel with
  | zero => trivial
  | succ fuel ih =>
      rw [Client.waitLoop]
      refine asksOnly_bind monotonic_quiet fun now => ?_
      split_ifs
      · refine asksOnly_bind (read_quiet _) fun status => ?_
        rcases commitReport status with _ | ⟨state, active_operation, active_token⟩
        · exact ih
        · dsimp only
          split_ifs
          · trivial
          · trivial
          · exact ih
          · exact ih
      · trivial

theorem wait_family_commit_quiet (readings operation : ℕ) (token timeout : ℤ) :
    (Client.wait_family_commit readings operation token timeout).AsksOnly
      (Quiet sync_characteristic) :=
  asksOnly_bind monotonic_quiet fun _ => waitLoop_quiet _ _ _ _

variable {records : List (List UInt8)} {version record_version : ℤ}

/-- More records than a byte counts are refused before anything is written. -/
theorem push_records_refused (hcount : ¬ records.length ≤ 0xFF) (readings : ℕ)
    (sync_characteristic : String) (watch : Watch) :
    ((Client.push_records readings sync_characteristic records version record_version).received
      id watch).exec [] = (.error (.wire (.ValueError "sync count must be a u8")), []) := by
  have hrefuse : begin_sync records.length version =
      .error (.ValueError "sync count must be a u8") := if_pos (by omega)
  unfold Client.push_records Client.ofWire
  rw [hrefuse]
  rfl

/-- **The messages of a push** on a watch that accepts them. -/
theorem push_records_written (h : Accepting sync_characteristic watch)
    (hsync : sync_characteristic = "schedule_sync" ∨ sync_characteristic = "tasks_sync")
    (hcount : records.length ≤ 0xFF) (hversion : 0 ≤ version ∧ version ≤ 0xFFFFFFFF)
    (hrecord : 0 ≤ record_version ∧ record_version ≤ 0xFF) (readings : ℕ) :
    ∃ later, (((Client.push_records readings sync_characteristic records version
        record_version).against watch).exec []).2 =
      writeCalls sync_characteristic (pushMessages records version record_version) ++ later ∧
      ∀ call ∈ later, Quiet sync_characteristic call := by
  have hloop : ((records.zipIdx.forM (Client.writeRecord sync_characteristic
      record_version)).against watch).exec
        (writeCalls sync_characteristic [beginMessage records.length version]) =
      (.ok (), writeCalls sync_characteristic (beginMessage records.length version ::
        records.zipIdx.map (turnMessage record_version))) := by
    refine exec_against_forM (H := fun turns => writeCalls sync_characteristic
      (beginMessage records.length version :: turns.map (turnMessage record_version))) watch ?_
    intro pre turn post heq
    -- the indices stay below the count, so the builder takes them
    have hindex : turn.2 ≤ 0xFF := by
      have hmem : turn ∈ records.zipIdx := by rw [heq]; simp
      have := List.snd_lt_of_mem_zipIdx hmem
      omega
    unfold Client.writeRecord Client.ofWire
    rw [record_message_eq hindex hrecord]
    change ((Client.writeAccepted _ _ (turnMessage record_version turn)).against watch).exec _ = _
    rw [writeAccepted_against h]
    simp [writeCalls]
  obtain ⟨operation, hoperation⟩ := sync_operation_known hsync
  obtain ⟨later, hlater, hquiet⟩ := (wait_family_commit_quiet readings operation version
    5000000000).against watch (writeCalls sync_characteristic
      (pushMessages records version record_version))
  refine ⟨later, ?_, hquiet⟩
  rw [← hlater]
  -- the builders succeed, and the messages go out one by one up to the wait
  unfold Client.push_records
  rw [begin_sync_eq hcount hversion, commit_sync_eq hcount, hoperation]
  change (((Client.writeAccepted sync_characteristic "begin" (beginMessage records.length version)
    >>= fun _ => _).against watch).exec []).2 = _
  rw [exec_against_bind, writeAccepted_against h]
  dsimp only
  have hstart : ([] : List Call) ++ [.request sync_characteristic OP_WRITE
      (beginMessage records.length version)] =
      writeCalls sync_characteristic [beginMessage records.length version] := rfl
  rw [exec_against_bind, hstart, hloop]
  change (((Client.writeAccepted sync_characteristic "commit" [2, 0, UInt8.ofNat records.length]
    >>= fun _ => _).against watch).exec _).2 = _
  rw [exec_against_bind, writeAccepted_against h, pushMessages_eq]
  unfold writeCalls
  rw [List.map_append]
  rfl

/-- **On `GattClient`** the same messages go out, if the replies to them are taken: a reply
that is not ends the wait behind them. -/
theorem push_records_received (h : Accepting sync_characteristic watch)
    (htaken : TakenWrites sync_characteristic watch)
    (hsync : sync_characteristic = "schedule_sync" ∨ sync_characteristic = "tasks_sync")
    (hcount : records.length ≤ 0xFF) (hversion : 0 ≤ version ∧ version ≤ 0xFFFFFFFF)
    (hrecord : 0 ≤ record_version ∧ record_version ≤ 0xFF) (readings : ℕ) :
    ∃ later, (((Client.push_records readings sync_characteristic records version
        record_version).received id watch).exec []).2 =
      writeCalls sync_characteristic (pushMessages records version record_version) ++ later ∧
      ∀ call ∈ later, Quiet sync_characteristic call := by
  obtain ⟨later, hwritten, hquiet⟩ := push_records_written h hsync hcount hversion hrecord readings
  obtain ⟨asked, hasked, hrun⟩ := received_cases id watch []
    (Client.push_records readings sync_characteristic records version record_version)
  have hsplit : asked = writeCalls sync_characteristic
      (pushMessages records version record_version) ++ later :=
    hasked.symm.trans hwritten
  rcases hrun with ⟨-, hrun⟩ | ⟨pre, characteristic, operation, payload, post, rfl, -, hlong, hrun⟩
  · exact ⟨later, (congrArg Prod.snd hrun).trans hsplit, hquiet⟩
  · rw [hrun]
    rcases List.append_eq_append_iff.mp hsplit with ⟨rest, hwrites, hlater⟩ | ⟨rest, rfl, hlater⟩
    · rcases rest with _ | ⟨first, rest⟩
      · rw [List.append_nil] at hwrites
        refine ⟨[.request characteristic operation payload], by rw [hwrites]; rfl, ?_⟩
        rw [List.forall_mem_singleton]
        exact hquiet _ (by rw [← hlater.trans (List.nil_append _)]; exact List.mem_cons_self ..)
      · -- the call is one of the writes, whose replies are taken
        obtain ⟨rfl, -⟩ := List.cons.inj hlater
        have hmem : Call.request characteristic operation payload ∈
            writeCalls sync_characteristic (pushMessages records version record_version) := by
          rw [hwrites]
          simp
        obtain ⟨message, -, heq⟩ := List.mem_map.mp hmem
        obtain ⟨rfl, rfl, rfl⟩ := Call.request.inj heq
        exact absurd (htaken _ _) hlong
    · refine ⟨rest ++ [.request characteristic operation payload], by simp, fun call hcall => ?_⟩
      apply hquiet
      rw [hlater]
      rcases List.mem_append.mp hcall with hrest | hlast
      · exact List.mem_append_left _ hrest
      · rw [List.mem_singleton.mp hlast]
        simp

end Written

end Ptlab.Wire
