/-
What a probe does before it pairs, and what it has seen when it returns.

Pairing changes the watch for good, so it must not come before the checks.
`probe_pairing_safe` says so of the events of every call: in front of the one
connection with pairing stands one whole unpaired session, with what the checks
ask for in its replies. The validation of the two statuses looks for counters
that went back. A peer that bonds in between makes them go forward, and
`accepted_without_eviction_iff` says which pairs of statuses that lets through.
-/
import Ptlab.Hardware.Ble

set_option autoImplicit false

open Effect

namespace Ptlab.Hardware

/-- Not a connection with pairing. -/
def BleEvent.Unpaired : BleEvent → Prop
  | .connect _ pair _ _ => pair = false
  | _ => True

section Events

variable {py : Builtins} {bleak : Bleak} {hardware : BleakHardware}

/-! ## What the parts add to the log -/

theorem load_bleak_adds {p : BleEvent → Prop} : Adds p (_load_bleak bleak) := by
  unfold _load_bleak
  split
  · exact adds_pure _
  · exact adds_throw _

theorem readChar_adds (uuid : String) : Adds BleEvent.Unpaired (readChar bleak uuid) :=
  adds_ask fun _ => trivial

theorem find_adds (endpoint : BleEndpoint) (timeout : Option ℚ) :
    Adds BleEvent.Unpaired (hardware._find py bleak endpoint timeout) := by
  refine adds_bind load_bleak_adds fun _ => ?_
  refine adds_bind (adds_ask fun _ => trivial) fun device => ?_
  cases device with
  | none => exact adds_throw _
  | some device => exact adds_pure _

theorem withClient_adds {α : Type} {endpoint : BleEndpoint} {device : Device} {body : Ble α}
    (h : Adds BleEvent.Unpaired body) :
    Adds BleEvent.Unpaired (withClient bleak endpoint device false body) :=
  adds_bind (adds_ask fun _ => rfl) fun _ => adds_ensure h (adds_ask fun _ => trivial)

theorem authenticationGate_adds :
    Adds BleEvent.Unpaired (authenticationGate py bleak hardware) := by
  refine adds_tryCatch (adds_bind (readChar_adds _) fun _ => adds_pure _) fun error => ?_
  split
  · exact adds_throw _
  · split
    · exact adds_throw _
    · exact adds_pure _

theorem readSession_adds (check : Bool) :
    Adds BleEvent.Unpaired (readSession py bleak hardware check) := by
  refine adds_bind (readChar_adds _) fun _ => adds_bind (readChar_adds _) fun _ =>
    adds_bind (readChar_adds _) fun _ => ?_
  cases check with
  | false => exact adds_bind (adds_pure _) fun _ => adds_pure _
  | true => exact adds_bind authenticationGate_adds fun _ => adds_pure _

theorem read_public_adds (endpoint : BleEndpoint) (check : Bool) :
    Adds BleEvent.Unpaired (hardware._read_public py bleak endpoint check) := by
  refine adds_bind load_bleak_adds fun _ => adds_bind (find_adds _ _) fun device =>
    adds_bind (withClient_adds (readSession_adds check)) fun read => ?_
  obtain ⟨status, battery, revision, rejected⟩ := read
  dsimp only
  split
  · exact adds_pure _
  · exact adds_throw _

theorem cccd_descriptor_adds (uuid : String) :
    Adds BleEvent.Unpaired (_cccd_descriptor py bleak uuid) := by
  refine adds_bind (adds_ask fun _ => trivial) fun characteristic => ?_
  cases characteristic with
  | none => exact adds_throw _
  | some characteristic =>
      dsimp only
      split
      · exact adds_throw _
      · exact adds_pure _

theorem pairedSession_adds (publicStatus : CompanionStatus) (verify_cccd : Bool) :
    Adds BleEvent.Unpaired (pairedSession py bleak hardware publicStatus verify_cccd) := by
  refine adds_bind (readChar_adds _) fun _ => adds_bind (adds_lift _) fun _ =>
    adds_bind (adds_lift _) fun _ => ?_
  cases verify_cccd with
  | false => exact adds_pure _
  | true =>
      exact adds_bind (cccd_descriptor_adds _) fun _ =>
        adds_bind (adds_ask fun _ => trivial) fun _ =>
          adds_bind (adds_ask fun _ => trivial) fun _ => adds_pure _

theorem cccdSession_adds : Adds BleEvent.Unpaired (cccdSession py bleak hardware) := by
  refine adds_bind (cccd_descriptor_adds _) fun _ => adds_bind (adds_ask fun _ => trivial)
    fun raw => ?_
  split
  · exact adds_throw _
  · exact adds_pure _

/-! ## The events of a part that returns -/

theorem load_bleak_ok {log log' : List BleEvent} {u : Unit}
    (h : (_load_bleak bleak).exec log = (.ok u, log')) : log = log' := by
  unfold _load_bleak at h
  split at h
  · exact (exec_pure_ok.mp h).2
  · exact absurd h exec_throw_ok

theorem readChar_ok {uuid : String} {log log' : List BleEvent} {payload : List UInt8}
    (h : (readChar bleak uuid).exec log = (.ok payload, log')) :
    log' = log ++ [.read_gatt_char uuid (.ok payload)] := (exec_ask_ok.mp h).2

theorem find_ok {endpoint : BleEndpoint} {timeout : Option ℚ} {log log' : List BleEvent}
    {device : Device} (h : (hardware._find py bleak endpoint timeout).exec log = (.ok device, log')) :
    ∃ target wait, log' = log ++ [.find target wait endpoint.adapter (.ok (some device))] := by
  unfold BleakHardware._find at h
  obtain ⟨u, log₁, hload, h⟩ := exec_bind_ok.mp h
  obtain rfl := load_bleak_ok hload
  obtain ⟨found, log₂, hfind, h⟩ := exec_bind_ok.mp h
  obtain ⟨-, rfl⟩ := exec_ask_ok.mp hfind
  cases found with
  | none => exact absurd h exec_throw_ok
  | some found =>
      obtain ⟨rfl, rfl⟩ := exec_pure_ok.mp h
      exact ⟨_, _, rfl⟩

/-- A connection that returns was made and let go, with its body between. -/
theorem withClient_ok {α : Type} {endpoint : BleEndpoint} {device : Device} {pair : Bool}
    {body : Ble α} {log log' : List BleEvent} {a : α}
    (h : (withClient bleak endpoint device pair body).exec log = (.ok a, log')) :
    ∃ log₁, body.exec (log ++ [.connect device pair endpoint.adapter (.ok ())]) = (.ok a, log₁) ∧
      log' = log₁ ++ [.disconnect (.ok ())] := by
  unfold withClient at h
  obtain ⟨u, log₁, hconnect, h⟩ := exec_bind_ok.mp h
  obtain ⟨-, rfl⟩ := exec_ask_ok.mp hconnect
  obtain ⟨log₂, hbody, hclose⟩ := exec_ensure_ok.mp h
  obtain ⟨-, rfl⟩ := exec_ask_ok.mp hclose
  exact ⟨log₂, hbody, rfl⟩

theorem cccd_descriptor_ok {uuid : String} {log log' : List BleEvent} {descriptor : Descriptor}
    (h : (_cccd_descriptor py bleak uuid).exec log = (.ok descriptor, log')) :
    ∃ reply, log' = log ++ [.get_characteristic uuid reply] := by
  unfold _cccd_descriptor at h
  obtain ⟨characteristic, log₁, hask, h⟩ := exec_bind_ok.mp h
  obtain ⟨-, rfl⟩ := exec_ask_ok.mp hask
  cases characteristic with
  | none => exact absurd h exec_throw_ok
  | some characteristic =>
      dsimp only at h
      split at h
      · exact absurd h exec_throw_ok
      · obtain ⟨-, rfl⟩ := exec_pure_ok.mp h
        exact ⟨_, rfl⟩

/-- The gate that was seen shut: an unpaired read of the verify characteristic
failed as an authentication failure does. -/
def GateShut (py : Builtins) (hardware : BleakHardware) (gate : List BleEvent) : Prop :=
  ∃ error, gate = [.read_gatt_char hardware.contract.companion_verify (.error error)] ∧
    error.isException ∧ _is_authentication_rejection py error

theorem authenticationGate_ok {log log' : List BleEvent} {rejected : Option Bool}
    (h : (authenticationGate py bleak hardware).exec log = (.ok rejected, log')) :
    ∃ gate, log' = log ++ gate ∧ (rejected = some true → GateShut py hardware gate) := by
  unfold authenticationGate at h
  rcases exec_tryCatch_ok.mp h with hread | ⟨error, log₁, hread, hhandler⟩
  · obtain ⟨payload, log₁, hchar, hpure⟩ := exec_bind_ok.mp hread
    obtain ⟨rfl, rfl⟩ := exec_pure_ok.mp hpure
    exact ⟨_, readChar_ok hchar, fun hrejected => by cases hrejected⟩
  · -- the read was refused, and only an error of authentication is swallowed
    have hlog : log₁ = log ++
        [.read_gatt_char hardware.contract.companion_verify (.error error)] := by
      rw [exec_bind] at hread
      rcases hchar : (readChar bleak hardware.contract.companion_verify).exec log with
        ⟨e | payload, log₂⟩ <;> rw [hchar] at hread
      · obtain ⟨he, rfl⟩ := Prod.mk.inj hread
        rw [← Except.error.inj he]
        exact (exec_ask_error.mp hchar).2
      · cases hread
    split at hhandler
    · exact absurd hhandler exec_throw_ok
    · split at hhandler
      · exact absurd hhandler exec_throw_ok
      · obtain ⟨rfl, rfl⟩ := exec_pure_ok.mp hhandler
        exact ⟨_, hlog, fun _ => ⟨error, rfl, by simp_all, by simp_all⟩⟩

/-- The events of a public read that returns. -/
def publicEvents (hardware : BleakHardware) (endpoint : BleEndpoint) (target : FindBy) (wait : ℚ)
    (device : Device) (status : List UInt8) (battery : UInt8) (firmware : List UInt8)
    (gate : List BleEvent) : List BleEvent :=
  [.find target wait endpoint.adapter (.ok (some device)),
    .connect device false endpoint.adapter (.ok ()),
    .read_gatt_char hardware.contract.companion_status (.ok status),
    .read_gatt_char hardware.contract.battery (.ok [battery]),
    .read_gatt_char hardware.contract.firmware_revision (.ok firmware)] ++ gate ++
  [.disconnect (.ok ())]

theorem readSession_ok {check : Bool} {log log' : List BleEvent}
    {read : List UInt8 × List UInt8 × String × Option Bool}
    (h : (readSession py bleak hardware check).exec log = (.ok read, log')) :
    ∃ firmware gate, log' = log ++
        [.read_gatt_char hardware.contract.companion_status (.ok read.1),
          .read_gatt_char hardware.contract.battery (.ok read.2.1),
          .read_gatt_char hardware.contract.firmware_revision (.ok firmware)] ++ gate ∧
      (check = true → read.2.2.2 = some true → GateShut py hardware gate) := by
  unfold readSession at h
  obtain ⟨status, log₁, hstatus, h⟩ := exec_bind_ok.mp h
  obtain rfl := readChar_ok hstatus
  obtain ⟨battery, log₂, hbattery, h⟩ := exec_bind_ok.mp h
  obtain rfl := readChar_ok hbattery
  obtain ⟨firmware, log₃, hfirmware, h⟩ := exec_bind_ok.mp h
  obtain rfl := readChar_ok hfirmware
  cases check with
  | false =>
      obtain ⟨rfl, rfl⟩ := exec_pure_ok.mp h
      exact ⟨firmware, [], by simp, fun hcheck => by cases hcheck⟩
  | true =>
      -- only here the protected characteristic is tried
      obtain ⟨rejected, log₄, hgate, h⟩ := exec_bind_ok.mp h
      obtain ⟨rfl, rfl⟩ := exec_pure_ok.mp h
      obtain ⟨gate, rfl, hshut⟩ := authenticationGate_ok hgate
      exact ⟨firmware, gate, by simp, fun _ => hshut⟩

theorem read_public_ok {endpoint : BleEndpoint} {check : Bool} {log log' : List BleEvent}
    {read : PublicRead}
    (h : (hardware._read_public py bleak endpoint check).exec log = (.ok read, log')) :
    ∃ target wait firmware gate, log' = log ++ publicEvents hardware endpoint target wait
        read.device read.status read.battery firmware gate ∧
      (check = true → read.authentication_rejected = some true → GateShut py hardware gate) := by
  unfold BleakHardware._read_public at h
  obtain ⟨u, log₁, hload, h⟩ := exec_bind_ok.mp h
  obtain rfl := load_bleak_ok hload
  obtain ⟨device, log₂, hfind, h⟩ := exec_bind_ok.mp h
  obtain ⟨target, wait, rfl⟩ := find_ok hfind
  obtain ⟨⟨status, battery, revision, rejected⟩, log₃, hclient, h⟩ := exec_bind_ok.mp h
  obtain ⟨log₄, hbody, rfl⟩ := withClient_ok hclient
  obtain ⟨firmware, gate, rfl, hshut⟩ := readSession_ok hbody
  dsimp only at h
  split at h
  · obtain ⟨rfl, rfl⟩ := exec_pure_ok.mp h
    exact ⟨target, wait, firmware, gate, by simp [publicEvents], hshut⟩
  · exact absurd h exec_throw_ok

/-! ## The probe -/

theorem probeChecks_adds (endpoint : BleEndpoint) (require allow : Bool) :
    Adds BleEvent.Unpaired (probeChecks py bleak hardware endpoint require allow) := by
  refine adds_bind load_bleak_adds fun _ => adds_bind (read_public_adds _ _) fun read => ?_
  dsimp only
  split
  · exact adds_throw_bind _ _
  · refine adds_bind (adds_lift _) fun publicStatus => ?_
    split
    · exact adds_throw_bind _ _
    · exact adds_pure _

theorem reconnect_adds (endpoint : BleEndpoint) (verify_cccd : Bool) :
    Adds BleEvent.Unpaired (reconnect py bleak hardware endpoint verify_cccd) := by
  cases verify_cccd with
  | false => exact adds_pure _
  | true =>
      exact adds_bind (find_adds _ _) fun device =>
        adds_bind (withClient_adds cccdSession_adds) fun value => adds_pure _

/-- The events after which a probe may pair: a whole public session, with a status
that leaves room or the permission to evict, and the gate seen shut if that was
asked for. -/
def MayPair (py : Builtins) (hardware : BleakHardware) (endpoint : BleEndpoint)
    (require allow : Bool) (status : List UInt8) (events : List BleEvent) : Prop :=
  ∃ target wait device battery firmware gate,
    events = publicEvents hardware endpoint target wait device status battery firmware gate ∧
    status.length = 20 ∧
    ((unpackStatus status).bonded_count < (unpackStatus status).capacity ∨ allow = true) ∧
    (require = true → GateShut py hardware gate)

theorem probeChecks_ok {endpoint : BleEndpoint} {require allow : Bool} {log log' : List BleEvent}
    {read : PublicRead} {publicStatus : CompanionStatus}
    (h : (probeChecks py bleak hardware endpoint require allow).exec log =
      (.ok (read, publicStatus), log')) :
    ∃ status events, log' = log ++ events ∧ publicStatus = unpackStatus status ∧
      MayPair py hardware endpoint require allow status events := by
  unfold probeChecks at h
  obtain ⟨u, log₁, hload, h⟩ := exec_bind_ok.mp h
  obtain rfl := load_bleak_ok hload
  obtain ⟨read', log₂, hread, h⟩ := exec_bind_ok.mp h
  obtain ⟨target, wait, firmware, gate, rfl, hshut⟩ := read_public_ok hread
  split at h
  · obtain ⟨u, log₃, hgate, h⟩ := exec_bind_ok.mp h
    exact absurd hgate exec_throw_ok
  -- from here on the gate is shut, or was not asked for
  rename_i hgateopen
  obtain ⟨status, log₄, hparse, h⟩ := exec_bind_ok.mp h
  obtain ⟨hstatus, rfl⟩ := exec_lift_ok.mp hparse
  obtain ⟨hlen, rfl⟩ := parse_companion_status_ok hstatus
  split at h
  · obtain ⟨u, log₅, hroom, h⟩ := exec_bind_ok.mp h
    exact absurd hroom exec_throw_ok
  -- and there is room for a bond, or an eviction is allowed
  rename_i hfull
  obtain ⟨hpair, rfl⟩ := exec_pure_ok.mp h
  obtain ⟨rfl, rfl⟩ := Prod.mk.inj hpair
  refine ⟨read'.status, _, rfl, rfl, target, wait, read'.device, read'.battery, firmware, gate, rfl,
    hlen, ?_, fun hrequire => hshut hrequire ?_⟩
  · by_cases hallow : allow = true
    · exact .inr hallow
    · left
      by_contra hge
      exact hfull (by simp [hallow, not_lt.mp hge])
  · by_contra hne
    exact hgateopen (by simp [hrequire, hne])

/-- A paired session that returns has read a status that goes with the public
one. -/
theorem pairedSession_ok {publicStatus : CompanionStatus} {verify_cccd : Bool}
    {log log' : List BleEvent} {read : CompanionStatus × List String}
    (h : (pairedSession py bleak hardware publicStatus verify_cccd).exec log = (.ok read, log')) :
    ∃ payload rest, log' = log ++
        .read_gatt_char hardware.contract.companion_verify (.ok payload) :: rest ∧
      payload.length = 20 ∧ read.1 = unpackStatus payload ∧
      StatusPair publicStatus (unpackStatus payload) := by
  unfold pairedSession at h
  obtain ⟨payload, log₁, hread, h⟩ := exec_bind_ok.mp h
  obtain rfl := readChar_ok hread
  obtain ⟨verified, log₂, hparse, h⟩ := exec_bind_ok.mp h
  obtain ⟨hstatus, rfl⟩ := exec_lift_ok.mp hparse
  obtain ⟨hlen, rfl⟩ := parse_companion_status_ok hstatus
  obtain ⟨u, log₃, hcheck, h⟩ := exec_bind_ok.mp h
  obtain ⟨hpair, rfl⟩ := exec_lift_ok.mp hcheck
  -- what comes behind the check may fail, but says no more of the pair
  have hgoes := (validate_status_pair_iff _ _).mp hpair
  cases verify_cccd with
  | false =>
      obtain ⟨rfl, rfl⟩ := exec_pure_ok.mp h
      exact ⟨payload, [], rfl, hlen, rfl, hgoes⟩
  | true =>
      obtain ⟨descriptor, log₄, hcccd, h⟩ := exec_bind_ok.mp h
      obtain ⟨characteristic, rfl⟩ := cccd_descriptor_ok hcccd
      obtain ⟨u, log₅, hnotify, h⟩ := exec_bind_ok.mp h
      obtain ⟨-, rfl⟩ := exec_ask_ok.mp hnotify
      obtain ⟨values, log₆, hsleep, h⟩ := exec_bind_ok.mp h
      obtain ⟨-, rfl⟩ := exec_ask_ok.mp hsleep
      obtain ⟨rfl, rfl⟩ := exec_pure_ok.mp h
      refine ⟨payload, [.get_characteristic hardware.contract.battery characteristic,
        .start_notify (.ok u), .sleep (1 / 2) (.ok values)], ?_, hlen, rfl, hgoes⟩
      simp only [List.append_assoc, List.cons_append, List.nil_append]

/-- A session after the pairing that returns has read notifications as enabled. -/
theorem cccdSession_ok {log log' : List BleEvent} {value : String}
    (h : (cccdSession py bleak hardware).exec log = (.ok value, log')) :
    ∃ characteristic handle, log' = log ++
      [.get_characteristic hardware.contract.battery characteristic,
        .read_gatt_descriptor handle (.ok [0x01, 0x00])] := by
  unfold cccdSession at h
  obtain ⟨descriptor, log₁, hcccd, h⟩ := exec_bind_ok.mp h
  obtain ⟨characteristic, rfl⟩ := cccd_descriptor_ok hcccd
  obtain ⟨raw, log₂, hread, h⟩ := exec_bind_ok.mp h
  obtain ⟨-, rfl⟩ := exec_ask_ok.mp hread
  split at h
  · exact absurd h exec_throw_ok
  · rename_i hraw
    obtain ⟨-, rfl⟩ := exec_pure_ok.mp h
    obtain rfl : raw = [0x01, 0x00] := not_not.mp hraw
    exact ⟨characteristic, descriptor.handle, by simp⟩

/-- The events of a reconnection that found notifications enabled. -/
def Restored (hardware : BleakHardware) (endpoint : BleEndpoint) (events : List BleEvent) : Prop :=
  ∃ target wait device characteristic handle, events =
    [.find target wait endpoint.adapter (.ok (some device)),
      .connect device false endpoint.adapter (.ok ()),
      .get_characteristic hardware.contract.battery characteristic,
      .read_gatt_descriptor handle (.ok [0x01, 0x00]),
      .disconnect (.ok ())]

theorem reconnect_ok {endpoint : BleEndpoint} {verify_cccd : Bool} {log log' : List BleEvent}
    {value : Option String}
    (h : (reconnect py bleak hardware endpoint verify_cccd).exec log = (.ok value, log')) :
    ∃ events, log' = log ++ events ∧
      (verify_cccd = true → Restored hardware endpoint events) := by
  cases verify_cccd with
  | false =>
      obtain ⟨-, rfl⟩ := exec_pure_ok.mp h
      exact ⟨[], (List.append_nil log).symm, fun hverify => by cases hverify⟩
  | true =>
      obtain ⟨device, log₁, hfind, h⟩ := exec_bind_ok.mp h
      obtain ⟨target, wait, rfl⟩ := find_ok hfind
      obtain ⟨raw, log₂, hclient, h⟩ := exec_bind_ok.mp h
      obtain ⟨log₃, hbody, rfl⟩ := withClient_ok hclient
      obtain ⟨characteristic, handle, rfl⟩ := cccdSession_ok hbody
      obtain ⟨-, rfl⟩ := exec_pure_ok.mp h
      exact ⟨_, by simp only [List.append_assoc, List.cons_append, List.nil_append],
        fun _ => ⟨target, wait, device, characteristic, handle, rfl⟩⟩

/-- A connection with pairing, whatever comes of it, is one event that is not
unpaired, with the others behind it. -/
theorem withClient_paired {α : Type} {endpoint : BleEndpoint} {device : Device} {body : Ble α}
    (h : Adds BleEvent.Unpaired body) (log : List BleEvent) :
    ∃ reply behind, ((withClient bleak endpoint device true body).exec log).2 =
        log ++ .connect device true endpoint.adapter reply :: behind ∧
      ∀ event ∈ behind, event.Unpaired := by
  unfold withClient
  rw [exec_bind, exec_ask]
  rcases bleak.connect log device true endpoint.adapter with error | u
  · exact ⟨.error error, [], rfl, by simp⟩
  · have hensure : Adds BleEvent.Unpaired (ensure body (ask bleak.disconnect .disconnect)) :=
      adds_ensure h (adds_ask fun _ => trivial)
    obtain ⟨behind, hbehind, hunpaired⟩ :=
      hensure (log ++ [.connect device true endpoint.adapter (.ok u)])
    exact ⟨.ok u, behind, by rw [hbehind, List.append_assoc, List.singleton_append], hunpaired⟩

/-- What a call of `probe` adds to the log: either no connection with pairing at
all, or one, after the checks. -/
theorem probe_events (endpoint : BleEndpoint) (verify_cccd require allow : Bool)
    (log : List BleEvent) :
    ∃ events, ((hardware.probe py bleak endpoint verify_cccd require allow).exec log).2 =
        log ++ events ∧
      ((∀ event ∈ events, event.Unpaired) ∨
        ∃ pre device reply behind status,
          events = pre ++ .connect device true endpoint.adapter reply :: behind ∧
          (∀ event ∈ pre, event.Unpaired) ∧ (∀ event ∈ behind, event.Unpaired) ∧
          MayPair py hardware endpoint require allow status pre) := by
  obtain ⟨pre, hpre, hunpaired⟩ := probeChecks_adds endpoint require allow log
  unfold BleakHardware.probe
  rw [exec_bind]
  rcases hchecks : (probeChecks py bleak hardware endpoint require allow).exec log with
    ⟨error | ⟨found, publicStatus⟩, log₁⟩ <;> rw [hchecks] at hpre
  · exact ⟨pre, hpre, .inl hunpaired⟩
  · obtain ⟨status, events, hevents, -, hmay⟩ := probeChecks_ok hchecks
    dsimp only at hpre ⊢
    -- the checks have returned, so what they added is what allows pairing
    obtain rfl : pre = events := List.append_cancel_left (hpre.symm.trans hevents)
    subst hevents
    rw [exec_bind]
    obtain ⟨reply, behind, hclient, hbehind⟩ := withClient_paired
      (pairedSession_adds publicStatus verify_cccd) (log ++ pre)
    rcases hpaired : (withClient bleak endpoint found.device true
      (pairedSession py bleak hardware publicStatus verify_cccd)).exec (log ++ pre) with
      ⟨error | ⟨verified, notifications⟩, log₂⟩ <;> rw [hpaired] at hclient
    · exact ⟨_, by rw [hclient, List.append_assoc], .inr ⟨pre, _, reply, behind, status, rfl,
        hunpaired, hbehind, hmay⟩⟩
    · have hlast : Adds BleEvent.Unpaired (do
          let cccd_value ← reconnect py bleak hardware endpoint verify_cccd
          return ⟨found.revision, found.battery, publicStatus, verified,
            found.authentication_rejected, cccd_value, notifications⟩ : Ble ProbeResult) :=
        adds_bind (reconnect_adds endpoint verify_cccd) fun _ => adds_pure _
      obtain ⟨last, hlog, hrest⟩ := hlast log₂
      dsimp only at hclient
      refine ⟨_, by rw [hlog, hclient, List.append_assoc, List.append_assoc, List.cons_append],
        .inr ⟨pre, _, reply, behind ++ last, status, rfl, hunpaired, ?_, hmay⟩⟩
      intro event hevent
      rcases List.mem_append.mp hevent with hevent | hevent
      · exact hbehind event hevent
      · exact hrest event hevent

/-- The events of a probe that returns `result`: the checks, a connection with
pairing on which a status was read that goes with the public one, and the
reconnection that found notifications enabled, if that was asked for. -/
def Probed (py : Builtins) (hardware : BleakHardware) (endpoint : BleEndpoint)
    (verify_cccd require allow : Bool) (result : ProbeResult) (events : List BleEvent) : Prop :=
  ∃ pre device status payload session last,
    events = pre ++ .connect device true endpoint.adapter (.ok ()) ::
      .read_gatt_char hardware.contract.companion_verify (.ok payload) :: session ++
      .disconnect (.ok ()) :: last ∧
    MayPair py hardware endpoint require allow status pre ∧
    payload.length = 20 ∧
    result.public_status = unpackStatus status ∧
    result.verified_status = unpackStatus payload ∧
    StatusPair (unpackStatus status) (unpackStatus payload) ∧
    (verify_cccd = true → Restored hardware endpoint last)

theorem probe_ok {endpoint : BleEndpoint} {verify_cccd require allow : Bool}
    {log log' : List BleEvent} {result : ProbeResult}
    (h : (hardware.probe py bleak endpoint verify_cccd require allow).exec log =
      (.ok result, log')) :
    ∃ events, log' = log ++ events ∧
      Probed py hardware endpoint verify_cccd require allow result events := by
  unfold BleakHardware.probe at h
  obtain ⟨⟨found, publicStatus⟩, log₁, hchecks, h⟩ := exec_bind_ok.mp h
  obtain ⟨status, pre, rfl, rfl, hmay⟩ := probeChecks_ok hchecks
  obtain ⟨⟨verified, notifications⟩, log₂, hclient, h⟩ := exec_bind_ok.mp h
  obtain ⟨log₃, hbody, rfl⟩ := withClient_ok hclient
  -- the session is closed when the reconnect begins
  obtain ⟨payload, session, rfl, hlen, hverified, hgoes⟩ := pairedSession_ok hbody
  obtain ⟨value, log₄, hreconnect, h⟩ := exec_bind_ok.mp h
  obtain ⟨last, rfl, hrestored⟩ := reconnect_ok hreconnect
  obtain ⟨rfl, rfl⟩ := exec_pure_ok.mp h
  refine ⟨_, ?_, pre, found.device, status, payload, session, last, rfl, hmay, hlen, rfl,
    hverified, hgoes, hrestored⟩
  simp only [List.append_assoc, List.cons_append, List.nil_append]

end Events

/-- **Pairing is safe**: whatever Bleak replies, a connection with pairing is made
only after the checks, and a result is returned only if the verified status goes
with the public one and notifications were restored where that was to be seen. -/
theorem probe_pairing_safe (py : Builtins) (bleak : Bleak) (hardware : BleakHardware)
    (endpoint : BleEndpoint) (verify_cccd require_authentication_rejection allow_eviction : Bool)
    (log : List BleEvent) :
    ∃ events, ((hardware.probe py bleak endpoint verify_cccd require_authentication_rejection
        allow_eviction).exec log).2 = log ++ events ∧
      (∀ pre device adapter reply post,
        events = pre ++ .connect device true adapter reply :: post →
        ∃ status, MayPair py hardware endpoint require_authentication_rejection allow_eviction
          status pre) ∧
      (∀ result, ((hardware.probe py bleak endpoint verify_cccd require_authentication_rejection
          allow_eviction).exec log).1 = .ok result →
        Probed py hardware endpoint verify_cccd require_authentication_rejection allow_eviction
          result events) := by
  obtain ⟨events, hlog, hpaired⟩ := @probe_events py bleak hardware endpoint verify_cccd
    require_authentication_rejection allow_eviction log
  refine ⟨events, hlog, ?_, ?_⟩
  · rintro pre device adapter reply post rfl
    rcases hpaired with hnone | ⟨before, device', reply', behind, status, heq, hbefore, hbehind,
      hmay⟩
    · have hmem : BleEvent.connect device true adapter reply ∈
          pre ++ .connect device true adapter reply :: post := by simp
      cases hnone _ hmem
    · -- there is one paired connection, so this is the one of `probe_events`
      obtain ⟨rfl, -, -⟩ := append_cons_inj (p := BleEvent.Unpaired) (by simp [BleEvent.Unpaired])
        before heq hbefore hbehind
      exact ⟨status, hmay⟩
  · intro result hresult
    obtain ⟨events', hlog', hprobed⟩ := probe_ok (Prod.ext hresult rfl)
    obtain rfl : events = events' := List.append_cancel_left (hlog.symm.trans hlog')
    exact hprobed

/-! ## Evictions -/

/-- No call without the permission to evict that returns these two statuses saw an
eviction. -/
def EvictionFree (public_payload verified_payload : List UInt8) : Prop :=
  ∀ (py : Builtins) (bleak : Bleak) (hardware : BleakHardware) (endpoint : BleEndpoint)
    (verify_cccd require_authentication_rejection : Bool) (log : List BleEvent)
    (result : ProbeResult),
    ((hardware.probe py bleak endpoint verify_cccd require_authentication_rejection false).exec
      log).1 = .ok result →
    result.public_status = unpackStatus public_payload →
    result.verified_status = unpackStatus verified_payload →
    result.verified_status.eviction_count = result.public_status.eviction_count ∧
      result.verified_status.bonded_count ≤ result.verified_status.capacity

/-- What the code does ask for of the two statuses. -/
theorem probe_ok_statuses {py : Builtins} {bleak : Bleak} {hardware : BleakHardware}
    {endpoint : BleEndpoint} {verify_cccd require : Bool} {log : List BleEvent}
    {result : ProbeResult}
    (h : ((hardware.probe py bleak endpoint verify_cccd require false).exec log).1 = .ok result) :
    result.public_status.bonded_count < result.public_status.capacity ∧
      StatusPair result.public_status result.verified_status := by
  obtain ⟨events, -, pre, device, status, payload, session, last, -, hmay, -, hpublic, hverified,
    hgoes, -⟩ := probe_ok (Prod.ext h rfl)
  obtain ⟨target, wait, device', battery, firmware, gate, -, -, hroom, -⟩ := hmay
  rw [hpublic, hverified]
  refine ⟨?_, hgoes⟩
  rcases hroom with hroom | hallow
  · exact hroom
  · cases hallow

/-- A Bleak that grants everything and gives out these two statuses. -/
def obliging (public_payload verified_payload : List UInt8) : Bleak where
  installed := true
  find _ _ _ _ := .ok (some ⟨none, none⟩)
  connect _ _ _ _ := .ok ()
  disconnect _ := .ok ()
  read_gatt_char _ uuid :=
    if uuid = "companion_status" then .ok public_payload
    else if uuid = "companion_verify" then .ok verified_payload
    else .ok [50]
  get_characteristic _ _ := .ok none
  start_notify _ := .ok ()
  sleep _ _ := .ok []
  read_gatt_descriptor _ _ := .ok []

def obligingHardware : BleakHardware where
  contract := ⟨"battery", "firmware_revision", "companion_status", "companion_verify"⟩
  timeout := 30
  timeout_pos := by norm_num

def obligingEndpoint : BleEndpoint := ⟨none, some "InfiniTime", none, by decide⟩

/-- Whatever passes the checks of the code is returned by a probe. -/
theorem obliging_returns {public_payload verified_payload : List UInt8}
    (hpublic : public_payload.length = 20) (hverified : verified_payload.length = 20)
    (hroom : (unpackStatus public_payload).bonded_count < (unpackStatus public_payload).capacity)
    (hgoes : StatusPair (unpackStatus public_payload) (unpackStatus verified_payload)) :
    ∃ result, ((obligingHardware.probe ⟨id, id, id, fun _ => ""⟩
        (obliging public_payload verified_payload) obligingEndpoint false false false).exec []).1 =
        .ok result ∧
      result.public_status = unpackStatus public_payload ∧
      result.verified_status = unpackStatus verified_payload := by
  have hparse := parse_companion_status_of_length hpublic
  have hparse' := parse_companion_status_of_length hverified
  have hvalid := (validate_status_pair_iff _ _).mpr hgoes
  simp [-bind_pure_comp, BleakHardware.probe, probeChecks, BleakHardware._read_public,
    BleakHardware._find, readSession, pairedSession, reconnect, withClient, readChar, _load_bleak,
    lift, obliging, obligingHardware, exec_bind, exec_ask, exec_ensure, hparse, hparse', hvalid,
    not_le.mpr hroom]

/-- **When no eviction is let through**: the replies are refused for another reason,
or show none themselves. The code compares the counters in one direction only. -/
theorem accepted_without_eviction_iff (public_payload verified_payload : List UInt8)
    (hpublic : public_payload.length = 20) (hverified : verified_payload.length = 20) :
    EvictionFree public_payload verified_payload ↔
      (unpackStatus public_payload).capacity ≤ (unpackStatus public_payload).bonded_count ∨
      ¬ StatusPair (unpackStatus public_payload) (unpackStatus verified_payload) ∨
      ((unpackStatus verified_payload).eviction_count ≤
          (unpackStatus public_payload).eviction_count ∧
        (unpackStatus verified_payload).bonded_count ≤
          (unpackStatus verified_payload).capacity) := by
  constructor
  · -- two statuses that the code lets through are returned over some Bleak
    intro h
    by_contra hnot
    simp only [not_or, not_le, not_not] at hnot
    obtain ⟨hroom, hgoes, hshown⟩ := hnot
    obtain ⟨result, hresult, hpub, hver⟩ := obliging_returns hpublic hverified hroom hgoes
    obtain ⟨hsame, hfits⟩ := h _ _ _ _ _ _ _ _ hresult hpub hver
    rw [hpub, hver] at hsame
    rw [hver] at hfits
    exact hshown ⟨hsame.le, hfits⟩
  · intro h py bleak hardware endpoint verify_cccd require log result hresult hpub hver
    obtain ⟨hroom, hgoes⟩ := probe_ok_statuses hresult
    rw [hpub, hver] at hgoes
    rw [hpub] at hroom
    rw [hpub, hver]
    rcases h with hfull | hmismatch | ⟨hnoMore, hfits⟩
    · exact absurd hroom (not_lt.mpr hfull)
    · exact absurd hgoes hmismatch
    · exact ⟨le_antisymm hnoMore hgoes.eviction_count, hfits⟩

/-- Four of five peers before, none evicted. -/
def roomLeft : List UInt8 := [1, 5, 4, 1, 0, 0, 0, 0, 0, 0, 0, 0, 0, 0, 0, 0, 0, 0, 0, 0]

/-- Five of five after, and one evicted. -/
def evicted : List UInt8 := [1, 5, 5, 1, 0, 0, 0, 0, 1, 0, 0, 0, 0, 0, 0, 0, 0, 0, 0, 0]

theorem accepted_without_eviction_witness :
    EvictionFree roomLeft evicted ↔
      (unpackStatus roomLeft).capacity ≤ (unpackStatus roomLeft).bonded_count ∨
      ¬ StatusPair (unpackStatus roomLeft) (unpackStatus evicted) ∨
      ((unpackStatus evicted).eviction_count ≤ (unpackStatus roomLeft).eviction_count ∧
        (unpackStatus evicted).bonded_count ≤ (unpackStatus evicted).capacity) :=
  accepted_without_eviction_iff roomLeft evicted rfl rfl

/-- Another peer bonded and one was evicted between the two reads, and the probe
returns its result all the same. -/
theorem eviction_between_reads_accepted : ¬ EvictionFree roomLeft evicted := by
  intro h
  have hgoes : StatusPair (unpackStatus roomLeft) (unpackStatus evicted) := by
    constructor <;> decide
  obtain ⟨result, hresult, hpub, hver⟩ :=
    @obliging_returns roomLeft evicted rfl rfl (by decide) hgoes
  obtain ⟨hsame, -⟩ := h _ _ _ _ _ _ _ _ hresult hpub hver
  rw [hpub, hver] at hsame
  exact absurd hsame (by decide)

end Ptlab.Hardware
