/-
`BleakHardware` (`src/ptlab/hardware.py`) over a Bleak that replies as it likes.

A `Bleak` is how scanner and client reply, each time as a function of all that
they have been asked so far, so one of them stands for every script of replies,
errors included. What a method does is the log of what it asked and was told.
`async with client_type(...)` is the connection: it is made, the body runs, and
it is let go however the body ended.
-/
import Ptlab.Hardware.Status
import Ptlab.Lib.Trace
import Ptlab.Lib.Utf8

set_option autoImplicit false

open Effect

namespace Ptlab.Hardware

/-! ## Bleak -/

/-- A device the scanner found. -/
structure Device where
  address : Option String
  name : Option String
  deriving DecidableEq, Repr

structure Descriptor where
  uuid : String
  handle : ℕ
  deriving DecidableEq, Repr

/-- A characteristic that the client has discovered. -/
structure Characteristic where
  descriptors : List Descriptor
  deriving DecidableEq, Repr

/-- What the scanner looks for. -/
inductive FindBy where
  | address (address : String)
  | name (name : String)
  deriving DecidableEq, Repr

/-- One dealing with Bleak: what was asked, and the reply. -/
inductive BleEvent where
  | find (target : FindBy) (timeout : ℚ) (adapter : Option String)
      (reply : Except PyExc (Option Device))
  | connect (device : Device) (pair : Bool) (adapter : Option String) (reply : Except PyExc Unit)
  | disconnect (reply : Except PyExc Unit)
  | read_gatt_char (uuid : String) (reply : Except PyExc (List UInt8))
  | get_characteristic (uuid : String) (reply : Except PyExc (Option Characteristic))
  | start_notify (reply : Except PyExc Unit)
  /-- `asyncio.sleep`, and the values notified meanwhile. -/
  | sleep (seconds : ℚ) (reply : Except PyExc (List (List UInt8)))
  | read_gatt_descriptor (handle : ℕ) (reply : Except PyExc (List UInt8))

/-- How scanner and client reply. `installed` is whether `import bleak` works. -/
structure Bleak where
  installed : Bool
  find : List BleEvent → FindBy → ℚ → Option String → Except PyExc (Option Device)
  connect : List BleEvent → Device → Bool → Option String → Except PyExc Unit
  disconnect : List BleEvent → Except PyExc Unit
  read_gatt_char : List BleEvent → String → Except PyExc (List UInt8)
  get_characteristic : List BleEvent → String → Except PyExc (Option Characteristic)
  start_notify : List BleEvent → Except PyExc Unit
  sleep : List BleEvent → ℚ → Except PyExc (List (List UInt8))
  read_gatt_descriptor : List BleEvent → ℕ → Except PyExc (List UInt8)

/-- A computation that deals with Bleak. -/
abbrev Ble (α : Type) : Type := Effect (List BleEvent) PyExc α

/-- A `BleakHardware`. The timeout is positive because `__init__` refuses any
other. -/
structure BleakHardware where
  contract : CharacteristicContract
  timeout : ℚ
  timeout_pos : 0 < timeout

/-- `BleakHardware.__init__`. -/
def BleakHardware.init (contract : CharacteristicContract) (timeout : ℚ) :
    Except PyExc BleakHardware :=
  if h : timeout ≤ 0 then .error (ValueError "BLE timeout must be positive")
  else .ok ⟨contract, timeout, not_le.mp h⟩

def CCCD_UUID : String := "00002902-0000-1000-8000-00805f9b34fb"

section Methods

variable (py : Builtins) (bleak : Bleak) (hardware : BleakHardware)

def _load_bleak : Ble Unit :=
  if bleak.installed then pure ()
  else throw (HardwareError "Bleak is not installed; run `uv sync --group hardware` and retry")

def readChar (uuid : String) : Ble (List UInt8) :=
  ask (fun log => bleak.read_gatt_char log uuid) (.read_gatt_char uuid)

/-- `async with client_type(device, timeout, pair, adapter) as client`. -/
def withClient {α : Type} (endpoint : BleEndpoint) (device : Device) (pair : Bool)
    (body : Ble α) : Ble α := do
  ask (fun log => bleak.connect log device pair endpoint.adapter)
    (.connect device pair endpoint.adapter)
  ensure body (ask bleak.disconnect .disconnect)

/-- `BleakHardware._find`. -/
def BleakHardware._find (endpoint : BleEndpoint) (timeout : Option ℚ) : Ble Device := do
  _load_bleak bleak
  let wait := if timeout.getD 0 ≠ 0 then timeout.getD 0 else hardware.timeout
  let target := if truthy endpoint.address then FindBy.address (endpoint.address.getD "")
    else FindBy.name (endpoint.name.getD "")
  let device ← ask (fun log => bleak.find log target wait endpoint.adapter)
    (.find target wait endpoint.adapter)
  match device with
  | none => throw (HardwareError
      s!"watch {py.repr endpoint.label} was not advertising within {py.general wait} seconds")
  | some device => return device

/-- `BleakHardware._is_authentication_rejection`. -/
def _is_authentication_rejection (error : PyExc) : Bool :=
  ["insufficient authentication", "authentication required", "not authorized", "not permitted",
    "att error: 0x05", "att error 0x05"].any fun marker =>
      marker.toList <:+: (py.casefold error.message).toList

/-- The check of the authentication gate in `_read_public`. -/
def authenticationGate : Ble (Option Bool) :=
  tryCatch
    (do
      let _ ← readChar bleak hardware.contract.companion_verify
      return some false)
    fun error =>
      if !error.isException then throw error
      else if !_is_authentication_rejection py error then
        throw (HardwareError (s!"pre-pair verify failed for a reason other than the expected " ++
          s!"ATT authentication rejection: {error.message}"))
      else return some true

/-- `rstrip("\0")`. -/
def stripNul (text : List Char) : List Char :=
  (text.reverse.dropWhile (· = Utf8.nul)).reverse

/-- The tuple that `_read_public` returns. -/
structure PublicRead where
  device : Device
  status : List UInt8
  battery : UInt8
  revision : String
  authentication_rejected : Option Bool

/-- What `_read_public` reads while it is connected. -/
def readSession (check_authentication_gate : Bool) :
    Ble (List UInt8 × List UInt8 × String × Option Bool) := do
  let status ← readChar bleak hardware.contract.companion_status
  let battery ← readChar bleak hardware.contract.battery
  let revision ← readChar bleak hardware.contract.firmware_revision
  let authentication_rejected ←
    if check_authentication_gate then authenticationGate py bleak hardware else pure none
  return (status, battery, String.ofList (stripNul (Utf8.decode revision)),
    authentication_rejected)

/-- `BleakHardware._read_public`. -/
def BleakHardware._read_public (endpoint : BleEndpoint) (check_authentication_gate : Bool) :
    Ble PublicRead := do
  _load_bleak bleak
  let device ← hardware._find py bleak endpoint none
  let (status, battery, revision, authentication_rejected) ←
    withClient bleak endpoint device false (readSession py bleak hardware check_authentication_gate)
  match battery with
  | [percent] => return ⟨device, status, percent, revision, authentication_rejected⟩
  | _ => throw (HardwareError
      s!"battery characteristic returned {battery.length} bytes instead of 1")

/-- `BleakHardware._cccd_descriptor`: the descriptor. -/
def _cccd_descriptor (uuid : String) : Ble Descriptor := do
  let characteristic ← ask (fun log => bleak.get_characteristic log uuid) (.get_characteristic uuid)
  match characteristic with
  | none => throw (HardwareError "battery characteristic is absent after discovery")
  | some characteristic =>
    match characteristic.descriptors.find? fun descriptor => py.lower descriptor.uuid = CCCD_UUID with
    | none => throw (HardwareError "battery characteristic has no CCCD descriptor")
    | some descriptor => return descriptor

/-- `value.hex()`. -/
def hex (value : List UInt8) : String :=
  String.ofList (value.flatMap fun byte =>
    [Nat.digitChar (byte.toNat / 16), Nat.digitChar (byte.toNat % 16)])

/-- The result of a probe: the entries that are not copied from its arguments. -/
structure ProbeResult where
  firmware_revision : String
  battery_percent : UInt8
  public_status : CompanionStatus
  verified_status : CompanionStatus
  authentication_gate_rejected_unpaired_read : Option Bool
  battery_cccd_after_reconnect : Option String
  notifications_during_subscription : List String
  deriving DecidableEq, Repr

/-- What `probe` does while it is paired: the verified status and the
notifications. -/
def pairedSession (publicStatus : CompanionStatus) (verify_cccd : Bool) :
    Ble (CompanionStatus × List String) := do
  let verified_payload ← readChar bleak hardware.contract.companion_verify
  let verified ← lift (parse_companion_status verified_payload)
  lift (_validate_status_pair publicStatus verified)
  if verify_cccd then
    let _ ← _cccd_descriptor py bleak hardware.contract.battery
    ask bleak.start_notify .start_notify
    let values ← ask (fun log => bleak.sleep log (1 / 2)) (.sleep (1 / 2))
    return (verified, values.map hex)
  else return (verified, [])

/-- What `probe` does on the connection after the pairing: the CCCD value. -/
def cccdSession : Ble String := do
  let descriptor ← _cccd_descriptor py bleak hardware.contract.battery
  let raw_cccd ← ask (fun log => bleak.read_gatt_descriptor log descriptor.handle)
    (.read_gatt_descriptor descriptor.handle)
  if raw_cccd ≠ [0x01, 0x00] then
    let shown := if hex raw_cccd = "" then "<empty>" else hex raw_cccd
    throw (HardwareError (s!"battery CCCD did not restore as notify-enabled after reconnect " ++
      s!"(read {shown})"))
  else return hex raw_cccd

/-- `probe` up to the pairing: what it read, and the status in it. -/
def probeChecks (endpoint : BleEndpoint) (require_authentication_rejection
    allow_eviction : Bool) : Ble (PublicRead × CompanionStatus) := do
  _load_bleak bleak
  let found ← hardware._read_public py bleak endpoint require_authentication_rejection
  if require_authentication_rejection && found.authentication_rejected ≠ some true then
    throw (HardwareError ("companion verify was readable before an unbonded authentication " ++
      "attempt; run this check from a fresh OS identity or pass --skip-auth-negative"))
  let publicStatus ← lift (parse_companion_status found.status)
  if publicStatus.bonded_count ≥ publicStatus.capacity && !allow_eviction then
    throw (HardwareError (s!"watch reports {publicStatus.bonded_count}/{publicStatus.capacity} " ++
      "retained peers; pairing a new identity can evict the LRU peer. Retry with explicit " ++
      "--allow-eviction only after confirming that outcome."))
  return (found, publicStatus)

/-- `probe` after the pairing: the CCCD value, if it is to be read. -/
def reconnect (endpoint : BleEndpoint) (verify_cccd : Bool) : Ble (Option String) :=
  if verify_cccd then do
    let device ← hardware._find py bleak endpoint none
    let value ← withClient bleak endpoint device false (cccdSession py bleak hardware)
    return some value
  else return none

/-- `BleakHardware.probe`. -/
def BleakHardware.probe (endpoint : BleEndpoint) (verify_cccd require_authentication_rejection
    allow_eviction : Bool) : Ble ProbeResult := do
  let (found, publicStatus) ← probeChecks py bleak hardware endpoint
    require_authentication_rejection allow_eviction
  let (verified, notifications) ← withClient bleak endpoint found.device true
    (pairedSession py bleak hardware publicStatus verify_cccd)
  let cccd_value ← reconnect py bleak hardware endpoint verify_cccd
  return ⟨found.revision, found.battery, publicStatus, verified, found.authentication_rejected,
    cccd_value, notifications⟩

end Methods

end Ptlab.Hardware
