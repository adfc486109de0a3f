/-
What the hardware layer (`src/ptlab/hardware.py`) is about: the exceptions its
handlers tell apart, the watches it talks to, and the 20-byte companion status
(`parse_companion_status` of `src/ptlab/wire.py`) that a probe reads twice.
-/
import Mathlib.Tactic
import Ptlab.Lib.Bytes

set_option autoImplicit false

open Bytes

namespace Ptlab.Hardware

/-! ## Exceptions -/

/-- The classes that a handler names. An exception is counted to the first of them
that it is an instance of; `BaseException` is any class outside `Exception`. -/
inductive ExcClass where
  | HardwareError
  | OSError
  | SubprocessError
  | ValueError
  | Exception
  | BaseException
  deriving DecidableEq, Repr

/-- A raised exception: its class, the module and the name of its type, and its
text. -/
structure PyExc where
  kind : ExcClass
  module : String
  name : String
  message : String
  deriving DecidableEq, Repr

def HardwareError (message : String) : PyExc :=
  ⟨.HardwareError, "ptlab.hardware", "HardwareError", message⟩

def ValueError (message : String) : PyExc := ⟨.ValueError, "builtins", "ValueError", message⟩

/-- `except Exception` handles it. -/
def PyExc.isException (error : PyExc) : Bool := error.kind ≠ .BaseException

/-- `f"{type(error).__name__}: {error}"`. -/
def PyExc.summary (error : PyExc) : String := s!"{error.name}: {error.message}"

/-- What is Python's own: `repr` and `casefold` and `lower` of a text, and
`f"{x:g}"`. -/
structure Builtins where
  repr : String → String
  casefold : String → String
  lower : String → String
  general : ℚ → String

/-! ## Endpoints -/

/-- A text that is there and not empty. -/
def truthy (text : Option String) : Bool := text.getD "" ≠ ""

/-- A `BleEndpoint`. `__post_init__` lets no other through. -/
structure BleEndpoint where
  address : Option String
  name : Option String
  adapter : Option String
  exactly_one : truthy address ≠ truthy name
  deriving DecidableEq, Repr

/-- `BleEndpoint(address, name, adapter)`. -/
def BleEndpoint.init (address name adapter : Option String) : Except PyExc BleEndpoint :=
  if h : truthy address = truthy name then
    .error (ValueError "specify exactly one of BLE address or name")
  else .ok ⟨address, name, adapter, h⟩

/-- `BleEndpoint.label`. -/
def BleEndpoint.label (endpoint : BleEndpoint) : String :=
  if truthy endpoint.address then endpoint.address.getD ""
  else if truthy endpoint.name then endpoint.name.getD ""
  else "unknown"

/-- A `CharacteristicContract`. -/
structure CharacteristicContract where
  battery : String
  firmware_revision : String
  companion_status : String
  companion_verify : String
  deriving DecidableEq, Repr

/-! ## The companion status -/

/-- A `CompanionStatus`. -/
structure CompanionStatus where
  protocol : ℕ
  capacity : ℕ
  bonded_count : ℕ
  eviction_policy : ℕ
  reset_epoch : ℕ
  eviction_count : ℕ
  cccd_overflow_rejections : ℕ
  invariant_violations : ℕ
  flags : ℕ
  deriving DecidableEq, Repr

/-- `struct.unpack("<BBBBIIHHI", payload)`, of 20 bytes. -/
def unpackStatus (payload : List UInt8) : CompanionStatus where
  protocol := (payload.getD 0 0).toNat
  capacity := (payload.getD 1 0).toNat
  bonded_count := (payload.getD 2 0).toNat
  eviction_policy := (payload.getD 3 0).toNat
  reset_epoch := read32 payload 4
  eviction_count := read32 payload 8
  cccd_overflow_rejections := read16 payload 12
  invariant_violations := read16 payload 14
  flags := read32 payload 16

/-- `parse_companion_status`. -/
def parse_companion_status (payload : List UInt8) : Except PyExc CompanionStatus :=
  if payload.length ≠ 20 then
    .error (ValueError s!"companion status must be 20 bytes, got {payload.length}")
  else .ok (unpackStatus payload)

theorem parse_companion_status_ok {payload : List UInt8} {status : CompanionStatus}
    (h : parse_companion_status payload = .ok status) :
    payload.length = 20 ∧ status = unpackStatus payload := by
  unfold parse_companion_status at h
  split_ifs at h with hlen
  injection h with h
  exact ⟨by omega, h.symm⟩

theorem parse_companion_status_of_length {payload : List UInt8} (h : payload.length = 20) :
    parse_companion_status payload = .ok (unpackStatus payload) := by
  simp [parse_companion_status, h]

/-- The fields that pairing must not change. -/
def stable : List (String × (CompanionStatus → ℕ)) :=
  [("protocol", CompanionStatus.protocol), ("capacity", CompanionStatus.capacity),
    ("eviction_policy", CompanionStatus.eviction_policy),
    ("reset_epoch", CompanionStatus.reset_epoch)]

/-- The first of them that is not the same in two statuses. -/
def changedField (publicStatus verified : CompanionStatus) :
    Option (String × (CompanionStatus → ℕ)) :=
  stable.find? fun field => field.2 publicStatus ≠ field.2 verified

/-- `_validate_status_pair`, on the status read before pairing and the one read
after it. -/
def _validate_status_pair (publicStatus verified : CompanionStatus) : Except PyExc Unit :=
  match changedField publicStatus verified with
  | some (field, get) =>
    .error (HardwareError
      s!"authenticated status changed {field}: {get publicStatus} -> {get verified}")
  | none =>
    if verified.bonded_count < publicStatus.bonded_count then
      .error (HardwareError "authenticated status regressed the bonded-peer count")
    else if verified.eviction_count < publicStatus.eviction_count then
      .error (HardwareError "authenticated status regressed the eviction count")
    else .ok ()

/-- The verified status goes with the public one: the stable fields are the same,
and the counters have not gone back. -/
structure StatusPair (publicStatus verified : CompanionStatus) : Prop where
  protocol : verified.protocol = publicStatus.protocol
  capacity : verified.capacity = publicStatus.capacity
  eviction_policy : verified.eviction_policy = publicStatus.eviction_policy
  reset_epoch : verified.reset_epoch = publicStatus.reset_epoch
  bonded_count : publicStatus.bonded_count ≤ verified.bonded_count
  eviction_count : publicStatus.eviction_count ≤ verified.eviction_count

/-- **The validation** lets through exactly such pairs. -/
theorem validate_status_pair_iff (publicStatus verified : CompanionStatus) :
    _validate_status_pair publicStatus verified = .ok () ↔ StatusPair publicStatus verified := by
  unfold _validate_status_pair
  rcases hfind : changedField publicStatus verified with _ | ⟨field, get⟩
  · have hall := List.find?_eq_none.mp hfind
    have hsame : ∀ get, (∃ field, (field, get) ∈ stable) → get verified = get publicStatus := by
      rintro get ⟨field, hmem⟩
      have h := hall (field, get) hmem
      simp only [ne_eq, decide_not, Bool.not_eq_true', decide_eq_false_iff_not, not_not] at h
      exact h.symm
    dsimp only
    constructor
    · intro h
      split_ifs at h with hbonded heviction
      exact ⟨hsame _ ⟨"protocol", by simp [stable]⟩, hsame _ ⟨"capacity", by simp [stable]⟩,
        hsame _ ⟨"eviction_policy", by simp [stable]⟩, hsame _ ⟨"reset_epoch", by simp [stable]⟩,
        by omega, by omega⟩
    · intro h
      rw [if_neg (not_lt.mpr h.bonded_count), if_neg (not_lt.mpr h.eviction_count)]
  · refine iff_of_false (by simp) fun h => ?_
    have hmem := List.mem_of_find?_eq_some hfind
    have hne : get publicStatus ≠ get verified := by simpa using List.find?_some hfind
    simp only [stable, List.mem_cons, Prod.mk.injEq, List.not_mem_nil, or_false] at hmem
    -- the field that changed is one of the four
    rcases hmem with ⟨-, rfl⟩ | ⟨-, rfl⟩ | ⟨-, rfl⟩ | ⟨-, rfl⟩
    · exact hne h.protocol.symm
    · exact hne h.capacity.symm
    · exact hne h.eviction_policy.symm
    · exact hne h.reset_epoch.symm

end Ptlab.Hardware
