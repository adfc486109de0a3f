/-
`AcceptancePlan.load` of `src/ptlab/hardware.py`, on any JSON document.

The function is a row of checks. A check that the document fails is a `ValueError`;
but a check can also be unable to look at its part of the document, and what is
raised then is Python's own. `WellTyped` says, check by check, when that does not
happen, and it is exactly when a document is loaded or refused with a `ValueError`
(`load_valid_iff`).
-/
import Mathlib.Data.String.Basic
import Ptlab.Control.Client
import Ptlab.Hardware.Settled
import Ptlab.Lib.PyValue

set_option autoImplicit false

namespace Ptlab.Hardware

open Control (strip)
open PyValue (keySet)

/-! ## The function -/

/-- An `AcceptancePeer` with what the document has for it. -/
structure LoadedPeer where
  label : PyValue
  kind : PyValue
  address : PyValue
  name : PyValue
  adapter : PyValue
  serial : PyValue
  allow_eviction : PyValue

/-- An `AcceptancePlan` as it is loaded. -/
structure LoadedPlan where
  watch_label : String
  peers : List LoadedPeer
  sequence : List PyValue
  capacity_check : Option (List (String × PyValue))

/-- `repr`, and `str` of what is no text. -/
structure Texts where
  repr : PyValue → String
  str : PyValue → String

/-- What Python raises by itself. Its text is Python's. -/
def TypeError : PyExc := ⟨.Exception, "builtins", "TypeError", ""⟩

def AttributeError : PyExc := ⟨.Exception, "builtins", "AttributeError", ""⟩

/-- The fields of an `AcceptancePeer`. -/
def peerFields : List String :=
  ["label", "kind", "address", "name", "adapter", "serial", "allow_eviction"]

/-- `AcceptancePeer(**item)`. -/
def LoadedPeer.init : PyValue → Except PyExc LoadedPeer
  | .dict entries =>
    if entries.all fun entry => entry.1 ∈ peerFields then
      -- `label` and `kind` are the two fields without a default
      match PyValue.get entries "label", PyValue.get entries "kind" with
      | some label, some kind => .ok
        { label := label
          kind := kind
          address := (PyValue.get entries "address").getD .none
          name := (PyValue.get entries "name").getD .none
          adapter := (PyValue.get entries "adapter").getD .none
          serial := (PyValue.get entries "serial").getD .none
          allow_eviction := (PyValue.get entries "allow_eviction").getD (.bool false) }
      | _, _ => .error TypeError
    else .error TypeError
  | _ => .error TypeError

section Load

variable (py : Texts) (raw : List (String × PyValue))

/-- `str(value)`. -/
def Texts.strOf : PyValue → String
  | .str text => text
  | value => py.str value

/-- A check: what it raises, if the document fails it. -/
def orValueError (ok : Bool) (message : String) : Except PyExc Unit :=
  if ok then .ok () else .error (ValueError message)

/-- `set(values)` does not raise. -/
def hashAll (values : List PyValue) : Except PyExc Unit :=
  if values.all PyValue.hashable then .ok () else .error TypeError

/-- `tuple(value)` and other loops. -/
def loopOver (value : PyValue) : Except PyExc (List PyValue) :=
  match value.iterate with
  | some items => .ok items
  | none => .error TypeError

def checkVersion : Except PyExc Unit :=
  orValueError (((PyValue.get raw "schema_version").getD .none).isNumber 1)
    "hardware acceptance plan schema_version must be 1"

/-- The label of the watch. -/
def watchLabel : String := strip (py.strOf ((PyValue.get raw "watch_label").getD (.str "")))

def checkWatchLabel : Except PyExc Unit :=
  orValueError (watchLabel py raw ≠ "") "hardware acceptance plan needs watch_label"

def loadPeers : Except PyExc (List LoadedPeer) := do
  let items ← loopOver ((PyValue.get raw "peers").getD (.list []))
  items.mapM LoadedPeer.init

variable (peers : List LoadedPeer)

/-- The `labels` of the peers. -/
def labelsOf : List PyValue := peers.map LoadedPeer.label

def checkLabels : Except PyExc Unit :=
  if peers.length < 2 then
    .error (ValueError "hardware acceptance plan needs at least two uniquely named peers")
  else do
    hashAll (labelsOf peers)
    orValueError ((keySet (labelsOf peers)).card = (labelsOf peers).length)
      "hardware acceptance plan needs at least two uniquely named peers"

def checkPeer (peer : LoadedPeer) : Except PyExc Unit :=
  if peer.kind.isText "linux" then
    orValueError (peer.address.truthy ≠ peer.name.truthy)
      "specify exactly one of BLE address or name"
  else if peer.kind.isText "android" then
    orValueError peer.serial.truthy s!"Android peer {py.repr peer.label} needs an ADB serial"
  else .error (ValueError s!"unsupported peer kind {py.repr peer.kind}")

/-- The identity of a peer. -/
def LoadedPeer.identity (peer : LoadedPeer) : String × PyValue :=
  if peer.kind.isText "android" then ("android", peer.serial)
  else ("linux", if peer.adapter.truthy then peer.adapter else .str "default")

/-- What identities are equal by. -/
def LoadedPeer.identityKey (peer : LoadedPeer) : String × PyValue.Key :=
  (peer.identity.1, peer.identity.2.key)

def checkIdentities : Except PyExc Unit := do
  hashAll (peers.map fun peer => peer.identity.2)
  orValueError ((peers.map LoadedPeer.identityKey).toFinset.card = peers.length)
    "each acceptance peer must use an independent Android serial or BlueZ adapter"

def loadSequence : Except PyExc (List PyValue) :=
  loopOver ((PyValue.get raw "sequence").getD (.list []))

/-- The members of `unknown`, if they are texts, as they are joined. -/
def joinSorted (unknown : Finset PyValue.Key) : Except PyExc String :=
  if ∀ key ∈ unknown, key.isText then
    .ok (String.intercalate ", " ((unknown.image PyValue.Key.toText).sort (· ≤ ·)))
  else .error TypeError

def checkSequence (sequence : List PyValue) : Except PyExc Unit :=
  if sequence.length < 3 then
    .error (ValueError "acceptance sequence must exercise at least two peers over three steps")
  else do
    hashAll sequence
    orValueError (2 ≤ (keySet sequence).card)
      "acceptance sequence must exercise at least two peers over three steps"
    -- `sorted` and `join` take texts only, so that the message can be what raises
    let unknown := keySet sequence \ keySet (labelsOf peers)
    if unknown = ∅ then .ok ()
    else do
      let joined ← joinSorted unknown
      .error (ValueError s!"acceptance sequence references unknown peers: {joined}")

/-- The keys that a capacity check has. -/
def required : Finset PyValue.Key := {.text "survivor", .text "evicted", .text "new_peer"}

/-- The checks of a `capacity_check` that is there. -/
def checkCapacity (capacity : PyValue) : Except PyExc (List (String × PyValue)) := do
  let items ← loopOver capacity
  hashAll items
  orValueError (keySet items = required)
    "capacity_check must contain survivor, evicted, and new_peer"
  match capacity with
  -- `set(capacity)` of a list can be the three keys too; `values` is a method of a dict
  | .dict entries => do
    hashAll (PyValue.valuesOf entries)
    orValueError (keySet (PyValue.valuesOf entries) ⊆ keySet (labelsOf peers))
      "capacity_check references an unknown peer"
    orValueError (6 ≤ peers.length) "capacity_check needs at least six independent peers"
    orValueError ((keySet (PyValue.valuesOf entries)).card = 3)
      "capacity_check must name three distinct peers"
    return entries
  | _ => .error AttributeError

def loadCapacity : Except PyExc (Option (List (String × PyValue))) :=
  match (PyValue.get raw "capacity_check").getD .none with
  | .none => .ok none
  | capacity => some <$> checkCapacity peers capacity

end Load

/-- `AcceptancePlan.load`, from the document on. -/
def AcceptancePlan.load (py : Texts) : PyValue → Except PyExc LoadedPlan
  | .dict raw => do
    checkVersion raw
    checkWatchLabel py raw
    let peers ← loadPeers raw
    checkLabels peers
    peers.forM (checkPeer py)
    checkIdentities peers
    let sequence ← loadSequence raw
    checkSequence peers sequence
    let capacity ← loadCapacity raw peers
    return ⟨watchLabel py raw, peers, sequence, capacity⟩
  | _ => .error AttributeError

/-! ## What is raised -/

section Only

variable {α β : Type}

/-- Nothing but a `ValueError` is raised. -/
def OnlyValueErrors (x : Except PyExc α) : Prop := ∀ e, x = .error e → ∃ message, e = ValueError message

theorem onlyValueErrors_ok (a : α) : OnlyValueErrors (.ok a) := fun _ h => (by cases h)

theorem onlyValueErrors_valueError (message : String) :
    OnlyValueErrors (.error (ValueError message) : Except PyExc α) := by
  intro e h
  injection h with h
  exact ⟨message, h.symm⟩

theorem not_onlyValueErrors_typeError : ¬ OnlyValueErrors (.error TypeError : Except PyExc α) := by
  intro h
  obtain ⟨message, hmessage⟩ := h TypeError rfl
  exact absurd (congrArg PyExc.kind hmessage) (by simp [TypeError, ValueError])

theorem not_onlyValueErrors_attributeError :
    ¬ OnlyValueErrors (.error AttributeError : Except PyExc α) := by
  intro h
  obtain ⟨message, hmessage⟩ := h AttributeError rfl
  exact absurd (congrArg PyExc.kind hmessage) (by simp [AttributeError, ValueError])

theorem onlyValueErrors_bind {x : Except PyExc α} {f : α → Except PyExc β} :
    OnlyValueErrors (x >>= f) ↔
      OnlyValueErrors x ∧ ∀ a, x = .ok a → OnlyValueErrors (f a) := by
  cases x with
  | error e =>
      refine ⟨fun h => ⟨fun e' he' => h e' ?_, fun a ha => (by cases ha)⟩, fun h e' he' => h.1 e' ?_⟩
      · injection he' with he'
        rw [he']
        rfl
      · injection he' with he'
        rw [he']
  | ok a =>
      refine ⟨fun h => ⟨onlyValueErrors_ok a, fun a' ha' => ?_⟩, fun h => h.2 a rfl⟩
      injection ha' with ha'
      rw [← ha']
      exact h

theorem except_bind_eq_ok {x : Except PyExc α} {f : α → Except PyExc β} {b : β} :
    x >>= f = .ok b ↔ ∃ a, x = .ok a ∧ f a = .ok b := by
  cases x with
  | error e => simp [bind, Except.bind]
  | ok a => simp [bind, Except.bind]

theorem onlyValueErrors_orValueError (ok : Bool) (message : String) :
    OnlyValueErrors (orValueError ok message) := by
  unfold orValueError
  split_ifs
  · exact onlyValueErrors_ok ()
  · exact onlyValueErrors_valueError message

theorem orValueError_ok {ok : Bool} {message : String} {u : Unit} :
    orValueError ok message = .ok u ↔ ok = true := by
  unfold orValueError
  split_ifs with h
  · simp [h]
  · simp [h]

theorem onlyValueErrors_hashAll {values : List PyValue} :
    OnlyValueErrors (hashAll values) ↔ ∀ value ∈ values, value.hashable = true := by
  unfold hashAll
  rw [← List.all_eq_true]
  split_ifs with h
  · exact iff_of_true (onlyValueErrors_ok ()) h
  · exact iff_of_false not_onlyValueErrors_typeError h

theorem hashAll_ok {values : List PyValue} {u : Unit} :
    hashAll values = .ok u ↔ ∀ value ∈ values, value.hashable = true := by
  unfold hashAll
  rw [← List.all_eq_true]
  split_ifs with h
  · exact iff_of_true rfl h
  · exact iff_of_false (fun h => by cases h) h

theorem onlyValueErrors_loopOver {value : PyValue} :
    OnlyValueErrors (loopOver value) ↔ ∃ items, value.iterate = some items := by
  unfold loopOver
  cases value.iterate with
  | none => exact iff_of_false not_onlyValueErrors_typeError (by simp)
  | some items => exact iff_of_true (onlyValueErrors_ok items) ⟨items, rfl⟩

theorem loopOver_ok {value : PyValue} {items : List PyValue} :
    loopOver value = .ok items ↔ value.iterate = some items := by
  unfold loopOver
  cases value.iterate with
  | none => simp
  | some items => simp

end Only

/-! ## Peers -/

/-- A member of `peers` that an `AcceptancePeer` can be made of. -/
def PeerTyped (item : PyValue) : Prop :=
  ∃ entries, item = .dict entries ∧ (∀ entry ∈ entries, entry.1 ∈ peerFields) ∧
    (PyValue.get entries "label").isSome ∧ (PyValue.get entries "kind").isSome

theorem peer_init {item : PyValue} :
    (PeerTyped item → ∃ peer, LoadedPeer.init item = .ok peer) ∧
      (¬ PeerTyped item → LoadedPeer.init item = .error TypeError) := by
  constructor
  · rintro ⟨entries, rfl, hfields, hlabel, hkind⟩
    obtain ⟨label, hlabel⟩ := Option.isSome_iff_exists.mp hlabel
    obtain ⟨kind, hkind⟩ := Option.isSome_iff_exists.mp hkind
    unfold LoadedPeer.init
    dsimp only
    rw [if_pos (List.all_eq_true.mpr fun entry hentry => decide_eq_true (hfields entry hentry)),
      hlabel, hkind]
    exact ⟨_, rfl⟩
  · intro hnot
    cases item with
    | dict entries =>
        unfold LoadedPeer.init
        dsimp only
        -- an unknown member, then a missing one: both are refused by the constructor
        -- an unknown member, then a missing one: both are refused by the constructor
        split_ifs with hfields
        · have hfields : ∀ entry ∈ entries, entry.1 ∈ peerFields := fun entry hentry =>
            of_decide_eq_true (List.all_eq_true.mp hfields entry hentry)
          split
          · rename_i label kind hlabel hkind
            exact absurd ⟨entries, rfl, hfields, by rw [hlabel]; rfl, by rw [hkind]; rfl⟩ hnot
          · rfl
        · rfl
    | _ => rfl

/-- `peers` can be gone through, and each member is a peer. -/
def PeersTyped (raw : List (String × PyValue)) : Prop :=
  ∃ items, ((PyValue.get raw "peers").getD (.list [])).iterate = some items ∧
    ∀ item ∈ items, PeerTyped item

theorem onlyValueErrors_mapM {items : List PyValue} :
    OnlyValueErrors (items.mapM LoadedPeer.init) ↔ ∀ item ∈ items, PeerTyped item := by
  induction items with
  | nil => exact iff_of_true (onlyValueErrors_ok []) (by simp)
  | cons item items ih =>
      -- the peers are made in their order, and the first that cannot be made raises
      rw [List.mapM_cons, List.forall_mem_cons, onlyValueErrors_bind]
      by_cases hitem : PeerTyped item
      · obtain ⟨peer, hpeer⟩ := peer_init.1 hitem
        rw [hpeer]
        refine ⟨fun h => ⟨hitem, ?_⟩, fun h => ⟨onlyValueErrors_ok peer, fun a _ => ?_⟩⟩
        · exact ih.mp (onlyValueErrors_bind.mp (h.2 peer rfl)).1
        · exact onlyValueErrors_bind.mpr ⟨ih.mpr h.2, fun peers _ => onlyValueErrors_ok _⟩
      · rw [peer_init.2 hitem]
        exact iff_of_false (fun h => not_onlyValueErrors_typeError h.1) fun h => hitem h.1

theorem onlyValueErrors_loadPeers {raw : List (String × PyValue)} :
    OnlyValueErrors (loadPeers raw) ↔ PeersTyped raw := by
  unfold loadPeers PeersTyped
  rw [onlyValueErrors_bind, onlyValueErrors_loopOver]
  constructor
  · rintro ⟨⟨items, hitems⟩, h⟩
    exact ⟨items, hitems, onlyValueErrors_mapM.mp (h items (loopOver_ok.mpr hitems))⟩
  · rintro ⟨items, hitems, h⟩
    refine ⟨⟨items, hitems⟩, fun other hother => ?_⟩
    obtain rfl : items = other := Option.some.inj (hitems.symm.trans (loopOver_ok.mp hother))
    exact onlyValueErrors_mapM.mpr h

/-- Two peers or more have labels that a set takes. -/
def LabelsTyped (peers : List LoadedPeer) : Prop :=
  2 ≤ peers.length → ∀ label ∈ labelsOf peers, label.hashable = true

/-- At least two peers with distinct labels. -/
structure LabelsGood (peers : List LoadedPeer) : Prop where
  two : 2 ≤ peers.length
  hashable : ∀ label ∈ labelsOf peers, label.hashable = true
  distinct : ((labelsOf peers).map PyValue.key).Nodup

theorem onlyValueErrors_checkLabels {peers : List LoadedPeer} :
    OnlyValueErrors (checkLabels peers) ↔ LabelsTyped peers := by
  unfold checkLabels LabelsTyped
  split_ifs with hfew
  · exact iff_of_true (onlyValueErrors_valueError _) fun h => absurd h (by omega)
  · rw [onlyValueErrors_bind, onlyValueErrors_hashAll]
    exact ⟨fun h _ => h.1, fun h => ⟨h (by omega), fun _ _ => onlyValueErrors_orValueError _ _⟩⟩

theorem checkLabels_ok {peers : List LoadedPeer} {u : Unit} :
    checkLabels peers = .ok u ↔ LabelsGood peers := by
  unfold checkLabels
  split_ifs with hfew
  · exact iff_of_false (fun h => by cases h) fun h => absurd h.two (by omega)
  · rw [except_bind_eq_ok]
    simp only [hashAll_ok, orValueError_ok, decide_eq_true_eq, PyValue.card_keySet_eq_length]
    exact ⟨fun ⟨_, hhash, hdistinct⟩ => ⟨by omega, hhash, hdistinct⟩,
      fun h => ⟨(), h.hashable, h.distinct⟩⟩

/-- A Linux peer with exactly one of address and name, or an Android peer with a
serial. -/
def LoadedPeer.Supported (peer : LoadedPeer) : Prop :=
  (peer.kind.isText "linux" = true ∧ peer.address.truthy ≠ peer.name.truthy) ∨
    (peer.kind.isText "android" = true ∧ peer.serial.truthy = true)

theorem isText_unique {value : PyValue} {text text' : String} (h : value.isText text = true)
    (h' : value.isText text' = true) : text = text' := by
  cases value with
  | str other => exact (of_decide_eq_true h).symm.trans (of_decide_eq_true h')
  | _ => cases h

theorem onlyValueErrors_checkPeer (py : Texts) (peer : LoadedPeer) :
    OnlyValueErrors (checkPeer py peer) := by
  unfold checkPeer
  split_ifs
  · exact onlyValueErrors_orValueError _ _
  · exact onlyValueErrors_orValueError _ _
  · exact onlyValueErrors_valueError _

theorem checkPeer_ok {py : Texts} {peer : LoadedPeer} {u : Unit} :
    checkPeer py peer = .ok u ↔ peer.Supported := by
  unfold checkPeer LoadedPeer.Supported
  split_ifs with hlinux handroid
  · rw [orValueError_ok, decide_eq_true_eq]
    refine ⟨fun h => .inl ⟨hlinux, h⟩, fun h => ?_⟩
    rcases h with h | h
    · exact h.2
    · exact absurd (isText_unique hlinux h.1) (by decide)
  · rw [orValueError_ok]
    refine ⟨fun h => .inr ⟨handroid, h⟩, fun h => ?_⟩
    rcases h with h | h
    · exact absurd h.1 hlinux
    · exact h.2
  · exact iff_of_false (fun h => by cases h) fun h => h.elim (fun h => hlinux h.1) fun h => handroid h.1

theorem onlyValueErrors_checkPeers (py : Texts) (peers : List LoadedPeer) :
    OnlyValueErrors (peers.forM (checkPeer py)) := by
  induction peers with
  | nil => exact onlyValueErrors_ok _
  | cons peer peers ih =>
      show OnlyValueErrors (checkPeer py peer >>= fun _ => peers.forM (checkPeer py))
      exact onlyValueErrors_bind.mpr ⟨onlyValueErrors_checkPeer py peer, fun _ _ => ih⟩

theorem checkPeers_ok {py : Texts} {peers : List LoadedPeer} {u : PUnit} :
    peers.forM (checkPeer py) = .ok u ↔ ∀ peer ∈ peers, peer.Supported := by
  induction peers with
  | nil => exact iff_of_true rfl (by simp)
  | cons peer peers ih =>
      show (checkPeer py peer >>= fun _ => peers.forM (checkPeer py)) = .ok u ↔ _
      rw [except_bind_eq_ok, List.forall_mem_cons]
      simp only [checkPeer_ok]
      exact ⟨fun ⟨_, hpeer, hrest⟩ => ⟨hpeer, ih.mp hrest⟩, fun h => ⟨(), h.1, ih.mpr h.2⟩⟩

/-- Identities that a set takes. -/
def IdentitiesTyped (peers : List LoadedPeer) : Prop :=
  ∀ peer ∈ peers, peer.identity.2.hashable = true

/-- Distinct identities. -/
def IdentitiesGood (peers : List LoadedPeer) : Prop :=
  IdentitiesTyped peers ∧ (peers.map LoadedPeer.identityKey).Nodup

theorem hashable_identities {peers : List LoadedPeer} :
    (∀ value ∈ peers.map (fun peer => peer.identity.2), value.hashable = true) ↔
      IdentitiesTyped peers := List.forall_mem_map

theorem onlyValueErrors_checkIdentities {peers : List LoadedPeer} :
    OnlyValueErrors (checkIdentities peers) ↔ IdentitiesTyped peers := by
  unfold checkIdentities
  rw [onlyValueErrors_bind, onlyValueErrors_hashAll, hashable_identities]
  exact ⟨fun h => h.1, fun h => ⟨h, fun _ _ => onlyValueErrors_orValueError _ _⟩⟩

theorem checkIdentities_ok {peers : List LoadedPeer} {u : Unit} :
    checkIdentities peers = .ok u ↔ IdentitiesGood peers := by
  have hcard : (peers.map LoadedPeer.identityKey).toFinset.card = peers.length ↔
      (peers.map LoadedPeer.identityKey).Nodup := by
    rw [← List.length_map LoadedPeer.identityKey]
    exact Multiset.toFinset_card_eq_card_iff_nodup
  unfold checkIdentities IdentitiesGood
  rw [except_bind_eq_ok]
  simp only [hashAll_ok, orValueError_ok, decide_eq_true_eq, hcard, hashable_identities]
  exact ⟨fun ⟨_, h⟩ => h, fun h => ⟨(), h⟩⟩

/-! ## The sequence and the capacity check -/

section Rest

variable {raw : List (String × PyValue)} {peers : List LoadedPeer} {sequence : List PyValue}
  {capacity : PyValue} {entries : List (String × PyValue)}

/-- Three steps or more that a set takes; and with two different ones among them, those
that are no labels are texts, which is what the message joins. -/
def SequenceTyped (peers : List LoadedPeer) (sequence : List PyValue) : Prop :=
  3 ≤ sequence.length → (∀ step ∈ sequence, step.hashable = true) ∧
    (2 ≤ (keySet sequence).card →
      ∀ key ∈ keySet sequence \ keySet (labelsOf peers), key.isText = true)

/-- At least three steps over at least two of the peers, and over no others. -/
structure SequenceGood (peers : List LoadedPeer) (sequence : List PyValue) : Prop where
  three : 3 ≤ sequence.length
  hashable : ∀ step ∈ sequence, step.hashable = true
  two : 2 ≤ (keySet sequence).card
  known : keySet sequence ⊆ keySet (labelsOf peers)

theorem onlyValueErrors_joinSorted {unknown : Finset PyValue.Key} :
    OnlyValueErrors (joinSorted unknown) ↔ ∀ key ∈ unknown, key.isText = true := by
  unfold joinSorted
  split_ifs with htexts
  · exact iff_of_true (onlyValueErrors_ok _) htexts
  · exact iff_of_false not_onlyValueErrors_typeError htexts

/-- The branch of the unknown peers raises in any case. -/
theorem unknown_raises (unknown : Finset PyValue.Key) (message : String → String) (u : Unit) :
    (joinSorted unknown >>= fun joined => (.error (ValueError (message joined)) :
      Except PyExc Unit)) ≠ .ok u := by
  intro h
  obtain ⟨joined, -, hraise⟩ := except_bind_eq_ok.mp h
  cases hraise

theorem onlyValueErrors_checkSequence :
    OnlyValueErrors (checkSequence peers sequence) ↔ SequenceTyped peers sequence := by
  unfold checkSequence SequenceTyped
  split_ifs with hfew
  · exact iff_of_true (onlyValueErrors_valueError _) fun h => absurd h (by omega)
  · rw [onlyValueErrors_bind, onlyValueErrors_hashAll]
    refine ⟨fun h _ => ⟨h.1, fun htwo key hkey => ?_⟩, fun h => ⟨(h (by omega)).1, fun _ _ => ?_⟩⟩
    · have hrest := (onlyValueErrors_bind.mp (h.2 () (hashAll_ok.mpr h.1))).2 ()
        (orValueError_ok.mpr (decide_eq_true htwo))
      have hsome : keySet sequence \ keySet (labelsOf peers) ≠ ∅ := Finset.ne_empty_of_mem hkey
      rw [if_neg hsome] at hrest
      exact onlyValueErrors_joinSorted.mp (onlyValueErrors_bind.mp hrest).1 key hkey
    · refine onlyValueErrors_bind.mpr ⟨onlyValueErrors_orValueError _ _, fun _ htwo => ?_⟩
      have htwo := of_decide_eq_true (orValueError_ok.mp htwo)
      dsimp only
      split_ifs with hnone
      · exact onlyValueErrors_ok ()
      · exact onlyValueErrors_bind.mpr ⟨onlyValueErrors_joinSorted.mpr ((h (by omega)).2 htwo),
          fun _ _ => onlyValueErrors_valueError _⟩

theorem checkSequence_ok {u : Unit} :
    checkSequence peers sequence = .ok u ↔ SequenceGood peers sequence := by
  unfold checkSequence
  split_ifs with hfew
  · exact iff_of_false (fun h => by cases h) fun h => absurd h.three (by omega)
  · rw [except_bind_eq_ok]
    constructor
    · rintro ⟨_, hhash, h⟩
      obtain ⟨_, htwo, h⟩ := except_bind_eq_ok.mp h
      dsimp only at h
      split_ifs at h with hnone
      · exact ⟨by omega, hashAll_ok.mp hhash, of_decide_eq_true (orValueError_ok.mp htwo),
          Finset.sdiff_eq_empty_iff_subset.mp hnone⟩
      · exact absurd h (unknown_raises _ _ _)
    · intro h
      refine ⟨(), hashAll_ok.mpr h.hashable, except_bind_eq_ok.mpr
        ⟨(), orValueError_ok.mpr (decide_eq_true h.two), ?_⟩⟩
      dsimp only
      rw [if_pos (Finset.sdiff_eq_empty_iff_subset.mpr h.known)]

/-- A capacity check that a set takes; with the three keys in it, it is a dict whose
values a set takes. -/
def CapacityTyped (capacity : PyValue) : Prop :=
  ∃ items, capacity.iterate = some items ∧ (∀ item ∈ items, item.hashable = true) ∧
    (keySet items = required → ∃ entries, capacity = .dict entries ∧
      ∀ value ∈ PyValue.valuesOf entries, value.hashable = true)

/-- The three keys, for three peers out of at least six. -/
structure CapacityGood (peers : List LoadedPeer) (entries : List (String × PyValue)) : Prop where
  keys : keySet ((PyValue.names entries).map PyValue.str) = required
  declared : keySet (PyValue.valuesOf entries) ⊆ keySet (labelsOf peers)
  six : 6 ≤ peers.length
  three : (keySet (PyValue.valuesOf entries)).card = 3

/-- The part of `checkCapacity` that looks into the dict. -/
theorem onlyValueErrors_values :
    OnlyValueErrors (do
      hashAll (PyValue.valuesOf entries)
      orValueError (keySet (PyValue.valuesOf entries) ⊆ keySet (labelsOf peers))
        "capacity_check references an unknown peer"
      orValueError (6 ≤ peers.length) "capacity_check needs at least six independent peers"
      orValueError ((keySet (PyValue.valuesOf entries)).card = 3)
        "capacity_check must name three distinct peers"
      return entries) ↔ ∀ value ∈ PyValue.valuesOf entries, value.hashable = true := by
  rw [onlyValueErrors_bind, onlyValueErrors_hashAll]
  refine ⟨fun h => h.1, fun h => ⟨h, fun _ _ => ?_⟩⟩
  refine onlyValueErrors_bind.mpr ⟨onlyValueErrors_orValueError _ _, fun _ _ => ?_⟩
  refine onlyValueErrors_bind.mpr ⟨onlyValueErrors_orValueError _ _, fun _ _ => ?_⟩
  exact onlyValueErrors_bind.mpr ⟨onlyValueErrors_orValueError _ _, fun _ _ => onlyValueErrors_ok _⟩

theorem onlyValueErrors_checkCapacity :
    OnlyValueErrors (checkCapacity peers capacity) ↔ CapacityTyped capacity := by
  unfold checkCapacity CapacityTyped
  rw [onlyValueErrors_bind, onlyValueErrors_loopOver]
  constructor
  · rintro ⟨⟨items, hitems⟩, h⟩
    have h := onlyValueErrors_bind.mp (h items (loopOver_ok.mpr hitems))
    have hhash := onlyValueErrors_hashAll.mp h.1
    refine ⟨items, hitems, hhash, fun hkeys => ?_⟩
    have h := (onlyValueErrors_bind.mp (h.2 () (hashAll_ok.mpr hhash))).2 ()
      (orValueError_ok.mpr (decide_eq_true hkeys))
    cases capacity with
    | dict entries => exact ⟨entries, rfl, onlyValueErrors_values.mp h⟩
    | _ => exact absurd h not_onlyValueErrors_attributeError
  · rintro ⟨items, hitems, hhash, hdict⟩
    refine ⟨⟨items, hitems⟩, fun other hother => ?_⟩
    obtain rfl : items = other := Option.some.inj (hitems.symm.trans (loopOver_ok.mp hother))
    refine onlyValueErrors_bind.mpr ⟨onlyValueErrors_hashAll.mpr hhash, fun _ _ => ?_⟩
    refine onlyValueErrors_bind.mpr ⟨onlyValueErrors_orValueError _ _, fun _ hkeys => ?_⟩
    obtain ⟨entries, rfl, hvalues⟩ := hdict (of_decide_eq_true (orValueError_ok.mp hkeys))
    exact onlyValueErrors_values.mpr hvalues

theorem checkCapacity_good (h : checkCapacity peers capacity = .ok entries) :
    CapacityGood peers entries := by
  unfold checkCapacity at h
  obtain ⟨items, hitems, h⟩ := except_bind_eq_ok.mp h
  obtain ⟨_, -, h⟩ := except_bind_eq_ok.mp h
  obtain ⟨_, hkeys, h⟩ := except_bind_eq_ok.mp h
  cases capacity with
  | dict declared =>
      obtain ⟨_, -, h⟩ := except_bind_eq_ok.mp h
      obtain ⟨_, hdeclared, h⟩ := except_bind_eq_ok.mp h
      obtain ⟨_, hsix, h⟩ := except_bind_eq_ok.mp h
      obtain ⟨_, hthree, h⟩ := except_bind_eq_ok.mp h
      obtain rfl : declared = entries := by injection h
      obtain rfl := Option.some.inj (loopOver_ok.mp hitems)
      exact ⟨of_decide_eq_true (orValueError_ok.mp hkeys),
        of_decide_eq_true (orValueError_ok.mp hdeclared),
        of_decide_eq_true (orValueError_ok.mp hsix),
        of_decide_eq_true (orValueError_ok.mp hthree)⟩
  | _ => cases h

end Rest

/-! ## The document -/

section Document

variable {py : Texts} {raw : List (String × PyValue)} {peers : List LoadedPeer}

/-- The peers that the members of `peers` make. -/
def declaredPeers (raw : List (String × PyValue)) : List LoadedPeer :=
  ((((PyValue.get raw "peers").getD (.list [])).iterate).getD []).filterMap fun item =>
    (LoadedPeer.init item).toOption

/-- The steps that are asked for. -/
def steps (raw : List (String × PyValue)) : List PyValue :=
  (((PyValue.get raw "sequence").getD (.list [])).iterate).getD []

theorem mapM_init {items : List PyValue} (htyped : ∀ item ∈ items, PeerTyped item) :
    items.mapM LoadedPeer.init =
      .ok (items.filterMap fun item => (LoadedPeer.init item).toOption) := by
  induction items with
  | nil => rfl
  | cons item items ih =>
      obtain ⟨hitem, hrest⟩ := List.forall_mem_cons.mp htyped
      obtain ⟨peer, hpeer⟩ := peer_init.1 hitem
      rw [List.mapM_cons, ih hrest, hpeer, List.filterMap_cons_some (by rw [hpeer]; rfl)]
      rfl

/-- The capacity check, or `None`. -/
def capacityOf (raw : List (String × PyValue)) : PyValue :=
  (PyValue.get raw "capacity_check").getD .none

theorem onlyValueErrors_loadCapacity :
    OnlyValueErrors (loadCapacity raw peers) ↔
      capacityOf raw = .none ∨ CapacityTyped (capacityOf raw) := by
  have hsome : ∀ capacity, OnlyValueErrors (some <$> checkCapacity peers capacity) ↔
      CapacityTyped capacity := by
    intro capacity
    rw [map_eq_pure_bind, onlyValueErrors_bind, onlyValueErrors_checkCapacity]
    exact ⟨fun h => h.1, fun h => ⟨h, fun _ _ => onlyValueErrors_ok _⟩⟩
  unfold loadCapacity capacityOf
  split
  · rename_i hnone
    exact iff_of_true (onlyValueErrors_ok none) (.inl hnone)
  · rename_i capacity hcapacity
    rw [hsome]
    exact ⟨.inr, fun h => h.resolve_left hcapacity⟩

theorem loadCapacity_good {check : List (String × PyValue)}
    (h : loadCapacity raw peers = .ok (some check)) : CapacityGood peers check := by
  unfold loadCapacity at h
  split at h
  · cases h
  · rw [map_eq_pure_bind] at h
    obtain ⟨entries, hentries, hsame⟩ := except_bind_eq_ok.mp h
    obtain rfl : entries = check := Option.some.inj (Except.ok.inj hsame)
    exact checkCapacity_good hentries

/-- Every check that the document gets to can look at its part of it. -/
def WellTyped (py : Texts) : PyValue → Prop
  | .dict raw =>
    ((PyValue.get raw "schema_version").getD .none).isNumber 1 = true → watchLabel py raw ≠ "" →
      PeersTyped raw ∧ LabelsTyped (declaredPeers raw) ∧
        (LabelsGood (declaredPeers raw) → (∀ peer ∈ declaredPeers raw, peer.Supported) →
          IdentitiesTyped (declaredPeers raw) ∧ (IdentitiesGood (declaredPeers raw) →
            (((PyValue.get raw "sequence").getD (.list [])).iterate).isSome ∧
              SequenceTyped (declaredPeers raw) (steps raw) ∧
              (SequenceGood (declaredPeers raw) (steps raw) →
                capacityOf raw = .none ∨ CapacityTyped (capacityOf raw))))
  | _ => False

/-- What is promised of a plan. -/
structure LoadedPlan.Valid (plan : LoadedPlan) : Prop where
  watch_label : plan.watch_label ≠ ""
  labels : LabelsGood plan.peers
  peers : ∀ peer ∈ plan.peers, peer.Supported
  identities : IdentitiesGood plan.peers
  sequence : SequenceGood plan.peers plan.sequence
  capacity : ∀ check, plan.capacity_check = some check → CapacityGood plan.peers check

/-- A plan that is loaded has passed every check. -/
theorem load_valid {document : PyValue} {plan : LoadedPlan}
    (h : AcceptancePlan.load py document = .ok plan) : plan.Valid := by
  cases document with
  | dict raw =>
      unfold AcceptancePlan.load at h
      obtain ⟨_, -, h⟩ := except_bind_eq_ok.mp h
      -- each check that was passed leaves its fact, in the order of the source
      obtain ⟨_, hwatch, h⟩ := except_bind_eq_ok.mp h
      obtain ⟨peers, -, h⟩ := except_bind_eq_ok.mp h
      obtain ⟨_, hlabels, h⟩ := except_bind_eq_ok.mp h
      obtain ⟨_, hpeers, h⟩ := except_bind_eq_ok.mp h
      obtain ⟨_, hidentities, h⟩ := except_bind_eq_ok.mp h
      obtain ⟨sequence, -, h⟩ := except_bind_eq_ok.mp h
      obtain ⟨_, hsequence, h⟩ := except_bind_eq_ok.mp h
      obtain ⟨capacity, hcapacity, h⟩ := except_bind_eq_ok.mp h
      obtain rfl := Except.ok.inj h
      refine ⟨of_decide_eq_true (orValueError_ok.mp hwatch), checkLabels_ok.mp hlabels,
        checkPeers_ok.mp hpeers, checkIdentities_ok.mp hidentities,
        checkSequence_ok.mp hsequence, fun check hcheck => ?_⟩
      dsimp only at hcheck
      rw [hcheck] at hcapacity
      exact loadCapacity_good hcapacity
  | _ => cases h

/-- A check that can look at what is `Typed` and passes what is `Good`, before the
rest. -/
theorem onlyValueErrors_check {α : Type} {check : Except PyExc Unit} {rest : Except PyExc α}
    {Typed Good : Prop} (honly : OnlyValueErrors check ↔ Typed)
    (hgood : ∀ u, check = .ok u ↔ Good) :
    OnlyValueErrors (check >>= fun _ => rest) ↔ Typed ∧ (Good → OnlyValueErrors rest) := by
  rw [onlyValueErrors_bind, honly]
  exact and_congr_right' ⟨fun h hg => h () ((hgood ()).mpr hg), fun h u hu => h ((hgood u).mp hu)⟩

/-- A check that can look at anything. -/
theorem onlyValueErrors_pass {α : Type} {check : Except PyExc Unit} {rest : Except PyExc α}
    {Good : Prop} (honly : OnlyValueErrors check) (hgood : ∀ u, check = .ok u ↔ Good) :
    OnlyValueErrors (check >>= fun _ => rest) ↔ (Good → OnlyValueErrors rest) := by
  rw [onlyValueErrors_check (iff_true_intro honly) hgood, true_and]

/-- A part that is read, before the rest. -/
theorem onlyValueErrors_read {α β : Type} {read : Except PyExc α} {rest : α → Except PyExc β}
    {a : α} {Typed : Prop} (honly : OnlyValueErrors read ↔ Typed) (hread : Typed → read = .ok a) :
    OnlyValueErrors (read >>= rest) ↔ Typed ∧ OnlyValueErrors (rest a) := by
  rw [onlyValueErrors_bind, honly]
  refine and_congr_right fun htyped => ⟨fun h => h a (hread htyped), fun h a' ha' => ?_⟩
  rw [hread htyped] at ha'
  rwa [← Except.ok.inj ha']

theorem loadPeers_typed (h : PeersTyped raw) : loadPeers raw = .ok (declaredPeers raw) := by
  obtain ⟨items, hitems, hpeers⟩ := h
  unfold loadPeers declaredPeers
  rw [loopOver_ok.mpr hitems, hitems]
  exact mapM_init hpeers

theorem onlyValueErrors_loadSequence :
    OnlyValueErrors (loadSequence raw) ↔
      (((PyValue.get raw "sequence").getD (.list [])).iterate).isSome := by
  unfold loadSequence
  rw [onlyValueErrors_loopOver, Option.isSome_iff_exists]

theorem loadSequence_typed (h : (((PyValue.get raw "sequence").getD (.list [])).iterate).isSome) :
    loadSequence raw = .ok (steps raw) := by
  obtain ⟨items, hitems⟩ := Option.isSome_iff_exists.mp h
  unfold loadSequence steps
  rw [loopOver_ok.mpr hitems, hitems]
  rfl

theorem checkWatchLabel_ok {u : Unit} : checkWatchLabel py raw = .ok u ↔ watchLabel py raw ≠ "" :=
  orValueError_ok.trans decide_eq_true_iff

/-- What is raised, check by check. -/
theorem onlyValueErrors_load {document : PyValue} :
    OnlyValueErrors (AcceptancePlan.load py document) ↔ WellTyped py document := by
  cases document with
  | dict raw =>
      unfold AcceptancePlan.load WellTyped
      dsimp only
      -- one step for each line of the source, the condition unfolding along with it
      refine (onlyValueErrors_pass (onlyValueErrors_orValueError _ _) fun _ => orValueError_ok).trans
        (imp_congr_right fun _ => ?_)
      refine (onlyValueErrors_pass (onlyValueErrors_orValueError _ _) fun _ =>
        checkWatchLabel_ok).trans (imp_congr_right fun _ => ?_)
      refine (onlyValueErrors_read onlyValueErrors_loadPeers loadPeers_typed).trans
        (and_congr_right fun _ => ?_)
      refine (onlyValueErrors_check onlyValueErrors_checkLabels fun _ => checkLabels_ok).trans
        (and_congr_right fun _ => imp_congr_right fun _ => ?_)
      refine (onlyValueErrors_pass (onlyValueErrors_checkPeers py _) fun _ => checkPeers_ok).trans
        (imp_congr_right fun _ => ?_)
      refine (onlyValueErrors_check onlyValueErrors_checkIdentities fun _ =>
        checkIdentities_ok).trans (and_congr_right fun _ => imp_congr_right fun _ => ?_)
      refine (onlyValueErrors_read onlyValueErrors_loadSequence loadSequence_typed).trans
        (and_congr_right fun _ => ?_)
      refine (onlyValueErrors_check onlyValueErrors_checkSequence fun _ => checkSequence_ok).trans
        (and_congr_right fun _ => imp_congr_right fun _ => ?_)
      rw [onlyValueErrors_bind, onlyValueErrors_loadCapacity]
      exact ⟨fun h => h.1, fun h => ⟨h, fun _ _ => onlyValueErrors_ok _⟩⟩
  | _ => exact iff_of_false not_onlyValueErrors_attributeError id

/-- **A plan, or a `ValueError`.** Loading a document ends in one of the two if and only
if every check that the document gets to can look at its part of it. -/
theorem load_valid_iff (py : Texts) (document : PyValue) :
    ((∃ message, AcceptancePlan.load py document = .error (ValueError message)) ∨
      ∃ plan, AcceptancePlan.load py document = .ok plan ∧ plan.Valid) ↔
    WellTyped py document := by
  rw [← onlyValueErrors_load]
  constructor
  · rintro (⟨message, hmessage⟩ | ⟨plan, hplan, -⟩)
    · rw [hmessage]
      exact onlyValueErrors_valueError message
    · rw [hplan]
      exact onlyValueErrors_ok plan
  · intro honly
    cases hload : AcceptancePlan.load py document with
    | error e =>
        obtain ⟨message, rfl⟩ := honly e hload
        exact .inl ⟨message, rfl⟩
    | ok plan => exact .inr ⟨plan, rfl, load_valid hload⟩

end Document

/-! ## The plan of an acceptance run -/

/-- The run is given the labels and the steps of the document, as texts. -/
structure LoadedPlan.Holds (loaded : LoadedPlan) (plan : AcceptancePlan) : Prop where
  labels : labelsOf loaded.peers = plan.peers.map fun peer => PyValue.str peer.label
  sequence : loaded.sequence = plan.sequence.map PyValue.str

/-- The checks are those that the run relies on when it looks its peers up. -/
theorem LoadedPlan.Valid.known {loaded : LoadedPlan} {plan : AcceptancePlan}
    (hvalid : loaded.Valid) (h : loaded.Holds plan) : plan.Known := by
  intro label hlabel
  have hstep : PyValue.Key.text label ∈ keySet loaded.sequence := by
    rw [PyValue.mem_keySet, h.sequence]
    exact ⟨.str label, List.mem_map_of_mem hlabel, rfl⟩
  obtain ⟨value, hvalue, hkey⟩ := PyValue.mem_keySet.mp (hvalid.sequence.known hstep)
  rw [h.labels] at hvalue
  obtain ⟨peer, hpeer, rfl⟩ := List.mem_map.mp hvalue
  exact ⟨peer, hpeer, PyValue.Key.text.inj hkey⟩

/-- A plan for two peers, with the steps. -/
def twoPeers (sequence : List PyValue) : PyValue :=
  .dict
    [("schema_version", .int 1),
      ("watch_label", .str "Kid A"),
      ("peers", .list
        [.dict [("label", .str "parent-a"), ("kind", .str "android"), ("serial", .str "phone-a")],
          .dict [("label", .str "laptop"), ("kind", .str "linux"),
            ("address", .str "AA:BB:CC:DD:EE:FF")]]),
      ("sequence", .list sequence)]

example : ∃ plan, AcceptancePlan.load ⟨fun _ => "", fun _ => ""⟩
    (twoPeers [.str "parent-a", .str "laptop", .str "parent-a"]) = .ok plan := ⟨_, rfl⟩

/-- The step that is no label is a number: the text of the `ValueError` that is to name it
cannot be joined. -/
theorem unknown_number_raises :
    ¬ ((∃ message, AcceptancePlan.load ⟨fun _ => "", fun _ => ""⟩
          (twoPeers [.str "parent-a", .int 7, .str "parent-a"]) = .error (ValueError message)) ∨
        ∃ plan, AcceptancePlan.load ⟨fun _ => "", fun _ => ""⟩
          (twoPeers [.str "parent-a", .int 7, .str "parent-a"]) = .ok plan ∧ plan.Valid) := by
  -- `", ".join([7])`
  have hload : AcceptancePlan.load ⟨fun _ => "", fun _ => ""⟩
      (twoPeers [.str "parent-a", .int 7, .str "parent-a"]) = .error TypeError := by rfl
  rw [hload]
  rintro (⟨message, hmessage⟩ | ⟨plan, hplan, -⟩)
  · exact not_onlyValueErrors_typeError (hmessage ▸ onlyValueErrors_valueError message)
  · cases hplan

end Ptlab.Hardware
