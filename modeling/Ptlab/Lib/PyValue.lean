/-
The values that Python has for a JSON document, as far as `==`, `bool`, `set`, `in`
and iteration tell them apart.

A set takes the hashable values only, and two of them are one element if they are
equal: `True`, `1` and `1.0` are, so that an element is known by its `Key`. A
document may repeat a member of an object; the last one counts, in the place of the
first.
-/
import Mathlib.Data.Finset.Card
import Mathlib.Data.Rat.Defs
import Mathlib.Tactic

set_option autoImplicit false

/-- `None`, numbers, texts, lists and dicts. -/
inductive PyValue where
  | none
  | bool (b : Bool)
  | int (n : ℤ)
  | float (q : ℚ)
  | str (text : String)
  | list (items : List PyValue)
  | dict (entries : List (String × PyValue))
  deriving Repr

namespace PyValue

/-- `bool(value)`. -/
def truthy : PyValue → Bool
  | none => false
  | bool b => b
  | int n => n ≠ 0
  | float q => q ≠ 0
  | str text => text ≠ ""
  | list items => !items.isEmpty
  | dict entries => !entries.isEmpty

/-- `value == text`. -/
def isText (text : String) : PyValue → Bool
  | str other => other = text
  | _ => false

/-- `value == n`. -/
def isNumber (n : ℤ) : PyValue → Bool
  | bool b => n = if b then 1 else 0
  | int m => m = n
  | float q => q = n
  | _ => false

/-! ## Sets -/

/-- What a hashable value is equal by. -/
inductive Key where
  | none
  | number (q : ℚ)
  | text (text : String)
  deriving DecidableEq, Repr

def Key.isText : Key → Bool
  | .text _ => true
  | _ => false

/-- The text that the key is of. -/
def Key.toText : Key → String
  | .text t => t
  | _ => ""

/-- `hash(value)` does not raise. -/
def hashable : PyValue → Bool
  | list _ => false
  | dict _ => false
  | _ => true

/-- The key of a hashable value. -/
def key : PyValue → Key
  | bool b => .number (if b then 1 else 0)
  | int n => .number n
  | float q => .number q
  | str text => .text text
  | _ => .none

/-- `set(values)`, of values that can be hashed. -/
def keySet (values : List PyValue) : Finset Key := (values.map key).toFinset

theorem mem_keySet {values : List PyValue} {k : Key} :
    k ∈ keySet values ↔ ∃ value ∈ values, value.key = k := by
  unfold keySet
  rw [List.mem_toFinset, List.mem_map]

/-- A set as large as the list it is made of: no two values are equal. -/
theorem card_keySet_eq_length {values : List PyValue} :
    (keySet values).card = values.length ↔ (values.map key).Nodup := by
  unfold keySet
  rw [← List.length_map key]
  exact Multiset.toFinset_card_eq_card_iff_nodup

/-! ## Dicts -/

/-- `entries.get(name)`. -/
def get (entries : List (String × PyValue)) (name : String) : Option PyValue :=
  (entries.reverse.find? fun entry => entry.1 = name).map Prod.snd

/-- The keys of a dict, in order. -/
def names (entries : List (String × PyValue)) : List String := (entries.map Prod.fst).eraseDups

/-- The values of a dict, in order. -/
def valuesOf (entries : List (String × PyValue)) : List PyValue :=
  (names entries).filterMap (get entries)

/-- What `for` goes over, if the value is iterable. -/
def iterate : PyValue → Option (List PyValue)
  | str text => some (text.toList.map fun c => str (String.ofList [c]))
  | list items => some items
  | dict entries => some ((names entries).map str)
  | _ => Option.none

end PyValue
