/-
What a response line of the BLE-control server says (`src/ptlab/control.py`):
`parse_control_line` and `coerce_control_values`.

A `dict` is the list of its entries in the order in which they were put in.
-/
import Ptlab.Control.Line

set_option autoImplicit false

namespace Ptlab.Control

/-- What is Python's own: `repr` of a text, and `int(value, 10)`, which has no
value where Python raises `ValueError`. -/
structure Builtins where
  repr : String → String
  int : String → Option ℤ

def LINE_FEED : Char := Char.ofNat 0x0A

def RETURN : Char := Char.ofNat 0x0D

/-- A character at which `str.split` and `str.strip` cut. -/
def isSpace (c : Char) : Bool :=
  c.val ∈ [0x09, 0x0A, 0x0B, 0x0C, 0x0D, 0x1C, 0x1D, 0x1E, 0x1F, 0x20, 0x85, 0xA0, 0x1680,
    0x2000, 0x2001, 0x2002, 0x2003, 0x2004, 0x2005, 0x2006, 0x2007, 0x2008, 0x2009, 0x200A,
    0x2028, 0x2029, 0x202F, 0x205F, 0x3000]

/-- `line.split()`. -/
def fieldsOf (line : String) : List String :=
  ((line.toList.splitOnP isSpace).filter (· ≠ [])).map String.ofList

/-- `field.split("=", 1)`, where there is an equals sign. -/
def splitField (field : String) : String × String :=
  let key := field.toList.takeWhile (· ≠ '=')
  (String.ofList key, String.ofList (field.toList.drop (key.length + 1)))

/-- The loop over the fields behind the first, with the `values` and the words of
the `message` so far. -/
def parseFields (py : Builtins) : List String → List (String × String) → List String →
    Except ControlExc (List String × List (String × String))
  | [], values, message => .ok (message, values)
  | field :: fields, values, message =>
    if '=' ∈ field.toList then
      let (key, value) := splitField field
      if key = "" ∨ key ∈ values.map Prod.fst then
        .error (.ControlProtocolError s!"invalid BLE-control field {py.repr field}")
      else parseFields py fields (values ++ [(key, value)]) message
    else parseFields py fields values (message ++ [field])

/-- `parse_control_line`: whether the line begins with `OK`, its message, and its
values. -/
def parse_control_line (py : Builtins) (line : String) :
    Except ControlExc (Bool × String × List (String × String)) :=
  if line = "" ∨ LINE_FEED ∈ line.toList ∨ RETURN ∈ line.toList then
    .error (.ControlProtocolError "invalid BLE-control response line")
  else
    match fieldsOf line with
    -- a line of spaces has no first field
    | [] => .error (.IndexError "list index out of range")
    | first :: fields =>
      if first ∉ ["OK", "ERR"] then
        .error (.ControlProtocolError
          s!"BLE-control response lacks OK/ERR prefix: {py.repr line}")
      else
        match parseFields py fields [] [] with
        | .error e => .error e
        | .ok (message, values) => .ok (first = "OK", " ".intercalate message, values)

/-- What `coerce_control_values` makes of a value. -/
inductive ControlValue where
  | list (items : List String)
  | int (value : ℤ)
  | str (value : String)
  deriving DecidableEq, Repr

/-- `value.split(",")`. -/
def splitCommas (value : String) : List String :=
  (value.toList.splitOn ',').map String.ofList

/-- The value of one entry. -/
def coerceValue (py : Builtins) (key value : String) : ControlValue :=
  if key = "retained" then .list (if value = "" then [] else splitCommas value)
  else match py.int value with
    | some n => .int n
    | none => .str value

/-- `coerce_control_values`. -/
def coerce_control_values (py : Builtins) (values : List (String × String)) :
    List (String × ControlValue) :=
  values.map fun (key, value) => (key, coerceValue py key value)

theorem parseFields_error {py : Builtins} (fields : List String) :
    ∀ {values : List (String × String)} {message : List String} {e : ControlExc},
      parseFields py fields values message = .error e → ∃ text, e = .ControlProtocolError text := by
  induction fields with
  | nil => intro values message e h; cases h
  | cons field fields ih =>
      intro values message e h
      rw [parseFields] at h
      by_cases hequals : '=' ∈ field.toList
      · rw [if_pos hequals] at h
        dsimp only at h
        split_ifs at h with hkey
        · injection h with h
          exact ⟨_, h.symm⟩
        · exact ih h
      · rw [if_neg hequals] at h
        exact ih h

/-- What `parse_control_line` raises. -/
theorem parse_control_line_error {py : Builtins} {line : String} {e : ControlExc}
    (h : parse_control_line py line = .error e) :
    (∃ text, e = .ControlProtocolError text) ∨ ∃ text, e = .IndexError text := by
  unfold parse_control_line at h
  split_ifs at h with hline
  · injection h with h
    exact .inl ⟨_, h.symm⟩
  · rcases hfields : fieldsOf line with _ | ⟨first, fields⟩ <;> rw [hfields] at h
    · injection h with h
      exact .inr ⟨_, h.symm⟩
    · dsimp only at h
      by_cases hfirst : first ∉ ["OK", "ERR"]
      · rw [if_pos hfirst] at h
        injection h with h
        exact .inl ⟨_, h.symm⟩
      · rw [if_neg hfirst] at h
        -- what is raised behind the first word is raised in the loop
        rcases hparse : parseFields py fields [] [] with e' | ⟨message, values⟩
        · rw [hparse] at h
          injection h with h
          subst h
          exact .inl (parseFields_error fields hparse)
        · rw [hparse] at h
          cases h

end Ptlab.Control
