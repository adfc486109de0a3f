/-
The input commands of the simulator (`src/ptlab/sim.py`): what they press and where they
move the pointer.

Everything a command does to the display goes through `xdo`, in order, and any of it may
fail; what xdotool, the clock and the files say to the next request may depend on all that
was done before. `held` is read off the requests alone: a key or button counts as down from
the request to press it until xdotool has reported its release. Commands that return leave
nothing down, one that fails at most one thing (`input_session`). A drag moves by rounded
fractions of its way, and still goes straight on to its end (`drag_path`).
-/
import Ptlab.Artifacts
import Ptlab.Control.Client
import Ptlab.Lib.Lines
import Ptlab.Lib.Rounding
import Ptlab.Sim.OnDisk

set_option autoImplicit false

open Effect JsNumber Ptlab.Control Ptlab.Sim.OnDisk
open Ptlab.Artifacts (isLineBoundary)

namespace Ptlab.Sim.Input

/-! ## The desk -/

/-- An argument of `xdo`. -/
inductive Argument where
  | text (value : String)
  | number (value : ℤ)
  deriving DecidableEq, Repr

/-- `str(argument)`. -/
def Argument.str : Argument → String
  | .text value => value
  | .number value => toString value

/-- What a command has done: an xdotool was run, to its end or not, or time was waited
for. -/
inductive Happening where
  | ran (display : String) (arguments : List Argument) (returned : Bool)
  | slept (seconds : ℚ)
  deriving DecidableEq, Repr

abbrev Log : Type := List Happening

/-- What is around a command, by what was done so far: the state file as `_load_json` reads
it, the text of `sim.stdout.log`, what an xdotool prints on its display, and a clock that
may be interrupted. -/
structure World where
  state : Log → Except PyExc (Option StateDict)
  stdout : Log → Except PyExc (Option String)
  xdotool : Log → String → List String → Except PyExc String
  sleep : Log → ℚ → Option PyExc

/-- What is Python's own. -/
structure Builtins where
  int : String → Option ℤ
  lower : Char → String
  isupper : Char → Bool
  capitalize : String → String

abbrev OnDesk (α : Type) : Type := Effect Log PyExc α

/-- A float that an operation comes to, or an overflow. -/
def double (q : ℚ) (overflow : String) : Except PyExc ℚ :=
  match JsNumber.round q with
  | .finite r => .ok r
  | _ => .error (.Exception "OverflowError" overflow)

/-- The texts with which overflows are raised. -/
def TOO_LARGE : String := "int too large to convert to float"

def DIVISION : String := "integer division result too large for a float"

def NOT_AN_INT : String := "cannot convert float infinity to integer"

def HOLD : JsNumber := JsNumber.round (15 / 100)

def EVENTS : List (String × String) :=
  [("ring", "r"), ("unring", "R"), ("buzz", "m"), ("buzz-long", "M"), ("notify", "n"),
    ("clear-notify", "N"), ("ble-connect", "b"), ("ble-disconnect", "B"), ("battery-up", "v"),
    ("battery-down", "V"), ("charging", "c"), ("not-charging", "C"), ("brightness-up", "l"),
    ("brightness-down", "L"), ("steps-up", "s"), ("steps-down", "S"), ("heartrate", "h"),
    ("heartrate-stop", "H"), ("weather", "w"), ("clear-weather", "W")]

section Commands

variable (py : Builtins) (world : World)

/-- `time.sleep`. -/
def sleep : JsNumber → OnDesk Unit
  | .nan => throw (.Exception "ValueError" "Invalid value NaN (not a number)")
  | .infinity _ =>
    throw (.Exception "OverflowError" "timestamp out of range for platform time_t")
  | .finite seconds =>
    if seconds < 0 then throw (.Exception "ValueError" "sleep length must be non-negative")
    else of fun log => match world.sleep log seconds with
      | none => (.ok (), log ++ [.slept seconds])
      | some error => (.error error, log ++ [.slept seconds])

/-- `Simulator.load_state`. -/
def load_state : OnDesk StateDict := of fun log => match world.state log with
  | .ok (some state) => (.ok state, log)
  | .ok none => (.error (SimError "simulator is not running (no state file)"), log)
  | .error error => (.error error, log)

/-- The display of a state, as `str` writes it. -/
def displayOf (state : StateDict) : String := state.display.getD "None"

/-- `Simulator.xdo`. -/
def xdo (state : StateDict) (arguments : List Argument) : OnDesk String :=
  of fun log => match world.xdotool log (displayOf state) (arguments.map Argument.str) with
    | .ok stdout => (.ok stdout, log ++ [.ran (displayOf state) arguments true])
    | .error error => (.error error, log ++ [.ran (displayOf state) arguments false])

/-! ## Places -/

/-- `line.split("=", 1)`, if there are two parts. -/
def splitEquals (line : String) : Option (String × String) :=
  match line.toList.dropWhile (· ≠ '=') with
  | [] => none
  | _ :: value => some (String.ofList (line.toList.takeWhile (· ≠ '=')), String.ofList value)

/-- `text.splitlines()`, of a text read in text mode. -/
def splitlines (text : String) : List String :=
  (Lines.split isLineBoundary [] text.toList).map String.ofList

/-- The dict of a geometry. -/
def geometryOf (output : String) : Except PyExc (List (String × String)) :=
  (splitlines (strip output)).zipIdx.mapM fun (line, index) =>
    match splitEquals line with
    | some entry => .ok entry
    | none => .error (.Exception "ValueError"
        s!"dictionary update sequence element #{index} has length 1; 2 is required")

/-- `int(geometry[name])`. The last of several lines counts. -/
def coordinate (geometry : List (String × String)) (name : String) : Except PyExc ℤ :=
  match geometry.reverse.lookup name with
  | none => .error (.Exception "KeyError" name)
  | some text =>
    match py.int text with
    | some n => .ok n
    | none => .error (.Exception "ValueError"
        ("invalid literal for int() with base 10: \x27" ++ text ++ "\x27"))

/-- `state["window"]`, as `str` writes it. -/
def windowOf (state : StateDict) : Argument := .text (state.window.getD "None")

/-- `Simulator._window_origin`. -/
def _window_origin (state : StateDict) : OnDesk (ℤ × ℤ) := do
  let output ← xdo world state [.text "getwindowgeometry", .text "--shell", windowOf state]
  let geometry ← lift (geometryOf output)
  let x ← lift (coordinate py geometry "X")
  let y ← lift (coordinate py geometry "Y")
  return (x, y)

/-- The place of a pixel of the watch: the middle of what shows it. -/
def onScreen (origin : ℤ × ℤ) (zoom : ℤ) (pixel : ℤ × ℤ) : ℤ × ℤ :=
  (origin.1 + pixel.1 * zoom + zoom / 2, origin.2 + pixel.2 * zoom + zoom / 2)

/-- `Simulator._to_screen`. -/
def _to_screen (state : StateDict) (x y : ℤ) : OnDesk (ℤ × ℤ) := do
  let origin ← _window_origin py world state
  return onScreen origin state.zoom (x, y)

/-! ## Pressing -/

def mousemove (state : StateDict) (place : ℤ × ℤ) : OnDesk Unit := do
  let _ ← xdo world state [.text "mousemove", .number place.1, .number place.2]

/-- `Simulator._press_key`. -/
def _press_key (state : StateDict) (key : String) : OnDesk Unit := do
  let _ ← xdo world state [.text "windowfocus", .text "--sync", windowOf state]
  let _ ← xdo world state [.text "keydown", .text key]
  sleep world HOLD
  let _ ← xdo world state [.text "keyup", .text key]

/-- A button that is down for a while. -/
def hold (state : StateDict) (button : String) (seconds : JsNumber) : OnDesk Unit := do
  let _ ← xdo world state [.text "mousedown", .text button]
  sleep world seconds
  let _ ← xdo world state [.text "mouseup", .text button]

/-- `Simulator._press_mouse`. -/
def _press_mouse (state : StateDict) (button : String) : OnDesk Unit :=
  hold world state button HOLD

/-- One turn of the loop of `_screen_is_off`. -/
def offAfter (off : Bool) (line : String) : Bool :=
  if "[LCD] Sleep".toList <:+: line.toList then true
  else if "[LCD] Wakeup".toList <:+: line.toList then false
  else off

/-- `Simulator._screen_is_off`. -/
def _screen_is_off : OnDesk Bool := of fun log => match world.stdout log with
  | .ok none => (.ok false, log)
  | .ok (some text) => (.ok ((splitlines text).foldl offAfter false), log)
  | .error error => (.error error, log)

/-! ## Commands -/

/-- What `awake` does to a screen that is off. -/
def wake (state : StateDict) (settle : JsNumber) : OnDesk Unit := do
  let place ← _to_screen py world state 120 120
  mousemove world state place
  _press_mouse world state "3"
  sleep world settle

/-- `Simulator.awake`. -/
def awake (settle : JsNumber) : OnDesk Bool := do
  let state ← load_state world
  let off ← _screen_is_off world
  if off then
    wake py world state settle
    return true
  else return false

/-- `Simulator.tap`. -/
def tap (x y : ℤ) (settle : JsNumber) : OnDesk Unit := do
  let state ← load_state world
  let place ← _to_screen py world state x y
  mousemove world state place
  _press_mouse world state "1"
  sleep world settle

/-- `int(start + (end - start) * fraction)`. -/
def along (start stop : ℤ) (fraction : ℚ) : Except PyExc ℤ := do
  let way ← double (stop - start : ℤ) TOO_LARGE
  let step ← double (way * fraction) NOT_AN_INT
  let base ← double start TOO_LARGE
  let place ← double (base + step) NOT_AN_INT
  return trunc place

/-- One turn of the loop of `drag`. -/
def dragTurn (state : StateDict) (start stop : ℤ × ℤ) (steps : ℤ) (index : ℕ) :
    OnDesk Unit := do
  let fraction ← lift (double (index / steps) DIVISION)
  let x ← lift (along start.1 stop.1 fraction)
  let y ← lift (along start.2 stop.2 fraction)
  mousemove world state (x, y)
  sleep world (JsNumber.round (4 / 100))

/-- `Simulator.drag`. -/
def drag (x1 y1 x2 y2 steps : ℤ) (settle : JsNumber) : OnDesk Unit := do
  let state ← load_state world
  let start ← _to_screen py world state x1 y1
  let stop ← _to_screen py world state x2 y2
  mousemove world state start
  let _ ← xdo world state [.text "mousedown", .text "1"]
  sleep world (JsNumber.round (5 / 100))
  (List.range' 1 steps.toNat).forM (dragTurn world state start stop steps)
  let _ ← xdo world state [.text "mouseup", .text "1"]
  sleep world settle

/-- `Simulator.swipe`. -/
def swipe (direction : String) (settle : JsNumber) : OnDesk Unit := do
  let state ← load_state world
  _press_key world state (py.capitalize direction)
  sleep world settle

/-- How long `button` holds the button: the time that is asked for, unless it is zero. -/
def holdTime : Option ℤ → Except PyExc JsNumber
  | none => .ok HOLD
  | some milliseconds =>
    if milliseconds = 0 then .ok HOLD
    else (double (milliseconds / 1000) DIVISION).map .finite

/-- `Simulator.button`. The division is made when the button is down. -/
def button (milliseconds : Option ℤ) (settle : JsNumber) : OnDesk Unit := do
  let state ← load_state world
  let place ← _to_screen py world state 120 120
  mousemove world state place
  let _ ← xdo world state [.text "mousedown", .text "3"]
  let seconds ← lift (holdTime milliseconds)
  sleep world seconds
  let _ ← xdo world state [.text "mouseup", .text "3"]
  sleep world settle

/-- The keysym of a character. -/
def keysym (character : Char) : String :=
  if py.isupper character then "shift+" ++ py.lower character else String.singleton character

/-- One turn of the loop of `key`. -/
def keyTurn (state : StateDict) (character : Char) : OnDesk Unit := do
  _press_key world state (keysym py character)
  sleep world (JsNumber.round (5 / 100))

/-- `Simulator.key`. -/
def key (name : String) (settle : JsNumber) : OnDesk String := do
  let state ← load_state world
  let translated := (EVENTS.lookup name).getD name
  translated.toList.forM (keyTurn py world state)
  sleep world settle
  return translated

/-- A command of the desk. -/
inductive Command where
  | awake (settle : JsNumber)
  | tap (x y : ℤ) (settle : JsNumber)
  | drag (x1 y1 x2 y2 steps : ℤ) (settle : JsNumber)
  | swipe (direction : String) (settle : JsNumber)
  | button (milliseconds : Option ℤ) (settle : JsNumber)
  | key (name : String) (settle : JsNumber)
  deriving DecidableEq, Repr

/-- A command, without what it returns. -/
def run : Command → OnDesk Unit
  | .awake settle => do let _ ← awake py world settle
  | .tap x y settle => tap py world x y settle
  | .drag x1 y1 x2 y2 steps settle => drag py world x1 y1 x2 y2 steps settle
  | .swipe direction settle => swipe py world direction settle
  | .button milliseconds settle => button py world milliseconds settle
  | .key name settle => do let _ ← key py world name settle

end Commands

/-- Commands one after another, each in a world of its own: how many of them failed, and
what was done. -/
def session (py : Builtins) : List (World × Command) → Log → ℕ × Log
  | [], log => (0, log)
  | (world, command) :: runs, log =>
    match (run py world command).exec log with
    | (.ok (), log') => session py runs log'
    | (.error _, log') => ((session py runs log').1 + 1, (session py runs log').2)

/-! ## What is down -/

/-- A key or a button of a display. A key is what one request presses: the two of a chord
such as `shift+r` go down and up together and count as one. -/
inductive Held where
  | key (display keysym : String)
  | mouse (display button : String)
  deriving DecidableEq, Repr

/-- What is down after one more happening. A failed request to press may have pressed, a
failed one to release need not have released. -/
def downAfter (down : Finset Held) : Happening → Finset Held
  | .ran display [.text "keydown", .text keysym] _ => insert (.key display keysym) down
  | .ran display [.text "mousedown", .text button] _ => insert (.mouse display button) down
  | .ran display [.text "keyup", .text keysym] true => down.erase (.key display keysym)
  | .ran display [.text "mouseup", .text button] true => down.erase (.mouse display button)
  | _ => down

/-- What is down after all that was done. -/
def held (log : Log) : Finset Held := log.foldl downAfter ∅

theorem held_append (log : Log) (happening : Happening) :
    held (log ++ [happening]) = downAfter (held log) happening := List.foldl_concat ..

/-- What has been done changes nothing that is down. -/
def Neutral (happening : Happening) : Prop := ∀ down, downAfter down happening = down

/-- Never were more than `n` things down. -/
def AtMost (n : ℕ) (log : Log) : Prop := ∀ moment, moment <+: log → (held moment).card ≤ n

theorem AtMost.append {n : ℕ} {log : Log} (h : AtMost n log) {happening : Happening}
    (hcard : (held (log ++ [happening])).card ≤ n) : AtMost n (log ++ [happening]) := by
  intro moment hmoment
  rcases List.prefix_concat_iff.mp hmoment with rfl | hbefore
  · exact hcard
  · exact h moment hbefore

theorem AtMost.mono {n n' : ℕ} {log : Log} (h : AtMost n log) (hle : n ≤ n') : AtMost n' log :=
  fun moment hmoment => (h moment hmoment).trans hle

/-- Only things of `down`, at most `n`, and `extra` are down, and never were more than
`n + 1`. -/
structure Within (n : ℕ) (down extra : Finset Held) (log : Log) : Prop where
  card : down.card ≤ n
  now : held log ⊆ down ∪ extra
  always : AtMost (n + 1) log

section Rules

variable {world : World} {py : Builtins} {n : ℕ} {down extra : Finset Held}

theorem Within.append {log : Log} (h : Within n down extra log) {happening : Happening}
    {extra' : Finset Held} (hcard : extra'.card ≤ 1)
    (hnow : held (log ++ [happening]) ⊆ down ∪ extra') :
    Within n down extra' (log ++ [happening]) := by
  refine ⟨h.card, hnow, h.always.append ?_⟩
  calc (held (log ++ [happening])).card ≤ (down ∪ extra').card := Finset.card_le_card hnow
    _ ≤ down.card + extra'.card := Finset.card_union_le ..
    _ ≤ n + 1 := Nat.add_le_add h.card hcard

theorem Within.neutral {log : Log} (h : Within n down extra log) (hcard : extra.card ≤ 1)
    {happening : Happening} (hneutral : Neutral happening) :
    Within n down extra (log ++ [happening]) := by
  refine h.append hcard ?_
  rw [held_append, hneutral]
  exact h.now

/-- What a command that failed leaves: of the things it pressed, at most one is down. -/
def Failed (n : ℕ) (down : Finset Held) (log : Log) : Prop :=
  ∃ extra : Finset Held, extra.card ≤ 1 ∧ Within n down extra log

/-- A step of a command takes what is down from `extra` to `extra'`. -/
def Steps {α : Type} (n : ℕ) (down extra : Finset Held) (m : OnDesk α)
    (extra' : Finset Held) : Prop :=
  Triple (Within n down extra) m (fun _ => Within n down extra') fun _ => Failed n down

theorem steps_pure {α : Type} (a : α) : Steps n down extra (pure a) extra :=
  triple_pure fun _ h => h

theorem steps_bind {α β : Type} {extra' extra'' : Finset Held} {m : OnDesk α}
    {f : α → OnDesk β} (hm : Steps n down extra m extra')
    (hf : ∀ a, Steps n down extra' (f a) extra'') : Steps n down extra (m >>= f) extra'' :=
  triple_bind hm hf

/-- Without xdotool nothing is pressed. -/
theorem steps_silent {α : Type} {f : Log → Except PyExc α × Log} (hcard : extra.card ≤ 1)
    (hf : ∀ log, (f log).2 = log ∨ ∃ happening, Neutral happening ∧ (f log).2 = log ++ [happening]) :
    Steps n down extra (of f) extra := by
  intro log h
  have hfinal : Within n down extra (f log).2 := by
    rcases hf log with hlog | ⟨happening, hneutral, hlog⟩
    · rwa [hlog]
    · rw [hlog]
      exact h.neutral hcard hneutral
  rw [exec_of]
  rcases hrun : f log with ⟨error | a, log'⟩
  · rw [hrun] at hfinal
    exact ⟨extra, hcard, hfinal⟩
  · rw [hrun] at hfinal
    exact hfinal

theorem steps_lift {α : Type} (outcome : Except PyExc α) (hcard : extra.card ≤ 1) :
    Steps n down extra (lift outcome) extra :=
  steps_silent hcard fun _ => .inl rfl

theorem steps_sleep (seconds : JsNumber) (hcard : extra.card ≤ 1) :
    Steps n down extra (sleep world seconds) extra := by
  cases seconds with
  | nan => exact steps_silent hcard fun _ => .inl rfl
  | infinity negative => exact steps_silent hcard fun _ => .inl rfl
  | finite seconds =>
      unfold sleep
      dsimp only
      split_ifs
      · exact steps_silent hcard fun _ => .inl rfl
      · refine steps_silent hcard fun log => .inr ⟨.slept seconds, fun _ => rfl, ?_⟩
        rcases world.sleep log seconds with _ | error <;> rfl

/-- **The rule of `xdo`**: what the request does, and what it may do if it fails. -/
theorem steps_xdo {state : StateDict} {arguments : List Argument} {extra' : Finset Held}
    (hcard : extra.card ≤ 1) (hcard' : extra'.card ≤ 1)
    (hreturn : ∀ now, now ⊆ down ∪ extra →
      downAfter now (.ran (displayOf state) arguments true) ⊆ down ∪ extra')
    (hfail : ∀ now, now ⊆ down ∪ extra →
      downAfter now (.ran (displayOf state) arguments false) ⊆ down ∪ extra ∨
      downAfter now (.ran (displayOf state) arguments false) ⊆ down ∪ extra') :
    Steps n down extra (xdo world state arguments) extra' := by
  intro log h
  unfold xdo
  rw [exec_of]
  rcases world.xdotool log (displayOf state) (arguments.map Argument.str) with error | stdout
  · rcases hfail (held log) h.now with hnow | hnow
    · exact ⟨extra, hcard, h.append hcard (by rw [held_append]; exact hnow)⟩
    · exact ⟨extra', hcard', h.append hcard' (by rw [held_append]; exact hnow)⟩
  · exact h.append hcard' (by rw [held_append]; exact hreturn (held log) h.now)

theorem steps_ask {state : StateDict} {arguments : List Argument} (hcard : extra.card ≤ 1)
    (hneutral : ∀ returned, Neutral (.ran (displayOf state) arguments returned)) :
    Steps n down extra (xdo world state arguments) extra :=
  steps_xdo hcard hcard (fun now h => by rwa [hneutral]) fun now h => .inl (by rwa [hneutral])

/-- What is pressed. -/
theorem steps_press {state : StateDict} {arguments : List Argument} {thing : Held}
    (hpress : ∀ now returned,
      downAfter now (.ran (displayOf state) arguments returned) = insert thing now) :
    Steps n down ∅ (xdo world state arguments) {thing} := by
  have hinsert : ∀ now, now ⊆ down ∪ ∅ → ∀ returned,
      downAfter now (.ran (displayOf state) arguments returned) ⊆ down ∪ {thing} := by
    intro now h returned
    rw [hpress, Finset.union_comm, ← Finset.insert_eq]
    rw [Finset.union_empty] at h
    exact Finset.insert_subset_insert _ h
  exact steps_xdo (by simp) (by simp) (fun now h => hinsert now h true)
    fun now h => .inr (hinsert now h false)

/-- What is released. -/
theorem steps_release {state : StateDict} {arguments : List Argument} {thing : Held}
    (hreturn : ∀ now, downAfter now (.ran (displayOf state) arguments true) = now.erase thing)
    (hfail : ∀ now, downAfter now (.ran (displayOf state) arguments false) = now) :
    Steps n down {thing} (xdo world state arguments) ∅ := by
  refine steps_xdo (by simp) (by simp) (fun now h => ?_) fun now h => .inl (by rwa [hfail])
  rw [hreturn, Finset.union_empty, ← Finset.subset_insert_iff, Finset.insert_eq,
    Finset.union_comm]
  exact h

/-! ## Commands -/

theorem steps_load_state (hcard : extra.card ≤ 1) :
    Steps n down extra (load_state world) extra := by
  refine steps_silent hcard fun log => .inl ?_
  rcases world.state log with error | _ | state <;> rfl

theorem steps_screen_is_off (hcard : extra.card ≤ 1) :
    Steps n down extra (_screen_is_off world) extra := by
  refine steps_silent hcard fun log => .inl ?_
  rcases world.stdout log with error | _ | text <;> rfl

theorem steps_getwindowgeometry (state : StateDict) (hcard : extra.card ≤ 1) :
    Steps n down extra
      (xdo world state [.text "getwindowgeometry", .text "--shell", windowOf state]) extra :=
  steps_ask hcard fun _ _ => rfl

theorem steps_to_screen (state : StateDict) (x y : ℤ) (hcard : extra.card ≤ 1) :
    Steps n down extra (_to_screen py world state x y) extra := by
  have horigin : Steps n down extra (_window_origin py world state) extra := by
    unfold _window_origin
    refine steps_bind (steps_getwindowgeometry state hcard) fun output => ?_
    -- left as a term of `lift`, the parsing is evaluated when the rule is unified
    generalize geometryOf output = parsed
    refine steps_bind (steps_lift parsed hcard) fun geometry => ?_
    refine steps_bind (steps_lift (coordinate py geometry "X") hcard) fun x => ?_
    exact steps_bind (steps_lift (coordinate py geometry "Y") hcard) fun y => steps_pure (x, y)
  exact steps_bind horigin fun _ => steps_pure _

theorem steps_mousemove (state : StateDict) (place : ℤ × ℤ) (hcard : extra.card ≤ 1) :
    Steps n down extra (mousemove world state place) extra :=
  steps_bind (steps_ask hcard fun _ _ => rfl) fun _ => steps_pure _

theorem steps_keydown (state : StateDict) (keysym : String) :
    Steps n down ∅ (xdo world state [.text "keydown", .text keysym])
      {.key (displayOf state) keysym} :=
  steps_press fun _ _ => rfl

/-- What is pressed is released. -/
theorem steps_press_key (state : StateDict) (keysym : String) :
    Steps n down ∅ (_press_key world state keysym) ∅ := by
  refine steps_bind (steps_ask (by simp) fun _ _ => rfl) fun _ => ?_
  refine steps_bind (steps_keydown state keysym) fun _ => ?_
  refine steps_bind (steps_sleep _ (by simp)) fun _ => ?_
  exact steps_bind (steps_release (fun _ => rfl) fun _ => rfl) fun _ => steps_pure _

theorem steps_mousedown (state : StateDict) (name : String) :
    Steps n down ∅ (xdo world state [.text "mousedown", .text name])
      {.mouse (displayOf state) name} :=
  steps_press fun _ _ => rfl

theorem steps_mouseup (state : StateDict) (name : String) :
    Steps n down {.mouse (displayOf state) name}
      (xdo world state [.text "mouseup", .text name]) ∅ :=
  steps_release (fun _ => rfl) fun _ => rfl

theorem steps_hold (state : StateDict) (name : String) (seconds : JsNumber) :
    Steps n down ∅ (hold world state name seconds) ∅ :=
  steps_bind (steps_mousedown state name) fun _ =>
    steps_bind (steps_sleep seconds (by simp)) fun _ =>
      steps_bind (steps_mouseup state name) fun _ => steps_pure _

theorem steps_awake (settle : JsNumber) : Steps n down ∅ (awake py world settle) ∅ := by
  have hwake : ∀ state, Steps n down ∅ (wake py world state settle) ∅ := fun state =>
    steps_bind (steps_to_screen state 120 120 (by simp)) fun place =>
      steps_bind (steps_mousemove state place (by simp)) fun _ =>
        steps_bind (steps_hold state "3" HOLD) fun _ => steps_sleep settle (by simp)
  unfold awake
  refine steps_bind (steps_load_state (by simp)) fun state => ?_
  refine steps_bind (steps_screen_is_off (by simp)) fun off => ?_
  cases off with
  | true => exact steps_bind (hwake state) fun _ => steps_pure _
  | false => exact steps_pure _

theorem steps_tap (x y : ℤ) (settle : JsNumber) : Steps n down ∅ (tap py world x y settle) ∅ :=
  steps_bind (steps_load_state (by simp)) fun state =>
    steps_bind (steps_to_screen state x y (by simp)) fun place =>
      steps_bind (steps_mousemove state place (by simp)) fun _ =>
        steps_bind (steps_hold state "1" HOLD) fun _ => steps_sleep settle (by simp)

/-- The turns of a drag keep the button down. -/
theorem steps_dragTurns (state : StateDict) (start stop : ℤ × ℤ) (steps : ℤ)
    (hcard : extra.card ≤ 1) (turns : List ℕ) :
    Steps n down extra (turns.forM (dragTurn world state start stop steps)) extra :=
  triple_forM fun _ _ =>
    steps_bind (steps_lift _ hcard) fun _ => steps_bind (steps_lift _ hcard) fun _ =>
      steps_bind (steps_lift _ hcard) fun _ =>
        steps_bind (steps_mousemove state _ hcard) fun _ => steps_sleep _ hcard

theorem steps_drag (x1 y1 x2 y2 steps : ℤ) (settle : JsNumber) :
    Steps n down ∅ (drag py world x1 y1 x2 y2 steps settle) ∅ := by
  unfold drag
  refine steps_bind (steps_load_state (by simp)) fun state => ?_
  refine steps_bind (steps_to_screen state x1 y1 (by simp)) fun start => ?_
  refine steps_bind (steps_to_screen state x2 y2 (by simp)) fun stop => ?_
  refine steps_bind (steps_mousemove state start (by simp)) fun _ => ?_
  refine steps_bind (steps_mousedown state "1") fun _ => ?_
  refine steps_bind (steps_sleep _ (by simp)) fun _ => ?_
  refine steps_bind (steps_dragTurns state start stop steps (by simp) _) fun _ => ?_
  exact steps_bind (steps_mouseup state "1") fun _ => steps_sleep settle (by simp)

theorem steps_swipe (direction : String) (settle : JsNumber) :
    Steps n down ∅ (swipe py world direction settle) ∅ :=
  steps_bind (steps_load_state (by simp)) fun state =>
    steps_bind (steps_press_key state _) fun _ => steps_sleep settle (by simp)

theorem steps_button (milliseconds : Option ℤ) (settle : JsNumber) :
    Steps n down ∅ (button py world milliseconds settle) ∅ := by
  unfold button
  refine steps_bind (steps_load_state (by simp)) fun state => ?_
  refine steps_bind (steps_to_screen state 120 120 (by simp)) fun place => ?_
  refine steps_bind (steps_mousemove state place (by simp)) fun _ => ?_
  refine steps_bind (steps_mousedown state "3") fun _ => ?_
  refine steps_bind (steps_lift _ (by simp)) fun seconds => ?_
  refine steps_bind (steps_sleep seconds (by simp)) fun _ => ?_
  exact steps_bind (steps_mouseup state "3") fun _ => steps_sleep settle (by simp)

theorem steps_key (name : String) (settle : JsNumber) :
    Steps n down ∅ (key py world name settle) ∅ := by
  have hturn : ∀ state character, Steps n down ∅ (keyTurn py world state character) ∅ :=
    fun state character =>
      steps_bind (steps_press_key state _) fun _ => steps_sleep _ (by simp)
  unfold key
  refine steps_bind (steps_load_state (by simp)) fun state => ?_
  refine steps_bind (triple_forM fun character _ => hturn state character) fun _ => ?_
  exact steps_bind (steps_sleep settle (by simp)) fun _ => steps_pure _

/-- **A command** that returns leaves nothing new down, and one that fails one thing. -/
theorem steps_run (command : Command) : Steps n down ∅ (run py world command) ∅ := by
  cases command with
  | awake settle => exact steps_bind (steps_awake settle) fun _ => steps_pure _
  | tap x y settle => exact steps_tap x y settle
  | drag x1 y1 x2 y2 steps settle => exact steps_drag x1 y1 x2 y2 steps settle
  | swipe direction settle => exact steps_swipe direction settle
  | button milliseconds settle => exact steps_button milliseconds settle
  | key name settle => exact steps_bind (steps_key name settle) fun _ => steps_pure _

end Rules

/-- What commands do to a desk on which `n` things may be down. -/
theorem session_from (py : Builtins) (runs : List (World × Command)) :
    ∀ (n : ℕ) (log : Log), (held log).card ≤ n → AtMost (n + 1) log →
      (held (session py runs log).2).card ≤ (session py runs log).1 + n ∧
        AtMost ((session py runs log).1 + n + 1) (session py runs log).2 := by
  induction runs with
  | nil =>
      intro n log hcard hall
      rw [session, Nat.zero_add]
      exact ⟨hcard, hall⟩
  | cons first runs ih =>
      obtain ⟨world, command⟩ := first
      intro n log hcard hall
      have hstart : Within n (held log) ∅ log := ⟨hcard, by rw [Finset.union_empty], hall⟩
      rw [session]
      rcases hrun : (run py world command).exec log with ⟨error | ⟨⟩, log'⟩
      · obtain ⟨extra, hextra, hwithin⟩ := (steps_run command).of_error hstart hrun
        have hcard' : (held log').card ≤ n + 1 :=
          calc (held log').card ≤ (held log ∪ extra).card := Finset.card_le_card hwithin.now
            _ ≤ (held log).card + extra.card := Finset.card_union_le ..
            _ ≤ n + 1 := Nat.add_le_add hcard hextra
        have hlater := ih (n + 1) log' hcard' (hwithin.always.mono (by omega))
        rwa [← Nat.add_assoc, Nat.add_right_comm] at hlater
      · have hwithin := (steps_run command).of_ok hstart hrun
        have hnow := hwithin.now
        rw [Finset.union_empty] at hnow
        exact ih n log' ((Finset.card_le_card hnow).trans hcard) hwithin.always

/-- **Input.** After any commands, in whatever worlds and however they end, no more keys and
buttons are down than commands have failed, and at no moment more than one beyond those. In
particular commands that all return leave nothing down. -/
theorem input_session (py : Builtins) (runs : List (World × Command)) :
    (held (session py runs []).2).card ≤ (session py runs []).1 ∧
      AtMost ((session py runs []).1 + 1) (session py runs []).2 := by
  have hempty : AtMost 1 [] := by
    intro moment hmoment
    rw [List.prefix_nil.mp hmoment]
    exact Nat.zero_le _
  have hfrom := session_from py runs 0 [] (Nat.zero_le _) hempty
  exact hfrom

/-! ## The way of a drag -/

def SCREEN : ℤ := 240

/-- Where a happening has moved the pointer to. -/
def Happening.move? : Happening → Option (ℤ × ℤ)
  | .ran _ [.text "mousemove", .number x, .number y] true => some (x, y)
  | _ => none

/-- Where the pointer was moved to, one place after another. -/
def positions (log : Log) : List (ℤ × ℤ) := log.filterMap Happening.move?

/-- Where `along` ends, if nothing is too large for it. -/
def placeAt (start stop : ℤ) (fraction : ℚ) : ℤ :=
  trunc (rounded (rounded start + rounded (rounded (stop - start : ℤ) * fraction)))

/-- The place of a turn. -/
def turnPlace (start stop : ℤ × ℤ) (steps : ℤ) (index : ℕ) : ℤ × ℤ :=
  (placeAt start.1 stop.1 (rounded (index / steps)),
    placeAt start.2 stop.2 (rounded (index / steps)))

/-- Coordinates whose differences a double has. -/
def Small (place : ℤ × ℤ) : Prop := |place.1| < 2 ^ 52 ∧ |place.2| < 2 ^ 52

/-- On the way from `p` to `stop`, in both coordinates. -/
def Toward (stop p q : ℤ × ℤ) : Prop :=
  q.1 ∈ Set.uIcc p.1 stop.1 ∧ q.2 ∈ Set.uIcc p.2 stop.2

/-- A pixel of the watch. -/
def OnWatch (pixel : ℤ × ℤ) : Prop :=
  (0 ≤ pixel.1 ∧ pixel.1 < SCREEN) ∧ 0 ≤ pixel.2 ∧ pixel.2 < SCREEN

/-- A place in the window. -/
def InWindow (origin : ℤ × ℤ) (zoom : ℤ) (place : ℤ × ℤ) : Prop :=
  (origin.1 ≤ place.1 ∧ place.1 < origin.1 + SCREEN * zoom) ∧
    origin.2 ≤ place.2 ∧ place.2 < origin.2 + SCREEN * zoom

section Way

/-! ### One coordinate -/

theorem small_difference {start stop : ℤ} (hstart : |start| < 2 ^ 52) (hstop : |stop| < 2 ^ 52) :
    |start| < 2 ^ 53 ∧ |stop| < 2 ^ 53 ∧ |stop - start| < 2 ^ 53 := by
  have htri := abs_sub stop start
  omega

variable {start stop : ℤ}

/-- The sum that is cut to an integer. -/
theorem placeAt_eq (hstart : |start| < 2 ^ 52) (hstop : |stop| < 2 ^ 52) (fraction : ℚ) :
    placeAt start stop fraction =
      trunc (rounded (start + rounded ((stop - start : ℤ) * fraction))) := by
  obtain ⟨hbase, -, hway⟩ := small_difference hstart hstop
  unfold placeAt
  rw [rounded_intCast hbase, rounded_intCast hway]

theorem placeAt_zero (hstart : |start| < 2 ^ 52) (hstop : |stop| < 2 ^ 52) :
    placeAt start stop 0 = start := by
  obtain ⟨hbase, -, -⟩ := small_difference hstart hstop
  have hzero : rounded 0 = 0 := by
    have hcast := rounded_intCast (n := 0) (by norm_num)
    simpa using hcast
  rw [placeAt_eq hstart hstop, mul_zero, hzero, add_zero, rounded_intCast hbase, trunc_intCast]

theorem placeAt_one (hstart : |start| < 2 ^ 52) (hstop : |stop| < 2 ^ 52) :
    placeAt start stop 1 = stop := by
  obtain ⟨-, hend, hway⟩ := small_difference hstart hstop
  have hsum : (start : ℚ) + (stop - start : ℤ) = stop := by
    push_cast
    ring
  rw [placeAt_eq hstart hstop, mul_one, rounded_intCast hway, hsum, rounded_intCast hend,
    trunc_intCast]

/-- **The way has one direction**: every operation keeps the order of the fractions, or
turns it around if the way goes down. -/
theorem placeAt_mono (hstart : |start| < 2 ^ 52) (hstop : |stop| < 2 ^ 52) {f g : ℚ}
    (hfg : f ≤ g) (hle : start ≤ stop) : placeAt start stop f ≤ placeAt start stop g := by
  have hway : (0 : ℚ) ≤ (stop - start : ℤ) := Int.cast_nonneg (sub_nonneg.mpr hle)
  rw [placeAt_eq hstart hstop, placeAt_eq hstart hstop]
  apply trunc_mono
  apply rounded_mono
  apply add_le_add_right
  apply rounded_mono
  exact mul_le_mul_of_nonneg_left hfg hway

theorem placeAt_anti (hstart : |start| < 2 ^ 52) (hstop : |stop| < 2 ^ 52) {f g : ℚ}
    (hfg : f ≤ g) (hle : stop ≤ start) : placeAt start stop g ≤ placeAt start stop f := by
  have hway : ((stop - start : ℤ) : ℚ) ≤ 0 := Int.cast_nonpos.mpr (sub_nonpos.mpr hle)
  rw [placeAt_eq hstart hstop, placeAt_eq hstart hstop]
  apply trunc_mono
  apply rounded_mono
  apply add_le_add_right
  apply rounded_mono
  exact mul_le_mul_of_nonpos_left hfg hway

/-- What comes later lies between what comes before and the end. -/
theorem placeAt_toward (hstart : |start| < 2 ^ 52) (hstop : |stop| < 2 ^ 52) {f g : ℚ}
    (hfg : f ≤ g) (hg : g ≤ 1) :
    placeAt start stop g ∈ Set.uIcc (placeAt start stop f) stop := by
  have hend := placeAt_one hstart hstop
  rcases le_total start stop with hle | hle
  · have hlast := placeAt_mono hstart hstop hg hle
    rw [hend] at hlast
    exact Set.mem_uIcc_of_le (placeAt_mono hstart hstop hfg hle) hlast
  · have hlast := placeAt_anti hstart hstop hg hle
    rw [hend] at hlast
    exact Set.mem_uIcc_of_ge hlast (placeAt_anti hstart hstop hfg hle)

/-! ### The turns -/

variable {start stop : ℤ × ℤ} {steps : ℤ}

theorem fraction_mono (n : ℕ) {i j : ℕ} (hij : i ≤ j) :
    rounded (i / (n : ℤ)) ≤ rounded (j / (n : ℤ)) := by
  apply rounded_mono
  exact div_le_div_of_nonneg_right (Nat.cast_le.mpr hij)
    (Int.cast_nonneg (Int.natCast_nonneg n))

theorem rounded_one : rounded 1 = 1 := by
  have hcast := rounded_intCast (n := 1) (by norm_num)
  simpa using hcast

theorem fraction_last {n : ℕ} (hn : 0 < n) : rounded ((n : ℚ) / ((n : ℤ) : ℚ)) = 1 := by
  have hne : ((n : ℤ) : ℚ) ≠ 0 := by
    rw [Int.cast_natCast]
    exact Nat.cast_ne_zero.mpr hn.ne'
  rw [← Int.cast_natCast (R := ℚ), div_self hne, rounded_one]

theorem fraction_zero : rounded (((0 : ℕ) : ℚ) / steps) = 0 := by
  have hcast := rounded_intCast (n := 0) (by norm_num)
  simpa using hcast

theorem turnPlace_zero (hstart : Small start) (hstop : Small stop) :
    turnPlace start stop steps 0 = start := by
  unfold turnPlace
  rw [fraction_zero, placeAt_zero hstart.1 hstop.1, placeAt_zero hstart.2 hstop.2]

theorem turnPlace_last (hstart : Small start) (hstop : Small stop) {n : ℕ} (hn : 0 < n) :
    turnPlace start stop n n = stop := by
  unfold turnPlace
  rw [fraction_last hn, placeAt_one hstart.1 hstop.1, placeAt_one hstart.2 hstop.2]

theorem turnPlace_toward (hstart : Small start) (hstop : Small stop) {n i j : ℕ} (hij : i ≤ j)
    (hj : j ≤ n) :
    Toward stop (turnPlace start stop n i) (turnPlace start stop n j) := by
  rcases Nat.eq_zero_or_pos n with rfl | hn
  · obtain rfl : i = j := by omega
    exact ⟨Set.left_mem_uIcc, Set.left_mem_uIcc⟩
  · have hfg := fraction_mono n hij
    have hg := fraction_mono n hj
    rw [fraction_last hn] at hg
    exact ⟨placeAt_toward hstart.1 hstop.1 hfg hg, placeAt_toward hstart.2 hstop.2 hfg hg⟩

/-- The turns of a drag, and the place where it starts. -/
theorem way_toward (hstart : Small start) (hstop : Small stop) (n : ℕ) :
    (start :: (List.range' 1 n).map (turnPlace start stop n)).Pairwise (Toward stop) := by
  have hall : start :: (List.range' 1 n).map (turnPlace start stop n) =
      (List.range (n + 1)).map (turnPlace start stop n) := by
    rw [List.range_eq_range', List.range'_succ, List.map_cons, turnPlace_zero hstart hstop]
  rw [hall, List.pairwise_map]
  refine List.Pairwise.imp_of_mem ?_ List.pairwise_lt_range
  intro i j _ hj hlt
  exact turnPlace_toward hstart hstop hlt.le (Nat.le_of_lt_succ (List.mem_range.mp hj))

theorem way_last (hstart : Small start) (hstop : Small stop) {n : ℕ} (hn : 0 < n) :
    ((List.range' 1 n).map (turnPlace start stop n)).getLast? = some stop := by
  obtain ⟨k, rfl⟩ := Nat.exists_eq_succ_of_ne_zero hn.ne'
  rw [List.range'_concat, List.map_append, List.map_singleton, List.getLast?_concat,
    Nat.one_mul, Nat.add_comm 1 k, turnPlace_last hstart hstop hn]

/-! ### The window -/

theorem onScreen_inWindow (origin : ℤ × ℤ) {pixel : ℤ × ℤ} {zoom : ℤ} (hzoom : 1 ≤ zoom)
    (hpixel : OnWatch pixel) : InWindow origin zoom (onScreen origin zoom pixel) := by
  have hone : ∀ o c : ℤ, 0 ≤ c → c < SCREEN →
      o ≤ o + c * zoom + zoom / 2 ∧ o + c * zoom + zoom / 2 < o + SCREEN * zoom := by
    intro o c hlow hhigh
    unfold SCREEN at hhigh ⊢
    have hfirst : 0 ≤ c * zoom := Int.mul_nonneg hlow (by omega)
    have hlast : c * zoom ≤ 239 * zoom := Int.mul_le_mul_of_nonneg_right (by omega) (by omega)
    omega
  exact ⟨hone origin.1 pixel.1 hpixel.1.1 hpixel.1.2, hone origin.2 pixel.2 hpixel.2.1 hpixel.2.2⟩

/-- A window has everything that lies between two of its places. -/
theorem InWindow.between {origin p q stop : ℤ × ℤ} {zoom : ℤ} (hp : InWindow origin zoom p)
    (hstop : InWindow origin zoom stop) (h : Toward stop p q) : InWindow origin zoom q := by
  obtain ⟨hx, hy⟩ := h
  rw [Set.mem_uIcc] at hx hy
  unfold InWindow at hp hstop ⊢
  omega

end Way

/-! ### The moves -/

/-- A computation that returns has moved the pointer to `places`. -/
def Moves {α : Type} (m : OnDesk α) (places : List (ℤ × ℤ)) : Prop :=
  ∀ log a log', m.exec log = (.ok a, log') → positions log' = positions log ++ places

section Moves

variable {py : Builtins} {world : World}

theorem moves_bind {α β : Type} {m : OnDesk α} {f : α → OnDesk β} {places places' : List (ℤ × ℤ)}
    (hm : Moves m places) (hf : ∀ a, Moves (f a) places') :
    Moves (m >>= f) (places ++ places') := by
  intro log b log' h
  obtain ⟨a, between, hfirst, hsecond⟩ := exec_bind_ok.mp h
  rw [hf a between b log' hsecond, hm log a between hfirst, List.append_assoc]

theorem positions_append (log : Log) (happening : Happening) :
    positions (log ++ [happening]) = positions log ++ happening.move?.toList := by
  unfold positions
  rw [List.filterMap_append]
  cases hmove : happening.move? with
  | none => rw [List.filterMap_cons_none hmove, List.filterMap_nil, Option.toList_none]
  | some place => rw [List.filterMap_cons_some hmove, List.filterMap_nil, Option.toList_some]

theorem moves_xdo {state : StateDict} {arguments : List Argument} {places : List (ℤ × ℤ)}
    (h : (Happening.ran (displayOf state) arguments true).move?.toList = places) :
    Moves (xdo world state arguments) places := by
  intro log a log' hrun
  unfold xdo at hrun
  rw [exec_of] at hrun
  rcases hreply : world.xdotool log (displayOf state) (arguments.map Argument.str) with e | stdout
  · rw [hreply] at hrun
    cases hrun
  · rw [hreply] at hrun
    obtain ⟨-, rfl⟩ := Prod.mk.inj hrun
    rw [positions_append, h]

theorem moves_mousemove (state : StateDict) (place : ℤ × ℤ) :
    Moves (mousemove world state place) [place] := by
  have hpure : Moves (pure () : OnDesk Unit) [] := by
    intro log a log' h
    obtain ⟨-, rfl⟩ := exec_pure_ok.mp h
    exact (List.append_nil _).symm
  exact moves_bind (moves_xdo rfl) fun _ => hpure

theorem moves_sleep (seconds : JsNumber) : Moves (sleep world seconds) [] := by
  intro log a log' h
  cases seconds with
  | nan => cases h
  | infinity negative => cases h
  | finite seconds =>
      unfold sleep at h
      dsimp only at h
      split_ifs at h
      · cases h
      · rw [exec_of] at h
        rcases hclock : world.sleep log seconds with _ | error
        · rw [hclock] at h
          obtain ⟨-, rfl⟩ := Prod.mk.inj h
          exact positions_append log (.slept seconds)
        · rw [hclock] at h
          cases h

theorem load_state_ok {log log' : Log} {state : StateDict}
    (h : (load_state world).exec log = (.ok state, log')) :
    world.state log = .ok (some state) ∧ log' = log := by
  unfold load_state at h
  rw [exec_of] at h
  rcases hstate : world.state log with error | _ | state'
  · rw [hstate] at h
    cases h
  · rw [hstate] at h
    cases h
  · rw [hstate] at h
    obtain ⟨hloaded, rfl⟩ := Prod.mk.inj h
    rw [Except.ok.inj hloaded]
    exact ⟨rfl, rfl⟩

/-- To look for the window moves nothing. -/
theorem moves_window_origin (state : StateDict) : Moves (_window_origin py world state) [] := by
  have hask : Moves (xdo world state
      [.text "getwindowgeometry", .text "--shell", windowOf state]) [] := moves_xdo rfl
  intro log origin log' h
  obtain ⟨output, asked, hasked, hparse⟩ := exec_bind_ok.mp h
  obtain ⟨geometry, read, hgeometry, hcoordinates⟩ := exec_bind_ok.mp hparse
  obtain ⟨x, readX, hx, hrest⟩ := exec_bind_ok.mp hcoordinates
  obtain ⟨y, readY, hy, hpair⟩ := exec_bind_ok.mp hrest
  obtain ⟨-, rfl⟩ := exec_lift_ok.mp hgeometry
  obtain ⟨-, rfl⟩ := exec_lift_ok.mp hx
  obtain ⟨-, rfl⟩ := exec_lift_ok.mp hy
  obtain ⟨-, rfl⟩ := exec_pure_ok.mp hpair
  exact hask log output asked hasked

/-- The place of a pixel, in the window where it is found. -/
theorem to_screen_ok {state : StateDict} {x y : ℤ} {log log' : Log} {place : ℤ × ℤ}
    (h : (_to_screen py world state x y).exec log = (.ok place, log')) :
    (∃ origin, (_window_origin py world state).exec log = (.ok origin, log') ∧
      place = onScreen origin state.zoom (x, y)) ∧ positions log' = positions log := by
  obtain ⟨origin, middle, horigin, hplace⟩ := exec_bind_ok.mp h
  obtain ⟨rfl, rfl⟩ := exec_pure_ok.mp hplace
  refine ⟨⟨origin, horigin, rfl⟩, ?_⟩
  rw [moves_window_origin state log origin middle horigin, List.append_nil]

theorem double_ok {q r : ℚ} {overflow : String} (h : double q overflow = .ok r) :
    r = rounded q := by
  unfold double at h
  rcases hround : JsNumber.round q with _ | negative | r'
  · rw [hround] at h
    cases h
  · rw [hround] at h
    cases h
  · rw [hround] at h
    rw [← Except.ok.inj h]
    exact rounded_of_round hround

theorem bind_ok {α β : Type} {x : Except PyExc α} {f : α → Except PyExc β} {b : β} :
    (x >>= f) = .ok b ↔ ∃ a, x = .ok a ∧ f a = .ok b := by
  rcases x with e | a
  · exact ⟨fun h => (by cases h), fun ⟨a, h, _⟩ => (by cases h)⟩
  · exact ⟨fun h => ⟨a, rfl, h⟩, fun ⟨a', h, hf⟩ => (by cases h; exact hf)⟩

theorem along_ok {start stop place : ℤ} {fraction : ℚ}
    (h : along start stop fraction = .ok place) : place = placeAt start stop fraction := by
  unfold along at h
  obtain ⟨way, hway, hstep⟩ := bind_ok.mp h
  obtain ⟨step, hstep, hbase⟩ := bind_ok.mp hstep
  obtain ⟨base, hbase, hsum⟩ := bind_ok.mp hbase
  obtain ⟨sum, hsum, hplace⟩ := bind_ok.mp hsum
  rw [← Except.ok.inj hplace, double_ok hsum, double_ok hbase, double_ok hstep, double_ok hway]
  rfl

theorem moves_dragTurn (state : StateDict) (start stop : ℤ × ℤ) (steps : ℤ) (index : ℕ) :
    Moves (dragTurn world state start stop steps index) [turnPlace start stop steps index] := by
  intro log a log' h
  obtain ⟨fraction, divided, hdivided, hplaces⟩ := exec_bind_ok.mp h
  obtain ⟨x, placed, hplaced, hsecond⟩ := exec_bind_ok.mp hplaces
  obtain ⟨y, ready, hready, hmove⟩ := exec_bind_ok.mp hsecond
  obtain ⟨hfraction, rfl⟩ := exec_lift_ok.mp hdivided
  obtain ⟨hx, rfl⟩ := exec_lift_ok.mp hplaced
  obtain ⟨hy, rfl⟩ := exec_lift_ok.mp hready
  have hplace : (x, y) = turnPlace start stop steps index := by
    rw [along_ok hx, along_ok hy, double_ok hfraction]
    rfl
  rw [hplace] at hmove
  exact moves_bind (moves_mousemove state _) (fun _ => moves_sleep _) _ a log' hmove

theorem moves_turns (state : StateDict) (start stop : ℤ × ℤ) (steps : ℤ) (turns : List ℕ) :
    Moves (turns.forM (dragTurn world state start stop steps))
      (turns.map (turnPlace start stop steps)) := by
  induction turns with
  | nil =>
      intro log a log' h
      obtain ⟨-, rfl⟩ := exec_pure_ok.mp h
      exact (List.append_nil _).symm
  | cons index turns ih =>
      rw [List.forM]
      exact moves_bind (moves_dragTurn state start stop steps index) fun _ => ih

/-- What a drag finds: the state, and the window when it looks for the place of its start
and when it looks for that of its end. -/
structure Found (py : Builtins) (world : World) (log : Log) (state : StateDict)
    (origin origin' : ℤ × ℤ) : Prop where
  loaded : world.state log = .ok (some state)
  window : ∃ between ready, (_window_origin py world state).exec log = (.ok origin, between) ∧
    (_window_origin py world state).exec between = (.ok origin', ready)

/-- The moves of a drag that returns: the start, and the places of the turns. -/
theorem drag_ok {x1 y1 x2 y2 steps : ℤ} {settle : JsNumber} {log log' : Log}
    (h : (drag py world x1 y1 x2 y2 steps settle).exec log = (.ok (), log')) :
    ∃ state origin origin', Found py world log state origin origin' ∧
      positions log' = positions log ++ onScreen origin state.zoom (x1, y1) ::
        (List.range' 1 steps.toNat).map (turnPlace (onScreen origin state.zoom (x1, y1))
          (onScreen origin' state.zoom (x2, y2)) steps) := by
  obtain ⟨state, loaded, hloaded, hplaces⟩ := exec_bind_ok.mp h
  obtain ⟨start, between, hstart, hends⟩ := exec_bind_ok.mp hplaces
  obtain ⟨stop, ready, hstop, hdrag⟩ := exec_bind_ok.mp hends
  obtain ⟨hstate, rfl⟩ := load_state_ok hloaded
  obtain ⟨⟨origin, horigin, rfl⟩, hkept⟩ := to_screen_ok hstart
  obtain ⟨⟨origin', horigin', rfl⟩, hkept'⟩ := to_screen_ok hstop
  refine ⟨state, origin, origin', ⟨hstate, between, ready, horigin, horigin'⟩, ?_⟩
  have hdown : Moves (xdo world state [.text "mousedown", .text "1"]) [] := moves_xdo rfl
  have hup : Moves (xdo world state [.text "mouseup", .text "1"]) [] := moves_xdo rfl
  have hmoves := moves_bind (moves_mousemove state (onScreen origin state.zoom (x1, y1)))
    (fun _ => moves_bind hdown fun _ => moves_bind (moves_sleep _) fun _ =>
      moves_bind (moves_turns state _ _ _ _) fun _ =>
        moves_bind hup fun _ => moves_sleep settle) _ () log' hdrag
  rw [hmoves, hkept', hkept]
  simp only [List.nil_append, List.append_nil, List.singleton_append]

/-- What a drag does to the pointer, with the window at `origin` for its start and at
`origin'` for its end. It goes to the place of the first pixel and then makes a move in every
turn. If the coordinates are not beyond all screens, no move goes back: each lies between any
earlier one and the end, in both coordinates, and the last one is the end itself. So it stays
in the window, if the window stays where it is. -/
def GoesStraight (origin origin' : ℤ × ℤ) (zoom x1 y1 x2 y2 steps : ℤ)
    (before after : List (ℤ × ℤ)) : Prop :=
  ∃ (start stop : ℤ × ℤ) (turns : List (ℤ × ℤ)),
    start = onScreen origin zoom (x1, y1) ∧ stop = onScreen origin' zoom (x2, y2) ∧
    after = before ++ start :: turns ∧ turns.length = steps.toNat ∧
    (Small start → Small stop →
      (start :: turns).Pairwise (Toward stop) ∧ (0 < steps → turns.getLast? = some stop) ∧
      (origin' = origin → 1 ≤ zoom → OnWatch (x1, y1) → OnWatch (x2, y2) →
        ∀ place ∈ start :: turns, InWindow origin zoom place))

/-- **A drag** that returns has gone straight from one place to the other, whatever the world
around it and however its fractions were rounded. -/
theorem drag_path {x1 y1 x2 y2 steps : ℤ} {settle : JsNumber} {log log' : Log}
    (h : (drag py world x1 y1 x2 y2 steps settle).exec log = (.ok (), log')) :
    ∃ state origin origin', Found py world log state origin origin' ∧
      GoesStraight origin origin' state.zoom x1 y1 x2 y2 steps (positions log)
        (positions log') := by
  obtain ⟨state, origin, origin', hfound, hpositions⟩ := drag_ok h
  refine ⟨state, origin, origin', hfound, ?_⟩
  generalize state.zoom = zoom at hpositions
  -- a number of steps below zero makes no turns, as zero does
  have hsteps : (List.range' 1 steps.toNat).map (turnPlace (onScreen origin zoom (x1, y1))
      (onScreen origin' zoom (x2, y2)) steps) = (List.range' 1 steps.toNat).map
        (turnPlace (onScreen origin zoom (x1, y1)) (onScreen origin' zoom (x2, y2))
          (steps.toNat : ℤ)) := by
    rcases lt_or_ge steps 0 with hneg | hnonneg
    · rw [Int.toNat_of_nonpos hneg.le]
      rfl
    · rw [Int.toNat_of_nonneg hnonneg]
  rw [hsteps] at hpositions
  refine ⟨_, _, _, rfl, rfl, hpositions, ?_, fun hstart hstop => ?_⟩
  · rw [List.length_map, List.length_range']
  · have hway := way_toward hstart hstop steps.toNat
    refine ⟨hway, fun hpos => way_last hstart hstop (by omega), ?_⟩
    intro horigin hzoom hfirst hlast place hplace
    have hinStart := onScreen_inWindow origin hzoom hfirst
    rcases List.mem_cons.mp hplace with rfl | hturn
    · exact hinStart
    · have hinStop := onScreen_inWindow origin hzoom hlast
      rw [horigin] at hway hturn
      exact hinStart.between hinStop ((List.pairwise_cons.mp hway).1 place hturn)

end Moves

/-- A desk with a window at (100, 50) that shows each pixel as four. -/
def tidyDesk : World where
  state _ := .ok (some
    { sim := some ⟨some 5, some 5⟩
      xvfb := some ⟨some 4, some 4⟩
      sim_pid := some 5
      xvfb_pid := some 4
      display := some ":99"
      bridge_port := 18632
      gatt_port := 18632
      ble_control_port := some 18633
      headless := false
      window := some "2097153"
      zoom := 2
      paths := ⟨"run", "flash", "shots", "sim.stdout.log", "sim.stderr.log"⟩
      alive := none })
  stdout _ := .ok none
  xdotool _ _ arguments :=
    .ok (if arguments.head? = some "getwindowgeometry" then
      "WINDOW=2097153\nX=100\nY=50\nWIDTH=480\nHEIGHT=480\nSCREEN=0\n" else "")
  sleep _ _ := none

/-- As Python has it for ASCII. -/
def asciiPython : Builtins where
  int text := if text.toList.all Char.isDigit then
      some (text.toList.foldl (fun n c => 10 * n + (c.toNat - 48 : ℕ)) 0) else none
  lower c := String.singleton c.toLower
  isupper := Char.isUpper
  capitalize text := match text.toList with
    | [] => ""
    | c :: rest => String.ofList (c.toUpper :: rest.map Char.toLower)

/-- Upwards in four turns, two of which are cut to an integer. -/
theorem drag_path_upwards : ∃ log',
    (drag asciiPython tidyDesk 120 200 120 41 4 (JsNumber.round (45 / 100))).exec [] =
      (.ok (), log') ∧
      positions log' = [(341, 451), (341, 371), (341, 292), (341, 212), (341, 133)] ∧
      ∃ state origin origin', Found asciiPython tidyDesk [] state origin origin' ∧
        GoesStraight origin origin' state.zoom 120 200 120 41 4 (positions []) (positions log') := by
  rcases hrun : (drag asciiPython tidyDesk 120 200 120 41 4 (JsNumber.round (45 / 100))).exec []
    with ⟨outcome, log'⟩
  have hok : ((drag asciiPython tidyDesk 120 200 120 41 4 (JsNumber.round (45 / 100))).exec []).1 =
      .ok () := by decide +kernel
  have hmoves : positions ((drag asciiPython tidyDesk 120 200 120 41 4
      (JsNumber.round (45 / 100))).exec []).2 =
        [(341, 451), (341, 371), (341, 292), (341, 212), (341, 133)] := by decide +kernel
  rw [hrun] at hok hmoves
  obtain rfl : outcome = .ok () := hok
  exact ⟨log', rfl, hmoves, drag_path hrun⟩

end Ptlab.Sim.Input
