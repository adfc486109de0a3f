/-
The ports of simulators that are started at the same time.

`allocate_tcp_port` binds a socket to have a port from the kernel, and closes it
when it has the number. From then on nothing holds the port until the simulator
binds it again, and the kernel may give it to anyone. A run here is any
interleaving of the steps of any number of `start` calls, their simulators and the
rest of the system; a port is given out if no socket holds it.

`start` sees to it that its own two ports differ. `ports_private_iff` says what it
takes for those of different calls to differ.
-/
import Ptlab.Sim.Start

set_option autoImplicit false

open Effect

namespace Ptlab.Sim.Allocation

/-! ## The calls and the kernel -/

/-- How far a call is with its ports. -/
inductive Phase where
  | begun
  /-- Inside the `with` of `allocate_tcp_port`. -/
  | bridge_bound (bridge_port : ℕ)
  | bridge_chosen (bridge_port : ℕ)
  | control_bound (bridge_port ble_control_port : ℕ)
  | control_chosen (bridge_port ble_control_port : ℕ)
  /-- The simulator has been started with both ports. -/
  | spawned (bridge_port ble_control_port : ℕ)
  | raised
  deriving DecidableEq, Repr

/-- The ports a call has. The second one is a new one if it differs. -/
def Phase.ports : Phase → List ℕ
  | .begun | .raised => []
  | .bridge_bound bridge_port | .bridge_chosen bridge_port => [bridge_port]
  | .control_bound bridge_port ble_control_port =>
    if ble_control_port = bridge_port then [bridge_port] else [bridge_port, ble_control_port]
  | .control_chosen bridge_port ble_control_port | .spawned bridge_port ble_control_port =>
    [bridge_port, ble_control_port]

/-- Whose socket it is. -/
inductive Owner (ι : Type) where
  | allocate_tcp_port (call : ι)
  | simulator (call : ι)
  | other
  deriving DecidableEq, Repr

structure Socket (ι : Type) where
  owner : Owner ι
  port : ℕ
  deriving DecidableEq, Repr

/-- The calls, and the sockets that are bound. -/
structure State (ι : Type) where
  phase : ι → Phase
  sockets : List (Socket ι)

/-- Before any call. -/
def State.initial {ι : Type} (others : List ℕ) : State ι :=
  ⟨fun _ => .begun, others.map (⟨.other, ·⟩)⟩

/-- What a call does about its ports, and its simulator. -/
inductive Act where
  /-- `sock.bind((host, 0))`, to which the kernel gives this port. -/
  | bind (port : ℕ)
  /-- The end of the `with`, and the test behind it. -/
  | close
  | popen
  | raise
  /-- The simulator binds one of its ports. -/
  | listen (port : ℕ)
  | exit
  deriving DecidableEq, Repr

/-- One step of a call, or of something else. -/
inductive Event (ι : Type) where
  | call (caller : ι) (act : Act)
  | other_bind (port : ℕ)
  | other_close (port : ℕ)
  deriving DecidableEq, Repr

/-- The phase of a call behind an act, if the act is its next one. -/
def Phase.next : Phase → Act → Option Phase
  | .begun, .bind port => some (.bridge_bound port)
  | .bridge_bound bridge_port, .close => some (.bridge_chosen bridge_port)
  | .bridge_chosen bridge_port, .bind port => some (.control_bound bridge_port port)
  | .control_bound bridge_port ble_control_port, .close =>
    -- `while ble_control_port == bridge_port`
    if ble_control_port = bridge_port then some (.bridge_chosen bridge_port)
    else some (.control_chosen bridge_port ble_control_port)
  | .control_chosen bridge_port ble_control_port, .popen =>
    some (.spawned bridge_port ble_control_port)
  | .spawned bridge_port ble_control_port, .listen port =>
    if port ∈ [bridge_port, ble_control_port] then some (.spawned bridge_port ble_control_port)
    else none
  | phase, .exit => some phase
  | _, .raise => some .raised
  | _, _ => none

section Steps

variable {ι : Type} [DecidableEq ι]

/-- No socket holds the port. -/
def State.Free (s : State ι) (port : ℕ) : Prop := ∀ socket ∈ s.sockets, socket.port ≠ port

instance (s : State ι) (port : ℕ) : Decidable (s.Free port) :=
  inferInstanceAs (Decidable (∀ socket ∈ s.sockets, socket.port ≠ port))

/-- The sockets but for those of one owner. -/
def State.without (s : State ι) (owner : Owner ι) : List (Socket ι) :=
  s.sockets.filter (·.owner ≠ owner)

/-- The sockets behind an act, if the kernel allows it. -/
def State.bound (s : State ι) (caller : ι) : Act → Option (List (Socket ι))
  | .bind port =>
    if s.Free port ∧ 1 ≤ port ∧ port ≤ 65535 then
      some (s.sockets ++ [⟨.allocate_tcp_port caller, port⟩])
    else none
  | .close | .raise => some (s.without (.allocate_tcp_port caller))
  | .popen => some s.sockets
  | .listen port => if s.Free port then some (s.sockets ++ [⟨.simulator caller, port⟩]) else none
  | .exit => some (s.without (.simulator caller))

/-- One step, if it can be made. -/
def State.step (s : State ι) : Event ι → Option (State ι)
  | .call caller act => do
    let phase ← (s.phase caller).next act
    let sockets ← s.bound caller act
    return ⟨Function.update s.phase caller phase, sockets⟩
  | .other_bind port =>
    if s.Free port then some { s with sockets := s.sockets ++ [⟨.other, port⟩] } else none
  | .other_close port => some { s with sockets := s.sockets.filter (· ≠ ⟨.other, port⟩) }

/-- A run. -/
def State.run (s : State ι) : List (Event ι) → Option (State ι)
  | [] => some s
  | event :: events => (s.step event).bind (·.run events)

/-- No two calls have the same port, nor one of them the same port twice. -/
structure State.Private (s : State ι) : Prop where
  nodup : ∀ call, (s.phase call).ports.Nodup
  disjoint : ∀ call other, call ≠ other → (s.phase call).ports.Disjoint (s.phase other).ports

/-- The call is about to allocate a port. -/
def State.Allocates (s : State ι) (call : ι) : Prop :=
  s.phase call = .begun ∨ ∃ bridge_port, s.phase call = .bridge_chosen bridge_port

/-- A socket holds each port that another call has. -/
def State.Held (s : State ι) (call : ι) : Prop :=
  ∀ other, other ≠ call → ∀ port ∈ (s.phase other).ports, ¬ s.Free port

instance [Fintype ι] (s : State ι) (call : ι) : Decidable (s.Held call) :=
  inferInstanceAs (Decidable (∀ other, other ≠ call → ∀ port ∈ (s.phase other).ports, ¬ s.Free port))

/-- The call that allocates a port in this step. -/
def Event.allocates : Event ι → Option ι
  | .call caller (.bind _) => some caller
  | _ => none

/-- At each allocation of the run, a socket holds each port that another call has. -/
def State.AlwaysHeld (s : State ι) : List (Event ι) → Prop
  | [] => True
  | event :: events =>
    (∀ call ∈ event.allocates, s.Held call) ∧ ∀ s' ∈ s.step event, s'.AlwaysHeld events

instance decidableAlwaysHeld [Fintype ι] : ∀ (events : List (Event ι)) (s : State ι),
    Decidable (s.AlwaysHeld events)
  | [], _ => .isTrue trivial
  | event :: events, s =>
    have : DecidablePred fun s' : State ι => s'.AlwaysHeld events := decidableAlwaysHeld events
    inferInstanceAs (Decidable ((∀ call ∈ event.allocates, s.Held call) ∧
      ∀ s' ∈ s.step event, s'.AlwaysHeld events))

/-! ## One step -/

variable {s s' : State ι} {event : Event ι} {call other : ι} {port : ℕ}

/-- **The step of a call.** Its phase goes on, and the others' stay as they are. -/
theorem step_call {act : Act} (h : s.step (.call call act) = some s') :
    (s.phase call).next act = some (s'.phase call) ∧ s.bound call act = some s'.sockets ∧
      ∀ other, other ≠ call → s'.phase other = s.phase other := by
  unfold State.step at h
  dsimp only at h
  rw [Option.bind_eq_bind, Option.bind_eq_some_iff] at h
  obtain ⟨phase, hphase, h⟩ := h
  rw [Option.bind_eq_bind, Option.bind_eq_some_iff] at h
  obtain ⟨sockets, hsockets, h⟩ := h
  injection h with h
  subst h
  refine ⟨?_, hsockets, fun other hother => Function.update_of_ne hother ..⟩
  rw [hphase]
  dsimp only
  rw [Function.update_self]

/-- A step that is not the call's leaves its phase. -/
theorem step_keeps_phase (h : s.step event = some s') (hevent : ∀ act, event ≠ .call call act) :
    s'.phase call = s.phase call := by
  cases event with
  | call caller act =>
      refine (step_call h).2.2 call ?_
      rintro rfl
      exact hevent act rfl
  | other_bind port =>
      unfold State.step at h
      dsimp only at h
      split_ifs at h
      injection h with h
      rw [← h]
  | other_close port =>
      injection h with h
      rw [← h]

/-- What becomes of the ports of a call: a new one is added if the kernel gives it, and
all are gone if the call raises. -/
theorem next_ports {phase phase' : Phase} {act : Act} (h : phase.next act = some phase') :
    phase'.ports = phase.ports ∨ phase'.ports = [] ∨
      ∃ port, act = .bind port ∧ port ∉ phase.ports ∧ phase'.ports = phase.ports ++ [port] := by
  unfold Phase.next at h
  split at h
  case h_1 port =>
    injection h with h
    subst h
    exact .inr (.inr ⟨port, rfl, List.not_mem_nil, rfl⟩)
  case h_2 =>
    injection h with h
    subst h
    exact .inl rfl
  case h_3 bridge_port port =>
    injection h with h
    subst h
    by_cases hsame : port = bridge_port
    · -- one more turn of the loop
      exact .inl (if_pos hsame)
    · refine .inr (.inr ⟨port, rfl, ?_, if_neg hsame⟩)
      exact fun hmem => hsame (List.mem_singleton.mp hmem)
  case h_4 bridge_port ble_control_port =>
    split_ifs at h with hsame <;> injection h with h <;> subst h
    · exact .inl (if_pos hsame).symm
    · exact .inl (if_neg hsame).symm
  case h_5 =>
    injection h with h
    subst h
    exact .inl rfl
  case h_6 =>
    split_ifs at h
    injection h with h
    subst h
    exact .inl rfl
  case h_7 =>
    injection h with h
    subst h
    exact .inl rfl
  case h_8 =>
    injection h with h
    subst h
    exact .inr (.inl rfl)
  case h_9 => cases h

/-- What becomes of the ports of a call in a step. -/
inductive Changes (s : State ι) (event : Event ι) (call : ι) (s' : State ι) : Prop where
  | kept (ports : (s'.phase call).ports = (s.phase call).ports)
  | dropped (ports : (s'.phase call).ports = [])
  | given (port : ℕ) (event : event = .call call (.bind port)) (free : s.Free port)
      (low : 1 ≤ port) (high : port ≤ 65535) (new : port ∉ (s.phase call).ports)
      (ports : (s'.phase call).ports = (s.phase call).ports ++ [port])

/-- **The step.** -/
theorem step_changes (h : s.step event = some s') (call : ι) : Changes s event call s' := by
  by_cases hevent : ∃ act, event = .call call act
  · obtain ⟨act, rfl⟩ := hevent
    obtain ⟨hphase, hbound, -⟩ := step_call h
    rcases next_ports hphase with hports | hports | ⟨port, rfl, hnew, hports⟩
    · exact .kept hports
    · exact .dropped hports
    · unfold State.bound at hbound
      dsimp only at hbound
      split_ifs at hbound with hport
      exact .given port rfl hport.1 hport.2.1 hport.2.2 hnew hports
  · refine .kept (congrArg Phase.ports (step_keeps_phase h fun act hact => ?_))
    exact hevent ⟨act, hact⟩

/-- **The step of the invariant.** If each allocation finds the ports of the others
held, the ports stay private. -/
theorem State.Private.step (h : s.Private) (hheld : ∀ call ∈ event.allocates, s.Held call)
    (hstep : s.step event = some s') : s'.Private := by
  have hchanges := step_changes hstep
  -- a port that is given out is not one of the others'
  have hgiven : ∀ call port, event = .call call (.bind port) → s.Free port →
      ∀ other, other ≠ call → port ∉ (s.phase other).ports := by
    rintro call port rfl hfree other hother hmem
    exact hheld call rfl other hother port hmem hfree
  constructor
  · intro call
    rcases hchanges call with hports | hports | ⟨port, -, -, -, -, hnew, hports⟩
    · rw [hports]
      exact h.nodup call
    · rw [hports]
      exact List.nodup_nil
    · rw [hports]
      rw [← List.concat_eq_append]
      exact (h.nodup call).concat hnew
  · intro call other hne
    have hall := h.disjoint call other hne
    rcases hchanges call with hports | hports | ⟨port, hevent, hfree, -, -, -, hports⟩
    · rw [hports]
      rcases hchanges other with hports' | hports' | ⟨port, hevent, hfree, -, -, -, hports'⟩
      · rw [hports']
        exact hall
      · rw [hports']
        exact List.disjoint_nil_right _
      · rw [hports', List.disjoint_append_right, List.disjoint_singleton]
        exact ⟨hall, hgiven other port hevent hfree call hne⟩
    · rw [hports]
      exact List.disjoint_nil_left _
    · rw [hports, List.disjoint_append_left, List.singleton_disjoint]
      have hnot := hgiven call port hevent hfree other hne.symm
      rcases hchanges other with hports' | hports' | ⟨port', hevent', -⟩
      · rw [hports']
        exact ⟨hall, hnot⟩
      · rw [hports']
        exact ⟨List.disjoint_nil_right _, List.not_mem_nil⟩
      · rw [hevent] at hevent'
        injection hevent' with hcall
        exact absurd hcall hne

/-- The ports are numbers a socket can have. -/
def State.InRange (s : State ι) : Prop :=
  ∀ call, ∀ port ∈ (s.phase call).ports, 1 ≤ port ∧ port ≤ 65535

theorem State.InRange.step (h : s.InRange) (hstep : s.step event = some s') : s'.InRange := by
  intro call port hport
  rcases step_changes hstep call with hports | hports | ⟨port', -, -, hlow, hhigh, -, hports⟩
  · rw [hports] at hport
    exact h call port hport
  · rw [hports] at hport
    cases hport
  · rw [hports, List.mem_append, List.mem_singleton] at hport
    rcases hport with hport | rfl
    · exact h call port hport
    · exact ⟨hlow, hhigh⟩

/-- The kernel may give a call that allocates any port that no socket holds. -/
theorem step_bind (hcall : s.Allocates call) (hfree : s.Free port) (hlow : 1 ≤ port)
    (hhigh : port ≤ 65535) :
    ∃ s', s.step (.call call (.bind port)) = some s' ∧ port ∈ (s'.phase call).ports := by
  have hbound : s.bound call (.bind port) =
      some (s.sockets ++ [⟨.allocate_tcp_port call, port⟩]) := if_pos ⟨hfree, hlow, hhigh⟩
  obtain ⟨phase, hnext, hmem⟩ : ∃ phase, (s.phase call).next (.bind port) = some phase ∧
      port ∈ phase.ports := by
    rcases hcall with hphase | ⟨bridge_port, hphase⟩
    · rw [hphase]
      exact ⟨_, rfl, List.mem_singleton_self port⟩
    · rw [hphase]
      refine ⟨_, rfl, ?_⟩
      -- a port given twice is one the call has already
      unfold Phase.ports
      dsimp only
      split_ifs with hsame
      · exact List.mem_singleton.mpr hsame
      · exact List.mem_cons_of_mem _ (List.mem_singleton_self port)
  have hstep : s.step (.call call (.bind port)) = some ⟨Function.update s.phase call phase,
      s.sockets ++ [⟨.allocate_tcp_port call, port⟩]⟩ := by
    unfold State.step
    dsimp only
    rw [hnext, hbound]
    rfl
  refine ⟨_, hstep, ?_⟩
  dsimp only
  rw [Function.update_self]
  exact hmem

/-- **One allocation.** It leaves the ports private, whatever the kernel gives, exactly
if the ports of the others are held. -/
theorem allocation_iff (h : s.Private) (hrange : s.InRange) (hcall : s.Allocates call) :
    (∀ port s', s.step (.call call (.bind port)) = some s' → s'.Private) ↔ s.Held call := by
  constructor
  · intro hall other hother port hport hfree
    obtain ⟨hlow, hhigh⟩ := hrange other port hport
    obtain ⟨s', hstep, hmem⟩ := step_bind hcall hfree hlow hhigh
    have hdisjoint := (hall port s' hstep).disjoint call other hother.symm
    rw [(step_call hstep).2.2 other hother] at hdisjoint
    exact hdisjoint hmem hport
  · intro hheld port s' hstep
    refine h.step (fun caller hcaller => ?_) hstep
    injection hcaller with hcaller
    rw [← hcaller]
    exact hheld

/-! ## A run -/

theorem run_cons (s : State ι) (event : Event ι) (events : List (Event ι)) :
    s.run (event :: events) = (s.step event).bind (·.run events) := rfl

/-- What every step keeps, a run keeps. -/
theorem run_keeps {P : State ι → Prop}
    (hP : ∀ s event s', P s → s.step event = some s' → P s') (events : List (Event ι)) :
    ∀ s s' : State ι, P s → s.run events = some s' → P s' := by
  induction events with
  | nil =>
      intro s s' h hrun
      injection hrun with hrun
      rw [← hrun]
      exact h
  | cons event events ih =>
      intro s s' h hrun
      rw [run_cons, Option.bind_eq_some_iff] at hrun
      obtain ⟨s₁, hstep, hrun⟩ := hrun
      exact ih s₁ s' (hP s event s₁ h hstep) hrun

theorem State.Private.run (h : s.Private) (events : List (Event ι)) (hheld : s.AlwaysHeld events)
    (hrun : s.run events = some s') : s'.Private := by
  induction events generalizing s with
  | nil =>
      injection hrun with hrun
      rw [← hrun]
      exact h
  | cons event events ih =>
      rw [run_cons, Option.bind_eq_some_iff] at hrun
      obtain ⟨s₁, hstep, hrun⟩ := hrun
      exact ih (h.step hheld.1 hstep) (hheld.2 s₁ hstep) hrun

theorem inRange_run {others : List ℕ} {events : List (Event ι)}
    (hrun : (State.initial others).run events = some s) : s.InRange := by
  refine run_keeps (fun _ _ _ (h : State.InRange _) hstep => h.step hstep) events _ s ?_ hrun
  exact fun _ _ hport => absurd hport List.not_mem_nil

/-! ## What `start` makes of it -/

/-- The port the kernel gives. -/
def Act.given : Act → Option ℕ
  | .bind port => some port
  | _ => none

/-- The ports the kernel gives to one call in a run. -/
def handed (call : ι) (events : List (Event ι)) : List ℕ :=
  events.flatMap fun event => match event with
    | .call caller act => if caller = call then act.given.toList else []
    | _ => []

/-- A call in this phase has been given these ports: the bridge's, again as often as
the loop turned, and the other one. -/
def Phase.HandedOut (given : List ℕ) : Phase → Prop
  | .begun => given = []
  | .bridge_bound bridge_port => given = [bridge_port]
  | .bridge_chosen bridge_port => ∃ turns, given = bridge_port :: List.replicate turns bridge_port
  | .control_bound bridge_port ble_control_port =>
    ∃ turns, given = bridge_port :: (List.replicate turns bridge_port ++ [ble_control_port])
  | .control_chosen bridge_port ble_control_port | .spawned bridge_port ble_control_port =>
    ble_control_port ≠ bridge_port ∧
      ∃ turns, given = bridge_port :: (List.replicate turns bridge_port ++ [ble_control_port])
  | .raised => True

theorem next_handed {phase phase' : Phase} {act : Act} {given : List ℕ}
    (h : phase.HandedOut given) (hnext : phase.next act = some phase') :
    phase'.HandedOut (given ++ act.given.toList) := by
  unfold Phase.next at hnext
  split at hnext
  case h_1 port =>
    injection hnext with hnext
    obtain rfl : given = [] := h
    rw [← hnext]
    rfl
  case h_2 bridge_port =>
    injection hnext with hnext
    obtain rfl : given = [bridge_port] := h
    rw [← hnext]
    exact ⟨0, rfl⟩
  case h_3 bridge_port port =>
    injection hnext with hnext
    obtain ⟨turns, rfl⟩ := h
    rw [← hnext]
    exact ⟨turns, rfl⟩
  case h_4 bridge_port ble_control_port =>
    obtain ⟨turns, rfl⟩ := h
    show phase'.HandedOut (_ ++ [])
    rw [List.append_nil]
    split_ifs at hnext with hsame <;> injection hnext with hnext <;> rw [← hnext]
    -- the loop turns once more, or it is left
    · exact ⟨turns + 1, by rw [hsame, List.replicate_succ']⟩
    · exact ⟨hsame, turns, rfl⟩
  case h_5 =>
    injection hnext with hnext
    show phase'.HandedOut (given ++ [])
    rw [← hnext, List.append_nil]
    exact h
  case h_6 =>
    split_ifs at hnext
    injection hnext with hnext
    show phase'.HandedOut (given ++ [])
    rw [← hnext, List.append_nil]
    exact h
  case h_7 =>
    injection hnext with hnext
    show phase'.HandedOut (given ++ [])
    rw [← hnext, List.append_nil]
    exact h
  case h_8 =>
    injection hnext with hnext
    rw [← hnext]
    trivial
  case h_9 => cases hnext

theorem handed_cons (call : ι) (event : Event ι) (events : List (Event ι)) :
    handed call (event :: events) = handed call [event] ++ handed call events := by
  unfold handed
  rw [List.flatMap_cons, List.flatMap_singleton]

/-- **The ports of a call**, after any run. -/
theorem run_handed (call : ι) (events : List (Event ι)) : ∀ (s s' : State ι) (given : List ℕ),
    (s.phase call).HandedOut given → s.run events = some s' →
    (s'.phase call).HandedOut (given ++ handed call events) := by
  induction events with
  | nil =>
      intro s s' given h hrun
      injection hrun with hrun
      rw [← hrun]
      exact (List.append_nil given).symm ▸ h
  | cons event events ih =>
      intro s s' given h hrun
      rw [run_cons, Option.bind_eq_some_iff] at hrun
      obtain ⟨s₁, hstep, hrun⟩ := hrun
      -- only a step of the call itself gives it a port
      have hnow : (s₁.phase call).HandedOut (given ++ handed call [event]) := by
        by_cases hevent : ∃ act, event = .call call act
        · obtain ⟨act, rfl⟩ := hevent
          have hhanded : handed call [.call call act] = act.given.toList := by
            unfold handed
            rw [List.flatMap_singleton]
            exact if_pos rfl
          rw [hhanded]
          exact next_handed h (step_call hstep).1
        · have hhanded : handed call [event] = [] := by
            unfold handed
            rw [List.flatMap_singleton]
            cases event with
            | call caller act =>
                refine if_neg ?_
                rintro rfl
                exact hevent ⟨act, rfl⟩
            | other_bind port => rfl
            | other_close port => rfl
          rw [hhanded, List.append_nil, step_keeps_phase hstep fun act hact => hevent ⟨act, hact⟩]
          exact h
      have hrest := ih s₁ s' _ hnow hrun
      rw [List.append_assoc, ← handed_cons] at hrest
      exact hrest

section Start

variable {env : Env} {args : StartArgs}

theorem exec_allocate_tcp_port (hfault : ∀ p, env.fault p = none) {n : ℕ} {given : ℤ}
    (hport : env.ports[n]? = some given) (w : StartWorld) :
    (allocate_tcp_port env n).exec w = (.ok given, w) := by
  unfold allocate_tcp_port point
  rw [hfault, exec_bind, exec_pure]
  dsimp only
  rw [hport, exec_pure]

/-- The loop takes the first port that is not the bridge's. -/
theorem exec_allocateOther (hfault : ∀ p, env.fault p = none) {bridge_port other : ℤ}
    (hne : other ≠ bridge_port) (w : StartWorld) (turns : ℕ) : ∀ fuel n : ℕ, turns ≤ fuel →
    env.ports.drop n = List.replicate turns bridge_port ++ [other] →
    (allocateOther env bridge_port fuel n).exec w = (.ok other, w) := by
  induction turns with
  | zero =>
      intro fuel n _ hdrop
      have hport : env.ports[n]? = some other := by
        rw [← List.head?_drop, hdrop]
        rfl
      cases fuel with
      | zero => exact exec_allocate_tcp_port hfault hport w
      | succ fuel =>
          unfold allocateOther
          rw [exec_bind, exec_allocate_tcp_port hfault hport]
          dsimp only
          rw [if_neg hne, exec_pure]
  | succ turns ih =>
      intro fuel n hfuel hdrop
      -- the bridge's port again, so the loop takes another turn and another fuel
      obtain ⟨fuel, rfl⟩ := Nat.exists_eq_add_of_lt hfuel
      have hport : env.ports[n]? = some bridge_port := by
        rw [← List.head?_drop, hdrop]
        rfl
      have htail : env.ports.drop (n + 1) = List.replicate turns bridge_port ++ [other] := by
        rw [← List.tail_drop, hdrop]
        rfl
      unfold allocateOther
      rw [exec_bind, exec_allocate_tcp_port hfault hport]
      dsimp only
      rw [if_pos rfl]
      exact ih _ _ (by omega) htail

/-- **The phases are those of `choosePorts`.** Given the ports that a call has been
given in a run, it returns the two that the call has. -/
theorem choosePorts_run {others : List ℕ} {events : List (Event ι)} {bridge_port control_port : ℕ}
    (hrun : (State.initial others).run events = some s)
    (hphase : s.phase call = .control_chosen bridge_port control_port)
    (hfault : ∀ p, env.fault p = none)
    (hports : env.ports = (handed call events).map Nat.cast) (hbinary : env.binary_exists = true)
    (hzoom : 1 ≤ args.zoom) (hbridge : args.bridge_port = none)
    (hcontrol : args.ble_control_port = none)
    (hheadless : (!args.headless || args.display.isNone) = true) (w : StartWorld) :
    (choosePorts env args).exec w = (.ok ((bridge_port : ℤ), (control_port : ℤ)), w) := by
  have hhanded := run_handed call events (State.initial others) s [] rfl hrun
  rw [hphase, List.nil_append] at hhanded
  obtain ⟨hne, turns, hgiven⟩ := hhanded
  have hrange := inRange_run hrun call
  rw [hphase] at hrange
  obtain ⟨hlow, hhigh⟩ := hrange bridge_port (List.mem_cons_self ..)
  obtain ⟨hlow', hhigh'⟩ := hrange control_port
    (List.mem_cons_of_mem _ (List.mem_singleton_self control_port))
  have hlist : env.ports = (bridge_port : ℤ) ::
      (List.replicate turns (bridge_port : ℤ) ++ [(control_port : ℤ)]) := by
    rw [hports, hgiven, List.map_cons, List.map_append, List.map_replicate, List.map_singleton]
  have hfirst : env.ports[0]? = some (bridge_port : ℤ) := by
    rw [hlist]
    rfl
  have hrest : env.ports.drop 1 =
      List.replicate turns (bridge_port : ℤ) ++ [(control_port : ℤ)] := by
    rw [hlist]
    rfl
  have hturns : turns ≤ env.ports.length := by
    rw [hlist, List.length_cons, List.length_append, List.length_replicate]
    omega
  have hbridgePort : (bridgePort env args).exec w = (.ok ((bridge_port : ℤ), 1), w) := by
    unfold bridgePort
    rw [hbridge]
    dsimp only
    rw [exec_bind, exec_allocate_tcp_port hfault hfirst]
    rfl
  have hcontrolPort : (controlPort env args bridge_port 1).exec w = (.ok (control_port : ℤ), w) := by
    unfold controlPort
    rw [hcontrol]
    exact exec_allocateOther hfault (by exact_mod_cast hne) w turns _ 1 hturns hrest
  have hpoint : ∀ p, (point env p).exec w = (.ok (), w) := by
    intro p
    unfold point
    rw [hfault]
    rfl
  have hraise : ∀ (ok : Bool) (message : String), ok = true →
      (orRaise ok message).exec w = (.ok (), w) := by
    rintro ok message rfl
    rfl
  -- every test of the chosen ports passes: they are in range and differ
  unfold choosePorts
  rw [exec_bind, hpoint]
  dsimp only
  rw [exec_bind, hraise _ _ hbinary]
  dsimp only
  rw [exec_bind, hraise _ _ (decide_eq_true hzoom)]
  dsimp only
  rw [exec_bind, hbridgePort]
  dsimp only
  rw [exec_bind, hraise _ _ (decide_eq_true (by omega))]
  dsimp only
  rw [exec_bind, hcontrolPort]
  dsimp only
  rw [exec_bind, hraise _ _ (decide_eq_true (by omega))]
  dsimp only
  rw [exec_bind, hraise _ _ (decide_eq_true (by exact_mod_cast hne))]
  dsimp only
  rw [exec_bind, hraise _ _ hheadless]
  dsimp only
  rw [exec_bind, hpoint]
  rfl

end Start

/-- **Private ports.** In every run in which each allocation finds the ports of the
other calls held by a socket, no port is ever had twice. Nothing less will do:
where a run with private ports comes to an allocation that does not find them held,
the kernel may give one of them out. -/
theorem ports_private_iff (others : List ℕ) :
    (∀ (events : List (Event ι)) (s : State ι),
        (State.initial others).AlwaysHeld events → (State.initial others).run events = some s →
        s.Private) ∧
      ∀ (events : List (Event ι)) (s : State ι) (call : ι),
        (State.initial others).run events = some s → s.Private → s.Allocates call →
        ((∀ port s', s.step (.call call (.bind port)) = some s' → s'.Private) ↔ s.Held call) := by
  refine ⟨fun events s hheld hrun => ?_, fun events s call hrun hprivate hcall => ?_⟩
  · have hinitial : (State.initial others : State ι).Private :=
      ⟨fun _ => List.nodup_nil, fun _ _ _ => List.disjoint_nil_left _⟩
    exact hinitial.run events hheld hrun
  · exact allocation_iff hprivate (inRange_run hrun) hcall

end Steps

/-- One call after another: the simulator of the first one listens before the second
one begins. -/
theorem ports_private_in_turn :
    let events : List (Event Bool) := [.call false (.bind 40000), .call false .close,
      .call false (.bind 40001), .call false .close, .call false .popen,
      .call false (.listen 40000), .call false (.listen 40001), .call true (.bind 40002),
      .call true .close, .call true (.bind 40002), .call true .close, .call true (.bind 40003),
      .call true .close]
    ∃ s, (State.initial [22]).run events = some s ∧
      s.phase false = .spawned 40000 40001 ∧ s.phase true = .control_chosen 40002 40003 ∧
      s.Private := by
  intro events
  refine ⟨_, rfl, rfl, rfl, ?_⟩
  exact (ports_private_iff [22]).1 events _ (by decide +kernel) rfl

/-- **Both calls have the same ports.** Each takes its turn while the other has closed
its socket. -/
theorem ports_clash :
    let events : List (Event Bool) := [.call false (.bind 40000), .call false .close,
      .call true (.bind 40000), .call true .close, .call false (.bind 40001), .call false .close,
      .call true (.bind 40001), .call true .close]
    ∃ s, (State.initial []).run events = some s ∧
      s.phase false = .control_chosen 40000 40001 ∧ s.phase true = .control_chosen 40000 40001 ∧
      ¬ s.Private := by
  intro events
  refine ⟨_, rfl, rfl, rfl, fun h => ?_⟩
  exact h.disjoint false true (by decide) (List.mem_cons_self ..) (List.mem_cons_self ..)

end Ptlab.Sim.Allocation
