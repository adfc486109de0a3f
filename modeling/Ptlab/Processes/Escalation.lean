/-
Which groups `terminate_process_groups` (`src/ptlab/processes.py`) signals.

A run polls: once before it sends anything, and then again and again until nothing
is left or the deadline has passed. `laterPolls` are the polls of the wait, by
their first probe and the references asked, and `waitWhile_polls` says that what the
wait leaves are the groups seen alive in every one of them. Given that, the two
rounds of signals are a matter of whom the system lets through: a group that is gone
is passed over, and a refusal ends the run where it stands.
-/
import Mathlib.Data.List.Dedup
import Ptlab.Processes

set_option autoImplicit false

open Effect

namespace Ptlab.Processes

/-! ## Polls -/

section Polls

variable (host : Host)

/-- What `process_is_alive` makes of the `n`-th probe. -/
def Host.isAlive (n : ℕ) (pid : ℤ) : Bool := host.probe n pid ≠ .ProcessLookupError

/-- No probe ends otherwise than with the process there, gone or out of reach. -/
def Host.Answers : Prop := ∀ n pid message, host.probe n pid ≠ .OSError message

/-- One poll: the references asked, in order, and the number of the first probe. -/
structure Poll where
  refs : List ProcessRef
  first : ℕ

/-- Some reference of the group was alive. -/
def Poll.Saw (poll : Poll) (g : ℤ) : Prop :=
  ∃ i ref, poll.refs[i]? = some ref ∧ ref.pgid = g ∧
    host.isAlive (poll.first + i) ref.pid = true

/-- The references that are alive, the probes being numbered from `n` on. -/
def living : ℕ → List ProcessRef → List ProcessRef
  | _, [] => []
  | n, ref :: refs =>
    if host.isAlive n ref.pid then ref :: living (n + 1) refs else living (n + 1) refs

/-- The groups a poll saw, with repetitions. -/
def Poll.groups (poll : Poll) : List ℤ := (living host poll.first poll.refs).map ProcessRef.pgid

/-- The polls of the wait, from these groups, this probe and this reading of the clock
on. A turn reads the clock, and once more if it is going to sleep. -/
def laterPolls (refs : List ProcessRef) (deadline : ℚ) : ℕ → List ℤ → ℕ → ℕ → List Poll
  | 0, _, _, _ => []
  | fuel + 1, groups, probes, readings =>
    if groups = [] then []
    else if host.monotonic readings < deadline then
      let poll : Poll := ⟨refs.filter fun ref => ref.pgid ∈ groups, probes⟩
      let left := poll.groups host
      poll :: laterPolls refs deadline fuel left (probes + poll.refs.length)
        (if left = [] then readings + 1 else readings + 2)
    else []

variable {host}

theorem mem_living (refs : List ProcessRef) : ∀ (n : ℕ) (ref : ProcessRef),
    ref ∈ living host n refs ↔
      ∃ i, refs[i]? = some ref ∧ host.isAlive (n + i) ref.pid = true := by
  induction refs with
  | nil => simp [living]
  | cons first refs ih =>
      intro n ref
      -- the probes of the rest are one further on
      have hrest : (∃ i, refs[i]? = some ref ∧ host.isAlive (n + 1 + i) ref.pid = true) ↔
          ∃ i, (first :: refs)[i + 1]? = some ref ∧
            host.isAlive (n + (i + 1)) ref.pid = true := by
        simp only [List.getElem?_cons_succ, Nat.add_comm, Nat.add_left_comm]
      have hsplit : (∃ i, (first :: refs)[i]? = some ref ∧ host.isAlive (n + i) ref.pid = true) ↔
          (first = ref ∧ host.isAlive n ref.pid = true) ∨ ref ∈ living host (n + 1) refs := by
        rw [ih, hrest]
        constructor
        · rintro ⟨i, hi, halive⟩
          by_cases hzero : i = 0
          · subst hzero
            left
            simpa using And.intro hi halive
          · right
            refine ⟨i - 1, ?_⟩
            have hi' : i - 1 + 1 = i := by omega
            rw [hi']
            exact ⟨hi, halive⟩
        · rintro (⟨rfl, halive⟩ | ⟨i, hi, halive⟩)
          · exact ⟨0, by simp, by simpa using halive⟩
          · exact ⟨i + 1, hi, halive⟩
      rw [hsplit, living]
      by_cases halive : host.isAlive n first.pid = true
      · rw [if_pos halive, List.mem_cons]
        constructor
        · rintro (rfl | hmem)
          · exact .inl ⟨rfl, halive⟩
          · exact .inr hmem
        · rintro (⟨rfl, -⟩ | hmem)
          · exact .inl rfl
          · exact .inr hmem
      · rw [if_neg halive]
        constructor
        · exact .inr
        · rintro (⟨rfl, hlive⟩ | hmem)
          · exact absurd hlive halive
          · exact hmem

theorem Poll.mem_groups (poll : Poll) (g : ℤ) : g ∈ poll.groups host ↔ poll.Saw host g := by
  unfold Poll.groups Poll.Saw
  rw [List.mem_map]
  constructor
  · rintro ⟨ref, hmem, hg⟩
    obtain ⟨i, hi, halive⟩ := (mem_living _ _ _).mp hmem
    exact ⟨i, ref, hi, hg, halive⟩
  · rintro ⟨i, ref, hi, hg, halive⟩
    exact ⟨ref, (mem_living _ _ _).mpr ⟨i, hi, halive⟩, hg⟩

/-- A group that is seen has a reference among those asked. -/
theorem Poll.Saw.asked {poll : Poll} {g : ℤ} (h : poll.Saw host g) :
    ∃ ref ∈ poll.refs, ref.pgid = g := by
  obtain ⟨i, ref, hi, hg, -⟩ := h
  exact ⟨ref, List.mem_of_getElem? hi, hg⟩

/-! ## The wait -/

theorem process_is_alive_exec (h : host.Answers) (pid : ℤ) (t : Trace) :
    (process_is_alive host pid).exec t =
      (.ok (host.isAlive t.probes pid), { t with probes := t.probes + 1 }) := by
  have hanswer := h t.probes pid
  unfold process_is_alive Host.isAlive
  rw [exec_of]
  rcases hprobe : host.probe t.probes pid with _ | _ | _ | message
  · simp
  · simp
  · simp
  · exact absurd hprobe (hanswer message)

/-- One poll. -/
theorem stillAlive_exec (h : host.Answers) (refs : List ProcessRef) : ∀ t : Trace,
    (stillAlive host ProcessRef.pid refs).exec t =
      (.ok (living host t.probes refs), { t with probes := t.probes + refs.length }) := by
  induction refs with
  | nil => intro t; rfl
  | cons ref refs ih =>
      intro t
      rw [stillAlive, exec_bind, process_is_alive_exec h]
      dsimp only
      rw [exec_bind, ih]
      dsimp only
      rw [exec_pure, living, List.length_cons]
      congr 2
      omega

/-- What a turn of the wait asks, as the source has it. -/
def pollGroups (host : Host) (refs : List ProcessRef) (groups : List ℤ) :
    Effect Trace ProcessExc (List ℤ) := do
  let live ← stillAlive host ProcessRef.pid (refs.filter fun ref => ref.pgid ∈ groups)
  return live.map ProcessRef.pgid

theorem pollGroups_exec (h : host.Answers) (refs : List ProcessRef) (groups : List ℤ)
    (t : Trace) :
    (pollGroups host refs groups).exec t =
      (.ok ((⟨refs.filter fun ref => ref.pgid ∈ groups, t.probes⟩ : Poll).groups host),
        { t with probes := t.probes + (refs.filter fun ref => ref.pgid ∈ groups).length }) := by
  unfold pollGroups
  rw [exec_bind, stillAlive_exec h]
  rfl

/-- **The wait** sends nothing, and what it leaves are the groups that every poll of it
saw. By induction on the turns: a group that a poll did not see is not asked about
again. -/
theorem waitWhile_polls (h : host.Answers) (refs : List ProcessRef) (deadline : ℚ) (fuel : ℕ) :
    ∀ (groups : List ℤ) (t : Trace), ∃ t' : Trace, t'.signals = t.signals ∧
      ((waitWhile host deadline (pollGroups host refs) fuel groups).exec t =
          (.error .unfinished, t') ∨
        ∃ left, (waitWhile host deadline (pollGroups host refs) fuel groups).exec t =
            (.ok left, t') ∧
          ∀ g, g ∈ left ↔ g ∈ groups ∧
            ∀ poll ∈ laterPolls host refs deadline fuel groups t.probes t.readings,
              poll.Saw host g) := by
  induction fuel with
  | zero => exact fun groups t => ⟨t, rfl, .inl rfl⟩
  | succ fuel ih =>
      intro groups t
      unfold waitWhile laterPolls
      by_cases hempty : groups = []
      · refine ⟨t, rfl, .inr ⟨groups, ?_, fun g => ?_⟩⟩
        · rw [if_pos hempty, exec_pure]
        · simp [hempty]
      rw [if_neg hempty, if_neg hempty, exec_bind]
      dsimp only [monotonic, exec_of]
      by_cases hnow : host.monotonic t.readings < deadline
      · rw [if_pos hnow, if_pos hnow, exec_bind, pollGroups_exec h]
        generalize hpoll :
          (⟨refs.filter fun ref => ref.pgid ∈ groups, t.probes⟩ : Poll) = poll
        have hrefs : refs.filter (fun ref => ref.pgid ∈ groups) = poll.refs :=
          congrArg Poll.refs hpoll
        -- what this poll saw is part of what was asked about
        have hsub : ∀ g, poll.Saw host g → g ∈ groups := by
          intro g hsaw
          obtain ⟨ref, hmem, rfl⟩ := hsaw.asked
          rw [← hrefs, List.mem_filter] at hmem
          simpa using hmem.2
        have hnext : ∀ t₁ : Trace, t₁.signals = t.signals →
            t₁.probes = t.probes + poll.refs.length →
            t₁.readings = (if poll.groups host = [] then t.readings + 1 else t.readings + 2) →
            ∃ t' : Trace, t'.signals = t.signals ∧
              ((waitWhile host deadline (pollGroups host refs) fuel (poll.groups host)).exec t₁ =
                  (.error .unfinished, t') ∨
                ∃ left, (waitWhile host deadline (pollGroups host refs) fuel
                    (poll.groups host)).exec t₁ = (.ok left, t') ∧
                  ∀ g, g ∈ left ↔ g ∈ groups ∧ ∀ p ∈ poll :: laterPolls host refs deadline fuel
                    (poll.groups host) (t.probes + poll.refs.length)
                    (if poll.groups host = [] then t.readings + 1 else t.readings + 2),
                    p.Saw host g) := by
          intro t₁ hsignals hprobes hreadings
          obtain ⟨t', hkept, hend⟩ := ih (poll.groups host) t₁
          refine ⟨t', hkept.trans hsignals, ?_⟩
          rcases hend with hrun | ⟨left, hrun, hleft⟩
          · exact .inl hrun
          · refine .inr ⟨left, hrun, fun g => ?_⟩
            rw [hleft, hprobes, hreadings, Poll.mem_groups, List.forall_mem_cons]
            constructor
            · rintro ⟨hsaw, hrest⟩
              exact ⟨hsub g hsaw, hsaw, hrest⟩
            · rintro ⟨-, hsaw, hrest⟩
              exact ⟨hsaw, hrest⟩
        rw [hrefs]
        dsimp only
        by_cases hleft : poll.groups host = []
        · rw [if_neg (not_not.mpr hleft)]
          exact hnext _ rfl rfl (by rw [if_pos hleft])
        · rw [if_pos hleft, exec_bind]
          exact hnext _ rfl rfl (by rw [if_neg hleft])
      · rw [if_neg hnow, if_neg hnow]
        refine ⟨_, ?_, .inr ⟨groups, rfl, fun g => ?_⟩⟩
        · rfl
        · simp

end Polls

/-! ## The signals -/

/-- The signals of one kind to some groups. -/
def signalsTo (signal : Signal) (groups : List ℤ) : List Sent :=
  groups.map fun g => ⟨.group g, signal⟩

section Run

variable {host : Host}

/-- The system does not refuse this signal: it arrives, or its target is gone. -/
def Host.Passes (host : Host) (s : Sent) : Prop :=
  ∀ n, host.deliver n s = .ok ∨ host.deliver n s = .ProcessLookupError

theorem send_passed {target : Target} {signal : Signal} (h : host.Passes ⟨target, signal⟩)
    (t : Trace) : (send host target signal).exec t =
      (.ok (), { t with signals := t.signals ++ [⟨target, signal⟩] }) := by
  unfold send
  rw [exec_of]
  rcases h t.signals.length with hdeliver | hdeliver
  · simp only [hdeliver]
  · simp only [hdeliver]

/-- A round that is not refused goes to all its groups. -/
theorem sendAll_passed {signal : Signal} {groups : List ℤ}
    (h : ∀ g ∈ groups, host.Passes ⟨.group g, signal⟩) : ∀ t : Trace,
    (groups.forM fun g => send host (.group g) signal).exec t =
      (.ok (), { t with signals := t.signals ++ signalsTo signal groups }) := by
  induction groups with
  | nil =>
      intro t
      simp [signalsTo, List.forM]
  | cons g groups ih =>
      intro t
      rw [List.forall_mem_cons] at h
      rw [List.forM, exec_bind, send_passed h.1]
      dsimp only
      rw [ih h.2]
      simp [signalsTo]

/-- A round ends with the first refusal. -/
theorem sendAll_refused {signal : Signal} {pre post : List ℤ} {d : ℤ}
    (hpre : ∀ g ∈ pre, host.Passes ⟨.group g, signal⟩)
    (hd : ∀ n, host.deliver n ⟨.group d, signal⟩ = .PermissionError) : ∀ t : Trace,
    ((pre ++ d :: post).forM fun g => send host (.group g) signal).exec t =
      (.error .PermissionError,
        { t with signals := t.signals ++ signalsTo signal (pre ++ [d]) }) := by
  induction pre with
  | nil =>
      intro t
      rw [List.nil_append, List.forM, exec_bind]
      unfold send
      rw [exec_of, hd]
      simp [signalsTo]
  | cons g pre ih =>
      intro t
      rw [List.forall_mem_cons] at hpre
      rw [List.cons_append, List.forM, exec_bind, send_passed hpre.1]
      dsimp only
      rw [ih hpre.2]
      simp [signalsTo]

variable (processes : List ProcessRef) (timeout : ℚ) (fuel : ℕ) (t : Trace)

/-- The poll in front of all signals. -/
def firstPoll : Poll := ⟨guarded processes, t.probes⟩

/-- The polls behind the first round of signals. -/
def waitPolls (host : Host) : List Poll :=
  laterPolls host (guarded processes) (host.monotonic t.readings + timeout) fuel
    ((firstPoll processes t).groups host) (t.probes + (guarded processes).length)
    (t.readings + 1)

/-- A reference that passes the filter names ptlab's own group. -/
def NamesOwnGroup (host : Host) : Prop :=
  ∃ ref ∈ processes, 1 < ref.pid ∧ 1 < ref.pgid ∧ ref.pgid = host.getpgrp

variable {processes timeout fuel t}

theorem mem_guarded {ref : ProcessRef} :
    ref ∈ guarded processes ↔ ref ∈ processes ∧ 1 < ref.pid ∧ 1 < ref.pgid := by
  unfold guarded
  rw [List.mem_filter, decide_eq_true_iff]

theorem any_own_iff : ((guarded processes).any fun ref => ref.pgid = host.getpgrp) = true ↔
    NamesOwnGroup processes host := by
  unfold NamesOwnGroup
  simp only [List.any_eq_true, mem_guarded, decide_eq_true_eq]
  constructor
  · rintro ⟨ref, ⟨hmem, hpid, hpgid⟩, hown⟩
    exact ⟨ref, hmem, hpid, hpgid, hown⟩
  · rintro ⟨ref, hmem, hpid, hpgid, hown⟩
    exact ⟨ref, ⟨hmem, hpid, hpgid⟩, hown⟩

/-- The guard: nothing has been asked and nothing sent. -/
theorem terminate_process_groups_own (h : NamesOwnGroup processes host) :
    (terminate_process_groups host processes timeout fuel).exec t =
      (.error (.RuntimeError "refusing to terminate the ptlab process group"), t) := by
  unfold terminate_process_groups
  dsimp only
  rw [if_pos (any_own_iff.mpr h), exec_throw]

theorem terminate_process_groups_exec (h : host.Answers)
    (hown : ¬ NamesOwnGroup processes host) :
    (terminate_process_groups host processes timeout fuel).exec t =
      (terminate host .group timeout (pollGroups host (guarded processes)) fuel
        ((firstPoll processes t).groups host)).exec
        { t with probes := t.probes + (guarded processes).length } := by
  unfold terminate_process_groups
  dsimp only
  rw [if_neg fun hany => hown (any_own_iff.mp hany), exec_bind, stillAlive_exec h]
  rfl

/-- **Both rounds**, if nothing is refused. -/
theorem terminate_process_groups_passed (h : host.Answers)
    (hown : ¬ NamesOwnGroup processes host)
    (hpass : ∀ g, (firstPoll processes t).Saw host g → ∀ signal, host.Passes ⟨.group g, signal⟩) :
    ∃ terms kills : List ℤ, ∃ t' : Trace,
      t'.signals = t.signals ++ signalsTo .SIGTERM terms ++ signalsTo .SIGKILL kills ∧
      terms.Nodup ∧ kills.Nodup ∧
      (∀ g, g ∈ terms ↔ (firstPoll processes t).Saw host g) ∧
      (∀ g ∈ kills, g ∈ terms) ∧
      (((terminate_process_groups host processes timeout fuel).exec t = (.error .unfinished, t') ∧
          kills = []) ∨
        ((terminate_process_groups host processes timeout fuel).exec t = (.ok (), t') ∧
          ∀ g, g ∈ kills ↔ g ∈ terms ∧
            ∀ poll ∈ waitPolls processes timeout fuel t host, poll.Saw host g)) := by
  have hterms : ∀ g, g ∈ host.order ((firstPoll processes t).groups host) ↔
      (firstPoll processes t).Saw host g := by
    intro g
    rw [host.mem_order, Poll.mem_groups]
  rw [terminate_process_groups_exec h hown]
  unfold terminate
  rw [exec_bind, sendAll_passed fun g hg => hpass g ((hterms g).mp hg) .SIGTERM]
  dsimp only
  rw [exec_bind]
  dsimp only [monotonic, exec_of]
  rw [exec_bind]
  obtain ⟨t', hkept, hend⟩ := waitWhile_polls h (guarded processes)
    (host.monotonic t.readings + timeout) fuel ((firstPoll processes t).groups host)
    { t with
      probes := t.probes + (guarded processes).length
      readings := t.readings + 1
      signals := t.signals ++ signalsTo .SIGTERM
        (host.order ((firstPoll processes t).groups host)) }
  rcases hend with hrun | ⟨left, hrun, hleft⟩
  · refine ⟨_, [], t', ?_, host.order_nodup _, List.nodup_nil, hterms, by simp, .inl ⟨?_, rfl⟩⟩
    · rw [hkept]
      exact (List.append_nil _).symm
    · rw [hrun]
  · -- what the wait leaves was there at the first poll
    have hsub : ∀ g, g ∈ host.order left → (firstPoll processes t).Saw host g := by
      intro g hg
      rw [host.mem_order, hleft, Poll.mem_groups] at hg
      exact hg.1
    refine ⟨_, host.order left,
      { t' with signals := t'.signals ++ signalsTo .SIGKILL (host.order left) }, ?_,
      host.order_nodup _, host.order_nodup _, hterms, fun g hg => (hterms g).mpr (hsub g hg),
      .inr ⟨?_, fun g => ?_⟩⟩
    · dsimp only
      rw [hkept]
    · rw [hrun]
      dsimp only
      rw [sendAll_passed fun g hg => hpass g (hsub g hg) .SIGKILL]
    · rw [host.mem_order, host.mem_order, hleft]
      rfl

/-- Followed for long enough, a run that nothing is refused to comes to its end. -/
theorem terminate_process_groups_returns (h : host.Answers)
    (hpass : ∀ g, (firstPoll processes t).Saw host g → ∀ signal, host.Passes ⟨.group g, signal⟩)
    (hown : ¬ NamesOwnGroup processes host) (hruns : host.Runs) (timeout : ℚ) :
    ∃ enough, ∀ fuel, enough ≤ fuel →
      ((terminate_process_groups host processes timeout fuel).exec t).1 = .ok () := by
  have hgroups : ∀ ref ∈ guarded processes, ref.pgid ≠ host.getpgrp := by
    intro ref href heq
    obtain ⟨hmem, hpid, hpgid⟩ := mem_guarded.mp href
    exact hown ⟨ref, hmem, hpid, hpgid, heq⟩
  obtain ⟨enough, hraises⟩ := terminate_process_groups_raises hruns hgroups timeout t
  refine ⟨enough, fun fuel hfuel => ?_⟩
  obtain ⟨terms, kills, t', -, -, -, -, -, hend⟩ :=
    @terminate_process_groups_passed host processes timeout fuel t h hown hpass
  rcases hend with ⟨hrun, -⟩ | ⟨hrun, -⟩
  · -- what is raised the system did, and this it did not
    have hbad := hraises fuel hfuel .unfinished (by rw [hrun])
    nomatch hbad
  · rw [hrun]

end Run

/-! ## A system where everybody stays -/

/-- Why a signal to a group fails: it is gone, or it is somebody else's. -/
inductive Failure where
  | ProcessLookupError
  | PermissionError
  deriving DecidableEq, Repr

def Failure.reply : Option Failure → Reply
  | none => .ok
  | some .ProcessLookupError => .ProcessLookupError
  | some .PermissionError => .PermissionError

/-- The set with one member in front, if it has it. -/
def inFront (d : ℤ) (groups : List ℤ) : List ℤ :=
  if d ∈ groups then d :: groups.dedup.erase d else groups.dedup

theorem inFront_nodup (d : ℤ) (groups : List ℤ) : (inFront d groups).Nodup := by
  have hdedup := List.nodup_dedup groups
  unfold inFront
  by_cases hd : d ∈ groups
  · rw [if_pos hd, List.nodup_cons]
    exact ⟨hdedup.not_mem_erase, hdedup.erase d⟩
  · rw [if_neg hd]
    exact hdedup

theorem mem_inFront (d : ℤ) (groups : List ℤ) (x : ℤ) : x ∈ inFront d groups ↔ x ∈ groups := by
  unfold inFront
  by_cases hd : d ∈ groups
  · rw [if_pos hd, List.mem_cons, (List.nodup_dedup groups).mem_erase_iff, List.mem_dedup]
    by_cases hx : x = d
    · simp [hx, hd]
    · simp [hx]
  · rw [if_neg hd, List.mem_dedup]

/-- Every process is there, these groups fail, and `d` comes first in every set. -/
def adverse (failure : ℤ → Option Failure) (d : ℤ) : Host where
  getpid := 0
  getpgrp := 0
  probe := fun _ _ => .ok
  deliver := fun _ s => match s.target with
    | .group g => Failure.reply (failure g)
    | .process _ => .ok
  monotonic := fun n => n
  order := inFront d
  order_nodup := inFront_nodup d
  mem_order := mem_inFront d

theorem adverse_answers (failure : ℤ → Option Failure) (d : ℤ) : (adverse failure d).Answers := by
  intro n pid message
  simp [adverse]

theorem adverse_runs (failure : ℤ → Option Failure) (d : ℤ) : (adverse failure d).Runs := by
  intro deadline
  obtain ⟨n, hn⟩ := exists_nat_ge deadline
  refine ⟨n, fun m hm => hn.trans ?_⟩
  show (n : ℚ) ≤ m
  exact_mod_cast hm

theorem adverse_own (failure : ℤ → Option Failure) (d : ℤ) (processes : List ProcessRef) :
    ¬ NamesOwnGroup processes (adverse failure d) := by
  rintro ⟨ref, -, -, hpgid, hown⟩
  have hzero : ref.pgid = 0 := hown
  omega

/-- On this system the first poll sees every guarded group. -/
theorem adverse_saw (failure : ℤ → Option Failure) (d : ℤ) {processes : List ProcessRef}
    {t : Trace} {ref : ProcessRef}
    (href : ref ∈ guarded processes) :
    (firstPoll processes t).Saw (adverse failure d) ref.pgid := by
  obtain ⟨i, hi⟩ := List.mem_iff_getElem?.mp href
  exact ⟨i, ref, hi, rfl, by simp [Host.isAlive, adverse]⟩

/-! ## The escalation -/

section Escalates

variable {host : Host}

/-- What a run has sent: SIGTERM to the first groups and then SIGKILL to the second. -/
structure Escalation (host : Host) (processes : List ProcessRef) (timeout : ℚ) (fuel : ℕ)
    (t : Trace) (terms kills : List ℤ) : Prop where
  signals : ((terminate_process_groups host processes timeout fuel).exec t).2.signals =
    t.signals ++ signalsTo .SIGTERM terms ++ signalsTo .SIGKILL kills
  terms_once : terms.Nodup
  kills_once : kills.Nodup
  recorded : ∀ g ∈ terms, 1 < g ∧ ∃ ref ∈ processes, ref.pgid = g
  escalates : ∀ g ∈ kills, g ∈ terms
  terms_iff : ∀ g, g ∈ terms ↔ (firstPoll processes t).Saw host g
  outcome :
    (((terminate_process_groups host processes timeout fuel).exec t).1 = .error .unfinished ∧
      kills = []) ∨
    (((terminate_process_groups host processes timeout fuel).exec t).1 = .ok () ∧
      ∀ g, g ∈ kills ↔ (firstPoll processes t).Saw host g ∧
        ∀ poll ∈ waitPolls processes timeout fuel t host, poll.Saw host g)

/-- **The escalation.** The guard lets nothing happen, or every group with a living
reference at the first poll is sent SIGTERM once, and once SIGKILL exactly if every
later poll saw one too. A run that ends is one that is followed for long enough. -/
theorem terminate_process_groups_escalates (h : host.Answers) (hpass : ∀ s, host.Passes s)
    (processes : List ProcessRef) (timeout : ℚ) (t : Trace) :
    (NamesOwnGroup processes host → ∀ fuel,
      (terminate_process_groups host processes timeout fuel).exec t =
        (.error (.RuntimeError "refusing to terminate the ptlab process group"), t)) ∧
    (¬ NamesOwnGroup processes host →
      (∀ fuel, ∃ terms kills, Escalation host processes timeout fuel t terms kills) ∧
      (host.Runs → ∃ enough, ∀ fuel, enough ≤ fuel →
        ((terminate_process_groups host processes timeout fuel).exec t).1 = .ok ())) := by
  refine ⟨fun hown fuel => terminate_process_groups_own hown, fun hown => ⟨fun fuel => ?_,
    fun hruns => terminate_process_groups_returns h (fun g _ signal => hpass _) hown hruns timeout⟩⟩
  -- every signal passes, so that only the time can cut the run short
  obtain ⟨terms, kills, t', hsignals, hterms, hkills, hsaw, hsub, hend⟩ :=
    @terminate_process_groups_passed host processes timeout fuel t h hown
      fun g _ signal => hpass _
  refine ⟨terms, kills, ?_, hterms, hkills, fun g hg => ?_, hsub, hsaw, ?_⟩
  · rcases hend with ⟨hrun, -⟩ | ⟨hrun, -⟩
    · rw [hrun, hsignals]
    · rw [hrun, hsignals]
  · obtain ⟨ref, href, rfl⟩ := ((hsaw g).mp hg).asked
    obtain ⟨hmem, -, hpgid⟩ := mem_guarded.mp href
    exact ⟨hpgid, ref, hmem, rfl⟩
  · rcases hend with ⟨hrun, hnone⟩ | ⟨hrun, hall⟩
    · left
      exact ⟨by rw [hrun], hnone⟩
    · right
      refine ⟨by rw [hrun], fun g => ?_⟩
      rw [hall, hsaw]

/-- No process goes away, and two of them share a group. -/
theorem terminate_process_groups_escalates_shared :
    let host := adverse (fun _ => none) 10
    let processes : List ProcessRef := [⟨10, 10, "a"⟩, ⟨11, 10, "b"⟩, ⟨20, 20, "c"⟩]
    ∃ enough, ∀ fuel, enough ≤ fuel →
      ((terminate_process_groups host processes 3 fuel).exec ⟨0, 0, []⟩).1 = .ok () ∧
        ∃ terms kills, Escalation host processes 3 fuel ⟨0, 0, []⟩ terms kills := by
  intro host processes
  have hpass : ∀ s, host.Passes s := by
    rintro ⟨_ | _, signal⟩ n
    · exact .inl rfl
    · exact .inl rfl
  obtain ⟨-, hrun⟩ := terminate_process_groups_escalates (adverse_answers _ _) hpass processes 3
    ⟨0, 0, []⟩
  obtain ⟨hsent, hreturns⟩ := hrun (adverse_own _ _ _)
  obtain ⟨enough, hreturns⟩ := hreturns (adverse_runs _ _)
  exact ⟨enough, fun fuel hfuel => ⟨hreturns fuel hfuel, hsent fuel⟩⟩

end Escalates

/-! ## Groups that cannot be signalled -/

/-- The system fails just the signals to these groups. -/
def Host.Fails (host : Host) (failure : ℤ → Option Failure) : Prop :=
  ∀ n g signal, host.deliver n ⟨.group g, signal⟩ = Failure.reply (failure g)

/-- What a run sends to a group is sent, whatever becomes of the others. -/
def Reached (host : Host) (processes : List ProcessRef) (timeout : ℚ) (fuel : ℕ) (t : Trace)
    (g : ℤ) : Prop :=
  (firstPoll processes t).Saw host g →
    ⟨.group g, .SIGTERM⟩ ∈ ((terminate_process_groups host processes timeout fuel).exec
      t).2.signals.drop t.signals.length ∧
    ((∀ poll ∈ waitPolls processes timeout fuel t host, poll.Saw host g) →
      ⟨.group g, .SIGKILL⟩ ∈ ((terminate_process_groups host processes timeout fuel).exec
        t).2.signals.drop t.signals.length)

/-- On every system that fails just these groups, and in any order of iteration and
course of events, the other groups get their signals. -/
def SparesOthers (processes : List ProcessRef) (failure : ℤ → Option Failure) (timeout : ℚ) :
    Prop :=
  ∀ host : Host, host.Answers → host.Runs → host.Fails failure →
    ¬ NamesOwnGroup processes host → ∀ t, ∃ enough, ∀ fuel, enough ≤ fuel →
      ∀ g, failure g = none → Reached host processes timeout fuel t g

section Failing

variable {host : Host} {processes : List ProcessRef} {failure : ℤ → Option Failure} {timeout : ℚ}
  {t : Trace}

theorem signalsTo_mem {signal : Signal} {groups : List ℤ} {g : ℤ} (h : g ∈ groups) :
    ⟨.group g, signal⟩ ∈ signalsTo signal groups :=
  List.mem_map_of_mem h

/-- A run in whose first poll no group is seen that refuses its signals reaches all
others. -/
theorem reached_of_unrefused (h : host.Answers) (hruns : host.Runs) (hfails : host.Fails failure)
    (hown : ¬ NamesOwnGroup processes host)
    (hunrefused : ∀ g, (firstPoll processes t).Saw host g →
      failure g ≠ some .PermissionError) (timeout : ℚ) :
    ∃ enough, ∀ fuel, enough ≤ fuel → ∀ g, Reached host processes timeout fuel t g := by
  have hpass : ∀ g, (firstPoll processes t).Saw host g →
      ∀ signal, host.Passes ⟨.group g, signal⟩ := by
    intro g hg signal n
    rw [hfails n g signal]
    -- a group that is gone counts as passed, and none is refused
    rcases hfailure : failure g with _ | _ | _
    · exact .inl rfl
    · exact .inr rfl
    · exact absurd hfailure (hunrefused g hg)
  obtain ⟨enough, hreturns⟩ := terminate_process_groups_returns h hpass hown hruns timeout
  refine ⟨enough, fun fuel hfuel g hsaw => ?_⟩
  obtain ⟨terms, kills, t', hsignals, -, -, hterms, -, hend⟩ :=
    @terminate_process_groups_passed host processes timeout fuel t h hown hpass
  have hok := hreturns fuel hfuel
  rcases hend with ⟨hrun, -⟩ | ⟨hrun, hkills⟩
  · rw [hrun] at hok
    cases hok
  · rw [hrun, hsignals, List.append_assoc, List.drop_left]
    constructor
    · exact List.mem_append_left _ (signalsTo_mem ((hterms g).mpr hsaw))
    · intro hall
      exact List.mem_append_right _ (signalsTo_mem ((hkills g).mpr ⟨(hterms g).mpr hsaw, hall⟩))

/-- The refusal of the first signal is the end of the run. -/
theorem adverse_exec {ref : ProcessRef} (href : ref ∈ guarded processes)
    (hrefused : failure ref.pgid = some .PermissionError) (timeout : ℚ) (fuel : ℕ) (t : Trace) :
    ((terminate_process_groups (adverse failure ref.pgid) processes timeout fuel).exec t).2.signals
      = t.signals ++ [⟨.group ref.pgid, .SIGTERM⟩] := by
  have hmem : ref.pgid ∈ (firstPoll processes t).groups (adverse failure ref.pgid) :=
    (Poll.mem_groups _ _).mpr (adverse_saw failure ref.pgid href)
  -- this host goes through its groups with the refused one in front
  have horder : (adverse failure ref.pgid).order
      ((firstPoll processes t).groups (adverse failure ref.pgid)) = [] ++ ref.pgid ::
        ((firstPoll processes t).groups (adverse failure ref.pgid)).dedup.erase ref.pgid := by
    simp only [adverse, inFront, List.nil_append] at hmem ⊢
    rw [if_pos hmem]
  have hdenied : ∀ n, (adverse failure ref.pgid).deliver n ⟨.group ref.pgid, .SIGTERM⟩ =
      .PermissionError := by
    intro n
    simp [adverse, hrefused, Failure.reply]
  rw [terminate_process_groups_exec (adverse_answers _ _) (adverse_own _ _ _)]
  unfold terminate
  rw [exec_bind, horder, sendAll_refused (by simp) hdenied]
  simp [signalsTo]

theorem not_sparesOthers {ref other : ProcessRef} (href : ref ∈ guarded processes)
    (hrefused : failure ref.pgid = some .PermissionError) (hother : other ∈ guarded processes)
    (hspared : failure other.pgid = none) (timeout : ℚ) :
    ¬ SparesOthers processes failure timeout := by
  intro h
  obtain ⟨enough, hall⟩ := h (adverse failure ref.pgid) (adverse_answers _ _) (adverse_runs _ _)
    (fun _ _ _ => rfl) (adverse_own _ _ _) ⟨0, 0, []⟩
  obtain ⟨hterm, -⟩ := hall enough le_rfl other.pgid hspared (adverse_saw failure ref.pgid hother)
  rw [adverse_exec href hrefused] at hterm
  simp only [List.nil_append, List.length_nil, List.drop_zero, List.mem_singleton, Sent.mk.injEq,
    Target.group.injEq, and_true] at hterm
  rw [hterm, hrefused] at hspared
  cases hspared

variable (processes failure timeout)

/-- **Who is spared.** The others get their signals on every system exactly if no
guarded group refuses them, or there is no other guarded group. -/
theorem sparesOthers_iff : SparesOthers processes failure timeout ↔
    ¬ ((∃ ref ∈ guarded processes, failure ref.pgid = some .PermissionError) ∧
      ∃ ref ∈ guarded processes, failure ref.pgid = none) := by
  constructor
  · rintro h ⟨⟨ref, href, hrefused⟩, other, hother, hspared⟩
    exact not_sparesOthers href hrefused hother hspared timeout h
  · intro hcond host hanswers hruns hfails hown t
    by_cases hrefused : ∃ ref ∈ guarded processes, failure ref.pgid = some .PermissionError
    · -- every group that is seen fails
      refine ⟨0, fun fuel _ g hspared hsaw => ?_⟩
      obtain ⟨ref, href, rfl⟩ := hsaw.asked
      exact absurd ⟨hrefused, ref, href, hspared⟩ hcond
    · have hunrefused : ∀ g, (firstPoll processes t).Saw host g →
          failure g ≠ some .PermissionError := by
        intro g hsaw hg
        obtain ⟨ref, href, rfl⟩ := hsaw.asked
        exact hrefused ⟨ref, href, hg⟩
      obtain ⟨enough, hreached⟩ :=
        reached_of_unrefused hanswers hruns hfails hown hunrefused timeout
      exact ⟨enough, fun fuel hfuel g _ => hreached fuel hfuel g⟩

end Failing

/-- Two groups, the first of which is somebody else's by now. -/
def recycled : List ProcessRef := [⟨4711, 4711, "xvfb"⟩, ⟨4712, 4712, "infinisim"⟩]

def recycledFailure (g : ℤ) : Option Failure := if g = 4711 then some .PermissionError else none

/-- The second group is alive and never gets a signal. -/
theorem recycled_group_shields_the_other :
    ((terminate_process_groups (adverse recycledFailure 4711) recycled 3 1000).exec
        ⟨0, 0, []⟩ = (.error .PermissionError, ⟨2, 0, [⟨.group 4711, .SIGTERM⟩]⟩)) ∧
      ¬ SparesOthers recycled recycledFailure 3 := by
  constructor
  · rfl
  · have hfirst : (⟨4711, 4711, "xvfb"⟩ : ProcessRef) ∈ guarded recycled := by decide
    have hsecond : (⟨4712, 4712, "infinisim"⟩ : ProcessRef) ∈ guarded recycled := by decide
    exact not_sparesOthers hfirst (by decide) hsecond (by decide) 3

end Ptlab.Processes
