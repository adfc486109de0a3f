/-
`family_handoff` (`src/ptlab/scenarios.py`) on a watch.

The watch and the simulator around it are not code of this repository. `Conforms` is
what the scenario relies on: each client finds a watch that follows the protocol, where
commits may take effect late, and nothing but a commit changes a set of records. The
scenario tells its commits by fixed versions. On such a watch that has not had them
before, it never blames the watch for the records (`family_handoff_sound`): what family
B finds is what family A pushed, and A finds what B made of it, whatever is refused and
wherever the link fails.
-/
import Ptlab.Scenario
import Ptlab.Wire.Cabinet
import Ptlab.Wire.TaskRecord

set_option autoImplicit false

open Bytes Dialogue Effect Ptlab.Artifacts Ptlab.Gatt Ptlab.Protocol Ptlab.Wire

namespace Ptlab.Scenario.OnWatch

/-- `BUSY_STATUS` of `gatt.py`. -/
def BUSY_STATUS : UInt8 := 0xFD

/-! ## The bench -/

/-- What a scenario uses: the control connection, and clients of the bridge by number. -/
structure Bench (σ : Type) where
  open_control : Effect σ Unit Unit
  command : String → Effect σ Unit Unit
  gatt : Effect σ Unit ℕ
  close : ℕ → Effect σ Unit Unit
  carry : ℕ → (call : Call) → Effect σ Unit call.Reply

/-- What is done changes no set, however it ends: time passes. -/
def Keeps {σ α : Type} (view : σ → Drawers) (m : Effect σ Unit α) : Prop :=
  ∀ v, Triple (fun s => view s = v) m (fun _ s => Later v (view s)) fun _ s => Later v (view s)

/-- The watch follows the protocol, and only a commit changes a set. -/
structure Bench.Conforms {σ : Type} (bench : Bench σ) (view : σ → Drawers) : Prop where
  follows : ∀ client, Follows (bench.carry client) view
  battery : ∀ client, Keeps view (bench.carry client (.request "battery" OP_READ []))
  open_control : Keeps view bench.open_control
  command : ∀ text, Keeps view (bench.command text)
  gatt : Keeps view bench.gatt
  close : ∀ client, Keeps view (bench.close client)

/-- A scenario at work: the assertions recorded so far, and the bench. -/
abbrev OnBench (σ α : Type) : Type := Effect (List Assertion × σ) PyError α

section Functions

variable {σ : Type}

/-- What is raised by the bench is not told apart. -/
def use {α : Type} (m : Effect σ Unit α) : OnBench σ α :=
  outside (mapException (fun _ => .other "RuntimeError" "") m)

/-- `ScenarioContext.check`. -/
def check (args : CheckArgs) : OnBench σ Unit := Effect.assign (· ++ [args.assertion])

/-- `ScenarioContext.require`. -/
def require (args : CheckArgs) : OnBench σ Unit := do
  check args
  if args.condition then pure () else throw (.other "AssertionError" args.name)

/-- The arguments of a check that names neither value. -/
def told (condition : Bool) (name : String) : CheckArgs := ⟨condition, name, "None", "None", ""⟩

/-- A record of an encoder. -/
def encoded {ε : Type} (outcome : Except ε (List UInt8)) : OnBench σ (List UInt8) :=
  lift (outcome.mapError fun _ => .other "ValueError" "")

/-- `_peer`. -/
def _peer (value : ℕ) : String :=
  "NEXT_PEER 1 " ++ String.join
    ([UInt8.ofNat value, UInt8.ofNat (value + 1), 2, 3, 4, 5].map hex02) ++ " AUTHENTICATED"

/-- `date(year, month, day)`, where there is that day. -/
def dateOf (year : ℤ) (month day : ℕ)
    (h : 1 ≤ month ∧ month ≤ 12 ∧ 1 ≤ day ∧ day ≤ Civil.daysInMonth year month) : Civil.Date :=
  ⟨year, month, day, h.1, h.2.1, h.2.2.1, h.2.2.2⟩

theorem anchor_date : 1 ≤ 7 ∧ 7 ≤ 12 ∧ 1 ≤ 14 ∧ 14 ≤ Civil.daysInMonth 2026 7 := by decide

theorem anchor_year : (1 : ℤ) ≤ 2026 ∧ (2026 : ℤ) ≤ 9999 := by decide

/-- `encode_schedule_record(identifier=…, title=…)`, with the defaults. -/
def scheduleArgs (identifier : ℤ) (title : String) : ScheduleArgs where
  identifier := identifier
  title := title
  hour := 7
  minute := 30
  rule_kind := 1
  anchor := ⟨dateOf 2026 7 14 anchor_date, anchor_year⟩
  parameter := 1
  enabled := true
  last_modified := 1789000000
  end_ := none

def taskArgs (identifier order : ℤ) (title : String) : TaskArgs :=
  ⟨identifier, order, title, 1789000000⟩

def recordVersion : Family → ℤ
  | .schedule => SCHEDULE_RECORD_VERSION
  | .tasks => RECORDS.task_record_version

/-- The `repr` of a digest, or of none. -/
def reprDigest : Option Digest → String
  | none => "None"
  | some digest =>
    let streak := match digest.streak with
      | none => "None"
      | some streak => toString streak
    s!"Digest(protocol={digest.protocol}, capacity={digest.capacity}, " ++
      s!"count={digest.count}, version={digest.version}, streak={streak})"

/-- The loop of `_wait_digest`: the last digest, if the deadline came first. -/
def awaitDigest (characteristic : String) (count version : ℕ) (deadline : ℤ) :
    ℕ → Option Digest → Client PushExc (Option (Option Digest))
  | 0, _ => .fail .waiting
  | readings + 1, last => do
    let now ← Client.monotonic
    if now < deadline then
      let response ← Client.read characteristic
      if response.status = 0 then
        let digest ← Client.ofWire (parse_digest response.payload)
        if digest.count = count ∧ digest.version = version then return none
        else awaitDigest characteristic count version deadline readings (some digest)
      else awaitDigest characteristic count version deadline readings last
    else return some last

/-- What `_wait_digest` requires at the deadline. -/
def becomesLive (characteristic : String) (count version : ℕ) (last : Option Digest) : CheckArgs :=
  ⟨false, characteristic ++ " commit becomes live", reprDigest last,
    "\x7b'count': " ++ toString count ++ ", 'version': " ++ toString version ++ "\x7d", ""⟩

variable (bench : Bench σ) (readings : ℕ)

/-- A function of `wire.py` with a client. -/
def client {ε α : Type} (number : ℕ) (d : Client ε α) : OnBench σ α :=
  use (onWatch (bench.carry number) d)

/-- `_wait_digest`. -/
def _wait_digest (number : ℕ) (characteristic : String) (count version : ℕ) : OnBench σ Unit := do
  let start ← client bench number (Client.monotonic (ε := PushExc))
  let outcome ← client bench number
    (awaitDigest characteristic count version (start + 3000000000) readings none)
  match outcome with
  | none => pure ()
  | some last => require (becomesLive characteristic count version last)

/-- `push_records` of a family. -/
def push (number : ℕ) (f : Family) (records : List (List UInt8)) (version : ℤ) : OnBench σ Unit :=
  client bench number (Client.push_records readings f.sync records version (recordVersion f))

/-- `pull_records` of a family. -/
def pull (number : ℕ) (f : Family) : OnBench σ (Digest × List (List UInt8)) :=
  client bench number (pull_records f.digest f.record)

/-- The numbers of some records, `struct.unpack_from("<H", record)[0]`. -/
def identifiers (records : List (List UInt8)) : OnBench σ (Finset ℕ) :=
  if records.all (2 ≤ ·.length) then return (records.map (read16 · 0)).toFinset
  else throw (.other "error" "unpack_from requires a buffer of at least 2 bytes")

/-! ## `family_handoff` -/

def busyCheck (status : UInt8) : CheckArgs :=
  ⟨status = BUSY_STATUS, "family B cannot replace incumbent A implicitly", toString status.toNat,
    toString BUSY_STATUS.toNat, ""⟩

/-- Family B is refused while A is there. -/
def blocked (number : ℕ) : OnBench σ Unit := do
  let busy ← client bench number (Client.read (ε := PushExc) "battery")
  check (busyCheck busy.status)

/-- Family B takes what is on the watch, and adds to it. -/
def adopt (schedule_a task_a : List UInt8) (number : ℕ) : OnBench σ Unit := do
  let (schedule_digest, schedules) ← pull bench number .schedule
  let (task_digest, tasks) ← pull bench number .tasks
  check (told (schedule_digest.version = 1001 ∧ schedules = [schedule_a])
    "family B adopts watch-authoritative schedule A")
  check (told (task_digest.version = 2001 ∧ tasks = [task_a])
    "family B adopts watch-authoritative task A")
  let schedule_b ← encoded (encode_schedule_record (scheduleArgs 102 "B schedule"))
  let task_b ← encoded (encode_task_record (taskArgs 202 1 "B task"))
  push bench readings number .schedule (schedules ++ [schedule_b]) 1002
  push bench readings number .tasks (tasks ++ [task_b]) 2002
  _wait_digest bench readings number "schedule_digest" 2 1002
  _wait_digest bench readings number "tasks_digest" 2 2002

/-- A check of a version and of numbers, which are looked at for that version alone. -/
def checkMerged (pulled : Digest × List (List UInt8)) (version : ℕ) (numbers : Finset ℕ)
    (name : String) : OnBench σ Unit :=
  if pulled.1.version = version then do
    let found ← identifiers pulled.2
    check (told (found = numbers) name)
  else check (told false name)

/-- Family A looks again. -/
def seen (number : ℕ) : OnBench σ Unit := do
  let schedules ← pull bench number .schedule
  let tasks ← pull bench number .tasks
  checkMerged schedules 1002 {101, 102} "family A sees B's merged schedule after release"
  checkMerged tasks 2002 {201, 202} "family A sees B's merged task list after release"

/-- `with context.gatt() as client`. -/
def withGatt (body : ℕ → OnBench σ Unit) : OnBench σ Unit := do
  let number ← use bench.gatt
  ensure (body number) (use (bench.close number))

def family_handoff : OnBench σ Unit := do
  use bench.open_control
  let schedule_a ← encoded (encode_schedule_record (scheduleArgs 101 "A schedule"))
  let task_a ← encoded (encode_task_record (taskArgs 201 0 "A task"))
  use (bench.command (_peer 50))
  let client_a ← use bench.gatt
  push bench readings client_a .schedule [schedule_a] 1001
  push bench readings client_a .tasks [task_a] 2001
  _wait_digest bench readings client_a "schedule_digest" 1 1001
  _wait_digest bench readings client_a "tasks_digest" 1 2001
  use (bench.command (_peer 51))
  withGatt bench (blocked bench)
  use (bench.close client_a)
  use (bench.command (_peer 51))
  withGatt bench (adopt bench readings schedule_a task_a)
  use (bench.command (_peer 50))
  withGatt bench (seen bench)

end Functions

/-! ## What may fail -/

/-- The checks that are not about records: the watch took a second client, or did not answer
for so long. -/
def excuses : List String :=
  ["family B cannot replace incumbent A implicitly", "schedule_digest commit becomes live",
    "tasks_digest commit becomes live"]

/-- No other check has failed. -/
def Excused (recorded : List Assertion) : Prop :=
  ∀ a ∈ recorded, a.passed = false → a.name ∈ excuses

theorem Excused.append {recorded : List Assertion} (h : Excused recorded) {args : CheckArgs}
    (hargs : args.condition = false → args.name ∈ excuses) :
    Excused (recorded ++ [args.assertion]) := by
  intro a ha
  rcases List.mem_append.mp ha with ha | ha
  · exact h a ha
  · rw [List.mem_singleton.mp ha]
    exact hargs

theorem Excused.append_passed {recorded more : List Assertion} (h : Excused recorded)
    (hmore : more.all (·.passed) = true) : Excused (recorded ++ more) := by
  intro a ha
  rcases List.mem_append.mp ha with ha | ha
  · exact h a ha
  · intro hfailed
    rw [List.all_eq_true.mp hmore a ha] at hfailed
    cases hfailed

section Rules

variable {σ : Type} {bench : Bench σ} {view : σ → Drawers} {recorded : List Assertion}
  {k : Knowledge}

/-- So much has been recorded, and so much is known of the sets. -/
def At (view : σ → Drawers) (recorded : List Assertion) (k : Knowledge)
    (s : List Assertion × σ) : Prop :=
  s.1 = recorded ∧ Agrees k (view s.2)

/-- From there to `Q`, and without blaming the watch if it is not reached. -/
def Leads {α : Type} (view : σ → Drawers) (recorded : List Assertion) (k : Knowledge)
    (m : OnBench σ α) (Q : α → List Assertion × σ → Prop) : Prop :=
  Triple (At view recorded k) m Q fun _ s => Excused s.1

theorem use_rule {α : Type} {m : Effect σ Unit α} {Q : α → σ → Prop} {E : Unit → σ → Prop}
    (hrecorded : Excused recorded) (hm : Triple (fun s => Agrees k (view s)) m Q E) :
    Leads view recorded k (use m) fun a s => s.1 = recorded ∧ Q a s.2 := by
  rintro s ⟨hs, hheld⟩
  unfold use
  rw [exec_outside]
  unfold mapException
  rw [exec_of]
  rcases hrun : m.exec s.2 with ⟨e | a, t⟩
  · dsimp only
    rw [hs]
    exact hrecorded
  · exact ⟨hs, hm.of_ok hheld hrun⟩

theorem use_keeps {α : Type} {m : Effect σ Unit α} (hrecorded : Excused recorded)
    (hm : Keeps view m) : Leads view recorded k (use m) fun _ => At view recorded k := by
  have hkeeps : Always (fun s => Agrees k (view s)) m := fun s hs =>
    (hm (view s)).conseq (fun _ ht => ht) (fun _ _ ht => lasting_agrees k _ _ ht hs)
      (fun _ _ ht => lasting_agrees k _ _ ht hs) s rfl
  exact use_rule hrecorded hkeeps

theorem encoded_rule {ε : Type} {outcome : Except ε (List UInt8)} {record : List UInt8}
    (h : outcome = .ok record) :
    Leads view recorded k (encoded outcome) fun a s => At view recorded k s ∧ a = record := by
  rw [h]
  exact fun s hs => ⟨hs, rfl⟩

theorem check_rule (args : CheckArgs) :
    Leads view recorded k (check args) fun _ => At view (recorded ++ [args.assertion]) k := by
  rintro s ⟨hs, hheld⟩
  exact ⟨congrArg (· ++ [args.assertion]) hs, hheld⟩

variable (hconforms : bench.Conforms view) (hrecorded : Excused recorded)

include hconforms hrecorded

theorem push_rule (readings number : ℕ) (f : Family) (records : List (List UInt8)) (version : ℤ) :
    Leads view recorded k (push bench readings number f records version) fun _ =>
      At view recorded (k.put f ⟨version.toNat, records⟩ true) :=
  use_rule hrecorded (push_family (hconforms.follows number) f readings records version _ k)

/-- Where the set is known, it is what a pull finds. -/
theorem pull_rule (number : ℕ) (f : Family) {contents : Contents}
    (hone : (k f).possible = {contents}) :
    Leads view recorded k (pull bench number f) fun pulled s => At view recorded k s ∧
      pulled.1.version = contents.version ∧ pulled.2 = contents.records := by
  refine (use_rule hrecorded (pull_family (hconforms.follows number) f k)).conseq (fun _ h => h)
    (fun pulled _ h => ⟨⟨h.1, h.2.1⟩, ?_⟩) fun _ _ h => h
  have hpieced := h.2.2
  rw [hone] at hpieced
  exact Contents.mk.inj hpieced.eq

omit hrecorded in
/-- Every digest that is read is the one that is waited for. -/
theorem awaitDigest_rule (number : ℕ) (f : Family) {contents : Contents}
    (hone : (k f).possible = {contents}) (deadline : ℤ) (readings : ℕ) :
    Triple (fun s => Agrees k (view s))
      (onWatch (bench.carry number)
        (awaitDigest f.digest contents.records.length contents.version deadline readings none))
      (fun outcome s => Agrees k (view s) ∧ (outcome = none ∨ outcome = some none))
      (fun _ _ => True) := by
  have hfollows := hconforms.follows number
  induction readings with
  | zero => exact triple_throw fun _ _ => trivial
  | succ readings ih =>
      rw [awaitDigest, onWatch_bind]
      refine triple_bind ((clock_rule hfollows (lasting_agrees k)).raises fun _ _ _ => trivial)
        fun now => ?_
      split_ifs
      · rw [onWatch_bind]
        refine triple_bind ((digest_rule hfollows f k).raises fun _ _ _ => trivial) fun response => ?_
        by_cases hstatus : response.status = 0
        · rw [if_pos hstatus, onWatch_bind]
          refine triple_bind (Q := fun digest s => Agrees k (view s) ∧
            (digest.count = contents.records.length ∧ digest.version = contents.version)) ?_
            fun digest => triple_assume fun hdigest => ?_
          · refine onWatch_ofExcept (fun digest hparse s hs => ⟨hs.1, ?_⟩) fun _ _ _ _ => trivial
            obtain ⟨shown, hshown, hdigest⟩ := hs.2 hstatus digest (mapError_ok_iff.mp hparse)
            rw [hone] at hshown
            exact hshown ▸ hdigest
          · rw [if_pos hdigest]
            exact triple_pure fun s hs => ⟨hs, .inl rfl⟩
        · rw [if_neg hstatus]
          exact ih.conseq (fun _ h => h.1) (fun _ _ h => h) fun _ _ h => h
      · exact triple_pure fun s hs => ⟨hs, .inr rfl⟩

theorem wait_rule (readings number : ℕ) (f : Family) {contents : Contents}
    (hone : (k f).possible = {contents}) {count version : ℕ}
    (hcount : contents.records.length = count) (hversion : contents.version = version) :
    Leads view recorded k (_wait_digest bench readings number f.digest count version) fun _ =>
      At view recorded k := by
  subst hcount hversion
  unfold _wait_digest
  refine triple_bind (use_rule hrecorded
    (clock_rule (hconforms.follows number) (lasting_agrees k))) fun start => ?_
  refine triple_bind (use_rule hrecorded (awaitDigest_rule hconforms number f hone _ readings))
    fun outcome => ?_
  cases outcome with
  | none => exact triple_pure fun s hs => ⟨hs.1, hs.2.1⟩
  | some last =>
      refine triple_bind (Q := fun _ s => Excused s.1) ?_ fun _ => triple_throw fun _ hs => hs
      rintro s ⟨hs, -⟩
      have hname : f.digest ++ " commit becomes live" ∈ excuses := by
        cases f <;> decide
      rw [← hs] at hrecorded
      exact hrecorded.append fun _ => hname

omit hconforms hrecorded in
theorem identifiers_rule {records : List (List UInt8)} {found : Finset ℕ}
    (hlong : records.all (2 ≤ ·.length) = true)
    (hfound : (records.map (read16 · 0)).toFinset = found) :
    Leads view recorded k (identifiers records) fun numbers s =>
      At view recorded k s ∧ numbers = found := by
  unfold identifiers
  rw [if_pos hlong]
  exact triple_pure fun s hs => ⟨hs, hfound⟩

/-- A client that is closed in the end. -/
theorem withGatt_rule {body : ℕ → OnBench σ Unit} {Q : List Assertion × σ → Prop}
    (hclose : ∀ number, Triple Q (use (bench.close number)) (fun _ => Q) fun _ s => Excused s.1)
    (hbody : ∀ number, Leads view recorded k (body number) fun _ => Q) :
    Leads view recorded k (withGatt bench body) fun _ => Q := by
  refine triple_bind (use_keeps hrecorded hconforms.gatt) fun number => ?_
  refine triple_ensure (hbody number) (fun _ => hclose number) fun e s hs => ?_
  -- whatever it does to the bench, closing records nothing
  unfold use
  rw [exec_outside]
  rcases (mapException (fun _ => PyError.other "RuntimeError" "") (bench.close number)).exec s.2
    with ⟨_ | _, t⟩
  · exact hs
  · exact hs

/-! ## The sets -/

/-- The records of both families. -/
def scheduleA : List UInt8 :=
  (encode_schedule_record (scheduleArgs 101 "A schedule")).toOption.getD []

def scheduleB : List UInt8 :=
  (encode_schedule_record (scheduleArgs 102 "B schedule")).toOption.getD []

def taskA : List UInt8 := (encode_task_record (taskArgs 201 0 "A task")).toOption.getD []

def taskB : List UInt8 := (encode_task_record (taskArgs 202 1 "B task")).toOption.getD []

/-- What family A pushes, and what family B makes of it. -/
def first : Family → Contents
  | .schedule => ⟨1001, [scheduleA]⟩
  | .tasks => ⟨2001, [taskA]⟩

def merged : Family → Contents
  | .schedule => ⟨1002, [scheduleA, scheduleB]⟩
  | .tasks => ⟨2002, [taskA, taskB]⟩

/-- These are the sets, and nothing waits. -/
def Are (c : Family → Contents) (k : Knowledge) : Prop := ∀ f, (k f).possible = {c f}

/-- The watch has not had their versions. -/
def Fresh (c : Family → Contents) (k : Knowledge) : Prop := ∀ f, (c f).version ∉ (k f).tags

/-- Both sets are pushed. -/
def bothPut (c : Family → Contents) (k : Knowledge) : Knowledge :=
  (k.put .schedule (c .schedule) true).put .tasks (c .tasks) true

omit hconforms hrecorded in
theorem bothPut_apply (c : Family → Contents) (k : Knowledge) (f : Family) :
    bothPut c k f = (k f).put Contents.version (c f) true := by
  cases f <;> rfl

omit hconforms hrecorded in
/-- **Both sets are replaced** by what has new versions. -/
theorem are_bothPut {c : Family → Contents} (hnew : Fresh c k) : Are c (bothPut c k) := by
  intro f
  rw [bothPut_apply]
  ext contents
  exact ⟨fun h => h.elim id fun h => absurd (h.2 rfl) (hnew f), .inl⟩

omit hconforms hrecorded in
/-- The versions of the one push are not those of the other. -/
theorem fresh_merged (hnew : Fresh merged k) : Fresh merged (bothPut first k) := by
  intro f
  rw [bothPut_apply]
  rintro (hsame | hold)
  · revert hsame
    cases f <;> decide
  · exact hnew f hold

theorem blocked_rule (number : ℕ) :
    Leads view recorded k (blocked bench number) fun _ s =>
      ∃ status, At view (recorded ++ [(busyCheck status).assertion]) k s := by
  refine triple_bind (Q := fun _ => At view recorded k) ?_ fun busy => ?_
  · unfold client Client.read onWatch
    rw [perform_question]
    exact use_keeps hrecorded (hconforms.battery number)
  · exact (check_rule _).conseq (fun _ h => h) (fun _ s hs => ⟨busy.status, hs⟩) fun _ _ h => h

omit hconforms hrecorded in
theorem encoded_schedules :
    encode_schedule_record (scheduleArgs 101 "A schedule") = .ok scheduleA ∧
      encode_schedule_record (scheduleArgs 102 "B schedule") = .ok scheduleB := ⟨rfl, rfl⟩

omit hconforms hrecorded in
theorem encoded_tasks : encode_task_record (taskArgs 201 0 "A task") = .ok taskA ∧
    encode_task_record (taskArgs 202 1 "B task") = .ok taskB := ⟨rfl, rfl⟩

/-- What family B checks, of what it found. -/
def adopted : List Assertion :=
  [(told true "family B adopts watch-authoritative schedule A").assertion,
    (told true "family B adopts watch-authoritative task A").assertion]

/-- **Family B finds what is there**, and leaves both together. -/
theorem adopt_rule (hfirst : Are first k) (hnew : Fresh merged k) (readings number : ℕ) :
    Leads view recorded k (adopt bench readings scheduleA taskA number) fun _ =>
      At view (recorded ++ adopted) (bothPut merged k) := by
  have hmerged := are_bothPut hnew
  have hchecked : Excused (recorded ++ adopted) := hrecorded.append_passed rfl
  unfold adopt
  refine triple_bind (pull_rule hconforms hrecorded number .schedule (hfirst .schedule)) fun schedules =>
    triple_assume fun hschedules => ?_
  refine triple_bind (pull_rule hconforms hrecorded number .tasks (hfirst .tasks)) fun tasks =>
    triple_assume fun htasks => ?_
  obtain ⟨schedule_digest, schedules⟩ := schedules
  obtain ⟨task_digest, tasks⟩ := tasks
  obtain ⟨hversion, rfl⟩ := hschedules
  obtain ⟨hversion', rfl⟩ := htasks
  have hschedule : (schedule_digest.version = 1001 ∧
      (first .schedule).records = [scheduleA]) = True := eq_true ⟨hversion, rfl⟩
  have htask : (task_digest.version = 2001 ∧ (first .tasks).records = [taskA]) = True :=
    eq_true ⟨hversion', rfl⟩
  dsimp only
  simp only [hschedule, htask, decide_true]
  refine triple_bind (check_rule _) fun _ => triple_bind (check_rule _) fun _ => ?_
  rw [List.append_assoc]
  change Leads view (recorded ++ adopted) k _ _
  refine triple_bind (encoded_rule encoded_schedules.2) fun schedule_b => triple_assume ?_
  rintro rfl
  refine triple_bind (encoded_rule encoded_tasks.2) fun task_b => triple_assume ?_
  rintro rfl
  refine triple_bind (push_rule hconforms hchecked readings number .schedule _ 1002) fun _ => ?_
  refine triple_bind (push_rule hconforms hchecked readings number .tasks _ 2002) fun _ => ?_
  change Leads view (recorded ++ adopted) (bothPut merged k) _ _
  refine triple_bind (wait_rule hconforms hchecked readings number .schedule (hmerged .schedule)
    rfl rfl) fun _ => ?_
  exact wait_rule hconforms hchecked readings number .tasks (hmerged .tasks) rfl rfl

/-- What family A checks in the end. -/
def released : List Assertion :=
  [(told true "family A sees B's merged schedule after release").assertion,
    (told true "family A sees B's merged task list after release").assertion]

omit hconforms hrecorded in
theorem merged_long (f : Family) : (merged f).records.all (2 ≤ ·.length) = true := by
  cases f <;> decide

omit hconforms hrecorded in
theorem merged_numbers :
    ((merged .schedule).records.map (read16 · 0)).toFinset = {101, 102} ∧
      ((merged .tasks).records.map (read16 · 0)).toFinset = {201, 202} := by decide

omit hconforms hrecorded in
theorem checkMerged_rule {pulled : Digest × List (List UInt8)} {version : ℕ} {numbers : Finset ℕ}
    (hversion : pulled.1.version = version) (hlong : pulled.2.all (2 ≤ ·.length) = true)
    (hnumbers : (pulled.2.map (read16 · 0)).toFinset = numbers) (name : String) :
    Leads view recorded k (checkMerged pulled version numbers name) fun _ =>
      At view (recorded ++ [(told true name).assertion]) k := by
  unfold checkMerged
  rw [if_pos hversion]
  refine triple_bind (identifiers_rule hlong hnumbers) fun found => triple_assume ?_
  rintro rfl
  rw [decide_eq_true rfl]
  exact check_rule _

/-- **Family A finds what B left.** -/
theorem seen_rule (hmerged : Are merged k) (number : ℕ) :
    Leads view recorded k (seen bench number) fun _ => At view (recorded ++ released) k := by
  unfold seen
  refine triple_bind (pull_rule hconforms hrecorded number .schedule (hmerged .schedule)) fun schedules =>
    triple_assume fun hschedules => ?_
  refine triple_bind (pull_rule hconforms hrecorded number .tasks (hmerged .tasks)) fun tasks =>
    triple_assume fun htasks => ?_
  obtain ⟨schedule_digest, schedules⟩ := schedules
  obtain ⟨task_digest, tasks⟩ := tasks
  obtain ⟨hversion, rfl⟩ := hschedules
  obtain ⟨hversion', rfl⟩ := htasks
  refine triple_bind (checkMerged_rule hversion (merged_long .schedule) merged_numbers.1 _)
    fun _ => ?_
  refine (checkMerged_rule hversion' (merged_long .tasks) merged_numbers.2 _).conseq
    (fun _ h => h) (fun _ s hs => ?_) fun _ _ h => h
  rw [List.append_assoc] at hs
  exact hs

end Rules

/-! ## The scenario -/

section Scenario

variable {σ : Type} {bench : Bench σ} {view : σ → Drawers}

/-- The assertions of a scenario that returned. -/
def verdicts (status : UInt8) : List Assertion := (busyCheck status).assertion :: (adopted ++ released)

theorem excused_busy (status : UInt8) : Excused [(busyCheck status).assertion] := by
  have hnone : Excused [] := fun a ha => absurd ha List.not_mem_nil
  exact hnone.append fun _ => List.mem_cons_self ..

theorem excused_verdicts (status : UInt8) : Excused (verdicts status) :=
  (excused_busy status).append_passed rfl

theorem handoff_rule (hconforms : bench.Conforms view) (readings : ℕ) {k : Knowledge}
    (hfresh : Fresh first k) (hfresh' : Fresh merged k) :
    Leads view [] k (family_handoff bench readings) fun _ s =>
      ∃ status, At view (verdicts status) (bothPut merged (bothPut first k)) s := by
  have hnone : Excused [] := fun a ha => absurd ha List.not_mem_nil
  have hbusy := excused_busy
  unfold family_handoff
  refine triple_bind (use_keeps hnone hconforms.open_control) fun _ => ?_
  refine triple_bind (encoded_rule encoded_schedules.1) fun schedule_a => triple_assume ?_
  rintro rfl
  refine triple_bind (encoded_rule encoded_tasks.1) fun task_a => triple_assume ?_
  rintro rfl
  refine triple_bind (use_keeps hnone (hconforms.command _)) fun _ => ?_
  refine triple_bind (use_keeps hnone hconforms.gatt) fun client_a => ?_
  refine triple_bind (push_rule hconforms hnone readings client_a .schedule _ 1001) fun _ => ?_
  refine triple_bind (push_rule hconforms hnone readings client_a .tasks _ 2001) fun _ => ?_
  -- whatever was there at first, both sets are family A's now
  have hfirst := are_bothPut hfresh
  have hnew := fresh_merged hfresh'
  change Leads view [] (bothPut first k) _ _
  refine triple_bind (wait_rule hconforms hnone readings client_a .schedule (hfirst .schedule)
    rfl rfl) fun _ => ?_
  refine triple_bind (wait_rule hconforms hnone readings client_a .tasks (hfirst .tasks)
    rfl rfl) fun _ => ?_
  refine triple_bind (use_keeps hnone (hconforms.command _)) fun _ => ?_
  refine triple_bind (withGatt_rule hconforms hnone (fun number => triple_exists fun status =>
    (use_keeps (hbusy status) (hconforms.close number)).conseq (fun _ h => h)
      (fun _ s hs => ⟨status, hs⟩) fun _ _ h => h) (blocked_rule hconforms hnone)) fun _ => ?_
  refine triple_exists fun status => ?_
  have hadopted : Excused ([(busyCheck status).assertion] ++ adopted) :=
    (hbusy status).append_passed rfl
  have hreleased : Excused ([(busyCheck status).assertion] ++ adopted ++ released) :=
    hadopted.append_passed rfl
  change Leads view [(busyCheck status).assertion] (bothPut first k) _ _
  refine triple_bind (use_keeps (hbusy status) (hconforms.close client_a)) fun _ => ?_
  refine triple_bind (use_keeps (hbusy status) (hconforms.command _)) fun _ => ?_
  refine triple_bind (withGatt_rule hconforms (hbusy status)
    (fun number => use_keeps hadopted (hconforms.close number))
    (adopt_rule hconforms (hbusy status) hfirst hnew readings)) fun _ => ?_
  refine triple_bind (use_keeps hadopted (hconforms.command _)) fun _ => ?_
  exact (withGatt_rule hconforms hadopted
    (fun number => use_keeps hreleased (hconforms.close number))
    (seen_rule hconforms hadopted (are_bothPut hnew))).conseq (fun _ h => h) (fun _ s hs => ⟨status, hs⟩)
      fun _ _ h => h

/-- **`family_handoff` never blames a watch that follows the protocol for the records**,
whatever it refuses, however late its commits take effect and wherever the link fails, if the
watch has not had the versions of the four pushes before. If the scenario returns, every check
of the records has passed, the run has passed if the second client was told that the watch is
busy, and the watch has the records of both families, and no others to come. -/
theorem family_handoff_sound (hconforms : bench.Conforms view) {readings : ℕ} {s s' : σ}
    (hfresh : ∀ f old, old ∈ (view s f).sets.shows ∨ old ∈ (view s f).sets.landed →
      old.version ≠ (first f).version ∧ old.version ≠ (merged f).version)
    {outcome : Except PyError Unit} {recorded : List Assertion}
    (hrun : (family_handoff bench readings).exec ([], s) = (outcome, recorded, s')) :
    Excused recorded ∧ (outcome = .ok () →
      (∀ f, ∀ contents ∈ (view s' f).sets.shows, contents = merged f) ∧
      ∃ status, recorded = verdicts status ∧
        (statusOf recorded outcome = .passed ↔ status = BUSY_STATUS)) := by
  have hstart : At view [] (fun f => (view s f).sets.known Contents.version) ([], s) :=
    ⟨rfl, fun f => (view s f).sets.known_holds Contents.version⟩
  have hfirst : Fresh first fun f => (view s f).sets.known Contents.version :=
    fun f ⟨old, hold, hversion⟩ => (hfresh f old hold).1 hversion
  have hmerged : Fresh merged fun f => (view s f).sets.known Contents.version :=
    fun f ⟨old, hold, hversion⟩ => (hfresh f old hold).2 hversion
  have hrule := handoff_rule hconforms readings hfirst hmerged
  rcases outcome with e | ⟨⟩
  · exact ⟨hrule.of_error hstart hrun, fun h => by cases h⟩
  · obtain ⟨status, hrecorded, hagrees⟩ := hrule.of_ok hstart hrun
    dsimp only at hrecorded
    subst hrecorded
    have hare := are_bothPut (fresh_merged hmerged)
    have hall : (verdicts status).all (·.passed) = decide (status = BUSY_STATUS) :=
      Bool.and_true _
    refine ⟨excused_verdicts status, fun _ => ⟨fun f contents hmem => ?_, status, rfl, ?_⟩⟩
    · have hpossible := ((hagrees f).shows contents hmem).1
      rw [hare f] at hpossible
      exact hpossible
    · rw [statusOf, hall]
      by_cases hstatus : status = BUSY_STATUS
      · rw [decide_eq_true hstatus]
        exact iff_of_true rfl hstatus
      · rw [decide_eq_false hstatus]
        exact iff_of_false (by decide) hstatus

end Scenario

/-! ## A lab -/

/-- A watch for one client at a time. -/
structure Lab where
  cabinet : Cabinet
  clients : List ℕ
  next : ℕ

def Lab.carry (number : ℕ) (call : Call) : Effect Lab Unit call.Reply :=
  .of fun lab =>
    if lab.clients.head? = some number then
      ((Cabinet.carry call).exec lab.cabinet).map id fun cabinet => { lab with cabinet := cabinet }
    else match call with
      | .request _ _ _ => (.ok ⟨BUSY_STATUS, []⟩, lab)
      | .monotonic => (.ok (0 : ℤ), lab)

def Lab.bench : Bench Lab where
  open_control := pure ()
  command _ := pure ()
  gatt := .of fun lab =>
    (.ok lab.next, { lab with clients := lab.clients ++ [lab.next], next := lab.next + 1 })
  close number := .of fun lab => (.ok (), { lab with clients := lab.clients.erase number })
  carry := Lab.carry

def Lab.view (lab : Lab) : Drawers := lab.cabinet.drawers

theorem Lab.answers {characteristic : String} {operation : ℤ} {payload : List UInt8}
    {R : Drawers → GattResponse → Drawers → Prop}
    (hcabinet : Answers Cabinet.carry Cabinet.drawers characteristic operation payload R)
    (hbusy : ∀ v, R v ⟨BUSY_STATUS, []⟩ v) (number : ℕ) :
    Answers (Lab.carry number) Lab.view characteristic operation payload R := by
  rintro _ lab rfl
  unfold Lab.carry
  rw [exec_of]
  split_ifs
  · have hreply := hcabinet lab.cabinet.drawers lab.cabinet rfl
    rcases hrun : (Cabinet.carry (.request characteristic operation payload)).exec lab.cabinet
      with ⟨e | response, cabinet⟩
    · rw [hrun] at hreply
      exact hreply
    · rw [hrun] at hreply
      exact hreply
  · exact ⟨_, _, later_refl _, hbusy _, later_refl _⟩

theorem Lab.clock (number : ℕ) (v : Drawers) :
    Triple (fun lab => lab.view = v) (Lab.carry number .monotonic)
      (fun _ lab => Later v lab.view) fun _ lab => Later v lab.view := by
  rintro lab rfl
  unfold Lab.carry
  rw [exec_of]
  split_ifs <;> exact later_refl _

/-- A characteristic of neither family. -/
theorem Lab.battery (number : ℕ) :
    Keeps Lab.view (Lab.carry number (.request "battery" OP_READ [])) := by
  rintro _ lab rfl
  unfold Lab.carry
  rw [exec_of]
  split_ifs <;> exact later_refl _

theorem busy_no_report : commitReport ⟨BUSY_STATUS, []⟩ = none := by decide

theorem Lab.conforms : Lab.bench.Conforms Lab.view where
  follows number :=
    { digest := fun f => Lab.answers (cabinet_follows.digest f)
        (fun _ => ⟨fun _ => rfl, fun h => absurd h (by decide)⟩) number
      select := fun f i => Lab.answers (cabinet_follows.select f i)
        (fun _ => ⟨fun _ => rfl, fun h => absurd h (by decide)⟩) number
      record := fun f => Lab.answers (cabinet_follows.record f)
        (fun _ => ⟨fun _ => rfl, fun h => absurd h (by decide)⟩) number
      sync := fun f payload => Lab.answers (cabinet_follows.sync f payload)
        (fun _ => ⟨fun _ _ => rfl, rfl⟩) number
      status := Lab.answers cabinet_follows.status (fun _ => ⟨fun _ => rfl,
        fun _ _ hreport => by rw [busy_no_report] at hreport; cases hreport⟩) number
      clock := Lab.clock number }
  battery := Lab.battery
  open_control := fun _ => triple_pure fun _ hs => hs ▸ later_refl _
  command _ := fun _ => triple_pure fun _ hs => hs ▸ later_refl _
  gatt := fun _ _ hs => hs ▸ later_refl _
  close _ := fun _ _ hs => hs ▸ later_refl _

/-- A lab with an empty watch. -/
def Lab.new : Lab where
  cabinet :=
    { drawers := fun _ => ⟨⟨⟨0, []⟩, [], []⟩, 0, [], none⟩
      fits := fun _ => empty_fits
      last := none }
  clients := []
  next := 0

/-- There it passes, though every commit takes effect behind its reply. -/
theorem family_handoff_sound_lab : ∃ recorded lab,
    (family_handoff Lab.bench 2).exec ([], Lab.new) = (.ok (), recorded, lab) ∧
      Excused recorded ∧ statusOf recorded (.ok ()) = .passed ∧
      ∀ f, ∀ contents ∈ (lab.view f).sets.shows, contents = merged f := by
  have hreturns : ((family_handoff Lab.bench 2).exec ([], Lab.new)).1 = .ok () := by decide +kernel
  have hpassed : ((family_handoff Lab.bench 2).exec ([], Lab.new)).2.1.all (·.passed) = true := by
    decide +kernel
  rcases hrun : (family_handoff Lab.bench 2).exec ([], Lab.new) with ⟨outcome, recorded, lab⟩
  rw [hrun] at hreturns hpassed
  dsimp only at hreturns hpassed
  subst hreturns
  have hfresh : ∀ f old, old ∈ (Lab.new.view f).sets.shows ∨ old ∈ (Lab.new.view f).sets.landed →
      old.version ≠ (first f).version ∧ old.version ≠ (merged f).version := by
    rintro f old (hold | hold)
    · rw [List.mem_singleton.mp hold]
      cases f <;> decide
    · cases hold
  obtain ⟨hexcused, hreturned⟩ := family_handoff_sound Lab.conforms hfresh hrun
  exact ⟨recorded, lab, rfl, hexcused, if_pos hpassed, (hreturned rfl).1⟩

end Ptlab.Scenario.OnWatch
