/-
Pushes and pulls of `src/ptlab/wire.py` and of `companion-cli.mjs` on one watch, one
after another, over a link that may fail at any request.

To its clients the watch is a register for each family of records, whose writes take
effect late: a push writes it, and may do so although it raises. `push_records` waits
until its commit is reported to have succeeded, so what it wrote is known to be there if
its version is new (`pulls_agree`). `push` of `companion-cli.mjs` looks for its version
in an answer whose status it ignores, so what it returns confirms nothing; and `pull` of
`companion-cli.mjs` looks at no status either, so it is no read.
-/
import Ptlab.Js.Event
import Ptlab.Wire.Cabinet

set_option autoImplicit false

open Bytes Dialogue Effect Register Ptlab.Gatt Ptlab.Protocol Ptlab.Wire

namespace Ptlab.Js

/-! ## The companion on a watch -/

/-- What the encoder returned, of outcomes that are all records. -/
def recordsOf (outcomes : List (Except JsError (List UInt8))) : List (List UInt8) :=
  outcomes.map fun outcome => outcome.toOption.getD []

section Companion

variable {σ : Type} {carry : (call : Call) → Effect σ Unit call.Reply} {view : σ → Drawers}

theorem writeExpected_rule {message : String} {payload : List UInt8} {P Q E : σ → Prop}
    (h : Triple P (onWatch carry (Client.write (ε := CliError) "schedule_sync" payload))
      (fun response s => if response.status = 0 then Q s else E s) (fun _ => E)) :
    Triple P (onWatch carry (writeExpected message payload)) (fun _ => Q) (fun _ => E) := by
  unfold writeExpected
  rw [onWatch_bind]
  refine triple_bind h fun response => ?_
  by_cases hstatus : response.status = 0
  · rw [if_neg (not_not.mpr hstatus)]
    refine triple_pure fun s hs => ?_
    rwa [if_pos hstatus] at hs
  · rw [if_pos hstatus]
    refine triple_throw fun s hs => ?_
    rwa [if_neg hstatus] at hs

theorem confirm_harmless (version : ℤ) (count turns : ℕ) :
    (confirm version count turns).AsksOnly Harmless := by
  induction turns with
  | zero => trivial
  | succ turns ih =>
      rw [confirm]
      refine asksOnly_bind (asksOnly_question (.inr (.inr ⟨.schedule, .inl rfl⟩))) fun reply => ?_
      refine asksOnly_bind (asksOnly_ofExcept _) fun confirmed => ?_
      split_ifs
      · trivial
      · exact ih

/-- `pull` asks for nothing that changes a set. -/
theorem pull_harmless : pull.AsksOnly Harmless := by
  unfold pull
  refine asksOnly_bind (asksOnly_question (.inr (.inr ⟨.schedule, .inl rfl⟩))) fun reply => ?_
  refine asksOnly_bind (asksOnly_ofExcept _) fun version => ?_
  refine asksOnly_bind (asksOnly_mapM fun i _ => ?_) fun events => trivial
  refine asksOnly_bind (asksOnly_question
    (.inr (.inr ⟨.schedule, .inr (.inr ⟨_, rfl⟩)⟩))) fun _ => ?_
  exact asksOnly_bind (asksOnly_question (.inr (.inr ⟨.schedule, .inr (.inl rfl)⟩))) fun record =>
    asksOnly_ofExcept _

variable (hfollows : Follows carry view)

include hfollows

/-- Behind some turns of `push`, the watch has taken their records. -/
theorem pushRecords_rule (k : Knowledge) (outcomes : List (Except JsError (List UInt8)))
    (count version : ℕ) :
    Triple (fun s => Writing k .schedule ⟨count, version, []⟩ (view s))
      (onWatch carry (outcomes.zipIdx.forM pushRecord))
      (fun _ s => Writing k .schedule
        ⟨count, version, stagedOf (recordsOf outcomes).zipIdx⟩ (view s))
      (fun _ s => Agrees k (view s)) := by
  let turnOf : Except JsError (List UInt8) × ℕ → List UInt8 × ℕ :=
    Prod.map (fun outcome => outcome.toOption.getD []) id
  unfold onWatch
  rw [perform_forM, recordsOf, List.zipIdx_map]
  refine triple_forM_turns (I := fun pre s =>
    Writing k .schedule ⟨count, version, stagedOf (pre.map turnOf)⟩ (view s))
    fun pre turn post heq => ?_
  obtain ⟨outcome, index⟩ := turn
  change Triple _ (onWatch carry (pushRecord (outcome, index))) _ _
  unfold pushRecord ofJs
  rcases outcome with error | record
  · exact triple_throw fun s hs => hs.1
  · have hstage := stage_rule (ε := CliError) hfollows .schedule k count version
      (pre.map turnOf) (record, index) SCHEDULE_RECORD_VERSION
    rw [← eventMsg_eq] at hstage
    rw [List.map_append]
    exact writeExpected_rule hstage

/-- What `push` writes. Its count is a byte, so that it announces as many of the records. -/
def announced (outcomes : List (Except JsError (List UInt8))) : List (List UInt8) :=
  (recordsOf outcomes).take (UInt8.ofNat outcomes.length).toNat

/-- **`push`** may leave the set that it announced, whatever it returns. -/
theorem pushEncoded_family (version : ℤ) (outcomes : List (Except JsError (List UInt8)))
    (k : Knowledge) :
    Triple (fun s => Agrees k (view s)) (onWatch carry (pushEncoded version outcomes))
      (fun _ s => Agrees (k.put .schedule ⟨version.toNat, announced outcomes⟩ false) (view s))
      (fun _ s => Agrees (k.put .schedule ⟨version.toNat, announced outcomes⟩ false) (view s)) := by
  have hlost : ∀ s, Agrees k (view s) →
      Agrees (k.put .schedule ⟨version.toNat, announced outcomes⟩ false) (view s) :=
    fun s hs => hs.put .schedule _
  unfold pushEncoded ofJs
  rw [onWatch_bind]
  refine triple_bind (Q := fun message s => Agrees k (view s) ∧
    (message = beginMessage outcomes.length version ∧ 0 ≤ version ∧ version ≤ 0xFFFFFFFF)) ?_
    fun message => triple_assume ?_
  · refine onWatch_ofExcept (fun message hmessage s hs => ⟨hs, ?_⟩) fun _ _ s hs => hlost s hs
    have hbegin := mapError_ok_iff.mp hmessage
    by_cases hversion : 0 ≤ version ∧ version ≤ 0xFFFFFFFF
    · rw [beginSync_eq _ hversion] at hbegin
      exact ⟨(Except.ok.inj hbegin).symm, hversion⟩
    · unfold beginSync writeUInt32LE at hbegin
      rw [if_neg hversion] at hbegin
      cases hbegin
  rintro ⟨rfl, hversion⟩
  rw [onWatch_bind]
  have hbegin := begin_rule (ε := CliError) hfollows .schedule k outcomes.length hversion
  refine triple_bind ((writeExpected_rule hbegin).raises fun _ s h => hlost s h) fun _ => ?_
  rw [onWatch_bind]
  refine triple_bind ((pushRecords_rule hfollows k outcomes _ _).raises
    fun _ s h => hlost s h) fun _ => ?_
  rw [onWatch_bind, commitSync_eq]
  have hcommit := commit_rule (ε := CliError) hfollows .schedule k (recordsOf outcomes)
    version.toNat
  rw [show (recordsOf outcomes).length = outcomes.length from List.length_map ..] at hcommit
  refine triple_bind (writeExpected_rule hcommit) fun _ => ?_
  exact (keeps_of_harmless hfollows (confirm_harmless ..) _).conseq (fun _ hs => hs.agrees)
    (fun _ _ hs => hs) fun _ _ hs => hs

end Companion

/-! ## Errands -/

/-- What is done on a watch: a push or a pull of either client. -/
inductive Errand where
  | push_records (f : Family) (readings : ℕ) (records : List (List UInt8))
      (version record_version : ℤ)
  | pull_records (f : Family)
  | push (version : ℤ) (outcomes : List (Except JsError (List UInt8)))
  | pull

/-- How it ends: a pull of `pull_records` returns a set. -/
abbrev Outcome : Type := Except Unit (Option Contents)

section Errands

variable {σ : Type} (carry : (call : Call) → Effect σ Unit call.Reply) (view : σ → Drawers)

def Errand.run : Errand → Effect σ Unit (Option Contents)
  | .push_records f readings records version record_version => do
    onWatch carry (Client.push_records readings f.sync records version record_version)
    return none
  | .pull_records f => do
    let (digest, records) ← onWatch carry (Wire.pull_records f.digest f.record)
    return some ⟨digest.version, records⟩
  | .push version outcomes => do
    let _ ← onWatch carry (pushEncoded version outcomes)
    return none
  | .pull => do
    let _ ← onWatch carry Js.pull
    return none

/-- What an errand writes. Only `push_records` that returns is confirmed. -/
def Errand.puts : Errand × Outcome → List (Put Family Contents)
  | (.push_records f _ records version _, outcome) =>
    [⟨f, ⟨version.toNat, records⟩, outcome.isOk⟩]
  | (.push version outcomes, _) => [⟨.schedule, ⟨version.toNat, announced outcomes⟩, false⟩]
  | _ => []

/-- Errands one after another, and time between them. -/
inductive History : σ → List (Errand × Outcome) → σ → Prop
  | nil (s : σ) : History s [] s
  | waited {s t u : σ} {errands : List (Errand × Outcome)} (hlater : Later (view s) (view t))
      (h : History t errands u) : History s errands u
  | errand {s t u : σ} {errands : List (Errand × Outcome)} {errand : Errand} {outcome : Outcome}
      (hrun : (errand.run carry).exec s = (outcome, t)) (h : History t errands u) :
      History s ((errand, outcome) :: errands) u

/-- What there is to know of the drawers. -/
def knownAt (v : Drawers) : Knowledge := fun f => (v f).sets.known Contents.version

/-- What is known behind some errands. -/
def knownAfter (k : Knowledge) (errands : List (Errand × Outcome)) : Knowledge :=
  after Contents.version k (errands.flatMap Errand.puts)

theorem knownAt_agrees (v : Drawers) : Agrees (knownAt v) v :=
  fun f => (v f).sets.known_holds Contents.version

theorem knownAfter_append (k : Knowledge) (before later : List (Errand × Outcome)) :
    knownAfter k (before ++ later) = knownAfter (knownAfter k before) later := by
  unfold knownAfter
  rw [List.flatMap_append, after_append]

variable {carry view} (hfollows : Follows carry view)

include hfollows

/-- **One errand.** What was known is known behind it, with what it wrote; and a pull has its
pieces from there. -/
theorem Errand.agrees {errand : Errand} {outcome : Outcome} {s t : σ} {k : Knowledge}
    (hs : Agrees k (view s)) (hrun : (errand.run carry).exec s = (outcome, t)) :
    Agrees (knownAfter k [(errand, outcome)]) (view t) ∧
      ∀ f found, (errand, outcome) = (.pull_records f, .ok (some found)) →
        Pieced (k f).possible found := by
  cases errand with
  | push_records f readings records version record_version =>
      refine ⟨?_, fun _ _ heq => by cases heq⟩
      have hpush : Triple (fun s' => Agrees k (view s'))
          ((Errand.push_records f readings records version record_version).run carry)
          (fun _ s' => Agrees (k.put f ⟨version.toNat, records⟩ true) (view s'))
          (fun _ s' => Agrees (k.put f ⟨version.toNat, records⟩ false) (view s')) :=
        triple_bind (push_family hfollows f readings records version record_version k)
          fun _ => triple_pure fun _ hs => hs
      rcases outcome with e | found
      · exact hpush.of_error hs hrun
      · exact hpush.of_ok hs hrun
  | push version outcomes =>
      refine ⟨?_, fun _ _ heq => by cases heq⟩
      have hpush : Triple (fun s' => Agrees k (view s')) ((Errand.push version outcomes).run carry)
          (fun _ s' => Agrees (k.put .schedule ⟨version.toNat, announced outcomes⟩ false) (view s'))
          (fun _ s' => Agrees
            (k.put .schedule ⟨version.toNat, announced outcomes⟩ false) (view s')) :=
        triple_bind (pushEncoded_family hfollows version outcomes k)
          fun _ => triple_pure fun _ hs => hs
      rcases outcome with e | found
      · exact hpush.of_error hs hrun
      · exact hpush.of_ok hs hrun
  | pull_records f =>
      have hpull : Triple (fun s' => Agrees k (view s')) ((Errand.pull_records f).run carry)
          (fun found s' => Agrees k (view s') ∧ ∀ set, found = some set → Pieced (k f).possible set)
          (fun _ s' => Agrees k (view s')) :=
        triple_bind (pull_family hfollows f k) fun pulled => triple_pure fun s' hs' =>
          ⟨hs'.1, fun set hset => Option.some.inj hset ▸ hs'.2⟩
      rcases outcome with e | found
      · exact ⟨hpull.of_error hs hrun, fun _ _ heq => by cases heq⟩
      · obtain ⟨hagrees, hpieced⟩ := hpull.of_ok hs hrun
        refine ⟨hagrees, fun g set heq => ?_⟩
        cases heq
        exact hpieced set rfl
  | pull =>
      refine ⟨?_, fun _ _ heq => by cases heq⟩
      have hkeeps : Always (fun s' => Agrees k (view s')) (Errand.pull.run carry) :=
        triple_bind (keeps_of_harmless hfollows pull_harmless _) fun _ =>
          triple_pure fun _ hs => hs
      have hend := hkeeps.exec hs
      rw [hrun] at hend
      exact hend

/-- **A history** leaves what is known true, and each pull has its pieces from what was known
at it. -/
theorem History.agrees {s t : σ} {errands : List (Errand × Outcome)}
    (h : History carry view s errands t) : ∀ k, Agrees k (view s) →
      Agrees (knownAfter k errands) (view t) ∧
        ∀ before f found later, errands = before ++ (.pull_records f, .ok (some found)) :: later →
          Pieced (knownAfter k before f).possible found := by
  induction h with
  | nil s =>
      refine fun k hs => ⟨hs, fun before f found later heq => ?_⟩
      exact absurd heq.symm (by simp)
  | waited hlater _ ih => exact fun k hs => ih k (lasting_agrees k _ _ hlater hs)
  | @errand s t u errands errand outcome hrun _ ih =>
      intro k hs
      obtain ⟨hagrees, hpieced⟩ := Errand.agrees hfollows hs hrun
      obtain ⟨hend, hall⟩ := ih _ hagrees
      refine ⟨by rw [← List.singleton_append, knownAfter_append]; exact hend,
        fun before f found later heq => ?_⟩
      rcases before with _ | ⟨first, before⟩
      · exact hpieced f found (List.cons.inj heq).1
      · obtain ⟨rfl, hrest⟩ := List.cons.inj heq
        rw [← List.singleton_append, knownAfter_append]
        exact hall before f found later hrest

end Errands

/-- A watch without records. -/
def emptyCabinet : Cabinet where
  drawers := fun _ => ⟨⟨⟨0, []⟩, [], []⟩, 0, [], none⟩
  fits := fun _ => empty_fits
  last := none

/-- A push of two tasks. -/
def aPush : Errand := .push_records .tasks 2 [[1, 2], [3]] 7 1

/-- The watch behind an errand. -/
def Errand.after (errand : Errand) (w : Cabinet) : Cabinet := ((errand.run Cabinet.carry).exec w).2

end Ptlab.Js
