/-
Files, and what a crash leaves of them.

An `Op` is one call that changes the disk. A write is not atomic: a crash inside
it leaves the file with the front part of what was to be written. `Crash` says
which disks a crash behind some operations may leave, and `Crash.rule` is the rule
for what all of them have in common. A document that is written beside its place
and then moved there is never seen in part, whatever else became of the file
beside it (`Crash.attempts`).
-/
import Mathlib.Tactic

set_option autoImplicit false

namespace Files

variable {Path : Type} [DecidableEq Path]

/-- The contents of the files that are there. -/
abbrev Disk (Path : Type) : Type := Path → Option (List UInt8)

inductive Op (Path : Type) where
  | write (path : Path) (content : List UInt8)
  /-- `os.replace`. -/
  | replace (source target : Path)
  | unlink (path : Path)
  deriving DecidableEq, Repr

/-- An operation that is carried out. -/
def Op.apply : Op Path → Disk Path → Disk Path
  | .write path content, d => Function.update d path (some content)
  | .replace source target, d => Function.update (Function.update d source none) target (d source)
  | .unlink path, d => Function.update d path none

/-- What a crash inside an operation leaves, besides the disks before and after
it. -/
inductive Op.Torn (d : Disk Path) : Op Path → Disk Path → Prop
  | write (path : Path) {content part : List UInt8} (h : part <+: content) :
      Torn d (.write path content) (Function.update d path (some part))

def applyAll (ops : List (Op Path)) (d : Disk Path) : Disk Path :=
  ops.foldl (fun d op => op.apply d) d

@[simp] theorem applyAll_nil (d : Disk Path) : applyAll [] d = d := rfl

@[simp] theorem applyAll_cons (op : Op Path) (ops : List (Op Path)) (d : Disk Path) :
    applyAll (op :: ops) d = applyAll ops (op.apply d) := rfl

theorem applyAll_append (ops ops' : List (Op Path)) (d : Disk Path) :
    applyAll (ops ++ ops') d = applyAll ops' (applyAll ops d) := List.foldl_append

/-- A crash behind the operations `done`, in front of or inside the next one. -/
inductive Crash (d : Disk Path) (done : List (Op Path)) : List (Op Path) → Disk Path → Prop
  | between (rest : List (Op Path)) : Crash d done rest (applyAll done d)
  | inside {op : Op Path} {rest : List (Op Path)} {d' : Disk Path}
      (h : op.Torn (applyAll done d) d') : Crash d done (op :: rest) d'

/-- What every operation keeps, all of them keep. -/
theorem applyAll_rule {P : Disk Path → Prop} {ops : List (Op Path)}
    (h : ∀ op ∈ ops, ∀ d, P d → P (op.apply d)) : ∀ d, P d → P (applyAll ops d) := by
  induction ops with
  | nil => exact fun d hd => hd
  | cons op ops ih =>
      rw [List.forall_mem_cons] at h
      exact fun d hd => ih h.2 _ (h.1 d hd)

/-- **The rule.** What every operation keeps, carried out or torn, a crash keeps. -/
theorem Crash.rule {P : Disk Path → Prop} {d d' : Disk Path} {done rest : List (Op Path)}
    (h : Crash d done rest d') (happly : ∀ op ∈ done, ∀ d, P d → P (op.apply d))
    (htorn : ∀ op ∈ rest, ∀ d d', P d → op.Torn d d' → P d') (hd : P d) : P d' := by
  have hdone := applyAll_rule happly d hd
  cases h with
  | between => exact hdone
  | inside h => exact htorn _ (List.mem_cons_self ..) _ _ hdone h

/-! ## Writing beside and moving -/

section Publish

variable (beside target : Path)

/-- An attempt to publish a document: it is written to one path and moved to another,
or that came to nothing at some point. -/
inductive Attempt where
  | moved (content : List UInt8)
  | written (part : List UInt8)
  | nothing
  deriving DecidableEq, Repr

def Attempt.ops : Attempt → List (Op Path)
  | .moved content => [.write beside content, .replace beside target]
  | .written part => [.write beside part]
  | .nothing => []

/-- What was moved. -/
def Attempt.content : Attempt → Option (List UInt8)
  | .moved content => some content
  | .written _ | .nothing => none

end Publish

/-- Whether it is a move. -/
def Op.isReplace : Op Path → Bool
  | .replace _ _ => true
  | .write _ _ | .unlink _ => false

/-- How many moves took place. -/
def moves (done : List (Op Path)) : ℕ := done.countP Op.isReplace

variable {beside target : Path}

omit [DecidableEq Path] in
theorem Attempt.mem_ops {attempt : Attempt} {op : Op Path} (h : op ∈ attempt.ops beside target) :
    (∃ content, op = .write beside content) ∨ op = .replace beside target := by
  cases attempt with
  | moved content =>
      rcases List.mem_cons.mp h with rfl | h
      · exact .inl ⟨content, rfl⟩
      · exact .inr (List.mem_singleton.mp h)
  | written part => exact .inl ⟨part, List.mem_singleton.mp h⟩
  | nothing => cases h

/-- What some of the operations of one attempt leave at the target. -/
theorem Attempt.apply_prefix (h : beside ≠ target) {attempt : Attempt} {done : List (Op Path)}
    (hdone : done <+: attempt.ops beside target) (d : Disk Path) :
    applyAll done d target =
      (((attempt.content).toList.take (moves done)).getLast?).or (d target) := by
  -- writing beside the target leaves the target
  have hbeside : ∀ content, Op.apply (.write beside content) d target = d target :=
    fun content => Function.update_of_ne h.symm _ _
  cases attempt with
  | moved content =>
      rcases List.prefix_cons_iff.mp hdone with rfl | ⟨rest, rfl, hrest⟩
      · rfl
      · rcases List.prefix_cons_iff.mp hrest with rfl | ⟨rest', rfl, hrest'⟩
        · exact hbeside content
        · rw [List.prefix_nil.mp hrest']
          simp [Op.apply, Attempt.content, moves, Op.isReplace]
  | written part =>
      rcases List.prefix_cons_iff.mp hdone with rfl | ⟨rest, rfl, hrest⟩
      · rfl
      · rw [List.prefix_nil.mp hrest]
        exact hbeside part
  | nothing =>
      rw [List.prefix_nil.mp hdone]
      rfl

omit [DecidableEq Path] in
theorem Attempt.moves_ops (beside target : Path) (attempt : Attempt) :
    moves (attempt.ops beside target) = attempt.content.toList.length := by
  cases attempt <;> rfl

/-- The documents of some attempts. -/
def contents (attempts : List Attempt) : List (List UInt8) := attempts.filterMap Attempt.content

theorem contents_cons (attempt : Attempt) (attempts : List Attempt) :
    contents (attempt :: attempts) = attempt.content.toList ++ contents attempts := by
  unfold contents
  cases hcontent : attempt.content with
  | none => rw [List.filterMap_cons_none hcontent]; rfl
  | some content => rw [List.filterMap_cons_some hcontent]; rfl

/-- What some of the operations of any attempts leave at the target. -/
theorem applyAll_attempts (h : beside ≠ target) (attempts : List Attempt) :
    ∀ {done rest : List (Op Path)},
      attempts.flatMap (Attempt.ops beside target) = done ++ rest → ∀ d : Disk Path,
      applyAll done d target =
        (((contents attempts).take (moves done)).getLast?).or (d target) := by
  induction attempts with
  | nil =>
      intro done rest hops d
      obtain ⟨rfl, -⟩ := List.append_eq_nil_iff.mp hops.symm
      rfl
  | cons attempt attempts ih =>
      intro done rest hops d
      rw [List.flatMap_cons] at hops
      rw [contents_cons]
      rcases List.append_eq_append_iff.mp hops with ⟨more, rfl, hrest⟩ | ⟨more, hfirst, -⟩
      · -- the whole attempt, and some of the others
        have hone := Attempt.apply_prefix h (List.prefix_refl (attempt.ops beside target)) d
        rw [applyAll_append, ih hrest]
        have hmoves : moves (attempt.ops beside target ++ more) =
            attempt.content.toList.length + moves more := by
          rw [← Attempt.moves_ops beside target attempt]
          exact List.countP_append
        rw [hmoves, List.take_length_add_append, List.getLast?_append, hone,
          Attempt.moves_ops, List.take_length, Option.or_assoc]
      · have hprefix : done <+: attempt.ops beside target := ⟨more, hfirst.symm⟩
        have hmoves : moves done ≤ attempt.content.toList.length := by
          rw [← Attempt.moves_ops beside target attempt]
          exact hprefix.sublist.countP_le
        rw [Attempt.apply_prefix h hprefix, List.take_append_of_le_length hmoves]

/-- **Any number of attempts.** After a crash the target holds the document of the last
move that took place, or what it held before them all. -/
theorem Crash.attempts (h : beside ≠ target) {attempts : List Attempt}
    {done rest : List (Op Path)}
    (hops : attempts.flatMap (Attempt.ops beside target) = done ++ rest) {d d' : Disk Path}
    (hcrash : Crash d done rest d') :
    d' target = (((contents attempts).take (moves done)).getLast?).or (d target) := by
  rw [← applyAll_attempts h attempts hops]
  cases hcrash with
  | between => rfl
  | @inside op rest _ htorn =>
      have hmem : op ∈ attempts.flatMap (Attempt.ops beside target) := by
        rw [hops]
        exact List.mem_append_right _ (List.mem_cons_self ..)
      obtain ⟨attempt, -, hop⟩ := List.mem_flatMap.mp hmem
      -- only the file beside the target can be torn
      rcases Attempt.mem_ops hop with ⟨content, rfl⟩ | rfl
      · cases htorn with
        | write hpart => exact Function.update_of_ne h.symm _ _
      · cases htorn

end Files
