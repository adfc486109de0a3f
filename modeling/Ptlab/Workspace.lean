/-
The workspace: `src/ptlab/workspace.py`.

A path is its names, the last one first, so that the parent is the tail. Paths are
absolute and resolved and the tree has no symbolic links, which leaves nothing for
`expanduser` and `resolve` to do. The search looks at a directory under the name
`_normalize_candidate` gives it, and that is why a workspace may be passed over
(`discover_workspace_iff`).
-/
import Mathlib.Data.List.Infix
import Mathlib.Tactic

set_option autoImplicit false

namespace Ptlab

/-! ## Paths -/

abbrev Path : Type := List String

/-- `name`. That of the root is empty. -/
def Path.name (path : Path) : String := path.headD ""

/-- `parent`. That of the root is the root. -/
def Path.parent (path : Path) : Path := path.tail

/-- `parents`: the directories above, the nearest first. -/
def Path.parents : Path → List Path
  | [] => []
  | _ :: path => path :: Path.parents path

/-- `str`. -/
def Path.text (path : Path) : String := "/" ++ String.intercalate "/" path.reverse

/-- The directories of a disk: with a directory there is the one it is in. -/
structure Tree where
  isDir : Path → Bool
  root : isDir [] = true
  parent : ∀ name path, isDir (name :: path) = true → isDir path = true

/-- What `mkdir(parents=True)` makes of an empty disk. -/
def Tree.mkdirs (dirs : List Path) : Tree where
  isDir path := decide (path = []) || dirs.any fun dir => decide (path <:+ dir)
  root := rfl
  parent name path h := by
    have hdir : dirs.any (fun dir => decide (name :: path <:+ dir)) = true := by simpa using h
    obtain ⟨dir, hmem, hsuffix⟩ := List.any_eq_true.mp hdir
    have hup : path <:+ dir := (List.suffix_cons name path).trans (of_decide_eq_true hsuffix)
    rw [Bool.or_eq_true]
    exact .inr (List.any_eq_true.mpr ⟨dir, hmem, decide_eq_true hup⟩)

/-! ## The functions -/

def REPOSITORY_NAMES : List String :=
  ["InfiniTime", "InfiniSim", "PineTimeCompanion", "pinetime-dev-tools"]

/-- `_normalize_candidate`. -/
def _normalize_candidate (path : Path) : Path :=
  if path.name ∈ REPOSITORY_NAMES then path.parent else path

/-- `_is_workspace`. -/
def _is_workspace (tree : Tree) (path : Path) : Bool :=
  REPOSITORY_NAMES.all fun name => tree.isDir (name :: path)

/-- The loop over a start and its parents. `checked` is the set of the candidates
that were looked at. -/
def discoverFrom (tree : Tree) (checked : List Path) : List Path → List Path × Option Path
  | [] => (checked, none)
  | path :: rest =>
      let candidate := _normalize_candidate path
      -- `if candidate in checked: continue`
      if candidate ∈ checked then discoverFrom tree checked rest
      else if _is_workspace tree candidate then (candidate :: checked, some candidate)
      else discoverFrom tree (candidate :: checked) rest

/-- The loop over the starts. -/
def discoverStarts (tree : Tree) (checked : List Path) : List Path → Option Path
  | [] => none
  | start :: rest =>
      match discoverFrom tree checked (start :: start.parents) with
      | (_, some candidate) => some candidate
      | (checked, none) => discoverStarts tree checked rest

/-- `WorkspaceError`, with its text. -/
structure WorkspaceError where
  message : String
  deriving DecidableEq, Repr

/-- `discover_workspace`. The two directories are `Path.cwd()` and the repository
the package is in, and the result is the root of the `Workspace`. -/
def discover_workspace (tree : Tree) (cwd package_repo : Path) (workspace_root : Option Path)
    (search_from : Option (List Path)) : Except WorkspaceError Path :=
  match workspace_root with
  | some workspace_root =>
      let candidate := _normalize_candidate workspace_root
      if _is_workspace tree candidate then .ok candidate
      else
        let missing := REPOSITORY_NAMES.filter fun name => !tree.isDir (name :: candidate)
        .error ⟨candidate.text ++ " is not a PineTime workspace; missing: " ++
          String.intercalate ", " missing⟩
  | none =>
      let starts := match search_from with
        | none | some [] => [cwd, package_repo]
        | some starts => starts
      match discoverStarts tree [] starts with
      | some candidate => .ok candidate
      | none => .error ⟨"could not discover the PineTime workspace; pass --workspace-root " ++
          "with the directory containing InfiniTime, InfiniSim, " ++
          "PineTimeCompanion, and pinetime-dev-tools"⟩

/-! ## Candidates -/

/-- What the search looks at, in order. -/
def candidates (start : Path) : List Path := (start :: start.parents).map _normalize_candidate

theorem normalize_suffix (path : Path) : _normalize_candidate path <:+ path := by
  unfold _normalize_candidate Path.parent
  split_ifs
  · exact List.tail_suffix path
  · exact List.suffix_rfl

/-- Nothing is taken off but the name. -/
theorem parent_suffix_normalize (path : Path) : path.parent <:+ _normalize_candidate path := by
  unfold _normalize_candidate Path.parent
  split_ifs
  · exact List.suffix_rfl
  · exact List.tail_suffix path

theorem mem_self_parents {path start : Path} : path ∈ start :: start.parents ↔ path <:+ start := by
  induction start with
  | nil => simp [Path.parents]
  | cons name start ih =>
      rw [Path.parents, List.mem_cons, ih, List.suffix_cons_iff]

/-- A directory is looked at under its own name, or for the repository in it that is
on the way. -/
def Looked (start path : Path) : Prop :=
  path.name ∉ REPOSITORY_NAMES ∨ ∃ name ∈ REPOSITORY_NAMES, name :: path <:+ start

theorem mem_candidates {path start : Path} :
    path ∈ candidates start ↔ path <:+ start ∧ Looked start path := by
  unfold candidates
  rw [List.mem_map]
  constructor
  · rintro ⟨source, hsource, rfl⟩
    have hsource : source <:+ start := mem_self_parents.mp hsource
    refine ⟨(normalize_suffix source).trans hsource, ?_⟩
    unfold _normalize_candidate
    split_ifs with hname
    · right
      cases source with
      | nil => exact absurd hname (by decide)
      | cons name source => exact ⟨name, hname, hsource⟩
    · exact .inl hname
  · rintro ⟨hpath, hname | ⟨name, hname, hchild⟩⟩
    · exact ⟨path, mem_self_parents.mpr hpath, if_neg hname⟩
    · -- the repository on the way is the one that is rewritten to it
      exact ⟨name :: path, mem_self_parents.mpr hchild, if_pos hname⟩

/-- The candidates come from the inside out. -/
theorem candidates_pairwise (start : Path) :
    (candidates start).Pairwise fun path path' => path' <:+ path := by
  induction start with
  | nil => exact List.pairwise_singleton _ _
  | cons name start ih =>
      unfold candidates Path.parents
      rw [List.map_cons, List.pairwise_cons]
      refine ⟨fun path hpath => ?_, ih⟩
      have hbelow : path <:+ start := (mem_candidates.mp hpath).1
      -- even rewritten, the innermost is no higher than those behind it
      exact hbelow.trans (parent_suffix_normalize (name :: start))

/-! ## The search -/

/-- **The visited set** changes nothing: what was looked at before is no workspace. -/
theorem discoverFrom_eq (tree : Tree) (paths : List Path) : ∀ checked : List Path,
    (∀ path ∈ checked, _is_workspace tree path = false) →
    (discoverFrom tree checked paths).2 = (paths.map _normalize_candidate).find? (_is_workspace tree) ∧
      ((discoverFrom tree checked paths).2 = none →
        ∀ path ∈ (discoverFrom tree checked paths).1, _is_workspace tree path = false) := by
  induction paths with
  | nil => exact fun checked hchecked => ⟨rfl, fun _ => hchecked⟩
  | cons path paths ih =>
      intro checked hchecked
      rw [List.map_cons]
      unfold discoverFrom
      dsimp only
      -- a candidate that was seen is skipped, and `find?` would have passed it too
      by_cases hseen : _normalize_candidate path ∈ checked
      · rw [if_pos hseen, List.find?_cons_of_neg (by simp [hchecked _ hseen])]
        exact ih checked hchecked
      · rw [if_neg hseen]
        by_cases hfound : _is_workspace tree (_normalize_candidate path)
        · rw [if_pos hfound, List.find?_cons_of_pos hfound]
          exact ⟨rfl, fun h => by cases h⟩
        · rw [if_neg hfound, List.find?_cons_of_neg hfound]
          apply ih
          intro other hother
          rcases List.mem_cons.mp hother with rfl | hother
          · exact Bool.eq_false_iff.mpr hfound
          · exact hchecked other hother

theorem discoverStarts_eq (tree : Tree) (starts : List Path) : ∀ checked : List Path,
    (∀ path ∈ checked, _is_workspace tree path = false) →
    discoverStarts tree checked starts = (starts.flatMap candidates).find? (_is_workspace tree) := by
  induction starts with
  | nil => intro checked _; rfl
  | cons start starts ih =>
      intro checked hchecked
      obtain ⟨hfind, hrest⟩ := discoverFrom_eq tree (start :: start.parents) checked hchecked
      rw [List.flatMap_cons, List.find?_append]
      unfold discoverStarts candidates
      rw [← hfind]
      cases hresult : discoverFrom tree checked (start :: start.parents) with
      | mk checked' found =>
          rw [hresult] at hrest
          cases found with
          | some candidate => rfl
          | none => exact ih checked' (hrest rfl)

/-- With one start it is the first candidate that is a workspace. -/
theorem discover_workspace_start (tree : Tree) (cwd package_repo start path : Path) :
    discover_workspace tree cwd package_repo none (some [start]) = .ok path ↔
      (candidates start).find? (_is_workspace tree) = some path := by
  have hstarts := discoverStarts_eq tree [start] [] (by simp)
  rw [List.flatMap_cons, List.flatMap_nil, List.append_nil] at hstarts
  unfold discover_workspace
  dsimp only
  rw [hstarts]
  cases (candidates start).find? (_is_workspace tree) with
  | none => simp
  | some found => simp

/-- What is found is a candidate, and the workspaces among the candidates are this one
and those above it. -/
theorem find_candidates {tree : Tree} {start path : Path}
    (h : (candidates start).find? (_is_workspace tree) = some path) :
    _is_workspace tree path = true ∧ path ∈ candidates start ∧
      ∀ other ∈ candidates start, _is_workspace tree other = true → other <:+ path := by
  obtain ⟨hfound, before, after, hsplit, hbefore⟩ := List.find?_eq_some_iff_append.mp h
  have hpairs := candidates_pairwise start
  rw [hsplit] at hpairs ⊢
  refine ⟨hfound, by simp, fun other hother hworkspace => ?_⟩
  -- in front of the one that is found there is no workspace, behind it all lie above
  rcases List.mem_append.mp hother with hother | hother
  · have hnot := hbefore other hother
    rw [hworkspace] at hnot
    exact absurd hnot (by decide)
  · rcases List.mem_cons.mp hother with rfl | hother
    · exact List.suffix_rfl
    · exact List.rel_of_pairwise_cons (List.pairwise_append.mp hpairs).2.1 hother

/-! ## The enclosing workspace -/

/-- The nearest workspace a directory is or lies in. -/
def Nearest (tree : Tree) (start path : Path) : Prop :=
  _is_workspace tree path = true ∧ path <:+ start ∧
    ∀ other, _is_workspace tree other = true → other <:+ start → other <:+ path

/-- Where there is a workspace above, there is a nearest one. -/
theorem exists_nearest {tree : Tree} {start : Path}
    (h : ∃ path, path <:+ start ∧ _is_workspace tree path = true) :
    ∃ path, Nearest tree start path := by
  induction start with
  | nil =>
      obtain ⟨path, hpath, hworkspace⟩ := h
      obtain rfl := List.suffix_nil.mp hpath
      exact ⟨[], hworkspace, List.suffix_rfl, fun other _ hother => hother⟩
  | cons name start ih =>
      -- the directory itself, or else the nearest above it
      by_cases hself : _is_workspace tree (name :: start)
      · exact ⟨name :: start, hself, List.suffix_rfl, fun other _ hother => hother⟩
      · have hup : ∀ other, _is_workspace tree other = true → other <:+ name :: start →
            other <:+ start := by
          intro other hother hsuffix
          rcases List.suffix_cons_iff.mp hsuffix with rfl | hsuffix
          · exact absurd hother hself
          · exact hsuffix
        obtain ⟨path, hpath, hworkspace⟩ := h
        obtain ⟨near, hnear, hbelow, hfirst⟩ := ih ⟨path, hup path hworkspace hpath, hworkspace⟩
        exact ⟨near, hnear, hbelow.trans (List.suffix_cons name start),
          fun other hother hsuffix => hfirst other hother (hup other hother hsuffix)⟩

theorem Nearest.unique {tree : Tree} {start path path' : Path} (h : Nearest tree start path)
    (h' : Nearest tree start path') : path = path' :=
  (h'.2.2 path h.1 h.2.1).eq_of_length_le (h.2.2 path' h'.1 h'.2.1).length_le

/-- Discovery succeeds exactly below a workspace, and with the nearest. -/
def Discovers (tree : Tree) (cwd package_repo start : Path) : Prop :=
  ((∃ path, discover_workspace tree cwd package_repo none (some [start]) = .ok path) ↔
      ∃ path, path <:+ start ∧ _is_workspace tree path = true) ∧
    ∀ path, discover_workspace tree cwd package_repo none (some [start]) = .ok path →
      Nearest tree start path

/-- A nearest workspace that is looked at is found. -/
theorem discovers_of_looked {tree : Tree} {start : Path} (cwd package_repo : Path)
    (h : ∀ path, Nearest tree start path → Looked start path) :
    Discovers tree cwd package_repo start := by
  have hnearest : ∀ path, discover_workspace tree cwd package_repo none (some [start]) = .ok path →
      Nearest tree start path := by
    intro path hpath
    obtain ⟨hfound, hmem, hfirst⟩ :=
      find_candidates ((discover_workspace_start tree cwd package_repo start path).mp hpath)
    have hbelow := (mem_candidates.mp hmem).1
    obtain ⟨near, hnear⟩ := exists_nearest ⟨path, hbelow, hfound⟩
    have hlooked : near ∈ candidates start := mem_candidates.mpr ⟨hnear.2.1, h near hnear⟩
    -- each is above the other
    have hsame : near = path :=
      (hfirst near hlooked hnear.1).eq_of_length_le (hnear.2.2 path hfound hbelow).length_le
    rwa [hsame] at hnear
  refine ⟨⟨fun ⟨path, hpath⟩ => ?_, fun habove => ?_⟩, hnearest⟩
  · exact ⟨path, (hnearest path hpath).2.1, (hnearest path hpath).1⟩
  · obtain ⟨near, hnear⟩ := exists_nearest habove
    have hlooked : near ∈ candidates start := mem_candidates.mpr ⟨hnear.2.1, h near hnear⟩
    have hfound : ((candidates start).find? (_is_workspace tree)).isSome :=
      List.find?_isSome.mpr ⟨near, hlooked, hnear.1⟩
    obtain ⟨path, hpath⟩ := Option.isSome_iff_exists.mp hfound
    exact ⟨path, (discover_workspace_start tree cwd package_repo start path).mpr hpath⟩

/-- A root is taken as it is unless it has the name of a repository. -/
theorem discover_workspace_root {tree : Tree} {root : Path} (cwd package_repo : Path)
    (search_from : Option (List Path)) (hroot : _is_workspace tree root = true) :
    discover_workspace tree cwd package_repo (some root) search_from = .ok root ↔
      root.name ∉ REPOSITORY_NAMES := by
  unfold discover_workspace
  dsimp only
  by_cases hname : root.name ∈ REPOSITORY_NAMES
  · -- the parent is tested in its place, and returned if it is a workspace too
    have hne : _normalize_candidate root ≠ root := by
      unfold _normalize_candidate Path.parent
      rw [if_pos hname]
      cases root with
      | nil => exact absurd hname (by decide)
      | cons name root => exact List.ne_cons_self
    split_ifs with hworkspace
    · simp [hname, hne]
    · simp [hname]
  · have hself : _normalize_candidate root = root := if_neg hname
    rw [hself, if_pos hroot]
    simp [hname]

/-- **The enclosing workspace** is found exactly when it is looked at: it has not the
name of a repository itself, or the start is in one of its repositories. A workspace
that is passed as the root is taken exactly when it has no such name. -/
theorem discover_workspace_iff (tree : Tree) (cwd package_repo start : Path)
    (search_from : Option (List Path)) :
    (Discovers tree cwd package_repo start ↔
      ∀ path, Nearest tree start path → Looked start path) ∧
    ∀ root, _is_workspace tree root = true →
      (discover_workspace tree cwd package_repo (some root) search_from = .ok root ↔
        root.name ∉ REPOSITORY_NAMES) := by
  refine ⟨⟨fun h path hpath => ?_, discovers_of_looked cwd package_repo⟩,
    fun root => discover_workspace_root cwd package_repo search_from⟩
  obtain ⟨found, hfound⟩ := h.1.mpr ⟨path, hpath.2.1, hpath.1⟩
  have hsame : path = found := hpath.unique (h.2 found hfound)
  rw [hsame]
  obtain ⟨-, hmem, -⟩ :=
    find_candidates ((discover_workspace_start tree cwd package_repo start found).mp hfound)
  exact (mem_candidates.mp hmem).2

/-- A workspace in a directory with the name of a repository. -/
def nested : Tree := .mkdirs (REPOSITORY_NAMES.map fun name => [name, "InfiniTime", "x"])

/-- It is not found from itself and not taken as the root. -/
theorem nested_not_discovered :
    nested.isDir ["InfiniTime", "x"] = true ∧ _is_workspace nested ["InfiniTime", "x"] = true ∧
      ¬ Discovers nested [] [] ["InfiniTime", "x"] ∧
      discover_workspace nested [] [] (some ["InfiniTime", "x"]) none ≠ .ok ["InfiniTime", "x"] := by
  refine ⟨by decide, by decide, fun h => ?_, by decide⟩
  obtain ⟨path, hpath⟩ := h.1.mpr ⟨["InfiniTime", "x"], List.suffix_rfl, by decide⟩
  rw [discover_workspace_start] at hpath
  have hnone : (candidates ["InfiniTime", "x"]).find? (_is_workspace nested) = none := by decide
  rw [hnone] at hpath
  cases hpath

end Ptlab
