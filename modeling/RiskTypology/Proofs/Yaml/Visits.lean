import Mathlib.Data.Set.Card
import Mathlib.Logic.Relation
import RiskTypology.Draft.Read
import RiskTypology.Yaml.Include

/-!
# The way through included files

A file is opened, then all that it includes is visited, and then it is closed. A load fails with
the first fault that is met on this way. When no file leads back to itself, the way meets all that
a file leads to, and nothing is cut off if files may be included deeply enough.
-/

namespace RiskTypology.Yaml.Include

/-- What is met on the way through all that a file includes. -/
inductive Visit where
  | opening (path : String)
  | closing (path text : String)
  /-- Files may not be included any deeper. -/
  | cutOff (path : String)
deriving DecidableEq, Repr

section

variable (read : String → Except String String)
  (scan : String → Except ScanFault (List Value))

/-- Load a file from files that can only be read. -/
def loadFrom (depth : Nat) (path : String) : Except IncludeFault Value :=
  load (m := Id) read scan depth path

/-- Load files one after the other over what is loaded already, each by a load of its own. -/
def loadEach (load : String → Except IncludeFault Value) (path : String) (acc : Option Value)
    (targets : List String) : Except IncludeFault (Option Value) :=
  loadAll (m := Id) load path acc targets

/-- The way through all that a file includes, depth first. -/
def visits : Nat → String → List Visit
  | 0, path => [.cutOff path]
  | depth + 1, path =>
    match read path with
    | .error _ => [.opening path]
    | .ok text =>
      let included := (targets text).flatMap fun target ↦ visits depth (resolve path target)
      .opening path :: (included ++ [.closing path text])

/-- What is wrong with a file: when it is opened it may not be readable, and when it is closed its
own lines may not be YAML, or may hold no document although it includes nothing. -/
def Visit.fault? : Visit → Option IncludeFault
  | .opening path =>
    match read path with
    | .error reason => some (.unreadable path reason)
    | .ok _ => none
  | .closing path text =>
    match scan (ownText text) with
    | .error fault => some (.malformed path fault)
    | .ok own => if targets text = [] ∧ own = [] then some (.empty path) else none
  | .cutOff path => some (.endless path)

/-- A file includes another: one of its lines names it. -/
def Includes (path other : String) : Prop :=
  ∃ text, read path = .ok text ∧ other ∈ (targets text).map (resolve path)

/-- A file leads to another over any number of inclusions. -/
def Reaches : String → String → Prop := Relation.ReflTransGen (Includes read)

/-- The files that can be read among those that a file leads to. -/
def files (entry : String) : Set String :=
  {path | Reaches read entry path ∧ ∃ text, read path = .ok text}

/-- A file leads to finitely many files, and none of them leads back to itself. -/
structure Acyclic (entry : String) : Prop where
  finite : (files read entry).Finite
  acyclic : ∀ path, Reaches read entry path → ¬ Relation.TransGen (Includes read) path path

/-- The file of a visit. -/
def Visit.path : Visit → String
  | .opening path | .closing path _ | .cutOff path => path

/-- What is left to load when the first of several files is loaded. -/
theorem loadEach_cons (load : String → Except IncludeFault Value) (path : String)
    (acc : Option Value) (target : String) (rest : List String) :
    loadEach load path acc (target :: rest) =
      match load (resolve path target) with
      | .error fault => .error fault
      | .ok v => loadEach load path (some (mergeOver acc v)) rest := by
  rw [loadEach, loadAll]
  cases load (resolve path target) <;> rfl

variable {read} {scan}

/-- What is left to load of a file that can be read. -/
theorem loadFrom_of_read {path text : String} (h : read path = .ok text) (depth : Nat) :
    loadFrom read scan (depth + 1) path =
      match loadEach (loadFrom read scan depth) path none (targets text) with
      | .error fault => .error fault
      | .ok included => close scan path text included := by
  rw [loadFrom, load, h]
  rfl

/-- A file that cannot be read cannot be loaded. -/
theorem loadFrom_of_error {path reason : String} (h : read path = .error reason) (depth : Nat) :
    loadFrom read scan (depth + 1) path = .error (.unreadable path reason) := by
  rw [loadFrom, load, h]
  rfl

/-- Nothing was loaded only when there was nothing to load. -/
theorem loadEach_eq_none {load : String → Except IncludeFault Value} {path : String}
    {targets : List String} {acc included : Option Value}
    (h : loadEach load path acc targets = .ok included) :
    included = none ↔ acc = none ∧ targets = [] := by
  induction targets generalizing acc with
  | nil =>
    cases h
    simp
  | cons target rest ih =>
    rw [loadEach_cons] at h
    cases hload : load (resolve path target) with
    | error fault =>
      rw [hload] at h
      cases h
    | ok v =>
      rw [hload] at h
      simpa using ih h

/-- Several files fail with the first fault on the way through them, if each one does. -/
theorem fault?_loadEach {load : String → Except IncludeFault Value} {way : String → List Visit}
    {fault? : Visit → Option IncludeFault}
    (hload : ∀ path, Draft.fault? (load path) = (way path).findSome? fault?) (path : String)
    (targets : List String) (acc : Option Value) :
    Draft.fault? (loadEach load path acc targets) =
      (targets.flatMap fun target ↦ way (resolve path target)).findSome? fault? := by
  induction targets generalizing acc with
  | nil => rfl
  | cons target rest ih =>
    rw [loadEach_cons, List.flatMap_cons, List.findSome?_append, ← hload]
    cases load (resolve path target) with
    | error fault => rfl
    | ok v => exact ih _

/-- Values over a base are merged onto it one after the other. -/
theorem mergeAll_some (base : Value) (vs : List Value) :
    mergeAll (some base) vs = some (vs.foldl Value.merge base) := by
  induction vs generalizing base with
  | nil => rfl
  | cons v rest ih => exact ih _

/-- Without a base there is nothing to merge onto unless there are values. -/
theorem mergeAll_none_eq_none (vs : List Value) : mergeAll none vs = none ↔ vs = [] := by
  cases vs with
  | nil => exact iff_of_true rfl rfl
  | cons v rest =>
    have hsome : mergeAll none (v :: rest) = some (rest.foldl Value.merge v) :=
      mergeAll_some v rest
    simp [hsome]

variable (read) in
/-- Closing a file fails as its own lines tell. -/
theorem fault?_close {path text : String} {included : Option Value}
    (h : included = none ↔ targets text = []) :
    Draft.fault? (close scan path text included) = Visit.fault? read scan (.closing path text) := by
  rw [close, Visit.fault?]
  cases scan (ownText text) with
  | error fault => rfl
  | ok own =>
    simp only [← h, ← mergeAll_none_eq_none own]
    cases included <;> cases mergeAll none own <;> rfl

/-- The way through a file that can be read. -/
theorem visits_of_read {path text : String} (h : read path = .ok text) (depth : Nat) :
    visits read (depth + 1) path =
      .opening path ::
        (((targets text).flatMap fun target ↦ visits read depth (resolve path target)) ++
          [.closing path text]) := by
  rw [visits, h]

variable (read) (scan) in
/-- A load fails with the first fault on its way, and only if there is one. -/
theorem fault?_loadFrom (depth : Nat) (path : String) :
    Draft.fault? (loadFrom read scan depth path) =
      (visits read depth path).findSome? (Visit.fault? read scan) := by
  -- A load of many files fails with the first fault on the way through them, by `fault?_loadEach`;
  -- what remains is the file itself, before them and after them.
  induction depth generalizing path with
  | zero => rfl
  | succ depth ih =>
    cases hread : read path with
    | error reason =>
      simp [loadFrom_of_error hread, visits, hread, Visit.fault?, Draft.fault?]
    | ok text =>
      have hopening : Visit.fault? read scan (.opening path) = none := by
        rw [Visit.fault?, hread]
      rw [loadFrom_of_read hread, visits_of_read hread,
        List.findSome?_cons_of_isNone (by rw [hopening]; rfl), List.findSome?_append,
        ← fault?_loadEach ih path (targets text) none]
      cases hall : loadEach (loadFrom read scan depth) path none (targets text) with
      | error fault => rfl
      | ok included =>
        have hnone := (loadEach_eq_none hall).trans (and_iff_right rfl)
        exact (fault?_close read hnone).trans (by simp [Draft.fault?])

/-- What is met on the way through a file that can be read. -/
theorem mem_visits_of_read {path text : String} (h : read path = .ok text) {depth : Nat}
    {visit : Visit} :
    visit ∈ visits read (depth + 1) path ↔
      visit = .opening path ∨
        (∃ other, Includes read path other ∧ visit ∈ visits read depth other) ∨
        visit = .closing path text := by
  have hincluded (other : String) :
      Includes read path other ↔ ∃ target ∈ targets text, resolve path target = other := by
    simp [Includes, h]
  simp only [visits_of_read h, hincluded, List.mem_cons, List.mem_append, List.mem_flatMap,
    List.not_mem_nil, or_false, exists_exists_and_eq_and]

/-- On the way only files that the entry leads to are met, and they are closed with their text. -/
theorem reaches_of_mem_visits {depth : Nat} {entry : String} {visit : Visit}
    (h : visit ∈ visits read depth entry) :
    Reaches read entry visit.path ∧
      ∀ path text, visit = .closing path text → read path = .ok text := by
  induction depth generalizing entry with
  | zero =>
    rw [visits, List.mem_singleton] at h
    subst h
    exact ⟨.refl, by simp⟩
  | succ depth ih =>
    cases hread : read entry with
    | error reason =>
      rw [visits, hread, List.mem_singleton] at h
      subst h
      exact ⟨.refl, by simp⟩
    | ok text =>
      rcases (mem_visits_of_read hread).mp h with rfl | ⟨other, hother, hmem⟩ | rfl
      · exact ⟨.refl, by simp⟩
      · obtain ⟨hreach, hclosing⟩ := ih hmem
        exact ⟨hreach.head hother, hclosing⟩
      · refine ⟨.refl, ?_⟩
        rintro path text' heq
        cases heq
        exact hread

/-- When nothing is cut off, all files that the entry leads to are met, and those that can be read
are closed. -/
theorem mem_visits_of_reaches {depth : Nat} {entry path : String}
    (hcut : ∀ p, .cutOff p ∉ visits read depth entry) (h : Reaches read entry path) :
    .opening path ∈ visits read depth entry ∧
      ∀ text, read path = .ok text → .closing path text ∈ visits read depth entry := by
  induction depth generalizing entry with
  | zero => exact absurd (List.mem_singleton_self _) (hcut entry)
  | succ depth ih =>
    rcases h.cases_head with rfl | ⟨other, hother, hrest⟩
    · cases hread : read entry with
      | error reason => simp [visits, hread]
      | ok text => simp [visits_of_read hread]
    · obtain ⟨text, hread, -⟩ := id hother
      have hmem {visit : Visit} (hv : visit ∈ visits read depth other) :
          visit ∈ visits read (depth + 1) entry :=
        (mem_visits_of_read hread).mpr (.inr (.inl ⟨other, hother, hv⟩))
      obtain ⟨hopening, hclosing⟩ := ih (fun p hp ↦ hcut p (hmem hp)) hrest
      exact ⟨hmem hopening, fun text hread ↦ hmem (hclosing text hread)⟩

/-- An included file leads to no files but those the including one leads to. -/
theorem files_subset {entry other : String} (h : Includes read entry other) :
    files read other ⊆ files read entry :=
  fun _ hpath ↦ ⟨hpath.1.head h, hpath.2⟩

/-- No includes lead back from an included file if none do from the including one. -/
theorem Acyclic.of_includes {entry other : String} (ha : Acyclic read entry)
    (h : Includes read entry other) : Acyclic read other where
  finite := ha.finite.subset (files_subset h)
  acyclic path hpath := ha.acyclic path (hpath.head h)

/-- A file that is included leads to fewer files than the one that includes it. -/
theorem ncard_files_lt {entry other : String} (ha : Acyclic read entry)
    (h : Includes read entry other) : (files read other).ncard < (files read entry).ncard := by
  obtain ⟨text, hread, -⟩ := id h
  have hentry : entry ∈ files read entry := ⟨.refl, text, hread⟩
  have hother : entry ∉ files read other := fun hmem ↦
    ha.acyclic entry .refl (.head' h hmem.1)
  exact Set.ncard_lt_ncard ⟨files_subset h, fun hsub ↦ hother (hsub hentry)⟩ ha.finite

/-- Nothing is cut off when files may be included in each other more deeply than there are
files. -/
theorem cutOff_not_mem_visits {depth : Nat} {entry : String} (ha : Acyclic read entry)
    (hdepth : (files read entry).ncard < depth) (path : String) :
    .cutOff path ∉ visits read depth entry := by
  induction depth generalizing entry with
  | zero => exact absurd hdepth (Nat.not_lt_zero _)
  | succ depth ih =>
    cases hread : read entry with
    | error reason => simp [visits, hread]
    | ok text =>
      rw [mem_visits_of_read hread]
      rintro (heq | ⟨other, hother, hmem⟩ | heq)
      · cases heq
      · -- Each inclusion leaves a file behind, so that there are always fewer left than levels.
        have hfewer := ncard_files_lt ha hother
        exact ih (ha.of_includes hother) (by omega) hmem
      · cases heq

end

end RiskTypology.Yaml.Include
