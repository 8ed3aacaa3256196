import RiskTypology.Proofs.Yaml.Documents
import RiskTypology.Proofs.Yaml.Layers
import RiskTypology.Proofs.Yaml.Visits

/-!
# Loading a file with all it includes

A load merges what a file includes, the file's own documents, and then the one over the other, file
by file. When the documents can be merged in any grouping, that is one merge of them all, in the
order in which the files are closed. Where the including lines of a file stand does not matter.
-/

namespace RiskTypology.Yaml.Include

open Value (SameButOrder Mergeable Layered lastAt)

section

variable (read : String → Except String String)
  (scan : String → Except ScanFault (List Value))

/-- The own documents of a file, when it is closed. -/
def Visit.documents : Visit → List Value
  | .closing _ text => (scan (ownText text)).toOption.getD []
  | _ => []

/-- All documents on the way, those of a file behind those of all that it includes. -/
def documents (depth : Nat) (path : String) : List Value :=
  (visits read depth path).flatMap (Visit.documents scan)

/-- A file that can be read, whose own lines are YAML, and that includes something or holds a
document. -/
def Sound (path : String) : Prop :=
  ∃ text own, read path = .ok text ∧ scan (ownText text) = .ok own ∧ (targets text ≠ [] ∨ own ≠ [])

/-- A document among the own lines of a file that an entry leads to. -/
def IsDocument (entry : String) (d : Value) : Prop :=
  ∃ path text own, Reaches read entry path ∧ read path = .ok text ∧
    scan (ownText text) = .ok own ∧ d ∈ own

variable {read} {scan}

/-- A value that is there is layered from some documents, and without any there is none. -/
def LayeredIfAny (docs : List Value) : Option Value → Prop
  | none => docs = []
  | some v => Layered docs v

/-- What is merged over a value, if there is one. -/
theorem layered_mergeOver {docs more : List Value} {base : Option Value} {v : Value}
    (hbase : LayeredIfAny docs base) (hv : Layered more v) (hm : Mergeable (docs ++ more)) :
    Layered (docs ++ more) (mergeOver base v) := by
  cases base with
  | none =>
    have hdocs : docs = [] := hbase
    rw [hdocs, List.nil_append]
    exact hv
  | some b => exact Layered.merge hbase hv hm

/-- Files that are loaded one after the other are layered, if each one is. -/
theorem layered_loadEach {load : String → Except IncludeFault Value} {docsOf : String → List Value}
    (hload : ∀ path v, load path = .ok v → Mergeable (docsOf path) → Layered (docsOf path) v)
    {path : String} {targets : List String} {docs : List Value} {acc included : Option Value}
    (h : loadEach load path acc targets = .ok included)
    (hacc : LayeredIfAny docs acc)
    (hm : Mergeable (docs ++ targets.flatMap fun target ↦ docsOf (resolve path target))) :
    LayeredIfAny (docs ++ targets.flatMap fun target ↦ docsOf (resolve path target)) included := by
  induction targets generalizing docs acc with
  | nil =>
    cases h
    simpa using hacc
  | cons target rest ih =>
    rw [List.flatMap_cons, ← List.append_assoc] at hm ⊢
    rw [loadEach_cons] at h
    cases hone : load (resolve path target) with
    | error fault =>
      rw [hone] at h
      cases h
    | ok v =>
      rw [hone] at h
      have hboth := hm.of_subset (List.subset_append_left _ _)
      have hv := hload _ v hone (hboth.of_subset (List.subset_append_right _ _))
      exact ih h (layered_mergeOver hacc hv hboth) hm

/-- The own documents of a file are layered over what it includes. -/
theorem layered_close {path text : String} {docs own : List Value} {included : Option Value}
    {v : Value} (h : close scan path text included = .ok v) (hown : scan (ownText text) = .ok own)
    (hincluded : LayeredIfAny docs included) (hm : Mergeable (docs ++ own)) :
    Layered (docs ++ own) v := by
  rw [close, hown] at h
  cases own with
  | nil =>
    rw [List.append_nil]
    cases included with
    | none => cases h
    | some b =>
      cases h
      exact hincluded
  | cons first rest =>
    have hmerged : mergeAll none (first :: rest) = some (rest.foldl Value.merge first) :=
      mergeAll_some first rest
    simp only [hmerged] at h
    have hv : v = mergeOver included (rest.foldl Value.merge first) := by
      cases included <;> cases h <;> rfl
    rw [hv]
    exact layered_mergeOver hincluded
      (Value.layered_foldl_merge (hm.of_subset (List.subset_append_right _ _))) hm

/-- The documents of a file that can be read: those of all that it includes, and then its own. -/
theorem documents_of_read {path text : String} (h : read path = .ok text) (depth : Nat) :
    documents read scan (depth + 1) path =
      ((targets text).flatMap fun target ↦ documents read scan depth (resolve path target)) ++
        (scan (ownText text)).toOption.getD [] := by
  simp [documents, visits_of_read h, List.flatMap_assoc, Visit.documents]

/-- What is loaded is layered from the documents on the way. -/
theorem layered_loadFrom {depth : Nat} {path : String} {v : Value}
    (h : loadFrom read scan depth path = .ok v) (hm : Mergeable (documents read scan depth path)) :
    Layered (documents read scan depth path) v := by
  induction depth generalizing path v with
  | zero => cases h
  | succ depth ih =>
    cases hread : read path with
    | error reason =>
      rw [loadFrom_of_error hread] at h
      cases h
    | ok text =>
      rw [loadFrom_of_read hread] at h
      rw [documents_of_read hread] at hm ⊢
      cases hall : loadEach (loadFrom read scan depth) path none (targets text) with
      | error fault =>
        rw [hall] at h
        cases h
      | ok included =>
        rw [hall] at h
        have hnone : LayeredIfAny [] none := rfl
        have hincluded := layered_loadEach (fun _ _ hload ↦ ih hload) hall hnone
          (hm.of_subset (List.subset_append_left _ _))
        cases hown : scan (ownText text) with
        | error fault =>
          simp [close, hown] at h
        | ok own =>
          rw [hown] at hm
          exact layered_close h hown hincluded hm

/-- The including lines of a text. -/
def includeLines (text : String) : List (List Char) :=
  (linesOf text.toList).filter fun line ↦ (target? line).isSome

/-- The lines of a text that include nothing. -/
def ownLines (text : String) : List (List Char) :=
  (linesOf text.toList).filter fun line ↦ (target? line).isNone

/-- Two files of which neither can be read, for the same reason, or which differ at most in where
the including lines stand among the others. -/
inductive Rearranged : Except String String → Except String String → Prop where
  | unreadable (reason : String) : Rearranged (.error reason) (.error reason)
  | lines {text other : String} (hincludes : includeLines text = includeLines other)
      (hown : ownLines text = ownLines other) : Rearranged (.ok text) (.ok other)

/-- What a text includes is said by its including lines alone. -/
theorem targets_eq (text : String) : targets text = (includeLines text).filterMap target? := by
  rw [targets, includeLines, List.filterMap_filter]
  refine List.filterMap_congr fun line _ ↦ ?_
  cases target? line <;> rfl

/-- A load does not depend on where including lines stand. -/
theorem loadFrom_rearranged {read other : String → Except String String}
    (h : ∀ path, Rearranged (read path) (other path)) (depth : Nat) :
    loadFrom other scan depth = loadFrom read scan depth := by
  induction depth with
  | zero => rfl
  | succ depth ih =>
    funext path
    generalize hread : read path = x, hother : other path = y
    cases hread ▸ hother ▸ h path with
    | unreadable reason => rw [loadFrom_of_error hread, loadFrom_of_error hother]
    | lines hincludes hown =>
      rw [loadFrom_of_read hread, loadFrom_of_read hother, ih, targets_eq, targets_eq,
        hincludes]
      simp only [close, ownText, ownLines] at hown ⊢
      rw [hown]

/-- A file is sound when nothing is wrong with it as it is opened and as it is closed. -/
theorem sound_iff {path : String} :
    Sound read scan path ↔ Visit.fault? read scan (.opening path) = none ∧
      ∀ text, read path = .ok text → Visit.fault? read scan (.closing path text) = none := by
  cases hread : read path with
  | error reason => simp [Sound, Visit.fault?, hread]
  | ok text =>
    cases hscan : scan (ownText text) with
    | error fault => simp [Sound, Visit.fault?, hread, hscan]
    | ok own =>
      simpa [Sound, Visit.fault?, hread, hscan] using imp_iff_not_or.symm

variable {depth : Nat} {entry : String}

/-- The documents on the way are those of the files that the entry leads to. -/
theorem mem_documents_iff (hcut : ∀ path, .cutOff path ∉ visits read depth entry) {d : Value} :
    d ∈ documents read scan depth entry ↔ IsDocument read scan entry d := by
  rw [documents, List.mem_flatMap]
  constructor
  · rintro ⟨visit, hvisit, hd⟩
    obtain ⟨hreach, hread⟩ := reaches_of_mem_visits hvisit
    cases visit with
    | closing path text =>
      rw [Visit.documents] at hd
      cases hown : scan (ownText text) with
      | error fault =>
        rw [hown] at hd
        cases hd
      | ok own =>
        rw [hown] at hd
        exact ⟨path, text, own, hreach, hread path text rfl, hown, hd⟩
    | _ => cases hd
  · rintro ⟨path, text, own, hreach, hread, hown, hd⟩
    refine ⟨_, (mem_visits_of_reaches hcut hreach).2 text hread, ?_⟩
    rw [Visit.documents, hown]
    exact hd

/-- No fault is met on the way when all files that the entry leads to are sound. -/
theorem findSome?_eq_none_iff (hcut : ∀ path, .cutOff path ∉ visits read depth entry) :
    (visits read depth entry).findSome? (Visit.fault? read scan) = none ↔
      ∀ path, Reaches read entry path → Sound read scan path := by
  simp only [List.findSome?_eq_none_iff, sound_iff]
  constructor
  · intro h path hreach
    obtain ⟨hopening, hclosing⟩ := mem_visits_of_reaches hcut hreach
    exact ⟨h _ hopening, fun text hread ↦ h _ (hclosing text hread)⟩
  · intro h visit hvisit
    obtain ⟨hreach, hread⟩ := reaches_of_mem_visits hvisit
    cases visit with
    | opening path => exact (h path hreach).1
    | closing path text => exact (h path hreach).2 text (hread path text rfl)
    | cutOff path => exact absurd hvisit (hcut path)

/-- Loading a file from finitely many files that do not include each other in a circle. The way
through them meets exactly the files that the entry leads to, and cuts nothing off. The load
succeeds exactly when all these files are sound, and otherwise it fails with the first fault on the
way. When no path leads to a mapping in one of their documents and to anything else in another,
what is loaded is, but for the order of entries, one merge of all documents on the way, and shows
at every path what the last document that has the path shows there: own documents come behind those
of what a file includes, and what is included later behind what is included earlier. Files that
differ only in where the including lines stand among the others load the same. -/
theorem loads_in_depth_first_order (ha : Acyclic read entry)
    (hdepth : (files read entry).ncard < depth)
    (hscan : ∀ text own, scan text = .ok own → ∀ d ∈ own, d.DistinctKeys) :
    (∀ path, Visit.opening path ∈ visits read depth entry ↔ Reaches read entry path) ∧
    (∀ path, Visit.cutOff path ∉ visits read depth entry) ∧
    ((∃ v, loadFrom read scan depth entry = .ok v) ↔
      ∀ path, Reaches read entry path → Sound read scan path) ∧
    (∀ fault, loadFrom read scan depth entry = .error fault ↔
      (visits read depth entry).findSome? (Visit.fault? read scan) = some fault) ∧
    ((∀ d e, IsDocument read scan entry d → IsDocument read scan entry e → d.Compatible e) →
      ∀ v, loadFrom read scan depth entry = .ok v →
        ∃ first rest, documents read scan depth entry = first :: rest ∧
          SameButOrder v (rest.foldl Value.merge first) ∧
          ∀ path, v.outlineAt path = lastAt (first :: rest) path) ∧
    ∀ other : String → Except String String, (∀ path, Rearranged (read path) (other path)) →
      loadFrom other scan depth entry = loadFrom read scan depth entry := by
  have hcut := cutOff_not_mem_visits ha hdepth
  have hfault := fault?_loadFrom read scan depth entry
  refine ⟨fun path ↦ ⟨fun h ↦ (reaches_of_mem_visits h).1,
    fun h ↦ (mem_visits_of_reaches hcut h).1⟩, hcut, ?_, ?_, ?_, ?_⟩
  · rw [Draft.exists_ok_iff, hfault, findSome?_eq_none_iff hcut]
  · intro fault
    rw [← Draft.fault?_eq_some, hfault]
  · intro hc v hv
    have hm : Mergeable (documents read scan depth entry) := by
      constructor
      · intro d hd
        obtain ⟨path, text, own, -, -, hown, hd⟩ := (mem_documents_iff hcut).mp hd
        exact hscan _ own hown d hd
      · intro d hd e he
        exact hc d e ((mem_documents_iff hcut).mp hd) ((mem_documents_iff hcut).mp he)
    have hlayered := layered_loadFrom hv hm
    cases hdocs : documents read scan depth entry with
    | nil =>
      -- Something stands at the empty path of any value, so there is a document that shows it.
      have hroot := hlayered.shows []
      rw [hdocs] at hroot
      cases hroot
    | cons first rest =>
      rw [hdocs] at hlayered hm
      exact ⟨first, rest, rfl, hlayered.sameButOrder (Value.layered_foldl_merge hm),
        hlayered.shows⟩
  · intro other hother
    rw [loadFrom_rearranged hother]

end

private def diamond (path : String) : Except String String :=
  if path = "./a" then .ok "!include d/b\nk: 3\n!include d/c\n"
  else if path = "./d/b" then .ok "!include c\nk: 2\nm: 2\n"
  else if path = "./d/c" then .ok "k: 1\nn: 1\n"
  else .error "no such file"

private def topDocument : Value := .map [(.str "k", .int 3)]

private def middleDocument : Value := .map [(.str "k", .int 2), (.str "m", .int 2)]

private def bottomDocument : Value := .map [(.str "k", .int 1), (.str "n", .int 1)]

private theorem eq_ok_of_toOption {ε α : Type} {x : Except ε α} {a : α}
    (h : x.toOption = some a) : x = .ok a := by
  cases x <;> cases h
  rfl

private theorem diamond_read {path text : String} (h : diamond path = .ok text) :
    path = "./a" ∨ path = "./d/b" ∨ path = "./d/c" := by
  by_contra hpath
  rw [not_or, not_or] at hpath
  rw [diamond, if_neg hpath.1, if_neg hpath.2.1, if_neg hpath.2.2] at h
  cases h

private def Holds (path : String) (included : List String) (own : Value) : Prop :=
  ∃ text, diamond path = .ok text ∧ (targets text).map (resolve path) = included ∧
    Value.documents (ownText text) = .ok [own]

private theorem top_holds : Holds "./a" ["./d/b", "./d/c"] topDocument :=
  ⟨_, rfl, by decide +kernel, eq_ok_of_toOption (by decide +kernel)⟩

private theorem middle_holds : Holds "./d/b" ["./d/c"] middleDocument :=
  ⟨_, rfl, by decide +kernel, eq_ok_of_toOption (by decide +kernel)⟩

private theorem bottom_holds : Holds "./d/c" [] bottomDocument :=
  ⟨_, rfl, rfl, eq_ok_of_toOption (by decide +kernel)⟩

private theorem Holds.includes_iff {path other : String} {included : List String} {own : Value}
    (h : Holds path included own) : Includes diamond path other ↔ other ∈ included := by
  obtain ⟨text, hread, htargets, -⟩ := h
  simp [Includes, hread, ← htargets]

private theorem Holds.sound {path : String} {included : List String} {own : Value}
    (h : Holds path included own) : Sound diamond Value.documents path := by
  obtain ⟨text, hread, -, hown⟩ := h
  exact ⟨text, [own], hread, hown, .inr (List.cons_ne_nil _ _)⟩

private theorem Holds.documents_eq {path : String} {included : List String} {own : Value}
    (h : Holds path included own) (depth : Nat) :
    documents diamond Value.documents (depth + 1) path =
      included.flatMap (documents diamond Value.documents depth) ++ [own] := by
  obtain ⟨text, hread, rfl, hown⟩ := h
  rw [documents_of_read hread, hown, List.flatMap_map]
  rfl

private theorem diamond_includes {path other : String} (h : Includes diamond path other) :
    path = "./a" ∧ (other = "./d/b" ∨ other = "./d/c") ∨ path = "./d/b" ∧ other = "./d/c" := by
  obtain ⟨text, hread, -⟩ := id h
  rcases diamond_read hread with rfl | rfl | rfl
  · exact .inl ⟨rfl, by simpa using top_holds.includes_iff.mp h⟩
  · exact .inr ⟨rfl, by simpa using middle_holds.includes_iff.mp h⟩
  · cases bottom_holds.includes_iff.mp h

private theorem diamond_reaches {path : String} (h : Reaches diamond "./a" path) :
    path = "./a" ∨ path = "./d/b" ∨ path = "./d/c" := by
  rcases h.cases_tail with rfl | ⟨other, -, hlast⟩
  · exact .inl rfl
  · rcases diamond_includes hlast with ⟨-, rfl | rfl⟩ | ⟨-, rfl⟩ <;> simp

private theorem diamond_acyclic : Acyclic diamond "./a" where
  finite := (Set.toFinite {"./a", "./d/b", "./d/c"}).subset fun path hpath ↦ diamond_reaches hpath.1
  acyclic path _ hcycle := by
    let rank (p : String) : Nat := if p = "./a" then 2 else if p = "./d/b" then 1 else 0
    have hdrop : Relation.TransGen (· > ·) (rank path) (rank path) :=
      hcycle.lift rank fun p q hpq ↦ by
        rcases diamond_includes hpq with ⟨rfl, rfl | rfl⟩ | ⟨rfl, rfl⟩ <;> decide
    rw [Relation.transGen_eq_self] at hdrop
    exact lt_irrefl _ hdrop

private theorem diamond_fewer : (files diamond "./a").ncard < 4 := by
  let paths : Finset String := {"./a", "./d/b", "./d/c"}
  have hsub : files diamond "./a" ⊆ (paths : Set String) := fun path hpath ↦ by
    simpa [paths] using diamond_reaches hpath.1
  have hle := Set.ncard_le_ncard hsub paths.finite_toSet
  rw [Set.ncard_coe_finset] at hle
  exact hle.trans_lt (by decide)

private theorem diamond_sound (path : String) (h : Reaches diamond "./a" path) :
    Sound diamond Value.documents path := by
  rcases diamond_reaches h with rfl | rfl | rfl
  · exact top_holds.sound
  · exact middle_holds.sound
  · exact bottom_holds.sound

private theorem diamond_documents :
    documents diamond Value.documents 4 "./a" =
      [bottomDocument, middleDocument, bottomDocument, topDocument] := by
  rw [top_holds.documents_eq]
  simp [middle_holds.documents_eq, bottom_holds.documents_eq]

/-- A file includes another, and both include a third: every entry is that of the last file that
has it. -/
theorem diamond_loads :
    Acyclic diamond "./a" ∧ (files diamond "./a").ncard < 4 ∧
      (∀ text own, Value.documents text = .ok own → ∀ d ∈ own, d.DistinctKeys) ∧
      ∃ v, loadFrom diamond Value.documents 4 "./a" = .ok v ∧
        v.outlineAt [.str "k"] = some (.int 3) ∧ v.outlineAt [.str "m"] = some (.int 2) ∧
        v.outlineAt [.str "n"] = some (.int 1) := by
  have hscan (text own) (h : Value.documents text = .ok own) : ∀ d ∈ own, d.DistinctKeys :=
    Value.distinctKeys_of_documents h
  obtain ⟨-, hcut, hsuccess, -, hmerged, -⟩ :=
    loads_in_depth_first_order diamond_acyclic diamond_fewer hscan
  obtain ⟨v, hv⟩ := hsuccess.mpr diamond_sound
  have hflat {d : Value} (hd : IsDocument diamond Value.documents "./a" d) :
      ∃ entries, d = .map entries ∧ ∀ e ∈ entries, e.2.isMap = false := by
    rw [← mem_documents_iff hcut, diamond_documents] at hd
    simp only [List.mem_cons, List.not_mem_nil, or_false] at hd
    rcases hd with rfl | rfl | rfl | rfl <;> exact ⟨_, rfl, by decide⟩
  have hcompatible (d e) (hd : IsDocument diamond Value.documents "./a" d)
      (he : IsDocument diamond Value.documents "./a" e) : d.Compatible e := by
    obtain ⟨entries, rfl, hentries⟩ := hflat hd
    obtain ⟨others, rfl, hothers⟩ := hflat he
    exact Value.compatible_flat hentries hothers
  obtain ⟨first, rest, hdocs, -, hshows⟩ := hmerged hcompatible v hv
  rw [diamond_documents] at hdocs
  rw [← hdocs] at hshows
  exact ⟨diamond_acyclic, diamond_fewer, hscan, v, hv, hshows _, hshows _, hshows _⟩

end RiskTypology.Yaml.Include
