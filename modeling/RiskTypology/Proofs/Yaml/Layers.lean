import RiskTypology.Proofs.Yaml.Merge

/-!
# Documents merged over each other

When no path leads to a mapping in one document and to anything else in another, it does not matter
how the documents are grouped when they are merged: every path leads to what the last document with
that path has there.
-/

namespace RiskTypology.Yaml.Value

/-- What the last of several documents that has a path shows there. -/
def lastAt (docs : List Value) (path : List Value) : Option Value :=
  docs.reverse.findSome? fun d ↦ d.outlineAt path

/-- Of two groups of documents the latter comes first, if a document there has the path. -/
theorem lastAt_append (docs more : List Value) (path : List Value) :
    lastAt (docs ++ more) path = (lastAt more path).or (lastAt docs path) := by
  rw [lastAt, List.reverse_append, List.findSome?_append]
  rfl

/-- Documents without repeated keys, among which no path leads to a mapping in one and to anything
else in another. -/
structure Mergeable (docs : List Value) : Prop where
  distinct : ∀ d ∈ docs, d.DistinctKeys
  compatible : ∀ d ∈ docs, ∀ e ∈ docs, d.Compatible e

/-- Some of several documents can be merged if all of them can. -/
theorem Mergeable.of_subset {docs more : List Value} (h : Mergeable more) (hs : docs ⊆ more) :
    Mergeable docs where
  distinct d hd := h.distinct d (hs hd)
  compatible d hd e he := h.compatible d (hs hd) e (hs he)

/-- A value that shows at every path what the last of some documents that has the path shows
there. -/
structure Layered (docs : List Value) (v : Value) : Prop where
  distinct : v.DistinctKeys
  shows (path : List Value) : v.outlineAt path = lastAt docs path

/-- A document by itself. -/
theorem layered_singleton {d : Value} (h : d.DistinctKeys) : Layered [d] d where
  distinct := h
  shows path := by simp [lastAt]

namespace Layered

variable {docs more : List Value} {v w : Value}

/-- Where the value has a mapping, so has some document, and likewise for anything else. -/
theorem exists_document (h : Layered docs v) {path : List Value} {a : Value}
    (ha : v.at? path = some a) : ∃ d ∈ docs, ∃ b, d.at? path = some b ∧ b.isMap = a.isMap := by
  have hlast : lastAt docs path = some a.outline := by rw [← h.shows, outlineAt, ha]; rfl
  obtain ⟨d, hd, houtline⟩ := List.exists_of_findSome?_eq_some hlast
  obtain ⟨b, hb, heq⟩ := Option.map_eq_some_iff.mp houtline
  exact ⟨d, List.mem_reverse.mp hd, b, hb, by rw [← isMap_outline, heq, isMap_outline]⟩

/-- What is layered from documents that can be merged is compatible. -/
theorem compatible (hv : Layered docs v) (hw : Layered more w) (hm : Mergeable (docs ++ more)) :
    v.Compatible w := by
  intro path a b ha hb
  obtain ⟨d, hd, a', ha', hda⟩ := hv.exists_document ha
  obtain ⟨e, he, b', hb', heb⟩ := hw.exists_document hb
  have hboth := hm.compatible d (List.mem_append_left _ hd) e (List.mem_append_right _ he)
  rw [← hda, ← heb]
  exact hboth path a' b' ha' hb'

/-- A merge is layered from the documents of the base and those of what is on top. -/
theorem merge (hv : Layered docs v) (hw : Layered more w) (hm : Mergeable (docs ++ more)) :
    Layered (docs ++ more) (v.merge w) where
  distinct := hv.distinct.merge hw.distinct
  shows path := by
    rw [outlineAt_merge hw.distinct, lastAt_append, ← hw.shows, ← hv.shows]
    by_cases hb : w.bars path = true
    · have hnone := (hv.compatible hw hm).at?_eq_none hb
      have hbase : v.outlineAt path = none := by rw [outlineAt, hnone, Option.map_none]
      rw [if_pos hb, hbase]
    · rw [if_neg hb]

/-- Documents merged one after the other over a value are layered over the value's own. -/
theorem foldl_merge (hv : Layered docs v) (hm : Mergeable (docs ++ more)) :
    Layered (docs ++ more) (more.foldl Value.merge v) := by
  induction more generalizing docs v with
  | nil => simpa using hv
  | cons d more ih =>
    rw [List.append_cons] at hm ⊢
    have hd : d.DistinctKeys := hm.distinct d (by simp)
    exact ih (hv.merge (layered_singleton hd) (hm.of_subset (List.subset_append_left _ _))) hm

/-- Two values that are layered from the same documents are the same but for the order of
entries. -/
theorem sameButOrder (hv : Layered docs v) (hw : Layered docs w) : SameButOrder v w :=
  sameButOrder_of_outlineAt hv.distinct hw.distinct fun path ↦ by rw [hv.shows, hw.shows]

end Layered

/-- Documents merged one over the other. -/
theorem layered_foldl_merge {first : Value} {rest : List Value}
    (hm : Mergeable (first :: rest)) : Layered (first :: rest) (rest.foldl merge first) :=
  (layered_singleton (hm.distinct first List.mem_cons_self)).foldl_merge hm

end RiskTypology.Yaml.Value
