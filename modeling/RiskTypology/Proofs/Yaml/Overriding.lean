import RiskTypology.Proofs.Yaml.Layers

/-!
# Overriding leaf by leaf

A leaf is a value other than a mapping. A merge has every leaf of the value on top, and of the base
the leaves at paths that the value on top spares: where it has nothing, and no leaf on the way. It
has no other leaves. Up to the order of entries, merging a value onto itself gives that value, and
it does not matter how three values are grouped, unless a path leads to a mapping in one of them and
to a leaf in another.
-/

namespace RiskTypology.Yaml.Value

/-- A path leads to a leaf. -/
def HasLeaf (v : Value) (path : List Value) (leaf : Value) : Prop :=
  v.at? path = some leaf ∧ leaf.isMap = false

/-- A value has nothing at a path, and no leaf on the way there. -/
structure Spares (v : Value) (path : List Value) : Prop where
  undefined : v.at? path = none
  open_way : ∀ front leaf, front <+: path → front ≠ path → ¬ v.HasLeaf front leaf

/-- At a path a value has the leaf of a value on top, or else that of a base, and nothing of the
base where the value on top does not spare it. -/
structure Overridden (base top merged : Value) (path : List Value) : Prop where
  of_top : ∀ leaf, top.HasLeaf path leaf → merged.HasLeaf path leaf
  of_base : ∀ leaf, base.HasLeaf path leaf → top.Spares path → merged.HasLeaf path leaf
  not_inherited : ∀ leaf, base.HasLeaf path leaf → ¬ top.Spares path →
    merged.at? path = top.at? path
  origin : ∀ leaf, merged.HasLeaf path leaf →
    top.HasLeaf path leaf ∨ base.HasLeaf path leaf ∧ top.Spares path

variable {base top v : Value} {path : List Value} {leaf : Value}

/-- The way to a path is barred by a leaf in front of its end. -/
theorem bars_iff :
    v.bars path = true ↔ ∃ front leaf, front <+: path ∧ front ≠ path ∧ v.HasLeaf front leaf := by
  induction path generalizing v with
  | nil =>
    have hbars : v.bars [] = false := by cases v <;> rfl
    simp [hbars]
  | cons k path ih =>
    cases hv : v.isMap with
    | false =>
      rw [bars_cons_of_leaf hv]
      exact iff_of_true rfl ⟨[], v, List.nil_prefix, (List.cons_ne_nil k path).symm, at?_nil v, hv⟩
    | true =>
      obtain ⟨entries, rfl⟩ := eq_map_of_isMap hv
      rw [bars, Option.any_eq_true]
      constructor
      · rintro ⟨w, hw, hbars⟩
        obtain ⟨front, leaf, hfront, hne, hleaf⟩ := ih.mp hbars
        refine ⟨k :: front, leaf, List.cons_prefix_cons.mpr ⟨rfl, hfront⟩, by simpa using hne, ?_⟩
        rw [HasLeaf, at?_map_cons, hw]
        exact hleaf
      · rintro ⟨front, leaf, hfront, hne, hat, hleaf⟩
        cases front with
        | nil =>
          rw [at?_nil] at hat
          cases hat
          cases hleaf
        | cons l front =>
          obtain ⟨rfl, hprefix⟩ := List.cons_prefix_cons.mp hfront
          rw [at?_map_cons, Option.bind_eq_some_iff] at hat
          obtain ⟨w, hw, hat⟩ := hat
          exact ⟨w, hw, ih.mpr ⟨front, leaf, hprefix, by simpa using hne, hat, hleaf⟩⟩

/-- A path is spared when it leads nowhere and its way is not barred. -/
theorem spares_iff : v.Spares path ↔ v.at? path = none ∧ v.bars path = false := by
  rw [← Bool.not_eq_true, bars_iff]
  constructor
  · rintro ⟨hnone, hopen⟩
    refine ⟨hnone, ?_⟩
    rintro ⟨front, leaf, hfront, hne, hleaf⟩
    exact hopen front leaf hfront hne hleaf
  · rintro ⟨hnone, hopen⟩
    exact ⟨hnone, fun front leaf hfront hne hleaf ↦ hopen ⟨front, leaf, hfront, hne, hleaf⟩⟩

/-- A merge has the leaves of what is on top, and those of the base that are spared. -/
theorem hasLeaf_merge_iff (ht : top.DistinctKeys) :
    (merge base top).HasLeaf path leaf ↔
      top.HasLeaf path leaf ∨ base.HasLeaf path leaf ∧ top.Spares path := by
  rw [spares_iff, HasLeaf, HasLeaf, HasLeaf, at?_merge ht]
  cases top.at? path with
  | none => cases top.bars path <;> simp
  | some w =>
    cases base.at? path with
    | none => simp
    | some b =>
      cases hw : w.isMap with
      | false => simp [merge_of_leaf (.inr hw)]
      | true =>
        have hmerge : (merge b w).isMap = true := by
          rw [← isMap_outline, outline_merge, isMap_outline, hw]
        have hleaf {u : Value} (hu : u.isMap = true) : ¬ (u = leaf ∧ leaf.isMap = false) := by
          rintro ⟨rfl, hleaf⟩
          exact Bool.noConfusion (hu.symm.trans hleaf)
        simp [hleaf hw, hleaf hmerge]

/-- Where the base has a leaf that is not spared, a merge has what there is on top. -/
theorem at?_merge_of_not_spares (ht : top.DistinctKeys) (hb : base.HasLeaf path leaf)
    (hs : ¬ top.Spares path) : (merge base top).at? path = top.at? path := by
  rw [spares_iff] at hs
  rw [at?_merge ht, hb.1]
  cases htop : top.at? path with
  | none =>
    have hbars : top.bars path = true := by simpa [htop] using hs
    simp [hbars]
  | some w => simp [merge_of_leaf (.inl hb.2)]

/-- A merge overrides leaf by leaf. -/
theorem overridden_merge (ht : top.DistinctKeys) (base : Value) (path : List Value) :
    Overridden base top (merge base top) path where
  of_top _ h := (hasLeaf_merge_iff ht).mpr (.inl h)
  of_base _ hb hs := (hasLeaf_merge_iff ht).mpr (.inr ⟨hb, hs⟩)
  not_inherited _ := at?_merge_of_not_spares ht
  origin _ := (hasLeaf_merge_iff ht).mp

/-- Merging a value onto itself gives that value, up to the order of entries. -/
theorem merge_self (h : v.DistinctKeys) : SameButOrder (merge v v) v := by
  refine sameButOrder_of_outlineAt (h.merge h) h fun path ↦ ?_
  rw [outlineAt_merge h]
  cases v.outlineAt path <;> simp

/-- Merging is associative on values that can be merged, up to the order of entries. -/
theorem merge_assoc {a b c : Value} (h : Mergeable [a, b, c]) :
    SameButOrder ((a.merge b).merge c) (a.merge (b.merge c)) := by
  have hbc : Layered [b, c] (b.merge c) :=
    layered_foldl_merge (h.of_subset (List.subset_cons_self _ _))
  have ha : Layered [a] a := layered_singleton (h.distinct a List.mem_cons_self)
  exact (layered_foldl_merge h).sameButOrder (ha.merge hbc h)

/-- A merge overrides leaf by leaf at every path, the empty one included. Up to the order of
entries, merging a value onto itself gives that value, and merging is associative on values among
which no path leads to a mapping in one and to a leaf in another. -/
theorem merge_overrides_leaf_by_leaf :
    (∀ base top : Value, top.DistinctKeys → ∀ path, Overridden base top (merge base top) path) ∧
    (∀ v : Value, v.DistinctKeys → SameButOrder (merge v v) v) ∧
    ∀ a b c : Value, Mergeable [a, b, c] →
      SameButOrder ((a.merge b).merge c) (a.merge (b.merge c)) :=
  ⟨fun base _ ht ↦ overridden_merge ht base, fun _ ↦ merge_self, fun _ _ _ ↦ merge_assoc⟩

private def processor : Value := .str "processor"

private def logLevel : Value := .str "log_level"

private def serverAddress : Value := .str "server_address"

/-- Settings of the processor, none of them a mapping. -/
private structure Settings where
  entries : List (Value × Value)
  distinct : (entries.map Prod.fst).Nodup := by decide
  leaves : ∀ e ∈ entries, e.2.isMap = false := by decide

private def Settings.document (s : Settings) : Value := map [(processor, map s.entries)]

private theorem Settings.distinctKeys (s : Settings) : s.document.DistinctKeys := by
  refine .map (List.nodup_singleton _) fun e he ↦ ?_
  rw [List.mem_singleton.mp he]
  exact .map s.distinct fun e he ↦ .leaf (s.leaves e he)

private theorem Settings.compatible (s t : Settings) : s.document.Compatible t.document := by
  refine compatible_map.mpr fun k a b ha hb ↦ ?_
  have ha := mem_of_lookup ha
  have hb := mem_of_lookup hb
  simp only [List.mem_singleton, Prod.mk.injEq] at ha hb
  rw [ha.2, hb.2]
  exact compatible_flat s.leaves t.leaves

private theorem Settings.mergeable (s t u : Settings) :
    Mergeable [s.document, t.document, u.document] := by
  constructor <;>
    simp only [List.forall_mem_cons, List.not_mem_nil, false_imp_iff, implies_true, and_true,
      Settings.distinctKeys, Settings.compatible, and_self]

private def shipped : Settings where
  entries := [(logLevel, .str "info"), (serverAddress, .str "0.0.0.0:3000")]

private def verbose : Settings where
  entries := [(logLevel, .str "debug")]

private def moved : Settings where
  entries := [(serverAddress, .str "127.0.0.1:80")]

/-- A level is overridden and the address beside it inherited. Nothing is inherited from under a
mapping that is replaced by a leaf. -/
theorem log_level_overridden :
    verbose.document.DistinctKeys ∧ verbose.document.Spares [processor, serverAddress] ∧
      (merge shipped.document verbose.document).HasLeaf [processor, logLevel] (.str "debug") ∧
      (merge shipped.document verbose.document).HasLeaf [processor, serverAddress]
        (.str "0.0.0.0:3000") ∧
      ¬ (map [(processor, .null)]).Spares [processor, logLevel] ∧
      (merge shipped.document (map [(processor, .null)])).at? [processor, logLevel] = none ∧
      SameButOrder (merge shipped.document shipped.document) shipped.document ∧
      Mergeable [shipped.document, verbose.document, moved.document] ∧
      SameButOrder ((shipped.document.merge verbose.document).merge moved.document)
        (shipped.document.merge (verbose.document.merge moved.document)) := by
  obtain ⟨hleaves, hself, hassoc⟩ := merge_overrides_leaf_by_leaf
  have hspared : verbose.document.Spares [processor, serverAddress] :=
    spares_iff.mpr ⟨by decide, by decide⟩
  have hbarred : ¬ (map [(processor, .null)]).Spares [processor, logLevel] := by
    rw [spares_iff]
    decide
  have hnull : (map [(processor, .null)]).DistinctKeys :=
    .map (List.nodup_singleton _) fun e he ↦ by
      rw [List.mem_singleton.mp he]
      exact .leaf rfl
  have hmerged := hleaves shipped.document verbose.document verbose.distinctKeys
  exact ⟨verbose.distinctKeys, hspared, (hmerged _).of_top _ ⟨by decide, rfl⟩,
    (hmerged _).of_base _ ⟨by decide, rfl⟩ hspared, hbarred,
    (hleaves shipped.document _ hnull _).not_inherited (.str "info") ⟨by decide, rfl⟩ hbarred,
    hself _ shipped.distinctKeys, shipped.mergeable verbose moved,
    hassoc _ _ _ (shipped.mergeable verbose moved)⟩

/-- Grouping matters where a leaf comes between two mappings: merged onto the first it hides what is
there, and under the second it is hidden itself. -/
example :
    let hidden := map [(processor, map [(logLevel, .str "info")])]
    let leaf := map [(processor, .null)]
    let top := map [(processor, map [(serverAddress, .str "127.0.0.1:80")])]
    ((hidden.merge leaf).merge top).at? [processor, logLevel] = none ∧
      (hidden.merge (leaf.merge top)).at? [processor, logLevel] = some (.str "info") := by
  decide

end RiskTypology.Yaml.Value
