import Mathlib.Data.List.Forall2
import Mathlib.Data.List.Nodup
import RiskTypology.Yaml.Merge

/-!
# What a merge has at each path

A path of keys leads into the mappings of a value. At every path a merge has what the value on top
has there, and otherwise what the base has, unless something other than a mapping on top bars the
way. Values without repeated keys that agree at every path are the same but for the order of
entries.
-/

namespace RiskTypology.Yaml.Value

/-- Whether a value is a mapping. -/
def isMap : Value → Bool
  | .map _ => true
  | _ => false

/-- The value that a path of keys leads to. -/
def at? : Value → List Value → Option Value
  | v, [] => some v
  | .map entries, k :: path => (lookup k entries).bind fun v ↦ v.at? path
  | _, _ :: _ => none

/-- A value without the entries of a mapping. -/
def outline : Value → Value
  | .map _ => .map []
  | v => v

/-- The outline of the value that a path leads to. -/
def outlineAt (v : Value) (path : List Value) : Option Value := (v.at? path).map outline

/-- Whether a path leads through something other than a mapping. -/
def bars : Value → List Value → Bool
  | _, [] => false
  | .map entries, k :: path => (lookup k entries).any fun v ↦ v.bars path
  | _, _ :: _ => true

/-- No mapping that a path leads to has a key twice. -/
inductive DistinctKeys : Value → Prop where
  | leaf {v : Value} (h : v.isMap = false) : DistinctKeys v
  | map {entries : List (Value × Value)} (hk : (entries.map Prod.fst).Nodup)
      (hv : ∀ e ∈ entries, DistinctKeys e.2) : DistinctKeys (.map entries)

/-- Two values that differ in nothing but the order in which mappings have their entries. -/
inductive SameButOrder : Value → Value → Prop where
  | refl (v : Value) : SameButOrder v v
  | map {entries paired others : List (Value × Value)}
      (hk : entries.map Prod.fst = paired.map Prod.fst)
      (hv : List.Forall₂ SameButOrder (entries.map Prod.snd) (paired.map Prod.snd))
      (hp : paired.Perm others) : SameButOrder (.map entries) (.map others)

/-- No path leads to a mapping in one value and to anything else in the other. -/
def Compatible (v w : Value) : Prop :=
  ∀ path a b, v.at? path = some a → w.at? path = some b → a.isMap = b.isMap

/-- A mapping has entries. -/
theorem eq_map_of_isMap {v : Value} (h : v.isMap = true) : ∃ entries, v = .map entries := by
  cases v with
  | map entries => exact ⟨entries, rfl⟩
  | _ => cases h

/-- The empty path leads to the value itself. -/
@[simp] theorem at?_nil (v : Value) : v.at? [] = some v := by
  cases v <;> rfl

/-- A path into a mapping goes on from what stands under its first key. -/
@[simp] theorem at?_map_cons (entries : List (Value × Value)) (k : Value) (path : List Value) :
    (map entries).at? (k :: path) = (lookup k entries).bind fun v ↦ v.at? path := rfl

/-- No path leads into what is no mapping. -/
theorem at?_cons_of_leaf {v : Value} (h : v.isMap = false) (k : Value) (path : List Value) :
    v.at? (k :: path) = none := by
  cases v <;> first | rfl | cases h

/-- What is no mapping bars every path into it. -/
theorem bars_cons_of_leaf {v : Value} (h : v.isMap = false) (k : Value) (path : List Value) :
    v.bars (k :: path) = true := by
  cases v <;> first | rfl | cases h

/-- The outline of a mapping is a mapping, and no other is. -/
@[simp] theorem isMap_outline (v : Value) : v.outline.isMap = v.isMap := by
  cases v <;> rfl

/-- What is no mapping is its own outline. -/
theorem outline_of_leaf {v : Value} (h : v.isMap = false) : v.outline = v := by
  cases v <;> first | rfl | cases h

/-- The first entry is found under its key and passed over under any other. -/
theorem lookup_cons (k l v : Value) (entries : List (Value × Value)) :
    lookup k ((l, v) :: entries) = if l = k then some v else lookup k entries := by
  by_cases h : l = k <;> simp [lookup, h]

/-- Nothing is found under what is no key. -/
theorem lookup_eq_none {k : Value} {entries : List (Value × Value)} :
    lookup k entries = none ↔ k ∉ entries.map Prod.fst := by
  simp only [lookup, Option.map_eq_none_iff, List.find?_eq_none, decide_eq_true_eq, List.mem_map,
    not_exists, not_and]

/-- What is found under a key is an entry with that key. -/
theorem mem_of_lookup {k v : Value} {entries : List (Value × Value)}
    (h : lookup k entries = some v) : (k, v) ∈ entries := by
  obtain ⟨e, he, rfl⟩ := Option.map_eq_some_iff.mp h
  have hk : e.1 = k := by simpa using List.find?_some he
  exact hk ▸ List.mem_of_find?_eq_some he

/-- When no key comes twice, every entry is found under its key. -/
theorem lookup_of_mem {k v : Value} {entries : List (Value × Value)}
    (hk : (entries.map Prod.fst).Nodup) (h : (k, v) ∈ entries) : lookup k entries = some v := by
  induction entries with
  | nil => cases h
  | cons e rest ih =>
    obtain ⟨l, w⟩ := e
    rw [List.map_cons, List.nodup_cons] at hk
    rw [lookup_cons]
    rcases List.mem_cons.mp h with heq | hrest
    · cases heq
      exact if_pos rfl
    · have hne : l ≠ k := by
        rintro rfl
        exact hk.1 (List.mem_map.mpr ⟨_, hrest, rfl⟩)
      rw [if_neg hne]
      exact ih hk.2 hrest

/-- What merged entries have under a key, when no key comes twice on top: the value on top, over
that of the base if there is one, or else what was there. -/
theorem lookup_mergeEntries (base : List (Value × Value)) (k : Value) :
    ∀ {top : List (Value × Value)} (merged : List (Value × Value)),
      (top.map Prod.fst).Nodup →
      lookup k (mergeEntries base top merged) =
        ((lookup k top).map fun v ↦ (lookup k base).elim v fun b ↦ merge b v).or
          (lookup k merged)
  | [], merged, _ => by simp [mergeEntries, lookup]
  | (l, v) :: rest, merged, hk => by
    rw [List.map_cons, List.nodup_cons] at hk
    rw [mergeEntries, lookup_mergeEntries base k _ hk.2, lookup_cons]
    by_cases h : l = k
    · subst h
      rw [if_pos rfl, lookup_eq_none.mpr hk.1]
      simp only [lookup_insert_self]
      cases lookup l base <;> rfl
    · rw [if_neg h, lookup_insert_of_ne _ _ _ _ (Ne.symm h)]

/-- Mappings are merged entry by entry. -/
theorem merge_map (entries top : List (Value × Value)) :
    merge (.map entries) (.map top) = .map (mergeEntries entries top entries) := by
  rw [merge]

/-- Without a mapping on both sides, what is on top replaces the base. -/
theorem merge_of_leaf {base top : Value} (h : base.isMap = false ∨ top.isMap = false) :
    merge base top = top := by
  cases top with
  | map entries =>
    have hb : base.isMap = false := h.resolve_right Bool.noConfusion
    cases base with
    | map => cases hb
    | _ => simp [merge]
  | _ => simp [merge]

/-- A mapping has different keys throughout if its own differ and its values have such keys. -/
theorem distinctKeys_map {entries : List (Value × Value)} :
    (map entries).DistinctKeys ↔
      (entries.map Prod.fst).Nodup ∧ ∀ e ∈ entries, e.2.DistinctKeys := by
  constructor
  · intro h
    cases h with
    | leaf h => cases h
    | map hk hv => exact ⟨hk, hv⟩
  · exact fun h ↦ .map h.1 h.2

/-- An entry with a new key keeps the keys different. -/
theorem DistinctKeys.concat {entries : List (Value × Value)} {k v : Value}
    (h : (Value.map entries).DistinctKeys) (hk : k ∉ entries.map Prod.fst) (hv : v.DistinctKeys) :
    (Value.map (entries ++ [(k, v)])).DistinctKeys := by
  rw [distinctKeys_map] at h ⊢
  constructor
  · rw [List.map_append, List.map_singleton, ← List.concat_eq_append]
    exact h.1.concat hk
  · intro e he
    rcases List.mem_append.mp he with he | he
    · exact h.2 e he
    · rw [List.mem_singleton.mp he]
      exact hv

/-- Setting a key keeps the keys different. -/
theorem DistinctKeys.insert {entries : List (Value × Value)} {v : Value}
    (h : (Value.map entries).DistinctKeys) (hv : v.DistinctKeys) (k : Value) :
    (Value.map (insert k v entries)).DistinctKeys := by
  rw [distinctKeys_map] at h
  have hothers : (Value.map (entries.filter fun e ↦ e.1 ≠ k)).DistinctKeys :=
    .map (h.1.sublist (List.filter_sublist.map Prod.fst))
      fun e he ↦ h.2 e (List.mem_of_mem_filter he)
  exact hothers.concat (by simp) hv

/-- Entries merged one after the other keep the keys different, if merging any one value does. -/
theorem DistinctKeys.mergeEntries {base : List (Value × Value)}
    (hb : (Value.map base).DistinctKeys) :
    ∀ {top merged : List (Value × Value)},
      (∀ e ∈ top, e.2.DistinctKeys) →
      (∀ e ∈ top, ∀ b : Value, b.DistinctKeys → (merge b e.2).DistinctKeys) →
      (Value.map merged).DistinctKeys → (Value.map (mergeEntries base top merged)).DistinctKeys
  | [], _, _, _, hm => by rwa [Value.mergeEntries]
  | (k, v) :: rest, merged, hv, hmerge, hm => by
    rw [Value.mergeEntries]
    refine hb.mergeEntries (fun e he ↦ hv e (List.mem_cons_of_mem _ he))
      (fun e he ↦ hmerge e (List.mem_cons_of_mem _ he)) (hm.insert ?_ k)
    cases hl : lookup k base with
    | none => exact hv (k, v) List.mem_cons_self
    | some b =>
      have hbv := (distinctKeys_map.mp hb).2 _ (mem_of_lookup hl)
      exact hmerge (k, v) List.mem_cons_self b hbv

/-- Merging keeps the keys of mappings different. -/
theorem DistinctKeys.merge {base top : Value} (hb : base.DistinctKeys) (ht : top.DistinctKeys) :
    (merge base top).DistinctKeys := by
  -- Every entry on top may meet any value of the base, so the base varies with the induction.
  induction ht generalizing base with
  | leaf h =>
    rw [merge_of_leaf (.inr h)]
    exact .leaf h
  | map hk hv ih =>
    cases hb with
    | leaf h =>
      rw [merge_of_leaf (.inl h)]
      exact .map hk hv
    | map hk' hv' =>
      rw [merge_map]
      exact DistinctKeys.mergeEntries (.map hk' hv') hv (fun e he b hb ↦ ih e he hb)
        (.map hk' hv')

/-- The value a merge has at a path: the value on top, merged over that of the base if there is one,
or else that of the base, unless the way is barred on top. -/
theorem at?_merge {top : Value} (ht : top.DistinctKeys) (base : Value) (path : List Value) :
    (merge base top).at? path =
      ((top.at? path).map fun v ↦ (base.at? path).elim v fun b ↦ merge b v).or
        (if top.bars path then none else base.at? path) := by
  induction path generalizing base top with
  | nil => simp
  | cons k path ih =>
    cases ht with
    | leaf h => simp [merge_of_leaf (.inr h), at?_cons_of_leaf h, bars_cons_of_leaf h]
    | @map top hk hv =>
      cases hbase : base.isMap with
      | false => simp [merge_of_leaf (.inl hbase), at?_cons_of_leaf hbase]
      | true =>
        obtain ⟨entries, rfl⟩ := eq_map_of_isMap hbase
        have hlook := lookup_mergeEntries entries k entries hk
        cases hl : lookup k top with
        | none => simp [merge_map, bars, hlook, hl]
        | some v =>
          cases hb : lookup k entries with
          | none => simp [merge_map, bars, hlook, hl, hb]
          | some b =>
            have hrest := ih (hv _ (mem_of_lookup hl)) b
            simpa [merge_map, bars, hlook, hl, hb] using hrest

/-- A merge has the outline of what is on top. -/
theorem outline_merge (base top : Value) : (merge base top).outline = top.outline := by
  by_cases h : base.isMap = false ∨ top.isMap = false
  · rw [merge_of_leaf h]
  · rw [not_or, Bool.not_eq_false, Bool.not_eq_false] at h
    obtain ⟨entries, rfl⟩ := eq_map_of_isMap h.1
    obtain ⟨others, rfl⟩ := eq_map_of_isMap h.2
    rw [merge_map]
    rfl

/-- The outline a merge has at a path: that of what is on top, or else that of what the base has
there, unless the way is barred on top. -/
theorem outlineAt_merge {top : Value} (ht : top.DistinctKeys) (base : Value) (path : List Value) :
    (merge base top).outlineAt path =
      (top.outlineAt path).or (if top.bars path then none else base.outlineAt path) := by
  simp only [outlineAt, at?_merge ht]
  cases top.at? path with
  | none => cases top.bars path <;> simp
  | some v => cases base.at? path <;> simp [outline_merge]

/-- Mappings are compatible when what they have under the same keys is. -/
theorem compatible_map {entries others : List (Value × Value)} :
    (map entries).Compatible (map others) ↔
      ∀ k a b, lookup k entries = some a → lookup k others = some b → a.Compatible b := by
  constructor
  · intro h k a b ha hb path x y hx hy
    refine h (k :: path) x y ?_ ?_
    · rw [at?_map_cons, ha]
      exact hx
    · rw [at?_map_cons, hb]
      exact hy
  · rintro h (_ | ⟨k, path⟩) x y hx hy
    · cases hx
      cases hy
      rfl
    · rw [at?_map_cons, Option.bind_eq_some_iff] at hx hy
      obtain ⟨a, ha, hx⟩ := hx
      obtain ⟨b, hb, hy⟩ := hy
      exact h k a b ha hb path x y hx hy

/-- What is no mapping is compatible with anything else that is none. -/
theorem compatible_of_leaf {v w : Value} (hv : v.isMap = false) (hw : w.isMap = false) :
    v.Compatible w := by
  rintro (_ | ⟨k, path⟩) x y hx hy
  · rw [at?_nil] at hx hy
    cases hx
    cases hy
    exact hv.trans hw.symm
  · rw [at?_cons_of_leaf hv] at hx
    cases hx

/-- Mappings without mappings in them are compatible. -/
theorem compatible_flat {entries others : List (Value × Value)}
    (h : ∀ e ∈ entries, e.2.isMap = false) (ho : ∀ e ∈ others, e.2.isMap = false) :
    (map entries).Compatible (map others) :=
  compatible_map.mpr fun _ _ _ ha hb ↦
    compatible_of_leaf (h _ (mem_of_lookup ha)) (ho _ (mem_of_lookup hb))

/-- When no path is a mapping in one value and something else in the other, a way that is barred in
one leads nowhere in the other. -/
theorem Compatible.at?_eq_none {v w : Value} (h : v.Compatible w) {path : List Value}
    (hb : w.bars path = true) : v.at? path = none := by
  induction path generalizing v w with
  | nil => cases w <;> cases hb
  | cons k path ih =>
    have hroot : v.isMap = w.isMap := h [] v w (at?_nil v) (at?_nil w)
    cases hv : v.isMap with
    | false => exact at?_cons_of_leaf hv k path
    | true =>
      obtain ⟨entries, rfl⟩ := eq_map_of_isMap hv
      obtain ⟨others, rfl⟩ := eq_map_of_isMap (hroot ▸ hv)
      rw [bars] at hb
      rw [at?_map_cons]
      cases he : lookup k entries with
      | none => rfl
      | some a =>
        cases ho : lookup k others with
        | none => simp [ho] at hb
        | some b =>
          have hab : a.Compatible b := compatible_map.mp h k a b he ho
          exact ih hab (by simpa [ho] using hb)

private theorem exists_lookup {entries others : List (Value × Value)}
    (h : ∀ path, (map entries).outlineAt path = (map others).outlineAt path) {k a : Value}
    (hl : lookup k entries = some a) :
    ∃ b, lookup k others = some b ∧ ∀ path, a.outlineAt path = b.outlineAt path := by
  have hat (path : List Value) := h (k :: path)
  simp only [outlineAt, at?_map_cons, hl, Option.bind_some] at hat
  cases ho : lookup k others with
  | none => simpa [ho] using hat []
  | some b => exact ⟨b, rfl, fun path ↦ by simpa [ho, outlineAt] using hat path⟩

/-- Two values without repeated keys that have the same outline at every path are the same but for
the order of entries. -/
theorem sameButOrder_of_outlineAt {v w : Value} (hv : v.DistinctKeys) (hw : w.DistinctKeys)
    (h : ∀ path, v.outlineAt path = w.outlineAt path) : SameButOrder v w := by
  have hroot : v.outline = w.outline := by simpa [outlineAt] using h []
  have hmap : w.isMap = v.isMap := by rw [← isMap_outline, ← hroot, isMap_outline]
  induction hv generalizing w with
  | leaf hleaf =>
    rw [outline_of_leaf hleaf, outline_of_leaf (hmap.trans hleaf)] at hroot
    exact hroot ▸ .refl _
  | @map entries hk hvalues ih =>
    obtain ⟨others, rfl⟩ := eq_map_of_isMap hmap
    obtain ⟨hk', hvalues'⟩ := distinctKeys_map.mp hw
    -- The entries of the other mapping, in the order of this one.
    let paired := entries.map fun e ↦ (e.1, (lookup e.1 others).getD .null)
    have hkeys : entries.map Prod.fst = paired.map Prod.fst := by simp [paired]
    refine .map hkeys ?_ ((List.perm_ext_iff_of_nodup ?_ (.of_map _ hk')).mpr ?_)
    · simp only [paired, List.map_map, List.forall₂_map_left_iff, List.forall₂_map_right_iff,
        List.forall₂_same]
      intro e he
      obtain ⟨b, hb, hpaths⟩ := exists_lookup h (lookup_of_mem hk he)
      simp only [Function.comp_apply, hb, Option.getD_some]
      have hroot : e.2.outline = b.outline := by simpa [outlineAt] using hpaths []
      exact ih e he (hvalues' _ (mem_of_lookup hb)) hpaths hroot
        (by rw [← isMap_outline, ← hroot, isMap_outline])
    · exact .of_map _ (hkeys ▸ hk)
    · rintro ⟨k, b⟩
      simp only [paired, List.mem_map, Prod.mk.injEq]
      constructor
      · rintro ⟨e, he, rfl, rfl⟩
        obtain ⟨b, hb, -⟩ := exists_lookup h (lookup_of_mem hk he)
        rw [hb]
        exact mem_of_lookup hb
      · intro hb
        have hb := lookup_of_mem hk' hb
        obtain ⟨a, ha, -⟩ := exists_lookup (fun path ↦ (h path).symm) hb
        exact ⟨_, mem_of_lookup ha, rfl, by rw [hb]; rfl⟩

end RiskTypology.Yaml.Value
