import Mathlib.Data.List.Induction
import Mathlib.Data.List.Nodup
import Mathlib.Data.String.Basic
import RiskTypology.Json.Basic

/-!
# Canonical values

Two values are the same up to the order of their members if they have one canonical form. The
members of a canonical object are in order, so an object is settled by what it holds under each
name, and a value that is canonical already stays as it is.
-/

namespace RiskTypology

namespace Json

/-- What holds of a value if it holds of its items and of the values of its members holds of every
value. -/
theorem induction {P : Json → Prop} (null : P .null) (bool : ∀ b, P (.bool b))
    (int : ∀ i, P (.int i)) (float : ∀ x, P (.float x)) (str : ∀ s, P (.str s))
    (arr : ∀ items, (∀ j ∈ items, P j) → P (.arr items))
    (obj : ∀ members, (∀ m ∈ members, P m.2) → P (.obj members)) (j : Json) : P j := by
  refine @Json.rec P (fun items ↦ ∀ j ∈ items, P j) (fun members ↦ ∀ m ∈ members, P m.2)
    (fun m ↦ P m.2) null bool int float str arr obj ?_ ?_ ?_ ?_ ?_ j
  · simp
  · simp +contextual
  · simp
  · simp +contextual
  · exact fun _ _ h ↦ h

variable {members : List (String × Json)} {name : String}

/-- Of members without repeats, a name finds the value it stands with. -/
theorem lookup_eq_some_iff_mem (h : (members.map Prod.fst).Nodup) {value : Json} :
    members.lookup name = some value ↔ (name, value) ∈ members := by
  induction members with
  | nil => simp
  | cons m rest ih =>
    obtain ⟨n, v⟩ := m
    rw [List.map_cons, List.nodup_cons] at h
    by_cases hn : name = n
    · subst hn
      have hrest : (name, value) ∉ rest := fun hm ↦ h.1 (List.mem_map.mpr ⟨_, hm, rfl⟩)
      simp [hrest, eq_comm]
    · simp [List.lookup_cons, hn, beq_eq_false_iff_ne.mpr hn, ih h.2]

/-- Of members without repeats, the last of a name is the first. -/
theorem lookup_reverse (h : (members.map Prod.fst).Nodup) :
    members.reverse.lookup name = members.lookup name := by
  have hr : (members.reverse.map Prod.fst).Nodup := by
    rwa [List.map_reverse, List.nodup_reverse]
  ext value
  rw [lookup_eq_some_iff_mem hr, lookup_eq_some_iff_mem h, List.mem_reverse]

/-- Among the members of some names only, those names find what they find among all. -/
theorem lookup_filter (members : List (String × Json)) (p : String → Bool) (name : String) :
    (members.filter fun m ↦ p m.1).lookup name = if p name then members.lookup name else none := by
  induction members with
  | nil => simp
  | cons m rest ih =>
    obtain ⟨n, v⟩ := m
    by_cases hn : name = n
    · subst hn
      cases hp : p name <;> simp [hp, ih]
    · have hb : (name == n) = false := beq_eq_false_iff_ne.mpr hn
      cases hp : p n <;> simp [hp, List.lookup_cons, hb, ih]

/-- Of members without repeats, a name finds among some of them what it finds among all if that is
one of them. -/
theorem lookup_filter_of_nodup (h : (members.map Prod.fst).Nodup) (p : String × Json → Bool) :
    (members.filter p).lookup name = (members.lookup name).filter fun v ↦ p (name, v) := by
  have hp : ((members.filter p).map Prod.fst).Nodup := (List.filter_sublist.map _).nodup h
  ext value
  rw [lookup_eq_some_iff_mem hp, List.mem_filter, Option.filter_eq_some_iff,
    lookup_eq_some_iff_mem h]

/-- Changing all values changes what a name finds. -/
theorem lookup_map (members : List (String × Json)) (f : Json → Json) (name : String) :
    (members.map fun m ↦ (m.1, f m.2)).lookup name = (members.lookup name).map f := by
  induction members with
  | nil => rfl
  | cons m rest ih =>
    obtain ⟨n, v⟩ := m
    cases hb : name == n <;> simp [List.lookup_cons, hb, ih]

end Json

namespace Body

/-- The names of a body are in ascending order. -/
def Ordered (body : Body) : Prop := body.Pairwise fun m m' ↦ m.1 < m'.1

/-- A body in order has no name twice. -/
theorem Ordered.nodup {body : Body} (h : body.Ordered) : (body.map Prod.fst).Nodup :=
  List.pairwise_map.mpr (h.imp fun hlt ↦ hlt.ne)

/-- A body in order is settled by what it holds under each name. -/
theorem Ordered.ext {a b : Body} (ha : a.Ordered) (hb : b.Ordered)
    (h : ∀ name, a.get? name = b.get? name) : a = b := by
  have hmem : ∀ m, m ∈ a ↔ m ∈ b := by
    rintro ⟨n, v⟩
    rw [← Json.lookup_eq_some_iff_mem ha.nodup, ← Json.lookup_eq_some_iff_mem hb.nodup]
    exact Eq.congr_left (h n)
  have hperm : a.Perm b :=
    (List.perm_ext_iff_of_nodup ha.nodup.of_map hb.nodup.of_map).mpr hmem
  exact hperm.eq_of_pairwise (fun _ _ _ _ hlt hgt ↦ absurd (hlt.trans hgt) (lt_irrefl _)) ha hb

/-- Only what is inserted is new. -/
theorem mem_insert {body : Body} {name : String} {value : Json} {m : String × Json}
    (h : m ∈ body.insert name value) : m = (name, value) ∨ m ∈ body := by
  induction body with
  | nil => exact .inl (List.mem_singleton.mp h)
  | cons head rest ih =>
    obtain ⟨n, v⟩ := head
    unfold insert at h
    split at h
    · exact (List.mem_cons.mp h).imp_right (List.mem_cons_of_mem _)
    · split at h
      · exact List.mem_cons.mp h
      · obtain rfl | hm := List.mem_cons.mp h
        · exact .inr List.mem_cons_self
        · exact (ih hm).imp_right (List.mem_cons_of_mem _)

/-- Inserting keeps the order. -/
theorem Ordered.insert {body : Body} (h : body.Ordered) (name : String) (value : Json) :
    (body.insert name value).Ordered := by
  induction body with
  | nil => exact List.pairwise_singleton _ _
  | cons head rest ih =>
    obtain ⟨n, v⟩ := head
    obtain ⟨hhead, hrest⟩ := List.pairwise_cons.mp h
    unfold Body.insert
    split
    · next heq =>
      subst heq
      exact List.pairwise_cons.mpr ⟨hhead, hrest⟩
    split
    · next hlt =>
      have hall : ∀ m ∈ (n, v) :: rest, name < m.1 := by
        intro m hm
        obtain rfl | hm := List.mem_cons.mp hm
        · exact hlt
        · exact hlt.trans (hhead m hm)
      exact List.pairwise_cons.mpr ⟨hall, h⟩
    · next hne hnlt =>
      have hgt : n < name := (lt_trichotomy name n).resolve_left hnlt |>.resolve_left hne
      have hall : ∀ m ∈ Body.insert name value rest, n < m.1 := by
        intro m hm
        obtain rfl | hm := mem_insert hm
        · exact hgt
        · exact hhead m hm
      exact List.pairwise_cons.mpr ⟨hall, ih hrest⟩

/-- Collected members are in order. -/
theorem ordered_ofList (members : List (String × Json)) : (ofList members).Ordered := by
  induction members using List.reverseRecOn with
  | nil => exact List.Pairwise.nil
  | append_singleton members m ih =>
    rw [ofList, List.foldl_concat]
    exact ih.insert m.1 m.2

/-- Of several members with one name the last is collected. -/
theorem get?_ofList (members : List (String × Json)) (name : String) :
    (ofList members).get? name = members.reverse.lookup name := by
  induction members using List.reverseRecOn with
  | nil => rfl
  | append_singleton members m ih =>
    obtain ⟨n, v⟩ := m
    rw [ofList, List.foldl_concat, List.reverse_concat]
    by_cases hn : name = n
    · subst hn
      simp
    · have hb : (name == n) = false := beq_eq_false_iff_ne.mpr hn
      rw [get?_insert_of_ne _ _ hn, List.lookup_cons, hb]
      exact ih

/-- Members that are in order are collected as they are. -/
theorem Ordered.ofList_eq {body : Body} (h : body.Ordered) : ofList body = body := by
  apply (ordered_ofList body).ext h
  intro name
  rw [get?_ofList, Json.lookup_reverse h.nodup, get?]

/-- Every collected member is one of those given. -/
theorem mem_of_mem_ofList {members : List (String × Json)} {m : String × Json}
    (h : m ∈ ofList members) : m ∈ members := by
  induction members using List.reverseRecOn with
  | nil => exact h
  | append_singleton members last ih =>
    rw [ofList, List.foldl_concat] at h
    obtain rfl | hm := mem_insert h
    · simp
    · exact List.mem_append_left _ (ih hm)

end Body

namespace Json

/-- Members with canonical values stay as they are. -/
theorem map_canonical_eq_self {members : List (String × Json)}
    (h : ∀ m ∈ members, m.2.canonical = m.2) :
    members.map (fun m ↦ (m.1, m.2.canonical)) = members := by
  have hid : members.map (fun m ↦ (m.1, m.2.canonical)) = members.map id := by
    apply List.map_congr_left
    intro m hm
    rw [h m hm]
    rfl
  rw [hid, List.map_id]

/-- The canonical form of a value is canonical. -/
theorem canonical_canonical (j : Json) : j.canonical.canonical = j.canonical := by
  induction j using induction with
  | null | bool | int | float | str => rfl
  | arr items ih =>
    rw [canonical_arr, canonical_arr, List.map_map]
    congr 1
    exact List.map_congr_left ih
  | obj members ih =>
    have hvalues : ∀ m ∈ Body.ofList (members.map fun m ↦ (m.1, m.2.canonical)),
        m.2.canonical = m.2 := by
      intro m hm
      obtain ⟨m', hm', rfl⟩ := List.mem_map.mp (Body.mem_of_mem_ofList hm)
      exact ih m' hm'
    rw [canonical_obj, canonical_obj, map_canonical_eq_self hvalues,
      (Body.ordered_ofList _).ofList_eq]

/-- Objects have one canonical form if every name finds values of one canonical form, where of
several members with one name the last counts. -/
theorem canonical_obj_congr {members others : List (String × Json)}
    (h : ∀ name, (members.reverse.lookup name).map canonical =
      (others.reverse.lookup name).map canonical) :
    (obj members).canonical = (obj others).canonical := by
  rw [canonical_obj, canonical_obj]
  congr 1
  apply (Body.ordered_ofList _).ext (Body.ordered_ofList _)
  intro name
  rw [Body.get?_ofList, Body.get?_ofList, ← List.map_reverse, ← List.map_reverse, lookup_map,
    lookup_map, h name]

end Json
end RiskTypology
