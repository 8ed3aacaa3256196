import RiskTypology.Proofs.Draft.Written
import RiskTypology.Proofs.Json.Canonical

/-!
# Members no field takes

A record that keeps the members no field takes comes apart into its fields and a body. Written side
by side they are the same object again up to the order of its members, and they come apart again as
they did.
-/

namespace RiskTypology

/-- The members of an object come apart into those its fields take, none of them twice, and a body
of all others. -/
structure Apart (fields : List String) (members : List (String × Json)) (body : Body) : Prop where
  once : ((members.filter fun m ↦ m.1 ∈ fields).map Prod.fst).Nodup
  body_eq : body = Body.ofList
    ((members.filter fun m ↦ m.1 ∉ fields).map fun m ↦ (m.1, m.2.canonical))

namespace Parts

private theorem collect_ofMembers {fields : List String} {members : List (String × Json)}
    {place : Nat} {seen : List String} {body result : Body} :
    collect fields (Draft.ofMembers members) .given place seen body = .ok result ↔
      ((members.filter fun m ↦ m.1 ∈ fields).map Prod.fst).Nodup ∧
      (∀ m ∈ members, m.1 ∈ fields → m.1 ∉ seen) ∧
      result = ((members.filter fun m ↦ m.1 ∉ fields).map fun m ↦ (m.1, m.2.canonical)).foldl
        (fun body m ↦ body.insert m.1 m.2) body := by
  induction members generalizing place seen body with
  | nil =>
    change Partial.ok body = .ok result ↔ _
    simp [eq_comm]
  | cons m rest ih =>
    obtain ⟨n, v⟩ := m
    rw [Draft.ofMembers, collect, Draft.toJson_ofJson]
    by_cases hn : n ∈ fields
    · by_cases hs : n ∈ seen
      · simp [hn, hs]
      · -- The name has been seen from here on, which is what keeps it from the rest.
        have hfresh : n ∉ (rest.filter fun m ↦ m.1 ∈ fields).map Prod.fst ↔
            ∀ m ∈ rest, m.1 ∈ fields → m.1 ≠ n := by
          simp only [List.mem_map, List.mem_filter, decide_eq_true_eq]
          constructor
          · intro h m hm hf he
            exact h ⟨m, ⟨hm, hf⟩, he⟩
          · rintro h ⟨m, ⟨hm, hf⟩, he⟩
            exact h m hm hf he
        have hseen : (∀ m ∈ rest, m.1 ∈ fields → m.1 ∉ n :: seen) ↔
            (∀ m ∈ rest, m.1 ∈ fields → m.1 ≠ n) ∧ ∀ m ∈ rest, m.1 ∈ fields → m.1 ∉ seen := by
          simp only [List.mem_cons, not_or]
          exact ⟨fun h ↦ ⟨fun m hm hf ↦ (h m hm hf).1, fun m hm hf ↦ (h m hm hf).2⟩,
            fun h m hm hf ↦ ⟨h.1 m hm hf, h.2 m hm hf⟩⟩
        simp only [if_pos hn, if_neg hs, ih, hseen, ← hfresh]
        simp [hn, hs, and_assoc, and_left_comm]
    · simp [hn, ih]

/-- The members no field takes are kept exactly if the members come apart. -/
theorem rest_written_eq_ok {shape : Shape} {members : List (String × Json)} {body : Body} :
    (written shape members).rest = .ok body ↔ Apart shape.fields members body := by
  rw [written, rest, collect_ofMembers]
  constructor
  · rintro ⟨honce, -, hbody⟩
    exact ⟨honce, hbody⟩
  · intro h
    exact ⟨h.once, by simp, h.body_eq⟩

end Parts

namespace Apart

variable {fields : List String} {members : List (String × Json)} {body : Body} {name : String}

/-- The body is in order. -/
theorem ordered (h : Apart fields members body) : body.Ordered := by
  rw [h.body_eq]
  exact Body.ordered_ofList _

/-- Every member of the body has a canonical value and a name that is no field. -/
theorem of_mem_body (h : Apart fields members body) {m : String × Json} (hm : m ∈ body) :
    m.1 ∉ fields ∧ m.2.canonical = m.2 := by
  rw [h.body_eq] at hm
  obtain ⟨m', hm', rfl⟩ := List.mem_map.mp (Body.mem_of_mem_ofList hm)
  exact ⟨by simpa using (List.mem_filter.mp hm').2, Json.canonical_canonical m'.2⟩

/-- Under other names than those of fields the body holds what the object does. -/
theorem lookup_body (h : Apart fields members body) (name : String) :
    body.lookup name =
      if name ∈ fields then none else (members.reverse.lookup name).map Json.canonical := by
  have hget : body.lookup name = (Body.ofList
      ((members.filter fun m ↦ m.1 ∉ fields).map fun m ↦ (m.1, m.2.canonical))).get? name := by
    rw [Body.get?, ← h.body_eq]
  rw [hget, Body.get?_ofList, ← List.map_reverse, Json.lookup_map, ← List.filter_reverse,
    Json.lookup_filter _ fun n ↦ decide (n ∉ fields)]
  by_cases hn : name ∈ fields <;> simp [hn]

private theorem lookup_taken (members : List (String × Json)) (hn : name ∈ fields) :
    (members.filter fun m ↦ m.1 ∈ fields).lookup name = members.lookup name := by
  rw [Json.lookup_filter members fun n ↦ decide (n ∈ fields), if_pos (decide_eq_true hn)]

/-- A field has one value at most. -/
theorem lookup_reverse (h : Apart fields members body) (hn : name ∈ fields) :
    members.reverse.lookup name = members.lookup name := by
  rw [← lookup_taken members.reverse hn, List.filter_reverse, Json.lookup_reverse h.once,
    lookup_taken members hn]

/-- Members that fields take may be left out; the body stays the same. -/
theorem filter (h : Apart fields members body) {p : String × Json → Bool}
    (hp : ∀ m, m.1 ∉ fields → p m = true) : Apart fields (members.filter p) body where
  once := by
    rw [List.filter_comm]
    exact (List.filter_sublist.map _).nodup h.once
  body_eq := by
    have hkept : (members.filter p).filter (fun m ↦ m.1 ∉ fields) =
        members.filter fun m ↦ m.1 ∉ fields := by
      rw [List.filter_filter]
      apply List.filter_congr
      intro m _
      by_cases hm : m.1 ∈ fields <;> simp [hm, hp m]
    rw [hkept, h.body_eq]

/-- A field whose value may be left out keeps it or has none. -/
theorem lookup_filter (h : Apart fields members body) (p : String × Json → Bool)
    (hn : name ∈ fields) :
    (members.filter p).lookup name = (members.lookup name).filter fun v ↦ p (name, v) := by
  rw [← lookup_taken _ hn, List.filter_comm, Json.lookup_filter_of_nodup h.once,
    lookup_taken members hn]

/-- What is written for the fields is found beside a body. -/
theorem lookup_append (h : Apart fields members body) (known : List (String × Json))
    (hn : name ∈ fields) :
    (known ++ body).lookup name = known.lookup name := by
  rw [List.lookup_append, h.lookup_body, if_pos hn, Option.or_none]

/-- What is written for the fields comes apart from the body it is written beside. -/
theorem rejoin (h : Apart fields members body) (known : List (String × Json))
    (hk : (known.map Prod.fst).Sublist fields) (hf : fields.Nodup) :
    Apart fields (known ++ body) body where
  once := by
    have hbody : body.filter (fun m ↦ m.1 ∈ fields) = [] := by
      simpa using fun n v hm ↦ (h.of_mem_body hm).1
    rw [List.filter_append, hbody, List.append_nil]
    exact (List.filter_sublist.map _).nodup (hk.nodup hf)
  body_eq := by
    have hknown : known.filter (fun m ↦ m.1 ∉ fields) = [] := by
      simpa using fun n v hm ↦ hk.subset (List.mem_map_of_mem hm)
    have hbody : body.filter (fun m ↦ m.1 ∉ fields) = body := by
      simpa using fun n v hm ↦ (h.of_mem_body hm).1
    have hmap : body.map (fun m ↦ (m.1, m.2.canonical)) = body :=
      Json.map_canonical_eq_self fun m hm ↦ (h.of_mem_body hm).2
    rw [List.filter_append, hknown, List.nil_append, hbody, hmap, h.ordered.ofList_eq]

/-- What is written for the fields beside the body is the object again, if each field has its
value. -/
theorem canonical_eq (h : Apart fields members body) (known : List (String × Json))
    (hk : (known.map Prod.fst).Sublist fields) (hf : fields.Nodup)
    (hv : ∀ name ∈ fields, (known.lookup name).map Json.canonical =
      (members.lookup name).map Json.canonical) :
    (Json.obj (known ++ body)).canonical = (Json.obj members).canonical := by
  apply Json.canonical_obj_congr
  intro name
  rw [List.reverse_append, List.lookup_append, Json.lookup_reverse h.ordered.nodup, h.lookup_body,
    Json.lookup_reverse (hk.nodup hf)]
  by_cases hn : name ∈ fields
  · rw [if_pos hn, Option.none_or, h.lookup_reverse hn, hv name hn]
  · have hnone : known.lookup name = none := by
      rw [List.lookup_eq_none_iff]
      intro m hm
      rw [bne_iff_ne]
      rintro rfl
      exact hn (hk.subset (List.mem_map_of_mem hm))
    rw [if_neg hn, hnone, Option.or_none, Option.map_map]
    congr 1
    funext j
    exact Json.canonical_canonical j

end Apart

/-- A record that keeps the members no field takes reads well exactly if it is an object that comes
apart and whose fields read well. -/
theorem Draft.openRecord_eq_ok {α : Type} {shape : Shape} {fields : Parts → Partial (Body → α)}
    {v : Json} {a : α} :
    openRecord shape fields (ofJson v) = .ok a ↔ ∃ members body, v = .obj members ∧
      Apart shape.fields members body ∧
      (fields (.written shape members)).Yields fun f ↦ f body = a := by
  cases v with
  | obj members =>
    change (fields (.written shape members) <*> (Parts.written shape members).rest).toExcept = .ok a
      ↔ _
    simp only [Partial.toExcept_eq_ok, Partial.seq_eq_ok, Parts.rest_written_eq_ok, Json.obj.injEq]
    constructor
    · rintro ⟨f, body, hf, hapart, rfl⟩
      exact ⟨members, body, rfl, hapart, f, hf, rfl⟩
    · rintro ⟨_, body, rfl, hapart, f, hf, rfl⟩
      exact ⟨f, body, hf, hapart, rfl⟩
  | null | bool | int | float | str | arr => simp [ofJson, openRecord]

end RiskTypology
