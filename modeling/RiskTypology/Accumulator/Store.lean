import RiskTypology.Json.Basic

/-!
# The store of interim records

Records are gathered under keys. With a time to live, an append first drops every entry that has
reached it, so that what never completes does not pile up.
-/

namespace RiskTypology

/-- What is gathered under one key. -/
structure StoreEntry where
  /-- When the entry was made. -/
  created : Nat
  records : List Json

/-- Records by key, and how long an entry may live. -/
structure Store where
  ttl : Option Nat := none
  entries : List (String × StoreEntry) := []

namespace Store

/-- The entry of a key. -/
def get? (s : Store) (key : String) : Option StoreEntry := s.entries.lookup key

/-- The records of a key; none where there is no entry. -/
def records? (s : Store) (key : String) : Option (List Json) := (s.get? key).map (·.records)

/-- The records of a key. -/
def records (s : Store) (key : String) : List Json := (s.records? key).getD []

/-- Whether there is an entry for a key. -/
def contains (s : Store) (key : String) : Bool := (s.get? key).isSome

/-- Set the entry of a key. -/
def put (key : String) (entry : StoreEntry) :
    List (String × StoreEntry) → List (String × StoreEntry)
  | [] => [(key, entry)]
  | (k, e) :: rest => if k = key then (key, entry) :: rest else (k, e) :: put key entry rest

/-- Drop every entry that has reached its time to live. -/
def evict (s : Store) (now : Nat) : Store :=
  match s.ttl with
  | none => s
  | some ttl => { s with entries := s.entries.filter fun e ↦ now - e.2.created < ttl }

/-- Add a record under a key. -/
def append (s : Store) (now : Nat) (key : String) (record : Json) : Store :=
  let kept := s.evict now
  let entry : StoreEntry :=
    match kept.get? key with
    | some e => { e with records := e.records ++ [record] }
    | none => ⟨now, [record]⟩
  { kept with entries := put key entry kept.entries }

/-- Remove the entry of a key; it need not be there. -/
def delete (s : Store) (key : String) : Store :=
  { s with entries := s.entries.filter fun e ↦ e.1 != key }

private theorem lookup_put_self (key : String) (entry : StoreEntry)
    (entries : List (String × StoreEntry)) : (put key entry entries).lookup key = some entry := by
  induction entries with
  | nil => simp [put]
  | cons m rest ih =>
    obtain ⟨k, e⟩ := m
    unfold put
    split
    · simp
    · next h =>
      have hk : (key == k) = false := beq_eq_false_iff_ne.mpr fun he ↦ h he.symm
      simp [List.lookup_cons, hk, ih]

private theorem lookup_put_of_ne {key other : String} (entry : StoreEntry)
    (entries : List (String × StoreEntry)) (h : other ≠ key) :
    (put key entry entries).lookup other = entries.lookup other := by
  have ho : (other == key) = false := beq_eq_false_iff_ne.mpr h
  induction entries with
  | nil => simp [put, List.lookup_cons, ho]
  | cons m rest ih =>
    obtain ⟨k, e⟩ := m
    unfold put
    split
    · next hk => subst hk; simp [List.lookup_cons, ho]
    · simp [List.lookup_cons, ih]

private theorem lookup_filter_ne {key other : String} (entries : List (String × StoreEntry))
    (h : other ≠ key) :
    (entries.filter fun e ↦ e.1 != key).lookup other = entries.lookup other := by
  induction entries with
  | nil => rfl
  | cons m rest ih =>
    obtain ⟨k, e⟩ := m
    by_cases hk : k = key
    · subst hk
      have ho : (other == k) = false := beq_eq_false_iff_ne.mpr h
      simp [List.lookup_cons, ho, ih]
    · simp [hk, List.lookup_cons, ih]

/-- Without a time to live nothing is dropped. -/
@[simp] theorem evict_of_ttl_none {s : Store} (h : s.ttl = none) (now : Nat) :
    s.evict now = s := by
  simp [evict, h]

/-- An appended record comes last in the entry of its key, which is made if there is none. -/
theorem get?_append_self {s : Store} (h : s.ttl = none) (now : Nat) (key : String)
    (record : Json) :
    (s.append now key record).get? key =
      some ⟨((s.get? key).map (·.created)).getD now, s.records key ++ [record]⟩ := by
  unfold append
  rw [evict_of_ttl_none h]
  simp only [records, records?, get?, lookup_put_self]
  cases s.entries.lookup key <;> rfl

/-- An appended record comes last under its key. -/
theorem records_append_self {s : Store} (h : s.ttl = none) (now : Nat) (key : String)
    (record : Json) : (s.append now key record).records key = s.records key ++ [record] := by
  rw [records, records?, get?_append_self h, Option.map_some, Option.getD_some]

/-- Appending leaves the entries of other keys alone. -/
theorem get?_append_of_ne {s : Store} (h : s.ttl = none) (now : Nat) {key other : String}
    (record : Json) (hne : other ≠ key) :
    (s.append now key record).get? other = s.get? other := by
  unfold append
  rw [evict_of_ttl_none h]
  simp only [get?, lookup_put_of_ne _ _ hne]

/-- A deleted key has no entry. -/
@[simp] theorem get?_delete_self (s : Store) (key : String) :
    (s.delete key).get? key = none := by
  simp only [get?, delete]
  induction s.entries with
  | nil => rfl
  | cons m rest ih =>
    obtain ⟨k, e⟩ := m
    by_cases hk : k = key
    · simp [hk, ih]
    · have hb : (key == k) = false := beq_eq_false_iff_ne.mpr fun he ↦ hk he.symm
      simp [hk, List.lookup_cons, hb, ih]

/-- Deleting leaves the entries of other keys alone. -/
theorem get?_delete_of_ne (s : Store) {key other : String} (h : other ≠ key) :
    (s.delete key).get? other = s.get? other :=
  lookup_filter_ne s.entries h

end Store
end RiskTypology
