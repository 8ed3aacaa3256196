import RiskTypology.Proofs.Decimal.Finite
import RiskTypology.Proofs.Draft.Written

/-!
# What survives the wire

What a reader makes of a value it makes of the wire form of that as well. This goes field by field:
whatever a record was read from, its wire form gives every field a value the field's reader makes
the same of. Numbers survive because those of JSON are finite and remain so when they are read.
-/

namespace RiskTypology

namespace Json

/-- A value that JSON can hold: its floats are finite and its integers have sixty-four bits. -/
inductive Proper : Json → Prop
  | null : Proper .null
  | bool (b : Bool) : Proper (.bool b)
  | int {i : Int} (hl : -9223372036854775808 ≤ i) (hu : i < 18446744073709551616) :
    Proper (.int i)
  | float {x : Float} (h : x.isFinite = true) : Proper (.float x)
  | str (s : String) : Proper (.str s)
  | arr {items : List Json} (h : ∀ j ∈ items, Proper j) : Proper (.arr items)
  | obj {members : List (String × Json)} (h : ∀ m ∈ members, Proper m.2) : Proper (.obj members)

attribute [simp] Proper.null Proper.bool Proper.str

/-- An integer is proper if it has sixty-four bits. -/
@[simp] theorem proper_int {i : Int} :
    (int i).Proper ↔ -9223372036854775808 ≤ i ∧ i < 18446744073709551616 :=
  ⟨fun | .int hl hu => ⟨hl, hu⟩, fun h ↦ .int h.1 h.2⟩

/-- A float is proper if it is finite. -/
@[simp] theorem proper_float {x : Float} : (float x).Proper ↔ x.isFinite = true :=
  ⟨fun | .float h => h, .float⟩

/-- A list is proper if its items are. -/
@[simp] theorem proper_arr {items : List Json} : (arr items).Proper ↔ ∀ j ∈ items, j.Proper :=
  ⟨fun | .arr h => h, .arr⟩

/-- An object is proper if the values of its members are. -/
@[simp] theorem proper_obj {members : List (String × Json)} :
    (obj members).Proper ↔ ∀ m ∈ members, m.2.Proper :=
  ⟨fun | .obj h => h, .obj⟩

end Json

/-- What a proper value gives a field is proper. -/
theorem Shape.proper_of_field? (shape : Shape) {v j : Json} {name : String} (h : v.Proper)
    (hj : shape.field? v name = some j) : j.Proper := by
  cases h with
  | arr h => exact h j (List.mem_of_getElem? hj)
  | obj h =>
    obtain ⟨earlier, later, rfl, -⟩ := List.lookup_eq_some_iff.mp hj
    exact h (name, j) (by simp)
  | null | bool | int | float | str => cases hj

/-- Parts that hold proper values. -/
def Parts.Proper (p : Parts) : Prop :=
  ∃ field? : String → Option Json, p.Holds field? ∧ ∀ name j, field? name = some j → j.Proper

/-- Of two lists in relation every item of the second is in relation to one of the first. -/
theorem exists_of_forall₂ {α β : Type} {R : α → β → Prop} {as : List α} {bs : List β}
    (h : List.Forall₂ R as bs) {b : β} (hb : b ∈ bs) : ∃ a ∈ as, R a b := by
  induction h with
  | nil => exact absurd hb List.not_mem_nil
  | @cons a b' as bs hab _ ih =>
    obtain rfl | hm := List.mem_cons.mp hb
    · exact ⟨a, List.mem_cons_self, hab⟩
    · obtain ⟨a', ha', hR⟩ := ih hm
      exact ⟨a', List.mem_cons_of_mem _ ha', hR⟩

namespace Draft

variable {α : Type} {read : Reader α} {write : α → Json}

/-- What a reader makes of a proper value it makes of the wire form of that as well. -/
def Survives (read : Reader α) (write : α → Json) : Prop :=
  ∀ v : Json, v.Proper → ∀ x, read (ofJson v) = .ok x → read (ofJson (write x)) = .ok x

/-- A text survives. -/
theorem survives_text : Survives text Json.str := fun _ _ _ _ ↦ rfl

/-- A truth value survives. -/
theorem survives_flag : Survives flag Json.bool := fun _ _ _ _ ↦ rfl

/-- A word of sixty-four bits survives. -/
theorem survives_word : Survives word fun n ↦ Json.int n.toNat := fun _ _ n _ ↦ word_ofNat n

/-- A number that was read from a proper value is finite. -/
theorem isFinite_of_number {v : Json} (hv : v.Proper) {x : Float}
    (h : number (ofJson v) = .ok x) : x.isFinite = true := by
  cases hv with
  | int hl hu =>
    cases h
    exact Decimal.isFinite_ofInt (by omega) (by omega)
  | float hx =>
    cases h
    exact hx
  | null | bool | str | arr | obj => cases h

/-- A number survives. -/
theorem survives_number : Survives number Json.ofFloat := by
  intro v hv x h
  rw [Json.ofFloat, if_pos (isFinite_of_number hv h)]
  rfl

/-- Drafts are read as a list if one after the other is read as its items. -/
theorem readAll_eq_ok {drafts : List Draft} {xs : List α} :
    readAll read drafts = .ok xs ↔ List.Forall₂ (fun d x ↦ read d = .ok x) drafts xs := by
  induction drafts generalizing xs with
  | nil => simp [readAll, eq_comm]
  | cons d rest ih =>
    simp only [readAll, bind_eq_ok, List.forall₂_cons_left_iff, ← ih]
    constructor
    · rintro ⟨x, hx, tail, htail, h⟩
      cases h
      exact ⟨x, tail, hx, htail, rfl⟩
    · rintro ⟨x, tail, hx, htail, rfl⟩
      exact ⟨x, hx, tail, htail, rfl⟩

private theorem list_arr (read : Reader α) (items : List Json) :
    list read (ofJson (.arr items)) = readAll read (items.map ofJson) := by
  rw [ofJson, list, ofItems_eq_map]
  cases readAll read (items.map ofJson) <;> rfl

/-- A list survives if its items do. -/
theorem Survives.list (hs : Survives read write) :
    Survives (list read) fun xs ↦ .arr (xs.map write) := by
  intro v hv xs h
  cases hv with
  | @arr items hitems =>
    rw [list_arr, readAll_eq_ok] at h
    rw [list_arr, readAll_eq_ok, List.map_map, List.forall₂_map_left_iff, List.forall₂_same]
    intro x hx
    obtain ⟨d, hd, hread⟩ := exists_of_forall₂ h hx
    obtain ⟨j, hj, rfl⟩ := List.mem_map.mp hd
    exact hs j (hitems j hj) x hread
  | null | bool | int | float | str | obj => cases h

section

variable {p : Parts} {shape : Shape} {members : List (String × Json)} {name : String}

/-- A required field survives. -/
theorem Survives.required (hs : Survives read write) (hp : p.Proper) {a : α}
    (h : p.required name read = .ok a) (hw : members.lookup name = some (write a)) :
    (Parts.written shape members).required name read = .ok a := by
  obtain ⟨field?, hholds, hproper⟩ := hp
  obtain ⟨j, hj, hread⟩ := hholds.required_eq_ok.mp h
  exact Parts.required_written hw (hs j (hproper name j hj) a hread)

/-- A field with a default survives if its default does. -/
theorem Survives.orElse (hs : Survives read write) (hp : p.Proper) {a value : α}
    (hd : read (ofJson (write value)) = .ok value) (h : p.orElse name value read = .ok a)
    (hw : members.lookup name = some (write a)) :
    (Parts.written shape members).orElse name value read = .ok a := by
  obtain ⟨field?, hholds, hproper⟩ := hp
  obtain ⟨-, rfl⟩ | ⟨j, hj, hread⟩ := hholds.orElse_eq_ok.mp h
  · exact Parts.orElse_written hw hd
  · exact Parts.orElse_written hw (hs j (hproper name j hj) a hread)

/-- What a field that may be missing was read as was read from a proper value. -/
theorem exists_of_optional (hp : p.Proper) {b : α} (h : p.optional name read = .ok (some b)) :
    ∃ j : Json, j.Proper ∧ read (ofJson j) = .ok b := by
  obtain ⟨field?, hholds, hproper⟩ := hp
  obtain ⟨-, hb⟩ | ⟨j, hj, hread⟩ := hholds.orElse_eq_ok.mp h
  · cases hb
  · obtain ⟨-, hb⟩ | ⟨-, b', hread', hb⟩ := nullable_ofJson_eq_ok.mp hread
    · cases hb
    · cases hb
      exact ⟨j, hproper name j hj, hread'⟩

/-- A field that may be missing survives, left out where there is no value. -/
theorem Survives.optional (hs : Survives read write) (hnull : ∀ a, read .null ≠ .ok a)
    (hp : p.Proper) {a : Option α} (h : p.optional name read = .ok a)
    (hw : members.lookup name = a.map write) :
    (Parts.written shape members).optional name read = .ok a := by
  apply Parts.optional_written hw
  · intro j hj
    obtain ⟨b, rfl, rfl⟩ := Option.map_eq_some_iff.mp hj
    obtain ⟨v, hv, hread⟩ := exists_of_optional hp h
    have hb := hs v hv b hread
    refine nullable_ofJson_eq_ok.mpr (.inr ⟨?_, b, hb, rfl⟩)
    intro hn
    rw [hn] at hb
    exact hnull b hb
  · exact Option.map_eq_none_iff.mp

/-- A record survives if its fields do and nothing else is written. -/
theorem survives_record {fields : Parts → Partial α}
    (hobj : ∀ x, write x = .obj (write x).members)
    (hnames : ∀ x, ((write x).members.map Prod.fst).Sublist shape.fields)
    (hn : shape.fields.Nodup)
    (hf : ∀ p : Parts, p.Proper → ∀ x, (fields p).Yields (· = x) →
      (fields (.written shape (write x).members)).Yields (· = x)) :
    Survives (record shape fields) write := by
  intro v hv x h
  obtain ⟨p, hholds, hx⟩ := fields_of_record h
  have hp : p.Proper := ⟨_, hholds, fun _ _ ↦ shape.proper_of_field? hv⟩
  rw [hobj x]
  exact record_written (Partial.yields_eq.mp (hf p hp x hx)) (Parts.leftover_written (hnames x) hn)

end

end Draft
end RiskTypology
