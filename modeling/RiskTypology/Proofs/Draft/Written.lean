import RiskTypology.Draft.Read

/-!
# Reading what was written

A record is read field by field from what a value gives its fields, be it an object or a list of
them. So a record that is written as an object can be read again: each reading depends only on the
member of its name, and no member is left over as long as every name is a field and none repeats.
-/

namespace RiskTypology

namespace Json

/-- The members of an object; nothing else has any. -/
def members : Json → List (String × Json)
  | .obj members => members
  | _ => []

/-- A member that may be left out is found under its own name only. -/
theorem lookup_member? (name key : String) (value : Option Json) :
    (member? name value).lookup key = if key = name then value else none := by
  cases value with
  | none => simp [member?]
  | some j =>
    by_cases h : key = name
    · simp [member?, h]
    · simp [member?, List.lookup_cons, beq_eq_false_iff_ne.mpr h, h]

/-- A member that may be left out has at most its own name. -/
theorem names_member? (name : String) (value : Option Json) :
    ((member? name value).map Prod.fst).Sublist [name] := by
  cases value <;> simp [member?]

end Json

namespace Partial

variable {α β : Type}

/-- A reading goes well and what was read is as wanted. -/
def Yields (p : Partial α) (wanted : α → Prop) : Prop := ∃ a, p = .ok a ∧ wanted a

/-- What is read under a function is wanted if its result is. -/
@[simp] theorem yields_map {f : α → β} {p : Partial α} {wanted : β → Prop} :
    (f <$> p).Yields wanted ↔ p.Yields fun a ↦ wanted (f a) := by
  simp only [Yields, map_eq_ok]
  constructor
  · rintro ⟨_, ⟨a, ha, rfl⟩, hw⟩
    exact ⟨a, ha, hw⟩
  · rintro ⟨a, ha, hw⟩
    exact ⟨f a, ⟨a, ha, rfl⟩, hw⟩

/-- Readings go well one after the other. -/
@[simp] theorem yields_seq {f : Partial (α → β)} {p : Partial α} {wanted : β → Prop} :
    (f <*> p).Yields wanted ↔ f.Yields fun g ↦ p.Yields fun a ↦ wanted (g a) := by
  simp only [Yields, seq_eq_ok]
  constructor
  · rintro ⟨_, ⟨g, a, hg, ha, rfl⟩, hw⟩
    exact ⟨g, hg, a, ha, hw⟩
  · rintro ⟨g, hg, a, ha, hw⟩
    exact ⟨g a, ⟨g, a, hg, ha, rfl⟩, hw⟩

/-- A reading that yields a certain value is that value. -/
theorem yields_eq {p : Partial α} {a : α} : p.Yields (· = a) ↔ p = .ok a := by
  simp [Yields]

end Partial

/-- What a value gives a field of a record: its member of that name, or its item at the field's
place. -/
def Shape.field? (shape : Shape) (v : Json) (name : String) : Option Json :=
  match v with
  | .obj members => members.lookup name
  | .arr items => items[shape.fields.idxOf name]?
  | _ => none

namespace Parts

/-- Parts hold for every field the draft of a value, or nothing. -/
def Holds (p : Parts) (field? : String → Option Json) : Prop :=
  ∀ name, (p.find? name).map Prod.snd = (field? name).map Draft.ofJson

section

variable {p : Parts} {field? : String → Option Json} {α : Type} {read : Reader α} {name : String}
  {a : α}

private theorem Holds.find?_eq_none (h : p.Holds field?) (hn : field? name = none) :
    p.find? name = none := by
  have hm := h name
  rw [hn] at hm
  exact Option.map_eq_none_iff.mp hm

private theorem Holds.find?_eq_some (h : p.Holds field?) {j : Json} (hj : field? name = some j) :
    ∃ place, p.find? name = some (place, Draft.ofJson j) := by
  have hm := h name
  rw [hj] at hm
  obtain ⟨⟨place, d⟩, hf, rfl⟩ := Option.map_eq_some_iff.mp hm
  exact ⟨place, hf⟩

/-- A required field reads well exactly if there is a value for it that does. -/
theorem Holds.required_eq_ok (h : p.Holds field?) :
    p.required name read = .ok a ↔
      ∃ j, field? name = some j ∧ read (Draft.ofJson j) = .ok a := by
  cases hj : field? name with
  | none =>
    rw [required, h.find?_eq_none hj]
    cases p <;> simp [absent]
  | some j =>
    obtain ⟨place, hf⟩ := h.find?_eq_some hj
    simp [required, hf]

/-- A field with a default reads well exactly if it takes the default for want of a value, or there
is a value for it that reads well. -/
theorem Holds.orElse_eq_ok (h : p.Holds field?) {value : α} :
    p.orElse name value read = .ok a ↔ (field? name = none ∧ value = a) ∨
      ∃ j, field? name = some j ∧ read (Draft.ofJson j) = .ok a := by
  cases hj : field? name with
  | none => simp [orElse, h.find?_eq_none hj]
  | some j =>
    obtain ⟨place, hf⟩ := h.find?_eq_some hj
    simp [orElse, hf]

end

/-- The parts of a record that was written as an object. -/
def written (shape : Shape) (members : List (String × Json)) : Parts :=
  .members shape (Draft.ofMembers members) .given

variable {shape : Shape} {members : List (String × Json)}

private theorem locate_ofMembers (members : List (String × Json)) (name : String) (place : Nat) :
    (locate name (Draft.ofMembers members) place).map Prod.snd =
      (members.lookup name).map Draft.ofJson := by
  induction members generalizing place with
  | nil => rfl
  | cons m rest ih =>
    obtain ⟨n, v⟩ := m
    simp only [Draft.ofMembers, locate]
    by_cases hn : n = name
    · subst hn
      simp
    · have hb : (name == n) = false := beq_eq_false_iff_ne.mpr (Ne.symm hn)
      rw [if_neg (by simpa using hn), List.lookup_cons, hb, ih (place + 1)]

/-- What was written as an object holds the values of its members. -/
theorem holds_written (shape : Shape) (members : List (String × Json)) :
    (written shape members).Holds fun name ↦ members.lookup name :=
  fun name ↦ locate_ofMembers members name 0

/-- What was given as a list holds the values of its items in the order of the fields. -/
theorem holds_items (shape : Shape) (items : List Json) (ending : Ending) :
    (Parts.items shape (Draft.ofItems items) ending).Holds fun name ↦
      items[shape.fields.idxOf name]? := by
  intro name
  simp only [find?, Draft.ofItems_eq_map, List.getElem?_map, Option.map_map]
  rfl

/-- A member that reads well is read as a required field. -/
theorem required_written {α : Type} {read : Reader α} {name : String} {j : Json} {a : α}
    (h : members.lookup name = some j) (hr : read (Draft.ofJson j) = .ok a) :
    (written shape members).required name read = .ok a :=
  (holds_written shape members).required_eq_ok.mpr ⟨j, h, hr⟩

/-- A member that reads well is read as a field with a default. -/
theorem orElse_written {α : Type} {read : Reader α} {name : String} {value : α} {j : Json} {a : α}
    (h : members.lookup name = some j) (hr : read (Draft.ofJson j) = .ok a) :
    (written shape members).orElse name value read = .ok a :=
  (holds_written shape members).orElse_eq_ok.mpr (.inr ⟨j, h, hr⟩)

/-- A field with a default takes it where no member has its name. -/
theorem orElse_written_none {α : Type} {read : Reader α} {name : String} {value : α}
    (h : members.lookup name = none) :
    (written shape members).orElse name value read = .ok value :=
  (holds_written shape members).orElse_eq_ok.mpr (.inl ⟨h, rfl⟩)

/-- A field that is left out when it is missing reads as what was written. -/
theorem optional_written {α : Type} {read : Reader α} {name : String} {j? : Option Json}
    {a : Option α} (h : members.lookup name = j?)
    (hr : ∀ j, j? = some j → Draft.nullable read (Draft.ofJson j) = .ok a)
    (hn : j? = none → a = none) : (written shape members).optional name read = .ok a := by
  cases hj : j? with
  | none =>
    rw [hn hj]
    exact orElse_written_none (h.trans hj)
  | some j => exact orElse_written (h.trans hj) (hr j hj)

private theorem checkMembers_ofMembers (fields : List String) (members : List (String × Json))
    (place : Nat) (seen : List String) (hf : ∀ m ∈ members, m.1 ∈ fields)
    (hs : ∀ m ∈ members, m.1 ∉ seen) (hn : (members.map Prod.fst).Nodup) :
    checkMembers fields (Draft.ofMembers members) .given place seen = .ok () := by
  induction members generalizing place seen with
  | nil => rfl
  | cons m rest ih =>
    obtain ⟨n, v⟩ := m
    rw [List.map_cons, List.nodup_cons] at hn
    simp only [Draft.ofMembers, checkMembers]
    rw [if_pos (hf (n, v) (by simp)), if_neg (hs (n, v) (by simp))]
    apply ih
    · intro m hm
      exact hf m (by simp [hm])
    · intro m hm
      have hne : m.1 ≠ n := fun he ↦ hn.1 (List.mem_map.mpr ⟨m, hm, he⟩)
      simp [hne, hs m (by simp [hm])]
    · exact hn.2

/-- Nothing is left over of an object whose names are fields in their order. -/
theorem leftover_written (hs : (members.map Prod.fst).Sublist shape.fields)
    (hn : shape.fields.Nodup) : (written shape members).leftover = .ok () := by
  apply checkMembers_ofMembers shape.fields members 0 []
  · intro m hm
    exact hs.subset (List.mem_map_of_mem hm)
  · simp
  · exact hs.nodup hn

end Parts

namespace Draft

/-- A record reads as its fields do when nothing is left over. -/
theorem record_written {α : Type} {shape : Shape} {fields : Parts → Partial α}
    {members : List (String × Json)} {a : α} (h : fields (.written shape members) = .ok a)
    (hl : (Parts.written shape members).leftover = .ok ()) :
    record shape fields (ofJson (.obj members)) = .ok a := by
  change (Partial.both (fun a () ↦ a) (fields (.written shape members))
    (Parts.written shape members).leftover).toExcept = .ok a
  rw [h, hl]
  rfl

/-- A record is read from what a value gives its fields. -/
theorem fields_of_record {α : Type} {shape : Shape} {fields : Parts → Partial α} {v : Json} {a : α}
    (h : record shape fields (ofJson v) = .ok a) :
    ∃ p : Parts, p.Holds (shape.field? v) ∧ (fields p).Yields (· = a) := by
  cases v with
  | obj members =>
    simp only [ofJson, record, Partial.toExcept_eq_ok, Partial.both_eq_ok] at h
    obtain ⟨a', -, hf, -, rfl⟩ := h
    exact ⟨_, Parts.holds_written shape members, Partial.yields_eq.mpr hf⟩
  | arr items =>
    simp only [ofJson, record, Partial.toExcept_eq_ok, Partial.both_eq_ok] at h
    obtain ⟨a', -, hf, -, rfl⟩ := h
    exact ⟨_, Parts.holds_items shape items .given, Partial.yields_eq.mpr hf⟩
  | null | bool | int | float | str => cases h

/-- A text is read from nothing but itself. -/
theorem text_ofJson_eq_ok {j : Json} {s : String} : text (ofJson j) = .ok s ↔ j = .str s := by
  cases j <;> simp [ofJson, text]

/-- Null is read as nothing, and all else as what it reads as. -/
theorem nullable_ofJson_eq_ok {α : Type} {read : Reader α} {j : Json} {a : Option α} :
    nullable read (ofJson j) = .ok a ↔
      (j = .null ∧ none = a) ∨ (j ≠ .null ∧ ∃ b, read (ofJson j) = .ok b ∧ some b = a) := by
  have hmap : ∀ r : Except Fault α, some <$> r = .ok a ↔ ∃ b, r = .ok b ∧ some b = a := by
    intro r
    cases r <;> simp [Functor.map, Except.map]
  cases j <;> simp [ofJson, nullable, hmap]

/-- Reading a number that was written gives it back if it is finite, and nothing else. -/
theorem nullable_number_ofFloat (x : Float) :
    nullable number (ofJson (.ofFloat x)) = .ok ((some x).filter Float.isFinite) := by
  cases h : x.isFinite with
  | true =>
    simp only [Json.ofFloat, h, if_true, Option.filter]
    rfl
  | false =>
    simp only [Json.ofFloat, h, Option.filter]
    rfl

/-- A word of sixty-four bits that was written as an integer is read back. -/
theorem word_ofNat (n : UInt64) : word (.int n.toNat) = .ok n := by
  have hn : (n.toNat : Int) < 2 ^ 64 := by exact_mod_cast n.toNat_lt
  simp only [word]
  rw [if_pos ⟨Int.natCast_nonneg _, hn⟩, Int.toNat_natCast, Nat.toUInt64_eq, UInt64.ofNat_toNat]

end Draft
end RiskTypology
