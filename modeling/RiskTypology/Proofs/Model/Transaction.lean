import RiskTypology.Model.Transaction
import RiskTypology.Proofs.Draft.Apart

/-!
# Reading and writing transactions

A transaction, the report in it and the header in that each read well exactly if they are objects
that come apart into what is known of them and a body. So they are written as they were read up to
the order of members, and read the same again. Metadata lose a trace that is null.
-/

namespace RiskTypology

namespace Json

/-- Whether a value is null. -/
def isNull : Json → Bool
  | .null => true
  | _ => false

/-- An object without a member of a name that is null. -/
def withoutNull (name : String) : Json → Json
  | .obj members => .obj (members.filter fun m ↦ !(m.1 == name && m.2.isNull))
  | j => j

end Json

namespace GroupHeader

variable {v : Json} {h : GroupHeader}

/-- A header reads well exactly from an object with a message id and a body. -/
theorem read_eq_ok :
    read (Draft.ofJson v) = .ok h ↔ ∃ members, v = .obj members ∧
      Apart shape.fields members h.body ∧ members.lookup "MsgId" = some (.str h.msgId) := by
  obtain ⟨msgId, body⟩ := h
  simp [read, Draft.openRecord_eq_ok, Partial.Yields, (Parts.holds_written _ _).required_eq_ok,
    Draft.text_ofJson_eq_ok]

/-- What is read as a header is written as it was. -/
theorem canonical_toJson (hr : read (Draft.ofJson v) = .ok h) :
    h.toJson.canonical = v.canonical := by
  obtain ⟨members, rfl, hapart, hid⟩ := read_eq_ok.mp hr
  apply hapart.canonical_eq [("MsgId", .str h.msgId)] (List.Sublist.refl _) (by decide)
  simp [shape, hid]

/-- What is read as a header is read again from what it is written as. -/
theorem read_toJson (hr : read (Draft.ofJson v) = .ok h) :
    read (Draft.ofJson h.toJson) = .ok h := by
  obtain ⟨members, rfl, hapart, -⟩ := read_eq_ok.mp hr
  exact read_eq_ok.mpr ⟨_, rfl,
    hapart.rejoin [("MsgId", .str h.msgId)] (List.Sublist.refl _) (by decide), rfl⟩

end GroupHeader

namespace PaymentStatus

variable {v : Json} {s : PaymentStatus}

/-- A report reads well exactly from an object with a header and a body. -/
theorem read_eq_ok :
    read (Draft.ofJson v) = .ok s ↔ ∃ members, v = .obj members ∧
      Apart shape.fields members s.body ∧
      ∃ j, members.lookup "GrpHdr" = some j ∧ GroupHeader.read (Draft.ofJson j) = .ok s.header := by
  obtain ⟨header, body⟩ := s
  simp [read, Draft.openRecord_eq_ok, Partial.Yields, (Parts.holds_written _ _).required_eq_ok]

/-- What is read as a report is written as it was. -/
theorem canonical_toJson (hr : read (Draft.ofJson v) = .ok s) :
    s.toJson.canonical = v.canonical := by
  obtain ⟨members, rfl, hapart, j, hj, hheader⟩ := read_eq_ok.mp hr
  apply hapart.canonical_eq [("GrpHdr", s.header.toJson)] (List.Sublist.refl _) (by decide)
  simp [shape, hj, GroupHeader.canonical_toJson hheader]

/-- What is read as a report is read again from what it is written as. -/
theorem read_toJson (hr : read (Draft.ofJson v) = .ok s) :
    read (Draft.ofJson s.toJson) = .ok s := by
  obtain ⟨members, rfl, hapart, j, -, hheader⟩ := read_eq_ok.mp hr
  exact read_eq_ok.mpr ⟨_, rfl,
    hapart.rejoin [("GrpHdr", s.header.toJson)] (List.Sublist.refl _) (by decide),
    s.header.toJson, rfl, GroupHeader.read_toJson hheader⟩

end PaymentStatus

namespace Transaction

variable {v : Json} {t : Transaction}

/-- A transaction reads well exactly from an object with a type, a report and a body. -/
theorem read_eq_ok :
    read (Draft.ofJson v) = .ok t ↔ ∃ members, v = .obj members ∧
      Apart shape.fields members t.body ∧ members.lookup "TxTp" = some (.str t.txTp) ∧
      ∃ j, members.lookup "FIToFIPmtSts" = some j ∧
        PaymentStatus.read (Draft.ofJson j) = .ok t.status := by
  obtain ⟨txTp, status, body⟩ := t
  simp [read, Draft.openRecord_eq_ok, Partial.Yields, (Parts.holds_written _ _).required_eq_ok,
    Draft.text_ofJson_eq_ok]

/-- What is read as a transaction is written as it was. -/
theorem canonical_toJson (hr : read (Draft.ofJson v) = .ok t) :
    t.toJson.canonical = v.canonical := by
  obtain ⟨members, rfl, hapart, htype, j, hj, hstatus⟩ := read_eq_ok.mp hr
  apply hapart.canonical_eq [("TxTp", .str t.txTp), ("FIToFIPmtSts", t.status.toJson)]
    (List.Sublist.refl _) (by decide)
  simp [shape, htype, hj, List.lookup_cons, PaymentStatus.canonical_toJson hstatus]

/-- What is read as a transaction is read again from what it is written as. -/
theorem read_toJson (hr : read (Draft.ofJson v) = .ok t) :
    read (Draft.ofJson t.toJson) = .ok t := by
  obtain ⟨members, rfl, hapart, -, j, -, hstatus⟩ := read_eq_ok.mp hr
  exact read_eq_ok.mpr ⟨_, rfl,
    hapart.rejoin [("TxTp", .str t.txTp), ("FIToFIPmtSts", t.status.toJson)] (List.Sublist.refl _)
      (by decide),
    rfl, t.status.toJson, rfl, PaymentStatus.read_toJson hstatus⟩

end Transaction

namespace Metadata

variable {v : Json} {m : Metadata}

/-- Metadata read well exactly from an object with a body, and with a trace that is a text, or null
or missing where there is none. -/
theorem read_eq_ok :
    read (Draft.ofJson v) = .ok m ↔ ∃ members, v = .obj members ∧
      Apart shape.fields members m.body ∧
      (members.lookup "traceParent").filter (fun j ↦ !j.isNull) = m.traceParent.map .str := by
  obtain ⟨trace, body⟩ := m
  have htrace : ∀ members, (Parts.written shape members).optional "traceParent" Draft.text =
      .ok trace ↔ (members.lookup "traceParent").filter (fun j ↦ !j.isNull) = trace.map .str := by
    intro members
    rw [Parts.optional, (Parts.holds_written _ _).orElse_eq_ok]
    cases members.lookup "traceParent" with
    | none => cases trace <;> simp
    | some j =>
      simp only [reduceCtorEq, false_and, false_or, Option.some.injEq, exists_eq_left',
        Draft.nullable_ofJson_eq_ok, Draft.text_ofJson_eq_ok]
      cases j <;> cases trace <;> simp [Json.isNull, Option.filter]
  simp [read, Draft.openRecord_eq_ok, Partial.Yields, htrace]

/-- What is read as metadata is written as it was, without a trace that was null. -/
theorem canonical_toJson (hr : read (Draft.ofJson v) = .ok m) :
    m.toJson.canonical = (v.withoutNull "traceParent").canonical := by
  obtain ⟨members, rfl, hapart, htrace⟩ := read_eq_ok.mp hr
  have hleft : Apart shape.fields
      (members.filter fun m ↦ !(m.1 == "traceParent" && m.2.isNull)) m.body := by
    apply hapart.filter
    intro m hm
    have hne : m.1 ≠ "traceParent" := by simpa [shape] using hm
    simp [hne]
  have hlookup := hapart.lookup_filter (fun m ↦ !(m.1 == "traceParent" && m.2.isNull))
    (List.mem_singleton_self "traceParent")
  apply hleft.canonical_eq _ (Json.names_member? _ _) (by decide)
  intro name hname
  obtain rfl := List.mem_singleton.mp hname
  simp only [BEq.rfl, Bool.true_and] at hlookup
  rw [hlookup, htrace, Json.lookup_member?, if_pos rfl]

/-- What is read as metadata is read again from what it is written as. -/
theorem read_toJson (hr : read (Draft.ofJson v) = .ok m) :
    read (Draft.ofJson m.toJson) = .ok m := by
  obtain ⟨members, rfl, hapart, -⟩ := read_eq_ok.mp hr
  refine read_eq_ok.mpr ⟨_, rfl, hapart.rejoin _ (Json.names_member? _ _) (by decide), ?_⟩
  rw [hapart.lookup_append _ (List.mem_singleton_self _), Json.lookup_member?, if_pos rfl]
  cases m.traceParent <;> rfl

end Metadata
end RiskTypology
