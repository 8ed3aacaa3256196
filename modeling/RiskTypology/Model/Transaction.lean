import RiskTypology.Draft.Read

/-!
# Transactions

The transaction under evaluation. Only its type and message id are read here; all else is kept as
it came and travels on with the results.
-/

namespace RiskTypology

/-- Header of a payment status report. -/
structure GroupHeader where
  msgId : String
  body : Body := []

/-- A payment status report. -/
structure PaymentStatus where
  header : GroupHeader
  body : Body := []

/-- A transaction. -/
structure Transaction where
  txTp : String
  status : PaymentStatus
  body : Body := []

/-- Data about the event itself, such as its trace. -/
structure Metadata where
  traceParent : Option String := none
  body : Body := []

namespace GroupHeader

/-- The record's wire fields. -/
def shape : Shape := ⟨"GroupHeader", ["MsgId"]⟩

/-- Read a header. -/
def read : Reader GroupHeader :=
  Draft.openRecord shape fun p ↦ GroupHeader.mk <$> p.required "MsgId" Draft.text

/-- The wire form. -/
def toJson (h : GroupHeader) : Json := .obj (("MsgId", .str h.msgId) :: h.body)

end GroupHeader

namespace PaymentStatus

/-- The record's wire fields. -/
def shape : Shape := ⟨"PaymentStatus", ["GrpHdr"]⟩

/-- Read a report. -/
def read : Reader PaymentStatus :=
  Draft.openRecord shape fun p ↦ PaymentStatus.mk <$> p.required "GrpHdr" GroupHeader.read

/-- The wire form. -/
def toJson (s : PaymentStatus) : Json := .obj (("GrpHdr", s.header.toJson) :: s.body)

end PaymentStatus

namespace Transaction

/-- The record's wire fields. -/
def shape : Shape := ⟨"Transaction", ["TxTp", "FIToFIPmtSts"]⟩

/-- Read a transaction. -/
def read : Reader Transaction :=
  Draft.openRecord shape fun p ↦
    Transaction.mk <$> p.required "TxTp" Draft.text <*>
      p.required "FIToFIPmtSts" PaymentStatus.read

/-- The wire form. -/
def toJson (t : Transaction) : Json :=
  .obj (("TxTp", .str t.txTp) :: ("FIToFIPmtSts", t.status.toJson) :: t.body)

/-- The id of the transaction's message. -/
def messageId (t : Transaction) : String := t.status.header.msgId

/-- The key under which rule results for a message id are gathered. -/
def cacheKeyOf (messageId : String) : String := "TP_" ++ messageId

/-- The key under which the transaction's rule results are gathered. -/
def cacheKey (t : Transaction) : String := cacheKeyOf t.messageId

/-- The transaction with nothing but its type and message id. -/
def minimal (t : Transaction) : Transaction := ⟨t.txTp, ⟨⟨t.messageId, []⟩, []⟩, []⟩

/-- Whether nothing but type and message id is there. -/
def isMinimal (t : Transaction) : Bool :=
  t.body.isEmpty && t.status.body.isEmpty && t.status.header.body.isEmpty

/-- Minimal transactions are those that are their own minimal form. -/
theorem isMinimal_iff (t : Transaction) : t.isMinimal = true ↔ t = t.minimal := by
  obtain ⟨_, ⟨⟨_, b1⟩, b2⟩, b3⟩ := t
  simp only [isMinimal, minimal, messageId, Bool.and_eq_true, List.isEmpty_iff,
    Transaction.mk.injEq, PaymentStatus.mk.injEq, GroupHeader.mk.injEq, true_and]
  constructor
  · rintro ⟨⟨h3, h2⟩, h1⟩
    exact ⟨⟨h1, h2⟩, h3⟩
  · rintro ⟨⟨h1, h2⟩, h3⟩
    exact ⟨⟨h3, h2⟩, h1⟩

/-- The key tells message ids apart. -/
theorem cacheKeyOf_inj {a b : String} : cacheKeyOf a = cacheKeyOf b ↔ a = b := by
  simp [cacheKeyOf]

end Transaction

namespace Metadata

/-- The record's wire fields. -/
def shape : Shape := ⟨"MetaData", ["traceParent"]⟩

/-- Read metadata. -/
def read : Reader Metadata :=
  Draft.openRecord shape fun p ↦ Metadata.mk <$> p.optional "traceParent" Draft.text

/-- The wire form. -/
def toJson (m : Metadata) : Json :=
  .obj (Json.member? "traceParent" (m.traceParent.map .str) ++ m.body)

end Metadata
end RiskTypology
