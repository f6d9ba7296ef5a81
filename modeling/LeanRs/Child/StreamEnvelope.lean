import LeanRs.Child.DataStream
import LeanRs.General.JsonText

/-! The texts that the Lean helpers of a streaming export emit, and what the child's row callback
makes of them. -/
namespace LeanRs

open Json (Member Value Spells PlainText objectText)

namespace InteropStream

def jsonString (value : String) : String := String.ofList (Json.renderString value)

def row (stream payloadJson : String) : String :=
  "\x7b\"stream\":" ++ jsonString stream ++ ",\"payload\":" ++ payloadJson ++ "\x7d"

def diagnostic (code message : String) : String :=
  "\x7b\"diagnostic\":\x7b\"code\":" ++ jsonString code ++ ",\"message\":" ++
    jsonString message ++ "\x7d\x7d"

def progress (phase : String) (current : Nat) (total : Option Nat) : String :=
  let totalField :=
    match total with
    | none => ""
    | some total => ",\"total\":" ++ total.repr
  "\x7b\"progress\":\x7b\"phase\":" ++ jsonString phase ++ ",\"current\":" ++ current.repr ++
    totalField ++ "\x7d\x7d"

def metadata (metadataJson : String) : String := "\x7b\"metadata\":" ++ metadataJson ++ "\x7d"

end InteropStream

inductive DeserializeError where
  | invalidType (field : String)
  | missingField (field : String)
  | duplicateField (field : String)

/-- What the child uses of `serde_json`, as its documentation has it: a document that is one object
gives its members, each with the text of its value, and the fields of a struct inside a value are
the members of that object. What it makes of other documents and of structs written as sequences,
its own errors, and how it reads a whole value, are left open. -/
structure SerdeJson where
  members : List String → String → Except String (List Member)
  fields : List String → Value → Except String (List (String × Value))
  value : JsonText → Except String JsonText
  describe : DeserializeError → String
  members_object : ∀ names text ms, Json.readObject text.toList = some ms →
    members names text = .ok ms
  fields_object : ∀ names ms, fields names (.object ms) = .ok ms

namespace SerdeJson

variable (serde : SerdeJson)

def invalidType {A : Type} (field : String) : Except String A :=
  .error (serde.describe (.invalidType field))

def entryOf? {E : Type} (field : String) (entries : List (String × E)) : Except String (Option E) :=
  match entries.filter fun entry => entry.1 == field with
  | [] => .ok none
  | [entry] => .ok (some entry.2)
  | _ => .error (serde.describe (.duplicateField field))

def optionString (field : String) : Option Value → Except String (Option String)
  | none | some .null => .ok none
  | some (.string s) => .ok (some s)
  | some _ => serde.invalidType field

def optionU64 (field : String) : Option Value → Except String (Option Nat)
  | none | some .null => .ok none
  | some v =>
    match v.asU64? with
    | some n => .ok (some n)
    | none => serde.invalidType field

def u64 (field : String) : Option Value → Except String Nat
  | none => .error (serde.describe (.missingField field))
  | some v =>
    match v.asU64? with
    | some n => .ok n
    | none => serde.invalidType field

/-- `Option<Box<RawValue>>`: the text of the value as it stands, unless it is `null`. -/
def optionRaw : Option (List Char × Value) → Option JsonText
  | none => none
  | some (raw, v) =>
    match v with
    | .null => none
    | _ => some (String.ofList raw)

def diagnostic : Option (List Char × Value) → Except String (Option RowCallbackDiagnostic)
  | none | some (_, .null) => .ok none
  | some (_, v) => do
    let entries ← serde.fields ["code", "message"] v
    let code ← serde.entryOf? "code" entries
    let code ← serde.optionString "code" code
    let message ← serde.entryOf? "message" entries
    let message ← serde.optionString "message" message
    return some ⟨code, message⟩

def progress : Option (List Char × Value) → Except String (Option RowCallbackProgress)
  | none | some (_, .null) => .ok none
  | some (_, v) => do
    let entries ← serde.fields ["phase", "current", "total"] v
    let phase ← serde.entryOf? "phase" entries
    let phase ← serde.optionString "phase" phase
    let current ← serde.entryOf? "current" entries
    let current ← serde.u64 "current" current
    let total ← serde.entryOf? "total" entries
    let total ← serde.optionU64 "total" total
    return some ⟨phase, current, total⟩

def envelope (raw : String) : Except String RowCallbackEnvelope := do
  let ms ← serde.members ["stream", "payload", "diagnostic", "progress", "metadata"] raw
  let entries := ms.map fun m => (m.key, m.raw, m.value)
  let stream ← serde.entryOf? "stream" entries
  let stream ← serde.optionString "stream" (stream.map Prod.snd)
  let payload ← serde.entryOf? "payload" entries
  let diagnostic ← serde.entryOf? "diagnostic" entries
  let diagnostic ← serde.diagnostic diagnostic
  let progress ← serde.entryOf? "progress" entries
  let progress ← serde.progress progress
  let metadata ← serde.entryOf? "metadata" entries
  return { stream, payload := optionRaw payload, diagnostic, progress,
           metadata := optionRaw metadata }

def deserializers : Deserializers := ⟨serde.envelope, serde.value⟩

end SerdeJson

structure JsonDocument where
  text : String
  value : Value
  spells : Spells text.toList value

abbrev NonEmptyText : Type := { text : String // text ≠ "" }

inductive StreamEmission where
  | row (stream : NonEmptyText) (payload : JsonDocument)
  | diagnostic (code : NonEmptyText) (message : String)
  | progress (phase : NonEmptyText) (current : UInt64) (total : Option UInt64)
  | metadata (value : JsonDocument)

namespace StreamEmission

def text : StreamEmission → String
  | row stream payload => InteropStream.row stream.val payload.text
  | diagnostic code message => InteropStream.diagnostic code.val message
  | progress phase current total =>
    InteropStream.progress phase.val current.toNat (total.map UInt64.toNat)
  | metadata value => InteropStream.metadata value.text

def Seen : StreamEmission → StreamCallbackEvent → Prop
  | row stream payload, event => ∃ raw : JsonText, event = .row ⟨stream.val, raw⟩ ∧
      Spells raw.toList payload.value
  | diagnostic code message, event => event = .diagnostic ⟨code.val, message⟩
  | progress phase current total, event =>
    event = .progress ⟨phase.val, current.toNat, total.map UInt64.toNat⟩
  | metadata value, event => ∃ read : JsonText, event = .metadata read ∧
      Spells read.toList value.value

def document? : StreamEmission → Option JsonDocument
  | row _ payload => some payload
  | metadata value => some value
  | _ => none

end StreamEmission

def stringMember (key s : String) : Member := ⟨key, Json.renderString s, .string s⟩

def numberMember (key : String) (n : Nat) : Member := ⟨key, n.repr.toList, .posInt n⟩

def documentMember (key : String) (doc : JsonDocument) : Member := ⟨key, doc.text.toList, doc.value⟩

def objectMember (key : String) (ms : List Member) : Member :=
  ⟨key, objectText ms, .object (ms.map fun m => (m.key, m.value))⟩

def envelopeKeys : List String :=
  ["stream", "payload", "diagnostic", "code", "message", "progress", "phase", "current", "total",
    "metadata"]

theorem plainText_key : ∀ key ∈ envelopeKeys, PlainText key.toList := by
  have all : envelopeKeys.all (fun key => key.toList.all fun c =>
      decide (c ≠ Json.quotation ∧ c ≠ Json.backslash ∧ ¬c.toNat < 0x20)) = true := by
    decide +kernel
  intro key known c inside
  have plain := List.all_eq_true.mp (List.all_eq_true.mp all key known) c inside
  exact of_decide_eq_true plain

section

variable {key : String} (known : key ∈ envelopeKeys)

include known

theorem stringMember_written (s : String) : (stringMember key s).Written :=
  ⟨plainText_key key known, Json.spells_renderString s⟩

theorem numberMember_written (n : Nat) : (numberMember key n).Written :=
  ⟨plainText_key key known, Json.spells_repr n⟩

theorem documentMember_written (doc : JsonDocument) : (documentMember key doc).Written :=
  ⟨plainText_key key known, doc.spells⟩

theorem objectMember_written {m : Member} {ms : List Member} (written : ∀ n ∈ m :: ms, n.Written) :
    (objectMember key (m :: ms)).Written :=
  ⟨plainText_key key known, Json.spells_objectText written⟩

end

namespace StreamEmission

def totalMembers : Option Nat → List Member
  | none => []
  | some total => [numberMember "total" total]

/-- The first member of the object that is emitted, and the others. -/
def members : StreamEmission → Member × List Member
  | row stream payload => (stringMember "stream" stream.val, [documentMember "payload" payload])
  | diagnostic code message =>
    (objectMember "diagnostic" [stringMember "code" code.val, stringMember "message" message], [])
  | progress phase current total =>
    (objectMember "progress" (stringMember "phase" phase.val ::
      numberMember "current" current.toNat :: totalMembers (total.map UInt64.toNat)), [])
  | metadata value => (documentMember "metadata" value, [])

theorem written (e : StreamEmission) : ∀ m ∈ e.members.1 :: e.members.2, m.Written := by
  cases e with
  | row stream payload =>
    rintro m (_ | ⟨_, _ | ⟨_, ⟨⟩⟩⟩)
    · exact stringMember_written (by decide) _
    · exact documentMember_written (by decide) _
  | diagnostic code message =>
    rintro m (_ | ⟨_, ⟨⟩⟩)
    apply objectMember_written (by decide)
    rintro m (_ | ⟨_, _ | ⟨_, ⟨⟩⟩⟩)
    · exact stringMember_written (by decide) _
    · exact stringMember_written (by decide) _
  | progress phase current total =>
    rintro m (_ | ⟨_, ⟨⟩⟩)
    apply objectMember_written (by decide)
    rintro m (_ | ⟨_, _ | ⟨_, member⟩⟩)
    · exact stringMember_written (by decide) _
    · exact numberMember_written (by decide) _
    · cases total with
      | none => cases member
      | some total =>
        obtain rfl := List.mem_singleton.mp member
        exact numberMember_written (by decide) _
  | metadata value =>
    rintro m (_ | ⟨_, ⟨⟩⟩)
    exact documentMember_written (by decide) _

def keyText (key : String) : List Char :=
  Json.quotation :: (key.toList ++ [Json.quotation, ':'])

theorem member_text (m : Member) : m.text = keyText m.key ++ m.raw := by
  unfold Member.text keyText
  rw [List.cons_append, List.append_assoc]
  rfl

theorem text_eq (e : StreamEmission) : e.text.toList = objectText (e.members.1 :: e.members.2) := by
  have string : ∀ s, (InteropStream.jsonString s).toList = Json.renderString s :=
    fun s => String.toList_ofList
  have close : "\x7d".toList = [Json.closeBrace] := rfl
  have closeTwice : "\x7d\x7d".toList = [Json.closeBrace, Json.closeBrace] := rfl
  cases e with
  | row stream payload =>
    have first : "\x7b\"stream\":".toList = Json.openBrace :: keyText "stream" := rfl
    have second : ",\"payload\":".toList = ',' :: keyText "payload" := rfl
    unfold text members objectText InteropStream.row
    dsimp only
    simp only [String.toList_append, string, first, second, close, List.map_cons, List.map_nil,
      List.intercalate_cons_cons, List.intercalate_singleton, member_text, stringMember,
      documentMember, List.cons_append, List.append_assoc, List.nil_append]
  | diagnostic code message =>
    have first : "\x7b\"diagnostic\":\x7b\"code\":".toList =
      Json.openBrace :: (keyText "diagnostic" ++ Json.openBrace :: keyText "code") := rfl
    have second : ",\"message\":".toList = ',' :: keyText "message" := rfl
    unfold text members objectText InteropStream.diagnostic
    dsimp only
    simp only [String.toList_append, string, first, second, closeTwice, List.map_cons,
      List.map_nil, List.intercalate_cons_cons, List.intercalate_singleton, member_text,
      stringMember, objectMember, objectText, List.cons_append, List.append_assoc,
      List.nil_append]
  | progress phase current total =>
    have first : "\x7b\"progress\":\x7b\"phase\":".toList =
      Json.openBrace :: (keyText "progress" ++ Json.openBrace :: keyText "phase") := rfl
    have second : ",\"current\":".toList = ',' :: keyText "current" := rfl
    have third : ",\"total\":".toList = ',' :: keyText "total" := rfl
    unfold text members objectText InteropStream.progress
    cases total with
    | none =>
      simp only [Option.map_none, totalMembers, String.toList_append, string, first, second,
        closeTwice, List.map_cons, List.map_nil, List.intercalate_cons_cons,
        List.intercalate_singleton, member_text, stringMember, numberMember, objectMember,
        objectText, List.cons_append, List.append_assoc, List.nil_append, String.toList_empty]
    | some total =>
      simp only [Option.map_some, totalMembers, String.toList_append, string, first, second, third,
        closeTwice, List.map_cons, List.map_nil, List.intercalate_cons_cons,
        List.intercalate_singleton, member_text, stringMember, numberMember, objectMember,
        objectText, List.cons_append, List.append_assoc, List.nil_append]
  | metadata value =>
    have first : "\x7b\"metadata\":".toList = Json.openBrace :: keyText "metadata" := rfl
    unfold text members objectText InteropStream.metadata
    dsimp only
    simp only [String.toList_append, first, close, List.map_cons, List.map_nil,
      List.intercalate_singleton, member_text, documentMember, List.cons_append,
      List.append_assoc]

end StreamEmission

namespace SerdeJson

variable (serde : SerdeJson)

theorem members_text (names : List String) (e : StreamEmission) :
    serde.members names e.text = .ok (e.members.1 :: e.members.2) := by
  apply serde.members_object
  rw [e.text_eq]
  exact Json.readObject_objectText e.written

theorem diagnostic_object (raw : List Char) (code message : String) :
    serde.diagnostic (some (raw, .object [("code", .string code), ("message", .string message)])) =
      .ok (some ⟨some code, some message⟩) := by
  unfold diagnostic
  dsimp only
  rw [serde.fields_object]
  simp [entryOf?, optionString, bind, Except.bind, pure, Except.pure]

theorem asU64?_toNat (n : UInt64) : (Value.posInt n.toNat).asU64? = some n.toNat :=
  if_pos n.toNat_lt

theorem progress_object (raw : List Char) (phase : String) (current : UInt64)
    (total : Option UInt64) :
    serde.progress (some (raw, .object (("phase", .string phase) ::
      ("current", .posInt current.toNat) ::
      (StreamEmission.totalMembers (total.map UInt64.toNat)).map fun m => (m.key, m.value)))) =
        .ok (some ⟨some phase, current.toNat, total.map UInt64.toNat⟩) := by
  unfold progress
  dsimp only
  rw [serde.fields_object]
  cases total with
  | none =>
    simp [StreamEmission.totalMembers, entryOf?, optionString, u64, optionU64, asU64?_toNat, bind,
      Except.bind, pure, Except.pure]
  | some total =>
    simp [StreamEmission.totalMembers, numberMember, entryOf?, optionString, u64, optionU64,
      asU64?_toNat, bind, Except.bind, pure, Except.pure]

@[simp] theorem optionRaw_none : optionRaw none = none := rfl

theorem envelope_text (e : StreamEmission) : serde.envelope e.text = .ok
    (match e with
    | .row stream payload => ⟨some stream.val,
        optionRaw (some (payload.text.toList, payload.value)), none, none, none⟩
    | .diagnostic code message => ⟨none, none, some ⟨some code.val, some message⟩, none, none⟩
    | .progress phase current total => ⟨none, none, none,
        some ⟨some phase.val, current.toNat, total.map UInt64.toNat⟩, none⟩
    | .metadata value => ⟨none, none, none, none,
        optionRaw (some (value.text.toList, value.value))⟩) := by
  unfold envelope
  rw [serde.members_text]
  cases e with
  | row stream payload =>
    simp [StreamEmission.members, stringMember, documentMember, entryOf?, optionString, diagnostic,
      progress, bind, Except.bind, pure, Except.pure]
  | diagnostic code message =>
    simp [StreamEmission.members, stringMember, objectMember, entryOf?, optionString,
      diagnostic_object, progress, bind, Except.bind, pure, Except.pure]
  | progress phase current total =>
    have read := serde.progress_object
    simp [StreamEmission.members, stringMember, objectMember, numberMember, entryOf?, optionString,
      diagnostic, read, bind, Except.bind, pure, Except.pure]
  | metadata value =>
    simp [StreamEmission.members, documentMember, entryOf?, optionString, diagnostic,
      progress, bind, Except.bind, pure, Except.pure]

theorem optionRaw_eq_none {raw : List Char} {v : Value} :
    optionRaw (some (raw, v)) = none ↔ v = .null := by
  cases v <;> simp [optionRaw]

theorem optionRaw_of_ne (raw : List Char) {v : Value} (present : v ≠ .null) :
    optionRaw (some (raw, v)) = some (String.ofList raw) := by
  cases v <;> simp [optionRaw] at present ⊢

end SerdeJson

/-- The deserialiser reads the text of a document as a value that the document also denotes. -/
def SerdeJson.Reads (serde : SerdeJson) (doc : JsonDocument) : Prop :=
  ∃ read, serde.value doc.text = .ok read ∧ Spells read.toList doc.value

namespace StreamEmission

variable {serde : SerdeJson}

theorem parse_null_row (stream : NonEmptyText) {payload : JsonDocument}
    (nothing : payload.value = .null) :
    parseRowEnvelope serde.deserializers (row stream payload).text =
      .error "row callback payload must contain field `payload`" := by
  have envelope := serde.envelope_text (row stream payload)
  have named : nonEmpty (some stream.val) = some stream.val := by
    simp [nonEmpty, Option.filter, stream.property]
  unfold parseRowEnvelope SerdeJson.deserializers
  dsimp only at envelope ⊢
  rw [envelope, SerdeJson.optionRaw_eq_none.mpr nothing]
  simp [Except.mapError, named, orElseError, bind, Except.bind]

theorem parse_null_metadata {value : JsonDocument} (nothing : value.value = .null) :
    parseRowEnvelope serde.deserializers (metadata value).text =
      .error "row callback payload must contain a non-empty string field `stream`" := by
  have envelope := serde.envelope_text (metadata value)
  unfold parseRowEnvelope SerdeJson.deserializers
  dsimp only at envelope ⊢
  rw [envelope, SerdeJson.optionRaw_eq_none.mpr nothing]
  rfl

theorem parse_seen (e : StreamEmission) (reads : ∀ doc, e = metadata doc → serde.Reads doc)
    (present : ∀ doc, e.document? = some doc → doc.value ≠ .null) :
    ∃ event, parseRowEnvelope serde.deserializers e.text = .ok event ∧ e.Seen event := by
  have envelope := serde.envelope_text e
  have named : ∀ name : NonEmptyText, nonEmpty (some name.val) = some name.val := by
    intro name
    simp [nonEmpty, Option.filter, name.property]
  unfold parseRowEnvelope SerdeJson.deserializers
  dsimp only
  rw [envelope]
  cases e with
  | row stream payload =>
    have raw := SerdeJson.optionRaw_of_ne payload.text.toList (present payload rfl)
    refine ⟨.row ⟨stream.val, payload.text⟩, ?_, payload.text, rfl, payload.spells⟩
    dsimp only
    rw [raw, String.ofList_toList]
    simp [Except.mapError, named, orElseError, bind, Except.bind, pure, Except.pure]
  | diagnostic code message =>
    refine ⟨.diagnostic ⟨code.val, message⟩, ?_, rfl⟩
    simp [Except.mapError, named, orElseError, bind, Except.bind, pure, Except.pure]
  | progress phase current total =>
    refine ⟨.progress ⟨phase.val, current.toNat, total.map UInt64.toNat⟩, ?_, rfl⟩
    simp [Except.mapError, named, orElseError, bind, Except.bind, pure, Except.pure]
  | metadata value =>
    obtain ⟨read, found, spells⟩ := reads value rfl
    have raw := SerdeJson.optionRaw_of_ne value.text.toList (present value rfl)
    refine ⟨.metadata read, ?_, read, rfl, spells⟩
    dsimp only
    rw [raw, String.ofList_toList]
    simp [Except.mapError, found, bind, Except.bind, pure, Except.pure]

end StreamEmission

/-- What a helper emits is seen as it was meant exactly when the value that it carries, if it
carries one, is not `null`. -/
theorem emission_seen_iff (serde : SerdeJson) (e : StreamEmission)
    (reads : ∀ doc, e = .metadata doc → serde.Reads doc) :
    (∃ event, parseRowEnvelope serde.deserializers e.text = .ok event ∧ e.Seen event) ↔
      ∀ doc, e.document? = some doc → doc.value ≠ .null := by
  refine ⟨?_, StreamEmission.parse_seen e reads⟩
  rintro ⟨event, parsed, -⟩ doc carried nothing
  cases e with
  | row stream payload =>
    cases carried
    rw [StreamEmission.parse_null_row stream nothing] at parsed
    cases parsed
  | metadata value =>
    cases carried
    rw [StreamEmission.parse_null_metadata nothing] at parsed
    cases parsed
  | diagnostic code message => cases carried
  | progress phase current total => cases carried

def grammarReader : SerdeJson where
  members _ text :=
    match Json.readObject text.toList with
    | some ms => .ok ms
    | none => .error "expected a map"
  fields _ v :=
    match v with
    | .object ms => .ok ms
    | _ => .error "expected a map"
  value text := .ok text
  describe
    | .invalidType field => "invalid type: " ++ field
    | .missingField field => "missing field: " ++ field
    | .duplicateField field => "duplicate field: " ++ field
  members_object _ text ms found := by rw [found]
  fields_object _ _ := rfl

theorem metadata_number_seen :
    (∀ doc, StreamEmission.metadata ⟨"7", .posInt 7, rfl⟩ = .metadata doc →
      grammarReader.Reads doc) ∧
    ((∃ event, parseRowEnvelope grammarReader.deserializers
        (StreamEmission.metadata ⟨"7", .posInt 7, rfl⟩).text = .ok event ∧
      (StreamEmission.metadata ⟨"7", .posInt 7, rfl⟩).Seen event) ↔
      ∀ doc, (StreamEmission.metadata ⟨"7", .posInt 7, rfl⟩).document? = some doc →
        doc.value ≠ .null) := by
  have reads : ∀ doc, StreamEmission.metadata ⟨"7", .posInt 7, rfl⟩ = .metadata doc →
      grammarReader.Reads doc := by
    rintro doc ⟨⟩
    exact ⟨"7", rfl, rfl⟩
  exact ⟨reads, emission_seen_iff grammarReader _ reads⟩

/-- A row whose payload is `null` ends the stream with an error. -/
theorem null_payload_refused :
    ¬∀ (serde : SerdeJson) (e : StreamEmission),
      (∀ doc, e = .metadata doc → serde.Reads doc) →
        ∃ event, parseRowEnvelope serde.deserializers e.text = .ok event ∧ e.Seen event := by
  intro all
  obtain ⟨event, parsed, -⟩ := all grammarReader
    (.row ⟨"rows", by decide⟩ ⟨"null", .null, Json.spells_null⟩) (fun _ other => by cases other)
  rw [StreamEmission.parse_null_row _ rfl] at parsed
  cases parsed

end LeanRs
