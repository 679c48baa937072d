import SolutionWatch.Proofs.Json.Reading
import SolutionWatch.Wire.Codec

/-!
# Sending requests and messages and reading them back

Every type that crosses to a worker has two lemmas: its wire form is read back, and its wire form
is a plain value of a known depth; enumerations are strings and need only the first one. From the
parts up to requests and messages, the second lemma lets the text be read as the wire form, and the
first one the wire form as what was sent.
-/

namespace SolutionWatch

/-! ## Values -/

namespace Json

/-- A record is a plain value if its fields are. -/
@[simp] theorem plain_object_iff {depth : ℕ} {fields : List (String × Json)} :
    Plain (depth + 1) (.object fields) ↔ ∀ field ∈ fields, Plain depth field.2 :=
  ⟨fun h => by cases h with | object plain => exact plain, .object⟩

/-- An array is a plain value if its items are. -/
@[simp] theorem plain_array_iff {depth : ℕ} {items : List Json} :
    Plain (depth + 1) (.array items) ↔ ∀ item ∈ items, Plain depth item :=
  ⟨fun h => by cases h with | array plain => exact plain, .array⟩

/-- The value `null` is plain. -/
@[simp] theorem plain_null (depth : ℕ) : Plain depth .null := .scalar .null

/-- A truth value is plain. -/
@[simp] theorem plain_bool (depth : ℕ) (b : Bool) : Plain depth (.bool b) := .scalar (.bool b)

/-- A string is plain. -/
@[simp] theorem plain_text (depth : ℕ) (s : String) : Plain depth (.text s) := .scalar (.text s)

/-- A number of at most 64 bits is plain. -/
@[simp] theorem plain_word64 (depth : ℕ) (n : UInt64) : Plain depth (.nat n.toNat) :=
  .scalar (.nat n.toNat_lt)

/-- A number of at most 32 bits is plain. -/
@[simp] theorem plain_word32 (depth : ℕ) (n : UInt32) : Plain depth (.nat n.toNat) :=
  .scalar (.nat (n.toNat_lt.trans (by decide)))

/-- A string is read back. -/
@[simp] theorem asText?_text (s : String) : asText? (.text s) = some s := rfl

/-- A truth value is read back. -/
@[simp] theorem asBool?_bool (b : Bool) : asBool? (.bool b) = some b := rfl

end Json

namespace Wire

/-- In a record without repeated names, a field is the one that its name finds. -/
theorem find?_name {fields : List (String × Json)} (h : (fields.map Prod.fst).Nodup)
    {field : String × Json} (hmem : field ∈ fields) :
    fields.find? (fun f => f.1 = field.1) = some field := by
  induction fields with
  | nil => exact absurd hmem List.not_mem_nil
  | cons first rest ih =>
    obtain ⟨hfirst, hrest⟩ := List.nodup_cons.mp h
    rcases List.mem_cons.mp hmem with rfl | hlater
    · exact List.find?_cons_of_pos (by simp)
    · have hne : first.1 ≠ field.1 := fun heq => hfirst (heq ▸ List.mem_map_of_mem hlater)
      rw [List.find?_cons_of_neg (by simpa using hne), ih hrest hlater]

/-- In a record without repeated names, no name comes twice. -/
theorem length_filter_name_le {fields : List (String × Json)} (h : (fields.map Prod.fst).Nodup)
    (name : String) : (fields.filter fun f => f.1 = name).length ≤ 1 := by
  have hcount : (fields.map Prod.fst).count name ≤ 1 := List.nodup_iff_count_le_one.mp h name
  rw [← List.countP_eq_length_filter]
  simpa [List.count, List.countP_map, Function.comp_def, beq_eq_decide] using hcount

/-- A record without repeated names has the values of its fields under their names. -/
@[simp] theorem fields?_object {names : List String} {fields : List (String × Json)}
    (hnames : fields.map Prod.fst = names) (h : names.Nodup) :
    fields? names (.object fields) = some (fields.map fun field => some field.2) := by
  subst hnames
  have honce : (fields.map Prod.fst).all
      (fun name => (fields.filter fun f => f.1 = name).length ≤ 1) = true :=
    List.all_eq_true.mpr fun name _ => by simpa using length_filter_name_le h name
  rw [fields?, if_pos honce, List.map_map]
  refine congrArg some (List.map_congr_left fun field hmem => ?_)
  simp [find?_name h hmem]

/-- The tag of a tagged record that comes first. -/
theorem untag?_object {tag name : String} {fields : List (String × Json)}
    (h : ∀ field ∈ fields, field.1 ≠ tag) :
    untag? tag (.object ((tag, .text name) :: fields)) = some (name, .object fields) := by
  have hnone : fields.filter (fun field => field.1 = tag) = [] :=
    List.filter_eq_nil_iff.mpr (by simpa using h)
  have hall : fields.filter (fun field => field.1 ≠ tag) = fields :=
    List.filter_eq_self.mpr (by simpa using h)
  simp only [untag?, Json.text, List.filter_cons, hnone, hall]
  simp

/-- A list whose items are read back is read back. -/
theorem list_map {α : Type} {read : Json → Option α} {write : α → Json}
    (h : ∀ a, read (write a) = some a) (items : List α) :
    list read (.array (items.map write)) = some items := by
  induction items with
  | nil => rfl
  | cons item items ih =>
    have hitems : (items.map write).mapM read = some items := ih
    simp [list, h, hitems]

/-- A number of at most 64 bits is read back. -/
@[simp] theorem word64_toNat (n : UInt64) : word64 (.nat n.toNat) = some n := by
  simp [word64, Json.nat, n.toNat_lt_size]

/-- A number of at most 32 bits is read back. -/
@[simp] theorem word32_toNat (n : UInt32) : word32 (.nat n.toNat) = some n := by
  simp [word32, Json.nat, n.toNat_lt_size]

end Wire

/-! ## Identities, sets of reasons and enumerations -/

section

variable (held : Bool) (depth : ℕ)

/-- A project identity is read back. -/
@[simp] theorem ProjectId.ofJson?_toJson (id : ProjectId) : ofJson? id.toJson = some id := by
  simp [ofJson?, toJson]

/-- A project identity is plain. -/
@[simp] theorem ProjectId.plain_toJson (id : ProjectId) : Json.Plain depth id.toJson :=
  Json.plain_word64 depth id.raw

/-- A symbol identity is read back. -/
@[simp] theorem SymbolId.ofJson?_toJson (id : SymbolId) : ofJson? id.toJson = some id := by
  simp [ofJson?, toJson]

/-- A symbol identity is plain. -/
@[simp] theorem SymbolId.plain_toJson (id : SymbolId) : Json.Plain depth id.toJson :=
  Json.plain_word64 depth id.raw

/-- A checksum is read back. -/
@[simp] theorem Checksum.ofJson?_toJson (checksum : Checksum) :
    ofJson? checksum.toJson = some checksum := by
  simp [ofJson?, toJson]

/-- A checksum is plain. -/
@[simp] theorem Checksum.plain_toJson (checksum : Checksum) : Json.Plain depth checksum.toJson :=
  Json.plain_word64 depth checksum.raw

/-- A set of reasons is read back, whichever bits it has. -/
@[simp] theorem Reasons.ofJson?_toJson (reasons : Reasons) :
    ofJson? reasons.toJson = some reasons := by
  have hword := Wire.word32_toNat (UInt32.ofBitVec reasons.bits)
  rw [UInt32.toNat_ofBitVec] at hword
  rw [ofJson?, toJson, hword]
  rfl

/-- A set of reasons is plain. -/
@[simp] theorem Reasons.plain_toJson (reasons : Reasons) : Json.Plain depth reasons.toJson :=
  Json.plain_word32 depth (UInt32.ofBitVec reasons.bits)

/-- A kind of symbol is read back. -/
@[simp] theorem SymbolKind.ofJson?_toJson (kind : SymbolKind) :
    ofJson? held kind.toJson = some kind := by
  cases kind <;> rfl

/-- A direction is read back. -/
@[simp] theorem CascadeDirection.ofJson?_toJson (direction : CascadeDirection) :
    ofJson? held direction.toJson = some direction := by
  cases direction <;> rfl

/-- A completion is read back. -/
@[simp] theorem Completion.ofJson?_toJson (completion : Completion) :
    ofJson? held completion.toJson = some completion := by
  cases completion <;> rfl

end

/-! ## Records -/

section

variable (held : Bool) (depth : ℕ)

/-- A document identity is read back. -/
@[simp] theorem DocumentId.ofJson?_toJson (id : DocumentId) : ofJson? id.toJson = some id := by
  simp [ofJson?, toJson, Wire.required]

/-- A document identity is a plain value of depth one. -/
@[simp] theorem DocumentId.plain_toJson (id : DocumentId) :
    Json.Plain (depth + 1) id.toJson := by
  simp [toJson]

/-- A span is read back. -/
@[simp] theorem TextSpan.ofJson?_toJson (span : TextSpan) : ofJson? span.toJson = some span := by
  simp [ofJson?, toJson, Wire.required]

/-- A span is a plain value of depth one. -/
@[simp] theorem TextSpan.plain_toJson (span : TextSpan) : Json.Plain (depth + 1) span.toJson := by
  simp [toJson]

/-- A range in a document is read back. -/
@[simp] theorem DocumentSpan.ofJson?_toJson (range : DocumentSpan) :
    ofJson? range.toJson = some range := by
  simp [ofJson?, toJson, Wire.required]

/-- A range in a document is a plain value of depth two. -/
@[simp] theorem DocumentSpan.plain_toJson (range : DocumentSpan) :
    Json.Plain (depth + 2) range.toJson := by
  simp [toJson]

/-- Search options are read back. -/
@[simp] theorem SearchOptions.ofJson?_toJson (options : SearchOptions) :
    ofJson? held options.toJson = some options := by
  simp [ofJson?, toJson, Wire.required]

/-- Search options are a plain value of depth one. -/
@[simp] theorem SearchOptions.plain_toJson (options : SearchOptions) :
    Json.Plain (depth + 1) options.toJson := by
  simp [toJson, CascadeDirection.toJson]

/-- A symbol is read back, whatever its name is. -/
@[simp] theorem SymbolInfo.ofJson?_toJson (symbol : SymbolInfo) :
    ofJson? held symbol.toJson = some symbol := by
  simp [ofJson?, toJson, Wire.required]

/-- A symbol is a plain value of depth two. -/
@[simp] theorem SymbolInfo.plain_toJson (symbol : SymbolInfo) :
    Json.Plain (depth + 2) symbol.toJson := by
  simp [toJson, SymbolKind.toJson]

/-- An occurrence is read back. -/
@[simp] theorem ReferenceLocation.ofJson?_toJson (location : ReferenceLocation) :
    ofJson? location.toJson = some location := by
  simp [ofJson?, toJson, Wire.required]

/-- An occurrence is a plain value of depth two. -/
@[simp] theorem ReferenceLocation.plain_toJson (location : ReferenceLocation) :
    Json.Plain (depth + 2) location.toJson := by
  simp [toJson]

/-- A symbol address is read back, whatever the name in it is. -/
@[simp] theorem SymbolAddress.ofJson?_toJson (symbol : SymbolAddress) :
    ofJson? symbol.toJson = some symbol := by
  simp [ofJson?, toJson, Wire.required]

/-- A symbol address is a plain value of depth one. -/
@[simp] theorem SymbolAddress.plain_toJson (symbol : SymbolAddress) :
    Json.Plain (depth + 1) symbol.toJson := by
  simp [toJson]

end

/-! ## Requests and messages -/

/-- An operation is a plain value of depth four. -/
theorem Operation.plain_toJson (depth : ℕ) (operation : Operation) :
    Json.Plain (depth + 4) operation.toJson := by
  cases operation with
  | solutionEvent reasons => simp [toJson]
  | projectEvent project reasons => simp [toJson]
  | documentEvent document reasons => simp [toJson]
  | findReferences symbol documents options => cases documents <;> simp [toJson]
  | findReferencesInDocuments symbol ranges options => simp [toJson]

/-- The tag of an operation says how its other fields are to be read. -/
theorem Operation.untag?_toJson (operation : Operation) :
    ∃ name fields, Wire.untag? "op" operation.toJson = some (name, fields) ∧
      ofFields? name fields = some operation := by
  cases operation with
  | solutionEvent reasons =>
    refine ⟨_, _, Wire.untag?_object (by simp), ?_⟩
    simp [ofFields?, Wire.required]
  | projectEvent project reasons =>
    refine ⟨_, _, Wire.untag?_object (by simp), ?_⟩
    simp [ofFields?, Wire.required]
  | documentEvent document reasons =>
    refine ⟨_, _, Wire.untag?_object (by simp), ?_⟩
    simp [ofFields?, Wire.required]
  | findReferences symbol documents options =>
    refine ⟨_, _, Wire.untag?_object (by simp), ?_⟩
    cases documents with
    | none => simp [ofFields?, Wire.required, Wire.optional, Json.null]
    | some ids => simp [ofFields?, Wire.required, Wire.optional, Wire.list_map]
  | findReferencesInDocuments symbol ranges options =>
    refine ⟨_, _, Wire.untag?_object (by simp), ?_⟩
    simp [ofFields?, Wire.required, Wire.list_map]

/-- An operation is read back where four levels of nesting are left. -/
theorem Operation.ofJsonWithin?_toJson (depth : ℕ) (operation : Operation) :
    ofJsonWithin? (depth + 4) operation.toJson = some operation := by
  obtain ⟨name, fields, huntag, hfields⟩ := operation.untag?_toJson
  rw [ofJsonWithin?, if_pos (operation.plain_toJson depth).readableWithin, huntag,
    Option.bind_some, hfields]

/-- A request is a plain value of depth five. -/
theorem Request.plain_toJson (depth : ℕ) (request : Request Checksum) :
    Json.Plain (depth + 5) request.toJson := by
  simp [toJson, Operation.plain_toJson]

/-- A request is read back. -/
theorem Request.ofJson?_toJson (request : Request Checksum) :
    ofJson? request.toJson = some request := by
  -- The request itself takes one of the levels of nesting.
  have hoperation : Operation.ofJsonWithin? (Json.maxDepth - 1) request.operation.toJson =
      some request.operation := request.operation.ofJsonWithin?_toJson 122
  simp [ofJson?, toJson, Wire.required, hoperation]

/-- The text of a request is the text of its wire form. -/
theorem Request.ofText?_toText (request : Request Checksum) :
    Json.ofText? request.toText = some request.toJson :=
  (request.plain_toJson 0).ofText?_print

/-- A message is a plain value of depth three. -/
theorem ReferenceMessage.plain_toJson (depth : ℕ) (message : ReferenceMessage) :
    Json.Plain (depth + 3) message.toJson := by
  cases message with
  | definitionFound symbol => simp [toJson]
  | referenceFound definition location => simp [toJson]
  | completed completion => simp [toJson, Completion.toJson]

/-- The tag of a message says how its other fields are to be read. -/
theorem ReferenceMessage.untag?_toJson (message : ReferenceMessage) :
    ∃ name fields, Wire.untag? "type" message.toJson = some (name, fields) ∧
      ofFields? name fields = some message := by
  cases message with
  | definitionFound symbol =>
    refine ⟨_, _, Wire.untag?_object (by simp), ?_⟩
    simp [ofFields?, Wire.required]
  | referenceFound definition location =>
    refine ⟨_, _, Wire.untag?_object (by simp), ?_⟩
    simp [ofFields?, Wire.required]
  | completed completion =>
    refine ⟨_, _, Wire.untag?_object (by simp), ?_⟩
    simp [ofFields?, Wire.required]

/-- A message is read back. -/
theorem ReferenceMessage.ofJson?_toJson (message : ReferenceMessage) :
    ofJson? message.toJson = some message := by
  have hreadable : message.toJson.readableWithin Json.maxDepth = true :=
    (message.plain_toJson 124).readableWithin
  obtain ⟨name, fields, huntag, hfields⟩ := message.untag?_toJson
  rw [ofJson?, if_pos hreadable, huntag, Option.bind_some, hfields]

/-- The text of every request is JSON text for its wire form and is read as the same request, and
the text of every message is JSON text for its wire form and is read as the same message. -/
theorem Wire.round_trip :
    (∀ request : Request Checksum,
      Json.ofText? request.toText = some request.toJson ∧
        Request.ofText? request.toText = .ok request) ∧
    ∀ message : ReferenceMessage,
      Json.ofText? message.toJson.print = some message.toJson ∧
        (Json.ofText? message.toJson.print).bind ReferenceMessage.ofJson? = some message := by
  refine ⟨fun request => ⟨request.ofText?_toText, ?_⟩, fun message => ?_⟩
  · rw [Request.ofText?, request.ofText?_toText, Option.bind_some, request.ofJson?_toJson]
  · have htext : Json.ofText? message.toJson.print = some message.toJson :=
      (message.plain_toJson 0).ofText?_print
    exact ⟨htext, by rw [htext, Option.bind_some, message.ofJson?_toJson]⟩

end SolutionWatch
