import SolutionWatch.Proofs.Json.Spelling

/-!
# Printing a value and reading it back

The tokens of a value bring the reader from where a value must come to where it has ended, whatever
is still open around it and whatever comes next. So a value is read from every text that spells it,
and one whose scalars can be spelled is read back from the text that is printed for it.
-/

namespace SolutionWatch.Json

/-! ## The reader -/

namespace Reader

/-- An array that goes on with its first item is read like one whose next item must come. -/
theorem run_firstItem (value : Json) (outer : List Frame) (rest : List Token) :
    run (.firstItem outer) (value.tokens ++ rest) =
      run (.value (.array [] :: outer)) (value.tokens ++ rest) := by
  cases value with
  | scalar value => rfl
  | array items => cases items <;> rfl
  | object fields => cases fields <;> rfl

-- What is open around a value varies: inside an array or an object there is one more frame.
mutual

/-- The tokens of a value deliver the value. -/
theorem run_tokens (value : Json) (outer : List Frame) (rest : List Token) :
    run (.value outer) (value.tokens ++ rest) = run (deliver value outer) rest := by
  match value with
  | .scalar value => rfl
  | .array [] => rfl
  | .array (item :: items) =>
    calc run (.value outer) ((Json.array (item :: items)).tokens ++ rest)
      _ = run (.firstItem outer) (item.tokens ++ (itemTokens items ++ rest)) := by
        rw [tokens, List.cons_append, List.append_assoc]
        rfl
      _ = run (.afterItem [item] outer) (itemTokens items ++ rest) := by
        rw [run_firstItem, run_tokens item]
        rfl
      _ = run (deliver (.array (item :: items)) outer) rest := run_itemTokens items [item] outer rest
  | .object [] => rfl
  | .object ((name, value) :: fields) =>
    calc run (.value outer) ((Json.object ((name, value) :: fields)).tokens ++ rest)
      _ = run (.value (.field [] true (some name) :: outer))
            (value.tokens ++ (fieldTokens fields ++ rest)) := by
        rw [tokens, List.cons_append, List.cons_append, List.cons_append, List.append_assoc]
        rfl
      _ = run (.afterField [(name, value)] true outer) (fieldTokens fields ++ rest) := by
        rw [run_tokens value]
        rfl
      _ = run (deliver (.object ((name, value) :: fields)) outer) rest :=
        run_fieldTokens fields [(name, value)] outer rest

/-- The tokens of the later items of an array deliver it. -/
theorem run_itemTokens (items earlier : List Json) (outer : List Frame) (rest : List Token) :
    run (.afterItem earlier outer) (itemTokens items ++ rest) =
      run (deliver (.array (earlier ++ items)) outer) rest := by
  match items with
  | [] => rw [List.append_nil]; rfl
  | item :: items =>
    calc run (.afterItem earlier outer) (itemTokens (item :: items) ++ rest)
      _ = run (.value (.array earlier :: outer)) (item.tokens ++ (itemTokens items ++ rest)) := by
        rw [itemTokens, List.cons_append, List.append_assoc]
        rfl
      _ = run (.afterItem (earlier ++ [item]) outer) (itemTokens items ++ rest) := by
        rw [run_tokens item]
        rfl
      _ = run (deliver (.array (earlier ++ item :: items)) outer) rest := by
        rw [run_itemTokens items, List.append_assoc]
        rfl

/-- The tokens of the later fields of an object deliver it. -/
theorem run_fieldTokens (fields earlier : List (String × Json)) (outer : List Frame)
    (rest : List Token) :
    run (.afterField earlier true outer) (fieldTokens fields ++ rest) =
      run (deliver (.object (earlier ++ fields)) outer) rest := by
  match fields with
  | [] => rw [List.append_nil]; rfl
  | (name, value) :: fields =>
    calc run (.afterField earlier true outer) (fieldTokens ((name, value) :: fields) ++ rest)
      _ = run (.value (.field earlier true (some name) :: outer))
            (value.tokens ++ (fieldTokens fields ++ rest)) := by
        rw [fieldTokens, List.cons_append, List.cons_append, List.cons_append, List.append_assoc]
        rfl
      _ = run (.afterField (earlier ++ [(name, value)]) true outer) (fieldTokens fields ++ rest) := by
        rw [run_tokens value]
        rfl
      _ = run (deliver (.object (earlier ++ (name, value) :: fields)) outer) rest := by
        rw [run_fieldTokens fields, List.append_assoc]
        rfl

end

end Reader

/-- A value is what its tokens spell. -/
theorem ofTokens?_tokens (value : Json) : ofTokens? value.tokens = some value := by
  have hrun : Reader.run (.value []) value.tokens = some (.done value) := by
    simpa [Reader.run, Reader.deliver] using Reader.run_tokens value [] []
  rw [ofTokens?, hrun]

/-! ## The tokens of a value -/

/-- Nothing needs to stand between punctuation and another token. -/
theorem isChain_cons_mark {token : Token} (h : token.isMark = true) {tokens : List Token} :
    (token :: tokens).IsChain Token.Apart ↔ tokens.IsChain Token.Apart := by
  rw [List.isChain_cons]
  exact and_iff_right fun next _ => .inl h

/-- Nothing needs to stand between tokens and a list that starts with punctuation. -/
theorem isChain_append_mark {tokens more : List Token} (htokens : tokens.IsChain Token.Apart)
    (hmore : more.IsChain Token.Apart) (hmark : ∀ token ∈ more.head?, token.isMark = true) :
    (tokens ++ more).IsChain Token.Apart :=
  htokens.append hmore fun _ _ next hnext => .inr (hmark next hnext)

/-- Later items start with punctuation. -/
theorem isMark_head?_itemTokens (items : List Json) :
    ∀ token ∈ (itemTokens items).head?, token.isMark = true := by
  cases items <;> rintro token ⟨⟩ <;> rfl

/-- Later fields start with punctuation. -/
theorem isMark_head?_fieldTokens (fields : List (String × Json)) :
    ∀ token ∈ (fieldTokens fields).head?, token.isMark = true := by
  cases fields <;> rintro token ⟨⟩ <;> rfl

mutual

/-- The tokens of a value can be told apart. -/
theorem isChain_tokens (value : Json) : value.tokens.IsChain Token.Apart := by
  match value with
  | .scalar value => exact .singleton _
  | .array [] => exact (isChain_cons_mark rfl).mpr (.singleton _)
  | .array (item :: items) =>
    rw [tokens, isChain_cons_mark rfl]
    exact isChain_append_mark (isChain_tokens item) (isChain_itemTokens items)
      (isMark_head?_itemTokens items)
  | .object [] => exact (isChain_cons_mark rfl).mpr (.singleton _)
  | .object ((name, value) :: fields) =>
    rw [tokens, isChain_cons_mark rfl, List.isChain_cons_cons, isChain_cons_mark rfl]
    exact ⟨.inr rfl, isChain_append_mark (isChain_tokens value) (isChain_fieldTokens fields)
      (isMark_head?_fieldTokens fields)⟩

/-- The tokens of later items can be told apart. -/
theorem isChain_itemTokens (items : List Json) : (itemTokens items).IsChain Token.Apart := by
  match items with
  | [] => exact .singleton _
  | item :: items =>
    rw [itemTokens, isChain_cons_mark rfl]
    exact isChain_append_mark (isChain_tokens item) (isChain_itemTokens items)
      (isMark_head?_itemTokens items)

/-- The tokens of later fields can be told apart. -/
theorem isChain_fieldTokens (fields : List (String × Json)) :
    (fieldTokens fields).IsChain Token.Apart := by
  match fields with
  | [] => exact .singleton _
  | (name, value) :: fields =>
    rw [fieldTokens, isChain_cons_mark rfl, List.isChain_cons_cons, isChain_cons_mark rfl]
    exact ⟨.inr rfl, isChain_append_mark (isChain_tokens value) (isChain_fieldTokens fields)
      (isMark_head?_fieldTokens fields)⟩

end

/-- The scalars of later items. -/
@[simp] theorem scalar_mem_itemTokens {scalar : Scalar} {items : List Json} :
    .scalar scalar ∈ itemTokens items ↔ ∃ item ∈ items, .scalar scalar ∈ item.tokens := by
  induction items with
  | nil => simp [itemTokens]
  | cons item items ih => simp [itemTokens, ih]

/-- The scalars of later fields: their names are among them. -/
@[simp] theorem scalar_mem_fieldTokens {scalar : Scalar} {fields : List (String × Json)} :
    .scalar scalar ∈ fieldTokens fields ↔
      ∃ field ∈ fields, scalar = .text field.1 ∨ .scalar scalar ∈ field.2.tokens := by
  induction fields with
  | nil => simp [fieldTokens]
  | cons field fields ih => simp [fieldTokens, ih, or_assoc]

/-- The scalars of an array. -/
theorem scalar_mem_tokens_array {scalar : Scalar} {items : List Json} :
    .scalar scalar ∈ (Json.array items).tokens ↔ ∃ item ∈ items, .scalar scalar ∈ item.tokens := by
  cases items <;> simp [tokens]

/-- The scalars of an object. -/
theorem scalar_mem_tokens_object {scalar : Scalar} {fields : List (String × Json)} :
    .scalar scalar ∈ (Json.object fields).tokens ↔
      ∃ field ∈ fields, scalar = .text field.1 ∨ .scalar scalar ∈ field.2.tokens := by
  cases fields <;> simp [tokens, or_assoc]

/-- A value is read from every text that spells it. -/
theorem ofText?_of_spells {value : Json} {text : String} (h : Spells value.tokens text.toList) :
    ofText? text = some value := by
  rw [ofText?, Lexer.run_of_spells h (isChain_tokens value), Option.bind_some, ofTokens?_tokens]

/-! ## Values that are read back -/

/-- A value whose scalars can be spelled, and whose arrays and objects are nested at most `depth`
levels deep. -/
inductive Plain : ℕ → Json → Prop
  /-- A scalar. -/
  | scalar {depth : ℕ} {value : Scalar} (plain : value.Plain) : Plain depth (.scalar value)
  /-- A list of values. -/
  | array {depth : ℕ} {items : List Json} (plain : ∀ item ∈ items, Plain depth item) :
    Plain (depth + 1) (.array items)
  /-- A list of named values. -/
  | object {depth : ℕ} {fields : List (String × Json)}
    (plain : ∀ field ∈ fields, Plain depth field.2) : Plain (depth + 1) (.object fields)

namespace Plain

variable {depth : ℕ} {value : Json}

/-- The scalars of a plain value can be spelled. -/
theorem plain_of_mem_tokens (h : Plain depth value) {scalar : Scalar}
    (hmem : .scalar scalar ∈ value.tokens) : scalar.Plain := by
  induction h with
  | scalar plain =>
    obtain rfl : scalar = _ := by simpa [tokens] using hmem
    exact plain
  | array _ ih =>
    obtain ⟨item, hitem, hscalar⟩ := scalar_mem_tokens_array.mp hmem
    exact ih item hitem hscalar
  | object _ ih =>
    obtain ⟨field, hfield, rfl | hscalar⟩ := scalar_mem_tokens_object.mp hmem
    · exact .text field.1
    · exact ih field hfield hscalar

/-- What is written for a plain value spells it, also with blanks before each of the tokens. -/
theorem spells_flatMap_spell (h : Plain depth value) (blanks : Token → List Char)
    (hblanks : ∀ token, (blanks token).all Lexer.isBlank = true) :
    Spells value.tokens (value.tokens.flatMap fun token => blanks token ++ token.spell) :=
  Json.spells_flatMap_spell blanks hblanks fun _ hmem => (h.plain_of_mem_tokens hmem).literal_spell

/-- The text of a plain value spells it. -/
theorem spells_print (h : Plain depth value) : Spells value.tokens value.print.toList := by
  rw [print, String.toList_ofList]
  exact h.spells_flatMap_spell (fun _ => []) fun _ => rfl

/-- The text of a plain value is read as the value. -/
theorem ofText?_print (h : Plain depth value) : ofText? value.print = some value :=
  ofText?_of_spells h.spells_print

end Plain

/-- Items can be read if each of them can. -/
theorem readableItems_iff {depth : ℕ} {items : List Json} :
    readableItems depth items = true ↔ ∀ item ∈ items, readableWithin depth item = true := by
  induction items with
  | nil => simp [readableItems]
  | cons item items ih => simp [readableItems, ih]

/-- Fields can be read if the value of each of them can. -/
theorem readableFields_iff {depth : ℕ} {fields : List (String × Json)} :
    readableFields depth fields = true ↔
      ∀ field ∈ fields, readableWithin depth field.2 = true := by
  induction fields with
  | nil => simp [readableFields]
  | cons field fields ih => simp [readableFields, ih]

/-- A plain value can be read into a program. -/
theorem Plain.readableWithin {depth : ℕ} {value : Json} (h : Plain depth value) :
    value.readableWithin depth = true := by
  induction h with
  | scalar plain => cases plain <;> rfl
  | array _ ih => simpa [Json.readableWithin, readableItems_iff] using ih
  | object _ ih =>
    simpa [Json.readableWithin, readableFields_iff] using fun name value => ih (name, value)

end SolutionWatch.Json
