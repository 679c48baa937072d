import SolutionWatch.Proofs.Json.Reading

/-!
# Strings that stand for no text

A string may be written with half of a surrogate pair in it. The text of the value is well formed then,
but the string stands for no text. `Token.garble lost` writes the strings of `lost` so, as values and as
names, and `Json.garble lost` is what is read of a value then: an object with such a name is lost as a
whole, and stands for no value.

The reader is in step with itself. If a token leads it from one state to another, then the garbled token
leads it from the one, with everything garbled that it has read, to the other (`Reader.step_garble`). So
it reads the garbled value from the garbled tokens, whatever else stands around them.
-/

namespace SolutionWatch.Json

/-- A scalar, where the strings of `lost` are written so that they stand for no text. -/
def Scalar.garble (lost : String → Bool) : Scalar → Scalar
  | .text s => if lost s then .unpaired else .text s
  | value => value

/-- A token, where the strings of `lost` are written so that they stand for no text. -/
def Token.garble (lost : String → Bool) : Token → Token
  | .scalar value => .scalar (value.garble lost)
  | token => token

mutual

/-- What is read of a value where the strings of `lost` are written so that they stand for no text. -/
def garble (lost : String → Bool) : Json → Json
  | .scalar value => .scalar (value.garble lost)
  | .array items => .array (garbleItems lost items)
  | .object fields =>
    if fields.any fun f => lost f.1 then .scalar .unpaired else .object (garbleFields lost fields)

/-- What is read of the items of an array. -/
def garbleItems (lost : String → Bool) : List Json → List Json
  | [] => []
  | item :: rest => garble lost item :: garbleItems lost rest

/-- What is read of the fields of an object whose names stand for texts. -/
def garbleFields (lost : String → Bool) : List (String × Json) → List (String × Json)
  | [] => []
  | (other, value) :: rest => (other, garble lost value) :: garbleFields lost rest

end

/-- A value in which an object has a name of `lost`. -/
inductive HasName (lost : String → Bool) : Json → Prop
  /-- The object itself has one. -/
  | here {fields : List (String × Json)} (h : ∃ field ∈ fields, lost field.1 = true) :
    HasName lost (.object fields)
  /-- An object in an item of the array has one. -/
  | item {items : List Json} {value : Json} (hmem : value ∈ items) (h : HasName lost value) :
    HasName lost (.array items)
  /-- An object in a field of the object has one. -/
  | field {fields : List (String × Json)} {field : String × Json} (hmem : field ∈ fields)
    (h : HasName lost field.2) : HasName lost (.object fields)

variable {lost : String → Bool}

/-- The items of an array are garbled one by one. -/
theorem garbleItems_eq (lost : String → Bool) (items : List Json) :
    garbleItems lost items = items.map (garble lost) := by
  induction items with
  | nil => rfl
  | cons item items ih => rw [garbleItems, ih, List.map_cons]

/-- The fields of an object are garbled one by one. -/
theorem garbleFields_eq (lost : String → Bool) (fields : List (String × Json)) :
    garbleFields lost fields = fields.map fun f => (f.1, f.2.garble lost) := by
  induction fields with
  | nil => rfl
  | cons field fields ih => rw [garbleFields, ih, List.map_cons]

/-- An object whose names stand for texts has its fields garbled. -/
theorem garble_object_of_not_any {fields : List (String × Json)}
    (h : (fields.any fun f => lost f.1) = false) :
    (Json.object fields).garble lost = .object (fields.map fun f => (f.1, f.2.garble lost)) := by
  rw [garble, h, garbleFields_eq, if_neg Bool.false_ne_true]

/-- An object with a name that stands for no text is lost. -/
theorem garble_object_of_any {fields : List (String × Json)}
    (h : (fields.any fun f => lost f.1) = true) :
    (Json.object fields).garble lost = .scalar .unpaired := by
  rw [garble, h, if_pos rfl]

/-- A value with such a name in it cannot be read into a program. -/
theorem HasName.not_readableWithin_garble {value : Json} (h : value.HasName lost) (depth : ℕ) :
    (value.garble lost).readableWithin depth = false := by
  induction h generalizing depth with
  | here h =>
    obtain ⟨field, hmem, hname⟩ := h
    rw [garble_object_of_any (List.any_eq_true.mpr ⟨field, hmem, hname⟩)]
    rfl
  | @item items value hmem _ ih =>
    have hsome : readableItems (depth - 1) (items.map (garble lost)) = false := by
      rw [Bool.eq_false_iff, ne_eq, readableItems_iff]
      exact fun hall => Bool.false_ne_true ((ih _).symm.trans (hall _ (List.mem_map_of_mem hmem)))
    rw [garble, garbleItems_eq, readableWithin, hsome, Bool.and_false]
  | @field fields field hmem _ ih =>
    -- The object is lost itself, or it has a field that cannot be read.
    cases hany : fields.any fun f => lost f.1 with
    | true =>
      rw [garble_object_of_any hany]
      rfl
    | false =>
      have hsome : readableFields (depth - 1) (fields.map fun f => (f.1, f.2.garble lost)) = false := by
        rw [Bool.eq_false_iff, ne_eq, readableFields_iff]
        exact fun hall => Bool.false_ne_true ((ih _).symm.trans (hall _ (List.mem_map_of_mem hmem)))
      rw [garble_object_of_not_any hany, readableWithin, hsome, Bool.and_false]

/-! ## The reader -/

namespace Reader

/-- The fields of an object so far, where the strings of `lost` stand for no text. -/
def garbleFields (lost : String → Bool) (fields : List (String × Json)) : List (String × Json) :=
  (fields.filter fun f => !lost f.1).map fun f => (f.1, f.2.garble lost)

/-- Whether every name so far stands for a text. -/
def garbleNamed (lost : String → Bool) (fields : List (String × Json)) (named : Bool) : Bool :=
  named && !fields.any fun f => lost f.1

/-- The text that a name stands for. -/
def garbleName (lost : String → Bool) (other : Option String) : Option String :=
  other.filter fun s => !lost s

/-- What is open, where the strings of `lost` stand for no text. -/
def Frame.garble (lost : String → Bool) : Frame → Frame
  | .array items => .array (items.map (Json.garble lost))
  | .field fields named other =>
    .field (garbleFields lost fields) (garbleNamed lost fields named) (garbleName lost other)

/-- What may come next, where the strings of `lost` stand for no text. -/
def State.garble (lost : String → Bool) : State → State
  | .value outer => .value (outer.map (Frame.garble lost))
  | .firstItem outer => .firstItem (outer.map (Frame.garble lost))
  | .firstName outer => .firstName (outer.map (Frame.garble lost))
  | .name fields named outer =>
    .name (garbleFields lost fields) (garbleNamed lost fields named) (outer.map (Frame.garble lost))
  | .colon fields named other outer =>
    .colon (garbleFields lost fields) (garbleNamed lost fields named) (garbleName lost other)
      (outer.map (Frame.garble lost))
  | .afterItem items outer => .afterItem (items.map (Json.garble lost)) (outer.map (Frame.garble lost))
  | .afterField fields named outer =>
    .afterField (garbleFields lost fields) (garbleNamed lost fields named)
      (outer.map (Frame.garble lost))
  | .done found => .done (found.garble lost)

@[simp] theorem garbleName_none (lost : String → Bool) : garbleName lost none = none := rfl

theorem garbleName_of_lost {other : String} (h : lost other = true) :
    garbleName lost (some other) = none := by
  simp [garbleName, Option.filter, h]

theorem garbleName_of_not_lost {other : String} (h : lost other = false) :
    garbleName lost (some other) = some other := by
  simp [garbleName, Option.filter, h]

/-- A value that has ended is garbled in what is open around it. -/
theorem deliver_garble (lost : String → Bool) (value : Json) (outer : List Frame) :
    deliver (value.garble lost) (outer.map (Frame.garble lost)) = (deliver value outer).garble lost := by
  match outer with
  | [] => rfl
  | .array items :: outer => simp [deliver, Frame.garble, State.garble]
  | .field fields named none :: outer => simp [deliver, Frame.garble, State.garble, garbleNamed]
  | .field fields named (some other) :: outer =>
    cases hother : lost other with
    | true =>
      simp [deliver, Frame.garble, State.garble, garbleName_of_lost hother, garbleNamed, garbleFields,
        hother]
    | false =>
      simp [deliver, Frame.garble, State.garble, garbleName_of_not_lost hother, garbleNamed,
        garbleFields, hother]

/-- A closed object is lost if one of its names was garbled. -/
theorem closed_garble (lost : String → Bool) (fields : List (String × Json)) (named : Bool) :
    closed (garbleFields lost fields) (garbleNamed lost fields named) =
      (closed fields named).garble lost := by
  cases named with
  | false => rfl
  | true =>
    cases hany : fields.any fun f => lost f.1 with
    | true => simp [closed, garbleNamed, hany, garble_object_of_any hany]
    | false =>
      have hkeep : (fields.filter fun f => !lost f.1) = fields := by
        rw [List.filter_eq_self]
        intro f hf
        simpa using List.any_eq_false.mp hany f hf
      simp only [closed, garbleNamed, hany, Bool.not_false, Bool.and_self, if_true,
        garble_object_of_not_any hany, garbleFields, hkeep]

/-- Where a value must come, a garbled token starts a garbled value. -/
theorem startValue_garble (lost : String → Bool) {outer : List Frame} {token : Token} {next : State}
    (h : startValue outer token = some next) :
    startValue (outer.map (Frame.garble lost)) (token.garble lost) = some (next.garble lost) := by
  cases token with
  | scalar value =>
    obtain rfl := Option.some.inj h
    rw [← deliver_garble, garble]
    rfl
  | openArray | openObject =>
    obtain rfl := Option.some.inj h
    rfl
  | closeObject | closeArray | colon | comma => contradiction

/-- Where a name must come, a garbled token is a garbled name. -/
theorem startName_garble (lost : String → Bool) {fields : List (String × Json)} {named : Bool}
    {outer : List Frame} {token : Token} {next : State}
    (h : startName fields named outer token = some next) :
    startName (garbleFields lost fields) (garbleNamed lost fields named)
      (outer.map (Frame.garble lost)) (token.garble lost) = some (next.garble lost) := by
  cases token with
  | scalar value =>
    cases value with
    | text s =>
      obtain rfl := Option.some.inj h
      cases hs : lost s with
      | true => simp [Token.garble, Scalar.garble, startName, State.garble, garbleName_of_lost hs, hs]
      | false =>
        simp [Token.garble, Scalar.garble, startName, State.garble, garbleName_of_not_lost hs, hs]
    | unpaired =>
      obtain rfl := Option.some.inj h
      rfl
    | null | bool | nat | number | huge => contradiction
  | openArray | openObject | closeObject | closeArray | colon | comma => contradiction

/-- If a token leads the reader to a state, then the garbled token leads it to the garbled state. -/
theorem step_garble (lost : String → Bool) {state next : State} {token : Token}
    (h : step state token = some next) :
    step (state.garble lost) (token.garble lost) = some (next.garble lost) := by
  cases state with
  | value outer => exact startValue_garble lost h
  | name fields named outer => exact startName_garble lost h
  | firstItem outer =>
    cases token with
    | closeArray =>
      obtain rfl := Option.some.inj h
      rw [← deliver_garble]
      rfl
    -- An item starts as any value does, in an array that has no items yet.
    | scalar value =>
      have hstart : startValue (.array [] :: outer) (.scalar value) = some next := h
      exact startValue_garble lost hstart
    | openArray =>
      have hstart : startValue (.array [] :: outer) .openArray = some next := h
      exact startValue_garble lost hstart
    | openObject =>
      have hstart : startValue (.array [] :: outer) .openObject = some next := h
      exact startValue_garble lost hstart
    | closeObject | colon | comma => contradiction
  | firstName outer =>
    cases token with
    | closeObject =>
      obtain rfl := Option.some.inj h
      rw [← deliver_garble]
      rfl
    | scalar => exact startName_garble lost h
    | openArray | openObject | closeArray | colon | comma => contradiction
  | colon fields named other outer =>
    cases token with
    | colon =>
      obtain rfl := Option.some.inj h
      rfl
    | scalar | openArray | openObject | closeArray | closeObject | comma => contradiction
  | afterItem items outer =>
    cases token with
    | comma =>
      obtain rfl := Option.some.inj h
      rfl
    | closeArray =>
      obtain rfl := Option.some.inj h
      rw [← deliver_garble, Json.garble, garbleItems_eq]
      rfl
    | scalar | openArray | openObject | closeObject | colon => contradiction
  | afterField fields named outer =>
    cases token with
    | comma =>
      obtain rfl := Option.some.inj h
      rfl
    | closeObject =>
      obtain rfl := Option.some.inj h
      rw [← deliver_garble, ← closed_garble]
      rfl
    | scalar | openArray | openObject | closeArray | colon => contradiction
  | done value => contradiction

/-- Garbled tokens lead the reader to the garbled state. -/
theorem run_garble (lost : String → Bool) {state last : State} {tokens : List Token}
    (h : run state tokens = some last) :
    run (state.garble lost) (tokens.map (Token.garble lost)) = some (last.garble lost) := by
  induction tokens generalizing state with
  | nil =>
    obtain rfl := Option.some.inj h
    rfl
  | cons token tokens ih =>
    obtain ⟨next, hstep, hrun⟩ := Option.bind_eq_some_iff.mp h
    rw [List.map_cons, run, step_garble lost hstep, Option.bind_some]
    exact ih hrun

end Reader

/-- The garbled value is read from the garbled tokens of a value. -/
theorem ofTokens?_garble (lost : String → Bool) (value : Json) :
    ofTokens? (value.tokens.map (Token.garble lost)) = some (value.garble lost) := by
  have hrun : Reader.run (.value []) value.tokens = some (.done value) := by
    simpa [Reader.run, Reader.deliver] using Reader.run_tokens value [] []
  have hgarbled : Reader.run (.value []) (value.tokens.map (Token.garble lost)) =
      some (.done (value.garble lost)) := Reader.run_garble lost hrun
  rw [ofTokens?, hgarbled]

/-- A garbled token is punctuation if the token is. -/
theorem Token.isMark_garble (lost : String → Bool) (token : Token) :
    (token.garble lost).isMark = token.isMark := by
  cases token <;> rfl

/-- The garbled value is read from every text that spells the garbled tokens. -/
theorem ofText?_garble {value : Json} {text : String}
    (h : Spells (value.tokens.map (Token.garble lost)) text.toList) :
    ofText? text = some (value.garble lost) := by
  have hchain : (value.tokens.map (Token.garble lost)).IsChain Token.Apart := by
    rw [List.isChain_map]
    refine (isChain_tokens value).imp fun token next hapart => ?_
    rw [Token.Apart, Token.isMark_garble, Token.isMark_garble]
    exact hapart
  rw [ofText?, Lexer.run_of_spells h hchain, Option.bind_some, ofTokens?_garble]

end SolutionWatch.Json
