import SolutionWatch.Json.Token

/-!
# JSON values

A JSON value is a scalar, an array, or an object whose fields are listed as they were written,
repeated names included. `Json.ofText?` reads a value: a stack of the arrays and objects that are
still open is fed one token after the other. `Json.print` writes a value without blanks.

Not every well-formed value can be read into a program. `Json.readableWithin` says which ones can:
no scalar in it stands for no value, and arrays and objects are not nested too deeply. An object
with a name that stands for no text is such a scalar itself: nothing in it can be asked for.
-/

namespace SolutionWatch

open Json in
/-- A JSON value. -/
inductive Json where
  /-- A value without parts. -/
  | scalar (value : Scalar)
  /-- A list of values. -/
  | array (items : List Json)
  /-- A list of named values. -/
  | object (fields : List (String × Json))
  deriving Repr

namespace Json

instance : Inhabited Json := ⟨.scalar .null⟩

/-- The value `null`. -/
def null : Json := .scalar .null

/-- A truth value. -/
def bool (b : Bool) : Json := .scalar (.bool b)

/-- A natural number. -/
def nat (n : Nat) : Json := .scalar (.nat n)

/-- A string. -/
def text (s : String) : Json := .scalar (.text s)

/-- The value of the last field with the given name. -/
def field? (name : String) : Json → Option Json
  | .object fields => (fields.reverse.find? fun f => f.1 = name).map Prod.snd
  | _ => none

/-- The string that a value is. -/
def asText? : Json → Option String
  | .scalar (.text s) => some s
  | _ => none

/-- The truth value that a value is. -/
def asBool? : Json → Option Bool
  | .scalar (.bool b) => some b
  | _ => none

/-- The natural number that a value is, as it has to be written: with digits only. -/
def asNat? : Json → Option Nat
  | .scalar (.nat n) => some n
  | _ => none

/-- The items of an array. -/
def asArray? : Json → Option (List Json)
  | .array items => some items
  | _ => none

/-- Whether a value is an object. -/
def isObject : Json → Bool
  | .object _ => true
  | _ => false

mutual

/-- The value in which the last of several fields with one name stands for all of them. -/
def withoutRepeats : Json → Json
  | .scalar value => .scalar value
  | .array items => .array (withoutRepeatsItems items)
  | .object fields => .object (withoutRepeatsFields fields)

/-- The items of an array without repeated names. -/
def withoutRepeatsItems : List Json → List Json
  | [] => []
  | item :: rest => withoutRepeats item :: withoutRepeatsItems rest

/-- The fields of an object without repeated names. -/
def withoutRepeatsFields : List (String × Json) → List (String × Json)
  | [] => []
  | (name, value) :: rest =>
    if rest.any fun f => f.1 = name then withoutRepeatsFields rest
    else (name, withoutRepeats value) :: withoutRepeatsFields rest

end

/-- How deeply arrays and objects may be nested in a value that is read into a program. -/
def maxDepth : Nat := 127

mutual

/-- Whether a value can be read into a program with `depth` levels of nesting left. -/
def readableWithin (depth : Nat) : Json → Bool
  | .scalar value => value != .huge && value != .unpaired
  | .array items => depth != 0 && readableItems (depth - 1) items
  | .object fields => depth != 0 && readableFields (depth - 1) fields

/-- Whether every item of an array can be read. -/
def readableItems (depth : Nat) : List Json → Bool
  | [] => true
  | item :: rest => readableWithin depth item && readableItems depth rest

/-- Whether every field of an object can be read. -/
def readableFields (depth : Nat) : List (String × Json) → Bool
  | [] => true
  | (_, value) :: rest => readableWithin depth value && readableFields depth rest

end

mutual

/-- The tokens of a value. -/
def tokens : Json → List Token
  | .scalar value => [.scalar value]
  | .array [] => [.openArray, .closeArray]
  | .array (item :: rest) => .openArray :: (tokens item ++ itemTokens rest)
  | .object [] => [.openObject, .closeObject]
  | .object ((name, value) :: rest) =>
    .openObject :: .scalar (.text name) :: .colon :: (tokens value ++ fieldTokens rest)

/-- The tokens of the later items of an array, to its end. -/
def itemTokens : List Json → List Token
  | [] => [.closeArray]
  | item :: rest => .comma :: (tokens item ++ itemTokens rest)

/-- The tokens of the later fields of an object, to its end. -/
def fieldTokens : List (String × Json) → List Token
  | [] => [.closeObject]
  | (name, value) :: rest =>
    .comma :: .scalar (.text name) :: .colon :: (tokens value ++ fieldTokens rest)

end

/-- The text of a value, without blanks. -/
def print (value : Json) : String := String.ofList (value.tokens.flatMap Token.spell)

namespace Reader

/-- An array or object that is still open, with what it holds so far. -/
inductive Frame where
  /-- An array. -/
  | array (items : List Json)
  /-- An object of which a value is read: its earlier fields, whether every name among them stands
  for a text, and the name of the value. -/
  | field (fields : List (String × Json)) (named : Bool) (name : Option String)

/-- What may come next; `outer` lists the open arrays and objects, the innermost first. -/
inductive State where
  /-- A value must come. -/
  | value (outer : List Frame)
  /-- The first item of an array or its end must come. -/
  | firstItem (outer : List Frame)
  /-- The first name of an object or its end must come. -/
  | firstName (outer : List Frame)
  /-- A further name must come. -/
  | name (fields : List (String × Json)) (named : Bool) (outer : List Frame)
  /-- A colon must come. -/
  | colon (fields : List (String × Json)) (named : Bool) (name : Option String)
    (outer : List Frame)
  /-- An item of the innermost array has ended. -/
  | afterItem (items : List Json) (outer : List Frame)
  /-- A field of the innermost object has ended. -/
  | afterField (fields : List (String × Json)) (named : Bool) (outer : List Frame)
  /-- The whole value has ended. -/
  | done (value : Json)

/-- A value has ended inside the open arrays and objects. -/
def deliver (value : Json) : List Frame → State
  | [] => .done value
  | .array items :: outer => .afterItem (items ++ [value]) outer
  | .field fields named (some name) :: outer =>
    .afterField (fields ++ [(name, value)]) named outer
  | .field fields _ none :: outer => .afterField fields false outer

/-- The value that a closed object is. -/
def closed (fields : List (String × Json)) (named : Bool) : Json :=
  if named then .object fields else .scalar .unpaired

/-- Reads a token where a value must come. -/
def startValue (outer : List Frame) : Token → Option State
  | .scalar value => some (deliver (.scalar value) outer)
  | .openArray => some (.firstItem outer)
  | .openObject => some (.firstName outer)
  | _ => none

/-- Reads a token where a name must come. -/
def startName (fields : List (String × Json)) (named : Bool) (outer : List Frame) :
    Token → Option State
  | .scalar (.text name) => some (.colon fields named (some name) outer)
  | .scalar .unpaired => some (.colon fields named none outer)
  | _ => none

/-- Reads one token. -/
def step : State → Token → Option State
  | .value outer, token => startValue outer token
  | .firstItem outer, .closeArray => some (deliver (.array []) outer)
  | .firstItem outer, token => startValue (.array [] :: outer) token
  | .firstName outer, .closeObject => some (deliver (.object []) outer)
  | .firstName outer, token => startName [] true outer token
  | .name fields named outer, token => startName fields named outer token
  | .colon fields named name outer, .colon => some (.value (.field fields named name :: outer))
  | .afterItem items outer, .comma => some (.value (.array items :: outer))
  | .afterItem items outer, .closeArray => some (deliver (.array items) outer)
  | .afterField fields named outer, .comma => some (.name fields named outer)
  | .afterField fields named outer, .closeObject => some (deliver (closed fields named) outer)
  | _, _ => none

/-- Reads tokens one after the other. -/
def run (state : State) : List Token → Option State
  | [] => some state
  | token :: rest => (step state token).bind fun next => run next rest

end Reader

/-- The value that a list of tokens spells. -/
def ofTokens? (tokens : List Token) : Option Json :=
  match Reader.run (.value []) tokens with
  | some (.done value) => some value
  | _ => none

/-- The value that a text spells, whether it can be read into a program or not. -/
def ofText? (text : String) : Option Json := (Lexer.run text.toList).bind ofTokens?

end Json

end SolutionWatch
