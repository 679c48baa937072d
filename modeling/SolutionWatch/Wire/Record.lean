import SolutionWatch.Json.Value

/-!
# Records on the wire

A record is written as an object with its fields in a fixed order. Three liberties are taken in
reading one: fields may come in any order, fields that the record does not have are passed over,
and an array with exactly the fields in their order will do as well. A field that comes twice, or
does not come, is refused.

A tagged record starts with a field that says which kind of record it is. Its tag may stand
anywhere among the fields, or first in an array, so the other fields are held back until it is
found; that takes values which can be read into a program.
-/

namespace SolutionWatch.Wire

open Json (Scalar)

/-- The values of the fields with the given names, in the order of the names. -/
def fields? (names : List String) : Json → Option (List (Option Json))
  | .array items => if items.length = names.length then some (items.map some) else none
  | .object fields =>
    if names.all fun name => (fields.filter fun f => f.1 = name).length ≤ 1 then
      some (names.map fun name => (fields.find? fun f => f.1 = name).map Prod.snd)
    else none
  | .scalar _ => none

/-- The tag of a tagged record, and the record without its tag. -/
def untag? (tag : String) : Json → Option (String × Json)
  | .array (.scalar (.text name) :: rest) => some (name, .array rest)
  | .object fields =>
    match fields.filter fun f => f.1 = tag with
    | [(_, .scalar (.text name))] => some (name, .object (fields.filter fun f => f.1 ≠ tag))
    | _ => none
  | _ => none

/-- The value of a field that has to come. -/
def required {α : Type} (read : Json → Option α) (value : Option Json) : Option α :=
  value.bind read

/-- The value of a field that may be left out or be `null`. -/
def optional {α : Type} (read : Json → Option α) : Option Json → Option (Option α)
  | none | some (.scalar .null) => some none
  | some value => (read value).map some

/-- Reads an array item by item. -/
def list {α : Type} (read : Json → Option α) : Json → Option (List α)
  | .array items => items.mapM read
  | _ => none

/-- Reads one of finitely many names. A name may also be given as the name of a single field that
is `null`, or, in a record that was held back, an empty object. -/
def oneOf {α : Type} (all : List α) (text : α → String) (held : Bool) : Json → Option α
  | .scalar (.text name) => all.find? fun a => text a = name
  | .object [(name, .scalar .null)] => all.find? fun a => text a = name
  | .object [(name, .object [])] => if held then all.find? fun a => text a = name else none
  | _ => none

/-- Reads a natural number of at most 64 bits. -/
def word64 : Json → Option UInt64
  | .scalar (.nat n) => if h : n < UInt64.size then some (UInt64.ofNatLT n h) else none
  | _ => none

/-- Reads a natural number of at most 32 bits. -/
def word32 : Json → Option UInt32
  | .scalar (.nat n) => if h : n < UInt32.size then some (UInt32.ofNatLT n h) else none
  | _ => none

end SolutionWatch.Wire
