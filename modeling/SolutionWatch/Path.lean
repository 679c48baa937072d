/-!
# File paths compared by component

A path is kept exactly as it was given, but two spellings of one path are the same path: repeated
slashes, a slash at the end and a `.` that is not the first component carry no meaning. `..` is a
component like any other, and an absolute path differs from a relative one.

`Path.normal` is the shortest spelling of a path; two paths are the same when their normal
spellings are equal.

`Path.imprint` is what the checksum of a snapshot sees of a path: its names run together, and their
lengths mixed into one word. It no longer tells an absolute path from a relative one, and a few
paths of several names leave one imprint.
-/

namespace SolutionWatch

/-- A file path as it was given. -/
structure Path where
  /-- The spelling of the path. -/
  text : String
  deriving DecidableEq, Repr, Inhabited

namespace Path

/-- A part of a path that carries meaning. -/
inductive Component where
  /-- The slash that an absolute path starts with. -/
  | root
  /-- A `.` that a relative path starts with. -/
  | here
  /-- The name of a file or directory, `..` included. -/
  | name (chars : List Char)
  deriving DecidableEq, Repr

/-- The pieces of a text between its slashes; there is always at least one. -/
def segments : List Char → List (List Char)
  | [] => [[]]
  | '/' :: rest => [] :: segments rest
  | c :: rest =>
    match segments rest with
    | [] => [[c]]
    | piece :: pieces => (c :: piece) :: pieces

/-- The pieces that are names: neither empty nor `.`. -/
def namesOf (pieces : List (List Char)) : List Component :=
  (pieces.filter fun piece => piece ≠ [] ∧ piece ≠ ['.']).map .name

/-- The components of a spelling. -/
def componentsOf (chars : List Char) : List Component :=
  match chars with
  | '/' :: rest => .root :: namesOf (segments rest)
  | _ =>
    match segments chars with
    | ['.'] :: pieces => .here :: namesOf pieces
    | pieces => namesOf pieces

/-- The components of a path. -/
def components (path : Path) : List Component := componentsOf path.text.toList

/-- The spelling of a component on its own. -/
def Component.chars : Component → List Char
  | .root => []
  | .here => ['.']
  | .name chars => chars

/-- A list of components joined by single slashes. -/
def spell : List Component → List Char
  | [] => []
  | [.root] => ['/']
  | [c] => c.chars
  | c :: rest => c.chars ++ '/' :: spell rest

/-- The shortest spelling of a path. -/
def normal (path : Path) : Path := ⟨String.ofList (spell path.components)⟩

/-- The names of a path; a `.` that it starts with is one of them. -/
def names (path : Path) : List (List Char) :=
  (path.components.filter fun c => c ≠ .root).map Component.chars

/-- The lengths of some names in bytes, mixed into one word: each in turn is added, and the word is
turned to the right by two bits. -/
def mixedLengths (names : List (List Char)) : UInt64 :=
  names.foldl (fun word name =>
    let word := word + (String.ofList name).utf8ByteSize.toUInt64
    (word >>> 2) ||| (word <<< 62)) 0

/-- A spelling of what the checksum of a snapshot sees of a path. -/
def imprint (path : Path) : Path :=
  ⟨String.ofList path.names.flatten ++ "/" ++ toString (mixedLengths path.names)⟩

end Path

end SolutionWatch
