import SolutionWatch.Id
import SolutionWatch.Json.Number

/-!
# The tokens of JSON text

A JSON text is a sequence of tokens: punctuation and scalars, with blanks between them. `Lexer.run`
reads a text with a finite automaton that keeps what it has seen of the current token, so reading a
text in two pieces is reading the first and going on with the second. `Token.spell` writes a token
with as few escapes as the format allows.

Two literals are well formed and still stand for no value: a string with half of a surrogate pair,
and a number out of the range of doubles. They are tokens of their own, because a reader that
passes over a value must accept them while one that wants the value must not.
-/

namespace SolutionWatch.Json

/-- A value without parts. -/
inductive Scalar where
  /-- The literal `null`. -/
  | null
  /-- A truth value. -/
  | bool (b : Bool)
  /-- A number written with digits only. -/
  | nat (n : Nat)
  /-- Any other number in the range of doubles, as it was written. -/
  | number (literal : List Char)
  /-- A number out of the range of doubles. -/
  | huge
  /-- A string. -/
  | text (s : String)
  /-- A string literal that names half of a surrogate pair. -/
  | unpaired
  deriving DecidableEq, Repr

/-- A unit of JSON text. -/
inductive Token where
  /-- The start of an object. -/
  | openObject
  /-- The end of an object. -/
  | closeObject
  /-- The start of an array. -/
  | openArray
  /-- The end of an array. -/
  | closeArray
  /-- What stands between a key and its value. -/
  | colon
  /-- What stands between two values or fields. -/
  | comma
  /-- A scalar. -/
  | scalar (value : Scalar)
  deriving DecidableEq, Repr

/-- What a string literal holds: a character, or a code unit written in hexadecimal. -/
inductive TextPart where
  /-- A character, written plainly or with a short escape. -/
  | char (c : Char)
  /-- A UTF-16 code unit. -/
  | unit (n : Nat)
  deriving DecidableEq, Repr

namespace TextPart

/-- Whether a code unit is the first half of a surrogate pair. -/
def isHigh (n : Nat) : Bool := 0xD800 ≤ n && n < 0xDC00

/-- Whether a code unit is the second half of a surrogate pair. -/
def isLow (n : Nat) : Bool := 0xDC00 ≤ n && n < 0xE000

/-- The characters that the parts of a literal stand for, unless half of a pair stands alone. -/
def assemble : List TextPart → Option (List Char)
  | [] => some []
  | .char c :: rest => (assemble rest).map (c :: ·)
  | .unit high :: .unit low :: rest =>
    if isHigh high then
      if isLow low then
        (assemble rest).map
          (Char.ofNat (0x10000 + (high - 0xD800) * 0x400 + (low - 0xDC00)) :: ·)
      else none
    else if isLow high then none
    else (assemble (.unit low :: rest)).map (Char.ofNat high :: ·)
  | .unit n :: rest =>
    if isHigh n || isLow n then none else (assemble rest).map (Char.ofNat n :: ·)

/-- The scalar of a string literal. -/
def toScalar (parts : List TextPart) : Scalar :=
  match assemble parts with
  | some chars => .text (String.ofList chars)
  | none => .unpaired

end TextPart

namespace Number

/-- The scalar of a number literal, if it is well formed. -/
def read (literal : List Char) : Option Scalar := do
  let unsigned := match literal with
    | '-' :: rest => rest
    | rest => rest
  let whole := unsigned.takeWhile Char.isDigit
  if whole.isEmpty || (whole.length != 1 && whole.head? == some '0') then none
  else
    let (fraction, rest) ← fraction? (unsigned.dropWhile Char.isDigit)
    let exponent ← exponent? rest
    if outOfRange whole fraction exponent then some .huge
    else if whole = literal then some (.nat (ofDigits whole))
    else some (.number literal)

end Number

namespace Lexer

/-- Whether a character is a blank. -/
def isBlank (c : Char) : Bool := c ∈ [' ', '\n', '\t', '\r']

/-- What has been read of the current token. -/
inductive State where
  /-- Nothing. -/
  | between
  /-- The letters of a word, last first. -/
  | word (letters : List Char)
  /-- The characters of a number, last first. -/
  | number (chars : List Char)
  /-- The parts of a string literal, last first. -/
  | text (parts : List TextPart)
  /-- The same, and a backslash. -/
  | escape (parts : List TextPart)
  /-- The same, and `digits` hexadecimal digits that stand for `value`. -/
  | unit (parts : List TextPart) (digits value : Nat)
  deriving DecidableEq, Repr

/-- The scalar of a word. -/
def word? (letters : List Char) : Option Scalar :=
  if letters = ['n', 'u', 'l', 'l'] then some .null
  else if letters = ['t', 'r', 'u', 'e'] then some (.bool true)
  else if letters = ['f', 'a', 'l', 's', 'e'] then some (.bool false)
  else none

/-- The character that a short escape stands for. -/
def escape? : Char → Option Char
  | '"' => some '"'
  | '\\' => some '\\'
  | '/' => some '/'
  | 'b' => some '\x08'
  | 'f' => some '\x0c'
  | 'n' => some '\n'
  | 'r' => some '\r'
  | 't' => some '\t'
  | _ => none

/-- The value of a hexadecimal digit. -/
def hexDigit? (c : Char) : Option Nat :=
  if c.isDigit then some (c.toNat - '0'.toNat)
  else if 'a' ≤ c ∧ c ≤ 'f' then some (c.toNat - 'a'.toNat + 10)
  else if 'A' ≤ c ∧ c ≤ 'F' then some (c.toNat - 'A'.toNat + 10)
  else none

/-- Reads a character where a token may start. -/
def start (c : Char) : Option (List Token × State) :=
  if isBlank c then some ([], .between)
  else if c = '\x7b' then some ([.openObject], .between)
  else if c = '\x7d' then some ([.closeObject], .between)
  else if c = '[' then some ([.openArray], .between)
  else if c = ']' then some ([.closeArray], .between)
  else if c = ':' then some ([.colon], .between)
  else if c = ',' then some ([.comma], .between)
  else if c = '"' then some ([], .text [])
  else if Number.startsWith c then some ([], .number [c])
  else if c.isLower then some ([], .word [c])
  else none

/-- Reads a character after a token that ends before it. -/
def startAfter (value : Option Scalar) (c : Char) : Option (List Token × State) := do
  let value ← value
  let (tokens, state) ← start c
  return (.scalar value :: tokens, state)

/-- Reads one character: the tokens that it completes and what is known after it. -/
def step (state : State) (c : Char) : Option (List Token × State) :=
  match state with
  | .between => start c
  | .word letters =>
    if c.isLower then some ([], .word (c :: letters)) else startAfter (word? letters.reverse) c
  | .number chars =>
    if Number.hasChar c then some ([], .number (c :: chars))
    else startAfter (Number.read chars.reverse) c
  | .text parts =>
    if c = '"' then some ([.scalar (TextPart.toScalar parts.reverse)], .between)
    else if c = '\\' then some ([], .escape parts)
    else if c.toNat < 0x20 then none
    else some ([], .text (.char c :: parts))
  | .escape parts =>
    if c = 'u' then some ([], .unit parts 0 0)
    else (escape? c).map fun e => ([], .text (.char e :: parts))
  | .unit parts digits value =>
    (hexDigit? c).map fun d =>
      if digits = 3 then ([], .text (.unit (16 * value + d) :: parts))
      else ([], .unit parts (digits + 1) (16 * value + d))

/-- The token that the end of a text completes. -/
def finish : State → Option (List Token)
  | .between => some []
  | .word letters => (word? letters.reverse).map fun value => [.scalar value]
  | .number chars => (Number.read chars.reverse).map fun value => [.scalar value]
  | _ => none

/-- The tokens of a text of which some was read before. -/
def runFrom (state : State) : List Char → Option (List Token)
  | [] => finish state
  | c :: rest => do
    let (tokens, next) ← step state c
    let more ← runFrom next rest
    return tokens ++ more

/-- The tokens of a text. -/
def run (text : List Char) : Option (List Token) := runFrom .between text

end Lexer

/-- The spelling of a character inside a string literal. -/
def spellChar (c : Char) : List Char :=
  if c = '"' then ['\\', '"']
  else if c = '\\' then ['\\', '\\']
  else if c = '\x08' then ['\\', 'b']
  else if c = '\x0c' then ['\\', 'f']
  else if c = '\n' then ['\\', 'n']
  else if c = '\r' then ['\\', 'r']
  else if c = '\t' then ['\\', 't']
  else if c.toNat < 0x20 then
    ['\\', 'u', '0', '0', Nat.digitChar (c.toNat / 16), Nat.digitChar (c.toNat % 16)]
  else [c]

/-- The spelling of a string. -/
def spellText (s : String) : List Char := '"' :: (s.toList.flatMap spellChar ++ ['"'])

/-- The spelling of a scalar. -/
def Scalar.spell : Scalar → List Char
  | .null => ['n', 'u', 'l', 'l']
  | .bool true => ['t', 'r', 'u', 'e']
  | .bool false => ['f', 'a', 'l', 's', 'e']
  | .nat n => Nat.toDigits 10 n
  | .number literal => literal
  | .huge => ['1', 'e', '9', '9', '9']
  | .text s => spellText s
  | .unpaired => ['"', '\\', 'u', 'd', '8', '0', '0', '"']

/-- The spelling of a token. -/
def Token.spell : Token → List Char
  | .openObject => ['\x7b']
  | .closeObject => ['\x7d']
  | .openArray => ['[']
  | .closeArray => [']']
  | .colon => [':']
  | .comma => [',']
  | .scalar value => value.spell

end SolutionWatch.Json
