/-!
# Number literals

A number literal is read as digits with an exponent. The digits are gathered in 64 bits: once the
next one does not fit, the digits after it are left out, and those of them that stand before the
point count towards the exponent. What was gathered and the power of ten are each rounded to a
double, and the literal is out of range if their product is not a finite double. So literals that
are close to the greatest double may fall on either side.

Nothing here computes with doubles: a double this large is a natural number.
-/

namespace SolutionWatch.Json.Number

/-- The value of a decimal digit. -/
def digit (c : Char) : Nat := c.toNat - '0'.toNat

/-- The number that a list of decimal digits stands for. -/
def ofDigits (digits : List Char) : Nat := digits.foldl (fun n c => 10 * n + digit c) 0

/-- Goes on gathering digits after `n` as long as they fit in 64 bits; also returns the digits that
are left out. -/
def gather (n : Nat) : List Char → Nat × List Char
  | [] => (n, [])
  | c :: rest =>
    if 10 * n + digit c < Nat.pow 2 64 then gather (10 * n + digit c) rest else (n, c :: rest)

/-- Nothing is left out of digits whose number fits in 64 bits with those gathered before. -/
theorem gather_append (n : Nat) (a b : List Char) (h : (gather n a).2 = []) :
    gather n (a ++ b) = gather (gather n a).1 b := by
  induction a generalizing n with
  | nil => rfl
  | cons c rest ih =>
    simp only [gather, List.cons_append] at h ⊢
    split at h
    · rename_i hc
      simp only [hc, if_true]
      exact ih _ h
    · simp at h

/-- The number with at most 53 binary digits before its zeros that is nearest to `n`; of two
neighbours equally near, the one whose last digit is even. -/
def rounded (n : Nat) : Nat :=
  let unit := Nat.pow 2 (n.log2 + 1 - 53)
  let below := n / unit * unit
  if 2 * (n % unit) < unit ∨ (2 * (n % unit) = unit ∧ n / unit % 2 = 0) then below
  else below + unit

/-- Small numbers are doubles already. -/
theorem rounded_eq_self {n : Nat} (h : n < Nat.pow 2 53) : rounded n = n := by
  have hlog : n.log2 + 1 - 53 = 0 := by
    rcases Nat.eq_zero_or_pos n with rfl | hn
    · decide
    · have : n.log2 < 53 := (Nat.log2_lt (by omega)).2 h
      omega
  simp [rounded, hlog, Nat.mod_one]

/-- The least number that no finite double is nearest to. -/
def bound : Nat := Nat.pow 2 1024 - Nat.pow 2 970

/-- Whether `significand · 10 ^ exponent` is out of range, with both factors rounded. -/
def isHuge (significand : Nat) (exponent : Int) : Bool :=
  significand != 0 && 0 ≤ exponent &&
    (308 < exponent || bound ≤ rounded significand * rounded (Nat.pow 10 exponent.toNat))

/-- Whether a literal with these digits before and after the point is out of range. -/
def outOfRange (whole fraction : List Char) (exponent : Int) : Bool :=
  let (significand, skipped) := gather 0 whole
  let (significand, dropped) := gather significand fraction
  isHuge significand (exponent + skipped.length - (fraction.length - dropped.length : Nat))

/-- The exponent part of a number literal; an absent one is zero. -/
def exponent? : List Char → Option Int
  | [] => some 0
  | e :: rest =>
    let unsigned := match rest with
      | '+' :: digits | '-' :: digits => digits
      | digits => digits
    if (e = 'e' ∨ e = 'E') ∧ unsigned ≠ [] ∧ unsigned.all Char.isDigit then
      some (if rest.head? = some '-' then -(ofDigits unsigned : Int) else ofDigits unsigned)
    else none

/-- The digits of the fraction of a number literal, and what follows them. -/
def fraction? : List Char → Option (List Char × List Char)
  | '.' :: rest =>
    if (rest.takeWhile Char.isDigit).isEmpty then none
    else some (rest.takeWhile Char.isDigit, rest.dropWhile Char.isDigit)
  | rest => some ([], rest)

/-- Whether a character can be part of a number literal. -/
def hasChar (c : Char) : Bool := c.isDigit || c ∈ ['-', '+', '.', 'e', 'E']

/-- Whether a number literal can start with a character. -/
def startsWith (c : Char) : Bool := c.isDigit || c == '-'

end SolutionWatch.Json.Number
