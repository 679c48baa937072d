import Mathlib.Data.List.Chain
import Mathlib.Data.List.Forall2
import Mathlib.Data.List.TakeWhile
import Mathlib.Tactic.FinCases
import SolutionWatch.Json.Value

/-!
# The texts of a value

A text spells a value if it consists of literals of the value's tokens, with blanks before, between
and after them as one likes. Most tokens have one literal; numbers that are not written with digits
only, and strings, whose characters can be escaped or not, have many. `Spells` says so as a grammar,
and whatever it allows is read as the value: so what a text is read as depends neither on its blanks
nor on the escapes in its strings.
-/

namespace SolutionWatch.Json

/-! ## Characters -/

/-- A digit is not the same as what is no digit. -/
theorem ne_of_isDigit {c d : Char} (hc : c.isDigit = true) (hd : d.isDigit = false) : c ≠ d := by
  rintro rfl
  exact Bool.false_ne_true (hd.symm.trans hc)

namespace Lexer

variable {state next : State} {c : Char} {rest : List Char}

/-- A character is read, and reading goes on. -/
theorem runFrom_step {tokens : List Token} (h : step state c = some (tokens, next)) :
    runFrom state (c :: rest) = (runFrom next rest).map (tokens ++ ·) := by
  rw [runFrom, h]
  cases hmore : runFrom next rest <;> simp [hmore]

/-- A character that completes no token is read, and reading goes on. -/
theorem runFrom_cons (h : step state c = some ([], next)) :
    runFrom state (c :: rest) = runFrom next rest :=
  (runFrom_step h).trans Option.map_id'

/-- While a word or a number is read, characters that it `goesOn` with are gathered; what was gathered
is read as a scalar where the text ends or another character comes. -/
structure Gathers (gathered : List Char → State) (goesOn : Char → Bool)
    (read : List Char → Option Scalar) : Prop where
  /-- Where another character comes. -/
  step_eq : ∀ chars c, step (gathered chars) c =
    if goesOn c then some ([], gathered (c :: chars)) else startAfter (read chars.reverse) c
  /-- Where the text ends. -/
  finish_eq : ∀ chars,
    finish (gathered chars) = (read chars.reverse).map fun value => [.scalar value]

/-- The letters of a word are gathered. -/
theorem gathers_word : Gathers .word Char.isLower word? := ⟨fun _ _ => rfl, fun _ => rfl⟩

/-- The characters of a number are gathered. -/
theorem gathers_number : Gathers .number Number.hasChar Number.read :=
  ⟨fun _ _ => rfl, fun _ => rfl⟩

namespace Gathers

variable {gathered : List Char → State} {goesOn : Char → Bool} {read : List Char → Option Scalar}

/-- Characters that a token goes on with are gathered. -/
theorem runFrom_append (h : Gathers gathered goesOn read) {more : List Char}
    (hmore : more.all goesOn = true) (chars : List Char) :
    runFrom (gathered chars) (more ++ rest) = runFrom (gathered (more.reverse ++ chars)) rest := by
  induction more generalizing chars with
  | nil => rfl
  | cons c more ih =>
    obtain ⟨hc, hmore⟩ : goesOn c = true ∧ more.all goesOn = true := by simpa using hmore
    have hstep : step (gathered chars) c = some ([], gathered (c :: chars)) := by
      rw [h.step_eq, if_pos hc]
    rw [List.cons_append, runFrom_cons hstep, ih hmore, List.reverse_cons, List.append_assoc]
    rfl

/-- What was gathered is read where the token does not go on. -/
theorem runFrom_eq (h : Gathers gathered goesOn read) {chars : List Char} {value : Scalar}
    (hread : read chars.reverse = some value) (hrest : ∀ c ∈ rest.head?, goesOn c = false) :
    runFrom (gathered chars) rest = (runFrom .between rest).map (.scalar value :: ·) := by
  cases rest with
  | nil =>
    rw [runFrom, h.finish_eq, hread]
    rfl
  | cons c rest =>
    rw [runFrom, h.step_eq, hrest c rfl, if_neg Bool.false_ne_true, hread, startAfter, runFrom, step]
    cases start c with
    | none => rfl
    | some result =>
      obtain ⟨tokens, next⟩ := result
      cases hmore : runFrom next rest <;> simp [hmore, bind, Option.bind, pure]

/-- A token that starts with `c` and goes on with `more` is read where it does not go on further. -/
theorem runFrom_cons_append (h : Gathers gathered goesOn read) {more : List Char} {value : Scalar}
    (hstart : step .between c = some ([], gathered [c])) (hmore : more.all goesOn = true)
    (hread : read (c :: more) = some value) (hrest : ∀ c ∈ rest.head?, goesOn c = false) :
    runFrom .between (c :: more ++ rest) = (runFrom .between rest).map (.scalar value :: ·) := by
  rw [List.cons_append, runFrom_cons hstart, h.runFrom_append hmore]
  exact h.runFrom_eq (by simpa using hread) hrest

end Gathers

/-- A digit starts a number. -/
theorem start_of_isDigit (h : c.isDigit = true) : start c = some ([], .number [c]) := by
  have hother : ∀ d : Char, d.isDigit = false → c ≠ d := fun d hd => ne_of_isDigit h hd
  simp (disch := decide) [start, isBlank, hother, Number.startsWith, h]

end Lexer

/-! ## Number literals -/

namespace Number

/-- One digit or more. -/
structure Digits (digits : List Char) : Prop where
  /-- There is one. -/
  ne_nil : digits ≠ []
  /-- They are digits. -/
  isDigit : ∀ c ∈ digits, c.isDigit = true

/-- The digits before the point of a number: a zero comes first only if no other digit follows. -/
structure Whole (digits : List Char) : Prop extends Digits digits where
  /-- More than one digit do not start with a zero. -/
  head?_ne : digits.length ≠ 1 → digits.head? ≠ some '0'

/-- The literals of a sign. -/
inductive Sign : List Char → Prop
  /-- None. -/
  | none : Sign []
  /-- A minus sign; there is no literal for the other one. -/
  | minus : Sign ['-']

/-- The literals of the fraction of a number, with its digits. -/
inductive Fraction : List Char → List Char → Prop
  /-- There is none. -/
  | none : Fraction [] []
  /-- Digits after a point. -/
  | point {digits : List Char} (hdigits : Digits digits) : Fraction digits ('.' :: digits)

/-- The literals of the exponent of a number. -/
inductive Exponent : ℤ → List Char → Prop
  /-- There is none. -/
  | none : Exponent 0 []
  /-- An exponent without a sign. -/
  | unsigned {e : Char} {digits : List Char} (letter : e = 'e' ∨ e = 'E')
    (hdigits : Digits digits) : Exponent (ofDigits digits) (e :: digits)
  /-- An exponent with a plus sign. -/
  | plus {e : Char} {digits : List Char} (letter : e = 'e' ∨ e = 'E')
    (hdigits : Digits digits) : Exponent (ofDigits digits) (e :: '+' :: digits)
  /-- An exponent with a minus sign. -/
  | minus {e : Char} {digits : List Char} (letter : e = 'e' ∨ e = 'E')
    (hdigits : Digits digits) : Exponent (-(ofDigits digits : ℤ)) (e :: '-' :: digits)

/-- The scalar of a number literal, given the digits before and after the point and the exponent. -/
def classify (literal whole fraction : List Char) (exponent : ℤ) : Scalar :=
  if outOfRange whole fraction exponent then .huge
  else if whole = literal then .nat (ofDigits whole)
  else .number literal

/-- The literals of a number, with the scalar that each of them is. -/
inductive Literal : Scalar → List Char → Prop
  /-- A sign, digits, a fraction and an exponent. -/
  | mk {sign whole fraction point power : List Char} {exponent : ℤ} (hsign : Sign sign)
    (hwhole : Whole whole) (hfraction : Fraction fraction point)
    (hexponent : Exponent exponent power) :
    Literal (classify (sign ++ (whole ++ (point ++ power))) whole fraction exponent)
      (sign ++ (whole ++ (point ++ power)))

section

variable {sign whole fraction point power digits rest : List Char} {exponent : ℤ} {value : Scalar}
  {literal : List Char}

/-- All of some digits are digits. -/
theorem Digits.all_isDigit (h : Digits digits) : digits.all Char.isDigit = true :=
  List.all_eq_true.mpr h.isDigit

/-- Digits start with a digit. -/
theorem Digits.exists_eq_cons (h : Digits digits) :
    ∃ c more, digits = c :: more ∧ c.isDigit = true := by
  cases digits with
  | nil => exact absurd rfl h.ne_nil
  | cons c more => exact ⟨c, more, rfl, h.isDigit c List.mem_cons_self⟩

/-- Neither a fraction nor an exponent starts with a digit. -/
theorem not_isDigit_of_head? (hfraction : Fraction fraction point)
    (hexponent : Exponent exponent power) :
    ∀ c ∈ (point ++ power).head?, c.isDigit = false := by
  rintro c hc
  cases hfraction with
  | point hdigits =>
    obtain rfl : '.' = c := by simpa using hc
    rfl
  | none =>
    cases hexponent with
    | none => simp at hc
    | unsigned letter | plus letter | minus letter =>
      rcases letter with rfl | rfl <;> (obtain rfl := by simpa using hc) <;> rfl

/-- Digits go on up to where something else comes. -/
theorem Digits.span_append (h : Digits digits) (hrest : ∀ c ∈ rest.head?, c.isDigit = false) :
    (digits ++ rest).takeWhile Char.isDigit = digits ∧
      (digits ++ rest).dropWhile Char.isDigit = rest := by
  rw [List.takeWhile_append_of_pos h.isDigit, List.dropWhile_append_of_pos h.isDigit]
  cases rest with
  | nil => simp
  | cons c rest =>
    have hc : c.isDigit = false := hrest c rfl
    simp [hc]

/-- The exponent of a number literal is read. -/
theorem Exponent.exponent?_eq (h : Exponent exponent power) : exponent? power = some exponent := by
  cases h with
  | none => rfl
  | unsigned letter hdigits =>
    obtain ⟨c, more, rfl, hc⟩ := hdigits.exists_eq_cons
    have hplus : c ≠ '+' := ne_of_isDigit hc rfl
    have hminus : c ≠ '-' := ne_of_isDigit hc rfl
    have hall := hdigits.all_isDigit
    rw [exponent?]
    simp [letter, hminus, hall]
    · exact fun _ h => hplus (List.cons.inj h).1
    · exact fun _ h => hminus (List.cons.inj h).1
  | plus letter hdigits => simp [exponent?, letter, hdigits.ne_nil, hdigits.all_isDigit]
  | minus letter hdigits => simp [exponent?, letter, hdigits.ne_nil, hdigits.all_isDigit]

/-- The fraction of a number literal is read, up to its exponent. -/
theorem Fraction.fraction?_append (hfraction : Fraction fraction point)
    (hexponent : Exponent exponent power) :
    fraction? (point ++ power) = some (fraction, power) := by
  cases hfraction with
  | point hdigits =>
    obtain ⟨htake, hdrop⟩ :=
      hdigits.span_append (not_isDigit_of_head? .none hexponent)
    simp only [List.cons_append, List.nil_append] at htake hdrop ⊢
    simp [fraction?, htake, hdrop, hdigits.ne_nil]
  | none =>
    cases hexponent with
    | none => rfl
    | unsigned letter | plus letter | minus letter => rcases letter with rfl | rfl <;> rfl

/-- What is made of the parts of a number literal is the scalar that they are classified as. -/
theorem bind_classify (literal whole fraction power : List Char) :
    ((exponent? power).bind fun exponent =>
      if outOfRange whole fraction exponent then some .huge
      else if whole = literal then some (.nat (ofDigits whole))
      else some (.number literal)) =
    (exponent? power).map fun exponent => classify literal whole fraction exponent := by
  cases exponent? power with
  | none => rfl
  | some exponent =>
    rw [Option.bind_some, Option.map_some, classify]
    split
    · rfl
    · split <;> rfl

/-- A number literal is read by what follows its sign. -/
theorem read_of_sign (hsign : Sign sign) (hwhole : Whole whole) (rest : List Char)
    (hrest : ∀ c ∈ rest.head?, c.isDigit = false) :
    read (sign ++ (whole ++ rest)) = (fraction? rest).bind fun parts =>
      (exponent? parts.2).map fun exponent =>
        classify (sign ++ (whole ++ rest)) whole parts.1 exponent := by
  obtain ⟨htake, hdrop⟩ := hwhole.span_append hrest
  have hwell : ¬(whole.isEmpty || (whole.length != 1 && whole.head? == some '0')) = true := by
    simpa [hwhole.ne_nil] using hwhole.head?_ne
  generalize hliteral : sign ++ (whole ++ rest) = literal
  unfold read
  cases hsign with
  | none =>
    rw [List.nil_append] at hliteral
    split
    · obtain ⟨c, more, rfl, hc⟩ := hwhole.exists_eq_cons
      exact absurd (List.cons.inj hliteral).1 (ne_of_isDigit hc rfl)
    · subst hliteral
      simp only [htake, hdrop]
      rw [if_neg hwell]
      exact congrArg (fraction? rest).bind (funext fun parts => bind_classify _ whole parts.1 parts.2)
  | minus =>
    subst hliteral
    simp only [List.cons_append, List.nil_append, htake, hdrop]
    rw [if_neg hwell]
    exact congrArg (fraction? rest).bind (funext fun parts => bind_classify _ whole parts.1 parts.2)

/-- A number literal is read as the scalar that it is. -/
theorem Literal.read_eq (h : Literal value literal) : read literal = some value := by
  obtain ⟨hsign, hwhole, hfraction, hexponent⟩ := h
  rw [read_of_sign hsign hwhole _ (not_isDigit_of_head? hfraction hexponent),
    hfraction.fraction?_append hexponent, Option.bind_some, hexponent.exponent?_eq, Option.map_some]

/-- Every character of a fraction can be part of a number literal. -/
theorem Fraction.all_hasChar (h : Fraction fraction point) : point.all hasChar = true := by
  cases h with
  | none => rfl
  | point hdigits =>
    have hall := hdigits.isDigit
    simp_all [hasChar]

/-- Every character of an exponent can be part of a number literal. -/
theorem Exponent.all_hasChar (h : Exponent exponent power) : power.all hasChar = true := by
  cases h with
  | none => rfl
  | unsigned letter hdigits | plus letter hdigits | minus letter hdigits =>
    have hall := hdigits.isDigit
    rcases letter with rfl | rfl <;> simp_all [hasChar]

/-- A number literal is a character that a number starts with and others that it can go on with. -/
theorem Literal.exists_eq_cons (h : Literal value literal) :
    ∃ c more, literal = c :: more ∧ Lexer.step .between c = some ([], .number [c]) ∧
      more.all hasChar = true := by
  obtain ⟨hsign, hwhole, hfraction, hexponent⟩ := h
  obtain ⟨c, more, rfl, hc⟩ := hwhole.exists_eq_cons
  have hdigits : (c :: more).all hasChar = true := List.all_eq_true.mpr fun d hd => by
    simp [hasChar, hwhole.isDigit d hd]
  cases hsign with
  | none =>
    refine ⟨c, _, rfl, Lexer.start_of_isDigit hc, ?_⟩
    simp_all [hfraction.all_hasChar, hexponent.all_hasChar]
  | minus =>
    refine ⟨'-', _, rfl, rfl, ?_⟩
    simp_all [hfraction.all_hasChar, hexponent.all_hasChar]

end

end Number

/-! ## String literals -/

/-- The literals of what stands in a string. -/
inductive TextPart.Literal : TextPart → List Char → Prop
  /-- A character that stands for itself. -/
  | plain {c : Char} (quote : c ≠ '"') (backslash : c ≠ '\\') (control : ¬c.toNat < 0x20) :
    Literal (.char c) [c]
  /-- A short escape. -/
  | escape {c e : Char} (short : Lexer.escape? e = some c) : Literal (.char c) ['\\', e]
  /-- A code unit in four hexadecimal digits. -/
  | unit {c₀ c₁ c₂ c₃ : Char} {d₀ d₁ d₂ d₃ : ℕ} (first : Lexer.hexDigit? c₀ = some d₀)
    (second : Lexer.hexDigit? c₁ = some d₁) (third : Lexer.hexDigit? c₂ = some d₂)
    (fourth : Lexer.hexDigit? c₃ = some d₃) :
    Literal (.unit (16 * (16 * (16 * d₀ + d₁) + d₂) + d₃)) ['\\', 'u', c₀, c₁, c₂, c₃]

namespace Lexer

variable {rest literal : List Char} {part : TextPart}

/-- What stands in a string is read. -/
theorem runFrom_part (h : part.Literal literal) (parts : List TextPart) :
    runFrom (.text parts) (literal ++ rest) = runFrom (.text (part :: parts)) rest := by
  cases h with
  | @plain c quote backslash control =>
    have hstep : step (.text parts) c = some ([], .text (.char c :: parts)) := by
      rw [step, if_neg quote, if_neg backslash, if_neg control]
    rw [List.singleton_append, runFrom_cons hstep]
  | @escape c e short =>
    have hu : e ≠ 'u' := by
      rintro rfl
      cases short
    have hbackslash : step (.text parts) '\\' = some ([], .escape parts) := rfl
    have hescape : step (.escape parts) e = some ([], .text (.char c :: parts)) := by
      rw [step, if_neg hu, short]
      rfl
    simp only [List.cons_append, List.nil_append]
    rw [runFrom_cons hbackslash, runFrom_cons hescape]
  | @unit c₀ c₁ c₂ c₃ d₀ d₁ d₂ d₃ first second third fourth =>
    have hbackslash : step (.text parts) '\\' = some ([], .escape parts) := rfl
    have hu : step (.escape parts) 'u' = some ([], .unit parts 0 0) := rfl
    have h₀ : step (.unit parts 0 0) c₀ = some ([], .unit parts 1 d₀) := by simp [step, first]
    have h₁ : step (.unit parts 1 d₀) c₁ = some ([], .unit parts 2 (16 * d₀ + d₁)) := by
      simp [step, second]
    have h₂ : step (.unit parts 2 (16 * d₀ + d₁)) c₂ =
        some ([], .unit parts 3 (16 * (16 * d₀ + d₁) + d₂)) := by
      simp [step, third]
    have h₃ : step (.unit parts 3 (16 * (16 * d₀ + d₁) + d₂)) c₃ =
        some ([], .text (.unit (16 * (16 * (16 * d₀ + d₁) + d₂) + d₃) :: parts)) := by
      simp [step, fourth]
    simp only [List.cons_append, List.nil_append]
    rw [runFrom_cons hbackslash, runFrom_cons hu, runFrom_cons h₀, runFrom_cons h₁,
      runFrom_cons h₂, runFrom_cons h₃]

/-- What stands in a string is read, part by part. -/
theorem runFrom_parts {parts : List TextPart} {literals : List (List Char)}
    (h : List.Forall₂ TextPart.Literal parts literals) (earlier : List TextPart) :
    runFrom (.text earlier) (literals.flatten ++ rest) =
      runFrom (.text (parts.reverse ++ earlier)) rest := by
  induction h generalizing earlier with
  | nil => rfl
  | cons hpart _ ih =>
    rw [List.flatten_cons, List.append_assoc, runFrom_part hpart, ih, List.reverse_cons,
      List.append_assoc]
    rfl

end Lexer

/-! ## Tokens -/

/-- Whether a token is punctuation. -/
def Token.isMark : Token → Bool
  | .scalar _ => false
  | _ => true

/-- The text ends, or it goes on with a character that is part of no word and no number. -/
def Lexer.EndsToken (rest : List Char) : Prop :=
  ∀ c ∈ rest.head?, c.isLower = false ∧ Number.hasChar c = false

/-- Two tokens that can be told apart when nothing stands between them. -/
def Token.Apart (token next : Token) : Prop := token.isMark ∨ next.isMark

/-- Punctuation is a single character that starts no other token and goes on with none. -/
theorem Token.exists_spell_of_isMark {token : Token} (h : token.isMark = true) :
    ∃ c, token.spell = [c] ∧ Lexer.step .between c = some ([token], .between) ∧
      c.isLower = false ∧ Number.hasChar c = false := by
  cases token with
  | openObject => exact ⟨'\x7b', rfl, rfl, rfl, rfl⟩
  | closeObject => exact ⟨'\x7d', rfl, rfl, rfl, rfl⟩
  | openArray => exact ⟨'[', rfl, rfl, rfl, rfl⟩
  | closeArray => exact ⟨']', rfl, rfl, rfl, rfl⟩
  | colon => exact ⟨':', rfl, rfl, rfl, rfl⟩
  | comma => exact ⟨',', rfl, rfl, rfl, rfl⟩
  | scalar value => exact absurd h Bool.false_ne_true

/-- The literals of a scalar. -/
inductive Scalar.Literal : Scalar → List Char → Prop
  /-- The literal `null`. -/
  | null : Literal .null ['n', 'u', 'l', 'l']
  /-- The literal `true`. -/
  | true : Literal (.bool true) ['t', 'r', 'u', 'e']
  /-- The literal `false`. -/
  | false : Literal (.bool false) ['f', 'a', 'l', 's', 'e']
  /-- A number. -/
  | number {value : Scalar} {literal : List Char} (number : Number.Literal value literal) :
    Literal value literal
  /-- A string: literals of its parts between quotes. -/
  | text {parts : List TextPart} {literals : List (List Char)}
    (hparts : List.Forall₂ TextPart.Literal parts literals) :
    Literal (TextPart.toScalar parts) ('"' :: (literals.flatten ++ ['"']))

/-- The literals of a token: punctuation has one. -/
inductive Token.Literal : Token → List Char → Prop
  /-- Punctuation. -/
  | mark {token : Token} (mark : token.isMark = true) : Literal token token.spell
  /-- A scalar. -/
  | scalar {value : Scalar} {literal : List Char} (scalar : value.Literal literal) :
    Literal (.scalar value) literal

namespace Lexer

variable {rest literal : List Char}

/-- Punctuation is read back, whatever comes next. -/
theorem runFrom_mark {token : Token} (h : token.isMark = true) :
    runFrom .between (token.spell ++ rest) = (runFrom .between rest).map (token :: ·) := by
  obtain ⟨c, hspell, hstart, -⟩ := Token.exists_spell_of_isMark h
  rw [hspell]
  exact runFrom_step hstart

/-- Punctuation ends the token before it. -/
theorem endsToken_mark {token : Token} (h : token.isMark = true) :
    EndsToken (token.spell ++ rest) := by
  obtain ⟨c, hspell, -, hends⟩ := Token.exists_spell_of_isMark h
  rintro d hd
  obtain rfl : c = d := by simpa [hspell] using hd
  exact hends

/-- A literal of a scalar is read as the scalar where the token ends. -/
theorem runFrom_literal {value : Scalar} (h : value.Literal literal) (hrest : EndsToken rest) :
    runFrom .between (literal ++ rest) = (runFrom .between rest).map (.scalar value :: ·) := by
  have hlower : ∀ c ∈ rest.head?, c.isLower = false := fun c hc => (hrest c hc).1
  cases h with
  | null => exact gathers_word.runFrom_cons_append rfl rfl rfl hlower
  | true => exact gathers_word.runFrom_cons_append rfl rfl rfl hlower
  | false => exact gathers_word.runFrom_cons_append rfl rfl rfl hlower
  | number hnumber =>
    obtain ⟨c, more, rfl, hstart, hmore⟩ := hnumber.exists_eq_cons
    exact gathers_number.runFrom_cons_append hstart hmore hnumber.read_eq fun c hc => (hrest c hc).2
  | @text parts literals hparts =>
    have hopen : step .between '"' = some ([], .text []) := rfl
    have hclose : step (.text parts.reverse) '"' =
        some ([.scalar (TextPart.toScalar parts)], .between) := by
      simp [step]
    rw [List.cons_append, runFrom_cons hopen, List.append_assoc, runFrom_parts hparts,
      List.append_nil, List.singleton_append, runFrom_step hclose]
    rfl

end Lexer

/-! ## Texts -/

/-- A text spells tokens: there is a literal of each of them, with blanks before and after it. -/
inductive Spells : List Token → List Char → Prop
  /-- Where no token is left, blanks may be. -/
  | nil {blanks : List Char} (hblanks : blanks.all Lexer.isBlank = true) : Spells [] blanks
  /-- A token may have blanks before it. -/
  | cons {token : Token} {tokens : List Token} {blanks literal text : List Char}
    (hblanks : blanks.all Lexer.isBlank = true) (hliteral : token.Literal literal)
    (htext : Spells tokens text) : Spells (token :: tokens) (blanks ++ (literal ++ text))

namespace Lexer

variable {rest text : List Char}

/-- Blanks are passed over. -/
theorem runFrom_blanks {blanks : List Char} (h : blanks.all isBlank = true) :
    runFrom .between (blanks ++ rest) = runFrom .between rest := by
  induction blanks with
  | nil => rfl
  | cons c blanks ih =>
    obtain ⟨hc, hblanks⟩ : isBlank c = true ∧ blanks.all isBlank = true := by simpa using h
    have hstep : step .between c = some ([], .between) := by rw [step, start, if_pos hc]
    rw [List.cons_append, runFrom_cons hstep, ih hblanks]

/-- A blank belongs to no word and no number. -/
theorem not_goesOn_of_isBlank {c : Char} (h : isBlank c = true) :
    c.isLower = false ∧ Number.hasChar c = false := by
  have hmem : c ∈ [' ', '\n', '\t', '\r'] := by simpa [isBlank] using h
  fin_cases hmem <;> exact ⟨rfl, rfl⟩

/-- A token ends where blanks come before something that ends it. -/
theorem endsToken_blanks {blanks : List Char} (h : blanks.all isBlank = true)
    (hrest : EndsToken rest) : EndsToken (blanks ++ rest) := by
  cases blanks with
  | nil => exact hrest
  | cons c blanks =>
    rintro d hd
    obtain rfl : c = d := by simpa using hd
    exact not_goesOn_of_isBlank (List.all_eq_true.mp h _ List.mem_cons_self)

/-- A token ends where a text begins that spells nothing or starts with punctuation. -/
theorem endsToken_of_spells {tokens : List Token} (h : Spells tokens text)
    (hmark : ∀ token ∈ tokens.head?, token.isMark = true) : EndsToken text := by
  cases h with
  | nil hblanks =>
    have hnil : EndsToken [] := fun c hc => absurd hc (by simp)
    simpa using endsToken_blanks hblanks hnil
  | cons hblanks hliteral htext =>
    refine endsToken_blanks hblanks ?_
    cases hliteral with
    | mark hmark => exact endsToken_mark hmark
    | scalar => exact absurd (hmark _ rfl) Bool.false_ne_true

/-- Tokens that can be told apart are read from every text that spells them. -/
theorem run_of_spells {tokens : List Token} (h : Spells tokens text)
    (hapart : tokens.IsChain Token.Apart) : run text = some tokens := by
  change runFrom .between _ = _
  induction h with
  | @nil blanks hblanks =>
    rw [← List.append_nil blanks, runFrom_blanks hblanks]
    rfl
  | @cons token tokens blanks literal text hblanks hliteral htext ih =>
    have hmore : runFrom .between text = some tokens := ih (List.isChain_cons.mp hapart).2
    rw [runFrom_blanks hblanks]
    suffices h : runFrom .between (literal ++ text) =
        (runFrom .between text).map (token :: ·) by
      rw [h, hmore, Option.map_some]
    cases hliteral with
    | mark hmark => exact runFrom_mark hmark
    | scalar hscalar =>
      -- Only a scalar needs an end, and what comes after one is punctuation.
      refine runFrom_literal hscalar (endsToken_of_spells htext fun next hnext => ?_)
      exact ((List.isChain_cons.mp hapart).1 next hnext).resolve_left Bool.false_ne_true

end Lexer

end SolutionWatch.Json
