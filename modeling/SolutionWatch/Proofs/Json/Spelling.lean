import Mathlib.Tactic.IntervalCases
import SolutionWatch.Proofs.Json.Grammar

/-!
# Spelling tokens

What `Token.spell` writes is a literal of the token: numbers that fit in 64 bits, strings of any
characters, words and punctuation. So what is written for tokens spells them, also with blanks
before each of them.
-/

namespace SolutionWatch.Json

/-! ## Numbers -/

namespace Number

/-- Reading on makes a number no smaller. -/
theorem le_ofDigitChars (n : ℕ) (digits : List Char) : n ≤ Nat.ofDigitChars 10 digits n := by
  induction digits generalizing n with
  | nil => exact Nat.le_refl n
  | cons c rest ih =>
    calc n ≤ 10 * n + (c.toNat - '0'.toNat) := by omega
      _ ≤ Nat.ofDigitChars 10 (c :: rest) n := ih _

/-- The digits of a number that fits in 64 bits are all gathered. -/
theorem gather_of_lt {n : ℕ} {digits : List Char}
    (h : Nat.ofDigitChars 10 digits n < Nat.pow 2 64) :
    gather n digits = (Nat.ofDigitChars 10 digits n, []) := by
  induction digits generalizing n with
  | nil => rfl
  | cons c rest ih =>
    have hfits : 10 * n + digit c < Nat.pow 2 64 := Nat.lt_of_le_of_lt (le_ofDigitChars _ rest) h
    rw [gather, if_pos hfits]
    exact ih h

/-- Rounding does not double a number. -/
theorem rounded_le (n : ℕ) : rounded n ≤ 2 * n := by
  rcases Nat.eq_zero_or_pos n with rfl | hpos
  · decide
  · have hunit : Nat.pow 2 (n.log2 + 1 - 53) ≤ n :=
      calc 2 ^ (n.log2 + 1 - 53) ≤ 2 ^ n.log2 := Nat.pow_le_pow_right (by omega) (by omega)
        _ ≤ n := Nat.log2_self_le (by omega)
    have hbelow : n / Nat.pow 2 (n.log2 + 1 - 53) * Nat.pow 2 (n.log2 + 1 - 53) ≤ n :=
      Nat.div_mul_le_self n _
    unfold rounded
    dsimp only
    split <;> omega

/-- A number that fits in 64 bits is in the range of doubles. -/
theorem not_isHuge {n : ℕ} (h : n < Nat.pow 2 64) : isHuge n 0 = false := by
  have hbound : 2 * Nat.pow 2 64 < bound := by decide +kernel
  have hone : rounded (Nat.pow 10 (0 : ℤ).toNat) = 1 := by decide
  have hrounded := rounded_le n
  unfold isHuge
  rw [hone]
  simp
  omega

/-- The digits of a number are digits. -/
theorem all_isDigit_toDigits (n : ℕ) : ∀ c ∈ Nat.toDigits 10 n, c.isDigit = true :=
  fun _ hc => Nat.isDigit_of_mem_toDigits (by omega) (by omega) hc

/-- A positive number does not start with a zero. -/
theorem head?_toDigits_ne {n : ℕ} (hpos : 0 < n) : (Nat.toDigits 10 n).head? ≠ some '0' := by
  induction n using Nat.strong_induction_on with
  | _ n ih =>
    by_cases hsmall : n < 10
    · rw [Nat.toDigits_of_lt_base hsmall, List.head?_cons, ne_eq, Option.some_inj,
        Nat.digitChar_eq_zero]
      omega
    · rw [Nat.toDigits_of_base_le (by omega) (by omega)]
      cases hfirst : Nat.toDigits 10 (n / 10) with
      | nil => exact absurd hfirst Nat.toDigits_ne_nil
      | cons c rest =>
        have hhead := ih (n / 10) (by omega) (by omega)
        rwa [hfirst] at hhead

/-- A number of more than one digit does not start with a zero. -/
theorem head?_toDigits {n : ℕ} (h : (Nat.toDigits 10 n).length ≠ 1) :
    (Nat.toDigits 10 n).head? ≠ some '0' := by
  rcases Nat.eq_zero_or_pos n with rfl | hpos
  · exact absurd rfl h
  · exact head?_toDigits_ne hpos

/-- The digits of a number of at most 64 bits are a literal of it. -/
theorem literal_toDigits {n : ℕ} (h : n < Nat.pow 2 64) :
    Literal (.nat n) (Nat.toDigits 10 n) := by
  have hvalue : Nat.ofDigitChars 10 (Nat.toDigits 10 n) 0 = n := Nat.ofDigitChars_ten_toDigits
  have hgather : gather 0 (Nat.toDigits 10 n) = (n, []) := by
    rw [gather_of_lt (by rwa [hvalue]), hvalue]
  have hrange : outOfRange (Nat.toDigits 10 n) [] 0 = false := by
    simp [outOfRange, hgather, gather, not_isHuge h]
  have hwhole : Whole (Nat.toDigits 10 n) :=
    ⟨⟨Nat.toDigits_ne_nil, all_isDigit_toDigits n⟩, head?_toDigits⟩
  have hclassify : classify (Nat.toDigits 10 n) (Nat.toDigits 10 n) [] 0 = .nat n := by
    rw [classify, hrange, if_neg Bool.false_ne_true, if_pos rfl]
    exact congrArg Scalar.nat hvalue
  simpa [hclassify] using Literal.mk .none hwhole .none .none

end Number

/-! ## Strings -/

/-- A hexadecimal digit is read as what it was written for. -/
theorem Lexer.hexDigit?_digitChar {n : ℕ} (h : n < 16) :
    hexDigit? (Nat.digitChar n) = some n := by
  interval_cases n <;> rfl

namespace TextPart

/-- What the spelling of a character is read as: control characters that have no short escape are
spelled as code units. -/
def ofChar (c : Char) : TextPart :=
  if c.toNat < 0x20 ∧ c ∉ ['\x08', '\x0c', '\n', '\r', '\t'] then .unit c.toNat else .char c

/-- A code unit of a control character stands for the character. -/
theorem assemble_unit {n : ℕ} (h : n < 0x20) (rest : List TextPart) :
    assemble (.unit n :: rest) = (assemble rest).map (Char.ofNat n :: ·) := by
  have hhigh : isHigh n = false := by simp [isHigh]; omega
  have hlow : isLow n = false := by simp [isLow]; omega
  cases rest with
  | nil => simp [assemble, hhigh, hlow]
  | cons part rest =>
    cases part with
    | char c => simp [assemble, hhigh, hlow]
    | unit low => simp [assemble, hhigh, hlow]

/-- What characters are read as stands for them. -/
theorem assemble_ofChar (chars : List Char) : assemble (chars.map ofChar) = some chars := by
  induction chars with
  | nil => rfl
  | cons c rest ih =>
    rw [List.map_cons, ofChar]
    split
    · next hcontrol => rw [assemble_unit hcontrol.1, ih, Option.map_some, Char.ofNat_toNat]
    · rw [assemble, ih, Option.map_some]

/-- The spelling of a character is a literal of what it is read as. -/
theorem literal_spellChar (c : Char) : (TextPart.ofChar c).Literal (spellChar c) := by
  by_cases hshort : c ∈ ['"', '\\', '\x08', '\x0c', '\n', '\r', '\t']
  · fin_cases hshort <;> exact .escape rfl
  · obtain ⟨hquote, hbackslash, hb, hf, hn, hr, ht⟩ := by simpa using hshort
    by_cases hcontrol : c.toNat < 0x20
    · have hspell : spellChar c =
          ['\\', 'u', '0', '0', Nat.digitChar (c.toNat / 16), Nat.digitChar (c.toNat % 16)] := by
        simp [spellChar, hquote, hbackslash, hb, hf, hn, hr, ht, hcontrol]
      have hunit : TextPart.ofChar c =
          .unit (16 * (16 * (16 * 0 + 0) + c.toNat / 16) + c.toNat % 16) := by
        have hdigits : 16 * (16 * (16 * 0 + 0) + c.toNat / 16) + c.toNat % 16 = c.toNat := by omega
        rw [hdigits]
        exact if_pos ⟨hcontrol, by simp [hb, hf, hn, hr, ht]⟩
      rw [hspell, hunit]
      exact .unit rfl rfl (Lexer.hexDigit?_digitChar (by omega))
        (Lexer.hexDigit?_digitChar (by omega))
    · have hspell : spellChar c = [c] := by
        simp [spellChar, hquote, hbackslash, hb, hf, hn, hr, ht, hcontrol]
      have hchar : TextPart.ofChar c = .char c := if_neg fun h => hcontrol h.1
      rw [hspell, hchar]
      exact .plain hquote hbackslash hcontrol

end TextPart

/-! ## Scalars and tokens -/

/-- A scalar that can be spelled: one that stands for a value, where numbers have at most 64 bits
and are written with digits only. -/
inductive Scalar.Plain : Scalar → Prop
  /-- The literal `null`. -/
  | null : Plain .null
  /-- A truth value. -/
  | bool (b : Bool) : Plain (.bool b)
  /-- A number of at most 64 bits. -/
  | nat {n : ℕ} (fits : n < Nat.pow 2 64) : Plain (.nat n)
  /-- A string. -/
  | text (s : String) : Plain (.text s)

/-- The spelling of a string is a literal of it. -/
theorem Scalar.literal_spellText (s : String) : Scalar.Literal (.text s) (spellText s) := by
  have hparts : List.Forall₂ TextPart.Literal (s.toList.map TextPart.ofChar)
      (s.toList.map spellChar) :=
    List.forall₂_map_left_iff.mpr <| List.forall₂_map_right_iff.mpr <|
      List.forall₂_same.mpr fun c _ => TextPart.literal_spellChar c
  have htext := Scalar.Literal.text hparts
  simp only [TextPart.toScalar, TextPart.assemble_ofChar, String.ofList_toList] at htext
  rwa [← List.flatMap_def] at htext

/-- The spelling of a number out of the range of doubles is a literal of it. -/
theorem Scalar.literal_huge : Scalar.Literal .huge Scalar.huge.spell := by
  have hwhole : Number.Whole ['1'] := ⟨⟨by decide, List.all_eq_true.mp rfl⟩, by decide⟩
  have hpower : Number.Digits ['9', '9', '9'] := ⟨by decide, List.all_eq_true.mp rfl⟩
  exact .number (.mk .none hwhole .none (.unsigned (e := 'e') (.inl rfl) hpower))

/-- The spelling of half of a surrogate pair is a literal of a string that stands for no text. -/
theorem Scalar.literal_unpaired : Scalar.Literal .unpaired Scalar.unpaired.spell := by
  have hunit : TextPart.Literal (.unit 0xD800) ['\\', 'u', 'd', '8', '0', '0'] :=
    @TextPart.Literal.unit 'd' '8' '0' '0' 13 8 0 0 rfl rfl rfl rfl
  exact .text (.cons hunit .nil)

/-- The spelling of a plain scalar is a literal of it. -/
theorem Scalar.Plain.literal_spell {value : Scalar} (h : value.Plain) :
    value.Literal value.spell := by
  cases h with
  | null => exact .null
  | bool b =>
    cases b with
    | true => exact .true
    | false => exact .false
  | nat fits => exact .number (Number.literal_toDigits fits)
  | text s => exact Scalar.literal_spellText s

/-- What is written for tokens spells them, also with blanks before each of them. -/
theorem spells_flatMap_spell {tokens : List Token} (blanks : Token → List Char)
    (hblanks : ∀ token, (blanks token).all Lexer.isBlank = true)
    (hliteral : ∀ value, .scalar value ∈ tokens → value.Literal value.spell) :
    Spells tokens (tokens.flatMap fun token => blanks token ++ token.spell) := by
  induction tokens with
  | nil => exact .nil rfl
  | cons token tokens ih =>
    have hmore := ih fun value h => hliteral value (List.mem_cons_of_mem token h)
    have htoken : token.Literal token.spell := by
      cases token with
      | scalar value => exact .scalar (hliteral value List.mem_cons_self)
      | openObject | closeObject | openArray | closeArray | colon | comma => exact .mark rfl
    rw [List.flatMap_cons, List.append_assoc]
    exact .cons (hblanks token) htoken hmore

end SolutionWatch.Json
