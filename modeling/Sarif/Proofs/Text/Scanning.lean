import Mathlib.Tactic.IntervalCases
import Sarif.Text.Token
import Sarif.Proofs.Number.Digits

/-!
# Scanning what is spelled

The scanner gives back the token that was spelled: a string whatever follows it, and a number when
what follows cannot belong to it. Both are shown character by character, as statements about what
the scanner makes of the rest of a text from where it stands.
-/

namespace Sarif

/-- The pieces of a sound literal are characters, and it has its closing quote. -/
def Literal.Sound (l : Literal) : Prop :=
  l.defect = none ∧ ∀ piece ∈ l.pieces, ∃ c, piece = .char c

/-- The fraction of a sound numeral consists of digits. -/
def Numeral.Sound (n : Numeral) : Prop :=
  ∀ c ∈ n.fraction, c.isDigit = true

/-- A decimal digit is one of ten characters. -/
theorem isDigit_cases {c : Char} (digit : c.isDigit = true) :
    c = '0' ∨ c = '1' ∨ c = '2' ∨ c = '3' ∨ c = '4' ∨ c = '5' ∨ c = '6' ∨ c = '7' ∨ c = '8' ∨
      c = '9' := by
  have bounds : 48 ≤ c.toNat ∧ c.toNat ≤ 57 := by
    simp only [Char.isDigit, ge_iff_le, Bool.and_eq_true, decide_eq_true_eq,
      UInt32.le_iff_toNat_le] at digit
    exact digit
  have same : c = Char.ofNat c.toNat := (Char.ofNat_toNat c).symm
  obtain ⟨low, high⟩ := bounds
  generalize c.toNat = n at *
  subst same
  interval_cases n <;> decide

namespace Scan

/-- The scanner stands at the end of the text, or before a mark that ends a value. -/
def Delimited : List Char → Prop
  | [] => True
  | c :: _ => c = ',' ∨ c = ']' ∨ c = '}'

/-! ## Strings -/

/-- A character that is spelled by its number is scanned as that character. -/
theorem tokens_unitEscape (before : List Piece) (rest : List Char) {n : Nat} (control : n < 32) :
    (literal before).tokens (Literal.unitEscape n ++ rest) =
      (literal (.char (Char.ofNat n) :: before)).tokens rest := by
  interval_cases n <;> rfl

/-- A spelled character is scanned as that character. -/
theorem tokens_charText (before : List Piece) (rest : List Char) (c : Char) :
    (literal before).tokens (Literal.charText c ++ rest) =
      (literal (.char c :: before)).tokens rest := by
  unfold Literal.charText
  split
  · next quote => subst quote; rfl
  split
  · next backslash => subst backslash; rfl
  split
  · next escape => subst escape; rfl
  split
  · next escape => subst escape; rfl
  split
  · next escape => subst escape; rfl
  split
  · next escape => subst escape; rfl
  split
  · next escape => subst escape; rfl
  next quote backslash _ _ _ _ _ =>
    split
    · next control =>
        rw [tokens_unitEscape before rest control, Char.ofNat_toNat]
    · next plain =>
        simp [tokens, step, stepLiteral, quote, backslash, plain]

/-- Spelled pieces are scanned one after the other, up to the closing quote. -/
theorem tokens_pieces (pieces : List Piece) (sound : ∀ piece ∈ pieces, ∃ c, piece = .char c)
    (before : List Piece) (rest : List Char) :
    (literal before).tokens (pieces.flatMap Literal.pieceText ++ '"' :: rest) =
      .literal ⟨before.reverse ++ pieces, none⟩ :: between.tokens rest := by
  induction pieces generalizing before with
  | nil =>
      simp [tokens, step, stepLiteral]
  | cons piece pieces inductionHypothesis =>
      obtain ⟨c, rfl⟩ := sound piece (List.mem_cons_self ..)
      have later := inductionHypothesis
        (fun other member => sound other (List.mem_cons_of_mem _ member)) (.char c :: before)
      rw [List.flatMap_cons, List.append_assoc, Literal.pieceText, tokens_charText, later]
      simp

/-- A spelled literal is scanned as that literal. -/
theorem tokens_literal {l : Literal} (sound : l.Sound) (rest : List Char) :
    between.tokens (l.text ++ rest) = .literal l :: between.tokens rest := by
  obtain ⟨pieces, defect⟩ := l
  obtain ⟨closed, characters⟩ := sound
  obtain rfl : defect = none := closed
  have opened : between.tokens ('"' :: (pieces.flatMap Literal.pieceText ++ '"' :: rest)) =
      (literal []).tokens (pieces.flatMap Literal.pieceText ++ '"' :: rest) := rfl
  have text : (⟨pieces, none⟩ : Literal).text ++ rest =
      '"' :: (pieces.flatMap Literal.pieceText ++ '"' :: rest) := by
    simp [Literal.text]
  rw [text, opened, tokens_pieces pieces characters]
  rfl

/-! ## Numbers -/

/-- A number may be over in this phase. -/
def mayEnd : NumeralPhase → Bool
  | .zero => true
  | .whole => true
  | .fraction => true
  | .exponent _ => true
  | _ => false

/-- A number is over where the text ends or a mark follows. -/
theorem tokens_end {phase : NumeralPhase} (n : Numeral) (ends : mayEnd phase = true)
    {rest : List Char} (delimited : Delimited rest) :
    (numeral phase n).tokens rest = .numeral n :: between.tokens rest := by
  cases rest with
  | nil => cases phase <;> first | rfl | cases ends
  | cons c rest =>
      obtain rfl | rfl | rfl := delimited <;> cases phase <;> first | rfl | cases ends

/-- The digits of a whole part add to it. -/
theorem tokens_whole (n : Numeral) {digits : List Char} (rest : List Char)
    (areDigits : ∀ c ∈ digits, c.isDigit = true) :
    (numeral .whole n).tokens (digits ++ rest) =
      (numeral .whole { n with whole := Nat.ofDigitChars 10 digits n.whole }).tokens rest := by
  induction digits generalizing n with
  | nil => simp
  | cons c digits inductionHypothesis =>
      have now := areDigits c (List.mem_cons_self ..)
      have later := inductionHypothesis { n with whole := n.whole * 10 + digitValue c }
        (fun d member => areDigits d (List.mem_cons_of_mem _ member))
      have first : (numeral .whole n).tokens (c :: (digits ++ rest)) =
          (numeral .whole { n with whole := n.whole * 10 + digitValue c }).tokens
            (digits ++ rest) := by
        simp [tokens, step, stepNumeral, now]
      rw [List.cons_append, first, later, Nat.ofDigitChars_cons, Nat.mul_comm 10]
      rfl

/-- The digits of a fraction are kept. -/
theorem tokens_fraction (n : Numeral) {digits : List Char} (rest : List Char)
    (areDigits : ∀ c ∈ digits, c.isDigit = true) :
    (numeral .fraction n).tokens (digits ++ rest) =
      (numeral .fraction { n with fraction := n.fraction ++ digits }).tokens rest := by
  induction digits generalizing n with
  | nil => simp
  | cons c digits inductionHypothesis =>
      have now := areDigits c (List.mem_cons_self ..)
      have later := inductionHypothesis { n with fraction := n.fraction ++ [c] }
        (fun d member => areDigits d (List.mem_cons_of_mem _ member))
      have first : (numeral .fraction n).tokens (c :: (digits ++ rest)) =
          (numeral .fraction { n with fraction := n.fraction ++ [c] }).tokens
            (digits ++ rest) := by
        simp [tokens, step, stepNumeral, now]
      rw [List.cons_append, first, later]
      simp

/-- The value of an exponent with a sign. -/
def signed (negative : Bool) (value : Nat) : Int :=
  if negative then -value else value

/-- The digits of an exponent add to it. -/
theorem tokens_exponent (n : Numeral) (negative : Bool) (value : Nat) {digits : List Char}
    (rest : List Char) (areDigits : ∀ c ∈ digits, c.isDigit = true) :
    (numeral (.exponent negative) { n with exponent := some (signed negative value) }).tokens
        (digits ++ rest) =
      (numeral (.exponent negative)
        { n with exponent := some (signed negative (Nat.ofDigitChars 10 digits value)) }).tokens
        rest := by
  induction digits generalizing value with
  | nil => simp
  | cons c digits inductionHypothesis =>
      have now := areDigits c (List.mem_cons_self ..)
      have later := inductionHypothesis (10 * value + digitValue c)
        (fun d member => areDigits d (List.mem_cons_of_mem _ member))
      have pushed : pushExponent { n with exponent := some (signed negative value) } negative c =
          { n with exponent := some (signed negative (10 * value + digitValue c)) } := by
        cases negative <;> simp [pushExponent, signed] <;> omega
      have first :
          (numeral (.exponent negative) { n with exponent := some (signed negative value) }).tokens
            (c :: (digits ++ rest)) =
          (numeral (.exponent negative)
            { n with exponent := some (signed negative (10 * value + digitValue c)) }).tokens
            (digits ++ rest) := by
        simp [tokens, step, stepNumeral, now, pushed]
      rw [List.cons_append, first, later, Nat.ofDigitChars_cons]
      rfl

/-- A spelled exponent ends a number without one. -/
theorem tokens_exponentText {phase : NumeralPhase} (n : Numeral) (exponent : Int)
    (before : phase = .zero ∨ phase = .whole ∨ phase = .fraction) (none : n.exponent = none)
    {rest : List Char} (delimited : Delimited rest) :
    (numeral phase n).tokens (Numeral.exponentText exponent ++ rest) =
      .numeral { n with exponent := some exponent } :: between.tokens rest := by
  have areDigits : ∀ c ∈ Nat.toDigits 10 exponent.natAbs, c.isDigit = true :=
    fun c member => Nat.isDigit_of_mem_toDigits (by decide) (by decide) member
  have value : Nat.ofDigitChars 10 (Nat.toDigits 10 exponent.natAbs) 0 = exponent.natAbs :=
    Nat.ofDigitChars_ten_toDigits
  obtain ⟨c, digits, shape⟩ := List.exists_cons_of_ne_nil
    (Nat.toDigits_ne_nil (n := exponent.natAbs) (b := 10))
  rw [shape] at areDigits value
  have first := areDigits c (List.mem_cons_self ..)
  have marked : (numeral phase n).tokens (Numeral.exponentText exponent ++ rest) =
      (numeral (.markSign (decide (exponent < 0))) n).tokens (c :: (digits ++ rest)) := by
    rw [Numeral.exponentText, shape]
    by_cases negative : exponent < 0 <;> obtain rfl | rfl | rfl := before <;>
      simp [negative, tokens, step, stepNumeral]
  have pushed : pushExponent n (decide (exponent < 0)) c =
      { n with exponent := some (signed (decide (exponent < 0)) (digitValue c)) } := by
    by_cases negative : exponent < 0 <;> simp [pushExponent, signed, none, negative]
  have opened : (numeral (.markSign (decide (exponent < 0))) n).tokens (c :: (digits ++ rest)) =
      (numeral (.exponent (decide (exponent < 0)))
        { n with exponent := some (signed (decide (exponent < 0)) (digitValue c)) }).tokens
        (digits ++ rest) := by
    simp [tokens, step, stepNumeral, first, pushed]
  have total : Nat.ofDigitChars 10 digits (digitValue c) = exponent.natAbs := by
    rw [Nat.ofDigitChars_cons, Nat.mul_zero, Nat.zero_add] at value
    exact value
  have sign : signed (decide (exponent < 0)) exponent.natAbs = exponent := by
    unfold signed
    split <;> simp only [decide_eq_true_eq] at * <;> omega
  rw [marked, opened, tokens_exponent n _ _ _
    (fun d member => areDigits d (List.mem_cons_of_mem _ member)), total, sign,
    tokens_end _ rfl delimited]

/-- A spelled fraction adds its digits to a number without one. -/
theorem tokens_point {phase : NumeralPhase} (n : Numeral) {fraction : List Char}
    (before : phase = .zero ∨ phase = .whole) (areDigits : ∀ c ∈ fraction, c.isDigit = true)
    (some_digit : fraction ≠ []) (rest : List Char) :
    (numeral phase n).tokens ('.' :: fraction ++ rest) =
      (numeral .fraction { n with fraction := fraction }).tokens rest := by
  obtain ⟨c, digits, rfl⟩ := List.exists_cons_of_ne_nil some_digit
  have first := areDigits c (List.mem_cons_self ..)
  have opened : (numeral phase n).tokens ('.' :: c :: (digits ++ rest)) =
      (numeral .fraction { n with fraction := [c] }).tokens (digits ++ rest) := by
    obtain rfl | rfl := before <;> simp [tokens, step, stepNumeral, first]
  calc (numeral phase n).tokens ('.' :: (c :: digits) ++ rest)
      = (numeral .fraction { n with fraction := [c] }).tokens (digits ++ rest) := opened
    _ = (numeral .fraction { n with fraction := [c] ++ digits }).tokens rest :=
        tokens_fraction _ rest fun d member => areDigits d (List.mem_cons_of_mem _ member)

/-- The digits of a number other than zero do not begin with a zero. -/
theorem toDigits_cases {n : Nat} (positive : 0 < n) :
    ∃ c digits, Nat.toDigits 10 n = c :: digits ∧ c ≠ '0' := by
  induction n using Nat.strongRecOn with
  | ind n inductionHypothesis =>
      by_cases single : n < 10
      · refine ⟨n.digitChar, [], Nat.toDigits_of_lt_base single, ?_⟩
        interval_cases n <;> decide
      · obtain ⟨c, digits, shape, nonzero⟩ :=
          inductionHypothesis (n / 10) (by omega) (by omega)
        refine ⟨c, digits ++ [(n % 10).digitChar], ?_, nonzero⟩
        rw [Nat.toDigits_of_base_le (by decide) (by omega), shape, List.cons_append]

/-- A spelled whole part, with its sign, begins a number. -/
theorem tokens_wholeText (negative : Bool) (whole : Nat) (rest : List Char) :
    between.tokens ((if negative then ['-'] else []) ++ Nat.toDigits 10 whole ++ rest) =
      (numeral (if whole = 0 then .zero else .whole) ⟨negative, whole, [], none⟩).tokens rest := by
  by_cases zero : whole = 0
  · subst zero
    cases negative <;> rfl
  · have areDigits : ∀ c ∈ Nat.toDigits 10 whole, c.isDigit = true :=
      fun c member => Nat.isDigit_of_mem_toDigits (by decide) (by decide) member
    have value : Nat.ofDigitChars 10 (Nat.toDigits 10 whole) 0 = whole :=
      Nat.ofDigitChars_ten_toDigits
    obtain ⟨c, digits, shape, nonzero⟩ := toDigits_cases (Nat.pos_of_ne_zero zero)
    rw [shape] at areDigits value
    have opened : between.tokens ((if negative then ['-'] else []) ++ c :: (digits ++ rest)) =
        (numeral .whole ⟨negative, digitValue c, [], none⟩).tokens (digits ++ rest) := by
      obtain rfl | rfl | rfl | rfl | rfl | rfl | rfl | rfl | rfl | rfl :=
        isDigit_cases (areDigits c (List.mem_cons_self ..))
      · exact absurd rfl nonzero
      all_goals cases negative <;> rfl
    have total : Nat.ofDigitChars 10 digits (digitValue c) = whole := by
      rw [Nat.ofDigitChars_cons, Nat.mul_zero, Nat.zero_add] at value
      exact value
    rw [if_neg zero, shape, List.append_assoc, List.cons_append, opened, tokens_whole _ _
      (fun d member => areDigits d (List.mem_cons_of_mem _ member)), total]

/-- A spelled numeral is scanned as that numeral, when the text ends or a mark follows. -/
theorem tokens_numeral {n : Numeral} (sound : n.Sound) {rest : List Char}
    (delimited : Delimited rest) :
    between.tokens (n.text ++ rest) = .numeral n :: between.tokens rest := by
  obtain ⟨negative, whole, fraction, exponent⟩ := n
  have phase : (if whole = 0 then NumeralPhase.zero else .whole) = .zero ∨
      (if whole = 0 then NumeralPhase.zero else .whole) = .whole := by
    split
    · exact .inl rfl
    · exact .inr rfl
  have phase_ends : mayEnd (if whole = 0 then .zero else .whole) = true := by
    split <;> rfl
  have earlier : ∀ {p : NumeralPhase}, p = .zero ∨ p = .whole →
      p = .zero ∨ p = .whole ∨ p = .fraction :=
    fun cases => cases.imp id .inl
  simp only [Numeral.text, List.append_assoc]
  rw [← List.append_assoc _ (Nat.toDigits 10 whole), tokens_wholeText]
  cases fraction with
  | nil =>
      cases exponent with
      | none => simpa using tokens_end _ phase_ends delimited
      | some e => simpa using tokens_exponentText _ e (earlier phase) rfl delimited
  | cons c digits =>
      have pointed := tokens_point ⟨negative, whole, [], none⟩ phase sound (List.cons_ne_nil _ _)
      simp only [List.isEmpty_cons, Bool.false_eq_true, if_false]
      rw [pointed]
      cases exponent with
      | none => simpa using tokens_end _ rfl delimited
      | some e => simpa using tokens_exponentText _ e (.inr (.inr rfl)) rfl delimited

/-! ## Words -/

/-- A comma is a token. -/
theorem tokens_comma (rest : List Char) :
    between.tokens (',' :: rest) = .comma :: between.tokens rest :=
  rfl

/-- A colon is a token. -/
theorem tokens_colon (rest : List Char) :
    between.tokens (':' :: rest) = .colon :: between.tokens rest :=
  rfl

/-- The spelled null is scanned as null. -/
theorem tokens_null (rest : List Char) :
    between.tokens (['n', 'u', 'l', 'l'] ++ rest) = .null :: between.tokens rest :=
  rfl

/-- A spelled truth value is scanned as that value. -/
theorem tokens_true (rest : List Char) :
    between.tokens (['t', 'r', 'u', 'e'] ++ rest) = .boolean true :: between.tokens rest :=
  rfl

/-- A spelled truth value is scanned as that value. -/
theorem tokens_false (rest : List Char) :
    between.tokens (['f', 'a', 'l', 's', 'e'] ++ rest) = .boolean false :: between.tokens rest :=
  rfl

end Scan
end Sarif
