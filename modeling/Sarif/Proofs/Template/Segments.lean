import Sarif.Proofs.Number.Digits
import Sarif.Proofs.Template.Filling

/-!
# Templates made of segments

A message that consists of literal text and of arguments is written as a template with every brace
of the text doubled and every argument as its index in braces. Filling the template gives the text
and the arguments back, whatever they contain (`Message.format_ofSegments`): an index in braces that
leads to no argument leaves its closing brace to be dealt with together with what follows, but what
follows begins with doubled closing braces only, hence with an even number of them.
-/

namespace Sarif

/-- A part of a message: literal text, or the argument with an index. The index is written with at
least so many digits as its width. -/
inductive Segment where
  | literal (text : String)
  | argument (index width : Nat)

namespace Segment

/-- Literal text as it stands in a template, with every brace doubled. -/
def escape (text : List Char) : List Char :=
  text.flatMap fun c => if c = '{' ∨ c = '}' then [c, c] else [c]

/-- A segment as it stands in a template. -/
def spelling : Segment → List Char
  | literal text => escape text.toList
  | argument index width => '{' :: (Numeral.paddedDigits width index ++ ['}'])

/-- A segment as it stands in a message: literal text as it is, an argument as it is, and an index
that leads to no argument as in the template. -/
def filled (arguments : List String) : Segment → List Char
  | literal text => text.toList
  | argument index width =>
    match arguments[index]? with
    | some content => content.toList
    | none => (argument index width).spelling

end Segment

namespace Template

/-- The template of a list of segments. -/
def ofSegments (segments : List Segment) : String :=
  String.ofList (segments.flatMap Segment.spelling)

/-- The message that a list of segments stands for. -/
def filledSegments (arguments : List String) (segments : List Segment) : String :=
  String.ofList (segments.flatMap (Segment.filled arguments))

variable (arguments : List String)

/-! ## Literal text -/

/-- Escaped text is filled with the text, whatever stands behind it. -/
theorem fillFrom_escape_append (text rest : List Char) :
    fillFrom arguments 0 (Segment.escape text ++ rest) = text ++ fillFrom arguments 0 rest := by
  induction text with
  | nil => rfl
  | cons c text inductionHypothesis =>
      rw [Segment.escape, List.flatMap_cons, List.append_assoc]
      by_cases brace : c = '{' ∨ c = '}'
      · rw [if_pos brace]
        exact (fillFrom_doubled arguments brace _).trans (congrArg (c :: ·) inductionHypothesis)
      · have braceless : Braceless [c] := by
          intro other member
          rw [List.mem_singleton.mp member]
          exact not_or.mp brace
        rw [if_neg brace, fillFrom_braceless_append arguments braceless]
        exact congrArg (c :: ·) inductionHypothesis

/-- Escaped text keeps the parity of the closing braces at the beginning. -/
theorem even_closers_escape_append (text : List Char) {rest : List Char}
    (even : Even (closers rest)) : Even (closers (Segment.escape text ++ rest)) := by
  induction text with
  | nil => exact even
  | cons c text inductionHypothesis =>
      rw [Segment.escape] at inductionHypothesis ⊢
      rw [List.flatMap_cons, List.append_assoc]
      by_cases closer : c = '}'
      · subst closer
        rw [if_pos (.inr rfl)]
        simpa [Nat.even_add_one] using inductionHypothesis
      · by_cases opener : c = '{'
        · rw [if_pos (.inl opener), List.cons_append, closers_cons_other closer]
          exact Even.zero
        · rw [if_neg (not_or.mpr ⟨opener, closer⟩), List.cons_append, closers_cons_other closer]
          exact Even.zero

/-! ## Indexes in braces -/

/-- The digits of an index denote it. -/
theorem denotes_paddedDigits (width index : Nat) :
    Denotes (Numeral.paddedDigits width index) index := by
  refine ⟨Numeral.paddedDigits_ne_nil width index,
    fun c member => Numeral.isDigit_of_mem_paddedDigits member, ?_⟩
  rw [Numeral.ofDigitChars_paddedDigits, Nat.zero_mul, Nat.zero_add]

/-- The digits of an index are filled with the argument that it leads to. -/
theorem argument?_paddedDigits (width index : Nat) :
    argument? arguments (Numeral.paddedDigits width index) = arguments[index]? := by
  have read : index? (Numeral.paddedDigits width index) = some index :=
    index?_eq_some_iff.mpr ⟨_, .inl rfl, denotes_paddedDigits width index⟩
  rw [argument?, read, Option.bind_some]

/-- Digits are no braces. -/
theorem braceless_paddedDigits (width index : Nat) :
    Braceless (Numeral.paddedDigits width index) := by
  intro c member
  have digit := Numeral.isDigit_of_mem_paddedDigits member
  constructor
  · rintro rfl
    cases digit
  · rintro rfl
    cases digit

/-! ## Segments -/

/-- The template of segments begins with an even number of closing braces. -/
theorem even_closers_spelling (segments : List Segment) :
    Even (closers (segments.flatMap Segment.spelling)) := by
  induction segments with
  | nil => exact Even.zero
  | cons segment segments inductionHypothesis =>
      rw [List.flatMap_cons]
      cases segment with
      | literal text => exact even_closers_escape_append text.toList inductionHypothesis
      | argument index width =>
          rw [Segment.spelling, List.cons_append, closers_cons_other (by decide)]
          exact Even.zero

/-- A segment is filled by itself if what stands behind it begins with an even number of closing
braces. -/
theorem fillFrom_spelling_append (segment : Segment) {rest : List Char}
    (even : Even (closers rest)) :
    fillFrom arguments 0 (segment.spelling ++ rest) =
      segment.filled arguments ++ fillFrom arguments 0 rest := by
  cases segment with
  | literal text => exact fillFrom_escape_append arguments text.toList rest
  | argument index width =>
      have spelled : (Segment.argument index width).spelling ++ rest =
          '{' :: (Numeral.paddedDigits width index ++ '}' :: rest) := by
        simp [Segment.spelling]
      rw [spelled, fillFrom_braced arguments (braceless_paddedDigits width index),
        argument?_paddedDigits, Segment.filled]
      cases arguments[index]? with
      | some content => rfl
      | none => simp [fillFrom_closer, even, Segment.spelling]

/-- A template of segments is filled segment by segment. -/
theorem fillFrom_spelling (segments : List Segment) :
    fillFrom arguments 0 (segments.flatMap Segment.spelling) =
      segments.flatMap (Segment.filled arguments) := by
  induction segments with
  | nil => rfl
  | cons segment segments inductionHypothesis =>
      rw [List.flatMap_cons, List.flatMap_cons,
        fillFrom_spelling_append arguments segment (even_closers_spelling segments),
        inductionHypothesis]

end Template

/-- The template of a list of segments is formatted as the message that they stand for: literal text
and arguments appear as they are, and an index that leads to no argument stays in its braces. -/
theorem Message.format_ofSegments (message : Message) (segments : List Segment) :
    message.format (Template.ofSegments segments) =
      Template.filledSegments message.argumentList segments := by
  apply String.toList_injective
  rw [toList_format, Template.ofSegments, Template.filledSegments, String.toList_ofList,
    String.toList_ofList]
  exact Template.fillFrom_spelling message.argumentList segments

/-- Braces next to an argument, and an index that leads to none before closing braces. -/
example : (Message.ofId "default" ["x"]).format (Template.ofSegments
    [.literal "\x7b", .argument 0 0, .literal "\x7d", .argument 7 0, .literal "\x7d\x7d"]) =
      "\x7bx\x7d\x7b7\x7d\x7d\x7d" := by
  decide

end Sarif
