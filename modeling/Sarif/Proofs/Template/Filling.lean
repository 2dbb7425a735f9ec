import Mathlib.Algebra.Group.Nat.Even
import Sarif.Build
import Sarif.Rules

/-!
# Filling a template step by step

A template is dealt with from the left: a doubled brace gives one, a placeholder that can be filled
gives its argument, and everything else is kept, one character at a time. So of a placeholder that
cannot be filled the closing brace is still to come, and may be taken together with a brace behind
it: `Template.fillFrom_closer` says when, and `Message.format_braced` what this makes of a word in
braces.
-/

namespace Sarif
namespace Template

/-! ## The index of a placeholder -/

/-- Decimal digits, one or more of them, that denote a number. -/
def Denotes (digits : List Char) (n : Nat) : Prop :=
  digits ≠ [] ∧ (∀ c ∈ digits, c.isDigit = true) ∧ Nat.ofDigitChars 10 digits 0 = n

/-- A word that is put in braces denotes the index of an argument: its digits do, and a plus sign
may stand in front of them. -/
def Fills (arguments : List String) (word : List Char) (argument : String) : Prop :=
  ∃ digits index, (word = digits ∨ word = '+' :: digits) ∧ Denotes digits index ∧
    arguments[index]? = some argument

/-- A text without braces. -/
def Braceless (text : List Char) : Prop :=
  ∀ c ∈ text, c ≠ '{' ∧ c ≠ '}'

instance (text : List Char) : Decidable (Braceless text) :=
  List.decidableBAll (fun c => c ≠ '{' ∧ c ≠ '}') text

variable (arguments : List String)

/-- The argument that fills a word in braces. -/
def argument? (word : List Char) : Option String :=
  (index? word).bind (arguments[·]?)

/-- An index is read off digits, with or without a plus sign. -/
theorem index?_eq_some_iff {word : List Char} {n : Nat} :
    index? word = some n ↔ ∃ digits, (word = digits ∨ word = '+' :: digits) ∧ Denotes digits n := by
  have read (digits : List Char) :
      (if !digits.isEmpty && digits.all Char.isDigit then some (Nat.ofDigitChars 10 digits 0)
        else none) = some n ↔ Denotes digits n := by
    simp [Denotes, and_assoc]
  unfold index?
  split
  · next rest =>
      rw [read]
      constructor
      · intro denotes
        exact ⟨rest, .inr rfl, denotes⟩
      · rintro ⟨digits, rfl | same, denotes⟩
        · cases denotes.2.1 '+' (List.mem_cons_self ..)
        · rwa [(List.cons.inj same).2]
  · next unsigned =>
      rw [read]
      constructor
      · intro denotes
        exact ⟨word, .inl rfl, denotes⟩
      · rintro ⟨digits, rfl | rfl, denotes⟩
        · exact denotes
        · exact absurd rfl (unsigned digits)

/-- The argument that fills a word is the one that its index leads to. -/
theorem argument?_eq_some_iff {word : List Char} {argument : String} :
    argument? arguments word = some argument ↔ Fills arguments word argument := by
  simp only [argument?, Option.bind_eq_some_iff, index?_eq_some_iff]
  constructor
  · rintro ⟨index, ⟨digits, spelled, denotes⟩, found⟩
    exact ⟨digits, index, spelled, denotes, found⟩
  · rintro ⟨digits, index, spelled, denotes, found⟩
    exact ⟨index, ⟨digits, spelled, denotes⟩, found⟩

/-! ## One step -/

/-- What has been dealt with is passed over. -/
theorem fillFrom_length_append (passed rest : List Char) :
    fillFrom arguments passed.length (passed ++ rest) = fillFrom arguments 0 rest := by
  induction passed with
  | nil => rfl
  | cons c passed inductionHypothesis =>
      rw [List.length_cons, List.cons_append, fillFrom]
      exact inductionHypothesis

/-- A doubled brace gives one. -/
theorem fillFrom_doubled {c : Char} (brace : c = '{' ∨ c = '}') (rest : List Char) :
    fillFrom arguments 0 (c :: c :: rest) = c :: fillFrom arguments 0 rest := by
  rw [fillFrom, if_pos ⟨brace, rfl⟩]
  exact congrArg (c :: ·) (fillFrom_length_append arguments [c] rest)

/-- Text without braces is kept. -/
theorem fillFrom_braceless_append {text : List Char} (braceless : Braceless text)
    (rest : List Char) :
    fillFrom arguments 0 (text ++ rest) = text ++ fillFrom arguments 0 rest := by
  induction text with
  | nil => rfl
  | cons c text inductionHypothesis =>
      obtain ⟨⟨noOpener, noCloser⟩, others⟩ := List.forall_mem_cons.mp braceless
      rw [List.cons_append, List.cons_append, ← inductionHypothesis others]
      simp [fillFrom, noOpener, noCloser]

/-- A closing brace with no other behind it is kept. -/
theorem fillFrom_lone_closer {rest : List Char} (lone : rest.head? ≠ some '}') :
    fillFrom arguments 0 ('}' :: rest) = '}' :: fillFrom arguments 0 rest := by
  simp [fillFrom, lone]

/-- A word in braces can be filled if it denotes the index of an argument. -/
theorem placeholder?_braceless {word : List Char} (braceless : Braceless word)
    (rest : List Char) :
    placeholder? arguments (word ++ '}' :: rest) =
      (argument? arguments word).map fun argument => (argument.toList, word.length + 1) := by
  have name : (word ++ '}' :: rest).takeWhile (· != '}') = word := by
    rw [List.takeWhile_append_of_pos fun c member => by simpa using (braceless c member).2]
    simp
  simp [placeholder?, name, argument?]

/-- A word in braces gives the argument whose index it denotes; if it denotes none, it is kept as
far as the closing brace. -/
theorem fillFrom_braced {word : List Char} (braceless : Braceless word) (rest : List Char) :
    fillFrom arguments 0 ('{' :: (word ++ '}' :: rest)) =
      match argument? arguments word with
      | some argument => argument.toList ++ fillFrom arguments 0 rest
      | none => '{' :: (word ++ fillFrom arguments 0 ('}' :: rest)) := by
  have single : (word ++ '}' :: rest).head? ≠ some '{' := by
    cases word with
    | nil => simp
    | cons c word => simpa using (braceless c (List.mem_cons_self ..)).1
  rw [fillFrom, if_neg (fun both => single both.2), if_pos rfl,
    placeholder?_braceless arguments braceless]
  cases argument? arguments word with
  | none => exact congrArg ('{' :: ·) (fillFrom_braceless_append arguments braceless _)
  | some argument =>
      have behind := fillFrom_length_append arguments (word ++ ['}']) rest
      rw [List.length_append, List.append_assoc] at behind
      exact congrArg (argument.toList ++ ·) behind

/-! ## Runs of closing braces -/

/-- How many closing braces a text begins with. -/
def closers (text : List Char) : Nat :=
  (text.takeWhile (· = '}')).length

@[simp] theorem closers_cons_closer (rest : List Char) :
    closers ('}' :: rest) = closers rest + 1 := by
  simp [closers]

@[simp] theorem closers_cons_other {c : Char} (other : c ≠ '}') (rest : List Char) :
    closers (c :: rest) = 0 := by
  simp [closers, other]

/-- A closing brace is kept if those behind it go together in pairs; otherwise it is taken together
with the first of them, so that one brace is lost. -/
theorem fillFrom_closer (text : List Char) :
    fillFrom arguments 0 ('}' :: text) =
      if Even (closers text) then '}' :: fillFrom arguments 0 text
      else fillFrom arguments 0 text := by
  induction text with
  | nil => rfl
  | cons c rest inductionHypothesis =>
      by_cases closer : c = '}'
      · subst closer
        rw [fillFrom_doubled arguments (.inr rfl), inductionHypothesis]
        -- The brace taken in here changes the parity, and with it which of the two is kept.
        by_cases even : Even (closers rest)
        · simp [Nat.even_add_one, even]
        · simp [Nat.even_add_one, even]
      · rw [closers_cons_other closer, if_pos Even.zero]
        exact fillFrom_lone_closer arguments (by simpa using closer)

/-- A word in braces. -/
def braced (word : String) : String :=
  String.ofList ('{' :: (word.toList ++ ['}']))

end Template

namespace Message

/-- The arguments of a message; none if it has no list of them. -/
def argumentList (message : Message) : List String :=
  (message.get Message.arguments).getD []

/-- A text in the place of a template is dealt with from its beginning. -/
theorem toList_format (message : Message) (template : String) :
    (message.format template).toList =
      Template.fillFrom message.argumentList 0 template.toList :=
  String.toList_ofList

/-- A word in braces is filled with the argument whose index it denotes. One that denotes none is
kept, and the text behind it is what it is by itself, exactly if this text does not begin with an
odd number of closing braces; if it does, the closing brace of the word is lost to the first of
them. -/
theorem format_braced (message : Message) {word : String}
    (braceless : Template.Braceless word.toList) (text : String) :
    (∀ argument, Template.Fills message.argumentList word.toList argument →
      message.format (Template.braced word ++ text) = argument ++ message.format text) ∧
    ((∀ argument, ¬ Template.Fills message.argumentList word.toList argument) →
      (message.format (Template.braced word ++ text) =
          Template.braced word ++ message.format text ↔ Even (Template.closers text.toList)) ∧
      (¬ Even (Template.closers text.toList) →
        message.format (Template.braced word ++ text) =
          String.ofList ('{' :: word.toList) ++ message.format text)) := by
  have template : (Template.braced word ++ text).toList =
      '{' :: (word.toList ++ '}' :: text.toList) := by
    simp [Template.braced]
  have filled := Template.fillFrom_braced message.argumentList braceless text.toList
  constructor
  · intro argument fills
    apply String.toList_injective
    rw [toList_format, template, filled,
      (Template.argument?_eq_some_iff message.argumentList).mpr fills, String.toList_append,
      toList_format]
  · intro unfilled
    have none : Template.argument? message.argumentList word.toList = none := by
      refine Option.eq_none_iff_forall_ne_some.mpr fun argument found => ?_
      exact unfilled argument ((Template.argument?_eq_some_iff _).mp found)
    rw [none, Template.fillFrom_closer, ← template, ← toList_format, ← toList_format] at filled
    have whole : (Template.braced word ++ message.format text).toList =
        '{' :: (word.toList ++ '}' :: (message.format text).toList) := by
      simp [Template.braced]
    by_cases even : Even (Template.closers text.toList)
    · refine ⟨iff_of_true (String.toList_injective ?_) even, fun odd => absurd even odd⟩
      simpa [even, whole] using filled
    · have lost : message.format (Template.braced word ++ text) =
          String.ofList ('{' :: word.toList) ++ message.format text := by
        apply String.toList_injective
        simpa [even] using filled
      refine ⟨iff_of_false (fun kept => ?_) even, fun _ => lost⟩
      have lengths := congrArg (List.length ∘ String.toList) (lost.symm.trans kept)
      simp [Template.braced] at lengths

/-- A message with two arguments. -/
def twoArguments : Message :=
  ofId "default" ["x", "y"]

/-- Behind a word that is no index a text is filled as it is by itself, but a closing brace behind
an index without an argument is lost; and an index with a plus sign is filled. -/
theorem format_braced_twoArguments :
    twoArguments.format (Template.braced "nope" ++ Template.braced "1") =
        Template.braced "nope" ++ twoArguments.format (Template.braced "1") ∧
      twoArguments.format (Template.braced "2" ++ "\x7d") ≠
        Template.braced "2" ++ twoArguments.format "\x7d" ∧
      twoArguments.format (Template.braced "2" ++ "\x7d") = Template.braced "2" ∧
      twoArguments.format (Template.braced "+0" ++ "") = "x" := by
  have unfilled (word : String)
      (none : Template.argument? twoArguments.argumentList word.toList = none) (argument : String) :
      ¬ Template.Fills twoArguments.argumentList word.toList argument := by
    rw [← Template.argument?_eq_some_iff, none]
    exact nofun
  have name := (twoArguments.format_braced (by decide) (Template.braced "1")).2
    (unfilled "nope" rfl)
  have beyond := (twoArguments.format_braced (by decide) "\x7d").2 (unfilled "2" rfl)
  have signed := (twoArguments.format_braced (by decide) "").1 "x"
    ((Template.argument?_eq_some_iff _).mp (rfl : Template.argument? _ "+0".toList = some "x"))
  exact ⟨name.1.mpr (by decide), mt beyond.1.mp (by decide), beyond.2 (by decide), signed⟩

end Message
end Sarif
