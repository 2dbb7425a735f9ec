import Mathlib.Data.List.Forall2
import Sarif.Proofs.Text.Parsing

/-!
# Texts put together

A text that is one JSON value may stand between the marks of an array or object, whatever blanks
and spellings it has. It ends where a mark can follow, so in front of a mark it has the tokens
that it has alone (`Document.WholeText.tokens_append`), and these are parsed to its document on
top of whatever is open (`Document.WholeText.foldl_tokens`). So texts in brackets are the text of
the array of their documents, and named texts in braces that of the object.
-/

namespace Sarif

/-! ## Parsing within what is open -/

namespace Parse

/-- What may come next, with more frames open around it. -/
def within (outer : List Frame) : Parse → Parse
  | value stack => value (stack ++ outer)
  | firstItem stack => firstItem (stack ++ outer)
  | firstName stack => firstName (stack ++ outer)
  | name stack before => name (stack ++ outer) before
  | colon stack before key => colon (stack ++ outer) before key
  | complete stack inner => complete (stack ++ outer) inner
  | stopped root trailing => stopped root trailing

/-- The text has not gone wrong. -/
def GoesOn : Parse → Prop
  | stopped _ _ => False
  | _ => True

/-- Nothing comes after a text went wrong. -/
theorem foldl_stopped (root : Document) (trailing : Bool) (tokens : List Token) :
    tokens.foldl step (stopped root trailing) = stopped root trailing := by
  induction tokens with
  | nil => rfl
  | cons token rest inductionHypothesis => exact inductionHypothesis

/-- What goes on in the end has gone on from the start. -/
theorem goesOn_of_foldl {p : Parse} {tokens : List Token} (goesOn : (tokens.foldl step p).GoesOn) :
    p.GoesOn := by
  cases p with
  | stopped root trailing =>
      rw [foldl_stopped] at goesOn
      exact goesOn
  | _ => trivial

/-- A token does the same with more frames around, unless the text goes wrong. -/
theorem step_within (outer : List Frame) {p : Parse} {token : Token}
    (goesOn : (step p token).GoesOn) :
    step (within outer p) token = within outer (step p token) := by
  cases p with
  | stopped root trailing => exact goesOn.elim
  | complete stack inner =>
      cases stack with
      | nil => exact goesOn.elim
      | cons frame stack => cases frame <;> cases token <;> first | rfl | exact goesOn.elim
  | _ => cases token <;> first | rfl | exact goesOn.elim

/-- Tokens do the same with more frames around, unless the text goes wrong. -/
theorem foldl_within (outer : List Frame) {tokens : List Token} {p : Parse}
    (goesOn : (tokens.foldl step p).GoesOn) :
    tokens.foldl step (within outer p) = within outer (tokens.foldl step p) := by
  induction tokens generalizing p with
  | nil => rfl
  | cons token rest inductionHypothesis =>
      rw [List.foldl_cons, step_within outer (goesOn_of_foldl goesOn), inductionHypothesis goesOn]
      rfl

/-! ## Documents of texts that go wrong -/

/-- An array that is not closed is not skipped without a defect. -/
theorem skip_array_ne_none (items : List Document) (defect : Defect) :
    (Document.array items (some defect)).skip ≠ none := by
  rw [Document.skip]
  cases Document.skipItems items <;> exact nofun

/-- An object that is not closed is not skipped without a defect. -/
theorem skip_object_ne_none (members : List (Literal × Document)) (ending : Ending)
    (unclosed : ending.defect? ≠ none) : (Document.object members ending).skip ≠ none := by
  rw [Document.skip]
  cases Document.skipMembers members with
  | none => exact unclosed
  | some defect => exact nofun

/-- What is broken is not skipped without a defect. -/
theorem skip_broken_ne_none (b : Broken) : (Document.broken b).skip ≠ none := by
  rw [Document.skip]
  exact nofun

/-- What goes wrong within a document makes it one with a defect. -/
theorem skip_enclose_ne_none (stack : List Frame) {inner : Document} (broken : inner.skip ≠ none) :
    (enclose stack inner).skip ≠ none := by
  induction stack generalizing inner with
  | nil => exact broken
  | cons frame outer inductionHypothesis =>
      cases frame with
      | array before => exact inductionHypothesis (skip_array_ne_none _ _)
      | object before key => exact inductionHypothesis (skip_object_ne_none _ (.broken _) nofun)

/-- The document of a text that went wrong within it has a defect. -/
def Honest : Parse → Prop
  | stopped root false => root.skip ≠ none
  | _ => True

/-- A text that goes wrong within a document with a defect is honest about it. -/
theorem honest_stop (stack : List Frame) {inner : Document} (broken : inner.skip ≠ none) :
    (stop stack inner).Honest :=
  skip_enclose_ne_none stack broken

/-- A token where a value must come keeps to honesty. -/
theorem honest_stepValue (stack : List Frame) (token : Token) : (stepValue stack token).Honest := by
  cases token <;> first | trivial | exact honest_stop stack (skip_broken_ne_none _)

/-- A token where a name must come keeps to honesty. -/
theorem honest_stepName (stack : List Frame) (before : List (Literal × Document)) (token : Token) :
    (stepName stack before token).Honest := by
  cases token <;>
    first | trivial | exact honest_stop stack (skip_object_ne_none _ (.unnamed _) nofun)

/-- A token after a value keeps to honesty. -/
theorem honest_stepComplete (stack : List Frame) (inner : Document) (token : Token) :
    (stepComplete stack inner token).Honest := by
  cases stack with
  | nil => trivial
  | cons frame outer =>
      cases frame with
      | array before =>
        cases token <;> first | trivial | exact honest_stop _ (skip_array_ne_none _ _)
      | object before key =>
          cases token <;>
            first | trivial | exact honest_stop _ (skip_object_ne_none _ (.broken _) nofun)

/-- Any other token than the closing brace stands where the first name of an object must come. -/
theorem step_firstName (stack : List Frame) {token : Token} (other : token ≠ .closeObject) :
    step (firstName stack) token = stepName stack [] token := by
  cases token <;> first | rfl | exact absurd rfl other

/-- A token keeps to honesty. -/
theorem honest_step {p : Parse} (honest : p.Honest) (token : Token) : (step p token).Honest := by
  cases p with
  | value stack => exact honest_stepValue stack token
  | firstItem stack =>
      by_cases close : token = .closeArray
      · subst close
        trivial
      · rw [step_firstItem stack close]
        exact honest_stepValue _ token
  | firstName stack =>
      by_cases close : token = .closeObject
      · subst close
        trivial
      · rw [step_firstName stack close]
        exact honest_stepName stack [] token
  | name stack before => exact honest_stepName stack before token
  | colon stack before key =>
      cases token <;> first | trivial | exact honest_stop _ (skip_broken_ne_none _)
  | complete stack inner => exact honest_stepComplete stack inner token
  | stopped root trailing => exact honest

/-- Tokens keep to honesty. -/
theorem honest_foldl {p : Parse} (honest : p.Honest) (tokens : List Token) :
    (tokens.foldl step p).Honest := by
  induction tokens generalizing p with
  | nil => exact honest
  | cons token rest inductionHypothesis => exact inductionHypothesis (honest_step honest token)

/-- A parse that ends with a document without a defect has come to the end of it. -/
theorem eq_complete_of_finish {p : Parse} (honest : p.Honest) {d : Document}
    (finished : p.finish = (d, false)) (whole : d.skip = none) : p = complete [] d := by
  have broken {stack : List Frame} {inner : Document} (defect : inner.skip ≠ none)
      (ended : (enclose stack inner, false) = (d, false)) : p = complete [] d :=
    absurd ((Prod.mk.inj ended).1 ▸ whole) (skip_enclose_ne_none stack defect)
  cases p with
  | value stack => exact broken (skip_broken_ne_none _) finished
  | firstItem stack => exact broken (skip_broken_ne_none _) finished
  | firstName stack => exact broken (skip_object_ne_none _ (.unnamed _) nofun) finished
  | name stack before => exact broken (skip_object_ne_none _ (.unnamed _) nofun) finished
  | colon stack before key => exact broken (skip_broken_ne_none _) finished
  | complete stack inner =>
      match stack with
      | [] => exact congrArg (complete []) (Prod.mk.inj finished).1
      | .array before :: outer => exact broken (skip_array_ne_none _ _) finished
      | .object before key :: outer =>
          exact broken (skip_object_ne_none _ (.broken _) nofun) finished
  | stopped root trailing =>
      obtain ⟨rfl, rfl⟩ := Prod.mk.inj finished
      exact absurd whole honest

end Parse

/-! ## Where scanning ends -/

namespace Scan

/-- Where the scanner stands after a text. -/
def after : Scan → List Char → Scan
  | s, [] => s
  | s, c :: rest => (s.step c).1.after rest

/-- The tokens that are complete within a text. -/
def emitted : Scan → List Char → List Token
  | _, [] => []
  | s, c :: rest => (s.step c).2 ++ (s.step c).1.emitted rest

/-- A text is scanned up to its end and on from there. -/
theorem tokens_append (s : Scan) (text rest : List Char) :
    s.tokens (text ++ rest) = s.emitted text ++ (s.after text).tokens rest := by
  induction text generalizing s with
  | nil => rfl
  | cons c text inductionHypothesis =>
      rw [List.cons_append, tokens, inductionHypothesis, emitted, after, List.append_assoc]

/-- A token after which the scanner is silent. -/
def Defective : Token → Prop
  | .broken _ => True
  | .literal l => l.defect ≠ none
  | _ => False

/-- A step of the scanner after which it is silent completes a defective token. -/
def Reports (taken : Scan × List Token) : Prop :=
  taken.1 = .stopped → ∃ before token, taken.2 = before ++ [token] ∧ Defective token

/-- A step that goes on has nothing to report. -/
theorem reports_of_ne {s : Scan} {completed : List Token} (goesOn : s ≠ .stopped) :
    Reports (s, completed) :=
  fun stopped => absurd stopped goesOn

/-- A step that stops reports the token that it stops with. -/
theorem reports_stop {token : Token} (defective : Defective token) : Reports (stop token) :=
  fun _ => ⟨[], token, rfl, defective⟩

/-- A step reports whichever way it goes if it does so either way. -/
theorem reports_ite {p : Prop} [Decidable p] {yes no : Scan × List Token} (first : Reports yes)
    (second : Reports no) : Reports (if p then yes else no) := by
  split
  · exact first
  · exact second

/-- The beginning of a word is a defective token. -/
theorem defective_brokenWord (token : Token) (defect : Defect) :
    Defective (brokenWord token defect) :=
  trivial

/-- Between tokens the scanner stops at a defective one. -/
theorem reports_stepBetween (c : Char) : Reports (stepBetween c) := by
  unfold stepBetween
  repeat' apply reports_ite
  all_goals first | exact reports_stop trivial | exact reports_of_ne (by simp)

/-- In a word the scanner stops at a defective token. -/
theorem reports_stepWord (rest : List Char) (token : Token) (c : Char) :
    Reports (stepWord rest token c) := by
  unfold stepWord
  repeat' split
  all_goals first | exact reports_stop (defective_brokenWord _ _) | exact reports_of_ne (by simp)

/-- Where a number is over the scanner stops at a defective token. -/
theorem reports_endNumeral (n : Numeral) (c : Char) : Reports (endNumeral n c) := by
  intro stopped
  obtain ⟨before, token, completed, defective⟩ := reports_stepBetween c stopped
  exact ⟨.numeral n :: before, token, congrArg (List.cons (Token.numeral n)) completed, defective⟩

/-- In a number the scanner stops at a defective token. -/
theorem reports_stepNumeral (phase : NumeralPhase) (n : Numeral) (c : Char) :
    Reports (stepNumeral phase n c) := by
  unfold stepNumeral
  repeat' split
  all_goals
    first
      | exact reports_stop trivial
      | exact reports_endNumeral n c
      | exact reports_of_ne (by simp)

/-- In a string the scanner stops at a defective token. -/
theorem reports_badLiteral (before : List Piece) (defect : Defect) :
    Reports (badLiteral before defect) :=
  reports_stop (nofun : some defect ≠ none)

/-- Between the quotes of a string the scanner stops at a defective token. -/
theorem reports_stepLiteral (before : List Piece) (c : Char) : Reports (stepLiteral before c) := by
  unfold stepLiteral
  repeat' apply reports_ite
  all_goals first | exact reports_badLiteral _ _ | exact reports_of_ne (by simp)

/-- After a backslash the scanner stops at a defective token. -/
theorem reports_stepEscape (before : List Piece) (c : Char) : Reports (stepEscape before c) := by
  unfold stepEscape
  repeat' apply reports_ite
  all_goals first | exact reports_badLiteral _ _ | exact reports_of_ne (by simp)

/-- In a four-digit escape the scanner stops at a defective token. -/
theorem reports_stepUnit (before : List Piece) (value bytes : Nat) (valid : Bool) (c : Char) :
    Reports (stepUnit before value bytes valid c) := by
  unfold stepUnit
  repeat' apply reports_ite
  all_goals first | exact reports_badLiteral _ _ | exact reports_of_ne (by simp)

/-- The scanner stops at a defective token. -/
theorem reports_step {s : Scan} (goesOn : s ≠ .stopped) (c : Char) : Reports (s.step c) := by
  cases s with
  | between => exact reports_stepBetween c
  | word rest token => exact reports_stepWord rest token c
  | numeral phase n => exact reports_stepNumeral phase n c
  | literal before => exact reports_stepLiteral before c
  | escape before => exact reports_stepEscape before c
  | unit before value bytes valid => exact reports_stepUnit before value bytes valid c
  | stopped => exact absurd rfl goesOn

/-- A silent scanner stays silent. -/
theorem emitted_stopped (text : List Char) : stopped.emitted text = [] := by
  induction text with
  | nil => rfl
  | cons c text inductionHypothesis => exact inductionHypothesis

/-- A scanner that a text has silenced has reported a defective token last. -/
theorem reports_run {s : Scan} (goesOn : s ≠ .stopped) (text : List Char) :
    Reports (s.after text, s.emitted text) := by
  induction text generalizing s with
  | nil => exact reports_of_ne goesOn
  | cons c text inductionHypothesis =>
      by_cases here : (s.step c).1 = .stopped
      · intro _
        obtain ⟨before, token, completed, defective⟩ := reports_step goesOn c here
        refine ⟨before, token, ?_, defective⟩
        rw [emitted, here, emitted_stopped, List.append_nil]
        exact completed
      · intro silent
        obtain ⟨before, token, completed, defective⟩ := inductionHypothesis here silent
        refine ⟨(s.step c).2 ++ before, token, ?_, defective⟩
        rw [emitted, List.append_assoc]
        exact congrArg _ completed

/-- A text may end here and be followed by a mark. -/
def Ends : Scan → Prop
  | between => True
  | numeral phase _ => mayEnd phase = true
  | _ => False

/-- Where a text may end, a mark after it begins new tokens. -/
theorem Ends.tokens {s : Scan} (ends : s.Ends) {rest : List Char} (delimited : Delimited rest) :
    s.tokens rest = s.finish ++ between.tokens rest := by
  cases s with
  | between => rfl
  | numeral phase n =>
      rw [tokens_end n ends delimited]
      cases phase <;> first | rfl | cases ends
  | _ => exact ends.elim

/-- A text that may not end here ends with a defective token. -/
theorem exists_defective {s : Scan} (going : ¬ s.Ends) (goesOn : s ≠ .stopped) :
    ∃ token, s.finish = [token] ∧ Defective token := by
  cases s with
  | between => exact absurd trivial going
  | word rest token => exact ⟨_, rfl, defective_brokenWord _ _⟩
  | numeral phase n =>
      cases phase <;> first | exact absurd rfl going | exact ⟨_, rfl, trivial⟩
  | stopped => exact absurd rfl goesOn
  | _ => exact ⟨_, rfl, (nofun : some Defect.truncated ≠ none)⟩

end Scan

/-- A defective token does not complete a document without a defect. -/
theorem Parse.not_defective {p : Parse} {token : Token} {d : Document}
    (ended : step p token = complete [] d) (whole : d.skip = none) : ¬ Scan.Defective token := by
  intro defective
  cases token with
  | broken b =>
      cases p with
      | complete stack inner =>
          cases stack with
          | nil => cases ended
          | cons frame stack => cases frame <;> cases ended
      | _ => cases ended
  | literal l =>
      cases p with
      | value stack =>
          cases ended
          exact defective whole
      | complete stack inner =>
          cases stack with
          | nil => cases ended
          | cons frame stack => cases frame <;> cases ended
      | _ => cases ended
  | _ => exact defective

/-! ## Whole texts -/

namespace Document

open Parse (step)
open Scan (between Delimited tokens_comma tokens_colon)

/-- A text that is one JSON value with a document. -/
structure WholeText (text : List Char) (d : Document) : Prop where
  parsed : ofText text = (d, false)
  whole : d.skip = none

namespace WholeText

variable {text : List Char} {d : Document}

/-- The tokens of a whole text complete its document. -/
theorem foldl_value (isWhole : WholeText text d) :
    (Token.ofText text).foldl step (.value []) = .complete [] d :=
  Parse.eq_complete_of_finish (Parse.honest_foldl (p := .value []) trivial _) isWhole.parsed
    isWhole.whole

/-- A whole text ends where a mark may follow. -/
theorem ends (isWhole : WholeText text d) : (between.after text).Ends := by
  have scanned : Token.ofText text = between.emitted text ++ (between.after text).finish := by
    have split := between.tokens_append text []
    rwa [List.append_nil] at split
  -- The last token is not defective, or the document would not be whole.
  have last {before : List Token} {token : Token} (tokens : Token.ofText text = before ++ [token]) :
      ¬ Scan.Defective token := by
    have completed := isWhole.foldl_value
    rw [tokens, List.foldl_append] at completed
    exact Parse.not_defective completed isWhole.whole
  by_cases silent : between.after text = .stopped
  · obtain ⟨before, token, completed, defective⟩ :=
      Scan.reports_run (s := between) nofun text silent
    rw [silent] at scanned
    exact absurd defective (last (scanned.trans ((List.append_nil _).trans completed)))
  · by_cases going : (between.after text).Ends
    · exact going
    · obtain ⟨token, finished, defective⟩ := Scan.exists_defective going silent
      rw [finished] at scanned
      exact absurd defective (last scanned)

/-- The tokens of a whole text in front of a mark are those that it has alone. -/
theorem tokens_append (isWhole : WholeText text d) {rest : List Char} (delimited : Delimited rest) :
    between.tokens (text ++ rest) = Token.ofText text ++ between.tokens rest := by
  have alone := between.tokens_append text []
  rw [List.append_nil] at alone
  rw [Scan.tokens_append, isWhole.ends.tokens delimited, Token.ofText, alone, List.append_assoc]
  rfl

/-- The tokens of a whole text are parsed as its document, on whatever is open. -/
theorem foldl_tokens (isWhole : WholeText text d) (stack : List Frame) :
    (Token.ofText text).foldl step (.value stack) = .complete stack d := by
  have completed := isWhole.foldl_value
  have goesOn : ((Token.ofText text).foldl step (.value [])).GoesOn := by
    rw [completed]
    trivial
  have within := Parse.foldl_within stack goesOn
  rw [completed] at within
  exact within

/-- The tokens of a whole text are parsed as its document, as the first item of an array. -/
theorem foldl_firstItem (isWhole : WholeText text d) (stack : List Frame) :
    (Token.ofText text).foldl step (.firstItem stack) = .complete (.array [] :: stack) d := by
  have alone := isWhole.foldl_value
  have inside := isWhole.foldl_tokens (.array [] :: stack)
  cases tokens : Token.ofText text with
  | nil =>
      rw [tokens] at alone
      cases alone
  | cons token rest =>
      rw [tokens] at alone inside
      have other : token ≠ .closeArray := by
        rintro rfl
        have stopped : step (.value []) .closeArray = .stopped (.broken .unexpected) false := rfl
        rw [List.foldl_cons, stopped, Parse.foldl_stopped] at alone
        cases alone
      rw [List.foldl_cons, Parse.step_firstItem stack other]
      exact inside

end WholeText

/-! ## Arrays and objects of texts -/

/-- Texts with commas between them. -/
def commaSeparated (texts : List (List Char)) : List Char :=
  List.intercalate [','] texts

/-- The first of several texts stands without a comma, and each of the others has one in front. -/
theorem commaSeparated_cons (text : List Char) (texts : List (List Char)) :
    commaSeparated (text :: texts) = text ++ texts.flatMap (',' :: ·) := by
  induction texts generalizing text with
  | nil => simp [commaSeparated]
  | cons next texts inductionHypothesis =>
      have later := inductionHypothesis next
      rw [commaSeparated] at later
      rw [commaSeparated, List.intercalate_cons_cons, later, List.flatMap_cons, List.append_assoc]
      rfl

/-- More texts, or the closing mark, delimit a text. -/
theorem delimited_more (texts : List (List Char)) {mark : Char} (closing : mark = ']' ∨ mark = '}')
    (rest : List Char) : Delimited (texts.flatMap (',' :: ·) ++ mark :: rest) := by
  cases texts with
  | nil => exact (.inr closing : mark = ',' ∨ mark = ']' ∨ mark = '}')
  | cons text texts => exact (.inl rfl : ',' = ',' ∨ ',' = ']' ∨ ',' = '}')

/-- The texts of the items after another one are parsed into the array around them. -/
theorem foldl_moreItemTexts {texts : List (List Char)} {items : List Document}
    (each : List.Forall₂ WholeText texts items) (stack : List Frame) (before : List Document)
    (inner : Document) (rest : List Char) :
    (between.tokens (texts.flatMap (',' :: ·) ++ ']' :: rest)).foldl step
        (.complete (.array before :: stack) inner) =
      (between.tokens rest).foldl step
        (.complete stack (.array (before.reverse ++ inner :: items) none)) := by
  induction each generalizing before inner with
  | nil => rfl
  | @cons text item texts _ head _ inductionHypothesis =>
      have later := inductionHypothesis (inner :: before) item
      rw [List.reverse_cons, List.append_assoc] at later
      have opened : step (.complete (.array before :: stack) inner) .comma =
          .value (.array (inner :: before) :: stack) := rfl
      rw [List.flatMap_cons, List.cons_append, List.cons_append, List.append_assoc, tokens_comma,
        head.tokens_append (delimited_more texts (.inl rfl) rest), List.foldl_cons, opened,
        List.foldl_append, head.foldl_tokens]
      exact later

/-- Whole texts in brackets are the text of the array of their documents. -/
theorem WholeText.array {texts : List (List Char)} {items : List Document}
    (each : List.Forall₂ WholeText texts items) :
    WholeText ('[' :: (commaSeparated texts ++ [']'])) (.array items none) where
  parsed := by
    have opened (more : List Char) :
        (between.tokens ('[' :: more)).foldl step (.value []) =
          (between.tokens more).foldl step (.firstItem []) := rfl
    rw [ofText, ofTokens, Token.ofText, opened]
    cases each with
    | nil => rfl
    | @cons text item texts items head tail =>
        have later := foldl_moreItemTexts tail [] [] item []
        rw [commaSeparated_cons, List.append_assoc,
          head.tokens_append (delimited_more texts (.inl rfl) []), List.foldl_append,
          head.foldl_firstItem, later]
        rfl
  whole := by
    have sound : ∀ item ∈ items, item.skip = none :=
      ((List.forall₂_and_left _ _).mp (each.flip.imp fun _ _ isWhole => ⟨isWhole.whole, isWhole⟩)).1
    rw [skip, skipItems_eq_none sound]
    rfl

/-- The text of a member of an object. -/
def memberText (name : Literal) (text : List Char) : List Char :=
  name.text ++ ':' :: text

/-- A member with a sound name and the document of a whole text. -/
structure WholeMember (text : List Char) (member : Literal × Document) : Prop where
  sound : member.1.Sound
  isMember : ∃ value, text = memberText member.1 value ∧ WholeText value member.2

/-- A member with a whole text has no defect. -/
theorem WholeMember.skip {text : List Char} {member : Literal × Document}
    (isMember : WholeMember text member) : member.1.defect = none ∧ member.2.skip = none := by
  obtain ⟨_, _, isWhole⟩ := isMember.isMember
  exact ⟨isMember.sound.1, isWhole.whole⟩

/-- The text of a member is parsed as the member where a name must come. -/
theorem WholeMember.foldl_name {text : List Char} {member : Literal × Document}
    (isMember : WholeMember text member) {rest : List Char} (delimited : Delimited rest)
    (stack : List Frame) (before : List (Literal × Document)) :
    (between.tokens (text ++ rest)).foldl step (.name stack before) =
      (between.tokens rest).foldl step (.complete (.object before member.1 :: stack) member.2) := by
  obtain ⟨value, rfl, isWhole⟩ := isMember.isMember
  have opened : step (step (.name stack before) (.literal member.1)) .colon =
      .value (.object before member.1 :: stack) := rfl
  rw [memberText, List.append_assoc, Scan.tokens_literal isMember.sound, List.cons_append,
    tokens_colon, isWhole.tokens_append delimited, List.foldl_cons, List.foldl_cons, opened,
    List.foldl_append, isWhole.foldl_tokens]

/-- The text of a member is parsed after an opening brace as it is after a comma. -/
theorem WholeMember.foldl_firstName {text : List Char} {member : Literal × Document}
    (isMember : WholeMember text member) (rest : List Char) (stack : List Frame) :
    (between.tokens (text ++ rest)).foldl step (.firstName stack) =
      (between.tokens (text ++ rest)).foldl step (.name stack []) := by
  obtain ⟨value, rfl, _⟩ := isMember.isMember
  rw [memberText, List.append_assoc, Scan.tokens_literal isMember.sound]
  rfl

/-- The texts of the members after another one are parsed into the object around them. -/
theorem foldl_moreMemberTexts {texts : List (List Char)} {members : List (Literal × Document)}
    (each : List.Forall₂ WholeMember texts members) (stack : List Frame)
    (before : List (Literal × Document)) (key : Literal) (inner : Document) (rest : List Char) :
    (between.tokens (texts.flatMap (',' :: ·) ++ '}' :: rest)).foldl step
        (.complete (.object before key :: stack) inner) =
      (between.tokens rest).foldl step
        (.complete stack (.object (before.reverse ++ (key, inner) :: members) .closed)) := by
  induction each generalizing before key inner with
  | nil => rfl
  | @cons text member texts _ head _ inductionHypothesis =>
      have later := inductionHypothesis ((key, inner) :: before) member.1 member.2
      rw [List.reverse_cons, List.append_assoc] at later
      rw [List.flatMap_cons, List.cons_append, List.cons_append, List.append_assoc, tokens_comma,
        List.foldl_cons]
      exact (head.foldl_name (delimited_more texts (.inr rfl) rest) stack _).trans later

/-- The texts of members in braces are the text of the object of the members. -/
theorem WholeText.object {texts : List (List Char)} {members : List (Literal × Document)}
    (each : List.Forall₂ WholeMember texts members) :
    WholeText ('{' :: (commaSeparated texts ++ ['}'])) (.object members .closed) where
  parsed := by
    have opened (more : List Char) :
        (between.tokens ('{' :: more)).foldl step (.value []) =
          (between.tokens more).foldl step (.firstName []) := rfl
    rw [ofText, ofTokens, Token.ofText, opened]
    cases each with
    | nil => rfl
    | @cons text member texts members head tail =>
        have later := foldl_moreMemberTexts tail [] [] member.1 member.2 []
        rw [commaSeparated_cons, List.append_assoc, head.foldl_firstName,
          head.foldl_name (delimited_more texts (.inr rfl) []), later]
        rfl
  whole := by
    have sound : ∀ member ∈ members, member.1.defect = none ∧ member.2.skip = none :=
      ((List.forall₂_and_left _ _).mp (each.flip.imp
        fun _ _ isMember => ⟨isMember.skip, isMember⟩)).1
    rw [skip, skipMembers_eq_none sound]
    rfl

end Document
end Sarif
