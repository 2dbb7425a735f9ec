import Sarif.Proofs.Text.Scanning
import Sarif.Text.Document

/-!
# Parsing what is spelled

A document with nothing broken in it is the document of its own spelling. The way goes through its
tokens: scanning the spelling gives the tokens, and the stack of open arrays and objects takes the
tokens of a value to that value on top of the stack it started from.
-/

namespace Sarif
namespace Document

mutual

/-- A sound document has nothing broken in it. -/
def Sound : Document → Prop
  | .null => True
  | .boolean _ => True
  | .numeral n => n.Sound
  | .literal l => l.Sound
  | .array items defect => defect = none ∧ SoundItems items
  | .object members ending => ending = .closed ∧ SoundMembers members
  | .broken _ => False

/-- Every document of a run is sound. -/
def SoundItems : List Document → Prop
  | [] => True
  | item :: rest => Sound item ∧ SoundItems rest

/-- Every name and every document in a run of members is sound. -/
def SoundMembers : List (Literal × Document) → Prop
  | [] => True
  | (name, value) :: rest => name.Sound ∧ Sound value ∧ SoundMembers rest

end

mutual

/-- The tokens of a document. -/
def tokens : Document → List Token
  | .null => [.null]
  | .boolean b => [.boolean b]
  | .numeral n => [.numeral n]
  | .literal l => [.literal l]
  | .array items _ => .openArray :: itemTokens items ++ [.closeArray]
  | .object members _ => .openObject :: memberTokens members ++ [.closeObject]
  | .broken b => [.broken b]

/-- The tokens of a run of items, with commas between them. -/
def itemTokens : List Document → List Token
  | [] => []
  | item :: rest => tokens item ++ moreItemTokens rest

/-- The tokens of the items after the first, each with a comma in front. -/
def moreItemTokens : List Document → List Token
  | [] => []
  | item :: rest => .comma :: tokens item ++ moreItemTokens rest

/-- The tokens of a run of members, with commas between them. -/
def memberTokens : List (Literal × Document) → List Token
  | [] => []
  | (name, value) :: rest => .literal name :: .colon :: tokens value ++ moreMemberTokens rest

/-- The tokens of the members after the first, each with a comma in front. -/
def moreMemberTokens : List (Literal × Document) → List Token
  | [] => []
  | (name, value) :: rest =>
    .comma :: .literal name :: .colon :: tokens value ++ moreMemberTokens rest

end

/-! ## Scanning gives the tokens -/

open Scan

/-- More items, or the end of an array, delimit an item. -/
theorem delimited_moreItemsText (items : List Document) (rest : List Char) :
    Delimited (moreItemsText items ++ ']' :: rest) := by
  cases items <;> simp [moreItemsText, Delimited]

/-- More members, or the end of an object, delimit a value. -/
theorem delimited_moreMembersText (members : List (Literal × Document)) (rest : List Char) :
    Delimited (moreMembersText members ++ '}' :: rest) := by
  cases members <;> simp [moreMembersText, Delimited]

mutual

/-- The spelling of a sound document is scanned as its tokens. -/
theorem tokens_text : (d : Document) → d.Sound → (rest : List Char) → Delimited rest →
    between.tokens (d.text ++ rest) = d.tokens ++ between.tokens rest
  | .null, _, rest, _ => tokens_null rest
  | .boolean true, _, rest, _ => tokens_true rest
  | .boolean false, _, rest, _ => tokens_false rest
  | .numeral _, sound, _, delimited => tokens_numeral sound delimited
  | .literal _, sound, rest, _ => tokens_literal sound rest
  | .array items _, sound, rest, _ => by
      have opened : between.tokens ('[' :: (itemsText items ++ ']' :: rest)) =
          .openArray :: between.tokens (itemsText items ++ ']' :: rest) := rfl
      simp [text, tokens, opened, tokens_itemsText items sound.2 rest]
  | .object members _, sound, rest, _ => by
      have opened : between.tokens ('{' :: (membersText members ++ '}' :: rest)) =
          .openObject :: between.tokens (membersText members ++ '}' :: rest) := rfl
      simp [text, tokens, opened, tokens_membersText members sound.2 rest]

/-- The spelling of sound items is scanned as their tokens. -/
theorem tokens_itemsText : (items : List Document) → SoundItems items → (rest : List Char) →
    between.tokens (itemsText items ++ ']' :: rest) =
      itemTokens items ++ .closeArray :: between.tokens rest
  | [], _, _ => rfl
  | item :: items, sound, rest => by
      have head := tokens_text item sound.1 _ (delimited_moreItemsText items rest)
      simp [itemsText, itemTokens, head, tokens_moreItemsText items sound.2 rest]

/-- The spelling of sound items after the first is scanned as their tokens. -/
theorem tokens_moreItemsText : (items : List Document) → SoundItems items →
    (rest : List Char) →
    between.tokens (moreItemsText items ++ ']' :: rest) =
      moreItemTokens items ++ .closeArray :: between.tokens rest
  | [], _, _ => rfl
  | item :: items, sound, rest => by
      have head := tokens_text item sound.1 _ (delimited_moreItemsText items rest)
      simp [moreItemsText, moreItemTokens, tokens_comma, head,
        tokens_moreItemsText items sound.2 rest]

/-- The spelling of sound members is scanned as their tokens. -/
theorem tokens_membersText : (members : List (Literal × Document)) → SoundMembers members →
    (rest : List Char) →
    between.tokens (membersText members ++ '}' :: rest) =
      memberTokens members ++ .closeObject :: between.tokens rest
  | [], _, _ => rfl
  | (name, value) :: members, sound, rest => by
      have head := tokens_text value sound.2.1 _ (delimited_moreMembersText members rest)
      simp [membersText, memberTokens, tokens_literal sound.1, tokens_colon, head,
        tokens_moreMembersText members sound.2.2 rest]

/-- The spelling of sound members after the first is scanned as their tokens. -/
theorem tokens_moreMembersText : (members : List (Literal × Document)) →
    SoundMembers members → (rest : List Char) →
    between.tokens (moreMembersText members ++ '}' :: rest) =
      moreMemberTokens members ++ .closeObject :: between.tokens rest
  | [], _, _ => rfl
  | (name, value) :: members, sound, rest => by
      have head := tokens_text value sound.2.1 _ (delimited_moreMembersText members rest)
      simp [moreMembersText, moreMemberTokens, tokens_literal sound.1, tokens_comma,
        tokens_colon, head, tokens_moreMembersText members sound.2.2 rest]

end

end Document

/-! ## Parsing gives the document -/

/-- Any other token than the closing bracket begins the first item of an array. -/
theorem Parse.step_firstItem (stack : List Frame) {token : Token} (other : token ≠ .closeArray) :
    step (firstItem stack) token = stepValue (.array [] :: stack) token := by
  cases token <;> first | rfl | exact absurd rfl other

namespace Document

open Parse (step)

/-- The tokens of a sound document begin with one that is not a closing bracket. -/
theorem tokens_cases : (d : Document) →
    ∃ token rest, d.tokens = token :: rest ∧ token ≠ .closeArray
  | .null => ⟨_, _, rfl, by decide⟩
  | .boolean _ => ⟨_, _, rfl, by simp⟩
  | .numeral _ => ⟨_, _, rfl, by simp⟩
  | .literal _ => ⟨_, _, rfl, by simp⟩
  | .array _ _ => ⟨_, _, rfl, by decide⟩
  | .object _ _ => ⟨_, _, rfl, by decide⟩
  | .broken _ => ⟨_, _, rfl, by simp⟩

/-- The first item of an array is parsed as any value in it. -/
theorem foldl_firstItem (stack : List Frame) (d : Document) (more : List Token) :
    (d.tokens ++ more).foldl step (.firstItem stack) =
      (d.tokens ++ more).foldl step (.value (.array [] :: stack)) := by
  obtain ⟨token, rest, shape, other⟩ := tokens_cases d
  rw [shape, List.cons_append, List.foldl_cons, List.foldl_cons, Parse.step_firstItem stack other]
  rfl

-- The stack is arbitrary, since what stands within an array or object is parsed behind its frame.
mutual

/-- The tokens of a sound document are parsed as the document, on the stack before it. -/
theorem foldl_tokens : (d : Document) → d.Sound → (stack : List Frame) →
    d.tokens.foldl step (.value stack) = .complete stack d
  | .null, _, _ => rfl
  | .boolean _, _, _ => rfl
  | .numeral _, _, _ => rfl
  | .literal _, _, _ => rfl
  | .array [] _, sound, stack => by
      obtain rfl := sound.1
      rfl
  | .array (item :: items) _, sound, stack => by
      obtain rfl := sound.1
      have opened : step (.value stack) .openArray = .firstItem stack := rfl
      have head := foldl_tokens item sound.2.1 (.array [] :: stack)
      have tail := foldl_moreItemTokens items sound.2.2 stack [] item
      rw [tokens, itemTokens, List.cons_append, List.foldl_cons, opened, List.append_assoc,
        foldl_firstItem, List.foldl_append, head, tail]
      rfl
  | .object [] _, sound, stack => by
      obtain rfl := sound.1
      rfl
  | .object ((name, value) :: members) _, sound, stack => by
      obtain rfl := sound.1
      have head := foldl_tokens value sound.2.2.1 (.object [] name :: stack)
      have tail := foldl_moreMemberTokens members sound.2.2.2 stack [] name value
      have opened (more : List Token) :
          (Token.openObject :: .literal name :: .colon :: more).foldl step (.value stack) =
            more.foldl step (.value (.object [] name :: stack)) := rfl
      simp only [tokens, memberTokens, List.cons_append, List.append_assoc]
      rw [opened, List.foldl_append, head, tail]
      rfl

/-- The tokens of the items after another one are parsed into the array around them. -/
theorem foldl_moreItemTokens : (items : List Document) → SoundItems items →
    (stack : List Frame) → (before : List Document) → (inner : Document) →
    (moreItemTokens items ++ [Token.closeArray]).foldl step
      (.complete (.array before :: stack) inner) =
      .complete stack (.array (before.reverse ++ inner :: items) none)
  | [], _, _, _, _ => rfl
  | item :: items, sound, stack, before, inner => by
      have comma (more : List Token) :
          (Token.comma :: more).foldl step (.complete (.array before :: stack) inner) =
            more.foldl step (.value (.array (inner :: before) :: stack)) := rfl
      have head := foldl_tokens item sound.1 (.array (inner :: before) :: stack)
      have tail := foldl_moreItemTokens items sound.2 stack (inner :: before) item
      rw [moreItemTokens, List.cons_append, List.cons_append, comma, List.append_assoc,
        List.foldl_append, head, tail]
      simp

/-- The tokens of the members after another one are parsed into the object around them. -/
theorem foldl_moreMemberTokens : (members : List (Literal × Document)) →
    SoundMembers members → (stack : List Frame) → (before : List (Literal × Document)) →
    (key : Literal) → (inner : Document) →
    (moreMemberTokens members ++ [Token.closeObject]).foldl step
        (.complete (.object before key :: stack) inner) =
      .complete stack (.object (before.reverse ++ (key, inner) :: members) .closed)
  | [], _, _, _, _, _ => rfl
  | (name, value) :: members, sound, stack, before, key, inner => by
      have comma (more : List Token) :
          (Token.comma :: .literal name :: .colon :: more).foldl step
              (.complete (.object before key :: stack) inner) =
            more.foldl step (.value (.object ((key, inner) :: before) name :: stack)) := rfl
      have head := foldl_tokens value sound.2.1 (.object ((key, inner) :: before) name :: stack)
      have tail := foldl_moreMemberTokens members sound.2.2 stack ((key, inner) :: before) name
        value
      simp only [moreMemberTokens, List.cons_append, List.append_assoc]
      rw [comma, List.foldl_append, head, tail]
      simp

end

/-- A sound document is the document of its spelling. -/
theorem ofText_text {d : Document} (sound : d.Sound) : ofText d.text = (d, false) := by
  have scanned := tokens_text d sound [] trivial
  rw [List.append_nil] at scanned
  have parsed := foldl_tokens d sound []
  have tokens : Token.ofText d.text = d.tokens := by
    rw [Token.ofText, scanned]
    exact List.append_nil _
  rw [ofText, ofTokens, tokens, parsed]
  rfl

/-- A sound document is the document of its text. -/
theorem ofText_render {d : Document} (sound : d.Sound) : ofText d.render.toList = (d, false) := by
  rw [render, String.toList_ofList]
  exact ofText_text sound

/-! ## Skipping what has no defect -/

/-- A run of items has no defect if none of them has. -/
theorem skipItems_eq_none {items : List Document} (each : ∀ item ∈ items, item.skip = none) :
    skipItems items = none := by
  induction items with
  | nil => rfl
  | cons item rest inductionHypothesis =>
      rw [List.forall_mem_cons] at each
      rw [skipItems, each.1, inductionHypothesis each.2]
      rfl

/-- A run of members has no defect if none of the names and the values has. -/
theorem skipMembers_eq_none {members : List (Literal × Document)}
    (each : ∀ member ∈ members, member.1.defect = none ∧ member.2.skip = none) :
    skipMembers members = none := by
  induction members with
  | nil => rfl
  | cons member rest inductionHypothesis =>
      rw [List.forall_mem_cons] at each
      rw [skipMembers, each.1.1, each.1.2, inductionHypothesis each.2]
      rfl

end Document
end Sarif
