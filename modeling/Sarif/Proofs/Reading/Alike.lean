import Mathlib.Data.List.Forall2
import Mathlib.Data.List.Perm.Basic
import Sarif.Proofs.Dict
import Sarif.Proofs.Reading.Scalars

/-!
# Documents that say the same

Two documents are alike when they differ in no more than the order in which the members of an
object come and the way in which strings and numbers are spelled. Which numerals count as one is a
parameter: those of equal numbers, where the two zeros are equal, or those of which one is what a
reader keeps the other as. Everything else tells documents apart: the order of an array, a null in
it, a member that is missing, an integer and a floating-point number of one value. A document in
which something is broken is like no other.

Being alike can be turned round and is transitive if the relation on numerals is. Members with
names in one order need no reordering, if no name comes twice; `Distinct` says this of every
object of a document. `Document.induction` is the induction over what stands in arrays and objects
that these proofs use.
-/

namespace Sarif

/-- What holds of a document if it holds of what stands in it, holds of every document. -/
theorem Document.induction {motive : Document → Prop} (null : motive .null)
    (boolean : ∀ b, motive (.boolean b)) (numeral : ∀ n, motive (.numeral n))
    (literal : ∀ l, motive (.literal l))
    (array : ∀ items defect, (∀ item ∈ items, motive item) → motive (.array items defect))
    (object : ∀ members ending, (∀ member ∈ members, motive member.2) →
      motive (.object members ending))
    (broken : ∀ what, motive (.broken what)) (d : Document) : motive d :=
  @Document.rec motive (fun items => ∀ item ∈ items, motive item)
    (fun members => ∀ member ∈ members, motive member.2) (fun member => motive member.2)
    null boolean numeral literal array object broken
    (fun _ inside => nomatch inside)
    (fun _ _ head tail => List.forall_mem_cons.mpr ⟨head, tail⟩)
    (fun _ inside => nomatch inside)
    (fun _ _ head tail => List.forall_mem_cons.mpr ⟨head, tail⟩)
    (fun _ _ holds => holds) d

/-- Numerals that denote equal numbers. -/
def Numeral.Same (n m : Numeral) : Prop :=
  ∃ a b, n.number? = some a ∧ m.number? = some b ∧ a.same b = true

/-- Literals of one string. -/
def Literal.Alike (l m : Literal) : Prop :=
  ∃ s, l.read = .ok s ∧ m.read = .ok s

namespace Document

section Alike

variable (relate : Numeral → Numeral → Prop)

mutual

/-- Documents that differ in no more than the order of members and the spelling of strings and
numbers, where related numerals count as one. -/
def Alike : Document → Document → Prop
  | .null, e => match e with
    | .null => True
    | _ => False
  | .boolean b, e => match e with
    | .boolean c => b = c
    | _ => False
  | .numeral n, e => match e with
    | .numeral m => relate n m
    | _ => False
  | .literal l, e => match e with
    | .literal m => l.Alike m
    | _ => False
  | .array items defect, e => match defect, e with
    | none, .array others none => AlikeItems items others
    | _, _ => False
  | .object members ending, e => match ending, e with
    | .closed, .object others .closed =>
      ∃ reordered, others.Perm reordered ∧ AlikeMembers members reordered
    | _, _ => False
  | .broken _, _ => False

/-- Items that are alike one by one. -/
def AlikeItems : List Document → List Document → Prop
  | [], others => others = []
  | item :: rest, others => match others with
    | [] => False
    | other :: more => Alike item other ∧ AlikeItems rest more

/-- Members that are alike one by one. -/
def AlikeMembers : List (Literal × Document) → List (Literal × Document) → Prop
  | [], others => others = []
  | (name, value) :: rest, others => match others with
    | [] => False
    | (name', value') :: more => name.Alike name' ∧ Alike value value' ∧ AlikeMembers rest more

end

end Alike

/-- Documents that differ in no more than the order of members, the spelling of strings and numbers,
and the sign of a zero. -/
def Same (d e : Document) : Prop :=
  d.Alike Numeral.Same e

/-- Texts of documents that are the same. -/
def SameText (one other : String) : Prop :=
  ∃ d e, ofText one.toList = (d, false) ∧ ofText other.toList = (e, false) ∧ d.Same e

/-- What the names of members are read as. -/
def names (members : List (Literal × Document)) : List (Except Problem String) :=
  members.map fun member => member.1.read

mutual

/-- No object of a document has a name twice, at any depth. -/
def Distinct : Document → Prop
  | .array items _ => DistinctItems items
  | .object members _ => (names members).Nodup ∧ DistinctMembers members
  | _ => True

/-- No object in a run of items has a name twice. -/
def DistinctItems : List Document → Prop
  | [] => True
  | item :: rest => Distinct item ∧ DistinctItems rest

/-- No object in a run of members has a name twice. -/
def DistinctMembers : List (Literal × Document) → Prop
  | [] => True
  | (_, value) :: rest => Distinct value ∧ DistinctMembers rest

end

end Document

/-! ## Strings -/

namespace Literal

/-- Literals of one string are read as one. -/
theorem Alike.read_eq {l m : Literal} (alike : l.Alike m) : l.read = m.read := by
  obtain ⟨s, first, second⟩ := alike
  exact first.trans second.symm

/-- Literals of one string are so in either order. -/
theorem Alike.symm {l m : Literal} (alike : l.Alike m) : m.Alike l := by
  obtain ⟨s, first, second⟩ := alike
  exact ⟨s, second, first⟩

/-- Literals of one string are so together with any third one. -/
theorem Alike.trans {l m n : Literal} (first : l.Alike m) (second : m.Alike n) : l.Alike n := by
  obtain ⟨s, left, middle⟩ := first
  obtain ⟨t, middle', right⟩ := second
  obtain rfl : s = t := Except.ok.inj (middle.symm.trans middle')
  exact ⟨s, left, right⟩

/-- The literals of two strings are alike exactly when the strings are equal. -/
theorem alike_ofString_iff {s t : String} : (ofString s).Alike (ofString t) ↔ s = t := by
  constructor
  · rintro ⟨u, first, second⟩
    rw [read_ofString] at first second
    exact (Except.ok.inj first).trans (Except.ok.inj second).symm
  · rintro rfl
    exact ⟨s, read_ofString s, read_ofString s⟩

end Literal

/-! ## Runs -/

section Runs

variable {α β γ : Type}

/-- Two relations between runs, one after the other. -/
theorem forall₂_trans {r : α → β → Prop} {s : β → γ → Prop} {t : α → γ → Prop}
    (through : ∀ x y z, r x y → s y z → t x z) {xs : List α} {ys : List β} {zs : List γ}
    (first : List.Forall₂ r xs ys) (second : List.Forall₂ s ys zs) : List.Forall₂ t xs zs := by
  induction first generalizing zs with
  | nil =>
      cases second
      exact .nil
  | cons head _ inductionHypothesis =>
      cases second with
      | cons head' tail' => exact .cons (through _ _ _ head head') (inductionHypothesis tail')

/-- Runs with the same items and the same keys in one order are equal if no key comes twice. -/
theorem eq_of_perm_of_keys (key : α → β) {xs ys : List α} (perm : xs.Perm ys)
    (keys : xs.map key = ys.map key) (distinct : (ys.map key).Nodup) : xs = ys := by
  induction xs generalizing ys with
  | nil => exact perm.nil_eq
  | cons x xs inductionHypothesis =>
      cases ys with
      | nil => cases keys
      | cons y ys =>
          obtain ⟨first, rest⟩ := List.cons.inj keys
          obtain ⟨fresh, tail⟩ := List.nodup_cons.mp distinct
          have head : x = y := by
            rcases List.mem_cons.mp (perm.subset (List.mem_cons_self ..)) with equal | later
            · exact equal
            · exact absurd (first ▸ List.mem_map_of_mem later) fresh
          subst head
          rw [inductionHypothesis perm.cons_inv rest tail]

end Runs

namespace Document

/-! ## Views as runs -/

/-- No object in a run of items has a name twice when none of an item has. -/
theorem distinctItems_iff {items : List Document} :
    DistinctItems items ↔ ∀ item ∈ items, item.Distinct := by
  induction items with
  | nil => simp [DistinctItems]
  | cons item rest inductionHypothesis => simp [DistinctItems, inductionHypothesis]

/-- No object in a run of members has a name twice when none of a value has. -/
theorem distinctMembers_iff {members : List (Literal × Document)} :
    DistinctMembers members ↔ ∀ member ∈ members, member.2.Distinct := by
  induction members with
  | nil => simp [DistinctMembers]
  | cons member rest inductionHypothesis => simp [DistinctMembers, inductionHypothesis]

/-- The names of written entries are their keys. -/
theorem names_map_ofString {α : Type} (write : α → Document) (entries : List (String × α)) :
    names (entries.map fun entry => (Literal.ofString entry.1, write entry.2)) =
      (entries.map Prod.fst).map .ok := by
  simp [names, Literal.read_ofString, Function.comp_def]

section Order

variable {relate : Numeral → Numeral → Prop}

/-- Items are alike as runs when they are one by one. -/
theorem alikeItems_iff {items others : List Document} :
    AlikeItems relate items others ↔ List.Forall₂ (Alike relate) items others := by
  induction items generalizing others with
  | nil => simp [AlikeItems]
  | cons item rest inductionHypothesis =>
      cases others with
      | nil => simp [AlikeItems]
      | cons other more => simp [AlikeItems, inductionHypothesis]

/-- Members are alike as runs when they are one by one. -/
theorem alikeMembers_iff {members others : List (Literal × Document)} :
    AlikeMembers relate members others ↔
      List.Forall₂ (fun one another => one.1.Alike another.1 ∧ Alike relate one.2 another.2)
        members others := by
  induction members generalizing others with
  | nil => simp [AlikeMembers]
  | cons member rest inductionHypothesis =>
      cases others with
      | nil => simp [AlikeMembers]
      | cons other more => simp [AlikeMembers, inductionHypothesis, and_assoc]

/-- Members that are alike have the same names. -/
theorem AlikeMembers.names_eq {members others : List (Literal × Document)}
    (alike : AlikeMembers relate members others) : names members = names others := by
  have each := alikeMembers_iff.mp alike
  induction each with
  | nil => rfl
  | cons head _ inductionHypothesis =>
      exact congrArg₂ List.cons head.1.read_eq (inductionHypothesis (alikeMembers_iff.mpr ‹_›))

/-- Members that are alike after reordering are so as they stand if their names come in one order,
and no name comes twice. -/
theorem AlikeMembers.of_reordered {members others reordered : List (Literal × Document)}
    (perm : others.Perm reordered) (alike : AlikeMembers relate members reordered)
    (distinct : (names others).Nodup)
    (ordered : (names members).Perm (names others) → names members = names others) :
    AlikeMembers relate members others := by
  have known : names members = names reordered := alike.names_eq
  have inOrder : names members = names others := by
    apply ordered
    rw [known]
    exact (perm.map _).symm
  have unmoved : reordered = others :=
    eq_of_perm_of_keys _ perm.symm (known.symm.trans inOrder) distinct
  exact unmoved ▸ alike

/-- Entries that are written as an object are alike when those under one key are, in any order. -/
theorem alike_object_iff {α : Type} {write : α → Document} {entries others : List (String × α)} :
    Alike relate
        (.object (entries.map fun entry => (Literal.ofString entry.1, write entry.2)) .closed)
        (.object (others.map fun entry => (Literal.ofString entry.1, write entry.2)) .closed) ↔
      Dict.Aligned (fun one other => Alike relate (write one) (write other)) entries others := by
  constructor
  · rintro ⟨reordered, perm, alike⟩
    have each := List.forall₂_map_left_iff.mp (alikeMembers_iff.mp alike)
    have origins : List.Forall₂ (fun member entry =>
        member = (Literal.ofString entry.1, write entry.2))
        (others.map fun entry => (Literal.ofString entry.1, write entry.2)) others :=
      List.forall₂_map_left_iff.mpr (List.forall₂_same.mpr fun _ _ => rfl)
    obtain ⟨aligned, found, perm'⟩ := List.perm_comp_forall₂ perm.symm origins
    refine ⟨aligned, perm'.symm, forall₂_trans ?_ each found⟩
    rintro entry _ other ⟨keys, values⟩ rfl
    exact ⟨Literal.alike_ofString_iff.mp keys, values⟩
  · rintro ⟨reordered, perm, each⟩
    refine ⟨_, perm.map _, alikeMembers_iff.mpr ?_⟩
    rw [List.forall₂_map_left_iff, List.forall₂_map_right_iff]
    exact each.imp fun _ _ pair => ⟨Literal.alike_ofString_iff.mpr pair.1, pair.2⟩

/-! ## Either order, and a third document -/

/-- Documents are alike in either order, with the relation turned round. -/
theorem Alike.turn {other : Numeral → Numeral → Prop} (turned : ∀ n m, relate n m → other m n)
    {d e : Document} (alike : Alike relate d e) : Alike other e d := by
  induction d using Document.induction generalizing e with
  | null =>
      cases e with
      | null => trivial
      | _ => exact alike.elim
  | boolean b =>
      cases e with
      | boolean c => exact Eq.symm alike
      | _ => exact alike.elim
  | numeral n =>
      cases e with
      | numeral m => exact turned n m alike
      | _ => exact alike.elim
  | literal l =>
      cases e with
      | literal m => exact Literal.Alike.symm alike
      | _ => exact alike.elim
  | array items defect inductionHypothesis =>
      match defect, e, alike with
      | none, .array others none, alike =>
          have both := (List.forall₂_and_left _ _).mpr
            ⟨inductionHypothesis, alikeItems_iff.mp alike⟩
          exact alikeItems_iff.mpr (both.imp fun _ _ pair => pair.1 pair.2).flip
  | object members ending inductionHypothesis =>
      match ending, e, alike with
      | .closed, .object others .closed, ⟨reordered, perm, alike⟩ =>
          have both := (List.forall₂_and_left _ _).mpr
            ⟨inductionHypothesis, alikeMembers_iff.mp alike⟩
          have back : AlikeMembers other reordered members := by
            refine alikeMembers_iff.mpr (List.Forall₂.flip ?_)
            exact both.imp fun _ _ pair => ⟨pair.2.1.symm, pair.1 pair.2.2⟩
          obtain ⟨aligned, found, perm'⟩ :=
            List.perm_comp_forall₂ perm (alikeMembers_iff.mp back)
          exact ⟨aligned, perm'.symm, alikeMembers_iff.mpr found⟩
  | broken what => exact alike.elim

/-- Documents that are like one document are like each other. -/
theorem Alike.trans (transitive : ∀ n m o, relate n m → relate m o → relate n o)
    {d e f : Document} (first : Alike relate d e) (second : Alike relate e f) :
    Alike relate d f := by
  induction d using Document.induction generalizing e f with
  | null =>
      cases e with
      | null => exact second
      | _ => exact first.elim
  | boolean b =>
      cases e with
      | boolean c => exact Eq.symm (show b = c from first) ▸ second
      | _ => exact first.elim
  | numeral n =>
      match e, f, first, second with
      | .numeral m, .numeral o, first, second => exact transitive n m o first second
  | literal l =>
      match e, f, first, second with
      | .literal m, .literal o, first, second => exact Literal.Alike.trans first second
  | array items defect inductionHypothesis =>
      match defect, e, f, first, second with
      | none, .array others none, .array thirds none, first, second =>
          have both := (List.forall₂_and_left _ _).mpr
            ⟨inductionHypothesis, alikeItems_iff.mp first⟩
          exact alikeItems_iff.mpr
            (forall₂_trans (fun _ _ _ pair next => pair.1 pair.2 next) both
              (alikeItems_iff.mp second))
  | object members ending inductionHypothesis =>
      match ending, e, f, first, second with
      | .closed, .object others .closed, .object thirds .closed, ⟨reordered, perm, first⟩,
          ⟨reordered', perm', second⟩ =>
          obtain ⟨aligned, found, perm''⟩ :=
            List.perm_comp_forall₂ perm.symm (alikeMembers_iff.mp second)
          have both := (List.forall₂_and_left _ _).mpr
            ⟨inductionHypothesis, alikeMembers_iff.mp first⟩
          refine ⟨aligned, perm'.trans perm''.symm, alikeMembers_iff.mpr ?_⟩
          exact forall₂_trans
            (fun _ _ _ pair next => ⟨pair.2.1.trans next.1, pair.1 pair.2.2 next.2⟩) both found
  | broken what => exact first.elim

end Order
end Document
end Sarif
