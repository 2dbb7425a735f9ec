import Sarif.Proofs.Json.Fits
import Sarif.Proofs.Json.Zeros
import Sarif.Proofs.Reading.Alike

/-!
# Stored values and the documents they say

Well-formed stored values are equal exactly when they are written as the same document: their
members are sorted, so that a document that is alike after reordering is alike as it stands. What is
read as a stored value is written as a document like the one it was read from, if that has no name
twice in one object.
-/

namespace Sarif

/-! ## Equality of numbers -/

namespace Binary64

/-- Numbers are equal in either order. -/
theorem sameNumber_symm {x y : Binary64} (same : x.sameNumber y = true) :
    y.sameNumber x = true := by
  have first := same
  simp only [sameNumber, Bool.and_eq_true] at first
  obtain rfl | ⟨zero, zero'⟩ := eq_or_isZero_of_sameNumber same
  · exact same
  · have notNaN : y.isNaN = false := by
      simp only [isZero, beq_iff_eq] at zero'
      simp [isNaN, zero']
    simp [sameNumber, notNaN, zero, zero']

/-- Numbers that are equal to one number are equal to each other. -/
theorem sameNumber_trans {x y z : Binary64} (first : x.sameNumber y = true)
    (second : y.sameNumber z = true) : x.sameNumber z = true := by
  obtain rfl | ⟨zero, zero'⟩ := eq_or_isZero_of_sameNumber second
  · exact first
  · obtain rfl | ⟨zero'', _⟩ := eq_or_isZero_of_sameNumber first
    · exact second
    · have notNaN : x.isNaN = false := by
        simp only [isZero, beq_iff_eq] at zero''
        simp [isNaN, zero'']
      simp [sameNumber, notNaN, zero', zero'']

end Binary64

namespace Number

/-- Numbers of a document are equal in either order. -/
theorem same_symm (a b : Number) (same : a.same b = true) : b.same a = true := by
  cases a with
  | integer i =>
      cases b with
      | integer j =>
          simp only [Number.same, beq_iff_eq] at *
          exact same.symm
      | float y => exact same
  | float x =>
      cases b with
      | integer j => exact same
      | float y => exact Binary64.sameNumber_symm same

/-- Numbers of a document that are equal to one number are equal to each other. -/
theorem same_trans (a b c : Number) (first : a.same b = true) (second : b.same c = true) :
    a.same c = true := by
  match a, b, c, first, second with
  | .integer i, .integer j, .integer l, first, second =>
      simp only [Number.same, beq_iff_eq] at *
      exact first.trans second
  | .float x, .float y, .float z, first, second => exact Binary64.sameNumber_trans first second

end Number

namespace Numeral

/-- Numerals denote equal numbers in either order. -/
theorem Same.symm {n m : Numeral} (same : n.Same m) : m.Same n := by
  obtain ⟨a, b, first, second, equal⟩ := same
  exact ⟨b, a, second, first, Number.same_symm a b equal⟩

/-- Numerals that denote numbers equal to a third one denote equal numbers. -/
theorem Same.trans {n m o : Numeral} (first : n.Same m) (second : m.Same o) : n.Same o := by
  obtain ⟨a, b, left, middle, equal⟩ := first
  obtain ⟨b', c, middle', right, equal'⟩ := second
  obtain rfl : b = b' := Option.some.inj (middle.symm.trans middle')
  exact ⟨a, c, left, right, Number.same_trans a b c equal equal'⟩

/-- The numerals of well-formed numbers denote equal numbers exactly when the numbers are equal. -/
theorem same_numeral_iff {a b : Number} (first : a.WellFormed) (second : b.WellFormed) :
    a.numeral.Same b.numeral ↔ a.same b = true := by
  constructor
  · rintro ⟨c, d, left, right, equal⟩
    rw [Number.number?_numeral first] at left
    rw [Number.number?_numeral second] at right
    obtain rfl := Option.some.inj left
    obtain rfl := Option.some.inj right
    exact equal
  · intro equal
    exact ⟨a, b, Number.number?_numeral first, Number.number?_numeral second, equal⟩

end Numeral

namespace Document

/-- The same documents are the same in either order. -/
theorem Same.symm {d e : Document} (same : d.Same e) : e.Same d :=
  Alike.turn (fun _ _ => Numeral.Same.symm) same

/-- Documents that are the same as one document are the same. -/
theorem Same.trans {d e f : Document} (first : d.Same e) (second : e.Same f) : d.Same f := by
  have through (n m o : Numeral) : n.Same m → m.Same o → n.Same o := Numeral.Same.trans
  exact Alike.trans through first second

end Document

/-! ## What stored values are written as -/

namespace Json

/-- The items of an array are written one by one. -/
theorem itemDocuments_eq_map (items : List Json) : itemDocuments items = items.map document := by
  induction items with
  | nil => rfl
  | cons item rest inductionHypothesis => rw [itemDocuments, inductionHypothesis, List.map_cons]

/-- The members of an object are written one by one. -/
theorem memberDocuments_eq_map (members : List (String × Json)) :
    memberDocuments members =
      members.map fun member => (Literal.ofString member.1, member.2.document) := by
  induction members with
  | nil => rfl
  | cons member rest inductionHypothesis =>
      rw [memberDocuments, inductionHypothesis, List.map_cons]

/-- The names of sorted members are distinct. -/
theorem nodup_of_sortedNames {members : List (String × Json)} (sorted : SortedNames members) :
    (members.map Prod.fst).Nodup := by
  refine List.Pairwise.imp (fun {one other} before same => ?_) (List.pairwise_map.mpr sorted)
  exact String.lt_irrefl other (same ▸ before)

/-- Sorted names that are the same in some order are so in theirs. -/
theorem names_eq_of_sorted {members others : List (String × Json)} (first : SortedNames members)
    (second : SortedNames others)
    (perm : (members.map Prod.fst).Perm (others.map Prod.fst)) :
    members.map Prod.fst = others.map Prod.fst := by
  have asymmetric (one other : String) (before : one < other) (after : other < one) :
      one = other := absurd after (String.lt_asymm before)
  exact List.Perm.eq_of_pairwise (fun one other _ _ => asymmetric one other)
    (List.pairwise_map.mpr first) (List.pairwise_map.mpr second) perm

/-- The names of written members are distinct if the members are sorted. -/
theorem nodup_names {members : List (String × Json)} (sorted : SortedNames members) :
    (Document.names (memberDocuments members)).Nodup := by
  rw [memberDocuments_eq_map, Document.names_map_ofString]
  exact (nodup_of_sortedNames sorted).map fun _ _ => Except.ok.inj

/-- Members that are written in sorted order need no reordering. -/
theorem alikeMembers_of_reordered {relate : Numeral → Numeral → Prop}
    {members others : List (String × Json)} (first : SortedNames members)
    (second : SortedNames others) {reordered : List (Literal × Document)}
    (perm : (memberDocuments others).Perm reordered)
    (alike : Document.AlikeMembers relate (memberDocuments members) reordered) :
    Document.AlikeMembers relate (memberDocuments members) (memberDocuments others) := by
  refine alike.of_reordered perm (nodup_names second) ?_
  rw [memberDocuments_eq_map, memberDocuments_eq_map, Document.names_map_ofString,
    Document.names_map_ofString, List.map_perm_map_iff fun _ _ => Except.ok.inj]
  exact fun keys => congrArg _ (names_eq_of_sorted first second keys)

/-! ## Members put into order -/

/-- A member of a new name is put somewhere between the others. -/
theorem insertMember_perm {name : String} (value : Json) {members : List (String × Json)}
    (fresh : name ∉ members.map Prod.fst) :
    (insertMember name value members).Perm ((name, value) :: members) := by
  induction members with
  | nil => exact .refl _
  | cons member rest inductionHypothesis =>
      obtain ⟨other, held⟩ := member
      rw [List.map_cons, List.mem_cons, not_or] at fresh
      rw [insertMember]
      split
      · exact .refl _
      · rw [if_neg fresh.1]
        exact ((inductionHypothesis fresh.2).cons _).trans (.swap ..)

/-- Members of distinct names are all put into order, behind those that came before them. -/
theorem foldl_insertMember_perm (before members : List (String × Json))
    (distinct : ((members ++ before).map Prod.fst).Nodup) :
    (members.foldl (fun sorted member => insertMember member.1 member.2 sorted) before).Perm
      (members ++ before) := by
  induction members generalizing before with
  | nil => exact .refl _
  | cons member rest inductionHypothesis =>
      rw [List.cons_append, List.map_cons, List.nodup_cons] at distinct
      have fresh : member.1 ∉ before.map Prod.fst := by
        intro inside
        rw [List.map_append, List.mem_append, not_or] at distinct
        exact distinct.1.2 inside
      have placed := insertMember_perm member.2 fresh
      have moved : (rest ++ insertMember member.1 member.2 before).Perm
          (member :: (rest ++ before)) :=
        (placed.append_left rest).trans List.perm_middle
      refine (inductionHypothesis _ ?_).trans moved
      rw [(moved.map Prod.fst).nodup_iff, List.map_cons, List.nodup_cons]
      exact distinct

/-- Members of distinct names are put into order, and none is lost. -/
theorem sortMembers_perm {members : List (String × Json)}
    (distinct : (members.map Prod.fst).Nodup) : (sortMembers members).Perm members := by
  have placed := foldl_insertMember_perm [] members (by rwa [List.append_nil])
  rwa [List.append_nil] at placed

/-- Members of distinct names have one order, however they came. -/
theorem sortMembers_eq_of_perm {members others : List (String × Json)} (perm : members.Perm others)
    (distinct : (members.map Prod.fst).Nodup) : sortMembers members = sortMembers others := by
  have distinct' : (others.map Prod.fst).Nodup := (perm.map Prod.fst).nodup_iff.mp distinct
  have sorted : (sortMembers members).Perm (sortMembers others) :=
    (sortMembers_perm distinct).trans (perm.trans (sortMembers_perm distinct').symm)
  refine eq_of_perm_of_keys Prod.fst sorted ?_ (nodup_of_sortedNames (sortedNames_sortMembers _))
  exact names_eq_of_sorted (sortedNames_sortMembers _) (sortedNames_sortMembers _)
    (sorted.map Prod.fst)

/-! ## Equal values -/

mutual

/-- Well-formed values are equal exactly when they are written as the same document. -/
theorem same_iff : (x y : Json) → x.WellFormed → y.WellFormed →
    (x.same y = true ↔ x.document.Same y.document)
  | null, y, _, _ => by
    cases y <;> simp [same, document, Document.Same, Document.Alike, Document.string]
  | boolean b, y, _, _ => by
      cases y <;> simp [same, document, Document.Same, Document.Alike, Document.string]
  | string s, y, _, _ => by
      cases y <;>
        simp [same, document, Document.Same, Document.Alike, Document.string,
          Literal.alike_ofString_iff]
  | number n, y, first, second => by
      cases y with
      | number m =>
          have numerals : (number n).document.Same (number m).document ↔ n.same m = true :=
            Numeral.same_numeral_iff first second
          simpa only [same] using numerals.symm
      | _ => simp [same, document, Document.Same, Document.Alike, Document.string]
  | array items, y, first, second => by
      cases y with
      | array others =>
          simp only [same, document, Document.Same, Document.Alike]
          exact sameItems_iff items others first second
      | _ => simp [same, document, Document.Same, Document.Alike, Document.string]
  | object members, y, first, second => by
      cases y with
      | object others =>
          simp only [same, document, Document.Same, Document.Alike]
          rw [sameMembers_iff members others first.2 second.2]
          constructor
          · exact fun alike => ⟨_, .refl _, alike⟩
          · rintro ⟨reordered, perm, alike⟩
            exact alikeMembers_of_reordered first.1 second.1 perm alike
      | _ => simp [same, document, Document.Same, Document.Alike, Document.string]

/-- Well-formed items are equal exactly when they are written alike. -/
theorem sameItems_iff : (items others : List Json) → WellFormedItems items →
    WellFormedItems others → (sameItems items others = true ↔
      Document.AlikeItems Numeral.Same (itemDocuments items) (itemDocuments others))
  | [], others, _, _ => by cases others <;> simp [sameItems, itemDocuments, Document.AlikeItems]
  | item :: rest, [], _, _ => by simp [sameItems, itemDocuments, Document.AlikeItems]
  | item :: rest, other :: more, first, second => by
      have head := same_iff item other first.1 second.1
      have tail := sameItems_iff rest more first.2 second.2
      simp only [sameItems, itemDocuments, Document.AlikeItems, Bool.and_eq_true]
      exact and_congr head tail

/-- Well-formed members are equal exactly when they are written alike. -/
theorem sameMembers_iff : (members others : List (String × Json)) → WellFormedMembers members →
    WellFormedMembers others → (sameMembers members others = true ↔
      Document.AlikeMembers Numeral.Same (memberDocuments members) (memberDocuments others))
  | [], others, _, _ => by
      cases others <;> simp [sameMembers, memberDocuments, Document.AlikeMembers]
  | (name, value) :: rest, [], _, _ => by
      simp [sameMembers, memberDocuments, Document.AlikeMembers]
  | (name, value) :: rest, (name', value') :: more, first, second => by
      have head := same_iff value value' first.1 second.1
      have tail := sameMembers_iff rest more first.2 second.2
      simp only [sameMembers, memberDocuments, Document.AlikeMembers, Bool.and_eq_true, beq_iff_eq,
        Literal.alike_ofString_iff, and_assoc]
      exact and_congr Iff.rfl (and_congr head tail)

end

end Json
end Sarif
