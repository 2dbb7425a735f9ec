import Sarif.Node.Read
import Sarif.Proofs.Node.Default
import Sarif.Proofs.Node.Related
import Sarif.Proofs.Reading.Fits

/-!
# What is read as a node

Whatever a reader makes of a document is a well-formed node whose numbers are finite, and the
document that it is written as nests at most two levels deeper than the one it was read from: the
fields that the document leaves out hold defaults, and a default takes at most two levels.
-/

namespace Sarif

/-! ## Nodes that fit -/

/-- A node of regular scalars that is written as a document that nests no deeper than a bound. -/
def Node.Fits (bound : Nat) {k : Kind} (n : Node k) : Prop :=
  n.Each Scalar.Regular List.Nodup ∧ n.document.nesting ≤ bound

/-- A value of regular scalars that is written as a document that nests no deeper than a bound. -/
def Value.Fits (bound : Nat) {t : Ty} (v : Value t) : Prop :=
  v.Each Scalar.Regular List.Nodup ∧ v.document.nesting ≤ bound

/-- A field of regular scalars for which nothing is written that nests deeper than a bound. -/
def FieldValue.Fits (bound : Nat) {t : FieldType} (v : FieldValue t) : Prop :=
  v.Each Scalar.Regular List.Nodup ∧ ∀ d ∈ v.document?, d.nesting ≤ bound

/-- A record of regular scalars whose members nest no deeper than a bound. -/
def Record.Fits (bound : Nat) {fs : List Field} (r : Record fs) : Prop :=
  r.Each Scalar.Regular List.Nodup ∧ Document.membersNesting r.members ≤ bound

/-- Every field that is known in a draft fits. -/
def Draft.Fits (bound : Nat) : {fs : List Field} → Draft fs → Prop
  | _, nil => True
  | _, cons v rest => (∀ w ∈ v, w.Fits bound) ∧ rest.Fits bound

/-- What fits below a bound fits below a higher one. -/
theorem FieldValue.Fits.mono {low high : Nat} (rise : low ≤ high) {t : FieldType}
    {v : FieldValue t} (fits : v.Fits low) : v.Fits high :=
  ⟨fits.1, fun d written => Nat.le_trans (fits.2 d written) rise⟩

/-- What is written for a field that holds a value is the document of the value. -/
theorem Value.Fits.required {bound : Nat} {t : Ty} {v : Value t} (fits : v.Fits bound) :
    (FieldValue.required v).Fits bound := by
  refine ⟨fits.1, fun d written => ?_⟩
  rw [FieldValue.document?] at written
  split at written
  · cases written
  · exact Option.some.inj written ▸ fits.2

/-- What is written for a field that may be absent is the document of its value. -/
theorem Value.Fits.present {bound : Nat} {t : Ty} {v : Value t} (fits : v.Fits bound) :
    (FieldValue.present v).Fits bound := by
  refine ⟨fits.1, fun d written => ?_⟩
  exact Option.some.inj written ▸ fits.2

/-- A node that is a value fits below every higher bound. -/
theorem Value.Fits.toNode {low high : Nat} {k : Kind} {v : Value (.node k)} (fits : v.Fits low)
    (rise : low ≤ high) : v.toNode.Fits high := by
  match v with
  | .node n => exact ⟨fits.1, Nat.le_trans fits.2 rise⟩

/-- A record fits when its fields do. -/
theorem Record.Fits.cons {bound : Nat} {f : Field} {fs : List Field} {v : FieldValue f.type}
    {rest : Record fs} (head : v.Fits bound) (tail : rest.Fits bound) :
    (Record.cons v rest).Fits bound := by
  refine ⟨⟨head.1, tail.1⟩, ?_⟩
  rw [Record.members]
  split
  · next d written => exact Nat.max_le.mpr ⟨head.2 d written, tail.2⟩
  · exact tail.2

/-- A node fits above its fields. -/
theorem Node.Fits.mk {bound : Nat} {k : Kind} {r : Record k.fields} (fits : r.Fits bound) :
    (Node.mk r).Fits (bound + 1) :=
  ⟨fits.1, Nat.succ_le_succ fits.2⟩

/-! ## Drafts -/

/-- The defaults of a kind fit below two. -/
theorem Kind.defaults_fit (k : Kind) : ∀ f ∈ k.fields, (FieldValue.default f.type).Fits 2 := by
  intro f known
  have shallow : f.type.defaultNesting ≤ 2 :=
    of_decide_eq_true (List.all_eq_true.mp k.defaultNesting_le f known)
  constructor
  · have faithful := FieldValue.default_faithful .stored f.type
    exact FieldValue.Each.combine (fun _ _ whole _ => ⟨whole.1, whole.2.1⟩)
      (fun _ distinct _ => distinct) _ faithful faithful
  · intro d written
    rw [FieldType.defaultNesting, Option.mem_def.mp written] at shallow
    exact shallow

namespace Draft

variable {bound : Nat}

/-- A draft of which nothing is known fits. -/
theorem blank_fits : (fs : List Field) → (blank fs).Fits bound
  | [] => trivial
  | _ :: fs => ⟨fun _ known => (nomatch known), blank_fits fs⟩

/-- A draft stays fitting when a value that fits comes in. -/
theorem set_fits : {fs : List Field} → {f : Field} → (draft : Draft fs) → (place : Place fs f) →
    {v : FieldValue f.type} → v.Fits bound → draft.Fits bound → (draft.set place v).Fits bound
  | _, _, cons _ _, .here, v, fits, whole => by
      refine ⟨?_, whole.2⟩
      rintro _ ⟨⟩
      exact fits
  | _, _, cons _ rest, .later place, _, fits, whole =>
      ⟨whole.1, set_fits rest place fits whole.2⟩

/-- A finished draft fits if the defaults of its fields do. -/
theorem finish_fits : {fs : List Field} → (draft : Draft fs) →
    (∀ f ∈ fs, (FieldValue.default f.type).Fits bound) → draft.Fits bound →
    draft.finish.Fits bound
  | _, nil, _, _ => ⟨trivial, Nat.zero_le _⟩
  | f :: _, cons v rest, defaults, whole => by
      have tail := finish_fits rest
        (fun g inside => defaults g (List.mem_cons_of_mem _ inside)) whole.2
      cases v with
      | none => exact Record.Fits.cons (defaults f (List.mem_cons_self ..)) tail
      | some v => exact Record.Fits.cons (whole.1 v rfl) tail

/-- The node of a draft fits two levels above the draft. -/
theorem node_fits {k : Kind} {draft : Draft k.fields} (whole : draft.Fits (bound + 2)) :
    (Node.mk draft.finish).Fits (bound + 1 + 2) := by
  have defaults : ∀ f ∈ k.fields, (FieldValue.default f.type).Fits (bound + 2) :=
    fun f known => (k.defaults_fit f known).mono (Nat.le_add_left ..)
  exact Node.Fits.mk (finish_fits draft defaults whole)

end Draft

/-! ## Lists and maps of nodes -/

/-- A list of nodes that fit is written with items that nest no deeper. -/
theorem Slots.fits_ofList {bound : Nat} {k : Kind} {slots : List (Option (Node k))}
    (each : ∀ slot ∈ slots, ∀ n ∈ slot, n.Fits bound) :
    (Slots.ofList slots).Each Scalar.Regular List.Nodup ∧
      Document.itemsNesting (Slots.ofList slots).documents ≤ bound := by
  induction slots with
  | nil => exact ⟨trivial, Nat.zero_le _⟩
  | cons slot rest inductionHypothesis =>
      obtain ⟨tail, bounded⟩ := inductionHypothesis fun other inside =>
        each other (List.mem_cons_of_mem _ inside)
      cases slot with
      | none => exact ⟨tail, Nat.max_le.mpr ⟨Nat.zero_le _, bounded⟩⟩
      | some n =>
          have head := each _ (List.mem_cons_self ..) n rfl
          exact ⟨⟨head.1, tail⟩, Nat.max_le.mpr ⟨head.2, bounded⟩⟩

/-- A map of nodes that fit is written with members that nest no deeper. -/
theorem Entries.fits_ofList {bound : Nat} {k : Kind} {entries : List (String × Node k)}
    (each : ∀ entry ∈ entries, entry.2.Fits bound) :
    (Entries.ofList entries).Each Scalar.Regular List.Nodup ∧
      Document.membersNesting (Entries.ofList entries).members ≤ bound := by
  induction entries with
  | nil => exact ⟨trivial, Nat.zero_le _⟩
  | cons entry rest inductionHypothesis =>
      obtain ⟨tail, bounded⟩ := inductionHypothesis fun other inside =>
        each other (List.mem_cons_of_mem _ inside)
      have head := each entry (List.mem_cons_self ..)
      exact ⟨⟨head.1, tail⟩, Nat.max_le.mpr ⟨head.2, bounded⟩⟩

/-- The map of a list of entries that fit has distinct keys and nests no deeper. -/
theorem Entries.fits_ofDict {bound : Nat} {k : Kind} {entries : List (String × Node k)}
    (each : ∀ entry ∈ entries, entry.2.Fits bound) :
    (Value.nodeMap (Entries.ofDict (Dict.ofList entries))).Fits (bound + 1) := by
  have distinct := Dict.wellFormed_ofList entries
  obtain ⟨regular, bounded⟩ := Entries.fits_ofList fun entry inside =>
    each entry (Dict.mem_of_mem_ofList inside)
  have keys : (Entries.ofDict (Dict.ofList entries)).keys = (Dict.ofList entries).keys := by
    rw [Entries.keys_eq_toList, Entries.ofDict, Entries.toList_ofList]
    rfl
  exact ⟨⟨keys ▸ distinct, regular⟩, Nat.succ_le_succ bounded⟩

/-! ## Reading -/

/-- What may be absent is read as absent, or as a value. -/
theorem FieldValue.of_readWith_optional {read : (t : Ty) → Except Problem (Value t)} {d : Document}
    {t : Ty} {v : FieldValue (.optional t)} (success : readWith read d (.optional t) = .ok v) :
    v = .absent ∨ ∃ w, v = .present w ∧ read t = .ok w := by
  have held : (read t).map .present = .ok v → ∃ w, v = .present w ∧ read t = .ok w := by
    intro success
    obtain ⟨w, held, same⟩ := Problem.map_eq_ok success
    exact ⟨w, same.symm, held⟩
  cases d with
  | null => exact .inl (Except.ok.inj success).symm
  | broken b =>
      cases b with
      | null defect => cases success
      | _ => exact .inr (held success)
  | _ => exact .inr (held success)

/-- What a field is read as fits if what a value is read as does. -/
theorem FieldValue.fits_of_readWith {bound : Nat} {read : (t : Ty) → Except Problem (Value t)}
    {d : Document} (each : ∀ t v, read t = .ok v → v.Fits bound) {t : FieldType} {v : FieldValue t}
    (success : readWith read d t = .ok v) : v.Fits bound := by
  cases t with
  | required t =>
      obtain ⟨w, held, rfl⟩ := Problem.map_eq_ok success
      exact (each t w held).required
  | optional t =>
      rcases of_readWith_optional success with rfl | ⟨w, rfl, held⟩
      · exact ⟨trivial, fun _ written => nomatch written⟩
      · exact (each t w held).present

/-- What is read as a flat value fits. -/
theorem Value.fits_of_read_flat {source : Source} {d : Document} {f : Flat} {v : Value (.flat f)}
    (read : Value.read source (.flat f) d = .ok v) : v.Fits (d.nesting + 2) := by
  rw [Value.read] at read
  obtain ⟨x, held, rfl⟩ := Problem.map_eq_ok read
  obtain ⟨regular, bound⟩ := f.fits_of_read held
  exact ⟨regular, Nat.le_trans bound (Nat.le_add_right ..)⟩

/-- A document that is neither an array nor an object is only read as a flat value. -/
theorem Value.fits_of_read_plain {source : Source} {d : Document} (plain : d.nesting = 0) {t : Ty}
    {v : Value t} (read : Value.read source t d = .ok v) : v.Fits (d.nesting + 2) := by
  cases t with
  | flat f => exact fits_of_read_flat read
  | node k =>
      rw [Value.read] at read
      · exact (Document.refuse_ne_ok _ _ _ read).elim
      · rintro members ending rfl
        cases plain
      · rintro items defect rfl
        cases plain
  | nodes k =>
      rw [Value.read] at read
      · exact (Document.refuse_ne_ok _ _ _ read).elim
      · rintro items defect rfl
        cases plain
  | nodeMap k =>
      rw [Value.read] at read
      · exact (Document.refuse_ne_ok _ _ _ read).elim
      · rintro members ending rfl
        cases plain

/-- The first slot of a list of nodes is empty, or read from the first item. -/
theorem Slots.of_read_cons {source : Source} {k : Kind} {d : Document} {rest : List Document}
    {slots : List (Option (Node k))} (read : Slots.read source k (d :: rest) = .ok slots) :
    ∃ slot others, slots = slot :: others ∧
      (∀ n ∈ slot, Value.read source (.node k) d = .ok (.node n)) ∧
        Slots.read source k rest = .ok others := by
  rw [Slots.read] at read
  split at read
  · obtain ⟨_, empty, read⟩ := Problem.bind_eq_ok read
    obtain rfl := Except.ok.inj empty
    obtain ⟨others, tail, read⟩ := Problem.bind_eq_ok read
    exact ⟨none, others, (Except.ok.inj read).symm, fun _ held => (nomatch held), tail⟩
  · obtain ⟨slot, head, read⟩ := Problem.bind_eq_ok read
    obtain ⟨others, tail, read⟩ := Problem.bind_eq_ok read
    refine ⟨slot, others, (Except.ok.inj read).symm, ?_, tail⟩
    obtain ⟨v, found, rfl⟩ := Problem.map_eq_ok head
    rintro n ⟨⟩
    match v with
    | .node n => exact found

-- The recursion is on the document. The bound of an object is fixed before its members are read, so
-- that a field that has come need not be raised when a deeper one comes after it.
mutual

/-- What is read as a value fits two levels above its document. -/
theorem Value.fits_of_read : (d : Document) → (source : Source) → (t : Ty) → (v : Value t) →
    Value.read source t d = .ok v → v.Fits (d.nesting + 2)
  | .null, _, _, _, read => Value.fits_of_read_plain rfl read
  | .boolean _, _, _, _, read => Value.fits_of_read_plain rfl read
  | .numeral _, _, _, _, read => Value.fits_of_read_plain rfl read
  | .literal _, _, _, _, read => Value.fits_of_read_plain rfl read
  | .broken _, _, _, _, read => Value.fits_of_read_plain rfl read
  | .array _ _, _, .flat _, _, read => Value.fits_of_read_flat read
  | .object _ _, _, .flat _, _, read => Value.fits_of_read_flat read
  | .array items defect, source, .node k, v, read => by
      rw [Value.read] at read
      obtain ⟨_, inner, draft, _, known, rfl⟩ := Source.of_enter_bind read
      exact Draft.node_fits (Draft.fits_of_readItems items inner draft _ (Nat.le_refl _) known)
  | .object members ending, source, .node k, v, read => by
      rw [Value.read] at read
      obtain ⟨_, inner, draft, _, known, rfl⟩ := Source.of_enter_bind read
      exact Draft.node_fits
        (Draft.fits_of_readMembers members inner _ draft _ (Nat.le_refl _)
          (Draft.blank_fits _) known)
  | .array items defect, source, .nodes k, v, read => by
      rw [Value.read] at read
      obtain ⟨_, inner, slots, _, known, rfl⟩ := Source.of_enter_bind read
      obtain ⟨regular, bound⟩ :=
        Slots.fits_ofList (Slots.fits_of_read items inner slots _ (Nat.le_refl _) known)
      exact ⟨regular, Nat.succ_le_succ bound⟩
  | .object members ending, source, .nodeMap k, v, read => by
      rw [Value.read] at read
      obtain ⟨_, inner, entries, _, known, rfl⟩ := Source.of_enter_bind read
      exact Entries.fits_ofDict (Entries.fits_of_read members inner entries _ (Nat.le_refl _) known)
  | .object _ _, _, .nodes _, v, read => by
      rw [Value.read] at read
      · exact (Document.refuse_ne_ok _ _ _ read).elim
      · intro _ _ other
        cases other
  | .array _ _, _, .nodeMap _, v, read => by
      rw [Value.read] at read
      · exact (Document.refuse_ne_ok _ _ _ read).elim
      · intro _ _ other
        cases other

/-- What is read from the members of an object fits two levels above them. -/
theorem Draft.fits_of_readMembers : (members : List (Literal × Document)) → (source : Source) →
    {fs : List Field} → (draft result : Draft fs) → (bound : Nat) →
    Document.membersNesting members + 2 ≤ bound → draft.Fits bound →
    Draft.readMembers source draft members = .ok result → result.Fits bound
  | [], _, _, draft, result, _, _, whole, read => by
      rw [Draft.readMembers] at read
      exact Except.ok.inj read ▸ whole
  | (name, d) :: rest, source, fs, draft, result, bound, deep, whole, read => by
      have both : d.nesting + 2 ≤ bound ∧ Document.membersNesting rest + 2 ≤ bound := by
        rw [Document.membersNesting] at deep
        omega
      rw [Draft.readMembers] at read
      obtain ⟨key, _, read⟩ := Problem.bind_eq_ok read
      split at read
      · obtain ⟨_, _, read⟩ := Problem.bind_eq_ok read
        exact Draft.fits_of_readMembers rest source draft result bound both.2 whole read
      · next f place _ =>
          split at read
          · cases read
          obtain ⟨v, held, read⟩ := Problem.bind_eq_ok read
          have fits : v.Fits (d.nesting + 2) :=
            FieldValue.fits_of_readWith (Value.fits_of_read d source) held
          exact Draft.fits_of_readMembers rest source _ result bound both.2
            (Draft.set_fits draft place (fits.mono both.1) whole) read

/-- What is read from the items of a positional node fits two levels above them. -/
theorem Draft.fits_of_readItems : (items : List Document) → (source : Source) →
    {total : Nat} → {fs : List Field} → (result : Draft fs) → (bound : Nat) →
    Document.itemsNesting items + 2 ≤ bound →
    Draft.readItems source total fs items = .ok result → result.Fits bound
  | [], _, _, fs, result, _, _, read => by
      rw [Draft.readItems] at read
      exact Except.ok.inj read ▸ Draft.blank_fits fs
  | d :: rest, source, total, [], result, _, _, read => by
      rw [Draft.readItems] at read
      cases read
  | d :: rest, source, total, f :: fs, result, bound, deep, read => by
      have both : d.nesting + 2 ≤ bound ∧ Document.itemsNesting rest + 2 ≤ bound := by
        rw [Document.itemsNesting] at deep
        omega
      rw [Draft.readItems] at read
      obtain ⟨v, held, read⟩ := Problem.bind_eq_ok read
      obtain ⟨others, tail, read⟩ := Problem.bind_eq_ok read
      obtain rfl := Except.ok.inj read
      have fits : v.Fits (d.nesting + 2) :=
        FieldValue.fits_of_readWith (Value.fits_of_read d source) held
      refine ⟨?_, Draft.fits_of_readItems rest source others bound both.2 tail⟩
      rintro _ ⟨⟩
      exact fits.mono both.1

/-- What is read from the items of a list of nodes fits two levels above them. -/
theorem Slots.fits_of_read : (items : List Document) → (source : Source) → {k : Kind} →
    (slots : List (Option (Node k))) → (bound : Nat) → Document.itemsNesting items + 2 ≤ bound →
    Slots.read source k items = .ok slots → ∀ slot ∈ slots, ∀ n ∈ slot, n.Fits bound
  | [], _, _, slots, _, _, read => by
      rw [Slots.read] at read
      obtain rfl := Except.ok.inj read
      exact fun slot inside => nomatch inside
  | d :: rest, source, k, slots, bound, deep, read => by
      have both : d.nesting + 2 ≤ bound ∧ Document.itemsNesting rest + 2 ≤ bound := by
        rw [Document.itemsNesting] at deep
        omega
      obtain ⟨first, others, rfl, head, tail⟩ := Slots.of_read_cons read
      have later := Slots.fits_of_read rest source others bound both.2 tail
      intro slot inside n held
      rcases List.mem_cons.mp inside with rfl | inside
      · exact (Value.fits_of_read d source _ _ (head n held)).toNode both.1
      · exact later slot inside n held

/-- What is read from the members of a map of nodes fits two levels above them. -/
theorem Entries.fits_of_read : (members : List (Literal × Document)) → (source : Source) →
    {k : Kind} → (entries : List (String × Node k)) → (bound : Nat) →
    Document.membersNesting members + 2 ≤ bound →
    Entries.read source k members = .ok entries → ∀ entry ∈ entries, entry.2.Fits bound
  | [], _, _, entries, _, _, read => by
      rw [Entries.read] at read
      obtain rfl := Except.ok.inj read
      exact fun entry inside => nomatch inside
  | (name, d) :: rest, source, k, entries, bound, deep, read => by
      have both : d.nesting + 2 ≤ bound ∧ Document.membersNesting rest + 2 ≤ bound := by
        rw [Document.membersNesting] at deep
        omega
      rw [Entries.read] at read
      obtain ⟨key, _, read⟩ := Problem.bind_eq_ok read
      obtain ⟨v, held, read⟩ := Problem.bind_eq_ok read
      obtain ⟨others, tail, read⟩ := Problem.bind_eq_ok read
      obtain rfl := Except.ok.inj read
      have later := Entries.fits_of_read rest source others bound both.2 tail
      intro entry inside
      rcases List.mem_cons.mp inside with rfl | inside
      · exact (Value.fits_of_read d source _ v held).toNode both.1
      · exact later entry inside

end

/-! ## Loading -/

namespace Node

variable {k : Kind}

/-- A node that is loaded is read from the document of its text, which nothing follows. -/
theorem of_load {text : String} {d : Document} {trailing : Bool} {n : Node k}
    (parsed : Document.ofText text.toList = (d, trailing)) (loaded : Node.load k text = .ok n) :
    trailing = false ∧ Value.read .start (.node k) d = .ok (.node n) := by
  obtain ⟨field, success, content⟩ := Problem.bind_eq_ok loaded
  rw [FieldType.load, parsed] at success
  obtain ⟨v, held, success⟩ := Problem.bind_eq_ok success
  obtain ⟨w, read, rfl⟩ := Problem.map_eq_ok held
  cases trailing with
  | true => cases success
  | false =>
      obtain rfl := Except.ok.inj success
      obtain rfl := Except.ok.inj content
      match w with
      | .node n => exact ⟨rfl, read⟩

/-- A node that is loaded nests at most two levels deeper than the text that it was loaded from. -/
theorem fits_of_load {text : String} {n : Node k} (loaded : Node.load k text = .ok n) :
    n.Fits ((Document.ofText text.toList).1.nesting + 2) :=
  Value.fits_of_read _ _ _ _ (of_load rfl loaded).2

/-- A node that is loaded is well-formed. -/
theorem wellFormed_of_load {text : String} {n : Node k} (loaded : Node.load k text = .ok n) :
    n.WellFormed :=
  Each.imp (fun _ _ regular => regular.1) (fun _ distinct => distinct) n (fits_of_load loaded).1

/-- The numbers of a node that is loaded are finite. -/
theorem floatsFinite_of_load {text : String} {n : Node k} (loaded : Node.load k text = .ok n) :
    n.FloatsFinite :=
  Each.imp (fun _ _ regular => regular.2) (fun _ _ => trivial) n (fits_of_load loaded).1

end Node
end Sarif
