import Sarif.ArtifactTable
import Sarif.Build
import Sarif.Rules
import Sarif.Proofs.Artifacts.Lookup
import Sarif.Proofs.Graph.Search
import Sarif.Proofs.Hash.Consistency
import Sarif.Proofs.Node.RelatedFields
import Sarif.Proofs.Relator
import Sarif.Proofs.Uri

/-!
# Look-ups in equal nodes

Look-ups are the operations that go through a node, or through two of them, in search of something:
resolving a location, finding the rule and the text of a result, finding a node of a graph and
finding the artifact of a location. They read nothing of a node but strings, sentinels, what is
nested in it and what a map holds under a key. So they find related things in related nodes
(`LookupArguments.agree_of_alike`), for equality and for nodes in which the entries of maps and bags
stand in another order.
-/

namespace Sarif

section Related

variable {relate : (s : Scalar) → s.Value → s.Value → Prop}
  (likeEquality : Scalar.LikeEquality relate)
include likeEquality

/-! ## Resolving locations -/

section Resolve

variable {bases bases' : UriBases} {location location' : ArtifactLocation}

/-- The links of related bases are the same. -/
theorem UriBases.link?_eq (related : Dict.Related (Node.Related relate) bases bases')
    (distinct : bases.WellFormed) (name : String) : bases.link? name = bases'.link? name := by
  refine bind_eq_of_rel (related.get? distinct name) fun base base' same => ?_
  rw [same.get_eq likeEquality ArtifactLocation.uri rfl,
    same.get_eq likeEquality ArtifactLocation.uriBaseId rfl]

/-- Related locations resolve to the same by related bases. -/
theorem ArtifactLocation.resolve_eq (locations : location.Related relate location')
    (related : Dict.Related (Node.Related relate) bases bases') (distinct : bases.WellFormed) :
    location.resolve bases = location'.resolve bases' := by
  rw [resolve, resolve, locations.get_eq likeEquality uri rfl,
    locations.get_eq likeEquality uriBaseId rfl]
  refine bind_congr fun relative => Uri.Resolution.run_congr fun name _ => ?_
  exact UriBases.link?_eq likeEquality related distinct name

end Resolve

/-! ## Rules -/

section Rules

variable {tool tool' : Tool} {component component' : ToolComponent} {run run' : Run}
  {result result' : Result}

omit likeEquality in
/-- The components of related tools are related. -/
theorem Tool.components_related (tools : tool.Related relate tool') :
    List.Forall₂ (Node.Related relate) tool.components tool'.components :=
  .cons (tools.get driver) (NodeList.rel_populated (NodeList.rel_getD (tools.get extensions)))

/-- The same names lead to related components of related tools. -/
theorem Tool.componentNamed?_related (tools : tool.Related relate tool')
    (guid name : Option String) :
    Option.Rel (Node.Related relate) (tool.componentNamed? guid name)
      (tool'.componentNamed? guid name) := by
  have ofGuid (guid : String) : Option.Rel (Node.Related relate) (tool.componentOfGuid? guid)
      (tool'.componentOfGuid? guid) := by
    refine rel_find? (components_related tools) fun c c' same => ?_
    rw [same.get_eq likeEquality ToolComponent.guid rfl]
  have ofName (name : String) : Option.Rel (Node.Related relate) (tool.componentOfName? name)
      (tool'.componentOfName? name) := by
    refine rel_find? (components_related tools) fun c c' same => ?_
    rw [same.get_eq likeEquality ToolComponent.name rfl]
  match guid, name with
  | none, none => exact .some (tools.get driver)
  | some guid, name => exact rel_or (ofGuid guid) (rel_bind_same ofName)
  | none, some name => exact ofName name

/-- Related references lead to related components of related tools. -/
theorem Tool.component?_related (tools : tool.Related relate tool')
    {reference reference' : Option ToolComponentReference}
    (references : Option.Rel (Node.Related relate) reference reference') :
    Option.Rel (Node.Related relate) (tool.component? reference) (tool'.component? reference') := by
  cases references with
  | none => exact .some (tools.get driver)
  | some same =>
      rw [component?, component?, same.get_eq likeEquality ToolComponentReference.index rfl,
        same.get_eq likeEquality ToolComponentReference.guid rfl,
        same.get_eq likeEquality ToolComponentReference.name rfl]
      split
      · next i _ => exact rel_bind (tools.get extensions) fun _ _ slots => NodeList.rel_at? slots i
      · exact componentNamed?_related likeEquality tools _ _

/-- Related components have related rules of one id. -/
theorem ToolComponent.ruleOfId?_related (components : component.Related relate component')
    (id : String) :
    Option.Rel (Node.Related relate) (component.ruleOfId? id) (component'.ruleOfId? id) := by
  refine rel_bind (components.get rules) fun _ _ slots => ?_
  refine rel_find? (NodeList.rel_populated slots) fun rule rule' same => ?_
  rw [same.get_eq likeEquality ReportingDescriptor.id rfl]

/-- Related results refer to related components of related runs. -/
theorem Result.component?_related (results : result.Related relate result')
    (runs : run.Related relate run') :
    Option.Rel (Node.Related relate) (result.component? run) (result'.component? run') :=
  Tool.component?_related likeEquality (runs.get Run.tool) <|
    rel_bind (results.get rule) fun _ _ same => same.get ReportingDescriptorReference.toolComponent

/-- Related results give the same index of their rules. -/
theorem Result.ruleIndexInEffect?_eq (results : result.Related relate result') :
    result.ruleIndexInEffect? = result'.ruleIndexInEffect? := by
  rw [ruleIndexInEffect?, ruleIndexInEffect?, results.get_eq likeEquality ruleIndex rfl]
  refine congrArg _ (bind_eq_of_rel (results.get rule) fun reference reference' same => ?_)
  rw [same.get_eq likeEquality ReportingDescriptorReference.index rfl]

/-- Related results give the same id of their rules. -/
theorem Result.ruleIdInEffect?_eq (results : result.Related relate result') :
    result.ruleIdInEffect? = result'.ruleIdInEffect? := by
  rw [ruleIdInEffect?, ruleIdInEffect?, results.get_eq likeEquality ruleId rfl]
  exact congrArg _ (bind_eq_of_rel (results.get rule) fun reference reference' same =>
    same.get_eq likeEquality ReportingDescriptorReference.id rfl)

/-- Related results have related rules in related runs. -/
theorem Result.rule?_related (results : result.Related relate result')
    (runs : run.Related relate run') :
    Option.Rel (Node.Related relate) (result.rule? run) (result'.rule? run') := by
  refine rel_bind (component?_related likeEquality results runs) fun component component' same => ?_
  rw [ruleIndexInEffect?_eq likeEquality results, ruleIdInEffect?_eq likeEquality results]
  split
  · next i _ =>
      exact rel_bind (same.get ToolComponent.rules) fun _ _ slots => NodeList.rel_at? slots i
  · refine rel_bind_same fun id => rel_or ?_ (rel_bind_same fun base => ?_)
    · exact ToolComponent.ruleOfId?_related likeEquality same id
    · exact ToolComponent.ruleOfId?_related likeEquality same base

omit likeEquality in
/-- Related rules keep related messages under one name. -/
theorem ReportingDescriptor.messageString?_related {known known' : ReportingDescriptor}
    (rules : known.Related relate known')
    (distinct : ∀ strings ∈ known.get messageStrings, strings.WellFormed) (name : String) :
    Option.Rel (Node.Related relate) (known.messageString? name) (known'.messageString? name) := by
  refine rel_bind_of_mem (rules.get messageStrings) fun strings held strings' related => ?_
  exact related.get? (distinct strings held) name

/-- Related results have messages of the same text by related rules. -/
theorem Result.messageText?_eq (results : result.Related relate result')
    {rule rule' : Option ReportingDescriptor} (rules : Option.Rel (Node.Related relate) rule rule')
    (distinct : ∀ known ∈ rule, ∀ strings ∈ known.get ReportingDescriptor.messageStrings,
      strings.WellFormed) :
    result.messageText? rule = result'.messageText? rule' := by
  have messages : Node.Related relate (result.get message) (result'.get message) :=
    results.get message
  have format : Message.format (result.get message) = Message.format (result'.get message) := by
    funext template
    rw [Message.format, Message.format, messages.get_eq likeEquality Message.arguments rfl]
  rw [messageText?, messageText?, messages.get_eq likeEquality Message.text rfl,
    messages.get_eq likeEquality Message.id rfl, format]
  split
  · rfl
  · cases rules with
    | none => rfl
    | some same =>
        refine bind_congr fun id => bind_eq_of_rel
          (ReportingDescriptor.messageString?_related same (distinct _ rfl) id)
          fun template template' same => ?_
        rw [same.get_eq likeEquality MultiformatMessageString.text rfl]

end Rules

/-! ## Nodes of graphs -/

section Graphs

/-- Within one bound, searches from related nodes find related nodes. -/
theorem GraphNode.findWithin_related (id : String) (bound : Nat) {n m : GraphNode}
    (nodes : n.Related relate m) :
    Option.Rel (Node.Related relate) (findWithin id bound n) (findWithin id bound m) := by
  induction bound generalizing n m with
  | zero => exact .none
  | succ bound inductionHypothesis =>
      rw [findWithin, findWithin, nodes.get_eq likeEquality GraphNode.id rfl]
      split
      · exact .some nodes
      · have nested := NodeList.rel_populated (NodeList.rel_getD (nodes.get children))
        exact rel_findSome? nested fun _ _ => inductionHypothesis

/-- Searches from related nodes find related nodes. -/
theorem GraphNode.find?_related (id : String) {n m : GraphNode} (nodes : n.Related relate m) :
    Option.Rel (Node.Related relate) (n.find? id) (m.find? id) := by
  -- Either search finds the same within any larger bound, so both have one bound in common.
  have within (x : GraphNode) (enough : Node.depth x ≤ max (Node.depth n) (Node.depth m)) :
      x.find? id = findWithin id (max (Node.depth n) (Node.depth m)) x := by
    rw [find?_eq, findWithin_eq id _ x enough]
  rw [within n (Nat.le_max_left ..), within m (Nat.le_max_right ..)]
  exact findWithin_related likeEquality id _ nodes

/-- Searches through related graphs find related nodes. -/
theorem Graph.find?_related (id : String) {graph graph' : Graph}
    (graphs : graph.Related relate graph') :
    Option.Rel (Node.Related relate) (graph.find? id) (graph'.find? id) :=
  rel_findSome? (NodeList.rel_populated (NodeList.rel_getD (graphs.get nodes))) fun _ _ =>
    GraphNode.find?_related likeEquality id

end Graphs

/-! ## Artifacts -/

section Artifacts

variable {artifact artifact' : Artifact} {location location' : ArtifactLocation} {run run' : Run}

/-- Related locations have one key. -/
theorem ArtifactLocation.key_eq (locations : location.Related relate location') :
    location.key = location'.key := by
  rw [key, key, locations.get_eq likeEquality uri rfl, locations.get_eq likeEquality uriBaseId rfl]

/-- Related artifacts have one key, or none. -/
theorem Artifact.key?_eq (artifacts : artifact.Related relate artifact') :
    artifact.key? = artifact'.key? := by
  rw [key?, key?, Option.map_eq_bind, Option.map_eq_bind]
  exact bind_eq_of_rel (artifacts.get Artifact.location) fun _ _ locations =>
    congrArg some (ArtifactLocation.key_eq likeEquality locations)

/-- Related artifacts are those of related locations, or neither is. -/
theorem Artifact.isAt_eq (artifacts : artifact.Related relate artifact')
    (locations : location.Related relate location') :
    artifact.isAt location = artifact'.isAt location' := by
  rw [Bool.eq_iff_iff, isAt_iff, isAt_iff, key?_eq likeEquality artifacts,
    ArtifactLocation.key_eq likeEquality locations]

/-- Related locations have one index in related tables. -/
theorem ArtifactLocation.indexIn?_eq (locations : location.Related relate location')
    {table table' : NodeList Artifact}
    (tables : List.Forall₂ (Option.Rel (Node.Related relate)) table table') :
    location.indexIn? table = location'.indexIn? table' := by
  have agree : ∀ artifact artifact' : Artifact, artifact.Related relate artifact' →
      artifact.isAt location = artifact'.isAt location' :=
    fun _ _ artifacts => Artifact.isAt_eq likeEquality artifacts locations
  have trusted : location.trustedIndex? table = location'.trustedIndex? table' := by
    rw [trustedIndex?, trustedIndex?, locations.get_eq likeEquality index rfl]
    exact congrArg (Option.filter · _) <| funext fun i =>
      any_eq_of_rel (NodeList.rel_at? tables i) agree
  rw [indexIn?, indexIn?, trusted, NodeList.position?_eq_of_rel tables agree]

/-- Related locations stay related with one index. -/
theorem ArtifactLocation.withIndex_related (locations : location.Related relate location')
    (i : Nat) :
    (location.withIndex i).Related relate (location'.withIndex i) :=
  locations.set_eq likeEquality index rfl _

/-- Artifacts of related locations are related. -/
theorem Artifact.ofLocation_related (locations : location.Related relate location') :
    (ofLocation location).Related relate (ofLocation location') :=
  (Node.related_default likeEquality .artifact).set Artifact.location (.some locations)

/-- Look-ups of related locations in related runs give one index and leave what is related. -/
theorem Run.artifactIndex_related (runs : run.Related relate run')
    (locations : location.Related relate location') (add : Bool) :
    (run.artifactIndex location add).index = (run'.artifactIndex location' add).index ∧
      (run.artifactIndex location add).run.Related relate (run'.artifactIndex location' add).run ∧
      (run.artifactIndex location add).location.Related relate
        (run'.artifactIndex location' add).location := by
  have same : (run.get artifacts).bind location.indexIn? =
      (run'.get artifacts).bind location'.indexIn? :=
    bind_eq_of_rel (runs.get artifacts) fun _ _ =>
      ArtifactLocation.indexIn?_eq likeEquality locations
  rw [artifactIndex, artifactIndex, same]
  split
  · next i _ => exact ⟨rfl, runs, ArtifactLocation.withIndex_related likeEquality locations i⟩
  · split
    · have tables := NodeList.rel_getD (runs.get artifacts)
      have added := ArtifactLocation.withIndex_related likeEquality locations
        ((run'.get artifacts).getD []).length
      have pushed := List.rel_append tables
        (.cons (.some (Artifact.ofLocation_related likeEquality added)) .nil)
      dsimp only
      rw [tables.length_eq]
      exact ⟨rfl, runs.set artifacts (.some pushed), added⟩
    · exact ⟨rfl, runs, locations⟩

end Artifacts

end Related

/-! ## All look-ups together -/

/-- Equality of scalars is like equality. -/
theorem Scalar.likeEquality_same : LikeEquality fun s x y => s.same x y = true where
  iff_eq {s _ _} discrete := by
    cases s with
    | number => cases discrete
    | json => cases discrete
    | unit => exact iff_of_true rfl rfl
    | _ => exact decide_eq_true_iff
  refl s x wellFormed finite := same_self s x (comparable_of_finite s x ⟨wellFormed, finite⟩)

/-- The identity of scalars is like equality. -/
theorem Scalar.likeEquality_eq : LikeEquality fun _ x y => x = y where
  iff_eq _ := Iff.rfl
  refl _ _ _ _ := rfl

/-- Nodes that hold the same, up to the order in which entries of maps and bags stand at any depth:
scalars are identical, and a key leads to nodes of which this is true again. -/
def Node.SameButOrder {k : Kind} (n m : Node k) : Prop :=
  n.Related (fun _ x y => x = y) m

/-- Equality of nodes relates those whose scalars are equal. -/
theorem Node.same_eq_related : (fun (k : Kind) (n m : Node k) => n.same m = true) =
    fun _ => Related fun s x y => s.same x y = true := by
  funext k n m
  exact propext (same_iff_related n m)

/-- What look-ups start from: a run and a result of it, a location and the bases that it may be
relative to, the rule of the result, and a graph. -/
structure LookupArguments where
  run : Run
  result : Result
  location : ArtifactLocation
  bases : UriBases
  rule : Option ReportingDescriptor
  graph : Graph

namespace LookupArguments

/-- No key stands twice in the maps that look-ups search. -/
structure KeysDistinct (a : LookupArguments) : Prop where
  bases : a.bases.WellFormed
  strings : ∀ rule ∈ a.rule, ∀ strings ∈ rule.get ReportingDescriptor.messageStrings,
    strings.WellFormed

variable (alike : (k : Kind) → Node k → Node k → Prop)

/-- Arguments of look-ups that are alike one by one. Bases are if the same names stand for locations
that are alike; for equality of nodes this is equality of maps (`Dict.same_iff_related`). -/
structure Alike (a b : LookupArguments) : Prop where
  run : alike _ a.run b.run
  result : alike _ a.result b.result
  location : alike _ a.location b.location
  bases : Dict.Related (alike _) a.bases b.bases
  rule : Option.Rel (alike _) a.rule b.rule
  graph : alike _ a.graph b.graph

/-- Arguments for which every look-up gives the same string or index, and nodes that are alike. -/
structure Agree (a b : LookupArguments) : Prop where
  resolve : a.location.resolve a.bases = b.location.resolve b.bases
  rule? : Option.Rel (alike _) (a.result.rule? a.run) (b.result.rule? b.run)
  messageText? : a.result.messageText? a.rule = b.result.messageText? b.rule
  find? : ∀ id, Option.Rel (alike _) (a.graph.find? id) (b.graph.find? id)
  index : ∀ add, (a.run.artifactIndex a.location add).index =
    (b.run.artifactIndex b.location add).index
  runAfter : ∀ add, alike _ (a.run.artifactIndex a.location add).run
    (b.run.artifactIndex b.location add).run
  locationAfter : ∀ add, alike _ (a.run.artifactIndex a.location add).location
    (b.run.artifactIndex b.location add).location

variable {a b : LookupArguments}

/-- Look-ups with related arguments give the same, or what is related. -/
theorem agree_of_related {relate : (s : Scalar) → s.Value → s.Value → Prop}
    (likeEquality : Scalar.LikeEquality relate) (distinct : a.KeysDistinct)
    (related : a.Alike (fun _ => Node.Related relate) b) :
    a.Agree (fun _ => Node.Related relate) b := by
  have lookup := Run.artifactIndex_related likeEquality related.run related.location
  exact {
    resolve :=
      ArtifactLocation.resolve_eq likeEquality related.location related.bases distinct.bases
    rule? := Result.rule?_related likeEquality related.result related.run
    messageText? := Result.messageText?_eq likeEquality related.result related.rule distinct.strings
    find? := fun id => Graph.find?_related likeEquality id related.graph
    index := fun add => (lookup add).1
    runAfter := fun add => (lookup add).2.1
    locationAfter := fun add => (lookup add).2.2 }

/-- Look-ups with equal arguments give the same, or what is equal, whatever the order of the
entries in any map or bag; and arguments that differ in nothing else lead to what differs in
nothing else. -/
theorem agree_of_alike (distinct : a.KeysDistinct) :
    (a.Alike (fun _ n m => n.same m = true) b → a.Agree (fun _ n m => n.same m = true) b) ∧
      (a.Alike (fun _ => Node.SameButOrder) b → a.Agree (fun _ => Node.SameButOrder) b) := by
  rw [Node.same_eq_related]
  exact ⟨agree_of_related Scalar.likeEquality_same distinct,
    agree_of_related Scalar.likeEquality_eq distinct⟩

/-- Look-ups for a file below a source root and for the only rule of a tool. -/
def ofMaps (bases : List (String × ArtifactLocation))
    (strings : List (String × MultiformatMessageString)) : LookupArguments :=
  let rule := (Node.default .reportingDescriptor).set ReportingDescriptor.messageStrings
    (some ⟨strings⟩)
  let driver := (Node.default .toolComponent).set ToolComponent.rules (some [some rule])
  { run := .ofTool ((Node.default .tool).set Tool.driver driver)
    result := (Node.default .result).set Result.message (Message.ofId "short" ["x"])
    location := .ofUriAndBase "lib.rs" "SRCROOT"
    bases := ⟨bases⟩
    rule := some rule
    graph := Node.default .graph }

/-- The source root below a repository, and a short and a long message. -/
def ordered : LookupArguments :=
  ofMaps [("SRCROOT", .ofUriAndBase "src" "REPOROOT"), ("REPOROOT", .ofUri "file:///repo/")]
    [("short", .ofText "Unused \x7b0\x7d."), ("long", .ofText "Never used.")]

/-- The same bases and messages the other way round. -/
def reordered : LookupArguments :=
  ofMaps [("REPOROOT", .ofUri "file:///repo/"), ("SRCROOT", .ofUriAndBase "src" "REPOROOT")]
    [("long", .ofText "Never used."), ("short", .ofText "Unused \x7b0\x7d.")]

/-- A map of two related entries is related to the map of them the other way round. -/
theorem related_swap {α : Type} {relate : α → α → Prop} {one other : String}
    (different : one ≠ other) {x x' y y' : α} (first : relate x x') (second : relate y y') :
    Dict.Related relate ⟨[(one, x), (other, y)]⟩ ⟨[(other, y'), (one, x')]⟩ := by
  refine ⟨rfl, ?_⟩
  simp [Dict.get?, Dict.lookup, Ne.symm different, first, second]

/-- Bases and messages in another order are related by whatever is like equality. -/
theorem ordered_related {relate : (s : Scalar) → s.Value → s.Value → Prop}
    (likeEquality : Scalar.LikeEquality relate) :
    ordered.Alike (fun _ => Node.Related relate) reordered := by
  have default (k : Kind) := Node.related_default likeEquality k
  have location := ((default .artifactLocation).set_eq likeEquality ArtifactLocation.uri rfl
    (some "lib.rs")).set_eq likeEquality ArtifactLocation.uriBaseId rfl (some "SRCROOT")
  have source := ((default .artifactLocation).set_eq likeEquality ArtifactLocation.uri rfl
    (some "src")).set_eq likeEquality ArtifactLocation.uriBaseId rfl (some "REPOROOT")
  have repository := (default .artifactLocation).set_eq likeEquality ArtifactLocation.uri rfl
    (some "file:///repo/")
  have message (text : String) := (default .multiformatMessageString).set_eq likeEquality
    MultiformatMessageString.text rfl text
  have strings := related_swap (by decide : "short" ≠ "long") (message "Unused \x7b0\x7d.")
    (message "Never used.")
  have rule := (default .reportingDescriptor).set ReportingDescriptor.messageStrings (.some strings)
  have driver := (default .toolComponent).set ToolComponent.rules (.some (.cons (.some rule) .nil))
  have text := ((default .message).set_eq likeEquality Message.id rfl (some "short")).set_eq
    likeEquality Message.arguments rfl (some ["x"])
  exact {
    run := (default .run).set_node Run.tool ((default .tool).set_node Tool.driver driver)
    result := (default .result).set_node Result.message text
    location := location
    bases := related_swap (by decide) source repository
    rule := .some rule
    graph := default .graph }

/-- Look-ups with bases and messages in another order agree. -/
theorem agree_of_alike_reordered :
    ordered.Agree (fun _ n m => n.same m = true) reordered ∧
      ordered.Agree (fun _ => Node.SameButOrder) reordered := by
  have distinct : ordered.KeysDistinct := by
    refine ⟨by decide, ?_⟩
    rintro _ ⟨⟩ _ ⟨⟩
    decide
  have equal : ordered.Alike (fun _ n m => n.same m = true) reordered :=
    Node.same_eq_related ▸ ordered_related Scalar.likeEquality_same
  have sameButOrder : ordered.Alike (fun _ => Node.SameButOrder) reordered :=
    ordered_related Scalar.likeEquality_eq
  exact ⟨(agree_of_alike distinct).1 equal, (agree_of_alike distinct).2 sameButOrder⟩

end LookupArguments
end Sarif
