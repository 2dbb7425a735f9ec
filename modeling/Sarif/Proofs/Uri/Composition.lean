import Sarif.Proofs.Uri

/-!
# Resolving the base first

A resolution puts the URIs of a chain together from the location outwards. Since putting two parts
together is associative (`Uri.join_assoc`), this is the same as to resolve the base of the location
and to put the location behind the outcome. That the base starts its own chain with no name passed
makes no difference either: a chain that ends never comes to a name twice (`Uri.Chain.nodup`), so
one that comes back to the base of the location does not end from the base on.
-/

namespace Sarif
namespace Uri

/-! ## Putting parts together -/

/-- A base with a slash at its end. -/
def asDirectory (base : List Char) : List Char :=
  if base.getLast? = some '/' then base else base ++ ['/']

/-- A relative part with no slash in front, or with one less. -/
def asEntry : List Char → List Char
  | '/' :: rest => rest
  | relative => relative

/-- Two parts put together are a directory and an entry of it. -/
theorem joinText_eq (base relative : List Char) :
    joinText base relative = asDirectory base ++ asEntry relative := by
  unfold joinText asDirectory asEntry
  by_cases closed : base.getLast? = some '/'
  · simp only [closed, beq_self_eq_true, if_true]
    split <;> simp_all
  · have unclosed : (base.getLast? == some '/') = false := by simpa using closed
    simp only [unclosed, closed, if_false]
    split <;> simp_all

/-- Only the last part tells whether a slash is missing at the end. -/
theorem asDirectory_append {base : List Char} (before : List Char) (nonempty : base ≠ []) :
    asDirectory (before ++ base) = before ++ asDirectory base := by
  obtain ⟨last, ends⟩ := Option.ne_none_iff_exists'.mp (mt List.getLast?_eq_none_iff.mp nonempty)
  rw [asDirectory, asDirectory, List.getLast?_append, ends, Option.some_or]
  split
  · rfl
  · exact List.append_assoc ..

/-- A directory stays as it is. -/
theorem asDirectory_asDirectory (base : List Char) :
    asDirectory (asDirectory base) = asDirectory base := by
  by_cases closed : base.getLast? = some '/'
  · simp [asDirectory, closed]
  · simp [asDirectory, closed]

/-- A directory begins as the part that it is made from, or with the slash at its end. -/
theorem exists_asDirectory_eq (base : List Char) :
    ∃ rest, asDirectory base = base.headD '/' :: rest := by
  cases base with
  | nil => exact ⟨[], rfl⟩
  | cons c rest =>
      unfold asDirectory
      split
      · exact ⟨rest, rfl⟩
      · exact ⟨rest ++ ['/'], rfl⟩

/-- A part that begins with anything but a slash is kept. -/
theorem asEntry_cons {c : Char} (other : c ≠ '/') (rest : List Char) :
    asEntry (c :: rest) = c :: rest := by
  unfold asEntry
  split
  · next same => exact absurd (List.cons.inj same).1 other
  · rfl

/-- An entry of a directory is a directory where it is one by itself. -/
theorem asDirectory_append_asEntry (base middle : List Char) :
    asDirectory (asDirectory base ++ asEntry middle) =
      asDirectory base ++ asEntry (asDirectory middle) := by
  cases middle with
  | nil =>
      have nothing : asEntry [] = [] := rfl
      have whole : asEntry (asDirectory []) = [] := rfl
      rw [nothing, whole, List.append_nil, asDirectory_asDirectory]
  | cons c rest =>
      by_cases slash : c = '/'
      · subst slash
        cases rest with
        | nil =>
            have nothing : asEntry ['/'] = [] := rfl
            have whole : asDirectory ['/'] = ['/'] := rfl
            rw [whole, nothing, List.append_nil, asDirectory_asDirectory]
        | cons d rest =>
            have entry : asDirectory ('/' :: d :: rest) = '/' :: asDirectory (d :: rest) :=
              asDirectory_append ['/'] (List.cons_ne_nil d rest)
            rw [entry]
            exact asDirectory_append _ (List.cons_ne_nil d rest)
      · obtain ⟨more, eq⟩ := exists_asDirectory_eq (c :: rest)
        rw [asEntry_cons slash, asDirectory_append _ (List.cons_ne_nil c rest), eq]
        exact congrArg (asDirectory base ++ ·) (asEntry_cons slash more).symm

/-- What stands behind a directory belongs to its entry. -/
theorem asEntry_append (middle after : List Char) :
    asEntry (asDirectory middle ++ after) = asEntry (asDirectory middle) ++ after := by
  obtain ⟨rest, eq⟩ := exists_asDirectory_eq middle
  rw [eq]
  generalize middle.headD '/' = c
  by_cases slash : c = '/'
  · subst slash
    rfl
  · rw [List.cons_append, asEntry_cons slash, asEntry_cons slash, List.cons_append]

/-- Parts can be put together in either order. -/
theorem join_assoc (base middle relative : String) :
    join base (join middle relative) = join (join base middle) relative := by
  simp only [join, joinText_eq, String.toList_ofList, asEntry_append, asDirectory_append_asEntry,
    List.append_assoc]

/-- A part behind the last one stays behind it along a chain. -/
theorem joinChain_join (chain : List (String × String)) (middle relative : String) :
    joinChain (join middle relative) chain = join (joinChain middle chain) relative := by
  induction chain generalizing middle with
  | nil => rfl
  | cons base further inductionHypothesis =>
      rw [joinChain, List.foldl_cons, join_assoc]
      exact inductionHypothesis (join base.2 middle)

/-! ## Chains that end -/

section

variable {bases : UriBases} {start : Option String} {name front : String}
  {further : Option String} {chain other : List (String × String)}

/-- There is one chain from a base name on. -/
theorem Chain.unique (one : Chain bases start chain) (two : Chain bases start other) :
    chain = other := by
  induction one generalizing other with
  | done => exact (chain_none_iff.mp two).symm
  | base found uri rest inductionHypothesis =>
      cases two with
      | base found' uri' rest' =>
          obtain rfl := Option.some.inj (found.symm.trans found')
          obtain rfl := Option.some.inj (uri.symm.trans uri')
          rw [inductionHypothesis rest']

/-- From a name that it comes to, a chain goes on as the chain of that name. -/
theorem Chain.exists_suffix (whole : Chain bases start chain)
    (passed : name ∈ chain.map Prod.fst) :
    ∃ rest, Chain bases (some name) rest ∧ rest.length ≤ chain.length := by
  induction whole with
  | done => cases passed
  | base found uri rest inductionHypothesis =>
      rcases List.mem_cons.mp passed with rfl | later
      · exact ⟨_, .base found uri rest, Nat.le_refl _⟩
      · obtain ⟨suffix, chain, shorter⟩ := inductionHypothesis later
        exact ⟨suffix, chain, Nat.le_succ_of_le shorter⟩

/-- A chain that ends comes to no name twice. -/
theorem Chain.nodup (whole : Chain bases start chain) : (chain.map Prod.fst).Nodup := by
  induction whole with
  | done => exact List.nodup_nil
  | base found uri rest inductionHypothesis =>
      refine List.nodup_cons.mpr ⟨fun again => ?_, inductionHypothesis⟩
      -- The chain from the second place on would be the whole one and shorter.
      obtain ⟨suffix, chain, shorter⟩ := rest.exists_suffix again
      rw [chain.unique (.base found uri rest), List.length_cons] at shorter
      exact Nat.not_succ_le_self _ shorter

namespace Resolution

/-- A resolution that has passed no base comes to a URI exactly if its chain ends. -/
theorem run_fresh_eq_some_iff {uri result : String} :
    run bases ⟨uri, start, []⟩ = some result ↔
      ∃ chain, Chain bases start chain ∧ result = joinChain uri chain := by
  rw [run_eq_some_iff List.nodup_nil]
  constructor
  · rintro ⟨chain, whole, _, result⟩
    exact ⟨chain, whole, result⟩
  · rintro ⟨chain, whole, result⟩
    exact ⟨chain, whole, whole.nodup, result⟩

/-- A resolution ends without a URI at a base that has no link. -/
theorem run_of_no_link (missing : bases.link? name = none) (relative : String) :
    run bases ⟨relative, some name, []⟩ = none :=
  run_of_ended (step_eq_inl_iff.mpr (.inr ⟨name, rfl, .inr missing, rfl⟩))

/-- A resolution comes to what its base resolves to, with its URI behind. -/
theorem run_of_link (link : bases.link? name = some (front, further)) (relative : String) :
    run bases ⟨relative, some name, []⟩ =
      (run bases ⟨front, further, []⟩).map (join · relative) := by
  refine Option.ext fun result => ?_
  rw [run_fresh_eq_some_iff, Option.map_eq_some_iff]
  constructor
  · rintro ⟨whole, chain, rfl⟩
    obtain ⟨_, _, rest, found, chain, rfl⟩ := chain_some_iff.mp chain
    obtain ⟨rfl, rfl⟩ := Prod.mk.inj (Option.some.inj (link.symm.trans found))
    exact ⟨joinChain front rest, run_fresh_eq_some_iff.mpr ⟨rest, chain, rfl⟩,
      (joinChain_join rest front relative).symm⟩
  · rintro ⟨absolute, resolved, rfl⟩
    obtain ⟨rest, chain, rfl⟩ := run_fresh_eq_some_iff.mp resolved
    exact ⟨(name, front) :: rest, chain_some_iff.mpr ⟨front, further, rest, link, chain, rfl⟩,
      (joinChain_join rest front relative).symm⟩

end Resolution
end
end Uri

namespace ArtifactLocation

/-- A location with a URI is resolved from its URI and its base on. -/
theorem resolve_of_uri {location : ArtifactLocation} {relative : String} (bases : UriBases)
    (hasUri : location.get uri = some relative) :
    location.resolve bases =
      Uri.Resolution.run bases ⟨relative, location.get uriBaseId, []⟩ := by
  rw [resolve, hasUri]
  rfl

/-- A location that is relative to a base has no absolute URI if the base is missing; otherwise it
has one exactly if the base does, and it is the one of the base with the URI of the location put
behind it. -/
theorem resolve_of_base {location : ArtifactLocation} {relative name : String} (bases : UriBases)
    (hasUri : location.get uri = some relative) (hasBase : location.get uriBaseId = some name) :
    (bases.get? name = none → location.resolve bases = none) ∧
    ∀ base, bases.get? name = some base →
      location.resolve bases = (base.resolve bases).map (Uri.join · relative) := by
  rw [resolve_of_uri bases hasUri, hasBase]
  constructor
  · intro missing
    apply Uri.Resolution.run_of_no_link
    rw [UriBases.link?, missing]
    rfl
  · intro base found
    cases baseUri : base.get uri with
    | none =>
        have missing : bases.link? name = none := by
          rw [UriBases.link?, found]
          exact congrArg (Option.bind · _) baseUri
        rw [Uri.Resolution.run_of_no_link missing, resolve, baseUri]
        rfl
    | some front =>
        have link : bases.link? name = some (front, base.get uriBaseId) :=
          UriBases.link?_eq_some_iff.mpr ⟨base, found, baseUri, rfl⟩
        rw [Uri.Resolution.run_of_link link, resolve_of_uri bases baseUri]

/-- Bases with slashes at every joint, with an empty one, and one that is relative to itself. -/
def slashBases : UriBases :=
  ⟨[("ROOT", ofUri "/"), ("EMPTY", ofUriAndBase "" "ROOT"), ("DOUBLE", ofUriAndBase "//" "EMPTY"),
    ("SELF", ofUriAndBase "a/" "SELF")]⟩

/-- A file below doubled and empty parts has the URI of its base and its own; one below the base
that is relative to itself has none, as its base has none. -/
theorem resolve_of_base_slashes :
    (ofUriAndBase "" "ROOT").resolve slashBases = some "/" ∧
      (ofUriAndBase "//" "EMPTY").resolve slashBases = some "//" ∧
      (ofUriAndBase "/x" "DOUBLE").resolve slashBases = some "//x" ∧
      (ofUriAndBase "x" "SELF").resolve slashBases = none ∧
      (ofUriAndBase "x" "MISSING").resolve slashBases = none := by
  have root : (ofUri "/").resolve slashBases = some "/" :=
    Uri.Resolution.run_of_ended rfl
  have empty : (ofUriAndBase "" "ROOT").resolve slashBases = some "/" := by
    rw [(resolve_of_base slashBases rfl rfl).2 (ofUri "/") rfl, root]
    rfl
  have double : (ofUriAndBase "//" "EMPTY").resolve slashBases = some "//" := by
    rw [(resolve_of_base slashBases rfl rfl).2 (ofUriAndBase "" "ROOT") rfl, empty]
    rfl
  have self : (ofUriAndBase "a/" "SELF").resolve slashBases = none :=
    (Uri.Resolution.run_of_onward rfl).trans (Uri.Resolution.run_of_ended rfl)
  refine ⟨empty, double, ?_, ?_, ?_⟩
  · rw [(resolve_of_base slashBases rfl rfl).2 (ofUriAndBase "//" "EMPTY") rfl, double]
    rfl
  · rw [(resolve_of_base slashBases rfl rfl).2 (ofUriAndBase "a/" "SELF") rfl, self]
    rfl
  · exact (resolve_of_base slashBases rfl rfl).1 rfl

end ArtifactLocation
end Sarif
