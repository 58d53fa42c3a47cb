import ParcelCompanion.Proofs.Meaning.Resolution
import ParcelCompanion.Proofs.Text.Dotted

/-!
# The order in which names are resolved

A name may mean several things in a context, and the order in which these are tried says which one
it means.  `Means` states this order without an execution: every rule names what comes first among
the things that are there, and says that nothing of what is preferred to it is there.
`resolve_eq_some_iff` says that resolution by name follows these rules.
-/

namespace ParcelCompanion

/-! ### Names around a name -/

namespace Dotted

lemma mem_fronts_iff {l front : List Char} :
    front ∈ fronts l ↔ ∃ rest, l = front ++ '.' :: rest := by
  induction l generalizing front with
  | nil => simp [fronts]
  | cons c l ih =>
    rw [fronts, List.mem_append, List.mem_map]
    constructor
    · rintro (⟨front, hfront, rfl⟩ | hempty)
      · obtain ⟨rest, rfl⟩ := ih.mp hfront
        exact ⟨rest, rfl⟩
      · split at hempty
        · next hc => exact ⟨l, by rw [List.mem_singleton.mp hempty, hc, List.nil_append]⟩
        · exact nomatch hempty
    · rintro ⟨rest, hl⟩
      cases front with
      | nil =>
        obtain ⟨rfl, -⟩ := List.cons.inj hl
        exact Or.inr (by simp)
      | cons d front =>
        obtain ⟨rfl, rfl⟩ := List.cons.inj hl
        exact Or.inl ⟨front, ih.mpr ⟨rest, rfl⟩, rfl⟩

/-- Of two fronts, the later one is a front of the earlier one. -/
lemma pairwise_fronts (l : List Char) : (fronts l).Pairwise fun longer shorter =>
    shorter ∈ fronts longer := by
  induction l with
  | nil => exact .nil
  | cons c l ih =>
    rw [fronts, List.pairwise_append, List.pairwise_map]
    refine ⟨ih.imp fun h => ?_, ?_, fun longer hlonger shorter hshorter => ?_⟩
    · obtain ⟨rest, rfl⟩ := mem_fronts_iff.mp h
      exact mem_fronts_iff.mpr ⟨rest, rfl⟩
    · split <;> simp
    · obtain ⟨front, -, rfl⟩ := List.mem_map.mp hlonger
      split at hshorter
      · next hc =>
        rw [List.mem_singleton.mp hshorter, hc]
        exact mem_fronts_iff.mpr ⟨front, rfl⟩
      · exact nomatch hshorter

lemma mem_surrounding_iff {name outer : String} :
    outer ∈ surrounding name ↔ ∃ rest, name = member outer rest := by
  rw [surrounding, List.mem_map]
  constructor
  · rintro ⟨front, hfront, rfl⟩
    obtain ⟨rest, hname⟩ := mem_fronts_iff.mp hfront
    refine ⟨String.ofList rest, String.toList_injective ?_⟩
    rw [toList_member, String.toList_ofList, String.toList_ofList, hname]
  · rintro ⟨rest, rfl⟩
    exact ⟨outer.toList, mem_fronts_iff.mpr ⟨rest.toList, toList_member outer rest⟩,
      String.ofList_toList⟩

/-- A member of a scope has a longer name. -/
lemma utf8ByteSize_lt_member (outer rest : String) :
    outer.utf8ByteSize < (member outer rest).utf8ByteSize := by
  have hdot : ".".utf8ByteSize = 1 := by decide
  rw [member, String.utf8ByteSize_append, String.utf8ByteSize_append]
  omega

/-- The names around a name come in the order of their lengths. -/
lemma pairwise_surrounding (name : String) : (surrounding name).Pairwise fun longer shorter =>
    shorter.utf8ByteSize < longer.utf8ByteSize := by
  rw [surrounding, List.pairwise_map]
  refine (pairwise_fronts name.toList).imp fun {longer shorter} h => ?_
  have hmem : String.ofList shorter ∈ surrounding (String.ofList longer) := by
    rw [surrounding, String.toList_ofList]
    exact List.mem_map_of_mem h
  obtain ⟨rest, hrest⟩ := mem_surrounding_iff.mp hmem
  rw [hrest]
  exact utf8ByteSize_lt_member _ _

end Dotted

/-- Where a condition never holds again once it has failed, the members up to the first failure are
all that meet it. -/
lemma takeWhile_eq_filter_of_pairwise {α : Type*} {R : α → α → Prop} {p : α → Bool} {l : List α}
    (hl : l.Pairwise R) (hp : ∀ a b, R a b → p b = true → p a = true) :
    l.takeWhile p = l.filter p := by
  induction l with
  | nil => rfl
  | cons a l ih =>
    obtain ⟨ha, hl⟩ := List.pairwise_cons.mp hl
    rw [List.takeWhile_cons, List.filter_cons, ih hl]
    split
    · rfl
    · next hfail =>
      refine (List.filter_eq_nil_iff.mpr fun b hb hpb => ?_).symm
      exact hfail (hp a b (ha b hb) hpb)

/-- A word is the keyword of the primitive type that it denotes. -/
lemma Primitive.ofKeyword?_eq_some_iff {word : String} {kind : Primitive} :
    ofKeyword? word = some kind ↔ kind.keyword = word := by
  constructor
  · intro h
    have hfound := List.find?_some h
    exact beq_iff_eq.mp hfound
  · rintro rfl
    exact ofKeyword?_keyword kind

lemma Primitive.ofKeyword?_eq_none_iff {word : String} :
    ofKeyword? word = none ↔ ∀ kind : Primitive, kind.keyword ≠ word := by
  simp only [Option.eq_none_iff_forall_ne_some, ne_eq, ofKeyword?_eq_some_iff]

namespace Names

variable {names : Names} {context : String} {scope : Scope} {name owner : String}

/-! ### Scopes -/

/-- The scopes around a context: the declared names around it that are longer than the package, the
longest first. -/
structure Around (names : Names) (context package : String) (around : List String) : Prop where
  longestFirst : around.Pairwise fun longer shorter => shorter.utf8ByteSize < longer.utf8ByteSize
  mem_iff : ∀ outer, outer ∈ around ↔ (∃ rest, context = Dotted.member outer rest) ∧
    package.utf8ByteSize < outer.utf8ByteSize ∧ (names outer).isSome

/-- The scopes in a context are the context and those around it. -/
lemma exists_around (names : Names) (context : String) (scope : Scope) :
    ∃ around, names.scopes context scope = context :: around ∧
      names.Around context scope.package around := by
  have hsorted := Dotted.pairwise_surrounding context
  refine ⟨_, rfl, ?_, fun outer => ?_⟩
  · exact (hsorted.sublist (List.takeWhile_sublist _)).filter _
  · rw [takeWhile_eq_filter_of_pairwise hsorted, List.mem_filter, List.mem_filter,
      Dotted.mem_surrounding_iff]
    · simp only [decide_eq_true_eq, and_assoc]
    · intro longer shorter hlt hshorter
      simp only [decide_eq_true_eq] at hshorter ⊢
      omega

/-! ### What comes first -/

/-- The position is the first one with this name among the type parameters of its owner, which is
the innermost scope that has a type parameter of this name. -/
structure FirstParameter (names : Names) (scopes : List String) (name owner : String) (index : ℕ) :
    Prop where
  innermost : ∃ inner outer, scopes = inner ++ owner :: outer ∧
    ∀ other ∈ inner, ∀ s, names other = some s → name ∉ s.parameters
  first : ∃ s, names owner = some s ∧ s.parameters.idxOf? name = some index

/-- The name is neither a keyword nor that of a type parameter of a scope. -/
def NoWord (names : Names) (scopes : List String) (name : String) : Prop :=
  (∀ kind : Primitive, kind.keyword ≠ name) ∧
    ∀ other ∈ scopes, ∀ s, names other = some s → name ∉ s.parameters

/-- The qualified names that a name may stand for, the preferred first: as a member of a scope, as a
qualified name, in the package unless that is the default one, and in `java.lang`. -/
def readings (scopes : List String) (package name : String) : List String :=
  scopes.map (Dotted.member · name) ++ [name]
    ++ (if package = "" then [] else [Dotted.member package name])
    ++ [Dotted.member "java.lang" name]

/-- The owner is the first of some qualified names that is declared. -/
def FirstDeclared (names : Names) (candidates : List String) (owner : String) : Prop :=
  ∃ before after, candidates = before ++ owner :: after ∧ (names owner).isSome ∧
    ∀ other ∈ before, names other = none

/-- A name is that of no type parameter exactly when it has no first position. -/
lemma idxOf?_eq_none_iff {s : Scope} : s.parameters.idxOf? name = none ↔ name ∉ s.parameters := by
  rw [List.idxOf?, List.findIdx?_eq_none_iff]
  constructor
  · exact fun h hname => absurd (h name hname) (by simp)
  · intro h parameter hparameter
    exact beq_eq_false_iff_ne.mpr (ne_of_mem_of_not_mem hparameter h)

/-- A search in one scope finds no type parameter of a name exactly when the declaration of the
scope, if there is one, has none of this name. -/
lemma position_eq_none_iff {other : String} :
    ((names other).bind fun s =>
        (s.parameters.idxOf? name).map fun index => (other, index)) = none ↔
      ∀ s, names other = some s → name ∉ s.parameters := by
  simp only [Option.bind_eq_none_iff, Option.map_eq_none_iff, idxOf?_eq_none_iff]

lemma findParameter_eq (names : Names) (context : String) (scope : Scope) (name : String) :
    names.findParameter context scope name = (names.scopes context scope).findSome? fun other =>
      (names other).bind fun s => (s.parameters.idxOf? name).map fun index => (other, index) := by
  simp only [findParameter, List.idxOf?, Option.map_eq_bind]
  rfl

lemma findParameter_eq_some_iff {index : ℕ} :
    names.findParameter context scope name = some (owner, index) ↔
      names.FirstParameter (names.scopes context scope) name owner index := by
  rw [findParameter_eq, List.findSome?_eq_some_iff]
  constructor
  · rintro ⟨inner, found, outer, hscopes, hfound, hinner⟩
    obtain ⟨s, hs, hindex⟩ := Option.bind_eq_some_iff.mp hfound
    obtain ⟨i, hi, heq⟩ := Option.map_eq_some_iff.mp hindex
    obtain ⟨rfl, rfl⟩ := Prod.mk.inj heq
    exact ⟨⟨inner, outer, hscopes, fun other hother =>
      position_eq_none_iff.mp (hinner other hother)⟩, s, hs, hi⟩
  · rintro ⟨⟨inner, outer, hscopes, hinner⟩, s, hs, hi⟩
    refine ⟨inner, owner, outer, hscopes, ?_, fun other hother =>
      position_eq_none_iff.mpr (hinner other hother)⟩
    rw [hs, Option.bind_some, hi, Option.map_some]

lemma findParameter_eq_none_iff :
    names.findParameter context scope name = none ↔
      ∀ other ∈ names.scopes context scope, ∀ s, names other = some s → name ∉ s.parameters := by
  simp only [findParameter_eq, List.findSome?_eq_none_iff, position_eq_none_iff]

lemma candidates_eq_readings :
    names.candidates context scope name =
      readings (names.scopes context scope) scope.package name := by
  simp only [candidates, readings, String.isEmpty_iff]

lemma firstDeclared_iff {candidates : List String} :
    names.FirstDeclared candidates owner ↔
      candidates.find? (fun candidate => (names candidate).isSome) = some owner := by
  rw [List.find?_eq_some_iff_append]
  simp only [FirstDeclared, Bool.not_eq_true', Option.isSome_eq_false_iff,
    Option.isNone_iff_eq_none]
  constructor
  · rintro ⟨before, after, hcandidates, howner, hbefore⟩
    exact ⟨howner, before, after, hcandidates, hbefore⟩
  · rintro ⟨howner, before, after, hcandidates, hbefore⟩
    exact ⟨before, after, hcandidates, howner, hbefore⟩

lemma findDeclaration_eq_some_iff :
    names.findDeclaration context scope name = some owner ↔
      names.FirstDeclared (readings (names.scopes context scope) scope.package name) owner := by
  rw [findDeclaration, candidates_eq_readings, firstDeclared_iff]

lemma findDeclaration_eq_none_iff :
    names.findDeclaration context scope name = none ↔
      ∀ other ∈ readings (names.scopes context scope) scope.package name, names other = none := by
  rw [findDeclaration, candidates_eq_readings, List.find?_eq_none]
  simp

/-! ### What written types mean -/

mutual

/-- What a written type means where the scopes are `scopes`, innermost first, and the package is
`package`. -/
inductive Means (names : Names) (scopes : List String) (package : String) :
    WrittenType → TypeTree → Prop
  /-- A keyword without arguments is a primitive type, whatever is declared. -/
  | primitive (kind : Primitive) :
    Means names scopes package (.named kind.keyword []) (.primitive kind)
  /-- A name without arguments that is no keyword is a type parameter if some scope has one of this
  name.  Of its position only the low 32 bits are kept. -/
  | parameter {name owner shown : String} {index : ℕ} {declared : Scope}
    (hkeyword : ∀ kind : Primitive, kind.keyword ≠ name)
    (hfirst : names.FirstParameter scopes name owner index)
    (hdeclared : names owner = some declared)
    (hshown : declared.parameters[index % UInt32.size]? = some shown) :
    Means names scopes package (.named name []) (.parameter owner (index % UInt32.size) shown)
  /-- A name that is no word, or has arguments, is that of the declaration which is the first to be
  found, and must have as many arguments as that has type parameters, or none. -/
  | declared {name owner : String} {args : List WrittenType} {trees : List TypeTree}
    {declared : Scope} (hword : args = [] → names.NoWord scopes name)
    (hfirst : names.FirstDeclared (readings scopes package name) owner)
    (hdeclared : names owner = some declared)
    (hcount : args = [] ∨ args.length = declared.parameters.length)
    (hargs : MeansAll names scopes package args trees) :
    Means names scopes package (.named name args) (.declared owner trees)
  /-- A name that is declared under none of its readings is unresolved and keeps its text. -/
  | unresolved {name : String} {args : List WrittenType}
    (hword : args = [] → names.NoWord scopes name)
    (hnone : ∀ other ∈ readings scopes package name, names other = none) :
    Means names scopes package (.named name args)
      (.unresolved (WrittenType.named name args).text)
  | array {element : WrittenType} {tree : TypeTree}
    (helement : Means names scopes package element tree) :
    Means names scopes package (.array element) (.array tree)
  | wildcard : Means names scopes package .wildcard .wildcard
  | bounded {kind : BoundKind} {bound : WrittenType} {tree : TypeTree}
    (hbound : Means names scopes package bound tree) :
    Means names scopes package (.bounded kind bound) (.bounded kind tree)

/-- What several written types mean, one by one. -/
inductive MeansAll (names : Names) (scopes : List String) (package : String) :
    List WrittenType → List TypeTree → Prop
  | nil : MeansAll names scopes package [] []
  | cons {type : WrittenType} {types : List WrittenType} {tree : TypeTree} {trees : List TypeTree}
    (htype : Means names scopes package type tree)
    (htypes : MeansAll names scopes package types trees) :
    MeansAll names scopes package (type :: types) (tree :: trees)

end

/-! ### Resolution follows the order -/

variable {tree : TypeTree} {args : List WrittenType}

/-- A word is resolved to a primitive type or else to the first type parameter of its name. -/
lemma resolveWord_eq_some_iff :
    names.resolveWord context scope name = some tree ↔
      (∃ kind : Primitive, kind.keyword = name ∧ tree = .primitive kind) ∨
        (∀ kind : Primitive, kind.keyword ≠ name) ∧ ∃ owner index declared shown,
          names.FirstParameter (names.scopes context scope) name owner index ∧
            names owner = some declared ∧
              declared.parameters[index % UInt32.size]? = some shown ∧
                tree = .parameter owner (index % UInt32.size) shown := by
  rw [resolveWord]
  cases hkeyword : Primitive.ofKeyword? name with
  | some kind =>
    have hkind := Primitive.ofKeyword?_eq_some_iff.mp hkeyword
    refine ⟨fun h => Or.inl ⟨kind, hkind, (Option.some.inj h).symm⟩, ?_⟩
    rintro (⟨kind', hkind', rfl⟩ | ⟨hnone, -⟩)
    · rw [← hkind', Primitive.ofKeyword?_keyword] at hkeyword
      rw [Option.some.inj hkeyword]
    · exact absurd hkind (hnone kind)
  | none =>
    have hnone := Primitive.ofKeyword?_eq_none_iff.mp hkeyword
    constructor
    · intro h
      obtain ⟨⟨owner, index⟩, hfound, h⟩ := Option.bind_eq_some_iff.mp h
      obtain ⟨declared, hdeclared, h⟩ := Option.bind_eq_some_iff.mp h
      obtain ⟨shown, hshown, h⟩ := Option.bind_eq_some_iff.mp h
      exact Or.inr ⟨hnone, owner, index, declared, shown, findParameter_eq_some_iff.mp hfound,
        hdeclared, hshown, (Option.some.inj h).symm⟩
    · rintro (⟨kind, hkind, -⟩ | ⟨-, owner, index, declared, shown, hfirst, hdeclared, hshown, rfl⟩)
      · exact absurd hkind (hnone kind)
      · refine Option.bind_eq_some_iff.mpr ⟨_, findParameter_eq_some_iff.mpr hfirst, ?_⟩
        refine Option.bind_eq_some_iff.mpr ⟨_, hdeclared, ?_⟩
        exact Option.bind_eq_some_iff.mpr ⟨_, hshown, rfl⟩

/-- A name is no word for resolution when it is none by the order. -/
lemma resolveWord_eq_none_iff :
    names.resolveWord context scope name = none ↔
      names.NoWord (names.scopes context scope) name := by
  rw [resolveWord, NoWord, ← findParameter_eq_none_iff, ← Primitive.ofKeyword?_eq_none_iff]
  cases hkeyword : Primitive.ofKeyword? name with
  | some kind => simp
  | none =>
    refine ⟨fun h => ⟨rfl, ?_⟩, fun h => ?_⟩
    · by_contra hfound
      obtain ⟨⟨owner, index⟩, hfound⟩ := Option.ne_none_iff_exists'.mp hfound
      -- What the low bits of a position leave is still a position.
      obtain ⟨declared, hdeclared, hindex⟩ := exists_scope_of_findParameter hfound
      have hlow := Nat.lt_of_le_of_lt (Nat.mod_le index UInt32.size) hindex
      simp [hfound, parameter, hdeclared, hlow] at h
    · simp [h.2]

/-- A name is resolved as a word, or else as the name of a declaration. -/
lemma resolve_named_eq_some_iff :
    names.resolve context scope (.named name args) = some tree ↔
      (args = [] ∧ names.resolveWord context scope name = some tree) ∨
        (args = [] → names.resolveWord context scope name = none) ∧
          names.resolveDeclared context scope name args = some tree := by
  rw [resolve_named]
  cases args with
  | nil => cases names.resolveWord context scope name <;> simp
  | cons arg args => simp

/-- A name is resolved as that of a declaration to the first one that is found, unless the number of
arguments is wrong. -/
lemma resolveDeclared_eq_some_iff :
    names.resolveDeclared context scope name args = some tree ↔
      (names.findDeclaration context scope name = none ∧
        tree = .unresolved (WrittenType.named name args).text) ∨
          ∃ owner declared trees, names.findDeclaration context scope name = some owner ∧
            names owner = some declared ∧
              (args = [] ∨ args.length = declared.parameters.length) ∧
                names.resolveAll context scope args = some trees ∧
                  tree = .declared owner trees := by
  rw [resolveDeclared]
  cases hfound : names.findDeclaration context scope name with
  | none => simp [eq_comm]
  | some owner =>
    obtain ⟨declared, hdeclared⟩ := Option.isSome_iff_exists.mp (isSome_of_findDeclaration hfound)
    have hcount : (!args.isEmpty && args.length != declared.parameters.length) = true ↔
        ¬ (args = [] ∨ args.length = declared.parameters.length) := by
      simp [not_or]
    simp only [reduceCtorEq, false_and, false_or, Option.some.injEq, hdeclared,
      Option.bind_eq_bind, Option.bind_some]
    split
    · next hfail =>
      have hfail := hcount.mp hfail
      constructor
      · rintro ⟨⟩
      · rintro ⟨_, declared', trees, rfl, hdeclared', hok, -⟩
        obtain rfl := Option.some.inj (hdeclared.symm.trans hdeclared')
        exact absurd hok hfail
    · next hok =>
      have hok := not_not.mp (mt hcount.mpr hok)
      constructor
      · intro h
        obtain ⟨trees, htrees, h⟩ := Option.bind_eq_some_iff.mp h
        exact ⟨owner, declared, trees, rfl, hdeclared, hok, htrees, (Option.some.inj h).symm⟩
      · rintro ⟨_, declared', trees, rfl, -, -, htrees, rfl⟩
        exact Option.bind_eq_some_iff.mpr ⟨trees, htrees, rfl⟩

mutual

/-- Resolution finds what a written type means. -/
theorem resolve_eq_some_iff (names : Names) (context : String) (scope : Scope) (type : WrittenType)
    (tree : TypeTree) :
    names.resolve context scope type = some tree ↔
      names.Means (names.scopes context scope) scope.package type tree := by
  match type with
  | .named name args =>
    rw [resolve_named_eq_some_iff, resolveDeclared_eq_some_iff, resolveWord_eq_some_iff,
      resolveWord_eq_none_iff, findDeclaration_eq_none_iff]
    simp only [findDeclaration_eq_some_iff]
    constructor
    · rintro (⟨rfl, ⟨kind, rfl, rfl⟩ | ⟨hkeyword, owner, index, declared, shown, hfirst, hdeclared,
        hshown, rfl⟩⟩ | ⟨hword, ⟨hnone, rfl⟩ | ⟨owner, declared, trees, hfirst, hdeclared, hcount,
        htrees, rfl⟩⟩)
      · exact .primitive kind
      · exact .parameter hkeyword hfirst hdeclared hshown
      · exact .unresolved hword hnone
      · exact .declared hword hfirst hdeclared hcount
          ((resolveAll_eq_some_iff names context scope args trees).mp htrees)
    · intro h
      cases h with
      | primitive kind => exact Or.inl ⟨rfl, Or.inl ⟨kind, rfl, rfl⟩⟩
      | parameter hkeyword hfirst hdeclared hshown =>
        exact Or.inl ⟨rfl, Or.inr ⟨hkeyword, _, _, _, _, hfirst, hdeclared, hshown, rfl⟩⟩
      | unresolved hword hnone => exact Or.inr ⟨hword, Or.inl ⟨hnone, rfl⟩⟩
      | declared hword hfirst hdeclared hcount hargs =>
        exact Or.inr ⟨hword, Or.inr ⟨_, _, _, hfirst, hdeclared, hcount,
          (resolveAll_eq_some_iff names context scope args _).mpr hargs, rfl⟩⟩
  | .array element =>
    constructor
    · intro h
      obtain ⟨tree, helement, h⟩ := Option.bind_eq_some_iff.mp h
      obtain rfl := Option.some.inj h
      exact .array ((resolve_eq_some_iff names context scope element tree).mp helement)
    · rintro ⟨⟩
      next tree helement =>
      exact Option.bind_eq_some_iff.mpr
        ⟨tree, (resolve_eq_some_iff names context scope element tree).mpr helement, rfl⟩
  | .wildcard =>
    constructor
    · intro h
      obtain rfl := Option.some.inj h
      exact .wildcard
    · rintro ⟨⟩
      rfl
  | .bounded kind bound =>
    constructor
    · intro h
      obtain ⟨tree, hbound, h⟩ := Option.bind_eq_some_iff.mp h
      obtain rfl := Option.some.inj h
      exact .bounded ((resolve_eq_some_iff names context scope bound tree).mp hbound)
    · rintro ⟨⟩
      next tree hbound =>
      exact Option.bind_eq_some_iff.mpr
        ⟨tree, (resolve_eq_some_iff names context scope bound tree).mpr hbound, rfl⟩
termination_by structural type

/-- Resolution finds what several written types mean. -/
lemma resolveAll_eq_some_iff (names : Names) (context : String) (scope : Scope)
    (types : List WrittenType) (trees : List TypeTree) :
    names.resolveAll context scope types = some trees ↔
      names.MeansAll (names.scopes context scope) scope.package types trees := by
  match types with
  | [] =>
    constructor
    · intro h
      obtain rfl := Option.some.inj h
      exact .nil
    · rintro ⟨⟩
      rfl
  | type :: types =>
    constructor
    · intro h
      obtain ⟨tree, htree, h⟩ := Option.bind_eq_some_iff.mp h
      obtain ⟨trees, htrees, h⟩ := Option.bind_eq_some_iff.mp h
      obtain rfl := Option.some.inj h
      exact .cons ((resolve_eq_some_iff names context scope type tree).mp htree)
        ((resolveAll_eq_some_iff names context scope types trees).mp htrees)
    · rintro ⟨⟩
      next tree trees htree htrees =>
      have htree := (resolve_eq_some_iff names context scope type tree).mpr htree
      have htrees := (resolveAll_eq_some_iff names context scope types trees).mpr htrees
      rw [resolveAll, htree, htrees]
      rfl
termination_by structural types

end

end Names

end ParcelCompanion
