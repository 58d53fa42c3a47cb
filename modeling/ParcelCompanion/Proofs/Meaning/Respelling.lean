import ParcelCompanion.Proofs.Meaning.Precedence
import ParcelCompanion.Proofs.Written.Proper

/-!
# Reading canonical names

The canonical name of a type is a text, and so it can be resolved again.  `Respells` says of a tree
that its name is the text of a proper written type which means this tree.  There is one statement
for each way of making a tree, and together they say that whatever a written type means is
respelled, as long as the members of the scopes do not get in the way of qualified names.
-/

namespace ParcelCompanion

open WrittenType

/-- Whether a tree is a wildcard. -/
def TypeTree.isWildcard : TypeTree → Bool
  | .wildcard | .bounded _ _ => true
  | _ => false

lemma TypeTree.names_eq_map (trees : List TypeTree) : names trees = trees.map name := by
  induction trees with
  | nil => rfl
  | cons tree trees ih => rw [names, List.map_cons, ih]

namespace Names

variable {names : Names} {context : String} {scope : Scope} {name owner : String} {index : ℕ}
  {tree : TypeTree} {trees : List TypeTree} {type : WrittenType} {args : List WrittenType}

/-! ### Respelling -/

/-- The name of a tree is the text of a proper written type that means the tree. -/
def Respells (names : Names) (context : String) (scope : Scope) (tree : TypeTree) : Prop :=
  ∃ type : WrittenType, type.IsProper ∧ type.text = tree.name ∧
    type.isWildcard = tree.isWildcard ∧ names.resolve context scope type = some tree

/-- The names of trees are the texts of proper written types that mean the trees. -/
def RespellsAll (names : Names) (context : String) (scope : Scope) (trees : List TypeTree) : Prop :=
  ∃ types : List WrittenType, (∀ type ∈ types, type.IsProper) ∧
    texts types = TypeTree.names trees ∧ names.resolveAll context scope types = some trees

lemma respellsAll_nil : names.RespellsAll context scope [] :=
  ⟨[], nofun, rfl, rfl⟩

lemma RespellsAll.cons (hrest : names.RespellsAll context scope trees)
    (h : names.Respells context scope tree) :
    names.RespellsAll context scope (tree :: trees) := by
  obtain ⟨type, hproper, htext, -, htree⟩ := h
  obtain ⟨types, hpropers, htexts, htrees⟩ := hrest
  refine ⟨type :: types, List.forall_mem_cons.mpr ⟨hproper, hpropers⟩, ?_, ?_⟩
  · rw [texts, TypeTree.names, htext, htexts]
  · rw [resolveAll, htree, htrees]
    rfl

/-- Written types mean as many trees as they are. -/
lemma length_of_resolveAll {types : List WrittenType}
    (h : names.resolveAll context scope types = some trees) : trees.length = types.length := by
  induction types generalizing trees with
  | nil =>
    obtain rfl := Option.some.inj h
    rfl
  | cons type types ih =>
    obtain ⟨tree, -, h⟩ := Option.bind_eq_some_iff.mp h
    obtain ⟨rest, hrest, h⟩ := Option.bind_eq_some_iff.mp h
    obtain rfl := Option.some.inj h
    exact congrArg (· + 1) (ih hrest)

lemma respellsAll_of_forall (h : ∀ tree ∈ trees, names.Respells context scope tree) :
    names.RespellsAll context scope trees := by
  induction trees with
  | nil => exact respellsAll_nil
  | cons tree trees ih =>
    obtain ⟨htree, htrees⟩ := List.forall_mem_cons.mp h
    exact (ih htrees).cons htree

lemma respells_primitive (kind : Primitive) : names.Respells context scope (.primitive kind) := by
  have hkeyword : names.resolveWord context scope kind.keyword = some (.primitive kind) := by
    rw [resolveWord, Primitive.ofKeyword?_keyword]
  refine ⟨.named kind.keyword [], ⟨?_, .named (List.forall_mem_nil _)⟩, rfl, rfl, ?_⟩
  · exact List.forall_mem_singleton.mpr (.word (isWord_primitive kind))
  · exact resolve_named_eq_some_iff.mpr (Or.inl ⟨rfl, hkeyword⟩)

/-- A type parameter is respelled by its name where that is what the name means. -/
lemma respells_parameter (hword : Token.IsWord name.toList)
    (h : names.resolveWord context scope name = some (.parameter owner index name)) :
    names.Respells context scope (.parameter owner index name) := by
  refine ⟨.named name [], ⟨?_, .named nofun⟩, rfl, rfl, ?_⟩
  · exact List.forall_mem_singleton.mpr (.word hword)
  · exact resolve_named_eq_some_iff.mpr (Or.inl ⟨rfl, h⟩)

/-- A declared type is respelled when its qualified name alone means its declaration and it has as
many arguments as that has type parameters, or none. -/
lemma respells_declared {declared : Scope} (hname : IsDotted owner)
    (hword : trees = [] → names.resolveWord context scope owner = none)
    (howner : names.findDeclaration context scope owner = some owner)
    (hdeclared : names owner = some declared)
    (hcount : trees = [] ∨ trees.length = declared.parameters.length)
    (hargs : names.RespellsAll context scope trees) :
    names.Respells context scope (.declared owner trees) := by
  obtain ⟨types, hproper, htexts, htrees⟩ := hargs
  have hlength : types.length = trees.length := by
    have hlengths := congrArg List.length htexts
    rwa [texts_eq_map, TypeTree.names_eq_map, List.length_map, List.length_map] at hlengths
  have hempty : types = [] ↔ trees = [] := by
    rw [← List.length_eq_zero_iff, hlength, List.length_eq_zero_iff]
  refine ⟨.named owner types, isProper_named hname hproper, ?_, rfl, ?_⟩
  · rw [text, TypeTree.name, htexts]
    simp only [List.isEmpty_iff, hempty]
  · refine resolve_named_eq_some_iff.mpr (Or.inr ⟨fun h => hword (hempty.mp h), ?_⟩)
    refine resolveDeclared_eq_some_iff.mpr (Or.inr ⟨owner, declared, trees, howner, hdeclared, ?_,
      htrees, rfl⟩)
    rwa [hempty, hlength]

/-- A name that means nothing is respelled by its text. -/
lemma respells_unresolved (hproper : (named name args).IsProper)
    (h : names.resolve context scope (.named name args) =
      some (.unresolved (named name args).text)) :
    names.Respells context scope (.unresolved (named name args).text) :=
  ⟨.named name args, hproper, rfl, rfl, h⟩

lemma Respells.array (h : names.Respells context scope tree) (htree : tree.isWildcard = false) :
    names.Respells context scope (.array tree) := by
  obtain ⟨type, hproper, htext, hwildcard, hresolve⟩ := h
  refine ⟨.array type, ⟨hproper.1, .array (hwildcard.trans htree) hproper.2⟩, ?_, rfl, ?_⟩
  · rw [text, TypeTree.name, htext]
  · rw [resolve, hresolve]
    rfl

lemma respells_wildcard : names.Respells context scope .wildcard :=
  ⟨.wildcard, ⟨nofun, .wildcard⟩, rfl, rfl, rfl⟩

lemma Respells.bounded (h : names.Respells context scope tree) (htree : tree.isWildcard = false)
    (kind : BoundKind) : names.Respells context scope (.bounded kind tree) := by
  obtain ⟨type, hproper, htext, hwildcard, hresolve⟩ := h
  refine ⟨.bounded kind type, ⟨hproper.1, .bounded (hwildcard.trans htree) hproper.2⟩, ?_, rfl, ?_⟩
  · rw [text, TypeTree.name, htext]
  · rw [resolve, hresolve]
    rfl

/-! ### What is resolved is respelled -/

/-- A qualified name means its declaration when no member of a scope is found in its place. -/
lemma findDeclaration_self
    (hmembers : ∀ outer ∈ names.scopes context scope, names (Dotted.member outer owner) = none)
    (howner : (names owner).isSome) : names.findDeclaration context scope owner = some owner := by
  refine findDeclaration_eq_some_iff.mpr ⟨(names.scopes context scope).map (Dotted.member · owner),
    _, by rw [readings, List.append_assoc, List.append_assoc]; rfl, howner, fun other hother => ?_⟩
  obtain ⟨outer, houter, rfl⟩ := List.mem_map.mp hother
  exact hmembers outer houter

/-- Nothing gets in the way of qualified names in a context: they can be read, none of them followed
by another one is the name of a member of a scope, and type parameters are words whose positions fit
into the 32 bits that `Names.parameter` keeps of them. -/
structure Unobscured (names : Names) (context : String) (scope : Scope) : Prop where
  dotted : ∀ name, (names name).isSome → IsDotted name
  words : ∀ name s, names name = some s → ∀ parameter ∈ s.parameters, Token.IsWord parameter.toList
  sizes : ∀ name s, names name = some s → s.parameters.length ≤ UInt32.size
  members : ∀ outer ∈ names.scopes context scope, ∀ name, (names name).isSome →
    names (Dotted.member outer name) = none

/-- A name with a dot in it is no word. -/
lemma Unobscured.resolveWord_eq_none (hclear : names.Unobscured context scope)
    (hdot : '.' ∈ name.toList) :
    names.resolveWord context scope name = none := by
  refine resolveWord_eq_none_iff.mpr ⟨fun kind hkind => ?_, fun other _ s hs hparameter => ?_⟩
  · exact (isWord_primitive kind).dot_not_mem (hkind ▸ hdot)
  · exact (hclear.words other s hs name hparameter).dot_not_mem hdot

/-- The qualified name of the declaration that a name means is no word if the name is none. -/
lemma Unobscured.resolveWord_of_findDeclaration (hclear : names.Unobscured context scope)
    (h : names.findDeclaration context scope name = some owner)
    (hname : names.resolveWord context scope name = none) :
    names.resolveWord context scope owner = none := by
  obtain ⟨before, after, hreadings, -⟩ := findDeclaration_eq_some_iff.mp h
  have hmem : owner ∈ readings (names.scopes context scope) scope.package name :=
    hreadings ▸ by simp
  have hdot : ∀ outer, '.' ∈ (Dotted.member outer name).toList := fun outer => by
    simp [Dotted.toList_member]
  rw [readings, List.mem_append, List.mem_append, List.mem_append, List.mem_map,
    List.mem_singleton, List.mem_singleton] at hmem
  rcases hmem with ((⟨outer, -, rfl⟩ | rfl) | hpackage) | rfl
  · exact hclear.resolveWord_eq_none (hdot outer)
  · exact hname
  · split at hpackage
    · exact absurd hpackage List.not_mem_nil
    · rw [List.mem_singleton.mp hpackage]
      exact hclear.resolveWord_eq_none (hdot _)
  · exact hclear.resolveWord_eq_none (hdot _)

/-- What a word means is respelled, and no wildcard. -/
lemma Unobscured.respells_resolveWord (hclear : names.Unobscured context scope)
    (h : names.resolveWord context scope name = some tree) :
    names.Respells context scope tree ∧ tree.isWildcard = false := by
  rcases resolveWord_eq_some_iff.mp h with ⟨kind, -, rfl⟩ |
    ⟨-, owner, index, declared, shown, hfirst, hdeclared, hshown, rfl⟩
  · exact ⟨respells_primitive kind, rfl⟩
  · obtain ⟨s, hs, hindex⟩ := hfirst.first
    obtain rfl := Option.some.inj (hs.symm.trans hdeclared)
    obtain ⟨hlt, hname, -⟩ := List.idxOf?_eq_some_iff.mp hindex
    -- the position is low enough to be kept, so that the name that is shown is the one that was read
    have hlow := Nat.mod_eq_of_lt (Nat.lt_of_lt_of_le hlt (hclear.sizes owner _ hs))
    rw [hlow] at hshown h ⊢
    obtain rfl : shown = name := by
      rw [List.getElem?_eq_getElem hlt, hname] at hshown
      exact (Option.some.inj hshown).symm
    have hword := hclear.words owner _ hs shown (hname ▸ List.getElem_mem hlt)
    exact ⟨respells_parameter hword h, rfl⟩

mutual

/-- What a proper written type means is respelled, and is a wildcard exactly if the type is one. -/
lemma Unobscured.respells_of_resolve (hclear : names.Unobscured context scope) (type : WrittenType)
    (hproper : type.IsProper) {tree : TypeTree}
    (h : names.resolve context scope type = some tree) :
    names.Respells context scope tree ∧ tree.isWildcard = type.isWildcard := by
  match type with
  | .named name args =>
    rcases resolve_named_eq_some_iff.mp h with ⟨rfl, hword⟩ | ⟨hword, hnamed⟩
    · exact hclear.respells_resolveWord hword
    rcases resolveDeclared_eq_some_iff.mp hnamed with ⟨-, rfl⟩ |
      ⟨owner, declared, trees, howner, hdeclared, hcount, htrees, rfl⟩
    · exact ⟨respells_unresolved hproper h, rfl⟩
    · have hargs := hclear.respellsAll_of_resolveAll args hproper.args htrees
      have hlength := length_of_resolveAll htrees
      have hempty : trees = [] ↔ args = [] := by
        rw [← List.length_eq_zero_iff, hlength, List.length_eq_zero_iff]
      have hsome := isSome_of_findDeclaration howner
      have hself := findDeclaration_self
        (fun outer houter => hclear.members outer houter owner hsome) hsome
      refine ⟨respells_declared (hclear.dotted owner hsome) (fun h => ?_) hself hdeclared ?_ hargs,
        rfl⟩
      · exact hclear.resolveWord_of_findDeclaration howner (hword (hempty.mp h))
      · rwa [hempty, hlength]
  | .array element =>
    obtain ⟨inner, hinner, h⟩ := Option.bind_eq_some_iff.mp h
    obtain rfl := Option.some.inj h
    obtain ⟨helement, hproper⟩ := hproper.element
    obtain ⟨hrespells, hwildcard⟩ := hclear.respells_of_resolve element hproper hinner
    exact ⟨hrespells.array (hwildcard.trans helement), rfl⟩
  | .wildcard =>
    obtain rfl := Option.some.inj h
    exact ⟨respells_wildcard, rfl⟩
  | .bounded kind bound =>
    obtain ⟨inner, hinner, h⟩ := Option.bind_eq_some_iff.mp h
    obtain rfl := Option.some.inj h
    obtain ⟨hbound, hproper⟩ := hproper.bound
    obtain ⟨hrespells, hwildcard⟩ := hclear.respells_of_resolve bound hproper hinner
    exact ⟨hrespells.bounded (hwildcard.trans hbound) kind, rfl⟩
termination_by structural type

lemma Unobscured.respellsAll_of_resolveAll (hclear : names.Unobscured context scope)
    (types : List WrittenType)
    (hproper : ∀ type ∈ types, type.IsProper) {trees : List TypeTree}
    (h : names.resolveAll context scope types = some trees) :
    names.RespellsAll context scope trees := by
  match types with
  | [] =>
    obtain rfl := Option.some.inj h
    exact respellsAll_nil
  | type :: types =>
    obtain ⟨hproper, hpropers⟩ := List.forall_mem_cons.mp hproper
    obtain ⟨tree, htree, h⟩ := Option.bind_eq_some_iff.mp h
    obtain ⟨trees, htrees, h⟩ := Option.bind_eq_some_iff.mp h
    obtain rfl := Option.some.inj h
    exact (hclear.respellsAll_of_resolveAll types hpropers htrees).cons
      (hclear.respells_of_resolve type hproper htree).1
termination_by structural types

end

end Names

end ParcelCompanion
