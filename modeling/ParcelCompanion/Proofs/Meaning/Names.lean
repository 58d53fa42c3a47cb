import ParcelCompanion.Model.Resolve
import ParcelCompanion.Proofs.Meaning.TypeTree
import ParcelCompanion.Written.Parse

/-!
# Resolution by name

To resolve a written type it is enough to know, for each qualified name, the package of the
declaration and the names of its type parameters.  `Names.resolve` is resolution on that table.  It
has no model to look at or to add to, and its answers are trees.
-/

namespace ParcelCompanion

/-- What a declaration contributes to the resolution of names. -/
structure Scope where
  package : String
  /-- The names of the type parameters, in order. -/
  parameters : List String

/-- The scopes of the declarations, by qualified name. -/
abbrev Names := String → Option Scope

namespace Names

variable (names : Names) (context : String) (scope : Scope)

/-! ### Scopes -/

/-- The names of the scopes in a context, the innermost first. -/
def scopes : List String :=
  context :: ((Dotted.surrounding context).takeWhile fun outer =>
    scope.package.utf8ByteSize < outer.utf8ByteSize).filter fun outer => (names outer).isSome

/-- The type parameter that a name means: the name of its owner, and its position. -/
def findParameter (name : String) : Option (String × ℕ) :=
  (names.scopes context scope).findSome? fun outer => do
    let scope ← names outer
    let index ← scope.parameters.findIdx? fun parameter => parameter == name
    return (outer, index)

/-- The qualified names under which a declaration is sought, the preferred first. -/
def candidates (name : String) : List String :=
  (names.scopes context scope).map (Dotted.member · name) ++ [name]
    ++ (if scope.package.isEmpty then [] else [Dotted.member scope.package name])
    ++ [Dotted.member "java.lang" name]

/-- The qualified name of the declaration that a name means. -/
def findDeclaration (name : String) : Option String :=
  (names.candidates context scope name).find? fun candidate => (names candidate).isSome

/-! ### Resolution -/

/-- The type parameter at a position, of which only the low 32 bits count. -/
def parameter (owner : String) (index : ℕ) : Option TypeTree := do
  let scope ← names owner
  let name ← scope.parameters[index % UInt32.size]?
  return .parameter owner (index % UInt32.size) name

/-- The type that a name without arguments means before any declaration is considered. -/
def resolveWord (name : String) : Option TypeTree :=
  match Primitive.ofKeyword? name with
  | some kind => some (.primitive kind)
  | none => do
    let (owner, index) ← names.findParameter context scope name
    names.parameter owner index

mutual

/-- The type that a written type means, unless the number of some arguments is wrong. -/
def resolve : WrittenType → Option TypeTree
  | .named name args =>
    match if args.isEmpty then names.resolveWord context scope name else none with
    | some tree => some tree
    | none =>
      match names.findDeclaration context scope name with
      | none => some (.unresolved (WrittenType.named name args).text)
      | some owner => do
        let declared ← names owner
        if !args.isEmpty && args.length != declared.parameters.length then none
        else return .declared owner (← resolveAll args)
  | .array element => do return .array (← resolve element)
  | .wildcard => some .wildcard
  | .bounded kind bound => do return .bounded kind (← resolve bound)

/-- The types that several written types mean. -/
def resolveAll : List WrittenType → Option (List TypeTree)
  | [] => some []
  | type :: types => do
    let tree ← resolve type
    let trees ← resolveAll types
    return tree :: trees

end

omit scope in
/-- The type that a text means in the declaration that is the context, if it is a type. -/
def resolveText (text : String) : Option TypeTree := do
  let scope ← names context
  match WrittenType.parse text with
  | .ok type => names.resolve context scope type
  | .error _ => none

end Names

/-! ### The names of a model -/

namespace Declaration

/-- What a declaration contributes to the resolution of names. -/
def scope (d : Declaration) : Scope :=
  ⟨d.package, d.parameters.map TypeParameter.name⟩

/-- The bare form fixes the scope. -/
lemma scope_eq_of_bare {d d' : Declaration} (h : d.bare = d'.bare) : d.scope = d'.scope := by
  have hscope : ∀ d : Declaration, d.bare.scope = d.scope := by
    intro d
    simp [bare, scope, Function.comp_def]
  rw [← hscope d, h, hscope d']

end Declaration

namespace Model

variable {strict : Prop} {m : Model} {context : DeclId} {d : Declaration}

/-- The scopes of the declarations of a model. -/
def names (m : Model) : Names := fun name =>
  ((m.lookup name).bind m.declaration?).map Declaration.scope

lemma Linked.names_eq_some (h : m.Linked strict) {id : DeclId} (hid : m.declaration? id = some d) :
    m.names d.name = some d.scope := by
  rw [Model.names, (h.names d.name id).mpr ⟨d, hid, rfl⟩, Option.bind_some, hid, Option.map_some]

lemma Linked.isSome_names (h : m.Linked strict) (name : String) :
    (m.names name).isSome = (m.lookup name).isSome := by
  cases hname : m.lookup name with
  | none => rw [Model.names, hname]; rfl
  | some id =>
    obtain ⟨d, hd, rfl⟩ := (h.names name id).mp hname
    rw [h.names_eq_some hd]
    rfl

/-- A name that is looked up has a declaration of this name, with the scope that the names tell. -/
lemma Linked.exists_of_lookup (h : m.Linked strict) {name : String} {id : DeclId}
    (hname : m.lookup name = some id) :
    ∃ d, m.declaration? id = some d ∧ d.name = name ∧ m.names name = some d.scope := by
  obtain ⟨d, hd, rfl⟩ := (h.names name id).mp hname
  exact ⟨d, hd, rfl, h.names_eq_some hd⟩

/-- A name that is looked up keeps its declaration when the model grows. -/
lemma Linked.lookup_of_extends {m' : Model} (h : m.Linked strict) (h' : m'.Linked strict)
    (hext : m.Extends m') {name : String} {id : DeclId} (hname : m.lookup name = some id) :
    m'.lookup name = some id := by
  obtain ⟨d, hd, rfl⟩ := (h.names name id).mp hname
  obtain ⟨d', hd', hbare⟩ := hext.declaration? hd
  exact (h'.names d.name id).mpr ⟨d', hd', Declaration.name_eq_of_bare hbare⟩

/-- The names of a model do not change when it grows without new declarations. -/
lemma Linked.names_of_extends {m' : Model} (h : m.Linked strict) (hext : m.Extends m')
    (hlookup : m'.lookup = m.lookup) : m'.names = m.names := by
  funext name
  rw [Model.names, Model.names, hlookup]
  cases hname : m.lookup name with
  | none => rfl
  | some id =>
    obtain ⟨d, hd, -⟩ := (h.names name id).mp hname
    obtain ⟨d', hd', hbare⟩ := hext.declaration? hd
    rw [Option.bind_some, Option.bind_some, hd, hd', Option.map_some, Option.map_some,
      Declaration.scope_eq_of_bare hbare]

/-- The scopes in a context are those that the names of the model tell. -/
lemma Linked.scopes_eq (h : m.Linked strict) (hcontext : m.declaration? context = some d) :
    ∃ ids, m.scopes context = .ok ids ∧
      (m.names.scopes d.name d.scope).map m.lookup = ids.map some := by
  have hfilter : ∀ outers : List String,
      (outers.filter fun outer => (m.names outer).isSome).map m.lookup =
        (outers.filterMap m.lookup).map some := by
    intro outers
    induction outers with
    | nil => rfl
    | cons outer outers ih =>
      rw [List.filter_cons, List.filterMap_cons, h.isSome_names]
      cases houter : m.lookup outer with
      | none => simpa using ih
      | some id => simp [houter, ih]
  have hscopes : m.scopes context = .ok (context :: ((Dotted.surrounding d.name).takeWhile
      fun outer => d.package.utf8ByteSize < outer.utf8ByteSize).filterMap m.lookup) := by
    rw [scopes, declaration_eq_ok_iff.mpr hcontext]
    rfl
  refine ⟨_, hscopes, ?_⟩
  rw [Names.scopes, List.map_cons, hfilter, (h.names d.name context).mpr ⟨d, hcontext, rfl⟩,
    List.map_cons]
  rfl

lemma Linked.findParameter_eq (h : m.Linked strict) (hcontext : m.declaration? context = some d)
    (name : String) :
    m.findParameter context name = .ok ((m.names.findParameter d.name d.scope name).bind
      fun (owner, index) => (m.lookup owner).map fun id => (id, index)) := by
  obtain ⟨ids, hids, hnames⟩ := h.scopes_eq hcontext
  rw [findParameter, hids, Names.findParameter]
  refine congrArg Except.ok ?_
  clear hids
  generalize m.names.scopes d.name d.scope = outers at hnames
  induction outers generalizing ids with
  | nil =>
    obtain rfl : ids = [] := by simpa using hnames.symm
    rfl
  | cons outer outers ih =>
    obtain _ | ⟨id, ids⟩ := ids
    · simp at hnames
    obtain ⟨hid, hrest⟩ := List.cons.inj hnames
    obtain ⟨e, he, -, hscope⟩ := h.exists_of_lookup hid
    have hindex : e.scope.parameters.findIdx? (fun parameter => parameter == name) =
        e.parameters.findIdx? fun parameter => parameter.name == name := List.findIdx?_map
    rw [List.findSome?_cons, List.findSome?_cons, he, hscope]
    simp only [Option.bind_eq_bind, Option.bind_some, hindex]
    cases e.parameters.findIdx? fun parameter => parameter.name == name with
    | none => exact ih ids hrest
    | some index => simp [hid]

lemma Linked.candidates_eq (h : m.Linked strict) (hcontext : m.declaration? context = some d)
    (name : String) :
    m.candidates context name = .ok (m.names.candidates d.name d.scope name) := by
  obtain ⟨ids, hids, hnames⟩ := h.scopes_eq hcontext
  have hmembers : ids.filterMap (fun scope => (m.declaration? scope).map fun declaration =>
      Dotted.member declaration.name name) =
        (m.names.scopes d.name d.scope).map (Dotted.member · name) := by
    clear hids
    generalize m.names.scopes d.name d.scope = outers at hnames
    induction outers generalizing ids with
    | nil =>
      obtain rfl : ids = [] := by simpa using hnames.symm
      rfl
    | cons outer outers ih =>
      obtain _ | ⟨id, ids⟩ := ids
      · simp at hnames
      obtain ⟨hid, hrest⟩ := List.cons.inj hnames
      obtain ⟨e, he, rfl, -⟩ := h.exists_of_lookup hid
      rw [List.filterMap_cons, he, List.map_cons, ← ih ids hrest]
      rfl
  rw [candidates, declaration_eq_ok_iff.mpr hcontext, hids, Names.candidates, ← hmembers]
  rfl

lemma Linked.findDeclaration_eq (h : m.Linked strict)
    (hcontext : m.declaration? context = some d) (name : String) :
    m.findDeclaration context name =
      .ok ((m.names.findDeclaration d.name d.scope name).bind m.lookup) := by
  rw [findDeclaration, h.candidates_eq hcontext, Names.findDeclaration]
  refine congrArg Except.ok ?_
  generalize m.names.candidates d.name d.scope name = candidates
  induction candidates with
  | nil => rfl
  | cons candidate candidates ih =>
    rw [List.findSome?_cons, List.find?_cons, h.isSome_names]
    cases hlookup : m.lookup candidate with
    | none => simpa using ih
    | some id => simp [hlookup]

/-- There is nothing to look up where there is no context. -/
lemma findParameter_of_no_context (hcontext : m.declaration? context = none) (name : String) :
    m.findParameter context name = .error (.unknownDeclaration context) := by
  rw [findParameter, scopes, declaration_of_eq_none hcontext]
  rfl

lemma findDeclaration_of_no_context (hcontext : m.declaration? context = none) (name : String) :
    m.findDeclaration context name = .error (.unknownDeclaration context) := by
  rw [findDeclaration, candidates, declaration_of_eq_none hcontext]
  rfl

end Model

end ParcelCompanion
