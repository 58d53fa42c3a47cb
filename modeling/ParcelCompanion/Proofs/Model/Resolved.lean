import ParcelCompanion.Proofs.Edit.Grounding
import ParcelCompanion.Proofs.Model.Finish

/-!
# Numbers that stand for something

Whatever is called, the numbers that are checked when they are stored go on to stand for something:
declarations and type arguments in types, supertypes, bounds, and what a field refers to.  The
components of arrays and wildcards are not checked, and a finished model may hold an array of a type
that is not there.  When arrays and wildcards are only made of types that are there, all numbers in
the finished model resolve and all types have names.
-/

namespace ParcelCompanion.Model

variable {strict : Prop} {m : Model}

/-- The numbers that are checked when they are stored stand for something. -/
structure Attached (m : Model) : Prop where
  /-- The declaration and the arguments of a declared type are there. -/
  declared : ∀ id decl args, m.type? id = some (.declared decl args) →
    (∃ d, m.declaration? decl = some d) ∧ ∀ arg ∈ args, ∃ term, m.type? arg = some term
  /-- A type parameter is one of those of its owner. -/
  parameters : ∀ id owner index, m.type? id = some (.parameter owner index) →
    ∃ d, m.declaration? owner = some d ∧ index < d.parameters.length
  /-- The own type, superclass, interfaces and bounds of a declaration are there. -/
  references : ∀ id d, m.declaration? id = some d → ∀ t ∈ d.references,
    ∃ term, m.type? t = some term
  /-- The type of a field and the declaration that encloses it are there. -/
  fields : ∀ field ∈ m.elements,
    (∃ term, m.type? field.type = some term) ∧ ∃ d, m.declaration? field.enclosing = some d

/-- All numbers stand for something, and all types have names. -/
structure Resolved (m : Model) : Prop extends m.Attached where
  /-- The components of every type are there, those of arrays and wildcards too. -/
  components : ∀ id term, m.type? id = some term →
    ∀ c ∈ term.components, ∃ component, m.type? c = some component
  /-- Every type has a canonical name, which is found within any depth beyond its number. -/
  names : ∀ id term, m.type? id = some term →
    ∃ name, m.canonicalName id = .ok name ∧
      ∀ depth, id.index < depth → m.nameWithin depth id = .ok name

lemma Usable.exists_type? {id : TypeId} (h : m.Usable strict id) :
    ∃ term, m.type? id = some term := by
  obtain ⟨term, hid, -⟩ := h
  exact ⟨term, hid⟩

/-- The weak degree of coherence covers what is checked. -/
lemma Coherent.attached (h : m.Coherent strict) : m.Attached where
  declared id decl args hid := by
    refine ⟨h.declaration?_of_declared hid, fun arg harg => ?_⟩
    have hlt := (h.interned.admissible id _ hid).2 arg harg
    rw [List.length_take, Array.length_toList] at hlt
    exact ⟨_, Array.getElem?_eq_getElem (Nat.lt_of_lt_of_le hlt (Nat.min_le_right _ _))⟩
  parameters id owner index hid := by
    obtain ⟨parameter, hparameter⟩ := h.typeParameter_of_parameter hid
    obtain ⟨d, hd, hindex⟩ := typeParameter_eq_ok_iff.mp hparameter
    exact ⟨d, hd, (List.getElem?_eq_some_iff.mp hindex).1⟩
  references id d hd t ht := (h.references id d hd t ht).exists_type?
  fields field hfield := (h.fields field hfield).imp_left Usable.exists_type?

lemma Coherent.resolved (h : m.Coherent strict) (hgrounded : m.Grounded) : m.Resolved where
  toAttached := h.attached
  components _ _ hid _ hc := hgrounded.type?_component hid hc
  names _ _ hid := h.exists_canonicalName hgrounded hid

/-- In a finished model, whatever was called to build it, the numbers that are checked when they are
stored stand for something.  If arrays and wildcards were only made of types that were there, all
numbers do, and every type has a canonical name. -/
theorem resolved_of_finish {calls : List Call} {m : Model}
    (hfinish : (afterCalls calls).finish = .ok m) :
    m.Attached ∧ (Call.AllGrounded platform calls → m.Resolved) := by
  have hm := (afterCalls_coherent calls).1.finish hfinish
  refine ⟨hm.attached, fun hcalls => hm.resolved (hm.grounded_of_based ?_)⟩
  exact (hcalls.foldl_run_based coherent_platform based_platform).of_types
    (redeclares_of_finish hfinish).types

/-- A generic class with a field that is an array of its type parameter, and a wildcard that is
bounded by the array. -/
def rowCalls : List Call := [
  .declare { name := "app.Row", parameters := ["T"] },
  .array ⟨11⟩,
  .wildcard (some ⟨13⟩) none,
  .declared ⟨11⟩ [⟨14⟩],
  .addField ⟨"cells", ⟨13⟩, ⟨11⟩, .none, []⟩]

/-- After `rowCalls` the model can be finished, and all numbers in it resolve. -/
theorem rows_resolved : ∃ m, (afterCalls rowCalls).finish = .ok m ∧ m.types.size = 16 ∧
    Call.AllGrounded platform rowCalls ∧ m.Attached ∧ m.Resolved := by
  obtain ⟨m, hfinish, hsize⟩ : ∃ m, (afterCalls rowCalls).finish = .ok m ∧ m.types.size = 16 :=
    exists_ok_of_toOption_map (by decide +kernel)
  have hcalls : Call.AllGrounded platform rowCalls :=
    ⟨trivial, ⟨.parameter ⟨11⟩ 0, by decide +kernel⟩, fun bound hbound => ⟨.array ⟨11⟩, by
      obtain rfl : bound = ⟨13⟩ := by simpa using hbound
      decide +kernel⟩, trivial, trivial, trivial⟩
  obtain ⟨hattached, hresolved⟩ := resolved_of_finish hfinish
  exact ⟨m, hfinish, hsize, hcalls, hattached, hresolved hcalls⟩

/-- An array may be made of a type that is not there.  The model finishes all the same, and the
array has no name. -/
theorem array_of_missing_type : ∃ m, (afterCalls [.array ⟨99⟩]).finish = .ok m ∧
    m.type? ⟨11⟩ = some (.array ⟨99⟩) ∧ m.type? ⟨99⟩ = none ∧
    m.canonicalName ⟨11⟩ = .error (.unknownType ⟨99⟩) := by
  obtain ⟨m, hfinish, hmodel⟩ : ∃ m, (afterCalls [.array ⟨99⟩]).finish = .ok m ∧
      (m.type? ⟨11⟩, m.type? ⟨99⟩, m.canonicalName ⟨11⟩) =
        (some (.array ⟨99⟩), none, .error (.unknownType ⟨99⟩)) :=
    exists_ok_of_toOption_map (by decide +kernel)
  obtain ⟨harray, hmissing⟩ := Prod.mk.inj hmodel
  obtain ⟨hmissing, hname⟩ := Prod.mk.inj hmissing
  exact ⟨m, hfinish, harray, hmissing, hname⟩

/-- An array may even be made of itself. -/
example : ((afterCalls [.array ⟨11⟩]).finish.bind (·.canonicalName ⟨11⟩)) =
    .error (.endlessType ⟨11⟩) := by
  decide +kernel

end ParcelCompanion.Model
