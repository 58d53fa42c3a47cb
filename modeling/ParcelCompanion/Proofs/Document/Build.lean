import ParcelCompanion.Document.Build
import ParcelCompanion.Proofs.Model.Finish
import ParcelCompanion.Proofs.Model.WellFormed

/-!
# Models of documents

Registering a document keeps models coherent in the strict degree, because types are written as
texts and wildcards have their place in these.  So the finished model of a document is coherent in
the strict degree and without circles, and in particular it is well formed.
-/

namespace ParcelCompanion

open Edit Model

variable {strict : Prop} {m : Model}

/-! ### Registration -/

namespace DeclarationEntry

lemma keeps_addField (decl : DeclId) (field : FieldEntry) :
    (addField decl field).Keeps strict m fun _ _ => True :=
  (keeps_resolveText decl field.type).bind fun _ _ _ _ htype =>
    (Edit.keeps_addField fun _ => htype).drop

lemma keeps_bound (decl : DeclId) (parameter : ParameterEntry) (index : ℕ) :
    (bound decl parameter index).Keeps strict m fun _ _ => True := by
  have hbounds : (parameter.bounds.mapM (resolveText decl)).Keeps strict m
      fun ids m' => ∀ id ∈ ids, m'.Usable True id :=
    keeps_mapM (fun _ _ _ hext hid => hext.usable hid) fun text _ _ _ => keeps_resolveText decl text
  exact hbounds.bind fun _ _ _ _ hids => keeps_setBounds fun _ => hids

lemma keeps_complete (entry : DeclarationEntry) (decl : DeclId) :
    (entry.complete decl).Keeps strict m fun _ _ => True := by
  refine (keeps_forM fun _ _ _ _ => keeps_bound decl _ _).bind fun _ m₁ _ _ _ => ?_
  have hsuper : (entry.superclass.forM fun text => do
      Edit.setSuperclass decl (← Edit.resolveText decl text)).Keeps strict m₁
        fun _ _ => True := by
    cases entry.superclass with
    | none => exact keeps_pure trivial
    | some text =>
      exact (keeps_resolveText decl text).bind fun _ _ _ _ hid => keeps_setSuperclass fun _ => hid
  refine hsuper.bind fun _ m₂ _ _ _ => ?_
  refine (keeps_forM fun text _ _ _ => (keeps_resolveText decl text).bind
    fun _ _ _ _ hid => keeps_addInterface fun _ => hid).bind fun _ m₃ _ _ _ => ?_
  exact keeps_forM fun field _ _ _ => keeps_addField decl field

end DeclarationEntry

namespace Document

lemma keeps_register (document : Document) :
    document.register.Keeps strict m fun _ _ => True := by
  refine (keeps_mapM (fun _ _ _ _ _ => trivial)
    fun entry _ _ _ => keeps_declare entry.header).bind fun _ _ _ _ _ => ?_
  exact keeps_forM fun (entry, decl) _ _ _ => entry.keeps_complete decl

/-! ### The finished model -/

/-- A document has a model when it can be registered and what comes out can be finished. -/
lemma exists_of_build {document : Document} (h : document.build = .ok m) :
    ∃ registered, document.register.apply platform = (.ok (), registered) ∧
      registered.finish = .ok m := by
  change (match document.register.apply platform with
    | (.ok (), m) => m.finish
    | (.error error, _) => .error error) = Except.ok m at h
  rcases hr : document.register.apply platform with ⟨e | _, registered⟩ <;> rw [hr] at h
  · exact nomatch h
  · exact ⟨registered, rfl, h⟩

/-- Before it is finished, the model of a document is coherent and still holds the platform. -/
lemma coherent_of_register {document : Document} {registered : Model}
    (h : document.register.apply platform = (.ok (), registered)) :
    registered.Coherent strict ∧ platform.Extends registered := by
  have hkeeps : document.register.Keeps strict platform _ := document.keeps_register
  have hensures := hkeeps coherent_platform
  unfold Ensures at hensures
  rw [h] at hensures
  exact ⟨hensures.1, hensures.2.1⟩

/-- The model of a document is coherent in either degree. -/
lemma coherent_of_build {document : Document} (h : document.build = .ok m) :
    m.Coherent strict := by
  obtain ⟨registered, hregister, hfinish⟩ := exists_of_build h
  exact (coherent_of_register hregister).1.finish hfinish

/-- The model of a document holds the platform. -/
lemma extends_of_build {document : Document} (h : document.build = .ok m) :
    platform.Extends m := by
  obtain ⟨registered, hregister, hfinish⟩ := exists_of_build h
  have hregistered : registered.Coherent False ∧ platform.Extends registered :=
    coherent_of_register hregister
  exact hregistered.2.trans (redeclares_of_finish hfinish).toExtends

/-- The model of a document is strictly coherent, and its hierarchy has no circles. -/
lemma build_coherent {document : Document} (h : document.build = .ok m) :
    m.Coherent True ∧ ∀ id, ¬ Relation.TransGen m.DirectSuper id id := by
  obtain ⟨registered, hregister, hfinish⟩ := exists_of_build h
  have hregistered : registered.Coherent True ∧ platform.Extends registered :=
    coherent_of_register hregister
  obtain ⟨hcoherent, hplatform⟩ := hregistered
  obtain ⟨root, completed, -, hcompleted, hcases⟩ := finish_cases hcoherent hplatform
  rcases hcases with ⟨hcompletes, hnone⟩ | ⟨names, hfails, -⟩
  · obtain rfl := Except.ok.inj (hcompletes.symm.trans hfinish)
    exact ⟨hcompleted, hnone⟩
  · exact nomatch hfails.symm.trans hfinish

/-- A generic class that names its interface before that is declared, with a bound that means
nothing and a wildcard below an array. -/
def boxes : Document where
  declarations := [
    { name := "app.Box"
      parameters := [{ name := "T", bounds := ["Comparable<? super T>"] }]
      interfaces := ["Source<T>"]
      fields := [{ name := "nested", type := "Box<? extends T>[]" }] },
    { name := "app.Source", kind := .interfaceType, parameters := [{ name := "E" }] },
    { name := "app.Words", superclass := some "Box<String>" }]

/-- The model of a document is well formed. -/
theorem build_wellFormed {document : Document} {m : Model} (h : document.build = .ok m) :
    m.WellFormed :=
  (build_coherent h).1.wellFormed

/-- There is a model of `boxes`, and it is well formed. -/
theorem boxes_wellFormed : ∃ m, boxes.build = .ok m ∧ m.WellFormed := by
  have hok : boxes.build.toOption.isSome = true := by decide +kernel
  cases h : boxes.build with
  | ok m => exact ⟨m, rfl, build_wellFormed h⟩
  | error e =>
    rw [h] at hok
    exact nomatch hok

end Document

end ParcelCompanion
