import ParcelCompanion.Proofs.Answer
import ParcelCompanion.Proofs.Companion.Lines

/-!
# Reading mirrors writing

A parcel is read back rightly only if both methods of a companion go through the same fields in the
same order.  That they do is said here of the text of a source, which knows nothing of fields: the
body of a method is found again between the line that opens it and the next one that closes a method.
The two bodies, and a few lines in front of them, tell everything about the companion that has gone
into the text.
-/

namespace ParcelCompanion.Companion

variable {companion other : Companion} {name head a text : String}

/-! ### Bodies of methods -/

/-- How the line starts that opens a method. -/
def opening (name : String) : String :=
  "    public static void " ++ name ++ "("

/-- The line that closes a method. -/
def closing : String :=
  "    \x7d"

/-- The line opens the method. -/
def Opens (name line : String) : Prop :=
  (opening name).toList <+: line.toList

instance (name line : String) : Decidable (Opens name line) :=
  inferInstanceAs (Decidable (_ <+: _))

/-- The lines of the body of a method: those behind the first line that opens it, up to the next one
that closes a method. -/
def methodBody (name : String) (lines : List String) : List String :=
  ((lines.dropWhile fun line => !decide (Opens name line)).drop 1).takeWhile (· != closing)

/-- The body of a method is found again if no line in front of it opens the method and none in it
closes one. -/
lemma methodBody_eq {before body after : List String} (hbefore : ∀ line ∈ before, ¬ Opens name line)
    (hhead : Opens name head) (hbody : ∀ line ∈ body, line ≠ closing) :
    methodBody name (before ++ head :: (body ++ closing :: after)) = body := by
  have hdropped : (before ++ head :: (body ++ closing :: after)).dropWhile
      (fun line => !decide (Opens name line)) = head :: (body ++ closing :: after) := by
    rw [List.dropWhile_append_of_pos (by simpa using hbefore),
      List.dropWhile_cons_of_neg (by simpa using hhead)]
  rw [methodBody, hdropped, List.drop_one, List.tail_cons,
    List.takeWhile_append_of_pos (by simpa using hbody), List.takeWhile_cons_of_neg (by simp),
    List.append_nil]

lemma methodHead_eq (name target : String) :
    methodHead name target = opening name ++ (target ++ " target, Parcel parcel) \x7b") := by
  unfold methodHead opening
  rw [String.append_assoc]

lemma opens_methodHead (name target : String) : Opens name (methodHead name target) := by
  simp only [Opens, methodHead_eq, String.toList_append]
  exact List.prefix_append _ _

/-- A line does not open a method if it starts with a text of which the opening is no beginning, nor
the other way around. -/
lemma not_opens_append (b : String)
    (h : ¬ (opening name).toList <+: a.toList ∧ ¬ a.toList <+: (opening name).toList) :
    ¬ Opens name (a ++ b) := fun hopens => by
  rw [Opens, String.toList_append] at hopens
  rcases List.prefix_or_prefix_of_prefix hopens (List.prefix_append _ _) with hprefix | hprefix
  · exact h.1 hprefix
  · exact h.2 hprefix

lemma not_opens_between (x b : String)
    (h : ¬ (opening name).toList <+: a.toList ∧ ¬ a.toList <+: (opening name).toList) :
    ¬ Opens name (a ++ x ++ b) := by
  rw [String.append_assoc]
  exact not_opens_append _ h

/-- A line does not close a method if it starts with a text that is no beginning of the closing
line. -/
lemma append_ne_closing (b : String) (h : ¬ a.toList <+: closing.toList) : a ++ b ≠ closing :=
  fun heq => h ⟨b.toList, by rw [← String.toList_append, heq]⟩

/-! ### The two methods -/

/-- The lines of a source in front of its methods. -/
def preamble (companion : Companion) : List String :=
  ["// Generated by parcelgen. Do not edit."]
    ++ (if companion.package.isEmpty then [] else ["package " ++ companion.package ++ ";"])
    ++ ["",
      "import android.os.Parcel;",
      "",
      companion.classComment,
      "public final class " ++ companion.className ++ " \x7b",
      "    private " ++ companion.className ++ "() \x7b",
      closing,
      ""]

/-- The lines of the method that writes the fields. -/
def writeLines (companion : Companion) : List String :=
  companion.fields.map fun field => "        " ++ writeStatement field

/-- The lines of the method that reads the fields. -/
def readLines (companion : Companion) : List String :=
  ("        ClassLoader loader = " ++ companion.target ++ ".class.getClassLoader();")
    :: companion.fields.map fun field => "        " ++ readStatement field

lemma sourceLines_eq (companion : Companion) :
    companion.sourceLines = companion.preamble
      ++ methodHead "writeToParcel" companion.target :: (companion.writeLines
      ++ closing :: "" :: methodHead "readFromParcel" companion.target :: (companion.readLines
      ++ [closing, "\x7d"])) := by
  simp only [sourceLines, preamble, writeLines, readLines, closing, List.append_assoc,
    List.cons_append, List.nil_append]

/-- No line in front of the methods opens one of them. -/
lemma not_opens_of_mem_preamble (hname : name ∈ ["writeToParcel", "readFromParcel"]) :
    ∀ line ∈ companion.preamble, ¬ Opens name line := by
  have hfixed : ∀ line ∈ ["// Generated by parcelgen. Do not edit.", "",
      "import android.os.Parcel;", closing], ¬ Opens name line := by
    revert name
    decide +kernel
  have hstart : ∀ a ∈ ["package ", "/** Field marshalling for ",
      "/** Field marshalling delegate for ", "public final class ", "    private "],
      ¬ (opening name).toList <+: a.toList ∧ ¬ a.toList <+: (opening name).toList := by
    revert name
    decide +kernel
  simp only [List.forall_mem_cons, List.not_mem_nil, false_implies, implies_true, and_true]
    at hfixed hstart
  obtain ⟨hgenerated, hempty, himport, hclosing⟩ := hfixed
  obtain ⟨hpackage, hinjector, hdelegate, hclass, hprivate⟩ := hstart
  have hcomment : ¬ Opens name companion.classComment := by
    unfold classComment
    split
    · exact not_opens_between _ _ hinjector
    · exact not_opens_between _ _ hdelegate
  have hpackageLine : ∀ line ∈ if companion.package.isEmpty then []
      else ["package " ++ companion.package ++ ";"], ¬ Opens name line := by
    split
    · exact nofun
    · rw [List.forall_mem_singleton]
      exact not_opens_between _ _ hpackage
  unfold preamble
  simp only [List.forall_mem_append, List.forall_mem_cons, List.not_mem_nil, false_implies,
    implies_true, and_true]
  exact ⟨⟨hgenerated, hpackageLine⟩, hempty, himport, hempty, hcomment,
    not_opens_between _ _ hclass, not_opens_between _ _ hprivate, hclosing, hempty⟩

lemma ne_closing_of_mem_writeLines : ∀ line ∈ companion.writeLines, line ≠ closing := by
  rw [writeLines, List.forall_mem_map]
  exact fun field _ => append_ne_closing _ (by decide +kernel)

lemma ne_closing_of_mem_readLines : ∀ line ∈ companion.readLines, line ≠ closing := by
  rw [readLines, List.forall_mem_cons, List.forall_mem_map, String.append_assoc]
  exact ⟨append_ne_closing _ (by decide +kernel), fun field _ =>
    append_ne_closing _ (by decide +kernel)⟩

/-- The body of the method that writes is found again. -/
lemma methodBody_write (companion : Companion) (rest : List String) :
    methodBody "writeToParcel" (companion.sourceLines ++ rest) = companion.writeLines := by
  rw [sourceLines_eq, List.append_assoc, List.cons_append, List.append_assoc, List.cons_append]
  exact methodBody_eq (not_opens_of_mem_preamble (by decide)) (opens_methodHead _ _)
    ne_closing_of_mem_writeLines

/-- The body of the method that reads is found again. -/
lemma methodBody_read (companion : Companion) (rest : List String) :
    methodBody "readFromParcel" (companion.sourceLines ++ rest) = companion.readLines := by
  have hlines : companion.sourceLines ++ rest =
      (companion.preamble ++ methodHead "writeToParcel" companion.target ::
        (companion.writeLines ++ [closing, ""])) ++
      methodHead "readFromParcel" companion.target ::
        (companion.readLines ++ closing :: "\x7d" :: rest) := by
    simp only [sourceLines_eq, List.append_assoc, List.cons_append, List.nil_append]
  rw [hlines]
  refine methodBody_eq ?_ (opens_methodHead _ _) ne_closing_of_mem_readLines
  simp only [List.forall_mem_append, List.forall_mem_cons, List.not_mem_nil, false_implies,
    implies_true, and_true, writeLines, List.forall_mem_map, methodHead_eq "writeToParcel"]
  exact ⟨not_opens_of_mem_preamble (by decide), not_opens_append _ (by decide +kernel),
    fun field _ => not_opens_append _ (by decide +kernel), by decide +kernel, by decide +kernel⟩

/-! ### What a source tells -/

lemma castType_keyword (primitive : Primitive) :
    castType primitive.keyword = primitive.boxed := by
  rw [castType, Primitive.ofKeyword?_keyword]

lemma castType_eq_self {type : String} (h : ∀ primitive : Primitive, type ≠ primitive.keyword) :
    castType type = type := by
  have hnone : Primitive.ofKeyword? type = none := by
    refine List.find?_eq_none.mpr fun primitive _ hprimitive => ?_
    exact h primitive (beq_iff_eq.mp hprimitive).symm
  rw [castType, hnone]

lemma append_between_inj {x y b : String} : a ++ x ++ b = a ++ y ++ b ↔ x = y := by
  rw [String.append_left_inj, String.append_right_inj]

/-- The comment on a class tells the strategy. -/
lemma strategy_eq_of_classComment_eq (h : companion.classComment = other.classComment) :
    companion.strategy = other.strategy := by
  have hdiffer : ∀ x b y c : String, "/** Field marshalling for " ++ x ++ b ≠
      "/** Field marshalling delegate for " ++ y ++ c := fun x b y c heq => by
    have hprefix : "/** Field marshalling for ".toList <+:
        "/** Field marshalling delegate for ".toList ++ (y ++ c).toList := by
      rw [← String.toList_append, ← String.append_assoc, ← heq, String.append_assoc,
        String.toList_append]
      exact List.prefix_append _ _
    have hshort := List.prefix_of_prefix_length_le hprefix (List.prefix_append _ _)
      (by decide +kernel)
    exact absurd hshort (by decide +kernel)
  rw [classComment, classComment] at h
  cases hcompanion : companion.strategy <;> cases hother : other.strategy <;>
    simp only [hcompanion, hother] at h
  · rfl
  · exact absurd h (hdiffer _ _ _ _)
  · exact absurd h.symm (hdiffer _ _ _ _)
  · rfl

/-- The lines in front of the methods tell the names that are in them, and the strategy. -/
lemma of_preamble_eq (h : companion.preamble = other.preamble) :
    companion.package = other.package ∧ companion.className = other.className ∧
      companion.strategy = other.strategy := by
  obtain ⟨hhead, hclass⟩ := List.append_inj' h rfl
  have hpackage := List.append_cancel_left hhead
  simp only [List.cons.injEq, append_between_inj, true_and, and_true] at hclass
  refine ⟨?_, hclass.2.1, strategy_eq_of_classComment_eq hclass.1⟩
  by_cases hcompanion : companion.package.isEmpty = true <;>
    by_cases hother : other.package.isEmpty = true
  · rw [String.isEmpty_iff.mp hcompanion, String.isEmpty_iff.mp hother]
  · rw [if_pos hcompanion, if_neg hother] at hpackage
    cases hpackage
  · rw [if_neg hcompanion, if_pos hother] at hpackage
    cases hpackage
  · rw [if_neg hcompanion, if_neg hother, List.cons.injEq, append_between_inj] at hpackage
    exact hpackage.1

/-- The lines of the method that writes tell the names of the fields. -/
lemma names_eq_of_writeLines_eq (h : companion.writeLines = other.writeLines) :
    companion.fields.map Binding.name = other.fields.map Binding.name := by
  have hinjective : Function.Injective fun name : String =>
      "        " ++ ("parcel.writeValue(target." ++ name ++ ");") := fun x y hxy =>
    append_between_inj.mp ((String.append_right_inj _).mp hxy)
  refine List.map_injective_iff.mpr hinjective ?_
  rw [List.map_map, List.map_map]
  exact h

/-- The lines of the method that reads tell the target, and the casts of fields whose names are
known. -/
lemma of_readLines_eq (h : companion.readLines = other.readLines)
    (hnames : companion.fields.map Binding.name = other.fields.map Binding.name) :
    companion.target = other.target ∧
      companion.fields.map (castType ·.type) = other.fields.map (castType ·.type) := by
  obtain ⟨hloader, hreads⟩ := List.cons.inj h
  refine ⟨append_between_inj.mp hloader, ?_⟩
  generalize companion.fields = fields at hnames hreads
  generalize other.fields = others at hnames hreads
  induction fields generalizing others with
  | nil => cases others with
    | nil => rfl
    | cons field others => cases hnames
  | cons field fields ih => cases others with
    | nil => cases hnames
    | cons field' others =>
      obtain ⟨hname, hnames⟩ := List.cons.inj hnames
      obtain ⟨hread, hreads⟩ := List.cons.inj hreads
      have hcast : castType field.type = castType field'.type := by
        have hstatement := (String.append_right_inj _).mp hread
        rw [readStatement, readStatement, hname] at hstatement
        exact append_between_inj.mp hstatement
      rw [List.map_cons, List.map_cons, hcast, ih others hnames hreads]

/-- A companion of a class without package, with a field that was found twice. -/
def badge : Companion where
  package := ""
  className := "Badge$$ParcelDelegate"
  target := "Badge"
  origin := ⟨0⟩
  strategy := .delegate
  fields := [⟨"rank", "int"⟩, ⟨"ranks", "int[]"⟩, ⟨"rank", "int"⟩]

end ParcelCompanion.Companion
