import Mathlib.Logic.Function.Iterate
import ParcelCompanion.Model.Resolve
import ParcelCompanion.Proofs.Edit.Outcome
import ParcelCompanion.Proofs.Written.Lexing

/-!
# The grammar of written types

`Derives` is the grammar as a relation between phrases and token sequences, one constructor for each
rule; it knows nothing of a reading order or of look-ahead.  Reading is sound and complete for it:
what is read was derived by the tokens that are gone, and a derived phrase is read from its tokens
whatever closing mark follows.  So `parse` answers exactly with the types that the tokens of a text
derive.
-/

namespace ParcelCompanion.WrittenType

/-! ### The grammar -/

/-- What a rule of the grammar stands for. -/
inductive Phrase where
  /-- A name, with its words joined by dots. -/
  | name (name : String)
  /-- The arguments between the angle brackets of a type. -/
  | args (args : List WrittenType)
  /-- One argument. -/
  | arg (arg : WrittenType)
  /-- A type. -/
  | type (type : WrittenType)

/-- The tokens of a phrase.  A type is a name with or without arguments, and then any number of
brackets. -/
inductive Derives : Phrase → List Token → Prop
  | word (word : String) : Derives (.name word) [.word word]
  | dotted (word : String) {name : String} {tokens : List Token} (h : Derives (.name name) tokens) :
    Derives (.name (word ++ "." ++ name)) (.word word :: .dot :: tokens)
  | bare {name : String} {names : List Token} (hname : Derives (.name name) names) (n : ℕ) :
    Derives (.type (array^[n] (.named name []))) (names ++ List.replicate n .brackets)
  | applied {name : String} {args : List WrittenType} {names tokens : List Token}
    (hname : Derives (.name name) names) (hargs : Derives (.args args) tokens) (n : ℕ) :
    Derives (.type (array^[n] (.named name args)))
      (names ++ .less :: tokens ++ .greater :: List.replicate n .brackets)
  | last {arg : WrittenType} {tokens : List Token} (h : Derives (.arg arg) tokens) :
    Derives (.args [arg]) tokens
  | more {arg : WrittenType} {args : List WrittenType} {tokens tokens' : List Token}
    (harg : Derives (.arg arg) tokens) (hargs : Derives (.args args) tokens') :
    Derives (.args (arg :: args)) (tokens ++ .comma :: tokens')
  | wildcard : Derives (.arg .wildcard) [.question]
  | bounded (kind : BoundKind) {bound : WrittenType} {tokens : List Token}
    (h : Derives (.type bound) tokens) :
    Derives (.arg (.bounded kind bound)) (.question :: .word kind.keyword :: tokens)
  | plain {type : WrittenType} {tokens : List Token} (h : Derives (.type type) tokens) :
    Derives (.arg type) tokens

/-- The tokens of a name begin with a word. -/
lemma Derives.head_name {name : String} {tokens : List Token} (h : Derives (.name name) tokens) :
    ∃ word rest, tokens = .word word :: rest := by
  cases h with
  | word => exact ⟨name, [], rfl⟩
  | dotted word h => exact ⟨word, _, rfl⟩

/-- The tokens of a type begin with a word. -/
lemma Derives.head_type {type : WrittenType} {tokens : List Token}
    (h : Derives (.type type) tokens) :
    ∃ word rest, tokens = .word word :: rest := by
  cases h with
  | bare hname n =>
    obtain ⟨word, rest, rfl⟩ := hname.head_name
    exact ⟨word, _, rfl⟩
  | applied hname hargs n =>
    obtain ⟨word, rest, rfl⟩ := hname.head_name
    exact ⟨word, _, rfl⟩

/-! ### What is read was derived -/

/-- A name is read off the tokens that derive it. -/
lemma derives_of_readName {tokens rest : List Token} {name : String}
    (h : readName tokens = .ok (name, rest)) :
    ∃ front, tokens = front ++ rest ∧ Derives (.name name) front := by
  fun_induction readName tokens generalizing name with
  | case1 word tokens ih =>
    obtain ⟨⟨name', rest'⟩, hread, h⟩ := bind_eq_ok_iff.mp h
    obtain ⟨rfl, rfl⟩ := Prod.mk.inj (pure_eq_ok_iff.mp h)
    obtain ⟨front, rfl, hfront⟩ := ih hread
    exact ⟨_, rfl, .dotted word hfront⟩
  | case2 word tokens hdot =>
    obtain ⟨rfl, rfl⟩ := Prod.mk.inj (Except.ok.inj h)
    exact ⟨[.word word], rfl, .word word⟩
  | case3 tokens hdotted hword => exact nomatch h

/-- Brackets are read as long as there are some. -/
lemma exists_readBrackets (element : WrittenType) (tokens : List Token) :
    ∃ n rest, tokens = List.replicate n .brackets ++ rest ∧
      readBrackets element tokens = (array^[n] element, rest) := by
  fun_induction readBrackets element tokens with
  | case1 element tokens ih =>
    obtain ⟨n, rest, rfl, hread⟩ := ih
    exact ⟨n + 1, rest, rfl, hread⟩
  | case2 element tokens hother => exact ⟨0, tokens, rfl, rfl⟩

/-- A bound is introduced by the word of its kind. -/
lemma boundKind?_eq_some {tokens rest : List Token} {kind : BoundKind}
    (h : boundKind? tokens = some (kind, rest)) : tokens = .word kind.keyword :: rest := by
  unfold boundKind? at h
  split at h
  · next word rest' =>
    split at h
    · next hword =>
      obtain ⟨rfl, rfl⟩ := Prod.mk.inj (Option.some.inj h)
      rw [hword]
    · split at h
      · next hword =>
        obtain ⟨rfl, rfl⟩ := Prod.mk.inj (Option.some.inj h)
        rw [hword]
      · exact nomatch h
  · exact nomatch h

/-- Everything that is read was derived by the tokens that are gone, whatever the bound on the
nesting. -/
lemma derives_of_read (depth : ℕ) :
    (∀ tokens type rest, readType depth tokens = .ok (type, rest) →
      ∃ front, tokens = front ++ rest ∧ Derives (.type type) front) ∧
    (∀ tokens arg rest, readArg depth tokens = .ok (arg, rest) →
      ∃ front, tokens = front ++ rest ∧ Derives (.arg arg) front) ∧
    ∀ tokens args rest, readArgs depth tokens = .ok (args, rest) →
      ∃ front, tokens = front ++ .greater :: rest ∧ Derives (.args args) front := by
  induction depth with
  | zero => exact ⟨nofun, nofun, nofun⟩
  | succ depth ih =>
    obtain ⟨ihType, ihArg, ihArgs⟩ := ih
    refine ⟨fun tokens type rest h => ?_, fun tokens arg rest h => ?_,
      fun tokens args rest h => ?_⟩
    · rw [readType, bind_eq_ok_iff] at h
      obtain ⟨⟨name, afterName⟩, hname, h⟩ := h
      obtain ⟨names, rfl, hnames⟩ := derives_of_readName hname
      dsimp only at h
      split at h
      · obtain ⟨⟨args, afterArgs⟩, hargs, hread⟩ := bind_eq_ok_iff.mp h
        obtain ⟨inner, rfl, hinner⟩ := ihArgs _ _ _ hargs
        obtain ⟨n, rest', rfl, hbrackets⟩ := exists_readBrackets (.named name args) afterArgs
        obtain ⟨rfl, rfl⟩ := Prod.mk.inj (hbrackets.symm.trans (pure_eq_ok_iff.mp hread))
        exact ⟨_, by simp, .applied hnames hinner n⟩
      · obtain ⟨n, rest', rfl, hbrackets⟩ := exists_readBrackets (.named name []) afterName
        obtain ⟨rfl, rfl⟩ := Prod.mk.inj (hbrackets.symm.trans (pure_eq_ok_iff.mp h))
        exact ⟨_, by simp, .bare hnames n⟩
    · unfold readArg at h
      split at h
      · next afterMark =>
        split at h
        · next kind afterKind hkind =>
          obtain ⟨⟨bound, afterBound⟩, hbound, h⟩ := bind_eq_ok_iff.mp h
          obtain ⟨rfl, rfl⟩ := Prod.mk.inj (pure_eq_ok_iff.mp h)
          obtain ⟨front, rfl, hfront⟩ := ihType _ _ _ hbound
          obtain rfl := boundKind?_eq_some hkind
          exact ⟨_, rfl, .bounded kind hfront⟩
        · obtain ⟨rfl, rfl⟩ := Prod.mk.inj (Except.ok.inj h)
          exact ⟨[.question], rfl, .wildcard⟩
      · obtain ⟨front, rfl, hfront⟩ := ihType _ _ _ h
        exact ⟨front, rfl, .plain hfront⟩
    · rw [readArgs, bind_eq_ok_iff] at h
      obtain ⟨⟨arg, afterArg⟩, harg, h⟩ := h
      obtain ⟨front, rfl, hfront⟩ := ihArg _ _ _ harg
      dsimp only at h
      split at h
      · obtain ⟨⟨args, afterArgs⟩, hargs, h⟩ := bind_eq_ok_iff.mp h
        obtain ⟨rfl, rfl⟩ := Prod.mk.inj (pure_eq_ok_iff.mp h)
        obtain ⟨inner, rfl, hinner⟩ := ihArgs _ _ _ hargs
        exact ⟨_, by simp, .more hfront hinner⟩
      · obtain ⟨rfl, rfl⟩ := Prod.mk.inj (pure_eq_ok_iff.mp h)
        exact ⟨front, rfl, .last hfront⟩
      · exact nomatch h

/-! ### What is derived is read -/

/-- What may follow a type that stands in a list of arguments or at the end of a text. -/
def Closes (rest : List Token) : Prop :=
  ∀ token ∈ rest.head?, token = .comma ∨ token = .greater

/-- Brackets are read up to the first token that is none. -/
lemma readBrackets_replicate (element : WrittenType) (n : ℕ) {rest : List Token}
    (hrest : rest.head? ≠ some .brackets) :
    readBrackets element (List.replicate n .brackets ++ rest) = (array^[n] element, rest) := by
  induction n generalizing element with
  | zero =>
    rcases rest with _ | ⟨_ | _, rest⟩
    case cons.brackets => exact absurd rfl hrest
    all_goals rfl
  | succ n ih =>
    rw [List.replicate_succ, List.cons_append, readBrackets, ih, Function.iterate_succ_apply]

/-- A name without arguments is read with the brackets behind it. -/
lemma readType_bare {name : String} {tokens rest : List Token} (depth : ℕ)
    (hname : readName tokens = .ok (name, rest)) (hrest : rest.head? ≠ some .less) :
    readType (depth + 1) tokens = .ok (readBrackets (.named name []) rest) := by
  rw [readType, hname]
  rcases rest with _ | ⟨_ | _, rest⟩
  case cons.less => exact absurd rfl hrest
  all_goals rfl

/-- A name with arguments is read with the brackets behind these. -/
lemma readType_applied {name : String} {args : List WrittenType}
    {tokens afterName rest : List Token} {depth : ℕ}
    (hname : readName tokens = .ok (name, .less :: afterName))
    (hargs : readArgs depth afterName = .ok (args, rest)) :
    readType (depth + 1) tokens = .ok (readBrackets (.named name args) rest) := by
  rw [readType, hname]
  change (readArgs depth afterName >>= fun read =>
    Except.ok (readBrackets (.named name read.1) read.2)) = _
  rw [hargs]
  rfl

/-- What reading makes of the tokens of a phrase.  Each step down costs one of the bound, and there
are at most three of them for a token. -/
def Reads (tokens : List Token) : Phrase → Prop
  | .name name => ∀ rest, rest.head? ≠ some .dot → readName (tokens ++ rest) = .ok (name, rest)
  | .type type => ∀ depth rest, 3 * tokens.length ≤ depth + 1 → Closes rest →
    readType depth (tokens ++ rest) = .ok (type, rest)
  | .arg arg => ∀ depth rest, 3 * tokens.length ≤ depth → Closes rest →
    readArg depth (tokens ++ rest) = .ok (arg, rest)
  | .args args => ∀ depth rest, 3 * tokens.length < depth →
    readArgs depth (tokens ++ .greater :: rest) = .ok (args, rest)

/-- What closes a list or a text goes on with no type. -/
lemma Closes.head_ne {rest : List Token} (h : Closes rest) :
    rest.head? ≠ some .dot ∧ rest.head? ≠ some .less ∧ rest.head? ≠ some .brackets := by
  refine ⟨?_, ?_, ?_⟩ <;>
  · intro hhead
    exact absurd (h _ hhead) (by decide)

/-- A question mark without a bound is a whole argument. -/
lemma Closes.boundKind?_eq_none {rest : List Token} (h : Closes rest) : boundKind? rest = none := by
  rcases rest with _ | ⟨_ | _, rest⟩
  case cons.word => exact absurd (h _ rfl) (by simp)
  all_goals rfl

lemma boundKind?_keyword (kind : BoundKind) (tokens : List Token) :
    boundKind? (.word kind.keyword :: tokens) = some (kind, tokens) := by
  cases kind <;> simp [boundKind?, BoundKind.keyword]

/-- Brackets go on with neither a name nor its arguments. -/
lemma head_replicate_brackets (n : ℕ) {rest : List Token} (h : Closes rest) :
    (List.replicate n Token.brackets ++ rest).head? ≠ some .dot ∧
      (List.replicate n Token.brackets ++ rest).head? ≠ some .less := by
  cases n with
  | zero => exact ⟨h.head_ne.1, h.head_ne.2.1⟩
  | succ n => exact ⟨nofun, nofun⟩

/-- Every phrase is read from the tokens that derive it. -/
lemma Derives.reads {phrase : Phrase} {tokens : List Token} (h : Derives phrase tokens) :
    Reads tokens phrase := by
  induction h with
  | word word =>
    intro rest hrest
    rcases rest with _ | ⟨_ | _, rest⟩
    case cons.dot => exact absurd rfl hrest
    all_goals rfl
  | dotted word h ih =>
    intro rest hrest
    rw [List.cons_append, List.cons_append, readName, ih rest hrest]
    rfl
  | @bare name names hname n ih =>
    intro depth rest hdepth hrest
    obtain ⟨word, more, rfl⟩ := hname.head_name
    obtain ⟨depth, rfl⟩ : ∃ below, depth = below + 1 := by
      rw [List.cons_append, List.length_cons] at hdepth
      exact ⟨depth - 1, by omega⟩
    obtain ⟨hdot, hless⟩ := head_replicate_brackets n hrest
    rw [List.append_assoc, readType_bare depth (ih _ hdot) hless,
      readBrackets_replicate _ n hrest.head_ne.2.2]
  | @applied name args names tokens hname hargs n ihName ihArgs =>
    intro depth rest hdepth hrest
    simp only [List.length_append, List.length_cons] at hdepth
    obtain ⟨depth, rfl⟩ : ∃ below, depth = below + 1 := ⟨depth - 1, by omega⟩
    have hread := ihArgs depth (List.replicate n .brackets ++ rest) (by omega)
    have hname' :=
      ihName (.less :: (tokens ++ .greater :: (List.replicate n .brackets ++ rest))) nofun
    rw [List.append_assoc, List.append_assoc, List.cons_append, List.cons_append,
      readType_applied hname' hread, readBrackets_replicate _ n hrest.head_ne.2.2]
  | last h ih =>
    intro depth rest hdepth
    obtain ⟨depth, rfl⟩ : ∃ below, depth = below + 1 := ⟨depth - 1, by omega⟩
    rw [readArgs, ih depth (.greater :: rest) (by omega) (by simp [Closes])]
    rfl
  | @more arg args tokens tokens' harg hargs ihArg ihArgs =>
    intro depth rest hdepth
    simp only [List.length_append, List.length_cons] at hdepth
    obtain ⟨depth, rfl⟩ : ∃ below, depth = below + 1 := ⟨depth - 1, by omega⟩
    have hrest := ihArgs depth rest (by omega)
    rw [List.append_assoc, readArgs, ihArg depth _ (by omega) (by simp [Closes])]
    change (readArgs depth (tokens' ++ Token.greater :: rest) >>= fun read =>
      Except.ok (arg :: read.1, read.2)) = _
    rw [hrest]
    rfl
  | wildcard =>
    intro depth rest hdepth hrest
    rw [List.length_singleton] at hdepth
    obtain ⟨depth, rfl⟩ : ∃ below, depth = below + 1 := ⟨depth - 1, by omega⟩
    rw [List.singleton_append, readArg, hrest.boundKind?_eq_none]
  | @bounded kind bound tokens h ih =>
    intro depth rest hdepth hrest
    simp only [List.length_cons] at hdepth
    obtain ⟨depth, rfl⟩ : ∃ below, depth = below + 1 := ⟨depth - 1, by omega⟩
    rw [List.cons_append, List.cons_append, readArg, boundKind?_keyword]
    dsimp only
    rw [ih depth rest (by omega) hrest]
    rfl
  | @plain type tokens h ih =>
    intro depth rest hdepth hrest
    obtain ⟨word, more, rfl⟩ := h.head_type
    obtain ⟨depth, rfl⟩ : ∃ below, depth = below + 1 := by
      rw [List.length_cons] at hdepth
      exact ⟨depth - 1, by omega⟩
    rw [← ih depth rest (by omega) hrest]
    rfl

/-! ### Whole texts -/

/-- All of the tokens are read as a type exactly when they derive it. -/
lemma ofTokens_eq_ok_iff {tokens : List Token} {type : WrittenType} :
    ofTokens tokens = .ok type ↔ Derives (.type type) tokens := by
  constructor
  · intro h
    unfold ofTokens at h
    split at h
    · exact nomatch h
    · obtain ⟨⟨read, rest⟩, hread, hrest⟩ := bind_eq_ok_iff.mp h
      obtain ⟨front, rfl, hfront⟩ := (derives_of_read _).1 _ _ _ hread
      cases rest with
      | nil =>
        obtain rfl := pure_eq_ok_iff.mp hrest
        rwa [List.append_nil]
      | cons token rest => exact nomatch hrest
  · intro h
    have hread := h.reads (3 * tokens.length + 1) [] (by omega) nofun
    rw [List.append_nil] at hread
    obtain ⟨word, more, rfl⟩ := h.head_type
    rw [ofTokens, if_neg (by simp), hread]
    rfl

/-- A text is a way to write a type when it splits into tokens that derive the type. -/
def Writes (text : String) (type : WrittenType) : Prop :=
  ∃ tokens, Token.Splits text.toList tokens ∧ Derives (.type type) tokens

lemma parse_eq_ok_iff {text : String} {type : WrittenType} :
    parse text = .ok type ↔ Writes text type := by
  unfold parse
  cases htokens : Token.ofText text with
  | error stray =>
    refine ⟨nofun, ?_⟩
    rintro ⟨tokens, hsplits, -⟩
    exact nomatch htokens.symm.trans (Token.ofText_eq_ok_iff.mpr hsplits)
  | ok tokens =>
    have hsplits := Token.ofText_eq_ok_iff.mp htokens
    rw [ofTokens_eq_ok_iff]
    constructor
    · exact fun h => ⟨tokens, hsplits, h⟩
    · rintro ⟨tokens', hsplits', h⟩
      exact hsplits.unique hsplits' ▸ h

/-- A text is read as a type exactly when its tokens derive the type.  So it is a way to write one
type at most, and a text that is a way to write none is refused wherever it stands, with an error
that names it. -/
theorem parse_iff_writes (text : String) :
    (∀ type, parse text = .ok type ↔ Writes text type) ∧
      (∀ type type', Writes text type → Writes text type' → type = type') ∧
      ((∀ type, ¬ Writes text type) → ∃ fault, parse text = .error fault ∧
        ∀ context m, (Edit.resolveText context text).apply m =
          (.error (.malformedType text fault), m)) := by
  refine ⟨fun type => parse_eq_ok_iff, fun type type' h h' => ?_, fun hnone => ?_⟩
  · have hread := parse_eq_ok_iff.mpr h
    have hread' := parse_eq_ok_iff.mpr h'
    exact Except.ok.inj (hread.symm.trans hread')
  · cases hparse : parse text with
    | ok type => exact absurd (parse_eq_ok_iff.mp hparse) (hnone type)
    | error fault =>
      refine ⟨fault, rfl, fun context m => ?_⟩
      rw [Edit.resolveText, hparse]
      rfl

end ParcelCompanion.WrittenType
