import Mathlib.Data.List.Forall2
import SelectorPath.Token.Weight

/-!
# Trees of tokens

A token with selectors in its argument is the root of a tree of tokens. What
holds of a token if it holds of the tokens in its selectors holds of every
token, since those have a smaller weight. Two trees are related here if they
differ in the names of pseudo-classes only, and short names are replaced along
the tree: in the pseudo-classes that are reached through selectors of
pseudo-classes, and nowhere else.

## Main results

* `Token.nested_induction`: induction over a token and the tokens in its
  selectors.
* `PseudoClass.fullName_not_short`: a full name is not short.
* `Token.renamedBy_unalias`, `Token.unalias_unalias`: what replacing short names
  does to a token.
* `Token.Reached.exists_unalias`: the tokens reached afterwards are those that
  were reached before.
* `unaliasAll_renames`: replacing short names is idempotent and complete, and it
  changes names only.
-/

namespace SelectorPath

/-! ## Induction -/

private theorem Token.weight_le_of_mem {t : Token} {stream : Stream}
    (h : t ∈ stream) :
    t.weight ≤ weightStream stream := by
  induction stream with
  | nil => exact absurd h List.not_mem_nil
  | cons token tokens ih =>
    rw [weightStream]
    rcases List.mem_cons.mp h with rfl | h
    · omega
    · have hle := ih h
      omega

private theorem weightStream_le_of_mem {stream : Stream} {streams : List Stream}
    (h : stream ∈ streams) :
    weightStream stream ≤ weightAll streams := by
  induction streams with
  | nil => exact absurd h List.not_mem_nil
  | cons first streams ih =>
    rw [weightAll]
    rcases List.mem_cons.mp h with rfl | h
    · omega
    · have hle := ih h
      omega

/-- What holds of a token if it holds of the tokens in its selectors holds of
all tokens. -/
@[elab_as_elim]
theorem Token.nested_induction {motive : Token → Prop}
    (step : ∀ t : Token, (∀ streams, t.argument = some (.selectors streams) →
      ∀ stream ∈ streams, ∀ inner ∈ stream, motive inner) → motive t)
    (t : Token) : motive t := by
  induction hn : t.weight using Nat.strongRecOn generalizing t with
  | _ n ih =>
    refine step t fun streams hargument stream hstream inner hinner => ?_
    have hinner := Token.weight_le_of_mem hinner
    have hstream := weightStream_le_of_mem hstream
    have hweight := t.weight_eq
    rw [hargument, weightArgument?, weightArgument] at hweight
    exact ih inner.weight (by omega) inner rfl

/-! ## Trees that differ in names -/

/-- Whether a token stands in one of the streams or, through selectors of
pseudo-classes, at any depth in them. -/
inductive Token.Reached (t : Token) : List Stream → Prop
  | here {stream : Stream} {streams : List Stream} (hstream : stream ∈ streams)
    (ht : t ∈ stream) : Reached t streams
  | deeper {outer : Token} {stream : Stream} {streams inner : List Stream}
    (hstream : stream ∈ streams) (houter : outer ∈ stream)
    (hkind : outer.kind = .pseudoClass)
    (hargument : outer.argument = some (.selectors inner))
    (ht : Reached t inner) : Reached t streams

/-- Whether the second token is the first one with the names of pseudo-classes
changed, its own and those in its selectors. A token of another kind stays as it
is, with all that is in it. -/
inductive Token.RenamedBy (rename : Text → Text) : Token → Token → Prop
  | other {t : Token} (hkind : t.kind ≠ .pseudoClass) : RenamedBy rename t t
  | plain {name value : Option Text} {test : Option AttributeTest}
    {argument : Option (Argument Token)}
    (hargument : ∀ streams, argument ≠ some (.selectors streams)) :
    RenamedBy rename ⟨.pseudoClass, name, value, test, argument⟩
      ⟨.pseudoClass, name.map rename, value, test, argument⟩
  | nested {name value : Option Text} {test : Option AttributeTest}
    {streams streams' : List Stream}
    (hstreams : List.Forall₂ (List.Forall₂ (RenamedBy rename)) streams
      streams') :
    RenamedBy rename
      ⟨.pseudoClass, name, value, test, some (.selectors streams)⟩
      ⟨.pseudoClass, name.map rename, value, test, some (.selectors streams')⟩

private theorem forall₂_map_map {R : Token → Token → Prop} {f : Token → Token}
    {streams : List Stream} (h : ∀ stream ∈ streams, ∀ t ∈ stream, R t (f t)) :
    List.Forall₂ (List.Forall₂ R) streams (streams.map (List.map f)) := by
  rw [List.forall₂_map_right_iff, List.forall₂_same]
  intro stream hstream
  rw [List.forall₂_map_right_iff, List.forall₂_same]
  exact h stream hstream

/-! ## Short names -/

namespace PseudoClass

/-- The short names. -/
def shortNames : List Text :=
  ["first", "last", "child", "contains"]

private theorem name_not_short (p : PseudoClass) : p.name ∉ shortNames := by
  cases p with
  | text relation caseSensitive =>
    cases relation <;> cases caseSensitive <;> decide
  | _ => decide

private theorem ofAlias?_eq_none_iff {n : Text} :
    ofAlias? n = none ↔ n ∉ shortNames := by
  constructor
  · intro hnone hmem
    have hsome : ∀ n ∈ shortNames, ofAlias? n ≠ none := by decide
    exact hsome n hmem hnone
  · intro h
    simp only [shortNames, List.mem_cons, List.not_mem_nil, or_false,
      not_or] at h
    rw [ofAlias?, if_neg h.1, if_neg h.2.1, if_neg h.2.2.1, if_neg h.2.2.2]

private theorem fullName_of_not_short {n : Text} (h : n ∉ shortNames) :
    fullName n = n := by
  rw [fullName, ofAlias?_eq_none_iff.mpr h]

/-- A full name is not short. -/
theorem fullName_not_short (n : Text) : fullName n ∉ shortNames := by
  cases h : ofAlias? n with
  | none =>
    have hn := ofAlias?_eq_none_iff.mp h
    rwa [fullName_of_not_short hn]
  | some p =>
    rw [fullName, h]
    exact p.name_not_short

private theorem fullName_fullName (n : Text) :
    fullName (fullName n) = fullName n :=
  fullName_of_not_short (fullName_not_short n)

/-- The short names are the names that change. -/
theorem fullName_eq_self_iff {n : Text} : fullName n = n ↔ n ∉ shortNames := by
  refine ⟨fun h => ?_, fullName_of_not_short⟩
  rw [← h]
  exact fullName_not_short n

end PseudoClass

/-! ## Replacing short names -/

private theorem unaliasAll_eq_map_map (streams : List Stream) :
    unaliasAll streams = streams.map (List.map Token.unalias) := by
  rw [unaliasAll_eq_map]
  exact List.map_congr_left fun stream _ => unaliasStream_eq_map stream

private theorem map_map_of_idempotent {f : Token → Token}
    {streams : List Stream}
    (h : ∀ stream ∈ streams, ∀ t ∈ stream, f (f t) = f t) :
    (streams.map (List.map f)).map (List.map f) = streams.map (List.map f) := by
  rw [List.map_map]
  refine List.map_congr_left fun stream hstream => ?_
  rw [Function.comp_apply, List.map_map]
  exact List.map_congr_left fun t ht => h stream hstream t ht

namespace Token

@[simp] theorem kind_unalias (t : Token) : t.unalias.kind = t.kind := by
  obtain ⟨kind, name, value, test, argument⟩ := t
  cases kind <;> rfl

private theorem unalias_of_ne {t : Token} (h : t.kind ≠ .pseudoClass) :
    t.unalias = t := by
  obtain ⟨kind, name, value, test, argument⟩ := t
  cases kind with
  | pseudoClass => exact absurd rfl h
  | _ => rfl

section PseudoClasses

variable (name value : Option Text) (test : Option AttributeTest)

private theorem unalias_plain {argument : Option (Argument Token)}
    (h : ∀ streams, argument ≠ some (.selectors streams)) :
    unalias ⟨.pseudoClass, name, value, test, argument⟩ =
      ⟨.pseudoClass, name.map PseudoClass.fullName, value, test, argument⟩ := by
  cases argument with
  | none => rfl
  | some argument =>
    cases argument with
    | text t => rfl
    | selectors streams => exact absurd rfl (h streams)

private theorem unalias_nested (streams : List Stream) :
    unalias ⟨.pseudoClass, name, value, test, some (.selectors streams)⟩ =
      ⟨.pseudoClass, name.map PseudoClass.fullName, value, test,
        some (.selectors (streams.map (List.map unalias)))⟩ := by
  rw [← unaliasAll_eq_map_map]
  rfl

end PseudoClasses

/-- Induction where only pseudo-classes are entered: a token is no pseudo-class,
or one without selectors, or one with selectors. -/
@[elab_as_elim]
theorem pseudoClass_induction {motive : Token → Prop}
    (other : ∀ t : Token, t.kind ≠ .pseudoClass → motive t)
    (plain : ∀ name value test argument,
      (∀ streams, argument ≠ some (.selectors streams)) →
      motive ⟨.pseudoClass, name, value, test, argument⟩)
    (nested : ∀ name value test streams,
      (∀ stream ∈ streams, ∀ inner ∈ stream, motive inner) →
      motive ⟨.pseudoClass, name, value, test, some (.selectors streams)⟩)
    (t : Token) : motive t := by
  induction t using nested_induction with
  | step t ih =>
    obtain ⟨kind, name, value, test, argument⟩ := t
    by_cases hkind : kind = .pseudoClass
    · subst hkind
      by_cases hargument : ∃ streams, argument = some (.selectors streams)
      · obtain ⟨streams, rfl⟩ := hargument
        exact nested name value test streams (ih streams rfl)
      · exact plain name value test argument (not_exists.mp hargument)
    · exact other _ hkind

/-- Replacing short names a second time changes nothing. -/
theorem unalias_unalias (t : Token) : t.unalias.unalias = t.unalias := by
  have hname : ∀ name : Option Text,
      (name.map PseudoClass.fullName).map PseudoClass.fullName =
        name.map PseudoClass.fullName := by
    intro name
    rw [Option.map_map]
    exact congrArg (name.map ·) (funext PseudoClass.fullName_fullName)
  induction t using pseudoClass_induction with
  | other t hkind => rw [unalias_of_ne hkind, unalias_of_ne hkind]
  | plain name value test argument hargument =>
    rw [unalias_plain _ _ _ hargument, unalias_plain _ _ _ hargument, hname]
  | nested name value test streams ih =>
    rw [unalias_nested, unalias_nested, hname, map_map_of_idempotent ih]

/-- A token is renamed to its full name. -/
theorem renamedBy_unalias (t : Token) :
    t.RenamedBy PseudoClass.fullName t.unalias := by
  induction t using pseudoClass_induction with
  | other t hkind =>
    rw [unalias_of_ne hkind]
    exact .other hkind
  | plain name value test argument hargument =>
    rw [unalias_plain _ _ _ hargument]
    exact .plain hargument
  | nested name value test streams ih =>
    rw [unalias_nested]
    exact .nested (forall₂_map_map ih)

private theorem name_unalias {t : Token} (h : t.kind = .pseudoClass) :
    t.unalias.name = t.name.map PseudoClass.fullName := by
  obtain ⟨kind, name, value, test, argument⟩ := t
  cases h
  rfl

/-- Selectors in a token with short names replaced were there before. -/
theorem exists_selectors_of_unalias {t : Token} {inner : List Stream}
    (hkind : t.kind = .pseudoClass)
    (h : t.unalias.argument = some (.selectors inner)) :
    ∃ streams, t.argument = some (.selectors streams) ∧
      unaliasAll streams = inner := by
  obtain ⟨kind, name, value, test, argument⟩ := t
  cases hkind
  cases argument with
  | none => cases h
  | some argument =>
    cases argument with
    | text t => cases h
    | selectors streams =>
      cases h
      exact ⟨streams, rfl, rfl⟩

/-- What is reached with short names replaced was reached before, under its own
names. -/
theorem Reached.exists_unalias {t : Token} {streams : List Stream}
    (h : t.Reached (unaliasAll streams)) :
    ∃ u : Token, u.Reached streams ∧ u.unalias = t := by
  have hsource : ∀ {stream : Stream} {outer : Token} {streams : List Stream},
      stream ∈ unaliasAll streams →
      outer ∈ stream → ∃ source ∈ streams, ∃ u ∈ source, u.unalias = outer := by
    intro stream outer streams hstream houter
    rw [unaliasAll_eq_map_map] at hstream
    obtain ⟨source, hsource, rfl⟩ := List.mem_map.mp hstream
    obtain ⟨u, hu, rfl⟩ := List.mem_map.mp houter
    exact ⟨source, hsource, u, hu, rfl⟩
  generalize hresult : unaliasAll streams = result at h
  induction h generalizing streams with
  | here hstream ht =>
    subst hresult
    obtain ⟨source, hmem, u, hu, heq⟩ := hsource hstream ht
    exact ⟨u, .here hmem hu, heq⟩
  | deeper hstream houter hkind hargument ht ih =>
    subst hresult
    obtain ⟨source, hmem, u, hu, rfl⟩ := hsource hstream houter
    rw [kind_unalias] at hkind
    obtain ⟨streams', hargument', hinner⟩ :=
      exists_selectors_of_unalias hkind hargument
    obtain ⟨v, hv, heq⟩ := ih hinner
    exact ⟨v, .deeper hmem hu hkind hargument' hv, heq⟩

end Token

/-- Replacing short names is idempotent. It changes names of pseudo-classes
only, and of those only the short ones; every stream and token stays in its
place, at every depth, and keeps the rest of its fields. Afterwards no
pseudo-class that is reached through selectors of pseudo-classes has a short
name. -/
theorem unaliasAll_renames (streams : List Stream) :
    unaliasAll (unaliasAll streams) = unaliasAll streams ∧
    List.Forall₂ (List.Forall₂ (Token.RenamedBy PseudoClass.fullName)) streams
      (unaliasAll streams) ∧
    (∀ n, PseudoClass.fullName n = n ↔ n ∉ PseudoClass.shortNames) ∧
    ∀ t : Token, t.Reached (unaliasAll streams) → t.kind = .pseudoClass →
      ∀ n ∈ PseudoClass.shortNames, t.name ≠ some n := by
  refine ⟨?_, ?_, fun n => PseudoClass.fullName_eq_self_iff,
    fun t ht hkind n hn hname => ?_⟩
  · rw [unaliasAll_eq_map_map, unaliasAll_eq_map_map]
    exact map_map_of_idempotent fun stream _ t _ => t.unalias_unalias
  · rw [unaliasAll_eq_map_map]
    exact forall₂_map_map fun stream _ t _ => t.renamedBy_unalias
  · obtain ⟨u, -, rfl⟩ := ht.exists_unalias
    rw [Token.kind_unalias] at hkind
    rw [Token.name_unalias hkind] at hname
    obtain ⟨short, -, rfl⟩ := Option.map_eq_some_iff.mp hname
    exact PseudoClass.fullName_not_short short hn

/-- Short names at two depths, and names of other tokens that look like them. -/
def shortInside : List Stream :=
  [[.tag "first", .pseudoClass "not"
    (some (.selectors [[.pseudoElement "last" none, .pseudoClass "last" none,
      .pseudoClass "any"
        (some (.selectors [[.pseudoClass "contains" (some (.text "x"))]]))]]))]]

/-- Short names at two depths are replaced, names of other tokens that look like
them are not. -/
theorem unaliasAll_renames_shortInside :
    unaliasAll shortInside =
        [[.tag "first", .pseudoClass "not"
          (some (.selectors [[.pseudoElement "last" none,
            .pseudoClass "last-child" none, .pseudoClass "any" (some (.selectors
              [[.pseudoClass "text-contains" (some (.text "x"))]]))]]))]] ∧
      unaliasAll (unaliasAll shortInside) = unaliasAll shortInside ∧
      (Token.pseudoClass "text-contains" (some (.text "x"))).Reached
        (unaliasAll shortInside) ∧
      ∀ n ∈ PseudoClass.shortNames,
        (Token.pseudoClass "text-contains" (some (.text "x"))).name ≠
        some n := by
  obtain ⟨hidempotent, -, -, hcomplete⟩ := unaliasAll_renames shortInside
  have hreached : (Token.pseudoClass "text-contains" (some (.text "x"))).Reached
      (unaliasAll shortInside) := by
    refine .deeper List.mem_cons_self
      (List.mem_cons_of_mem _ List.mem_cons_self) rfl rfl ?_
    refine .deeper List.mem_cons_self
      (List.mem_cons_of_mem _ (List.mem_cons_of_mem _ List.mem_cons_self))
      rfl rfl ?_
    exact .here List.mem_cons_self List.mem_cons_self
  exact ⟨rfl, hidempotent, hreached, hcomplete _ hreached rfl⟩

end SelectorPath
