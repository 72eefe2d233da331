import Mathlib
import SelectorPath.Proofs.TypeContext

/-!
# The forward pass seen from a token

The forward pass carries the element name that it has met last in the compound,
forgets it at a combinator, and stops at the first `*-of-type` pseudo-class that
finds none. The same can be told of each token by looking back from it, to the
last type selector of its own compound. A type selector without a name gives no
context, and takes away the one in front of it.

## Main results

* `foldl_passOn`: what the pass carries is what one finds looking back.
* `place_append`: the pass over two streams that are cut between compounds.
* `place_eq`: the pass as a whole, each token told by its place.
* `place_looksBack`: when the pass fails, where, and what every token is given.
-/

namespace SelectorPath

/-! ## Looking back -/

/-- The name of the last type selector in the compound that the tokens end
with. -/
def compoundType (front : Stream) : Option Text :=
  ((front.reverse.takeWhile fun t => !t.kind.isCombinator).find? fun t =>
    t.kind == .tag).bind Token.name

/-- The element name that belongs to the token at a place. -/
def contextAt (stream : Stream) (i : Nat) : Option Text :=
  stream[i]?.bind (Token.given (compoundType (stream.take i)))

/-- Whether the token at a place counts among the elements of a type, and has
none. -/
def isUntypedAt (stream : Stream) (i : Nat) : Bool :=
  stream[i]?.any Token.needsType && (contextAt stream i).isNone

/-- The first place whose token counts among the elements of a type and has
none. -/
def firstUntyped? (stream : Stream) : Option Nat :=
  (List.range stream.length).find? (isUntypedAt stream)

/-! ## The pass over a longer stream -/

/-- The type of a compound with one more token. -/
theorem compoundType_concat (front : Stream) (t : Token) :
    compoundType (front ++ [t]) = t.passOn (compoundType front) := by
  cases hkind : t.kind <;>
      simp [compoundType, Token.passOn, hkind, Kind.isCombinator]

/-- What the pass carries is the type of the compound so far. -/
theorem foldl_passOn (front : Stream) :
    front.foldl Token.passOn none = compoundType front := by
  induction front using List.reverseRecOn with
  | nil => rfl
  | append_singleton front t ih =>
    rw [List.foldl_concat, ih, compoundType_concat]

/-- Between two compounds the pass starts anew: behind a combinator, or in front
of one. -/
theorem place_append {front back : Stream}
    (htyped : (place front).untyped? = none)
    (hcut : compoundType front = none ∨
      back.head?.all (·.kind.isCombinator) = true) :
    place (front ++ back) =
      ⟨(place front).tokens ++ (place back).tokens, (place back).untyped?⟩ := by
  have hback : placeFrom (compoundType front) back = place back := by
    rcases hcut with hnone | hcombinator
    · rw [hnone, place]
    · cases back with
      | nil => rfl
      | cons t rest =>
        obtain ⟨c, hkind⟩ := Kind.eq_combinator hcombinator
        rw [place, placeFrom, placeFrom, hkind]
  rw [place, placeFrom_append_of_typed back htyped, foldl_passOn, hback]
  rfl

/-- The pass over one more token. -/
theorem place_concat_of_typed {front : Stream} (t : Token)
    (h : (place front).untyped? = none) :
    place (front ++ [t]) =
      if t.needsType && (compoundType front).isNone then
        ⟨(place front).tokens ++ [⟨t, none⟩], some t.label⟩
      else ⟨(place front).tokens ++ [⟨t, t.given (compoundType front)⟩],
        none⟩ := by
  rw [place, placeFrom_append_of_typed [t] h, foldl_passOn, placeFrom_cons]
  split
  · rfl
  · rfl

/-! ## Places -/

private theorem contextAt_concat_of_lt {front : Stream} {i : Nat}
    (h : i < front.length) (t : Token) :
    contextAt (front ++ [t]) i = contextAt front i := by
  rw [contextAt, contextAt, List.getElem?_append_left h,
    List.take_append_of_le_length h.le]

private theorem isUntypedAt_concat_of_lt {front : Stream} {i : Nat}
    (h : i < front.length) (t : Token) :
    isUntypedAt (front ++ [t]) i = isUntypedAt front i := by
  rw [isUntypedAt, isUntypedAt, contextAt_concat_of_lt h,
    List.getElem?_append_left h]

private theorem contextAt_concat_length (front : Stream) (t : Token) :
    contextAt (front ++ [t]) front.length = t.given (compoundType front) := by
  rw [contextAt, List.getElem?_concat_length, Option.bind_some, List.take_left]

private theorem Token.given_of_needsType {t : Token} (h : t.needsType = true)
    (type : Option Text) :
    t.given type = type := by
  simp only [Token.needsType, Bool.and_eq_true, beq_iff_eq] at h
  rw [Token.given, h.1]
  rfl

private theorem isUntypedAt_concat_length (front : Stream) (t : Token) :
    isUntypedAt (front ++ [t]) front.length =
      (t.needsType && (compoundType front).isNone) := by
  rw [isUntypedAt, contextAt_concat_length, List.getElem?_concat_length,
    Option.any_some]
  cases hneeds : t.needsType with
  | false => rfl
  | true => rw [Token.given_of_needsType hneeds]

private theorem firstUntyped?_concat (front : Stream) (t : Token) :
    firstUntyped? (front ++ [t]) = (firstUntyped? front).or
      (if t.needsType && (compoundType front).isNone then some front.length
        else none) := by
  have hfront : (List.range front.length).find? (isUntypedAt (front ++ [t])) =
      firstUntyped? front :=
    List.find?_congr fun i hi =>
      isUntypedAt_concat_of_lt (List.mem_range.mp hi) t
  rw [firstUntyped?, List.length_append, List.length_singleton, List.range_succ,
    List.find?_append, hfront, List.find?_singleton, isUntypedAt_concat_length]

private theorem lt_length_of_isUntypedAt {stream : Stream} {i : Nat}
    (h : isUntypedAt stream i = true) :
    i < stream.length := by
  by_contra hge
  rw [isUntypedAt, List.getElem?_eq_none (not_lt.mp hge)] at h
  cases h

private theorem firstUntyped?_eq_some_iff {stream : Stream} {i : Nat} :
    firstUntyped? stream = some i ↔
      isUntypedAt stream i = true ∧ ∀ j < i, isUntypedAt stream j = false := by
  rw [firstUntyped?, List.find?_range_eq_some]
  simp only [Bool.not_eq_true', List.mem_range]
  exact ⟨fun h => ⟨h.1, h.2.2⟩,
    fun h => ⟨h.1, lt_length_of_isUntypedAt h.1, h.2⟩⟩

private theorem firstUntyped?_eq_none_iff {stream : Stream} :
    firstUntyped? stream = none ↔ ∀ i, isUntypedAt stream i = false := by
  rw [firstUntyped?, List.find?_range_eq_none]
  constructor
  · intro h i
    by_cases hi : i < stream.length
    · simpa using h i hi
    · cases huntyped : isUntypedAt stream i with
      | false => rfl
      | true => exact absurd (lt_length_of_isUntypedAt huntyped) hi
  · intro h i _
    simp [h i]

private theorem length_place (stream : Stream) :
    (place stream).tokens.length = stream.length := by
  have hmap := congrArg List.length (map_token_placeFrom none stream)
  rwa [List.length_map] at hmap

/-- One more token leaves the places in front of it as they are; `stop` is where
the pass stops. -/
theorem getElem?_place_concat {front : Stream} {t : Token} {stop : Option Nat}
    {given : Option Text}
    (hfront : ∀ i < front.length, (place front).tokens[i]? =
      front[i]?.map fun t =>
      (⟨t, if stop.all (i < ·) then contextAt front i else none⟩ : Placed))
    (hlast : given =
      if stop.all (front.length < ·) then t.given (compoundType front)
      else none)
    (i : Nat) :
    ((place front).tokens ++ [⟨t, given⟩])[i]? =
      (front ++ [t])[i]?.map fun t' =>
      (⟨t', if stop.all (i < ·) then contextAt (front ++ [t]) i
        else none⟩ : Placed) := by
  rcases Nat.lt_trichotomy i front.length with hi | rfl | hi
  · rw [List.getElem?_append_left (by rwa [length_place]),
      List.getElem?_append_left hi, hfront i hi, contextAt_concat_of_lt hi]
  · have hplaced : ((place front).tokens ++
        [(⟨t, given⟩ : Placed)])[front.length]? = some ⟨t, given⟩ := by
      rw [← length_place front, List.getElem?_concat_length]
    rw [hplaced, List.getElem?_concat_length, Option.map_some,
      contextAt_concat_length, hlast]
  · have hbeyond : ∀ {α : Type} {l : List α} (a : α), l.length = front.length →
        (l ++ [a])[i]? = none := by
      intro α l a hl
      rw [List.getElem?_eq_none]
      rw [List.length_append, List.length_singleton]
      omega
    rw [hbeyond _ (length_place front), hbeyond t rfl, Option.map_none]

/-- What the pass gives to the token at a place, and where it stops. -/
theorem place_eq (stream : Stream) :
    (∀ i, (place stream).tokens[i]? = stream[i]?.map fun t =>
      (⟨t, if (firstUntyped? stream).all (i < ·) then contextAt stream i
        else none⟩ : Placed)) ∧
    (place stream).untyped? = (firstUntyped? stream).bind fun i =>
      stream[i]?.map Token.label := by
  induction stream using List.reverseRecOn with
  | nil => exact ⟨fun i => rfl, rfl⟩
  | append_singleton front t ih =>
    obtain ⟨htokens, hstop⟩ := ih
    rw [firstUntyped?_concat]
    cases hfirst : firstUntyped? front with
    | some k =>
      rw [hfirst] at htokens hstop
      have hk :=
        lt_length_of_isUntypedAt (firstUntyped?_eq_some_iff.mp hfirst).1
      obtain ⟨token, htoken⟩ : ∃ token, front[k]? = some token :=
        ⟨_, List.getElem?_eq_getElem hk⟩
      rw [Option.bind_some, htoken, Option.map_some] at hstop
      rw [place, placeFrom_append_of_untyped [t] hstop]
      refine ⟨getElem?_place_concat (fun i _ => htokens i) ?_, ?_⟩
      · simp [hk.not_gt]
      · simp [List.getElem?_append_left hk, htoken]
    | none =>
      rw [hfirst] at htokens hstop
      rw [place_concat_of_typed t hstop]
      split
      · refine ⟨getElem?_place_concat (fun i hi => ?_) ?_, ?_⟩
        · simp [htokens, hi]
        · simp
        · simp
      · exact ⟨getElem?_place_concat (fun i _ => htokens i) rfl, rfl⟩

/-- The forward pass and its specification by looking back. It keeps every
token. It fails exactly if some `*-of-type` pseudo-class has no type, and names
the first of them. Every token in front of that one, or every token if there is
none, is given its own context, and all others are given none. -/
theorem place_looksBack (stream : Stream) :
    (place stream).tokens.map Placed.token = stream ∧
    ((∃ name, (place stream).untyped? = some name) ↔
      ∃ i, isUntypedAt stream i = true) ∧
    ((place stream).untyped? = none →
      ∀ i p, (place stream).tokens[i]? = some p →
        p.context = contextAt stream i) ∧
    ∀ i t, stream[i]? = some t → isUntypedAt stream i = true →
      (∀ j < i, isUntypedAt stream j = false) →
      (place stream).untyped? = some t.label ∧
      XPath.locationPath stream = .error (.missingType t.label) ∧
      ∀ j p, (place stream).tokens[j]? = some p →
        p.context = if j < i then contextAt stream j else none := by
  obtain ⟨htokens, hstop⟩ := place_eq stream
  have hcontext : ∀ i p, (place stream).tokens[i]? = some p →
      p.context = if (firstUntyped? stream).all (i < ·) then contextAt stream i
        else none := by
    intro i p hp
    rw [htokens, Option.map_eq_some_iff] at hp
    obtain ⟨t, -, rfl⟩ := hp
    rfl
  refine ⟨map_token_placeFrom none stream, ?_, ?_, ?_⟩
  · rw [hstop]
    cases hfirst : firstUntyped? stream with
    | none => simpa using firstUntyped?_eq_none_iff.mp hfirst
    | some k =>
      have huntyped := (firstUntyped?_eq_some_iff.mp hfirst).1
      have hk := lt_length_of_isUntypedAt huntyped
      exact iff_of_true ⟨_,
        by rw [Option.bind_some, List.getElem?_eq_getElem hk, Option.map_some]⟩
        ⟨k, huntyped⟩
  · intro htyped i p hp
    have hfirst : firstUntyped? stream = none := by
      cases hfirst : firstUntyped? stream with
      | none => rfl
      | some k =>
        have hk :=
          lt_length_of_isUntypedAt (firstUntyped?_eq_some_iff.mp hfirst).1
        rw [hstop, hfirst, Option.bind_some, List.getElem?_eq_getElem hk]
          at htyped
        cases htyped
    rw [hcontext i p hp, hfirst]
    rfl
  · intro i t ht huntyped hbefore
    have hfirst : firstUntyped? stream = some i :=
      firstUntyped?_eq_some_iff.mpr ⟨huntyped, hbefore⟩
    have hname : (place stream).untyped? = some t.label := by
      rw [hstop, hfirst, Option.bind_some, ht, Option.map_some]
    refine ⟨hname, ?_, ?_⟩
    · rw [XPath.locationPath, untyped?_place_fromTop, hname]
    · intro j p hp
      simpa [hfirst] using hcontext j p hp

/-- A compound with three type selectors, the last of them without a name. -/
def retyped : Stream :=
  [.tag "a", .pseudoClass "first-of-type" none, .tag "b",
    .pseudoClass "first-child" none, { kind := .tag },
    .pseudoClass "last-of-type" none, .pseudoClass "first-child" none]

/-- The last type selector in front of a token counts, and the pass stops behind
the nameless one. -/
theorem place_looksBack_retyped :
    (place retyped).untyped? = some "last-of-type" ∧
      (List.range 5).map (contextAt retyped) =
        [none, some ("a" : Text), none, some ("b" : Text), none] ∧
      ∀ j p, (place retyped).tokens[j]? = some p →
        p.context = if j < 5 then contextAt retyped j else none := by
  obtain ⟨-, -, -, hstops⟩ := place_looksBack retyped
  obtain ⟨hname, -, hcontext⟩ := hstops 5 _ rfl (by decide) (by decide)
  exact ⟨hname, by decide, hcontext⟩

end SelectorPath
