import Mathlib
import SelectorPath.Proofs.NestedPredicates
import SelectorPath.Proofs.ParsedShape

/-!
# Alternatives of a selector list

The predicate of a selector list joins the conditions of each alternative by
`and` and the alternatives by `or`. An alternative without a condition, such as
`*`, says nothing. Alone it is true. Beside others it is left out as an empty
text, so it counts as false there: the predicate is that of the other
alternatives.

## Main results

* `subExpression_of_tokenStreams`: the predicate of a selector list from its
  streams.
* `isReadable_stated`: the fragments of sound tokens may be true or false
  independently of each other.
* `truth_subExpression_iff`: which alternatives make a predicate true.
-/

namespace SelectorPath

open XPath

/-- The fragments of the conditions of a stream. -/
def stated (stream : Stream) : List Text :=
  (stream.filter isCondition).flatMap fragments

/-- A stream without conditions, or with empty ones only. -/
def IsSilent (stream : Stream) : Prop :=
  ∀ f ∈ stated stream, f = []

/-- All conditions of a stream are true. -/
def Holds (atoms v : Text → Bool) (stream : Stream) : Prop :=
  ∀ f ∈ stated stream, truth atoms v f = true

/-- An alternative that says nothing holds whatever the truth of the fragments
is. -/
theorem IsSilent.holds {stream : Stream} (h : IsSilent stream)
    (atoms v : Text → Bool) : Holds atoms v stream := by
  intro f hf
  rw [h f hf]
  exact truth_nil

/-- The predicate of a selector is made from the conditions of its streams. -/
theorem subExpression_of_tokenStreams {registry : Registry} {selector : Text}
    {streams : List Stream} (h : tokenStreams registry selector = .ok streams) :
    subExpression registry selector =
      streamsExpression .or (streams.map (List.filter isCondition)) := by
  unfold tokenStreams at h
  obtain ⟨expanded, hexpanded, h⟩ := bind_eq_ok_iff.mp h
  obtain ⟨parsed, hparsed, h⟩ := bind_eq_ok_iff.mp h
  cases h
  rw [mapError_eq_ok_iff] at hparsed
  rw [subExpression, hexpanded]
  show XPath.subExpression expanded = _
  rw [XPath.subExpression]
  split
  · rename_i e he
    exact absurd (he.symm.trans hparsed) (by simp)
  · rename_i streams hstreams
    rw [hstreams, Except.ok.injEq] at hparsed
    rw [hparsed]
    rfl

/-- The fragments of sound tokens may be true or false independently of each
other: none of them is taken for a predicate that was put together. -/
theorem isReadable_stated {streams : List Stream} {atoms : Text → Bool}
    (hsound : ∀ stream ∈ streams, ∀ t ∈ stream.filter isCondition,
      t.isSound = true ∧ filters t = .ok (fragments t))
    (hatoms : ∀ f, atoms f = true → ∃ stream ∈ streams, f ∈ stated stream) :
    (∀ stream ∈ streams, IsReadable atoms .and (stated stream)) ∧
      IsReadable atoms .or (streams.map fun stream =>
        flatten .and (stated stream)) := by
  have hread : ∀ stream ∈ streams, ∀ f ∈ stated stream, IsRegular f ∧
      IsFragment f := by
    intro stream hstream f hf
    obtain ⟨t, ht, hf⟩ := List.mem_flatMap.mp hf
    obtain ⟨hsound, hfilters⟩ := hsound stream hstream t ht
    have hleaf : ∀ l, t.leaves.contains l = true → IsLeaf l :=
      fun l hl => isLeaf_of_mem_leaves hsound l (List.contains_iff_mem.mp hl)
    have hback : IsReadBack (fun l => t.leaves.contains l) (fun _ => true) t :=
      isReadBack_of_isSound hleaf hsound
        (fun l hl => List.contains_iff_mem.mpr hl) hfilters
    exact ⟨hback.isRegular f hf, hback.isFragment f hf⟩
  have hfragment : ∀ f, atoms f = true → IsFragment f := by
    intro f hf
    obtain ⟨stream, hstream, hf⟩ := hatoms f hf
    exact (hread stream hstream f hf).2
  constructor
  · intro stream hstream
    exact isReadable_of_isRegular hfragment .and fun f hf _ =>
      (hread stream hstream f hf).1
  · refine isReadable_of_isRegular hfragment .or fun p hp hne => ?_
    obtain ⟨stream, hstream, rfl⟩ := List.mem_map.mp hp
    have hstated : stated stream ≠ [] := by
      intro hnil
      rw [hnil] at hne
      exact hne rfl
    exact isRegular_flatten .and hstated fun f hf =>
      (hread stream hstream f hf).1

/-- Which alternatives make a predicate true: one that says something and holds,
or none says anything. So the predicate is true where an alternative holds,
except that one which says nothing counts for nothing beside another that
does. -/
theorem truth_subExpression_iff {registry : Registry} {selector : Text}
    {streams : List Stream} {text : Text}
    (hstreams : tokenStreams registry selector = .ok streams)
    (h : subExpression registry selector = .ok text) {atoms : Text → Bool}
    (hand : ∀ stream ∈ streams, IsReadable atoms .and (stated stream))
    (hor : IsReadable atoms .or (streams.map fun stream =>
      flatten .and (stated stream)))
    (v : Text → Bool) :
    (truth atoms v text = true ↔
      (∀ stream ∈ streams, IsSilent stream) ∨ ∃ stream ∈ streams,
        ¬IsSilent stream ∧ Holds atoms v stream) ∧
    ((truth atoms v text = true ↔ ∃ stream ∈ streams, Holds atoms v stream) ↔
      ¬((∃ stream ∈ streams, IsSilent stream) ∧
        (∃ stream ∈ streams, ¬IsSilent stream) ∧
        ∀ stream ∈ streams, Holds atoms v stream → IsSilent stream)) := by
  have htruth : truth atoms v text = true ↔
      (∀ stream ∈ streams, IsSilent stream) ∨ ∃ stream ∈ streams,
        ¬IsSilent stream ∧ Holds atoms v stream := by
    rw [subExpression_of_tokenStreams hstreams] at h
    obtain ⟨predicates, hpredicates, h⟩ := bind_eq_ok_iff.mp h
    cases h
    obtain ⟨-, rfl⟩ := streamsFilters_eq_ok_iff.mp hpredicates
    rw [List.map_map]
    refine (truth_flatten_or hor).trans (or_congr ?_ ?_)
    · rw [List.forall_mem_map]
      exact forall₂_congr fun stream _ => flatten_eq_nil_iff .and
    · simp only [List.mem_map, exists_exists_and_eq_and]
      exact exists_congr fun stream => and_congr_right fun hstream =>
        and_congr (not_congr (flatten_eq_nil_iff .and))
          (truth_flatten_and (hand stream hstream))
  have hholds : (∃ stream ∈ streams, Holds atoms v stream) ↔
      (∃ stream ∈ streams, IsSilent stream) ∨ ∃ stream ∈ streams,
        ¬IsSilent stream ∧ Holds atoms v stream := by
    constructor
    · rintro ⟨stream, hstream, hholds⟩
      by_cases hsilent : IsSilent stream
      · exact .inl ⟨stream, hstream, hsilent⟩
      · exact .inr ⟨stream, hstream, hsilent, hholds⟩
    · rintro (⟨stream, hstream, hsilent⟩ | ⟨stream, hstream, -, hholds⟩)
      · exact ⟨stream, hstream, hsilent.holds atoms v⟩
      · exact ⟨stream, hstream, hholds⟩
  have hother : (∀ stream ∈ streams, Holds atoms v stream → IsSilent stream) ↔
      ¬∃ stream ∈ streams, ¬IsSilent stream ∧ Holds atoms v stream := by
    push Not
    exact forall₂_congr fun stream _ => not_imp_not.symm
  have hsome : (∃ stream ∈ streams, ¬IsSilent stream) ↔
      ¬∀ stream ∈ streams, IsSilent stream := by
    push Not
    rfl
  -- a selector list is not empty, so where all alternatives are silent one is
  have hfirst : (∀ stream ∈ streams, IsSilent stream) → ∃ stream ∈ streams,
      IsSilent stream := by
    obtain ⟨first, hfirst⟩ :=
      List.exists_mem_of_ne_nil streams (isParsed_of_tokenStreams hstreams).1
    exact fun h => ⟨first, hfirst, h first hfirst⟩
  refine ⟨htruth, ?_⟩
  rw [htruth, hholds, hother, hsome]
  constructor
  · rintro hiff ⟨hsilent, hsaid, hnone⟩
    exact (hiff.mpr (.inl hsilent)).elim hsaid hnone
  · intro hnot
    refine ⟨Or.imp_left hfirst, ?_⟩
    rintro (hsilent | hone)
    · by_contra hfalse
      rw [not_or] at hfalse
      exact hnot ⟨hsilent, hfalse⟩
    · exact .inr hone

/-- The streams of `*, a`. -/
def universalBesideTag : List Stream :=
  [[.universal], [.tag "a"]]

private theorem tokenStreams_universalBesideTag :
    tokenStreams {} "*, a" = .ok universalBesideTag := by
  have hexpand : ({} : Registry).expand "*, a" = .ok "*, a" := by cbv
  have hparse : Selector.parse "*, a" = .ok universalBesideTag := by cbv
  rw [tokenStreams, hexpand]
  show ((Selector.parse "*, a").mapError SelectorError.malformed >>=
      fun streams => .ok (unaliasAll streams)) = _
  rw [hparse]
  rfl

private theorem filters_tag_a :
    filters (.tag "a") = .ok ["translate(name(), 'a', 'A') = 'A'"] := by
  rw [Draft.filters_of_tag rfl]
  rfl

private theorem stated_tag_a :
    stated [.tag "a"] = [("translate(name(), 'a', 'A') = 'A'" : Text)] := by
  show [Token.tag "a"].flatMap fragments = _
  rw [List.flatMap_cons, List.flatMap_nil, fragments_of_filters filters_tag_a]
  rfl

/-- `*` holds of every element, and the predicate of `*, a` does not. -/
theorem truth_subExpression_universalBesideTag :
    subExpression {} "*, a" = .ok ("translate(name(), 'a', 'A') = 'A'" : Text) ∧
      Holds (· == "translate(name(), 'a', 'A') = 'A'".toList) (fun _ => false)
        [.universal] ∧
      truth (· == "translate(name(), 'a', 'A') = 'A'".toList) (fun _ => false)
        "translate(name(), 'a', 'A') = 'A'" = false := by
  have hout : subExpression {} "*, a" =
      .ok ("translate(name(), 'a', 'A') = 'A'" : Text) := by
    rw [subExpression_of_tokenStreams tokenStreams_universalBesideTag]
    show (streamsFilters [[], [.tag "a"]] >>= _) = _
    rw [streamsFilters, streamFilters, streamsFilters, streamFilters,
      filters_tag_a, streamFilters, streamsFilters]
    rfl
  have htag : [Token.tag "a"] ∈ universalBesideTag :=
    List.mem_cons_of_mem _ List.mem_cons_self
  have hsound : ∀ stream ∈ universalBesideTag, ∀ t ∈ stream.filter isCondition,
      t.isSound = true ∧ filters t = .ok (fragments t) := by
    intro stream hstream t ht
    rcases List.mem_pair.mp hstream with rfl | rfl
    · exact absurd ht List.not_mem_nil
    · rw [List.mem_singleton.mp ht, fragments_of_filters filters_tag_a]
      exact ⟨by decide, filters_tag_a⟩
  have hatoms : ∀ f : Text,
      (f == "translate(name(), 'a', 'A') = 'A'".toList) = true →
      ∃ stream ∈ universalBesideTag, f ∈ stated stream := by
    intro f hf
    refine ⟨_, htag, ?_⟩
    rw [stated_tag_a, List.mem_singleton]
    exact eq_of_beq hf
  have hread := isReadable_stated hsound hatoms
  have hsilent : IsSilent [.universal] := fun f hf => absurd hf List.not_mem_nil
  refine ⟨hout, hsilent.holds _ _, Bool.eq_false_iff.mpr fun htrue => ?_⟩
  obtain ⟨hiff, -⟩ := truth_subExpression_iff tokenStreams_universalBesideTag
    hout hread.1 hread.2 fun _ => false
  rcases hiff.mp htrue with hall | ⟨stream, hstream, hsaid, hholds⟩
  · have hnil := hall _ htag
    rw [IsSilent, stated_tag_a] at hnil
    exact absurd (hnil _ List.mem_cons_self) (by decide)
  · rcases List.mem_pair.mp hstream with rfl | rfl
    · exact hsaid hsilent
    · rw [Holds, stated_tag_a] at hholds
      have hatom := hholds _ List.mem_cons_self
      rw [truth_of_atom (by decide) (by simp)] at hatom
      exact absurd hatom (by decide)

end SelectorPath
