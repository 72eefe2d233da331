import Mathlib
import SelectorPath.Proofs.WellFormed

/-!
# Type selectors in front of `*-of-type`

A `*-of-type` pseudo-class counts among the elements of one type, so a type
selector has to stand before it: in its own compound or, inside the argument of
`:not`, in the compound of that `:not` or of one around it. The forward pass
looks at the outermost tokens only. There it refuses exactly the pseudo-classes
without a type; inside `:not` nothing is refused, and `:not(:first-of-type)`
counts among all elements.

## Main results

* `untyped?_place_eq_none_iff`: what the forward pass accepts.
* `XPath.compile_ok_iff_outer_typed`: a selector compiles exactly if its
  outermost tokens can be written and every `*-of-type` among them has its type,
  whatever stands inside `:not`.
-/

namespace SelectorPath

/-! ## Types of compounds -/

/-- Whether a type selector stands in the compound at the end of the tokens. -/
def endsTyped (front : Stream) : Bool :=
  (front.reverse.takeWhile fun t => !t.kind.isCombinator).any fun t =>
    t.kind == .tag

/-- A token in a stream, at any depth in the arguments of `:not`. For its own
compound and for each that encloses it, from the inside out, `typed` tells
whether a type selector stands in front there. -/
inductive Occurs : Stream → (typed : List Bool) → Token → Prop
  | here (front back : Stream) (t : Token) :
    Occurs (front ++ t :: back) [endsTyped front] t
  | inside (front back : Stream) {inner : Stream} {outer t : Token}
    {streams : List Stream} {typed : List Bool}
    (hnot : outer.pseudo? = some .not)
    (hargument : outer.argument = some (.selectors streams))
    (hinner : inner ∈ streams) (h : Occurs inner typed t) :
    Occurs (front ++ outer :: back) (typed ++ [endsTyped front]) t

private theorem Occurs.length_pos {stream : Stream} {typed : List Bool}
    {t : Token} (h : Occurs stream typed t) :
    0 < typed.length := by
  cases h with
  | here => simp
  | inside => simp

/-! ## The forward pass -/

private theorem endsTyped_tag (front : Stream) {t : Token} (h : t.kind = .tag) :
    endsTyped (front ++ [t]) = true := by
  simp [endsTyped, h, Kind.isCombinator]

private theorem endsTyped_combinator (front : Stream) {t : Token}
    (h : t.kind.isCombinator = true) :
    endsTyped (front ++ [t]) = false := by
  simp [endsTyped, h]

private theorem endsTyped_concat (front : Stream) {t : Token}
    (htag : t.kind ≠ .tag) (hcombinator : t.kind.isCombinator = false) :
    endsTyped (front ++ [t]) = endsTyped front := by
  simp [endsTyped, hcombinator, htag]

/-- Whether the type context that a pass has so far is the one of the tokens
before. -/
def Tracks (before : Stream) (current : Option Text) : Prop :=
  current.isSome = endsTyped before

private theorem forall_split_cons_iff {token : Token} {rest : Stream}
    {P : Stream → Token → Prop} :
    (∀ front t back, token :: rest = front ++ t :: back → P front t) ↔
      P [] token ∧ ∀ front t back, rest = front ++ t :: back →
        P (token :: front) t := by
  constructor
  · intro h
    refine ⟨h [] token rest rfl, fun front t back hrest =>
      h (token :: front) t back ?_⟩
    rw [hrest, List.cons_append]
  · rintro ⟨hfirst, hrest⟩ front t back heq
    cases front with
    | nil =>
      obtain ⟨rfl, -⟩ := List.cons.inj heq
      exact hfirst
    | cons d front =>
      obtain ⟨rfl, hback⟩ := List.cons.inj heq
      exact hrest front t back hback

/-- The pass reaches the end exactly if every `*-of-type` has a type selector
before it. -/
theorem untyped?_placeFrom_eq_none_iff {before stream : Stream}
    {current : Option Text}
    (hnamed : ∀ t ∈ stream, t.kind = .tag → t.name.isSome = true)
    (htracks : Tracks before current) :
    (placeFrom current stream).untyped? = none ↔
      ∀ front t back, stream = front ++ t :: back → t.needsType = true →
        endsTyped (before ++ front) = true := by
  induction stream generalizing before current with
  | nil => simp [placeFrom]
  | cons token rest ih =>
    have hrest : ∀ t ∈ rest, t.kind = .tag → t.name.isSome = true := fun t ht =>
      hnamed t (List.mem_cons_of_mem token ht)
    -- The tokens before the rest end in the token itself.
    have hstep : ∀ {current' : Option Text},
        Tracks (before ++ [token]) current' →
        ((placeFrom current' rest).untyped? = none ↔
          ∀ front t back, rest = front ++ t :: back → t.needsType = true →
            endsTyped (before ++ token :: front) = true) := fun htracks' => by
      rw [ih hrest htracks']
      simp only [List.append_assoc, List.singleton_append]
    rw [forall_split_cons_iff (P := fun front t => t.needsType = true →
      endsTyped (before ++ front) = true), List.append_nil, placeFrom]
    split
    · rename_i hkind
      have hfree := needsType_of_kind (t := token) (by rw [hkind]; decide)
      have htracks' : Tracks (before ++ [token]) token.name := by
        rw [Tracks, endsTyped_tag before hkind]
        exact hnamed token List.mem_cons_self hkind
      simpa [hfree, Placement.cons] using hstep htracks'
    · rename_i c hkind
      have hfree := needsType_of_kind (t := token) (by rw [hkind]; rintro ⟨⟩)
      have htracks' : Tracks (before ++ [token]) none := by
        rw [Tracks, endsTyped_combinator before (by rw [hkind]; rfl)]
        rfl
      simpa [hfree, Placement.cons] using hstep htracks'
    · rename_i htag hcombinator
      have hother : token.kind.isCombinator = false := by
        cases hkind : token.kind with
        | combinator c => exact absurd hkind (hcombinator c)
        | _ => rfl
      have htracks' : Tracks (before ++ [token]) current := by
        rw [Tracks, endsTyped_concat before htag hother]
        exact htracks
      rw [Tracks] at htracks
      split
      · rename_i huntyped
        simp only [Bool.and_eq_true, Option.isNone_iff_eq_none] at huntyped
        rw [huntyped.2, Option.isSome_none] at htracks
        simp [huntyped.1, ← htracks]
      · rename_i htyped
        rw [← htracks]
        have hfirst : token.needsType = true → current.isSome = true :=
          fun hneeds => by
          simpa [hneeds, Option.isSome_iff_ne_none] using htyped
        rw [and_iff_right hfirst, ← hstep htracks']
        rfl

private theorem label_of_pseudo? {t : Token} {pseudo : PseudoClass}
    (h : t.pseudo? = some pseudo) :
    t.label = pseudo.name := by
  rw [Token.pseudo?, if_pos (kind_of_pseudo? h)] at h
  unfold PseudoClass.ofName? at h
  have hname := List.find?_some h
  exact (beq_iff_eq.mp hname).symm

/-- What stands at the top changes nothing for the pass. -/
theorem untyped?_place_fromTop (stream : Stream) :
    (place (XPath.fromTop stream)).untyped? = (place stream).untyped? := by
  cases stream with
  | nil => rfl
  | cons token rest =>
    rw [XPath.fromTop]
    split
    · rename_i hroot
      have hkind := kind_of_pseudo? hroot
      have hfree : token.needsType = false := by
        rw [Token.needsType, label_of_pseudo? hroot]
        exact Bool.and_false _
      have hplace : place (token :: rest) =
          .cons ⟨token, none⟩ (place rest) := by
        rw [place, placeFrom, hkind, hfree]
        rfl
      rw [hplace]
      rfl
    · rfl

/-- The pass accepts a stream exactly if every `*-of-type` of its outermost
tokens has its type. -/
theorem untyped?_place_eq_none_iff {stream : Stream}
    (hparsed : IsParsed stream) :
    (place stream).untyped? = none ↔
      ∀ typed t, Occurs stream typed t → t.needsType = true → true ∈ typed ∨
        1 < typed.length := by
  have hnamed : ∀ t ∈ stream, t.kind = .tag → t.name.isSome = true :=
    fun t ht hkind => by
    have hlabel := hparsed.named t ht hkind
    rw [Token.label] at hlabel
    cases hname : t.name with
    | none => simp [hname] at hlabel
    | some name => rfl
  have htracks : Tracks [] none := rfl
  rw [place, untyped?_placeFrom_eq_none_iff hnamed htracks]
  constructor
  · intro h typed t ht hneeds
    cases ht with
    | here front back =>
      have htyped : endsTyped front = true := h front t back rfl hneeds
      exact .inl (by simp [htyped])
    | inside front back hnot hargument hinner hdeep =>
      have hpos := hdeep.length_pos
      exact .inr (by simp [hpos])
  · rintro h front t back rfl hneeds
    simpa using h _ t (.here front back t) hneeds

namespace XPath

/-! ## Compiled selectors -/

private theorem locationPath_ok_iff {stream : Stream}
    (hparsed : IsParsed stream) :
    (∃ out, locationPath stream = .ok out) ↔
      (∀ t ∈ fromTop stream, Draft.isWritable t) ∧
        ∀ typed t, Occurs stream typed t → t.needsType = true → true ∈ typed ∨
          1 < typed.length := by
  have hwritten :=
    Draft.advanceAll_ok_iff {} none (place (fromTop stream)).tokens
  rw [← List.forall_mem_map (f := Placed.token) (P := Draft.isWritable), place,
    map_token_placeFrom] at hwritten
  rw [← untyped?_place_eq_none_iff hparsed, ← hwritten,
    ← untyped?_place_fromTop]
  simp only [locationPath_eq_ok_iff]
  constructor
  · rintro ⟨out, htyped, d, hd, -⟩
    exact ⟨⟨d, hd⟩, htyped⟩
  · rintro ⟨⟨d, hd⟩, htyped⟩
    exact ⟨d.render, htyped, d, hd, rfl⟩

private theorem mapM_locationPath_ok_iff {streams : List Stream} :
    (∃ paths, streams.mapM locationPath = .ok paths) ↔
      ∀ stream ∈ streams, ∃ path, locationPath stream = .ok path := by
  constructor
  · rintro ⟨paths, hpaths⟩ stream hstream
    exact ⟨_, (mapM_locationPath hpaths).2 stream hstream⟩
  · intro h
    induction streams with
    | nil => exact ⟨[], rfl⟩
    | cons stream streams ih =>
      rw [List.forall_mem_cons] at h
      obtain ⟨path, hpath⟩ := h.1
      obtain ⟨paths, hpaths⟩ := ih h.2
      refine ⟨path :: paths, ?_⟩
      rw [List.mapM_cons, hpath, hpaths]
      rfl

/-- A selector compiles exactly if the outermost tokens can be written and every
`*-of-type` among them has a type selector before it in its compound. One inside
`:not` needs none. -/
theorem compile_ok_iff_outer_typed {registry : Registry} {selector : Text}
    {streams : List Stream}
    (hstreams : tokenStreams registry selector = .ok streams) :
    (∃ out, compile registry selector = .ok out) ↔
      ∀ stream ∈ streams, (∀ t ∈ fromTop stream, Draft.isWritable t) ∧
        ∀ typed t, Occurs stream typed t → t.needsType = true → true ∈ typed ∨
          1 < typed.length := by
  obtain ⟨-, hparsed⟩ := isParsed_of_tokenStreams hstreams
  have hpaths : (∃ out, compile registry selector = .ok out) ↔
      ∃ paths, streams.mapM locationPath = .ok paths := by
    rw [compile, hstreams]
    show (∃ out, streamsPath streams = .ok out) ↔ _
    simp only [streamsPath, bind_eq_ok_iff]
    constructor
    · rintro ⟨out, paths, hpaths, -⟩
      exact ⟨paths, hpaths⟩
    · rintro ⟨paths, hpaths⟩
      exact ⟨union paths, paths, hpaths, rfl⟩
  rw [hpaths, mapM_locationPath_ok_iff]
  exact forall₂_congr fun stream hstream =>
    locationPath_ok_iff (hparsed stream hstream)

/-- The stream of `:not(:first-of-type)`. -/
def untypedInside : Stream :=
  [.pseudoClass "not" (some (.selectors [[.pseudoClass "first-of-type" none]]))]

private theorem tokenStreams_untypedInside :
    tokenStreams {} ":not(:first-of-type)" = .ok [untypedInside] := by
  have hfirst : Selector.readItem ':' "first-of-type" =
      .ok (.token (.pseudoClass "first-of-type" none), []) := by
    cbv
  have hnot : Selector.readItem ':' "not(:first-of-type)" =
      .ok (.nested "not" ":first-of-type" 1, []) := by
    cbv
  have hend : Selector.parseFrom .simple [] = .ok ([], []) := by
    rw [Selector.parseFrom]
    rfl
  have hinner : Selector.parseFrom .nothing (Text.skipBlank ":first-of-type") =
      .ok ([.pseudoClass "first-of-type" none], []) := by
    show Selector.parseFrom .nothing (':' :: "first-of-type".toList) = _
    rw [Selector.parseFrom_of_adds hfirst .token, hend]
    rfl
  have hfrom : Selector.parseFrom .nothing
      (':' :: "not(:first-of-type)".toList) =
      .ok (untypedInside, []) := by
    rw [Selector.parseFrom_of_adds hnot (.nested hinner), hend]
    rfl
  have hparse : Selector.parse ":not(:first-of-type)" = .ok [untypedInside] :=
    Selector.parse_eq_ok_iff.mpr ⟨_, hfrom, rfl⟩
  have hexpand : ({} : Registry).expand ":not(:first-of-type)" =
      .ok ":not(:first-of-type)" := by cbv
  rw [tokenStreams, hexpand]
  show ((Selector.parse ":not(:first-of-type)").mapError SelectorError.malformed
      >>= fun streams =>
    .ok (unaliasAll streams)) = _
  rw [hparse]
  rfl

private theorem filters_untypedInside :
    filters (.pseudoClass "not"
      (some (.selectors [[.pseudoClass "first-of-type" none]]))) =
      .ok ["not(position() = 1)"] := by
  have hfirst : filters (.pseudoClass "first-of-type" none) =
      .ok ["position() = 1"] := by
    rw [filters]
    rfl
  have hstream : streamFilters [.pseudoClass "first-of-type" none] =
      .ok ["position() = 1"] := by
    rw [streamFilters, hfirst, streamFilters]
    rfl
  have hstreams : streamsFilters [[.pseudoClass "first-of-type" none]] =
      .ok ["position() = 1"] := by
    rw [streamsFilters, hstream, streamsFilters]
    rfl
  rw [filters]
  show (streamsFilters [[.pseudoClass "first-of-type" none]] >>=
    fun alternatives => .ok ["not(" ++ flatten .or alternatives ++ ")"]) = _
  rw [hstreams]
  rfl

private theorem locationPath_untypedInside :
    locationPath untypedInside = .ok ("//*[not(position() = 1)]" : Text) := by
  have hwrite : ({ pieces := [.test "*", .descendant] } : Draft).write true
      ⟨.pseudoClass "not"
        (some (.selectors [[.pseudoClass "first-of-type" none]])), none⟩ =
        .ok ⟨[.test "*", .descendant], ["not(position() = 1)"]⟩ := by
    rw [Draft.write_condition rfl (by decide), filters_untypedInside]
    rfl
  have hdraft : ({} : Draft).advanceAll none
      (place (fromTop untypedInside)).tokens =
      .ok ⟨[.test "*", .descendant], ["not(position() = 1)"]⟩ := by
    show (({ pieces := [.test "*", .descendant] } : Draft).write true
      ⟨.pseudoClass "not"
        (some (.selectors [[.pseudoClass "first-of-type" none]])),
        none⟩ >>= fun d =>
        .ok d) = _
    rw [hwrite]
    rfl
  exact locationPath_eq_ok_iff.mpr ⟨rfl, _, hdraft, by decide⟩

/-- No compound has a type, and the selector compiles: its outermost token can
be written. -/
theorem compile_untypedInside :
    tokenStreams {} ":not(:first-of-type)" = .ok [untypedInside] ∧
      compile {} ":not(:first-of-type)" =
        .ok ("//*[not(position() = 1)]" : Text) ∧
      (∀ t ∈ fromTop untypedInside, Draft.isWritable t) ∧
      ∃ t, Occurs untypedInside [false, false] t ∧ t.needsType = true := by
  have hout : compile {} ":not(:first-of-type)" =
      .ok ("//*[not(position() = 1)]" : Text) := by
    rw [compile, tokenStreams_untypedInside]
    show streamsPath [untypedInside] = _
    rw [streamsPath, List.mapM_cons, locationPath_untypedInside]
    rfl
  have hstream := (compile_ok_iff_outer_typed tokenStreams_untypedInside).mp
    ⟨_, hout⟩ untypedInside (List.mem_singleton_self _)
  have hinner : Occurs [.pseudoClass "first-of-type" none] [false]
      (.pseudoClass "first-of-type" none) :=
    .here [] [] _
  have hdeep : Occurs untypedInside [false, false]
      (.pseudoClass "first-of-type" none) :=
    .inside [] [] rfl rfl (List.mem_singleton_self _) hinner
  exact ⟨tokenStreams_untypedInside, hout, hstream.1, _, hdeep, by decide⟩

end XPath

end SelectorPath
