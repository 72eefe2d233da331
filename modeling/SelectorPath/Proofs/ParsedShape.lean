import SelectorPath.Compiler
import SelectorPath.Proofs.Combinators
import SelectorPath.Proofs.Items
import SelectorPath.Proofs.TokenTrees

/-!
# Shape of what is read

Names are read as far as they go, so behind a type selector no further name can
start, and no type selector stands directly behind another. Together with what
the reader refuses (an empty alternative, a combinator at an end, two
combinators in a row) this gives the shape of every stream that is read, and
replacing short names keeps it.

## Main results

* `extendsName_takeName`: reading a name stops where it would not go on.
* `isParsed_of_parse`: the shape of every alternative of a selector list.
* `isParsed_of_tokenStreams`: the same for the streams that are compiled.
-/

namespace SelectorPath

namespace Selector

/-! ## Names -/

/-- Whether a name that ends in front of the text would go on. -/
def extendsName : Text → Bool
  | [] => false
  | c :: rest => isNameChar c || startsEscape (c :: rest)

/-- A name that is taken ends where it cannot go on. -/
theorem extendsName_takeName (ahead : Text) :
    extendsName (takeName ahead).2 = false := by
  fun_induction takeName ahead with
  | case1 => rfl
  | case2 c rest hname name left heq ih =>
    rw [heq] at ih
    exact ih
  | case3 c rest hname hescape name left heq ih =>
    rw [heq] at ih
    exact ih
  | case4 c rest hname hescape => simp [extendsName, hname, hescape]

theorem extendsName_of_startsName {ahead : Text} (h : startsName ahead = true) :
    extendsName ahead = true := by
  unfold startsName at h
  split at h
  · simp [extendsName, isNameChar]
  · rename_i c rest _
    rw [Bool.or_eq_true] at h
    rcases h with h | h
    · simp [extendsName, isNameChar, h]
    · simp [extendsName, h]
  · simp at h

/-- A name that starts is not empty. -/
theorem takeName_ne_nil {ahead : Text} (h : startsName ahead = true) :
    (takeName ahead).1 ≠ [] := by
  have hext := extendsName_of_startsName h
  cases ahead with
  | nil => simp [startsName] at h
  | cons c rest =>
    rw [takeName]
    split
    · simp
    · rename_i hname
      have hescape : startsEscape (c :: rest) = true := by
        simpa [extendsName, hname] using hext
      rw [if_pos hescape]
      simp

/-! ## Items -/

/-- What an item that starts with `c` can be, and what follows it. -/
inductive ReadsAs (c : Char) (rest : Text) : Item → Text → Prop
  | blank (h : startsCompound (Text.skipBlank rest) = false) :
    ReadsAs c rest .blank (Text.skipBlank rest)
  | comma : ReadsAs c rest .comma (Text.skipBlank rest)
  | combinator (k : Combinator) (place : Nat) :
    ReadsAs c rest (.combinator k place) (Text.skipBlank rest)
  | universal : ReadsAs c rest (.token .universal) rest
  | attr (name : Text) (test : AttributeTest) (value : Option Text)
    (left : Text) : ReadsAs c rest (.token (.attr name test value)) left
  | pseudoClass (name : Text) (argument : Option (Argument Token))
    (left : Text) : ReadsAs c rest (.token (.pseudoClass name argument)) left
  | pseudoElement (name : Text) (argument : Option (Argument Token))
    (left : Text) : ReadsAs c rest (.token (.pseudoElement name argument)) left
  | nested (name inner : Text) (behind : Nat) (left : Text) :
    ReadsAs c rest (.nested name inner behind) left
  | tag (h : startsName (c :: rest) = true) :
    ReadsAs c rest (.token (.tag (takeName (c :: rest)).1))
      (takeName (c :: rest)).2

private theorem readsAs_of_readPseudo {c : Char} {rest left : Text}
    {item : Item} (h : ReadsPseudo rest item left) :
    ReadsAs c rest item left := by
  have htoken :
      ∀ (isElement : Bool) (ahead : Text) (argument : Option (Argument Token))
      (left : Text),
      ReadsAs c (marked isElement ahead)
        (.token (pseudoToken isElement (pseudoName ahead) argument)) left := by
    intro isElement ahead argument left
    cases isElement with
    | true => exact .pseudoElement ..
    | false => exact .pseudoClass ..
  cases h with
  | bare hname hbare => exact htoken ..
  | text hname hopen hraw hkind => exact htoken ..
  | nested hname hopen hraw hkind => exact .nested ..

private theorem readsAs_of_readItem {c : Char} {rest left : Text} {item : Item}
    (h : readItem c rest = .ok (item, left)) : ReadsAs c rest item left := by
  cases readItem_eq_ok_iff.mp h with
  | blank hc hend => exact .blank hend
  | descendant hc hgap => exact .combinator ..
  | comma => exact .comma
  | combinator hk => exact .combinator ..
  | universal => exact .universal
  | id hname => exact .attr ..
  | ofClass hname => exact .attr ..
  | attr hattr =>
    cases readAttribute_eq_ok_iff.mp hattr with
    | present hname hclose => exact .attr ..
    | compares hname htest hvalue hclose => exact .attr ..
  | pseudo hpseudo => exact readsAs_of_readPseudo hpseudo
  | tag hname => exact .tag hname

/-- Blanks that mean nothing stand in front of a comma, a combinator or the
end. -/
theorem extendsName_of_not_startsCompound {ahead : Text}
    (h : startsCompound ahead = false) :
    extendsName ahead = false := by
  cases ahead with
  | nil => rfl
  | cons c rest =>
    have hsymbol : c = ',' ∨ c = '>' ∨ c = '+' ∨ c = '~' := by
      simp only [startsCompound, combinatorOfSymbol?, Bool.and_eq_false_iff,
        bne_eq_false_iff_eq] at h
      rcases h with h | h
      · exact .inl h
      · by_cases h₁ : c = '>'
        · exact .inr (.inl h₁)
        by_cases h₂ : c = '+'
        · exact .inr (.inr (.inl h₂))
        by_cases h₃ : c = '~'
        · exact .inr (.inr (.inr h₃))
        simp [h₁, h₂, h₃] at h
    rcases hsymbol with rfl | rfl | rfl | rfl <;> rfl

end Selector

/-! ## Streams -/

/-- Whether no type selector stands directly behind another. -/
def tagsApart : Stream → Bool
  | a :: b :: rest =>
    !(a.kind == .tag && b.kind == .tag) && tagsApart (b :: rest)
  | _ => true

/-- The shape of a stream that was read. -/
structure IsParsed (stream : Stream) : Prop where
  /-- Combinators stand between simple selectors. -/
  joined : isJoined stream = true
  /-- No type selector follows another. -/
  apart : tagsApart stream = true
  /-- Type selectors have a name. -/
  named : ∀ t ∈ stream, t.kind = .tag → t.label ≠ []

/-- No type selector stands behind another in the rest of a stream either. -/
theorem tagsApart_tail {t : Token} {rest : Stream}
    (h : tagsApart (t :: rest) = true) :
    tagsApart rest = true ∧
      (t.kind = .tag → rest.head?.all (fun t => t.kind != .tag) = true) := by
  cases rest with
  | nil => exact ⟨rfl, fun _ => rfl⟩
  | cons b rest =>
    rw [tagsApart, Bool.and_eq_true] at h
    refine ⟨h.2, fun hk => ?_⟩
    have hb := h.1
    rw [hk] at hb
    simpa using hb

namespace Selector

/-- Whether a simple selector has to follow. -/
def Ending.isOpen : Ending → Bool
  | simple => false
  | _ => true

/-- The shape of the rest of an alternative and of the alternatives behind
it. -/
structure ReadsStreams (ending : Ending) (ahead : Text) (stream : Stream)
    (streams : List Stream) :
    Prop where
  joins : joinsFrom ending.isOpen stream = true
  apart : tagsApart stream = true
  named : ∀ t ∈ stream, t.kind = .tag → t.label ≠ []
  /-- A type selector is read where a name can start. -/
  starts : extendsName ahead = false →
    stream.head?.all (fun t => t.kind != .tag) = true
  others : ∀ s ∈ streams, IsParsed s

private theorem tagsApart_cons {t : Token} {stream : Stream}
    (h : tagsApart stream = true)
    (ht : t.kind = .tag → stream.head?.all (fun t => t.kind != .tag) = true) :
    tagsApart (t :: stream) = true := by
  cases stream with
  | nil => rfl
  | cons b rest =>
    rw [tagsApart, h, Bool.and_true]
    cases hk : t.kind == .tag with
    | false => rfl
    | true =>
      have hb := ht (beq_iff_eq.mp hk)
      simpa using hb

/-- A stream that is read to its end has the shape of a parsed one. -/
theorem ReadsStreams.isParsed {ahead : Text} {stream : Stream}
    {streams : List Stream} (h : ReadsStreams .nothing ahead stream streams) :
    IsParsed stream :=
  ⟨h.joins, h.apart, h.named⟩

/-- A simple selector in front of the rest of an alternative. -/
theorem ReadsStreams.token {ending : Ending} {ahead left : Text} {t : Token}
    {stream : Stream} {streams : List Stream}
    (h : ReadsStreams .simple left stream streams)
    (hkind : t.kind ≠ .root ∧ t.kind.isCombinator = false)
    (htag : t.kind = .tag → extendsName ahead = true ∧ t.label ≠ [] ∧
      extendsName left = false) :
    ReadsStreams ending ahead (t :: stream) streams where
  joins := by
    have hjoins : joinsFrom false stream = true := h.joins
    simp [joinsFrom, hkind.1, hkind.2, hjoins]
  apart := tagsApart_cons h.apart fun hk => h.starts (htag hk).2.2
  named := List.forall_mem_cons.mpr ⟨fun hk => (htag hk).2.1, h.named⟩
  starts := by
    intro hahead
    show (t.kind != .tag) = true
    rw [bne_iff_ne]
    intro hk
    rw [(htag hk).1] at hahead
    exact absurd hahead (by decide)
  others := h.others

/-- What the parser gives is what the grammar reads. -/
theorem readsStreams_of_parseFrom {ending : Ending} {ahead : Text}
    {stream : Stream} {streams : List Stream}
    (h : parseFrom ending ahead = .ok (stream, streams)) :
    ReadsStreams ending ahead stream streams := by
  fun_induction parseFrom ending ahead generalizing stream streams with
  | case1 => simp at h
  | case2 ending hend =>
    cases h
    have hsimple : ending.isOpen = false := by
      cases ending <;> first | rfl | simp [Ending.endProblem?] at hend
    exact ⟨by simp [joinsFrom, hsimple], rfl, by simp, fun _ => rfl, by simp⟩
  | case3 => simp at h
  | case4 ending c rest left hitem ih =>
    have hread := ih h
    cases readsAs_of_readItem hitem with
    | blank hcompound =>
      have hleft := extendsName_of_not_startsCompound hcompound
      exact ⟨hread.joins, hread.apart, hread.named, fun _ => hread.starts hleft,
        hread.others⟩
  | case5 => simp at h
  | case6 ending c rest left hitem hend ih =>
    obtain ⟨⟨stream', streams'⟩, hrec, h⟩ := bind_eq_ok_iff.mp h
    cases h
    have hread := ih hrec
    have hsimple : ending.isOpen = false := by
      cases ending <;> first | rfl | simp [Ending.endProblem?] at hend
    exact ⟨by simp [joinsFrom, hsimple], rfl, by simp, fun _ => rfl,
      List.forall_mem_cons.mpr ⟨hread.isParsed, hread.others⟩⟩
  | case7 => simp at h
  | case8 ending c rest k place left hitem hprob ih =>
    obtain ⟨⟨stream', streams'⟩, hrec, h⟩ := bind_eq_ok_iff.mp h
    cases h
    have hread := ih hrec
    have hsimple : ending.isOpen = false := by
      cases ending <;> first | rfl | simp [Ending.combinatorProblem?] at hprob
    have hjoins : joinsFrom true stream' = true := hread.joins
    refine ⟨?_, tagsApart_cons hread.apart (by rintro ⟨⟩), ?_, fun _ => rfl,
      hread.others⟩
    · rw [hsimple, joinsFrom]
      show (true && true && joinsFrom true stream') = true
      rw [hjoins]
      rfl
    · exact List.forall_mem_cons.mpr ⟨by rintro ⟨⟩, hread.named⟩
  | case9 ending c rest token left hitem ih =>
    obtain ⟨⟨stream', streams'⟩, hrec, h⟩ := bind_eq_ok_iff.mp h
    cases h
    have hread := ih hrec
    cases readsAs_of_readItem hitem with
    | universal => exact hread.token ⟨by rintro ⟨⟩, rfl⟩ (by rintro ⟨⟩)
    | attr name test value =>
      exact hread.token ⟨by rintro ⟨⟩, rfl⟩ (by rintro ⟨⟩)
    | pseudoClass name argument =>
      exact hread.token ⟨by rintro ⟨⟩, rfl⟩ (by rintro ⟨⟩)
    | pseudoElement name argument =>
      exact hread.token ⟨by rintro ⟨⟩, rfl⟩ (by rintro ⟨⟩)
    | tag hname =>
      refine hread.token ⟨by rintro ⟨⟩, rfl⟩ fun _ =>
        ⟨extendsName_of_startsName hname, ?_, ?_⟩
      · exact takeName_ne_nil hname
      · exact extendsName_takeName _
  | case10 => simp at h
  | case11 ending c rest name inner behind left hitem first others hinner
    ihInner ih =>
    obtain ⟨⟨stream', streams'⟩, hrec, h⟩ := bind_eq_ok_iff.mp h
    cases h
    exact (ih hrec).token ⟨by rintro ⟨⟩, rfl⟩ (by rintro ⟨⟩)

/-- A selector list has an alternative, and each has the shape of a stream that
was read. -/
theorem isParsed_of_parse {t : Text} {streams : List Stream}
    (h : parse t = .ok streams) :
    streams ≠ [] ∧ ∀ stream ∈ streams, IsParsed stream := by
  unfold parse at h
  split at h
  · rename_i stream streams' hfrom
    cases h
    have hread := readsStreams_of_parseFrom hfrom
    exact ⟨List.cons_ne_nil _ _,
      List.forall_mem_cons.mpr ⟨hread.isParsed, hread.others⟩⟩
  · simp at h

end Selector

/-! ## Short names -/

private theorem Token.label_unalias {t : Token} (h : t.kind = .tag) :
    t.unalias.label = t.label := by
  obtain ⟨kind, name, value, test, argument⟩ := t
  cases h
  rfl

/-- Replacing short names keeps the shape. -/
theorem IsParsed.unalias {stream : Stream} (h : IsParsed stream) :
    IsParsed (unaliasStream stream) := by
  have hjoins : ∀ (stream : Stream) (afterAxis : Bool),
      joinsFrom afterAxis (stream.map Token.unalias) =
        joinsFrom afterAxis stream := by
    intro stream
    induction stream with
    | nil => exact fun _ => rfl
    | cons t rest ih =>
      intro afterAxis
      simp only [List.map_cons, joinsFrom, Token.kind_unalias, ih]
  have hapart : ∀ stream : Stream, tagsApart (stream.map Token.unalias) =
      tagsApart stream := by
    intro stream
    induction stream with
    | nil => rfl
    | cons a rest ih =>
      cases rest with
      | nil => rfl
      | cons b rest =>
        simp only [List.map_cons, tagsApart, Token.kind_unalias] at ih ⊢
        rw [ih]
  rw [unaliasStream_eq_map]
  refine ⟨(hjoins stream true).trans h.joined,
    (hapart stream).trans h.apart, ?_⟩
  intro t ht hk
  obtain ⟨t', ht', rfl⟩ := List.mem_map.mp ht
  rw [Token.kind_unalias] at hk
  rw [Token.label_unalias hk]
  exact h.named t' ht' hk

/-- The streams that are compiled have the shape of streams that were read. -/
theorem isParsed_of_tokenStreams {registry : Registry} {selector : Text}
    {streams : List Stream} (h : tokenStreams registry selector = .ok streams) :
    streams ≠ [] ∧ ∀ stream ∈ streams, IsParsed stream := by
  unfold tokenStreams at h
  obtain ⟨expanded, -, h⟩ := bind_eq_ok_iff.mp h
  obtain ⟨parsed, hparsed, h⟩ := bind_eq_ok_iff.mp h
  cases h
  obtain ⟨hne, hshape⟩ :=
    Selector.isParsed_of_parse (mapError_eq_ok_iff.mp hparsed)
  rw [unaliasAll_eq_map]
  refine ⟨by simpa using hne, fun stream hstream => ?_⟩
  obtain ⟨stream', hstream', rfl⟩ := List.mem_map.mp hstream
  exact (hshape stream' hstream').unalias

end SelectorPath
