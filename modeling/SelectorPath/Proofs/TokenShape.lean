import Mathlib
import SelectorPath.Proofs.Spans

/-!
# Shape of the tokens that are read

A token has five fields, of which any combination makes a token, and the
argument of a pseudo-class holds further tokens. Reading makes few of these
combinations: `Token.IsRead` lists them, and `IsSelectorList` says how they
stand together at every depth.

The argument of a pseudo-class that takes none of its own selectors is a trimmed
text that the reader of arguments would take again, or would with one blank
behind it: the blank that an escape at the end of the argument has lost.

## Main results

* `isRead_of_readsItem`: the token of an item.
* `isSelectorList_of_parse`: the shape of every selector list that is read.
-/

namespace SelectorPath

open SelectorPath.Text (isSelectorBlank skipBlank trimBy isTrimmedBy)
open SelectorPath.Selector

/-! ## Shapes -/

/-- Whether a name can be that of a pseudo-class or pseudo-element: it is not
empty and holds no capital letter. -/
def isPseudoName (name : Text) : Bool :=
  !name.isEmpty && name.all fun c => !c.isUpper

/-- Whether a text can be an argument: trimmed, and balanced if need be with a
blank behind it. -/
def IsArgument (t : Text) : Prop :=
  isTrimmedBy isSelectorBlank t = true ∧ (IsBalanced t ∨ IsBalanced (t ++ " "))

/-- Whether the token ends with a name, which would go on with the letters of a
type selector. -/
def Token.endsInName (t : Token) : Bool :=
  t.kind == .tag || ((t.kind == .pseudoClass || t.kind == .pseudoElement) &&
    t.argument.isNone)

/-- Whether no type selector stands directly behind a name. -/
def namesApart : Stream → Bool
  | a :: b :: rest =>
    !(a.endsInName && b.kind == .tag) && namesApart (b :: rest)
  | _ => true

/-- The tokens that reading makes. What a constructor does not mention is
absent. -/
inductive Token.IsRead : Token → Prop
  | tag {name : Text} (hname : name ≠ []) : IsRead (.tag name)
  | universal : IsRead .universal
  | combinator (c : Combinator) : IsRead (.combinator c)
  | present {name : Text} (hname : name ≠ []) :
    IsRead (.attr name .present none)
  | compares {name : Text} {test : AttributeTest} (hname : name ≠ [])
    (htest : test ≠ .present) (value : Text) :
    IsRead (.attr name test (some value))
  | bare {name : Text} (isElement : Bool) (hname : isPseudoName name = true) :
    IsRead (pseudoToken isElement name none)
  | text {name t : Text} {isElement : Bool} (hname : isPseudoName name = true)
    (hkind : isElement = true ∨ takesSelectors name = false)
    (ht : IsArgument t) : IsRead (pseudoToken isElement name (some (.text t)))
  | selectors {name : Text} {streams : List Stream}
    (hname : isPseudoName name = true) (hkind : takesSelectors name = true)
    (hne : streams ≠ []) (hjoined : ∀ stream ∈ streams, isJoined stream = true)
    (hapart : ∀ stream ∈ streams, namesApart stream = true)
    (htokens : ∀ stream ∈ streams, ∀ t ∈ stream, IsRead t) :
    IsRead (.pseudoClass name (some (.selectors streams)))

/-- The shape of a selector list, at every depth. -/
structure IsSelectorList (streams : List Stream) : Prop where
  ne_nil : streams ≠ []
  /-- No alternative is empty, has a combinator at an end or two of them in a
  row. -/
  joined : ∀ stream ∈ streams, isJoined stream = true
  /-- No type selector follows a name. -/
  apart : ∀ stream ∈ streams, namesApart stream = true
  tokens : ∀ stream ∈ streams, ∀ t ∈ stream, t.IsRead

/-! ## Names and arguments -/

private theorem isPseudoName_pseudoName {ahead : Text}
    (h : startsName ahead = true) :
    isPseudoName (pseudoName ahead) = true := by
  have hne := takeName_ne_nil h
  have hsmall : (pseudoName ahead).all (fun c => !c.isUpper) = true := by
    rw [pseudoName, Text.asciiLower, List.all_map, List.all_eq_true]
    intro c hc
    show (!c.toLower.isUpper) = true
    rw [Char.isUpper_toLower_eq_false]
    rfl
  rw [isPseudoName, hsmall]
  simpa [pseudoName, Text.asciiLower] using hne

/-- Trimming makes an argument of a balanced text. -/
theorem isArgument_trimBy {raw : Text} (h : IsBalanced raw) :
    IsArgument (trimBy isSelectorBlank raw) := by
  refine ⟨Text.isTrimmedBy_trimBy isSelectorBlank raw, ?_⟩
  have hrun := run_trim h
  cases hend : dangles (trimBy isSelectorBlank raw) with
  | false => exact .inl (isBalanced_of_run hrun hend)
  | true => exact .inr (isBalanced_space_of_run hrun)

private theorem readAttributeName_ne_nil {t name left : Text}
    (h : readAttributeName t = .ok (name, left)) :
    name ≠ [] := by
  unfold readAttributeName at h
  simp only at h
  split at h
  · cases h
  · rename_i hname
    cases h
    simpa using hname

private theorem testOfSymbol?_ne_present {c : Char} {test : AttributeTest}
    (h : testOfSymbol? c = some test) :
    test ≠ .present := by
  rintro rfl
  unfold testOfSymbol? at h
  repeat' split at h
  all_goals cases h

private theorem readTest_ne_present {t left : Text} {test : AttributeTest}
    (h : readTest t = .ok (test, left)) :
    test ≠ .present := by
  unfold readTest at h
  split at h
  · cases h
  · cases h
    decide
  · split at h
    · cases h
    · rename_i test' hsymbol
      split at h
      · cases h
        exact testOfSymbol?_ne_present hsymbol
      · cases h

/-! ## Items -/

private theorem isRead_of_readAttribute {t left : Text} {token : Token}
    (h : readAttribute t = .ok (token, left)) :
    token.IsRead ∧ token.kind = .attr := by
  cases readAttribute_eq_ok_iff.mp h with
  | present hname hclose =>
    exact ⟨.present (readAttributeName_ne_nil hname), rfl⟩
  | compares hname htest hvalue hclose =>
    exact ⟨.compares (readAttributeName_ne_nil hname)
      (readTest_ne_present htest) _, rfl⟩

/-- A simple selector that is read has the shape of one, and no name goes on
behind it. -/
theorem isRead_of_readsItem {c : Char} {rest left : Text} {t : Token}
    (h : ReadsItem rest c (.token t) left) :
    t.IsRead ∧ (t.endsInName = true → extendsName left = false) := by
  cases h with
  | universal => exact ⟨.universal, by rintro ⟨⟩⟩
  | id hname => exact ⟨.compares (by decide) (by decide) _, by rintro ⟨⟩⟩
  | ofClass hname => exact ⟨.compares (by decide) (by decide) _, by rintro ⟨⟩⟩
  | attr hattr =>
    obtain ⟨hread, hkind⟩ := isRead_of_readAttribute hattr
    refine ⟨hread, fun hends => ?_⟩
    simp [Token.endsInName, hkind] at hends
  | pseudo hpseudo =>
    cases hpseudo with
    | bare hname hbare =>
      exact ⟨.bare _ (isPseudoName_pseudoName hname),
        fun _ => extendsName_takeName _⟩
    | @text isElement ahead inside raw left hname hopen hraw hkind =>
      have hbalanced := (takeArgument_eq_ok_iff.mp hraw).2
      refine ⟨.text (isPseudoName_pseudoName hname) hkind
        (isArgument_trimBy hbalanced), ?_⟩
      cases isElement <;> rintro ⟨⟩
  | tag hname =>
    exact ⟨.tag (takeName_ne_nil hname), fun _ => extendsName_takeName _⟩

private theorem isPseudoName_of_readsItem {c : Char}
    {rest left name inner : Text} {behind : Nat}
    (h : ReadsItem rest c (.nested name inner behind) left) :
    isPseudoName name = true ∧ takesSelectors name = true := by
  cases h with
  | pseudo hpseudo =>
    cases hpseudo with
    | nested hname hopen hraw hkind =>
      exact ⟨isPseudoName_pseudoName hname, hkind⟩

/-! ## Streams -/

/-- The shape of an alternative, apart from its combinators. -/
structure IsReadStream (stream : Stream) : Prop where
  apart : namesApart stream = true
  tokens : ∀ t ∈ stream, t.IsRead

theorem IsReadStream.nil : IsReadStream [] :=
  ⟨rfl, List.forall_mem_nil _⟩

/-- A token that was read may stand in front of a stream that was, unless a type
selector would continue its name. -/
theorem IsReadStream.cons {t : Token} {stream : Stream}
    (h : IsReadStream stream) (ht : t.IsRead)
    (hends : t.endsInName = true →
      stream.head?.all (fun t => t.kind != .tag) = true) :
    IsReadStream (t :: stream) := by
  refine ⟨?_, List.forall_mem_cons.mpr ⟨ht, h.tokens⟩⟩
  cases stream with
  | nil => rfl
  | cons b rest =>
    rw [namesApart, h.apart, Bool.and_true]
    cases hname : t.endsInName with
    | false => rfl
    | true =>
      have hb := hends hname
      simpa using hb

/-- Alternatives that were read make a selector list. -/
theorem isSelectorList_of_parseFrom {ahead : Text} {first : Stream}
    {others : List Stream} (h : parseFrom .nothing ahead = .ok (first, others))
    (hread : ∀ stream ∈ first :: others, IsReadStream stream) :
    IsSelectorList (first :: others) := by
  have hshape := readsStreams_of_parseFrom h
  refine ⟨List.cons_ne_nil _ _, ?_, fun stream hs => (hread stream hs).apart,
    fun stream hs => (hread stream hs).tokens⟩
  exact List.forall_mem_cons.mpr ⟨hshape.isParsed.joined,
    fun stream hs => (hshape.others stream hs).joined⟩

private theorem isReadStream_of_parseFrom {ending : Ending} {ahead : Text}
    {stream : Stream} {streams : List Stream}
    (h : parseFrom ending ahead = .ok (stream, streams)) :
    ∀ s ∈ stream :: streams, IsReadStream s := by
  fun_induction parseFrom ending ahead generalizing stream streams with
  | case1 => cases h
  | case2 ending hend =>
    cases h
    exact List.forall_mem_singleton.mpr .nil
  | case3 => cases h
  | case4 ending c rest left hitem ih => exact ih h
  | case5 => cases h
  | case6 ending c rest left hitem hend ih =>
    obtain ⟨⟨stream', streams'⟩, hrec, h⟩ := bind_eq_ok_iff.mp h
    cases h
    exact List.forall_mem_cons.mpr ⟨.nil, ih hrec⟩
  | case7 => cases h
  | case8 ending c rest k place left hitem hproblem ih =>
    obtain ⟨⟨stream', streams'⟩, hrec, h⟩ := bind_eq_ok_iff.mp h
    cases h
    obtain ⟨hstream, hothers⟩ := List.forall_mem_cons.mp (ih hrec)
    exact List.forall_mem_cons.mpr ⟨hstream.cons (.combinator k) (by rintro ⟨⟩),
      hothers⟩
  | case9 ending c rest token left hitem ih =>
    obtain ⟨⟨stream', streams'⟩, hrec, h⟩ := bind_eq_ok_iff.mp h
    cases h
    obtain ⟨hstream, hothers⟩ := List.forall_mem_cons.mp (ih hrec)
    obtain ⟨htoken, hends⟩ := isRead_of_readsItem (readItem_eq_ok_iff.mp hitem)
    have hstarts := (readsStreams_of_parseFrom hrec).starts
    exact List.forall_mem_cons.mpr ⟨hstream.cons htoken fun hname =>
      hstarts (hends hname), hothers⟩
  | case10 => cases h
  | case11 ending c rest name inner behind left hitem first others hinner
    ihInner ih =>
    obtain ⟨⟨stream', streams'⟩, hrec, h⟩ := bind_eq_ok_iff.mp h
    cases h
    obtain ⟨hstream, hothers⟩ := List.forall_mem_cons.mp (ih hrec)
    obtain ⟨hname, hkind⟩ :=
      isPseudoName_of_readsItem (readItem_eq_ok_iff.mp hitem)
    have hlist := isSelectorList_of_parseFrom hinner (ihInner hinner)
    have htoken := Token.IsRead.selectors hname hkind hlist.ne_nil hlist.joined
      hlist.apart hlist.tokens
    exact List.forall_mem_cons.mpr ⟨hstream.cons htoken (by rintro ⟨⟩), hothers⟩

/-- Every selector list that is read has the shape of one, at every depth. -/
theorem isSelectorList_of_parse {t : Text} {streams : List Stream}
    (h : parse t = .ok streams) :
    IsSelectorList streams := by
  obtain ⟨⟨first, others⟩, hfrom, rfl⟩ := parse_eq_ok_iff.mp h
  exact isSelectorList_of_parseFrom hfrom (isReadStream_of_parseFrom hfrom)

/-- The streams of `a:not(b)::c( x\ )`, where the last blank belongs to an
escape and is trimmed off. -/
def trimmedEscape : List Stream :=
  [[.tag "a", .pseudoClass "not" (some (.selectors [[.tag "b"]])),
    .pseudoElement "c" (some (.text "x\\"))]]

/-- An escaped blank at the end of an argument that is trimmed. -/
theorem isSelectorList_trimmedEscape :
    parse "a:not(b)::c( x\\ )" = .ok trimmedEscape ∧
      IsSelectorList trimmedEscape := by
  have htag : readItem 'a' ":not(b)::c( x\\ )" =
      .ok (.token (.tag "a"), ":not(b)::c( x\\ )") := by
    cbv
  have hnot : readItem ':' "not(b)::c( x\\ )" =
      .ok (.nested "not" "b" 10, "::c( x\\ )") := by
    cbv
  have hinner : parseFrom .nothing (skipBlank "b") = .ok ([.tag "b"], []) := by
    cbv
  have helement : readItem ':' ":c( x\\ )" =
      .ok (.token (.pseudoElement "c" (some (.text "x\\"))), []) := by
    cbv
  have hend : parseFrom .simple [] = .ok ([], []) := by
    rw [parseFrom]
    rfl
  have hparse : parse "a:not(b)::c( x\\ )" = .ok trimmedEscape := by
    refine parse_eq_ok_iff.mpr ⟨(_, []), ?_, rfl⟩
    show parseFrom .nothing ('a' :: ":not(b)::c( x\\ )".toList) = _
    rw [parseFrom_of_adds htag .token]
    show (parseFrom .simple (':' :: "not(b)::c( x\\ )".toList)).map _ = _
    rw [parseFrom_of_adds hnot (.nested hinner)]
    show ((parseFrom .simple (':' :: ":c( x\\ )".toList)).map _).map _ = _
    rw [parseFrom_of_adds helement .token, hend]
    rfl
  exact ⟨hparse, isSelectorList_of_parse hparse⟩

end SelectorPath
