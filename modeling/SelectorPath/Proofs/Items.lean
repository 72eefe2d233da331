import SelectorPath.Proofs.Balance
import SelectorPath.Proofs.Drafts
import SelectorPath.Selector.Parser

/-!
# Steps of reading

Reading a selector list goes item by item, and an item moves the alternatives
that are being read by a fixed piece: a token at the end of the last
alternative, or a new empty alternative. This module says once which items there
are (`ReadsItem`, `ReadsPseudo`) and what each of them adds (`Adds`), so that
everything else about reading follows from that by an induction over items.

## Main results

* `readItem_eq_ok_iff`, `readPseudo_eq_ok_iff`: the items of a text.
* `parseFrom_eq_ok_iff`: reading succeeds on an item if what the item adds can
  stand there and reading goes on behind it.
-/

namespace SelectorPath.Selector

open SelectorPath.Text (isSelectorBlank skipBlank trimBy)

/-! ## Attribute tests -/

/-- What can stand behind an opening bracket, and what follows it. -/
inductive ReadsAttribute : Text → Token → Text → Prop
  | present {t name left₁ left : Text}
    (hname : readAttributeName t = .ok (name, left₁))
    (hclose : skipBlank left₁ = ']' :: left) :
    ReadsAttribute t (.attr name .present none) left
  | compares {t name left₁ left₂ value left₃ left : Text} {test : AttributeTest}
    (hname : readAttributeName t = .ok (name, left₁))
    (htest : readTest (skipBlank left₁) = .ok (test, left₂))
    (hvalue : readValue name (skipBlank left₂) = .ok (value, left₃))
    (hclose : readClosing (skipBlank (takeFlag (skipBlank left₃)).2) =
      .ok left) :
    ReadsAttribute t (.attr name test (some value)) left

/-- What is read as an attribute test. -/
theorem readAttribute_eq_ok_iff {t left : Text} {token : Token} :
    readAttribute t = .ok (token, left) ↔ ReadsAttribute t token left := by
  constructor
  · intro h
    unfold readAttribute at h
    obtain ⟨⟨name, left₁⟩, hname, h⟩ := bind_eq_ok_iff.mp h
    simp only at h
    split at h
    · rename_i hclose
      cases h
      exact .present hname hclose
    · obtain ⟨⟨test, left₂⟩, htest, h⟩ := bind_eq_ok_iff.mp h
      obtain ⟨⟨value, left₃⟩, hvalue, h⟩ := bind_eq_ok_iff.mp h
      obtain ⟨left₄, hclose, h⟩ := bind_eq_ok_iff.mp h
      cases h
      exact .compares hname htest hvalue hclose
  · intro h
    unfold readAttribute
    cases h with
    | present hname hclose =>
      rw [hname]
      simp only [bind, Except.bind, hclose]
    | compares hname htest hvalue hclose =>
      rw [hname]
      simp only [bind, Except.bind]
      split
      · rename_i heq
        rw [heq] at htest
        simp [readTest, testOfSymbol?] at htest
      · simp only [htest, hvalue, hclose]

/-! ## Pseudo-classes and pseudo-elements -/

/-- The text of a name behind one colon, which has a second one in front for a
pseudo-element. -/
def marked (isElement : Bool) (ahead : Text) : Text :=
  if isElement then ':' :: ahead else ahead

/-- A pseudo-element or a pseudo-class. -/
def pseudoToken (isElement : Bool) (name : Text)
    (argument : Option (Argument Token)) : Token :=
  if isElement then .pseudoElement name argument else .pseudoClass name argument

/-- The name that lies ahead, in small letters. -/
def pseudoName (ahead : Text) : Text :=
  (takeName ahead).1.asciiLower

/-- What can stand behind a colon, and what follows it. -/
inductive ReadsPseudo : Text → Item → Text → Prop
  | bare {isElement : Bool} {ahead : Text} (hname : startsName ahead = true)
    (hbare : (takeName ahead).2.head? ≠ some '(') :
    ReadsPseudo (marked isElement ahead)
      (.token (pseudoToken isElement (pseudoName ahead) none))
      (takeName ahead).2
  | text {isElement : Bool} {ahead inside raw left : Text}
    (hname : startsName ahead = true)
    (hopen : (takeName ahead).2 = '(' :: inside)
    (hraw : takeArgument inside = (.ok raw, left))
    (hkind : isElement = true ∨ takesSelectors (pseudoName ahead) = false) :
    ReadsPseudo (marked isElement ahead)
      (.token (pseudoToken isElement (pseudoName ahead)
      (some (.text (trimBy isSelectorBlank raw))))) left
  | nested {ahead inside raw left : Text} (hname : startsName ahead = true)
    (hopen : (takeName ahead).2 = '(' :: inside)
    (hraw : takeArgument inside = (.ok raw, left))
    (hkind : takesSelectors (pseudoName ahead) = true) :
    ReadsPseudo ahead (.nested (pseudoName ahead) (trimBy isSelectorBlank raw)
      (trailingBlanks raw + 1 + left.length)) left

private theorem readsPseudo_of_readPseudo {ahead left : Text} {item : Item}
    (h : readPseudo ahead = .ok (item, left)) :
    ReadsPseudo ahead item left := by
  obtain ⟨isElement, start, hahead, hstart⟩ : ∃ isElement start,
      ahead = marked isElement start ∧
      (isElement = (ahead.head? == some ':') ∧
        start = if isElement then ahead.tail else ahead) := by
    cases ahead with
    | nil => exact ⟨false, [], rfl, rfl, rfl⟩
    | cons c rest =>
      by_cases hc : c = ':'
      · exact ⟨true, rest, by rw [hc]; rfl, by simp [hc], rfl⟩
      · exact ⟨false, c :: rest, rfl, by simp [hc], rfl⟩
  unfold readPseudo at h
  simp only [← hstart.1, ← hstart.2] at h
  by_cases hname : startsName start = true
  · simp only [hname, Bool.not_true, Bool.false_eq_true, if_false] at h
    rw [hahead]
    split at h
    · rename_i inside hopen
      split at h
      · simp at h
      · rename_i raw behind hraw
        split at h
        · rename_i hkind
          rw [Bool.and_eq_true, Bool.not_eq_true'] at hkind
          cases h
          rw [hkind.1]
          exact .nested hname hopen hraw hkind.2
        · rename_i hkind
          cases h
          have htext : isElement = true ∨
              takesSelectors (pseudoName start) = false := by
            cases isElement with
            | true => exact .inl rfl
            | false => exact .inr (by simpa [pseudoName] using hkind)
          have hread := ReadsPseudo.text hname hopen hraw htext
          cases isElement <;> exact hread
    · rename_i hbare
      cases h
      have hopen : (takeName start).2.head? ≠ some '(' := by
        intro hhead
        cases hleft : (takeName start).2 with
        | nil => simp [hleft] at hhead
        | cons c left =>
          simp only [hleft, List.head?_cons, Option.some.injEq] at hhead
          exact hbare left (by rw [hleft, hhead])
      have hread := @ReadsPseudo.bare isElement start hname hopen
      cases isElement <;> exact hread
  · simp [hname] at h

/-- No name starts with a character that means something else. -/
theorem isNameChar_of_startsName {c : Char} {rest : Text}
    (h : startsName (c :: rest) = true) :
    isNameChar c = true ∨ c = '\\' := by
  unfold startsName at h
  split at h
  · rename_i heq
    cases heq
    exact .inl rfl
  · rename_i heq
    cases heq
    rw [Bool.or_eq_true] at h
    rcases h with h | h
    · exact .inl (by simp [isNameChar, h])
    · refine .inr ?_
      unfold startsEscape at h
      split at h
      · rename_i heq
        cases heq
        rfl
      · simp at h
  · rename_i heq
    cases heq

private theorem readPseudo_of_readsPseudo {ahead left : Text} {item : Item}
    (h : ReadsPseudo ahead item left) :
    readPseudo ahead = .ok (item, left) := by
  have hmark : ∀ (isElement : Bool) {start : Text}, startsName start = true →
      ((marked isElement start).head? == some ':') = isElement ∧
        (if isElement then (marked isElement start).tail
          else marked isElement start) = start := by
    intro isElement start hname
    cases isElement with
    | true => exact ⟨rfl, rfl⟩
    | false =>
      refine ⟨?_, rfl⟩
      cases start with
      | nil => rfl
      | cons c rest =>
        show (some c == some ':') = false
        rw [beq_eq_false_iff_ne]
        intro hc
        cases hc
        rcases isNameChar_of_startsName hname with hc | hc
        · exact absurd hc (by decide)
        · exact absurd hc (by decide)
  unfold readPseudo
  cases h with
  | @bare isElement ahead hname hbare =>
    obtain ⟨hhead, htail⟩ := hmark isElement hname
    simp only [hhead, htail, hname, Bool.not_true, Bool.false_eq_true, if_false]
    split
    · rename_i inside hopen
      exact absurd (by rw [hopen]; rfl) hbare
    · cases isElement <;> rfl
  | @text isElement ahead inside raw left hname hopen hraw hkind =>
    obtain ⟨hhead, htail⟩ := hmark isElement hname
    simp only [hhead, htail, hname, hopen, hraw, Bool.not_true,
      Bool.false_eq_true, if_false]
    rw [if_neg]
    · cases isElement <;> rfl
    · rcases hkind with hkind | hkind
      · simp [hkind]
      · have hname : takesSelectors (takeName ahead).1.asciiLower = false :=
          hkind
        simp [hname]
  | @nested ahead inside raw left hname hopen hraw hkind =>
    obtain ⟨hhead, htail⟩ := hmark false hname
    have hhead : (ahead.head? == some ':') = false := hhead
    have hkind : takesSelectors (takeName ahead).1.asciiLower = true := hkind
    simp only [hhead, hname, hopen, hraw, hkind, Bool.not_true, Bool.not_false,
      Bool.and_self, Bool.false_eq_true, if_false, if_true]
    rfl

/-- What is read as a pseudo-class or pseudo-element. -/
theorem readPseudo_eq_ok_iff {ahead left : Text} {item : Item} :
    readPseudo ahead = .ok (item, left) ↔ ReadsPseudo ahead item left :=
  ⟨readsPseudo_of_readPseudo, readPseudo_of_readsPseudo⟩

/-! ## Items -/

theorem isNameChar_of_isSelectorBlank {c : Char}
    (h : isSelectorBlank c = true) :
    isNameChar c = false ∧ c ≠ '\\' := by
  simp only [isSelectorBlank, Bool.or_eq_true, beq_iff_eq] at h
  rcases h with (((rfl | rfl) | rfl) | rfl) | rfl <;>
    exact ⟨by decide, by decide⟩

/-- What an item can be, and what follows it. The first character tells the
cases apart. -/
inductive ReadsItem (rest : Text) : Char → Item → Text → Prop
  | blank {c : Char} (hc : isSelectorBlank c = true)
    (hend : startsCompound (skipBlank rest) = false) :
    ReadsItem rest c .blank (skipBlank rest)
  | descendant {c : Char} (hc : isSelectorBlank c = true)
    (hgap : startsCompound (skipBlank rest) = true) :
    ReadsItem rest c (.combinator .descendant (skipBlank rest).length)
      (skipBlank rest)
  | comma : ReadsItem rest ',' .comma (skipBlank rest)
  | combinator {c : Char} {k : Combinator}
    (hk : combinatorOfSymbol? c = some k) :
    ReadsItem rest c (.combinator k (rest.length + 1)) (skipBlank rest)
  | universal : ReadsItem rest '*' (.token .universal) rest
  | id (hname : (takeName rest).1 ≠ []) :
    ReadsItem rest '#' (.token (.attr "id" .equals (some (takeName rest).1)))
      (takeName rest).2
  | ofClass (hname : startsName rest = true) :
    ReadsItem rest '.'
      (.token (.attr "class" .hasWord (some (takeName rest).1)))
      (takeName rest).2
  | attr {t : Token} {left : Text}
    (hattr : readAttribute rest = .ok (t, left)) :
    ReadsItem rest '[' (.token t) left
  | pseudo {item : Item} {left : Text} (hpseudo : ReadsPseudo rest item left) :
    ReadsItem rest ':' item left
  | tag {c : Char} (hname : startsName (c :: rest) = true) :
    ReadsItem rest c (.token (.tag (takeName (c :: rest)).1))
      (takeName (c :: rest)).2

private theorem readsItem_of_readItem {c : Char} {rest left : Text}
    {item : Item} (h : readItem c rest = .ok (item, left)) :
    ReadsItem rest c item left := by
  unfold readItem at h
  split at h
  · rename_i hc
    simp only at h
    split at h
    · rename_i hgap
      cases h
      exact .descendant hc hgap
    · rename_i hend
      cases h
      exact .blank hc (by simpa using hend)
  split at h
  · rename_i hc
    cases h
    rw [hc]
    exact .comma
  split at h
  · rename_i hc
    cases h
    rw [hc]
    exact .universal
  split at h
  · rename_i hc
    simp only at h
    split at h
    · simp at h
    · rename_i hname
      cases h
      rw [hc]
      exact .id (by simpa using hname)
  split at h
  · rename_i hc
    split at h
    · rename_i hname
      cases h
      rw [hc]
      exact .ofClass hname
    · simp at h
  split at h
  · rename_i hc
    obtain ⟨⟨t, left'⟩, hattr, h⟩ := bind_eq_ok_iff.mp h
    cases h
    rw [hc]
    exact .attr hattr
  split at h
  · rename_i hc
    rw [hc]
    exact .pseudo (readPseudo_eq_ok_iff.mp h)
  split at h
  · rename_i k hk
    cases h
    exact .combinator hk
  · split at h
    · rename_i hname
      cases h
      exact .tag hname
    · simp at h

/-- The characters that a symbol of a combinator can be. -/
theorem combinatorOfSymbol?_eq_some {c : Char} {k : Combinator}
    (h : combinatorOfSymbol? c = some k) :
    c = '>' ∨ c = '+' ∨ c = '~' := by
  unfold combinatorOfSymbol? at h
  split at h
  · exact .inl ‹_›
  split at h
  · exact .inr (.inl ‹_›)
  split at h
  · exact .inr (.inr ‹_›)
  · simp at h

private theorem readItem_of_readsItem {c : Char} {rest left : Text}
    {item : Item} (h : ReadsItem rest c item left) :
    readItem c rest = .ok (item, left) := by
  cases h with
  | blank hc hend => simp [readItem, hc, hend]
  | descendant hc hgap => simp [readItem, hc, hgap]
  | comma => rfl
  | combinator hk =>
    rcases combinatorOfSymbol?_eq_some hk with rfl | rfl | rfl <;>
    · cases hk
      rfl
  | universal => rfl
  | id hname =>
    have hname : (takeName rest).1.isEmpty = false := by simpa using hname
    show (if (takeName rest).1.isEmpty then _ else _) = _
    rw [hname]
    rfl
  | ofClass hname =>
    show (if startsName rest then _ else _) = _
    rw [if_pos hname]
  | attr hattr =>
    show (readAttribute rest >>= _) = _
    rw [hattr]
    rfl
  | pseudo hpseudo => exact readPseudo_eq_ok_iff.mpr hpseudo
  | tag hname =>
    have hc_ne : ∀ d : Char, isNameChar d = false → d ≠ '\\' → c ≠ d := by
      intro d hd hslash hcd
      rw [hcd] at hname
      rcases isNameChar_of_startsName hname with h | h
      · rw [h] at hd
        exact absurd hd (by decide)
      · exact hslash h
    have hblank : isSelectorBlank c = false := by
      cases hc : isSelectorBlank c with
      | false => rfl
      | true =>
        obtain ⟨hname, hslash⟩ := isNameChar_of_isSelectorBlank hc
        exact absurd rfl (hc_ne c hname hslash)
    have hsymbol : combinatorOfSymbol? c = none := by
      simp [combinatorOfSymbol?, hc_ne '>' (by decide) (by decide),
        hc_ne '+' (by decide) (by decide), hc_ne '~' (by decide) (by decide)]
    simp [readItem, hblank, hsymbol, hname, hc_ne ',' (by decide) (by decide),
      hc_ne '*' (by decide) (by decide), hc_ne '#' (by decide) (by decide),
        hc_ne '.' (by decide) (by decide),
      hc_ne '[' (by decide) (by decide), hc_ne ':' (by decide) (by decide)]

/-- What is read as one item of a selector. -/
theorem readItem_eq_ok_iff {c : Char} {rest left : Text} {item : Item} :
    readItem c rest = .ok (item, left) ↔ ReadsItem rest c item left :=
  ⟨readsItem_of_readItem, readItem_of_readsItem⟩

/-! ## Alternatives in pieces -/

/-- Alternatives that were read, the last of them still going on, in front of
what is read next. -/
def spliceFrom (a : Stream) :
    List Stream → Stream × List Stream → Stream × List Stream
  | [], r => (a ++ r.1, r.2)
  | a' :: as, r => (a, (spliceFrom a' as r).1 :: (spliceFrom a' as r).2)

/-- Two runs of alternatives, the last of the first being one with the first of
the second. -/
def splice (p r : Stream × List Stream) : Stream × List Stream :=
  spliceFrom p.1 p.2 r

theorem map_splice_nil (x : Except Fault (Stream × List Stream)) :
    x.map (splice ([], [])) = x := by
  cases x <;> rfl

private theorem splice_assoc (p q r : Stream × List Stream) :
    splice (splice p q) r = splice p (splice q r) := by
  obtain ⟨a, as⟩ := p
  obtain ⟨b, bs⟩ := q
  induction as generalizing a with
  | nil =>
    cases bs with
    | nil => exact Prod.ext (List.append_assoc a b r.1) rfl
    | cons b' bs => rfl
  | cons a' as ih =>
    have hrest := ih a'
    simp only [splice, spliceFrom] at hrest ⊢
    rw [hrest]

/-- Splicing twice is splicing once. -/
theorem map_splice_splice (p q : Stream × List Stream)
    (x : Except Fault (Stream × List Stream)) :
    (x.map (splice q)).map (splice p) = x.map (splice (splice p q)) := by
  cases x with
  | error fault => rfl
  | ok r => exact congrArg Except.ok (splice_assoc p q r).symm

/-- Behind a comma the alternatives in front stay as they are. -/
theorem splice_closed (a : Stream) (as bs : List Stream) :
    splice (a, as) ([], bs) = (a, as ++ bs) := by
  induction as generalizing a with
  | nil => simp [splice, spliceFrom]
  | cons a' as ih =>
    have hrest := ih a'
    simp only [splice, spliceFrom] at hrest ⊢
    rw [hrest]
    rfl

theorem splice_nil (r : Stream × List Stream) : splice r ([], []) = r := by
  rw [splice_closed, List.append_nil]

/-! ## Steps -/

/-- What an item adds behind an alternative with the given ending, and what that
then ends with. -/
inductive Adds (ending : Ending) : Item → Stream × List Stream → Ending → Prop
  | blank : Adds ending .blank ([], []) ending
  | comma (hend : ending.endProblem? = none) :
    Adds ending .comma ([], [[]]) .nothing
  | combinator {k : Combinator} {place : Nat}
    (hplace : ending.combinatorProblem? k = none) :
    Adds ending (.combinator k place) ([.combinator k], []) (.combinator k)
  | token {t : Token} : Adds ending (.token t) ([t], []) .simple
  | nested {name inner : Text} {behind : Nat} {first : Stream}
    {others : List Stream}
    (hinner : parseFrom .nothing (skipBlank inner) = .ok (first, others)) :
    Adds ending (.nested name inner behind)
      ([.pseudoClass name (some (.selectors (first :: others)))], []) .simple

/-- Reading goes on behind an item with what the item adds in front. -/
theorem parseFrom_of_adds {ending next : Ending} {c : Char} {rest left : Text}
    {item : Item} {piece : Stream × List Stream}
    (hitem : readItem c rest = .ok (item, left))
    (hadds : Adds ending item piece next) :
    parseFrom ending (c :: rest) =
      (parseFrom next left).map (splice piece) := by
  rw [parseFrom]
  cases hadds with
  | blank =>
    rw [map_splice_nil]
    split <;> simp_all
  | comma hend =>
    split <;> simp_all [Except.map, bind, Except.bind, splice, spliceFrom]
  | combinator hplace =>
    split <;> simp_all [Except.map, bind, Except.bind, splice, spliceFrom]
  | token =>
    split <;> simp_all [Except.map, bind, Except.bind, splice, spliceFrom]
  | nested hinner =>
    split <;> simp_all [Except.map, bind, Except.bind, splice, spliceFrom]

/-- Reading succeeds on an item if what the item adds can stand there and
reading goes on behind it. -/
theorem parseFrom_eq_ok_iff {ending : Ending} {c : Char} {rest : Text}
    {r : Stream × List Stream} :
    parseFrom ending (c :: rest) = .ok r ↔
      ∃ item left piece next r', readItem c rest = .ok (item, left) ∧
        Adds ending item piece next ∧
        parseFrom next left = .ok r' ∧ splice piece r' = r := by
  constructor
  · intro h
    have hadds : ∃ item left piece next, readItem c rest = .ok (item, left) ∧
        Adds ending item piece next := by
      rw [parseFrom] at h
      split at h
      · simp at h
      · exact ⟨_, _, _, _, ‹_›, .blank⟩
      · split at h
        · simp at h
        · exact ⟨_, _, _, _, ‹_›, .comma ‹_›⟩
      · split at h
        · simp at h
        · exact ⟨_, _, _, _, ‹_›, .combinator ‹_›⟩
      · exact ⟨_, _, _, _, ‹_›, .token⟩
      · split at h
        · simp at h
        · exact ⟨_, _, _, _, ‹_›, .nested ‹_›⟩
    obtain ⟨item, left, piece, next, hitem, hadds⟩ := hadds
    rw [parseFrom_of_adds hitem hadds] at h
    obtain ⟨r', hr', hr⟩ := map_eq_ok_iff.mp h
    exact ⟨item, left, piece, next, r', hitem, hadds, hr', hr⟩
  · rintro ⟨item, left, piece, next, r', hitem, hadds, hr', rfl⟩
    rw [parseFrom_of_adds hitem hadds, hr']
    rfl

/-- A selector is read behind its leading blanks. -/
theorem parse_eq_ok_iff {t : Text} {streams : List Stream} :
    parse t = .ok streams ↔
      ∃ r, parseFrom .nothing (skipBlank t) = .ok r ∧ streams = r.1 :: r.2 := by
  unfold parse
  cases parseFrom .nothing (skipBlank t) with
  | error fault => simp
  | ok r => simp [eq_comm]

end SelectorPath.Selector
