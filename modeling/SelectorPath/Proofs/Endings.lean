import SelectorPath.Proofs.Spans

/-!
# What follows a selector list

A selector list that is read to its end is read the same way in front of blanks,
a comma or a closing parenthesis: every reader that stopped at the end stops
there too. And where it is read in front of blanks, it is read without them,
unless the blanks had belonged to an escape.

Both are one fact about items, in which one ending is exchanged for another
(`readItem_exchange`), and one about whole lists (`parseFrom_exchange`).

## Main results

* `parseFrom_exchange`: reading a list in front of another ending.
* `dangles_of_parseFrom`: no list that is read ends inside an escape.
-/

namespace SelectorPath.Selector

open SelectorPath.Text (isSelectorBlank skipBlank trimBy)

/-! ## Blanks -/

private theorem all_of_skipBlank {p : Text} (h : skipBlank p = []) :
    ∀ c ∈ p, isSelectorBlank c = true := by
  obtain ⟨w, hw, hp⟩ := exists_skipBlank p
  rw [h, List.append_nil] at hp
  rw [hp]
  exact List.all_eq_true.mp hw

/-- A text of blanks stops whatever stands in front of it. -/
theorem stops_of_skipBlank {p : Text} (h : skipBlank p = []) :
    stops p = true := by
  rw [stops, h]
  rfl

/-- Blanks in front decide nothing about a lone backslash at the end. -/
theorem dangles_skipBlank (t : Text) : dangles (skipBlank t) = dangles t := by
  obtain ⟨w, hw, ht⟩ := exists_skipBlank t
  have hblank := dangles_of_not_mem (backslash_not_mem_of_all (by decide) hw)
  calc dangles (skipBlank t) =
    dangles (w ++ skipBlank t) := (dangles_append hblank _).symm
    _ = dangles t := by rw [← ht]

/-- Blanks are skipped up to what follows them, and in a blank text beyond its
end. -/
theorem skipBlank_append_stop (z more : Text) :
    ∃ more', skipBlank (z ++ more) = skipBlank z ++ more' ∧
      skipBlank more' = skipBlank more := by
  obtain ⟨w, hw, hz⟩ := exists_skipBlank z
  by_cases hend : skipBlank z = []
  · refine ⟨skipBlank more, ?_, ?_⟩
    · rw [hend, List.append_nil] at hz
      rw [hend, hz, skipBlank_append hw, List.nil_append]
    · exact skipBlank_of_head? (Text.head?_dropWhile isSelectorBlank more)
  · refine ⟨more, ?_, rfl⟩
    have hhead : (skipBlank z ++ more).head? = (skipBlank z).head? := by
      rw [head?_append_of_ne hend [], List.append_nil]
    calc skipBlank (z ++ more) = skipBlank (w ++ (skipBlank z ++ more)) := by
          rw [← List.append_assoc, ← hz]
      _ = skipBlank (skipBlank z ++ more) := skipBlank_append hw _
      _ = skipBlank z ++ more := skipBlank_of_head? (by
          rw [hhead]
          exact Text.head?_dropWhile isSelectorBlank z)

/-- A character that is no blank does not stand in the blanks at the end. -/
theorem append_eq_append_cons {z p front left : Text} {c : Char}
    (hp : skipBlank p = []) (hc : isSelectorBlank c = false)
    (h : z ++ p = front ++ c :: left) :
    ∃ z', z = front ++ c :: z' ∧ left = z' ++ p := by
  rcases List.append_eq_append_iff.mp h with ⟨more, hfront, hrest⟩ |
      ⟨more, hz, hrest⟩
  · have hmem : c ∈ p := by
      rw [hrest]
      simp
    rw [all_of_skipBlank hp c hmem] at hc
    exact absurd hc (by decide)
  · cases more with
    | nil =>
      have hmem : c ∈ p := by
        rw [List.nil_append] at hrest
        rw [← hrest]
        simp
      rw [all_of_skipBlank hp c hmem] at hc
      exact absurd hc (by decide)
    | cons d more =>
      obtain ⟨rfl, hleft⟩ := List.cons.inj hrest
      exact ⟨more, hz, hleft⟩

/-! ## Names -/

private theorem dangles_takeName (t : Text) :
    dangles (takeName t).2 = dangles t := by
  obtain ⟨taken, heq, hdangles, -⟩ := takeName_takes t
  calc dangles (takeName t).2 =
    dangles (taken ++ (takeName t).2) := (dangles_append hdangles _).symm
    _ = dangles t := by rw [← heq]

private theorem dangles_append_cons (a : Text) {c : Char} (hc : c ≠ '\\')
    (b : Text) :
    dangles (a ++ c :: b) = dangles b := by
  have hfront := dangles_append (dangles_concat a hc) b
  rwa [List.append_assoc] at hfront

private theorem startsName_cons {c : Char} (hc : c ≠ '-') (rest : Text) :
    startsName (c :: rest) = (isNameStart c || startsEscape (c :: rest)) := by
  rw [startsName]
  intro d more heq
  exact absurd heq hc

private theorem startsName_of_stops {t : Text} (h : stops t = true) :
    startsName t = false := by
  cases hname : startsName t with
  | false => rfl
  | true =>
    have hextends := extendsName_of_startsName hname
    rw [extendsName_of_stops h] at hextends
    exact absurd hextends (by decide)

/-- A name starts in front of another ending as well. -/
theorem startsName_exchange {z p : Text} (hz : dangles z = false)
    (hp : stops p = true) (h : startsName (z ++ p) = true) (q : Text) :
    startsName (z ++ q) = true := by
  cases z with
  | nil =>
    rw [List.nil_append, startsName_of_stops hp] at h
    exact absurd h (by decide)
  | cons c rest =>
    by_cases hdash : c = '-'
    · subst hdash
      rw [dangles_cons (by decide)] at hz
      cases rest with
      | nil =>
        -- A dash alone starts no name, and no ending goes on with one.
        cases p with
        | nil => exact absurd h (by decide)
        | cons d p =>
          have hd := extendsName_of_stops hp
          rw [extendsName, Bool.or_eq_false_iff] at hd
          have hstart : isNameStart d = false ∧ d ≠ '-' := by
            have hchar := hd.1
            simp only [isNameChar, Bool.or_eq_false_iff, beq_eq_false_iff_ne]
              at hchar
            exact ⟨hchar.1.1, hchar.2⟩
          simp [startsName, hstart, hd.2] at h
      | cons d rest =>
        have hescape := startsEscape_append (List.cons_ne_nil d rest) hz
        have hp' := hescape p
        have hq' := hescape q
        simp only [List.cons_append, startsName] at h hp' hq' ⊢
        rw [hp'] at h
        rw [hq']
        exact h
    · have hescape := startsEscape_append (List.cons_ne_nil c rest) hz
      have hp' := hescape p
      have hq' := hescape q
      rw [List.cons_append] at h hp' hq' ⊢
      rw [startsName_cons hdash, hp'] at h
      rw [startsName_cons hdash, hq']
      exact h

/-- A name is the same in front of two endings, and so is what is left of the
text. -/
theorem takeName_exchange {z p q : Text} (hz : dangles z = false)
    (hp : stops p = true) (hq : stops q = true) :
    ∃ name z' p' q', takeName (z ++ p) = (name, z' ++ p') ∧
      takeName (z ++ q) = (name, z' ++ q') ∧
      skipBlank p' = skipBlank p ∧ skipBlank q' = skipBlank q ∧
        dangles z' = false := by
  obtain ⟨p', hreadp, hskipp⟩ := takeName_append hz hp
  obtain ⟨q', hreadq, hskipq⟩ := takeName_append hz hq
  exact ⟨_, _, p', q', hreadp, hreadq, hskipp, hskipq,
    (dangles_takeName z).trans hz⟩

/-- An argument stands for itself, whatever follows its closing parenthesis. -/
theorem takeArgument_exchange {z p inside raw left : Text}
    (hz : dangles z = false) (hp : skipBlank p = [])
    (hopen : z ++ p = '(' :: inside)
    (hraw : takeArgument inside = (.ok raw, left)) :
    ∃ z₁ z₂, z = '(' :: z₁ ∧ left = z₂ ++ p ∧ dangles z₂ = false ∧
      ∀ q : Text, takeArgument (z₁ ++ q) = (.ok raw, z₂ ++ q) := by
  obtain ⟨z₁, rfl, rfl⟩ :=
    @append_eq_append_cons _ _ [] _ _ hp (by decide) hopen
  obtain ⟨hinside, hbalanced⟩ := takeArgument_eq_ok_iff.mp hraw
  obtain ⟨z₂, rfl, rfl⟩ := append_eq_append_cons hp (by decide) hinside
  refine ⟨_, z₂, rfl, rfl, ?_,
    fun q => takeArgument_eq_ok_iff.mpr ⟨by simp, hbalanced⟩⟩
  rw [List.nil_append, dangles_cons (by decide),
    dangles_append_cons raw (by decide)] at hz
  exact hz

/-! ## Items -/

/-- An item without the places at which it would be refused. -/
def Item.placeless : Item → Item
  | .combinator k _ => .combinator k 0
  | .nested name inner _ => .nested name inner 0
  | item => item

/-- What an item adds does not depend on places. -/
theorem Adds.of_placeless {ending next : Ending} {item item' : Item}
    {piece : Stream × List Stream} (h : Adds ending item piece next)
    (hitem : item'.placeless = item.placeless) :
    Adds ending item' piece next := by
  cases h with
  | blank =>
    cases item' <;> cases hitem
    exact .blank
  | comma hend =>
    cases item' <;> cases hitem
    exact .comma hend
  | combinator hplace =>
    cases item' <;> cases hitem
    exact .combinator hplace
  | token =>
    cases item' <;> cases hitem
    exact .token
  | nested hinner =>
    cases item' <;> cases hitem
    exact .nested hinner

/-- The item that starts with `c` is the same in front of the endings `p` and
`q`, and `z'` is what is left of `z`. -/
structure Exchanges (c : Char) (z p q : Text) (item : Item) (left : Text)
    (z' p' q' : Text) (item' : Item) : Prop where
  left_eq : left = z' ++ p'
  read : ReadsItem (z ++ q) c item' (z' ++ q')
  placeless : item'.placeless = item.placeless
  first : skipBlank p' = skipBlank p
  second : skipBlank q' = skipBlank q
  complete : dangles z' = false

/-- The colons of a pseudo-class belong to what stands behind them. -/
theorem marked_append (isElement : Bool) (a b : Text) :
    marked isElement a ++ b = marked isElement (a ++ b) := by
  cases isElement <;> rfl

/-- The mark of a pseudo-element stands in front of the ending. -/
theorem exists_marked {z p ahead : Text} {isElement : Bool}
    (hp : skipBlank p = []) (h : z ++ p = marked isElement ahead) :
    ∃ z₁, z = marked isElement z₁ ∧ ahead = z₁ ++ p := by
  cases isElement with
  | false => exact ⟨z, rfl, h.symm⟩
  | true => exact @append_eq_append_cons _ _ [] _ _ hp (by decide) h

private theorem dangles_marked (isElement : Bool) (t : Text) :
    dangles (marked isElement t) = dangles t := by
  cases isElement with
  | false => rfl
  | true => exact dangles_cons (by decide) t

private theorem head?_ne_of_stops {z p q : Text} (hq : stops q = true)
    (h : (z ++ p).head? ≠ some '(') :
    (z ++ q).head? ≠ some '(' := by
  cases z with
  | cons c z => exact h
  | nil =>
    intro hhead
    cases q with
    | nil => simp at hhead
    | cons c q =>
      cases hhead
      exact absurd (stops_cons hq) (by decide)

/-- A name with an argument is the same in front of both endings. -/
theorem argument_exchange {z p q inside raw left : Text}
    (hz : dangles z = false) (hp : skipBlank p = []) (hq : stops q = true)
    (hopen : (takeName (z ++ p)).2 = '(' :: inside)
    (hraw : takeArgument inside = (.ok raw, left)) :
    ∃ z' p' q' inside', left = z' ++ p' ∧ skipBlank p' = skipBlank p ∧
      skipBlank q' = skipBlank q ∧
      dangles z' = false ∧ pseudoName (z ++ q) = pseudoName (z ++ p) ∧
      (takeName (z ++ q)).2 = '(' :: inside' ∧ takeArgument inside' =
        (.ok raw, z' ++ q') := by
  obtain ⟨name, z₁, p', q', hreadp, hreadq, hskipp, hskipq, hdangles⟩ :=
    takeName_exchange hz (stops_of_skipBlank hp) hq
  rw [hreadp] at hopen
  obtain ⟨z₂, z', rfl, rfl, hdangles', hraw'⟩ :=
    takeArgument_exchange hdangles (hskipp.trans hp) hopen hraw
  refine ⟨z', p', q', z₂ ++ q', rfl, hskipp, hskipq, hdangles', ?_, ?_,
    hraw' q'⟩
  · rw [pseudoName, pseudoName, hreadp, hreadq]
  · rw [hreadq]
    rfl

private theorem readPseudo_exchange {z p q left : Text} {item : Item}
    (hz : dangles z = false) (hp : skipBlank p = []) (hq : stops q = true)
    (h : ReadsPseudo (z ++ p) item left) :
    ∃ z' p' q' item', Exchanges ':' z p q item left z' p' q' item' := by
  have hstops := stops_of_skipBlank hp
  generalize hmark : z ++ p = ahead at h
  cases h with
  | @bare isElement ahead hname hbare =>
    obtain ⟨z₁, rfl, rfl⟩ := exists_marked hp hmark
    rw [dangles_marked] at hz
    obtain ⟨name, z', p', q', hreadp, hreadq, hskipp, hskipq, hdangles⟩ :=
      takeName_exchange hz hstops hq
    have hname' := startsName_exchange hz hstops hname q
    have hbare' : (takeName (z₁ ++ q)).2.head? ≠ some '(' := by
      rw [hreadp] at hbare
      rw [hreadq]
      exact head?_ne_of_stops (by rw [stops, hskipq]; exact hq) hbare
    have hread := @ReadsPseudo.bare isElement _ hname' hbare'
    rw [← marked_append, pseudoName, hreadq] at hread
    refine ⟨z', p', q', _, by rw [hreadp], .pseudo hread, ?_, hskipp, hskipq,
      hdangles⟩
    rw [pseudoName, hreadp]
  | @text isElement ahead inside raw left hname hopen hraw hkind =>
    obtain ⟨z₁, rfl, rfl⟩ := exists_marked hp hmark
    rw [dangles_marked] at hz
    have hname' := startsName_exchange hz hstops hname q
    obtain ⟨z', p', q', inside', hleft, hskipp, hskipq, hdangles, hsame, hopen',
        hraw'⟩ :=
      argument_exchange hz hp hq hopen hraw
    rw [← hsame] at hkind ⊢
    have hread := @ReadsPseudo.text isElement _ _ _ _ hname' hopen' hraw' hkind
    rw [← marked_append] at hread
    exact ⟨z', p', q', _, hleft, .pseudo hread, rfl, hskipp, hskipq, hdangles⟩
  | nested hname hopen hraw hkind =>
    subst hmark
    have hname' := startsName_exchange hz hstops hname q
    obtain ⟨z', p', q', inside', hleft, hskipp, hskipq, hdangles, hsame, hopen',
        hraw'⟩ :=
      argument_exchange hz hp hq hopen hraw
    rw [← hsame] at hkind ⊢
    have hread := ReadsPseudo.nested hname' hopen' hraw' hkind
    exact ⟨z', p', q', _, hleft, .pseudo hread, rfl, hskipp, hskipq, hdangles⟩

private theorem startsCompound_append {t : Text} (h : t ≠ []) (more : Text) :
    startsCompound (t ++ more) = startsCompound t := by
  cases t with
  | nil => exact absurd rfl h
  | cons c rest => rfl

/-- An item is read in front of another ending, unless only blanks stand in
front of that: these would become a combinator in front of a parenthesis. -/
theorem readItem_exchange {c : Char} {z p q left : Text} {item : Item}
    (hz : dangles (c :: z) = false) (hp : skipBlank p = [])
    (hq : stops q = true) (hsolid : isSelectorBlank c = true → skipBlank z ≠ [])
    (h : readItem c (z ++ p) = .ok (item, left)) :
    ∃ z' p' q' item', Exchanges c z p q item left z' p' q' item' := by
  have hstops := stops_of_skipBlank hp
  have hrest : c ≠ '\\' → dangles z = false := by
    intro hc
    rwa [dangles_cons hc] at hz
  -- Every item but a name and what has a closing character of its own skips the
  -- blanks behind it.
  obtain ⟨p₁, hp₁, hskipp⟩ := skipBlank_append_stop z p
  obtain ⟨q₁, hq₁, hskipq⟩ := skipBlank_append_stop z q
  have hblanks : ∀ {item' : Item}, c ≠ '\\' →
      ReadsItem (z ++ q) c item' (skipBlank (z ++ q)) →
      item'.placeless = item.placeless → left = skipBlank (z ++ p) →
      ∃ z' p' q' item', Exchanges c z p q item left z' p' q' item' := by
    intro item' hc hread hplace hleft
    rw [hq₁] at hread
    rw [hp₁] at hleft
    exact ⟨skipBlank z, p₁, q₁, item', hleft, hread, hplace, hskipp, hskipq,
      by rw [dangles_skipBlank, hrest hc]⟩
  cases readItem_eq_ok_iff.mp h with
  | blank hc hend =>
    refine hblanks (isNameChar_of_isSelectorBlank hc).2 (.blank hc ?_) rfl rfl
    rw [hp₁, startsCompound_append (hsolid hc)] at hend
    rw [hq₁, startsCompound_append (hsolid hc), hend]
  | descendant hc hgap =>
    refine hblanks (isNameChar_of_isSelectorBlank hc).2 (.descendant hc ?_)
      rfl rfl
    rw [hp₁, startsCompound_append (hsolid hc)] at hgap
    rw [hq₁, startsCompound_append (hsolid hc), hgap]
  | comma => exact hblanks (by decide) .comma rfl rfl
  | combinator hk =>
    have hc : c ≠ '\\' := by
      rcases combinatorOfSymbol?_eq_some hk with rfl | rfl | rfl <;> decide
    exact hblanks hc (.combinator hk) rfl rfl
  | universal =>
    exact ⟨z, p, q, _, rfl, .universal, rfl, rfl, rfl, hrest (by decide)⟩
  | id hname =>
    obtain ⟨name, z', p', q', hreadp, hreadq, hskipp, hskipq, hdangles⟩ :=
      takeName_exchange (hrest (by decide)) hstops hq
    rw [hreadp] at hname ⊢
    have hread := @ReadsItem.id (z ++ q) (by rw [hreadq]; exact hname)
    rw [hreadq] at hread
    exact ⟨z', p', q', _, rfl, hread, rfl, hskipp, hskipq, hdangles⟩
  | ofClass hname =>
    obtain ⟨name, z', p', q', hreadp, hreadq, hskipp, hskipq, hdangles⟩ :=
      takeName_exchange (hrest (by decide)) hstops hq
    have hread := ReadsItem.ofClass
      (startsName_exchange (hrest (by decide)) hstops hname q)
    rw [hreadq] at hread
    rw [hreadp]
    exact ⟨z', p', q', _, rfl, hread, rfl, hskipp, hskipq, hdangles⟩
  | attr hattr =>
    obtain ⟨body, hbody, hread⟩ := readAttribute_closed hattr
    obtain ⟨z', rfl, rfl⟩ := append_eq_append_cons hp (by decide) hbody
    have hread' := hread (z' ++ q)
    rw [← List.cons_append, ← List.append_assoc] at hread'
    have hz' := hrest (by decide)
    rw [dangles_append_cons body (by decide)] at hz'
    exact ⟨z', p, q, _, rfl, .attr hread', rfl, rfl, rfl, hz'⟩
  | pseudo hpseudo =>
    exact readPseudo_exchange (hrest (by decide)) hp hq hpseudo
  | tag hname =>
    obtain ⟨name, z', p', q', hreadp, hreadq, hskipp, hskipq, hdangles⟩ :=
      takeName_exchange hz hstops hq
    rw [List.cons_append] at hreadp hreadq
    have hread :=
      @ReadsItem.tag (z ++ q) c (startsName_exchange hz hstops hname q)
    rw [hreadq] at hread
    rw [hreadp]
    exact ⟨z', p', q', _, rfl, hread, rfl, hskipp, hskipq, hdangles⟩

/-! ## Escapes at the end -/

private theorem dangles_readPseudo {ahead left : Text} {item : Item}
    (h : ReadsPseudo ahead item left) :
    dangles left = dangles ahead := by
  have hargument : ∀ {ahead inside raw left : Text},
      (takeName ahead).2 = '(' :: inside →
      takeArgument inside = (.ok raw, left) → dangles left = dangles ahead := by
    intro ahead inside raw left hopen hraw
    rw [← dangles_takeName ahead, hopen, dangles_cons (by decide),
      (takeArgument_eq_ok_iff.mp hraw).1, dangles_append_cons raw (by decide)]
  cases h with
  | bare hname hbare => rw [dangles_marked, dangles_takeName]
  | text hname hopen hraw hkind => rw [dangles_marked, hargument hopen hraw]
  | nested hname hopen hraw hkind => exact hargument hopen hraw

/-- No item ends inside an escape. -/
theorem dangles_readItem {c : Char} {rest left : Text} {item : Item}
    (h : readItem c rest = .ok (item, left)) :
    dangles left = dangles (c :: rest) := by
  cases readItem_eq_ok_iff.mp h with
  | blank hc hend =>
    rw [dangles_skipBlank, dangles_cons (isNameChar_of_isSelectorBlank hc).2]
  | descendant hc hgap =>
    rw [dangles_skipBlank, dangles_cons (isNameChar_of_isSelectorBlank hc).2]
  | comma => rw [dangles_skipBlank, dangles_cons (by decide)]
  | combinator hk =>
    rw [dangles_skipBlank]
    rcases combinatorOfSymbol?_eq_some hk with rfl | rfl | rfl <;>
      rw [dangles_cons (by decide)]
  | universal => rw [dangles_cons (by decide)]
  | id hname => rw [dangles_takeName, dangles_cons (by decide)]
  | ofClass hname => rw [dangles_takeName, dangles_cons (by decide)]
  | attr hattr =>
    obtain ⟨body, hbody, -⟩ := readAttribute_closed hattr
    rw [hbody, dangles_cons (by decide), dangles_append_cons body (by decide)]
  | pseudo hpseudo => rw [dangles_readPseudo hpseudo, dangles_cons (by decide)]
  | tag hname => rw [dangles_takeName]

/-- No selector list that is read ends inside an escape. -/
theorem dangles_of_parseFrom {ending : Ending} {t : Text}
    {r : Stream × List Stream} (h : parseFrom ending t = .ok r) :
    dangles t = false := by
  induction hn : t.length using Nat.strongRecOn generalizing ending t r with
  | ind n ih =>
    cases t with
    | nil => rfl
    | cons c rest =>
      obtain ⟨item, left, piece, next, r', hitem, -, hleft, -⟩ :=
        parseFrom_eq_ok_iff.mp h
      have hweight := readItem_weight hitem
      rw [← dangles_readItem hitem]
      refine ih left.length ?_ hleft rfl
      rw [← hn, List.length_cons]
      omega

/-! ## Lists -/

/-- Blanks in front of the end or a comma are skipped. -/
theorem parseFrom_skipBlank {ending : Ending} {t : Text}
    (h : startsCompound (skipBlank t) = false) :
    parseFrom ending t = parseFrom ending (skipBlank t) := by
  cases t with
  | nil => rfl
  | cons c rest =>
    by_cases hc : isSelectorBlank c = true
    · have hskip : skipBlank (c :: rest) = skipBlank rest :=
        List.dropWhile_cons_of_pos hc
      rw [hskip] at h ⊢
      rw [parseFrom_of_adds (readItem_eq_ok_iff.mpr (.blank hc h)) .blank,
        map_splice_nil]
    · rw [skipBlank_of_head? (by simpa using hc)]

/-- At the end of the text a compound must have ended, and nothing is left to
read. -/
theorem parseFrom_nil {ending : Ending} {r : Stream × List Stream}
    (h : parseFrom ending [] = .ok r) :
    ending = .simple ∧ r = ([], []) := by
  rw [parseFrom] at h
  cases ending with
  | nothing => simp [Ending.endProblem?] at h
  | simple =>
    cases h
    exact ⟨rfl, rfl⟩
  | combinator k => simp [Ending.endProblem?] at h

/-- A selector list is read in front of another ending: `q'` is `q` up to
blanks. -/
theorem parseFrom_exchange {ending : Ending} {z p q : Text}
    {r : Stream × List Stream} (h : parseFrom ending (z ++ p) = .ok r)
    (hz : dangles z = false) (hp : skipBlank p = []) (hq : stops q = true) :
    ∃ q', skipBlank q' = skipBlank q ∧
      parseFrom ending (z ++ q) = (parseFrom .simple q').map (splice r) := by
  -- An item takes a blank of the endings at most, so both get shorter along the
  -- way.
  induction hn : (z ++ p).length using Nat.strongRecOn
      generalizing ending z p q r with
  | ind n ih =>
    by_cases hblank : skipBlank z = []
    · have hall := List.all_eq_true.mpr (all_of_skipBlank hblank)
      have hend : skipBlank (z ++ p) = [] := by rw [skipBlank_append hall, hp]
      rw [parseFrom_skipBlank (by rw [hend]; rfl), hend] at h
      obtain ⟨rfl, rfl⟩ := parseFrom_nil h
      exact ⟨z ++ q, skipBlank_append hall q, (map_splice_nil _).symm⟩
    · cases z with
      | nil => exact absurd rfl hblank
      | cons c z =>
        have hsolid : isSelectorBlank c = true → skipBlank z ≠ [] := by
          intro hc
          rwa [show skipBlank (c :: z) =
            skipBlank z from List.dropWhile_cons_of_pos hc] at hblank
        rw [List.cons_append] at h hn
        obtain ⟨item, left, piece, next, r', hitem, hadds, hleft, rfl⟩ :=
          parseFrom_eq_ok_iff.mp h
        obtain ⟨z', p', q', item', hexchange⟩ :=
          readItem_exchange hz hp hq hsolid hitem
        have hweight := readItem_weight hitem
        rw [hexchange.left_eq] at hleft hweight
        have hstops : stops q' = true := by
          rw [stops, hexchange.second]
          exact hq
        have hshorter : (z' ++ p').length < n := by
          rw [← hn, List.length_cons]
          omega
        obtain ⟨q'', hskip, hread⟩ :=
          ih _ hshorter hleft hexchange.complete (hexchange.first.trans hp)
            hstops rfl
        refine ⟨q'', hskip.trans hexchange.second, ?_⟩
        have hitem' := readItem_eq_ok_iff.mpr hexchange.read
        have hadds' := hadds.of_placeless hexchange.placeless
        rw [List.cons_append, parseFrom_of_adds hitem' hadds', hread,
          map_splice_splice]

end SelectorPath.Selector
