import Mathlib
import SelectorPath.Proofs.ArgumentSpans

/-!
# Places of faults

A reader that fails tells how many characters it still had ahead, which are
never more than it was given. So the offset of a fault, which is the length of
the text without them, lies in the text.

The selector list of a pseudo-class is read by a reader of its own that sees
nothing but the list. What stands behind the list is added to what this reader
had ahead when it failed. The offset in the whole text is then the offset in the
list, counted from where the list starts, and so on through every list around
it.

## Main results

* `left_le_of_parseFrom`: a reader has no more ahead than it was given.
* `exists_span_of_readItem`: the characters behind a nested list are counted
  rightly.
* `position_of_parse_error`: the offset of a fault, and its place in the lists
  that it lies in.
-/

namespace SelectorPath

open SelectorPath.Text (isSelectorBlank skipBlank trimBy)
open SelectorPath.Selector

/-! ## Faults of items -/

private theorem bind_eq_error_iff {ε α β : Type} {x : Except ε α}
    {f : α → Except ε β} {e : ε} :
    (x >>= f) = .error e ↔ x = .error e ∨ ∃ a, x = .ok a ∧ f a = .error e := by
  cases x with
  | error e' => simp [bind, Except.bind]
  | ok a => simp [bind, Except.bind]

private theorem left_le_of_readAttributeName {t : Text} {fault : Fault}
    (h : readAttributeName t = .error fault) :
    fault.left ≤ t.length := by
  unfold readAttributeName at h
  simp only at h
  split at h
  · cases h
    exact (length_takeName_le _).trans (Text.length_skipBlank_le t)
  · cases h

private theorem left_le_of_readTest {t : Text} {fault : Fault}
    (h : readTest t = .error fault) :
    fault.left ≤ t.length := by
  unfold readTest at h
  split at h
  · cases h
    exact Nat.zero_le _
  · cases h
  · rename_i c left hequals
    split at h
    · cases h
      exact Nat.le_succ _
    · split at h
      · cases h
      · cases h
        show left.length - 1 ≤ left.length + 1
        omega

private theorem left_le_of_readValue {name t : Text} {fault : Fault}
    (h : readValue name t = .error fault) :
    fault.left ≤ t.length := by
  unfold readValue at h
  split at h
  · cases h
    exact Nat.zero_le _
  · split at h
    · split at h
      · cases h
      · cases h
        exact le_rfl
    · simp only at h
      split at h
      · cases h
        exact Text.length_dropWhile_le _ _
      · cases h

private theorem left_le_of_readClosing {t : Text} {fault : Fault}
    (h : readClosing t = .error fault) :
    fault.left ≤ t.length := by
  unfold readClosing at h
  split at h
  · cases h
    exact Nat.zero_le _
  · cases h
  · cases h
    exact Nat.le_succ _

/-- The parts of an attribute test are read one behind the other, each from no
more than the one in front of it left. -/
theorem left_le_of_readAttribute {t : Text} {fault : Fault}
    (h : readAttribute t = .error fault) :
    fault.left ≤ t.length := by
  unfold readAttribute at h
  rcases bind_eq_error_iff.mp h with hname | ⟨⟨name, left₁⟩, hname, h⟩
  · exact left_le_of_readAttributeName hname
  have hlength₁ := readAttributeName_length hname
  have hskip₁ := Text.length_skipBlank_le left₁
  simp only at h
  split at h
  · cases h
  rcases bind_eq_error_iff.mp h with htest | ⟨⟨test, left₂⟩, htest, h⟩
  · have hleft : fault.left ≤ (skipBlank left₁).length :=
      left_le_of_readTest htest
    omega
  have hlength₂ := readTest_length htest
  have hskip₂ := Text.length_skipBlank_le left₂
  rcases bind_eq_error_iff.mp h with hvalue | ⟨⟨value, left₃⟩, hvalue, h⟩
  · have hleft : fault.left ≤ (skipBlank left₂).length :=
      left_le_of_readValue hvalue
    omega
  have hlength₃ : left₃.length ≤ (skipBlank left₂).length :=
    readValue_length hvalue
  have hskip₃ := Text.length_skipBlank_le left₃
  have hflag := length_takeFlag_le (skipBlank left₃)
  have hskip₄ := Text.length_skipBlank_le (takeFlag (skipBlank left₃)).2
  rcases bind_eq_error_iff.mp h with hclose | ⟨left₄, hclose, h⟩
  · have hleft : fault.left ≤
        (skipBlank (takeFlag (skipBlank left₃)).2).length :=
      left_le_of_readClosing hclose
    omega
  · cases h

private theorem left_le_of_readPseudo {t : Text} {fault : Fault}
    (h : readPseudo t = .error fault) :
    fault.left ≤ t.length := by
  unfold readPseudo at h
  simp only at h
  have hle : (if (t.head? == some ':') = true then t.tail else t).length ≤
      t.length := by
    split
    · rw [List.length_tail]
      omega
    · exact le_rfl
  generalize (if (t.head? == some ':') = true then t.tail else t) =
    ahead at h hle
  split at h
  · cases h
    exact hle
  · have hname := length_takeName_le ahead
    split at h
    · rename_i left hleft
      rw [hleft, List.length_cons] at hname
      split at h
      · cases h
        show left.length + 1 ≤ t.length
        omega
      · split at h
        · cases h
        · cases h
    · cases h

private theorem left_le_of_readItem {c : Char} {rest : Text} {fault : Fault}
    (h : readItem c rest = .error fault) :
    fault.left ≤ (c :: rest).length := by
  rw [List.length_cons]
  unfold readItem at h
  split at h
  · simp only at h
    split at h <;> cases h
  split at h
  · cases h
  split at h
  · cases h
  split at h
  · simp only at h
    split at h
    · cases h
      have hname := length_takeName_le rest
      show (takeName rest).2.length ≤ rest.length + 1
      omega
    · cases h
  split at h
  · split at h
    · cases h
    · cases h
      exact Nat.le_succ _
  split at h
  · rcases bind_eq_error_iff.mp h with hattr | ⟨r, -, h⟩
    · exact (left_le_of_readAttribute hattr).trans (Nat.le_succ _)
    · cases h
  split at h
  · exact (left_le_of_readPseudo h).trans (Nat.le_succ _)
  split at h
  · cases h
  · split at h
    · cases h
    · cases h
      exact le_rfl

/-! ## Nested lists -/

/-- What trimming takes off the end of an argument. If all of it is blank, that
goes to its front. -/
theorem exists_trailingBlanks (raw : Text) :
    ∃ before behind : Text,
      raw = before ++ trimBy isSelectorBlank raw ++ behind ∧
      behind.length = trailingBlanks raw := by
  obtain ⟨before, -, hraw⟩ := exists_skipBlank raw
  obtain ⟨behind, -, hskip⟩ :=
    Text.exists_trimEndBy isSelectorBlank (skipBlank raw)
  have htrim : skipBlank raw = trimBy isSelectorBlank raw ++ behind := hskip
  refine ⟨before, behind, ?_, ?_⟩
  · rw [List.append_assoc, ← htrim]
    exact hraw
  · rw [trailingBlanks, htrim, List.length_append]
    omega

/-- The list of a pseudo-class stands in the text, in front of as many
characters as the item says. -/
theorem exists_span_of_readItem {c : Char} {rest left name inner : Text}
    {place : Nat} (h : readItem c rest = .ok (.nested name inner place, left)) :
    ∃ before behind : Text, c :: rest = before ++ inner ++ behind ∧
      behind.length = place := by
  cases readItem_eq_ok_iff.mp h with
  | pseudo hpseudo =>
    cases hpseudo with
    | @nested _ inside raw _ hname hopen hraw hkind =>
      obtain ⟨taken, hrest, -⟩ := takeName_takes rest
      obtain ⟨hinside, -⟩ := takeArgument_eq_ok_iff.mp hraw
      obtain ⟨before, behind, htrim, hlength⟩ := exists_trailingBlanks raw
      refine ⟨':' :: taken ++ '(' :: before, behind ++ ')' :: left, ?_, ?_⟩
      · rw [hopen, hinside] at hrest
        rw [hrest]
        conv_lhs => rw [htrim]
        simp
      · rw [List.length_append, List.length_cons, hlength]
        omega

/-- A list in which reading fails makes the list around it fail, with what
stands behind it ahead too. -/
theorem parseFrom_nested_error {ending : Ending} {c : Char}
    {rest left name inner : Text} {place : Nat} {fault : Fault}
    (hitem : readItem c rest = .ok (.nested name inner place, left))
    (hfault : parseFrom .nothing (skipBlank inner) = .error fault) :
    parseFrom ending (c :: rest) = .error (fault.followedBy place) := by
  rw [parseFrom]
  split <;> simp_all

private theorem length_le_of_readItem {c : Char} {rest left : Text}
    {item : Item} {n : Nat} (hitem : readItem c rest = .ok (item, left))
    (h : n ≤ left.length) : n ≤ (c :: rest).length := by
  have hleft := (readItem_weight hitem).2
  rw [List.length_cons]
  omega

/-- A reader has no more ahead when it fails than it was given. -/
theorem left_le_of_parseFrom {ending : Ending} {ahead : Text} {fault : Fault}
    (h : parseFrom ending ahead = .error fault) :
    fault.left ≤ ahead.length := by
  fun_induction parseFrom ending ahead generalizing fault with
  | case1 ending problem hend =>
    cases h
    exact le_rfl
  | case2 => cases h
  | case3 ending c rest fault' hitem =>
    cases h
    exact left_le_of_readItem hitem
  | case4 ending c rest left hitem ih =>
    exact length_le_of_readItem hitem (ih h)
  | case5 ending c rest left hitem problem hend =>
    cases h
    exact le_rfl
  | case6 ending c rest left hitem hend ih =>
    rcases bind_eq_error_iff.mp h with hrec | ⟨r, -, h⟩
    · exact length_le_of_readItem hitem (ih hrec)
    · cases h
  | case7 ending c rest k place left hitem problem hproblem =>
    cases h
    cases readItem_eq_ok_iff.mp hitem with
    | descendant hc hgap =>
      exact (Text.length_skipBlank_le rest).trans (Nat.le_succ _)
    | combinator hk => exact le_rfl
    | pseudo hpseudo => cases hpseudo
  | case8 ending c rest k place left hitem hproblem ih =>
    rcases bind_eq_error_iff.mp h with hrec | ⟨r, -, h⟩
    · exact length_le_of_readItem hitem (ih hrec)
    · cases h
  | case9 ending c rest token left hitem ih =>
    rcases bind_eq_error_iff.mp h with hrec | ⟨r, -, h⟩
    · exact length_le_of_readItem hitem (ih hrec)
    · cases h
  | case10 ending c rest name inner place left hitem fault' hinner ihInner =>
    cases h
    obtain ⟨before, behind, htext, rfl⟩ := exists_span_of_readItem hitem
    have hleft := ihInner hinner
    have hskip := Text.length_skipBlank_le inner
    rw [htext, List.length_append, List.length_append]
    show fault'.left + behind.length ≤ _
    omega
  | case11 ending c rest name inner place left hitem first others hinner
    ihInner ih =>
    rcases bind_eq_error_iff.mp h with hrec | ⟨r, -, h⟩
    · exact length_le_of_readItem hitem (ih hrec)
    · cases h

/-! ## Faults inside a list -/

/-- Whether the reader comes to a pseudo-class with the selector list `inner`,
all that stands in front of it being read. -/
inductive ComesTo (inner : Text) : Ending → Text → Prop
  | here {ending : Ending} {c : Char} {rest left name : Text} {place : Nat}
    (hitem : readItem c rest = .ok (.nested name inner place, left)) :
    ComesTo inner ending (c :: rest)
  | behind {ending next : Ending} {c : Char} {rest left : Text} {item : Item}
    {piece : Stream × List Stream} (hitem : readItem c rest = .ok (item, left))
    (hadds : Adds ending item piece next) (hleft : ComesTo inner next left) :
    ComesTo inner ending (c :: rest)

/-- Whether reading a text fails in the selector list `inner`, which is the
argument of a pseudo-class in the text or, at any depth, in such an argument. -/
inductive FailsInside (inner : Text) : Text → Prop
  | argument {t : Text} {e : ParseError}
    (hcomes : ComesTo inner .nothing (skipBlank t))
    (hfails : parse inner = .error e) : FailsInside inner t
  | deeper {t outer : Text} (hcomes : ComesTo outer .nothing (skipBlank t))
    (hfails : FailsInside inner outer) : FailsInside inner t

private theorem parse_eq_error_iff {t : Text} {e : ParseError} :
    parse t = .error e ↔
      ∃ fault, parseFrom .nothing (skipBlank t) = .error fault ∧
      e = ⟨t.length - fault.left, fault.problem⟩ := by
  unfold parse
  cases parseFrom .nothing (skipBlank t) with
  | error fault => simp [eq_comm]
  | ok r => simp

/-- A list that fails stands in the text, and what is behind it is added to what
its reader had ahead. -/
theorem parseFrom_of_comesTo {inner ahead : Text} {ending : Ending}
    {fault : Fault} (h : ComesTo inner ending ahead)
    (hfault : parseFrom .nothing (skipBlank inner) = .error fault) :
    ∃ before behind : Text, ahead = before ++ inner ++ behind ∧
      parseFrom ending ahead = .error (fault.followedBy behind.length) := by
  induction h with
  | here hitem =>
    obtain ⟨before, behind, htext, hplace⟩ := exists_span_of_readItem hitem
    exact ⟨before, behind, htext,
      by rw [hplace]; exact parseFrom_nested_error hitem hfault⟩
  | @behind ending next c rest left item piece hitem hadds hleft ih =>
    obtain ⟨before, behind, rfl, hread⟩ := ih
    obtain ⟨front, hfront⟩ :=
      (readItem_suffix hitem).trans (List.suffix_cons c rest)
    refine ⟨front ++ before, behind, by rw [← hfront]; simp, ?_⟩
    rw [parseFrom_of_adds hitem hadds, hread]
    rfl

/-- The same through the lists around it. -/
theorem parseFrom_of_failsInside {inner t : Text} (h : FailsInside inner t) :
    ∃ (fault : Fault) (before behind : Text),
      parseFrom .nothing (skipBlank inner) = .error fault ∧
      t = before ++ inner ++ behind ∧
      parseFrom .nothing (skipBlank t) =
        .error (fault.followedBy behind.length) := by
  -- Blanks in front of a list are in front of what it holds.
  have hskip : ∀ {t u before behind : Text},
      skipBlank t = before ++ u ++ behind →
      ∃ before' : Text, t = before' ++ u ++ behind := by
    intro t u before behind htext
    obtain ⟨w, -, ht⟩ := exists_skipBlank t
    exact ⟨w ++ before, by rw [ht, htext]; simp⟩
  induction h with
  | argument hcomes hfails =>
    obtain ⟨fault, hfault, -⟩ := parse_eq_error_iff.mp hfails
    obtain ⟨before, behind, htext, hread⟩ := parseFrom_of_comesTo hcomes hfault
    obtain ⟨before', ht⟩ := hskip htext
    exact ⟨fault, before', behind, hfault, ht, hread⟩
  | deeper hcomes hfails ih =>
    obtain ⟨fault, before, behind, hfault, rfl, houter⟩ := ih
    obtain ⟨before₁, behind₁, htext, hread⟩ :=
      parseFrom_of_comesTo hcomes houter
    obtain ⟨before₂, ht⟩ := hskip htext
    refine ⟨fault, before₂ ++ before, behind ++ behind₁, hfault,
      by rw [ht]; simp, ?_⟩
    rw [hread, List.length_append]
    simp [Fault.followedBy, Nat.add_assoc]

/-- The offset of a fault lies in the text. If the fault was found in a selector
list that is an argument, at any depth, then that list stands in the text, and
counted from its start the offset, with the problem, is what reading the list
alone gives. -/
theorem position_of_parse_error {s : Text} {e : ParseError}
    (h : parse s = .error e) :
    e.position ≤ s.length ∧
      (∃ fault, parseFrom .nothing (skipBlank s) = .error fault ∧
        e.problem = fault.problem ∧ e.position + fault.left = s.length) ∧
      ∀ t, FailsInside t s → ∃ b, (s.drop b).take t.length = t ∧
        b ≤ e.position ∧
        e.position ≤ b + t.length ∧
          parse t = .error ⟨e.position - b, e.problem⟩ := by
  obtain ⟨fault, hfault, rfl⟩ := parse_eq_error_iff.mp h
  have hleft := (left_le_of_parseFrom hfault).trans (Text.length_skipBlank_le s)
  refine ⟨Nat.sub_le _ _, ⟨fault, hfault, rfl, Nat.sub_add_cancel hleft⟩,
    fun t ht => ?_⟩
  obtain ⟨inner, before, behind, hinner, rfl, hread⟩ :=
    parseFrom_of_failsInside ht
  have hlist := (left_le_of_parseFrom hinner).trans (Text.length_skipBlank_le t)
  obtain rfl : inner.followedBy behind.length = fault := by
    rw [hread] at hfault
    exact Except.error.inj hfault
  have hposition : (before ++ t ++ behind).length -
      (inner.left + behind.length) =
      before.length + (t.length - inner.left) := by
    rw [List.length_append, List.length_append]
    omega
  show ∃ b, _ ∧ b ≤ (before ++ t ++ behind).length -
      (inner.left + behind.length) ∧
    (before ++ t ++ behind).length - (inner.left + behind.length) ≤
      b + t.length ∧
    parse t = .error ⟨(before ++ t ++ behind).length -
      (inner.left + behind.length) - b, inner.problem⟩
  rw [hposition]
  refine ⟨before.length, by simp, by omega, by omega,
    parse_eq_error_iff.mpr ⟨inner, hinner, ?_⟩⟩
  rw [Nat.add_sub_cancel_left]

/-- A dangling combinator two lists deep, with blanks around both lists. -/
theorem position_of_parse_error_twoDeep :
    parse ":not(*:is( a >) )" = .error ⟨14, .endsWith .child⟩ ∧
      FailsInside "a >" ":not(*:is( a >) )" ∧
      ∃ b, ((":not(*:is( a >) )" : Text).drop b).take 3 = "a >" ∧ b ≤ 14 ∧
        14 ≤ b + 3 ∧
        parse "a >" = .error ⟨14 - b, .endsWith .child⟩ := by
  have hnot : readItem ':' "not(*:is( a >) )" =
      .ok (.nested "not" "*:is( a >)" 2, []) := by cbv
  have hstar : readItem '*' ":is( a >)" =
      .ok (.token .universal, ":is( a >)") := by cbv
  have his : readItem ':' "is( a >)" = .ok (.nested "is" "a >" 1, []) := by cbv
  have hlist : parse "a >" = .error ⟨3, .endsWith .child⟩ := by cbv
  have hinside : FailsInside "a >" ":not(*:is( a >) )" :=
    .deeper (.here hnot) (.argument (.behind hstar .token (.here his)) hlist)
  have hparse : parse ":not(*:is( a >) )" = .error ⟨14, .endsWith .child⟩ := by
    have hfault : parseFrom .nothing (skipBlank "a >") =
        .error ⟨0, .endsWith .child⟩ := by cbv
    have houter : parseFrom .nothing (skipBlank "*:is( a >)") =
        .error ⟨1, .endsWith .child⟩ := by
      show parseFrom .nothing ('*' :: ":is( a >)".toList) = _
      rw [parseFrom_of_adds hstar .token]
      show (parseFrom .simple (':' :: "is( a >)".toList)).map _ = _
      rw [parseFrom_nested_error his hfault]
      rfl
    exact parse_eq_error_iff.mpr ⟨_, parseFrom_nested_error hnot houter, rfl⟩
  exact ⟨hparse, hinside, (position_of_parse_error hparse).2.2 _ hinside⟩

end SelectorPath
