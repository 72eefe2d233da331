import Mathlib
import SelectorPath.Proofs.Endings
import SelectorPath.Proofs.WellFormed

/-!
# Selector lists in a larger text

Blanks around a selector list mean nothing. A blank behind it may end the escape
that the list ends with, and is not missed then.

Two selector lists with a comma between them are read as one list, and compiled
to the union of what each is compiled to.

A selector list in the parentheses of `:not` is read as it would be alone only
where two more things hold. The parenthesis that closes it is found by counting
parentheses and quotes, which the unquoted value of an attribute may hold
without being one; and blanks are trimmed off, also one that belongs to an
escape.

## Main results

* `parse_blanks_around`: a list with blanks around it.
* `parse_comma`: reading and compiling two lists with a comma between them.
* `parse_not_iff`: when and how a list is read inside `:not`.
-/

namespace SelectorPath

namespace Selector

open SelectorPath.Text (isSelectorBlank skipBlank trimBy)

/-! ## A list and what follows it -/

/-- Behind the last compound the text ends. -/
theorem parseFrom_end {q : Text} (h : skipBlank q = []) :
    parseFrom .simple q = .ok ([], []) := by
  rw [parseFrom_skipBlank (by rw [h]; rfl), h, parseFrom]
  rfl

/-- A list is read in front of whatever can stand behind one. -/
theorem parseFrom_append {t q : Text} {r : Stream × List Stream}
    (h : parseFrom .nothing (skipBlank t) = .ok r) (hq : stops q = true) :
    ∃ q', skipBlank q' = skipBlank q ∧
      parseFrom .nothing (skipBlank (t ++ q)) =
        (parseFrom .simple q').map (splice r) := by
  have hdangles := dangles_of_parseFrom h
  rw [← List.append_nil (skipBlank t)] at h
  obtain ⟨more, hmore, hskip⟩ := skipBlank_append_stop t q
  have hstops : stops more = true := by
    rw [stops, hskip]
    exact hq
  obtain ⟨q', hq', hread⟩ := parseFrom_exchange h hdangles rfl hstops
  exact ⟨q', hq'.trans hskip, by rw [hmore, hread]⟩

/-- And so is one around which blanks were trimmed off. -/
theorem parseFrom_trim_append {t q : Text} {r : Stream × List Stream}
    (h : parseFrom .nothing (skipBlank (trimBy isSelectorBlank t)) = .ok r)
    (hq : stops q = true) :
    ∃ q', skipBlank q' = skipBlank q ∧
      parseFrom .nothing (skipBlank (t ++ q)) =
        (parseFrom .simple q').map (splice r) := by
  obtain ⟨before, after, hbefore, hafter, ht⟩ :=
    Text.exists_trimBy isSelectorBlank t
  have hskip : skipBlank (after ++ q) = skipBlank q := skipBlank_append hafter q
  obtain ⟨q', hq', hread⟩ := parseFrom_append h (by rw [stops, hskip]; exact hq)
  refine ⟨q', hq'.trans hskip, ?_⟩
  calc parseFrom .nothing (skipBlank (t ++ q))
      = parseFrom .nothing
        (skipBlank (before ++ (trimBy isSelectorBlank t ++ after) ++ q)) := by
        rw [← ht]
    _ = parseFrom .nothing
      (skipBlank (trimBy isSelectorBlank t ++ (after ++ q))) := by
        rw [List.append_assoc, skipBlank_append hbefore, List.append_assoc]
    _ = (parseFrom .simple q').map (splice r) := hread

/-- Blanks behind a list can go, unless one of them belonged to an escape. -/
theorem parseFrom_of_blanks_behind {t w : Text} {r : Stream × List Stream}
    (h : parseFrom .nothing (skipBlank (t ++ w)) = .ok r)
    (hw : skipBlank w = []) (hdangles : dangles t = false) :
    parseFrom .nothing (skipBlank t) = .ok r := by
  obtain ⟨more, hmore, hskip⟩ := skipBlank_append_stop t w
  rw [hmore] at h
  rw [← dangles_skipBlank] at hdangles
  obtain ⟨q', hq', hread⟩ :=
    @parseFrom_exchange _ _ _ [] _ h hdangles (hskip.trans hw) rfl
  rw [List.append_nil, parseFrom_end hq'] at hread
  rw [hread]
  exact congrArg Except.ok (splice_nil r)

private theorem skipBlank_of_all {w : Text} (h : w.all isSelectorBlank = true) :
    skipBlank w = [] := by
  rw [← List.append_nil w, skipBlank_append h]
  rfl

/-- A list is read without the blanks around it, unless one of them belonged to
an escape. -/
theorem parseFrom_trim {t : Text} {r : Stream × List Stream}
    (h : parseFrom .nothing (skipBlank t) = .ok r)
    (hdangles : dangles (trimBy isSelectorBlank t) = false) :
    parseFrom .nothing (skipBlank (trimBy isSelectorBlank t)) = .ok r := by
  obtain ⟨before, after, hbefore, hafter, ht⟩ :=
    Text.exists_trimBy isSelectorBlank t
  have hsplit : skipBlank t =
      skipBlank (trimBy isSelectorBlank t ++ after) := by
    rw [← skipBlank_append hbefore (trimBy isSelectorBlank t ++ after), ← ht]
  rw [hsplit] at h
  exact parseFrom_of_blanks_behind h (skipBlank_of_all hafter) hdangles

/-- Behind a comma the next selector starts. -/
theorem parseFrom_comma {q rest : Text} (h : skipBlank q = ',' :: rest) :
    parseFrom .simple q =
      (parseFrom .nothing (skipBlank rest)).map (splice ([], [[]])) := by
  rw [parseFrom_skipBlank (by rw [h]; rfl), h]
  exact parseFrom_of_adds (readItem_eq_ok_iff.mpr .comma) (.comma rfl)

/-- A parenthesis that was not opened is no item. -/
theorem parseFrom_paren {ending : Ending} {q rest : Text}
    (h : skipBlank q = ')' :: rest) (r : Stream × List Stream) :
    parseFrom ending q ≠ .ok r := by
  have hparen : ∀ (ending : Ending) (r : Stream × List Stream),
      parseFrom ending (')' :: rest) ≠ .ok r := by
    intro ending r hread
    obtain ⟨item, left, piece, next, r', hitem, -⟩ :=
      parseFrom_eq_ok_iff.mp hread
    have herror : readItem ')' rest =
        .error ⟨rest.length + 1, .unexpected ')'⟩ := rfl
    rw [herror] at hitem
    cases hitem
  cases q with
  | nil => cases h
  | cons c q =>
    by_cases hc : isSelectorBlank c = true
    · have hskip : skipBlank q = ')' :: rest := by
        rw [← h]
        exact (List.dropWhile_cons_of_pos hc).symm
      intro hread
      obtain ⟨item, left, piece, next, r', hitem, -, hleft, -⟩ :=
        parseFrom_eq_ok_iff.mp hread
      have hblank : left = ')' :: rest := by
        rw [readItem, if_pos hc, hskip] at hitem
        cases hitem
        rfl
      rw [hblank] at hleft
      exact hparen next r' hleft
    · rw [skipBlank_of_head? (by simpa using hc)] at h
      rw [h]
      exact hparen ending r

/-- Two lists with a comma between them. -/
theorem parse_append_comma {s₁ s₂ : Text} {A B : List Stream}
    (h₁ : parse s₁ = .ok A) (h₂ : parse s₂ = .ok B) :
    parse (s₁ ++ "," ++ s₂) = .ok (A ++ B) := by
  obtain ⟨⟨a, as⟩, hfrom₁, rfl⟩ := parse_eq_ok_iff.mp h₁
  obtain ⟨⟨b, bs⟩, hfrom₂, rfl⟩ := parse_eq_ok_iff.mp h₂
  obtain ⟨q', hq', hread⟩ := @parseFrom_append _ (',' :: s₂) _ hfrom₁ rfl
  rw [parseFrom_comma hq', hfrom₂] at hread
  have hsplice : splice (a, as) (splice ([], [[]]) (b, bs)) =
      (a, as ++ b :: bs) :=
    splice_closed a as (b :: bs)
  refine parse_eq_ok_iff.mpr ⟨(a, as ++ b :: bs), ?_, rfl⟩
  rw [List.append_assoc, ← hsplice]
  exact hread

end Selector

open Selector
open SelectorPath.Text (isSelectorBlank skipBlank trimBy)

/-! ## Blanks around a list -/

/-- A list is read with blanks around it as it is without them. What is read
with blanks around it only is a text with a backslash at its end, which takes
the blank behind it. -/
theorem parse_blanks_around {w₁ w₂ : Text} (hw₁ : w₁.all isSelectorBlank = true)
    (hw₂ : w₂.all isSelectorBlank = true) (s : Text) (A : List Stream) :
    (parse s = .ok A → parse (w₁ ++ s ++ w₂) = .ok A) ∧
      (parse (w₁ ++ s ++ w₂) = .ok A → dangles s = false →
        parse s = .ok A) := by
  have hfront : skipBlank (w₁ ++ s ++ w₂) = skipBlank (s ++ w₂) := by
    rw [List.append_assoc, skipBlank_append hw₁]
  have hblank := skipBlank_of_all hw₂
  simp only [parse_eq_ok_iff, hfront]
  constructor
  · rintro ⟨r, hread, rfl⟩
    obtain ⟨q, hq, hmore⟩ := parseFrom_append hread (stops_of_skipBlank hblank)
    rw [parseFrom_end (hq.trans hblank)] at hmore
    exact ⟨r, hmore.trans (congrArg Except.ok (splice_nil r)), rfl⟩
  · rintro ⟨r, hread, rfl⟩ hdangles
    exact ⟨r, parseFrom_of_blanks_behind hread hblank hdangles, rfl⟩

/-- The first blank behind the list ends its escape; a backslash alone takes one
for itself. -/
theorem parse_blanks_around_escape :
    parse "a\\62" = .ok [[.tag "ab"]] ∧ parse "\ta\\62 \n" = .ok [[.tag "ab"]] ∧
      parse "a\\ " = .ok [[.tag "a "]] ∧ dangles "a\\" = true ∧
        parse "a\\" ≠ .ok [[.tag "a "]] := by
  have hlist : parse "a\\62" = .ok [[.tag "ab"]] := by cbv
  have hmarks :=
    @parse_blanks_around ['\t'] [' ', '\n'] rfl rfl "a\\62" [[.tag "ab"]]
  refine ⟨hlist, hmarks.1 hlist, by cbv, rfl, ?_⟩
  have herror : parse "a\\" = .error ⟨1, .unexpected '\\'⟩ := by cbv
  rw [herror]
  rintro ⟨⟩

/-! ## Compiling two lists -/

/-- What a selector is compiled to without custom pseudo-classes. -/
theorem compile_eq_ok_iff {s out : Text} :
    compile {} s = .ok out ↔ ∃ streams paths, parse s = .ok streams ∧
      (unaliasAll streams).mapM XPath.locationPath = .ok paths ∧
        XPath.union paths = out := by
  constructor
  · intro h
    obtain ⟨unaliased, hstreams, h⟩ := bind_eq_ok_iff.mp h
    obtain ⟨paths, hpaths, h⟩ := bind_eq_ok_iff.mp h
    cases h
    obtain ⟨expanded, hexpand, hstreams⟩ := bind_eq_ok_iff.mp hstreams
    cases hexpand
    obtain ⟨streams, hparse, hstreams⟩ := bind_eq_ok_iff.mp hstreams
    cases hstreams
    exact ⟨streams, paths, mapError_eq_ok_iff.mp hparse, hpaths, rfl⟩
  · rintro ⟨streams, paths, hparse, hpaths, rfl⟩
    have hstreams : tokenStreams {} s = .ok (unaliasAll streams) :=
      bind_eq_ok_iff.mpr ⟨s, rfl,
        bind_eq_ok_iff.mpr ⟨streams, mapError_eq_ok_iff.mpr hparse, rfl⟩⟩
    exact bind_eq_ok_iff.mpr ⟨_, hstreams,
      bind_eq_ok_iff.mpr ⟨paths, hpaths, rfl⟩⟩

/-- The paths of all alternatives, of the first list and then of the second. -/
theorem mapM_unaliasAll_append {A B : List Stream} {paths₁ paths₂ : List Text}
    (h₁ : (unaliasAll A).mapM XPath.locationPath = .ok paths₁)
    (h₂ : (unaliasAll B).mapM XPath.locationPath = .ok paths₂) :
    (unaliasAll (A ++ B)).mapM XPath.locationPath = .ok (paths₁ ++ paths₂) := by
  rw [unaliasAll_eq_map, List.map_append, List.mapM_append, ← unaliasAll_eq_map,
    ← unaliasAll_eq_map, h₁, h₂]
  rfl

private theorem length_mapM_unaliasAll {A : List Stream} {paths : List Text}
    (h : (unaliasAll A).mapM XPath.locationPath = .ok paths) :
    paths.length = A.length := by
  rw [(XPath.mapM_locationPath h).1, unaliasAll_eq_map, List.length_map,
    List.length_map]

/-- Two selector lists with a comma between them are read as one, which is
compiled to the union of the paths of all alternatives. -/
theorem parse_comma {s₁ s₂ : Text} {A B : List Stream} (h₁ : parse s₁ = .ok A)
    (h₂ : parse s₂ = .ok B) :
    parse (s₁ ++ "," ++ s₂) = .ok (A ++ B) ∧
      ∀ out₁ out₂ : Text, compile {} s₁ = .ok out₁ → compile {} s₂ = .ok out₂ →
        (∃ paths, (unaliasAll (A ++ B)).mapM XPath.locationPath = .ok paths ∧
          compile {} (s₁ ++ "," ++ s₂) =
            .ok ("(" ++ Text.join "|" paths ++ ")")) ∧
        (A.length = 1 → B.length = 1 →
          compile {} (s₁ ++ "," ++ s₂) =
            .ok ("(" ++ out₁ ++ "|" ++ out₂ ++ ")")) := by
  have hparse := parse_append_comma h₁ h₂
  refine ⟨hparse, fun out₁ out₂ hout₁ hout₂ => ?_⟩
  obtain ⟨A', paths₁, hA, hpaths₁, hunion₁⟩ := compile_eq_ok_iff.mp hout₁
  obtain ⟨B', paths₂, hB, hpaths₂, hunion₂⟩ := compile_eq_ok_iff.mp hout₂
  cases h₁.symm.trans hA
  cases h₂.symm.trans hB
  have hpaths := mapM_unaliasAll_append hpaths₁ hpaths₂
  have hlength₁ := length_mapM_unaliasAll hpaths₁
  have hlength₂ := length_mapM_unaliasAll hpaths₂
  have hA := List.length_pos_iff.mpr (isParsed_of_parse h₁).1
  have hB := List.length_pos_iff.mpr (isParsed_of_parse h₂).1
  have hmany : 1 < (paths₁ ++ paths₂).length := by
    rw [List.length_append]
    omega
  have hunion : XPath.union (paths₁ ++ paths₂) =
      "(" ++ Text.join "|" (paths₁ ++ paths₂) ++ ")" :=
    if_pos hmany
  have hout := compile_eq_ok_iff.mpr ⟨A ++ B, _, hparse, hpaths, hunion⟩
  refine ⟨⟨_, hpaths, hout⟩, fun hone₁ hone₂ => ?_⟩
  rw [hout]
  obtain ⟨path₁, rfl⟩ := List.length_eq_one_iff.mp (hlength₁.trans hone₁)
  obtain ⟨path₂, rfl⟩ := List.length_eq_one_iff.mp (hlength₂.trans hone₂)
  rw [← hunion₁, ← hunion₂]
  simp [XPath.union, Text.join]

/-- An escape at the end of the first list takes nothing of the second. -/
theorem parse_comma_escaped :
    parse "a\\62" = .ok [[.tag "ab"]] ∧
      parse " p > q" = .ok [[.tag "p", .combinator .child, .tag "q"]] ∧
      parse "a\\62, p > q" =
        .ok [[.tag "ab"], [.tag "p", .combinator .child, .tag "q"]] ∧
      compile {} "a\\62, p > q" = .ok ("(//ab|//p/q)" : Text) := by
  have h₁ : parse "a\\62" = .ok [[.tag "ab"]] := by cbv
  have h₂ : parse " p > q" =
      .ok [[.tag "p", .combinator .child, .tag "q"]] := by cbv
  have hout₁ : compile {} "a\\62" = .ok ("//ab" : Text) :=
    compile_eq_ok_iff.mpr ⟨_, [("//ab" : Text)], h₁, rfl, rfl⟩
  have hout₂ : compile {} " p > q" = .ok ("//p/q" : Text) :=
    compile_eq_ok_iff.mpr ⟨_, [("//p/q" : Text)], h₂, rfl, rfl⟩
  obtain ⟨hparse, hcompile⟩ := parse_comma h₁ h₂
  exact ⟨h₁, h₂, hparse, (hcompile _ _ hout₁ hout₂).2 rfl rfl⟩

/-! ## Lists in parentheses -/

private theorem takeName_not (t : Text) :
    takeName ("not(" ++ t) = (("not" : Text), '(' :: t) := by
  have hstop : takeName ('(' :: t) = ([], '(' :: t) :=
    takeName_of_not_extends rfl
  show takeName ('n' :: 'o' :: 't' :: '(' :: t) = (['n', 'o', 't'], '(' :: t)
  rw [takeName_cons (by decide), takeName_cons (by decide),
    takeName_cons (by decide), hstop]

/-- What `:not` reads: the text up to the parenthesis that closes it, without
blanks around it. -/
theorem readItem_not_iff {t left : Text} {item : Item} :
    readItem ':' ("not(" ++ t) = .ok (item, left) ↔
      ∃ raw, takeArgument t = (.ok raw, left) ∧
        item = .nested "not" (trimBy isSelectorBlank raw)
          (trailingBlanks raw + 1 + left.length) := by
  have hname : pseudoName ("not(" ++ t) = ("not" : Text) := by
    rw [pseudoName, takeName_not]
    rfl
  constructor
  · intro h
    have hread := (@readPseudo_eq_ok_iff ("not(" ++ t) left item).mp h
    generalize hahead : ("not(" : Text) ++ t = ahead at hread
    cases hread with
    | @bare isElement ahead hstart hbare =>
      cases isElement with
      | true => cases hahead
      | false =>
        rw [← show _ = ahead from hahead, takeName_not] at hbare
        exact absurd rfl hbare
    | @text isElement ahead inside raw left hstart hopen hraw hkind =>
      cases isElement with
      | true => cases hahead
      | false =>
        rw [← show _ = ahead from hahead, hname] at hkind
        exact absurd hkind (by decide)
    | nested hstart hopen hraw hkind =>
      subst hahead
      rw [takeName_not] at hopen
      cases hopen
      exact ⟨_, hraw, by rw [hname]⟩
  · rintro ⟨raw, hraw, rfl⟩
    have hopen : (takeName ("not(" ++ t)).2 = '(' :: t := by rw [takeName_not]
    have hread := ReadsPseudo.nested rfl hopen hraw (by rw [hname]; rfl)
    rw [hname] at hread
    exact readPseudo_eq_ok_iff.mpr hread

/-- How `:not` is read, and what follows it. -/
theorem parse_not_eq_ok_iff {t : Text} {streams : List Stream} :
    parse (":not(" ++ t) = .ok streams ↔
      ∃ raw left inner r, takeArgument t = (.ok raw, left) ∧
        parse (trimBy isSelectorBlank raw) = .ok inner ∧
          parseFrom .simple left = .ok r ∧
        streams = (.pseudoClass "not" (some (.selectors inner)) :: r.1) ::
          r.2 := by
  rw [parse_eq_ok_iff]
  show (∃ r, parseFrom .nothing (':' :: ("not(" ++ t)) = .ok r ∧ _) ↔ _
  constructor
  · rintro ⟨r, hread, rfl⟩
    obtain ⟨item, left, piece, next, r', hitem, hadds, hleft, rfl⟩ :=
      parseFrom_eq_ok_iff.mp hread
    obtain ⟨raw, hraw, rfl⟩ := readItem_not_iff.mp hitem
    cases hadds with
    | nested hinner =>
      exact ⟨raw, left, _, r', hraw, parse_eq_ok_iff.mpr ⟨_, hinner, rfl⟩,
        hleft, rfl⟩
  · rintro ⟨raw, left, inner, r, hraw, hparse, hleft, rfl⟩
    obtain ⟨⟨first, others⟩, hinner, rfl⟩ := parse_eq_ok_iff.mp hparse
    have hitem := readItem_not_iff.mpr ⟨raw, hraw, rfl⟩
    exact ⟨_, parseFrom_eq_ok_iff.mpr ⟨_, left, _, _, r, hitem, .nested hinner,
      hleft, rfl⟩, rfl⟩

/-- A list that is read alone is read inside `:not` exactly if it is balanced,
so that the parenthesis behind it is the one that closes it, and no blank of an
escape at its end is trimmed off. -/
theorem parse_not_iff {s : Text} {A : List Stream} (h : parse s = .ok A)
    (streams : List Stream) :
    parse (":not(" ++ s ++ ")") = .ok streams ↔
      (IsBalanced s ∧ dangles (trimBy isSelectorBlank s) = false) ∧
        streams = [[.pseudoClass "not" (some (.selectors A))]] := by
  obtain ⟨⟨a, as⟩, hfrom, rfl⟩ := parse_eq_ok_iff.mp h
  rw [List.append_assoc, parse_not_eq_ok_iff]
  constructor
  · rintro ⟨raw, left, inner, r, hraw, hparse, hleft, rfl⟩
    obtain ⟨⟨first, others⟩, hinner, rfl⟩ := parse_eq_ok_iff.mp hparse
    obtain ⟨hsplit, hbalanced⟩ := takeArgument_eq_ok_iff.mp hraw
    rcases List.eq_nil_or_concat left with rfl | ⟨behind, c, rfl⟩
    · -- The parenthesis found is the last one.
      obtain rfl : s = raw := List.append_cancel_right hsplit
      obtain ⟨q, hq, hread⟩ := @parseFrom_trim_append _ [] _ hinner rfl
      rw [List.append_nil, hfrom, parseFrom_end hq] at hread
      cases (parseFrom_nil hleft).2
      have hinner' : (a, as) = (first, others) := by
        have hsame := Except.ok.inj hread
        rwa [splice_nil] at hsame
      cases hinner'
      refine ⟨⟨hbalanced, ?_⟩, rfl⟩
      rw [← dangles_skipBlank]
      exact dangles_of_parseFrom hinner
    · -- The list would be read in front of a parenthesis that was not opened.
      have hs : s = raw ++ ')' :: behind := by
        rw [List.concat_eq_append, ← List.cons_append, ← List.append_assoc]
          at hsplit
        exact List.append_inj_left' hsplit rfl
      obtain ⟨q, hq, hread⟩ :=
        @parseFrom_trim_append _ (')' :: behind) _ hinner rfl
      rw [← hs, hfrom] at hread
      obtain ⟨r', hr', -⟩ := map_eq_ok_iff.mp hread.symm
      exact absurd hr' (parseFrom_paren hq r')
  · rintro ⟨⟨hbalanced, hdangles⟩, rfl⟩
    have hraw : takeArgument (s ++ ")") = (.ok s, []) := hbalanced
    have hinner := parse_eq_ok_iff.mpr ⟨_, parseFrom_trim hfrom hdangles, rfl⟩
    exact ⟨s, [], _, ([], []), hraw, hinner, parseFrom_end rfl, rfl⟩

/-- A balanced list is read, and one that an escaped blank ends is not: the
blank is trimmed off. -/
theorem parse_not_escapedBlank :
    parse ":not(a, b )" =
      .ok [[.pseudoClass "not" (some (.selectors [[.tag "a"], [.tag "b"]]))]] ∧
      parse "a\\ " = .ok [[.tag "a "]] ∧ ∀ streams,
        parse ":not(a\\ )" ≠ .ok streams := by
  have hlist : parse "a, b " = .ok [[.tag "a"], [.tag "b"]] := by cbv
  have hparse : parse "a\\ " = .ok [[.tag "a "]] := by cbv
  refine ⟨(parse_not_iff hlist _).mpr ⟨⟨isBalanced_iff_run.mpr rfl, rfl⟩, rfl⟩,
    hparse, ?_⟩
  intro streams hread
  exact absurd ((parse_not_iff hparse streams).mp hread).1.2 (by decide)

end SelectorPath
