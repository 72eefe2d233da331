import SelectorPath.Proofs.AttributeTests
import SelectorPath.Proofs.AuthorText

/-!
# Searching without regard to letter case

What is looked for is written in small letters, and of the text that is searched
only the letters which occur in it are made small. That is enough for ASCII: a
part of the searched text is equal to the small letters that are looked for,
character by character, in the one folding exactly if it is in the other. Where
the part stands does not depend on the folding, so this settles all four
relations between the two texts.

## Main results

* `finds_map_congr`: two foldings that agree on what is looked for find it in
  the same texts.
* `fold_eq_iff`: the folding of the listed letters agrees with small letters on
  what is looked for.
* `filters_ascii_iff`: what the filters of ASCII texts and names mean.
-/

namespace SelectorPath

/-! ## White space under a mapping -/

namespace Text

private theorem splitBy_map {p : Char → Bool} {f : Char → Char}
    (h : ∀ c, p (f c) = p c) (t : Text) :
    splitBy p (t.map f) = (splitBy p t).map (List.map f) := by
  induction t with
  | nil => rfl
  | cons c t ih =>
    rw [List.map_cons, splitBy, splitBy, h, ih]
    by_cases hc : p c = true
    · rw [if_pos hc, if_pos hc]
      rfl
    · rw [if_neg hc, if_neg hc]
      cases hpieces : splitBy p t with
      | nil => rfl
      | cons piece pieces => rfl

private theorem join_map (f : Char → Char) (sep : Text) (pieces : List Text) :
    (join sep pieces).map f = join (sep.map f) (pieces.map (List.map f)) := by
  induction pieces with
  | nil => rfl
  | cons a rest ih =>
    cases rest with
    | nil => simp [join]
    | cons b rest =>
      rw [join_cons_cons, List.map_append, List.map_append, ih]
      exact (join_cons_cons _ _ _ _).symm

/-- A mapping that keeps white space can be applied before or after white space
is collapsed. -/
theorem collapse_map {f : Char → Char} (hblank : ∀ c, isBlank (f c) = isBlank c)
    (hspace : f ' ' = ' ') (t : Text) :
    collapse (t.map f) = (collapse t).map f := by
  have hsep : List.map f " ".toList = " ".toList := by
    show [f ' '] = [' ']
    rw [hspace]
  have hwords : ((splitBy isBlank t).map (List.map f)).filter
      (fun w => !w.isEmpty) =
      ((splitBy isBlank t).filter fun w => !w.isEmpty).map (List.map f) := by
    rw [List.filter_map]
    congr 1
    apply List.filter_congr
    intro w hw
    cases w <;> rfl
  rw [collapse, collapse, words, words, splitBy_map hblank, hwords,
    join_map, hsep]

private theorem mem_of_mem_splitBy {p : Char → Bool} {t w : Text}
    (h : w ∈ splitBy p t) {c : Char} (hc : c ∈ w) :
    c ∈ t := by
  induction t using separator_induction p with
  | whole t hnone =>
    rw [splitBy_of_not hnone, List.mem_singleton] at h
    rwa [← h]
  | cut front sep rest hfront hsep ih =>
    rw [splitBy_append_cons hfront hsep] at h
    rcases List.mem_cons.mp h with rfl | h
    · exact List.mem_append_left _ hc
    · exact List.mem_append_right _ (List.mem_cons_of_mem _ (ih h))

private theorem mem_collapse {t : Text} {c : Char} (h : c ∈ collapse t) :
    c = ' ' ∨ c ∈ t := by
  rcases mem_join h with hspace | ⟨w, hw, hc⟩
  · exact .inl (List.mem_singleton.mp hspace)
  · exact .inr (mem_of_mem_splitBy (List.mem_filter.mp hw).1 hc)

/-- Letters are no white space. -/
theorem isBlank_of_letter {c : Char} (hlow : 65 ≤ c.toNat)
    (hhigh : c.toNat ≤ 122) : isBlank c = false := by
  simp only [isBlank, Ranges.has, blankRanges, List.any_cons, List.any_nil,
    Bool.or_false, Bool.or_eq_false_iff, Bool.and_eq_false_iff,
    decide_eq_false_iff_not]
  omega

/-- No letter of ASCII is white space. -/
theorem isBlank_toLower (c : Char) : isBlank c.toLower = isBlank c := by
  have hlower := toNat_toLower c
  by_cases hcapital : 65 ≤ c.toNat ∧ c.toNat ≤ 90
  · rw [if_pos hcapital] at hlower
    rw [isBlank_of_letter (by omega) (by omega),
      isBlank_of_letter (by omega) (by omega)]
  · rw [if_neg hcapital] at hlower
    rw [char_eq_of_toNat_eq hlower]

end Text

/-! ## Where a part stands -/

namespace TextRelation

/-- Whether `part` stands in a text as the relation asks. -/
def Finds (part t : Text) : TextRelation → Prop
  | equals => t = part
  | contains => part <:+: t
  | startsWith => part <+: t
  | endsWith => part <:+ t

/-- Whether the relation lets `front` stand before a part and `back` behind
it. -/
def Allows (front back : Text) : TextRelation → Prop
  | equals => front = [] ∧ back = []
  | contains => True
  | startsWith => front = []
  | endsWith => back = []

/-- A part that is found in a mapped text is the image of what stands in its
place. -/
theorem finds_map_iff (relation : TextRelation) (f : Char → Char)
    (part t : Text) :
    relation.Finds part (t.map f) ↔
      ∃ front middle back, t = front ++ middle ++ back ∧
        relation.Allows front back ∧
        middle.map f = part := by
  constructor
  · intro h
    cases relation with
    | equals => exact ⟨[], t, [], by simp, ⟨rfl, rfl⟩, h⟩
    | contains =>
      obtain ⟨front, back, heq⟩ := h
      obtain ⟨rest, back', rfl, hrest, -⟩ := List.map_eq_append_iff.mp heq.symm
      obtain ⟨front', middle, rfl, -, hmiddle⟩ :=
        List.map_eq_append_iff.mp hrest
      exact ⟨front', middle, back', rfl, trivial, hmiddle⟩
    | startsWith =>
      obtain ⟨back, heq⟩ := h
      obtain ⟨middle, back', rfl, hmiddle, -⟩ :=
        List.map_eq_append_iff.mp heq.symm
      exact ⟨[], middle, back', rfl, rfl, hmiddle⟩
    | endsWith =>
      obtain ⟨front, heq⟩ := h
      obtain ⟨front', middle, rfl, -, hmiddle⟩ :=
        List.map_eq_append_iff.mp heq.symm
      exact ⟨front', middle, [], by simp, rfl, hmiddle⟩
  · rintro ⟨front, middle, back, rfl, hallows, rfl⟩
    rw [List.map_append, List.map_append]
    cases relation with
    | equals =>
      obtain ⟨rfl, rfl⟩ := hallows
      exact List.append_nil _
    | contains => exact ⟨front.map f, back.map f, rfl⟩
    | startsWith =>
      cases hallows
      exact ⟨back.map f, rfl⟩
    | endsWith =>
      cases hallows
      exact ⟨front.map f, (List.append_nil _).symm⟩

private theorem map_eq_congr {f g : Char → Char} {part : Text}
    (h : ∀ x ∈ part, ∀ c, f c = x ↔ g c = x) (t : Text) :
    t.map f = part ↔ t.map g = part := by
  induction t generalizing part with
  | nil => rfl
  | cons c t ih =>
    cases part with
    | nil => simp
    | cons x part =>
      have hhead := h x List.mem_cons_self c
      have htail := ih fun y hy => h y (List.mem_cons_of_mem _ hy)
      rw [List.map_cons, List.map_cons, List.cons.injEq, List.cons.injEq,
        hhead, htail]

/-- Two foldings that agree on what is looked for find it in the same texts. -/
theorem finds_map_congr (relation : TextRelation) {f g : Char → Char}
    {part : Text} (h : ∀ x ∈ part, ∀ c, f c = x ↔ g c = x) (t : Text) :
    relation.Finds part (t.map f) ↔ relation.Finds part (t.map g) := by
  simp only [finds_map_iff, map_eq_congr h]

end TextRelation

namespace XPath

/-! ## The letters of an ASCII text -/

/-- The translation with the letters of an ASCII text makes these letters
small. -/
theorem translated_capitals {t : Text} (h : t.isAscii = true) (u : Text) :
    translated (Letters.ofText t).upper (Letters.ofText t).lower u =
      u.map fun c => if c ∈ (Letters.ofText t).upper then c.toLower else c := by
  have hlower : (Letters.ofText t).lower =
      (Letters.ofText t).upper.map Char.toLower := by
    rw [letters_upper h, List.map_map]
    refine ((List.map_congr_left fun c hc => ?_).trans (List.map_id _)).symm
    have hsmall := ((mem_letters_iff h).mp hc).1
    apply char_eq_of_toNat_eq
    have hupper := toNat_toUpper c
    rw [if_pos hsmall] at hupper
    show c.toUpper.toLower.toNat = c.toNat
    rw [toNat_toLower, hupper]
    split <;> omega
  rw [hlower, translated_map]

/-- On a small letter of the text and on what is no letter, the folding agrees
with small letters. -/
theorem fold_eq_iff {t : Text} (h : t.isAscii = true) {x : Char}
    (hx : x.toLower = x)
    (hlisted : 97 ≤ x.toNat ∧ x.toNat ≤ 122 → x ∈ (Letters.ofText t).lower)
    (c : Char) :
    (if c ∈ (Letters.ofText t).upper then c.toLower else c) = x ↔
      c.toLower = x := by
  by_cases hc : c ∈ (Letters.ofText t).upper
  · rw [if_pos hc]
  · rw [if_neg hc]
    constructor
    · intro heq
      rw [heq, hx]
    · intro heq
      have hnat : c.toLower.toNat = x.toNat := by rw [heq]
      rw [toNat_toLower] at hnat
      apply char_eq_of_toNat_eq
      by_cases hcapital : 65 ≤ c.toNat ∧ c.toNat ≤ 90
      · -- the small letter is listed, and then its capital is
        rw [if_pos hcapital] at hnat
        have hupper : x.toUpper = c := by
          apply char_eq_of_toNat_eq
          rw [toNat_toUpper, if_pos (by omega)]
          omega
        refine absurd ?_ hc
        rw [letters_upper h, ← hupper]
        exact List.mem_map_of_mem (hlisted (by omega))
      · rwa [if_neg hcapital] at hnat

/-! ## The text that is looked for -/

private theorem mem_of_mem_authorLiteral {search : Text} {c : Char}
    (h : c ∈ (authorLiteral search).2) :
    c ∈ search := by
  cases search with
  | nil => exact h
  | cons q rest =>
    rw [authorLiteral] at h
    split at h
    · exact List.mem_cons_of_mem _ (List.dropLast_subset _ h)
    · exact h

private theorem toLower_eq_quote_iff {q c : Char} (hq : q = '\'' ∨ q = '"') :
    c.toLower = q ↔ c = q := by
  have hnat := toNat_quote hq
  constructor
  · intro h
    have hlower := toNat_toLower c
    rw [h] at hlower
    apply char_eq_of_toNat_eq
    split at hlower <;> omega
  · rintro rfl
    apply char_eq_of_toNat_eq
    rw [toNat_toLower, if_neg (by omega)]

/-- Small letters leave the author's quotes where they are. -/
theorem authorLiteral_map_toLower (search : Text) :
    authorLiteral (search.map Char.toLower) =
      ((authorLiteral search).1,
        (authorLiteral search).2.map Char.toLower) := by
  cases search with
  | nil => rfl
  | cons q rest =>
    by_cases hquoted : (q = '\'' ∨ q = '"') ∧ rest.getLast? = some q
    · have hq : q.toLower = q := (toLower_eq_quote_iff hquoted.1).mpr rfl
      have hlast : (rest.map Char.toLower).getLast? = some q := by
        rw [List.getLast?_map, hquoted.2, Option.map_some, hq]
      rw [List.map_cons, hq, authorLiteral, authorLiteral, if_pos hquoted,
        if_pos ⟨hquoted.1, hlast⟩, List.map_dropLast]
    · have hlower : ¬((q.toLower = '\'' ∨ q.toLower = '"') ∧
          (rest.map Char.toLower).getLast? = some q.toLower) := by
        rintro ⟨hq, hlast⟩
        have hsame : q.toLower = q := by
          rcases hq with hq | hq
          · rw [hq, (toLower_eq_quote_iff (.inl rfl)).mp hq]
          · rw [hq, (toLower_eq_quote_iff (.inr rfl)).mp hq]
        rw [hsame] at hq
        rw [List.getLast?_map, hsame, Option.map_eq_some_iff] at hlast
        obtain ⟨c, hc, hcq⟩ := hlast
        exact hquoted ⟨hq, by rw [hc, (toLower_eq_quote_iff hq).mp hcq]⟩
      rw [List.map_cons, authorLiteral, authorLiteral, if_neg hquoted,
        if_neg hlower]
      rfl

/-- The text that an argument asks to look for: what stands in the author's
quotes, or all of it, with its white space collapsed. -/
def searchedText (argument : Text) : Text :=
  Text.collapse (authorLiteral (Text.trim argument)).2

/-- A text as it is compared. -/
def compared (caseSensitive : Bool) (t : Text) : Text :=
  if caseSensitive then t else t.asciiLower

/-! ## Conditions on a text -/

private theorem value_ownExpr (c : Context) (caseSensitive : Bool)
    (search : Text) :
    ∃ s, (ownExpr caseSensitive search).value c = .string s := by
  unfold ownExpr
  split
  · exact ⟨_, rfl⟩
  · exact ⟨_, rfl⟩

/-- The condition on a text looks for the body of its literal. -/
theorem truth_textFilter (c : Context) (relation : TextRelation)
    (caseSensitive : Bool) (search : Text) :
    (textFilter relation caseSensitive search).truth c = true ↔
      relation.Finds (searchLiteral (if caseSensitive then search
        else Text.lower search)).2
        ((ownExpr caseSensitive search).value c).toText := by
  obtain ⟨s, hs⟩ := value_ownExpr c caseSensitive search
  cases relation with
  | equals =>
    have htruth : (textFilter .equals caseSensitive search).truth c =
        (s == _) :=
      truth_equal_string hs rfl
    rw [htruth, hs, beq_iff_eq]
    rfl
  | contains => exact occursIn_iff
  | startsWith => exact List.isPrefixOf_iff_prefix
  | endsWith => exact truth_endsWith c _ _ _

private theorem translated_nil (t : Text) : translated [] [] t = t :=
  (translated_map [] t id).trans (by simp)

/-- Without regard to letter case the capitals of the listed letters are made
small, also where no letter is listed. -/
theorem toText_ownExpr (c : Context) (search : Text) :
    ((ownExpr false search).value c).toText =
      translated (Letters.ofText search).upper (Letters.ofText search).lower
        (normalizeSpace c.text) := by
  unfold ownExpr
  split
  · rename_i hnone
    have hlower : (Letters.ofText search).lower = [] :=
      List.isEmpty_iff.mp hnone
    have hupper : (Letters.ofText search).upper = [] :=
      congrArg Text.upper hlower
    rw [hlower, hupper, translated_nil]
    rfl
  · rfl

private theorem isReadable_ownExpr (caseSensitive : Bool) (search : Text) :
    (ownExpr caseSensitive search).isReadable = true ∧
      (ownExpr caseSensitive search).level = 7 := by
  obtain ⟨hlower, hupper⟩ := quote_not_mem_letters search
  unfold ownExpr
  split
  · exact ⟨rfl, rfl⟩
  · refine ⟨?_, rfl⟩
    show (true && (Expr.single _).isReadable && (Expr.single _).isReadable) =
        true
    rw [isReadable_single hlower, isReadable_single hupper]
    rfl

/-- The condition on a text can be read again if the text can stand in its
literal. -/
theorem isReadable_textFilter (relation : TextRelation) {caseSensitive : Bool}
    {search : Text} (h : isQuotable caseSensitive search = true) :
    (textFilter relation caseSensitive search).isReadable = true := by
  obtain ⟨hown, hlevel⟩ := isReadable_ownExpr caseSensitive search
  have hquote := searchLiteral_quote (if caseSensitive then search
    else Text.lower search)
  have hliteral : (Expr.literal
      (searchLiteral (if caseSensitive then search else Text.lower search)).1
      (searchLiteral (if caseSensitive then search
        else Text.lower search)).2).isReadable = true := by
    rw [Expr.isReadable, Bool.and_eq_true, Bool.or_eq_true, beq_iff_eq,
      beq_iff_eq]
    exact ⟨hquote, h⟩
  cases relation with
  | equals =>
    have hbinds : 3 ≤ (ownExpr caseSensitive search).level := by omega
    exact Formula.isReadable_binary hown hliteral hbinds (by decide : 3 < 7)
  | contains => exact Bool.and_eq_true_iff.mpr ⟨hown, hliteral⟩
  | startsWith => exact Bool.and_eq_true_iff.mpr ⟨hown, hliteral⟩
  | endsWith =>
    have hminus : (Expr.minus (.stringLength (ownExpr caseSensitive search))
        (.number (Text.ofInt (Int.ofNat (searchLiteral
          (if caseSensitive then search else Text.lower search)).2.length -
            1)))).isReadable = true := by
      show ((ownExpr caseSensitive search).isReadable && Expr.isSigned _ &&
          true && true) = true
      rw [hown, isSigned_ofInt]
      rfl
    refine Formula.isReadable_binary ?_ hliteral (by decide : 3 ≤ 7)
      (by decide : 3 < 7)
    exact Bool.and_eq_true_iff.mpr ⟨hown, hminus⟩

/-- A text test is made into the condition on its trimmed argument. -/
theorem filters_eq_of_text {t : Token} {relation : TextRelation}
    {caseSensitive : Bool} {argument : Text}
    (hpseudo : t.pseudo? = some (.text relation caseSensitive))
    (hargument : t.argument = some (.text argument))
    (hne : Text.trim argument ≠ []) :
    filters t =
      .ok [(textFilter relation caseSensitive
      (Text.trim argument)).render] := by
  have htext : argumentText t = .ok (Text.trim argument) := by
    rw [argumentText, Token.argumentText?, hargument]
    exact if_neg (by simpa using hne)
  rw [filters, kind_of_pseudo? hpseudo, hpseudo, htext]
  rfl

/-- Without regard to letter case, an ASCII text is looked for in small letters
on both sides. -/
theorem finds_folded_iff (c : Context) (relation : TextRelation) {search : Text}
    (h : search.isAscii = true) :
    relation.Finds (searchLiteral (Text.lower search)).2
      ((ownExpr false search).value c).toText ↔
      relation.Finds (Text.collapse (authorLiteral search).2).asciiLower
        (normalizeSpace c.text).asciiLower := by
  have hbody : (searchLiteral (Text.lower search)).2 =
      (Text.collapse (authorLiteral search).2).asciiLower := by
    rw [searchLiteral_eq, Text.lower_of_ascii h, authorLiteral_map_toLower]
    exact Text.collapse_map Text.isBlank_toLower rfl _
  rw [hbody, toText_ownExpr, translated_capitals h]
  apply relation.finds_map_congr
  intro x hx
  obtain ⟨y, hy, rfl⟩ := List.mem_map.mp hx
  have hsmall : y.toLower.toLower = y.toLower := by
    apply char_eq_of_toNat_eq
    have hlower := toNat_toLower y
    rw [toNat_toLower y.toLower]
    split at hlower <;> split <;> omega
  refine fold_eq_iff h hsmall fun hletter =>
    (mem_letters_iff h).mpr ⟨hletter, y, ?_, rfl⟩
  rcases Text.mem_collapse hy with rfl | hy
  · exact absurd hletter (by decide)
  · exact mem_of_mem_authorLiteral hy

/-- The condition on an ASCII text finds what the author wrote, in the text of
the element with its white space normalized, as its relation asks; and the
condition on an ASCII name compares names in capitals. A name stands in single
quotes in its condition, so it must not hold one. -/
theorem filters_ascii_iff (t : Token) :
    (∀ relation caseSensitive argument, t.pseudo? =
      some (.text relation caseSensitive) → t.argument = some (.text argument) →
      argument.isAscii = true → Text.trim argument ≠ [] →
      (authorLiteral (Text.trim argument)).1 ∉
        (authorLiteral (Text.trim argument)).2 →
      ∃ fragment e, filters t = .ok [fragment] ∧ readExpr fragment = some e ∧
        ∀ c : Context, e.holds c = true ↔
          relation.Finds (compared caseSensitive (searchedText argument))
            (compared caseSensitive (normalizeSpace c.text))) ∧
      (t.kind = .tag → t.label.isAscii = true → '\'' ∉ t.label →
        ∃ fragment e, filters t = .ok [fragment] ∧ readExpr fragment = some e ∧
          ∀ c : Context, e.holds c = true ↔
            c.name.map Char.toUpper = t.label.map Char.toUpper) := by
  constructor
  · intro relation caseSensitive argument hpseudo hargument hascii hne hquotes
    have hquotable : isQuotable caseSensitive (Text.trim argument) = true :=
      (isQuotable_iff caseSensitive _).mpr hquotes
    have htest := (isSealed_textFilter relation hquotable).2
    refine ⟨_, textFilter relation caseSensitive (Text.trim argument),
      filters_eq_of_text hpseudo hargument hne,
        readExpr_render (isReadable_textFilter relation hquotable), ?_⟩
    intro c
    rw [holds_of_isTest c htest, truth_textFilter]
    cases caseSensitive with
    | true =>
      rw [if_pos rfl, searchLiteral_eq]
      rfl
    | false => exact finds_folded_iff c relation (isAscii_trim hascii)
  · intro hkind hascii hquote
    refine ⟨_, tagFilter t.label, Draft.filters_of_tag hkind,
      readExpr_render (isReadable_tagFilter hquote), ?_⟩
    intro c
    rw [holds_of_isTest c rfl, truth_tagFilter c hascii]

/-- A text is found across a tab and in other letters than it was asked for; a
name with quotes writes a condition of its own, which holds of an element with
another name. -/
theorem filters_ascii_iff_openQuote :
    (∃ fragment e, filters
      (.pseudoClass "text-contains" (some (.text "'Foo  BAR'"))) =
      .ok [fragment] ∧ readExpr fragment = some e ∧
      e.holds ⟨"p", fun _ => none, "the fOO\tbar", [], 1, 1⟩ = true ∧
      e.holds ⟨"p", fun _ => none, "the foobar", [], 1, 1⟩ = false) ∧
      ∃ e, filters (.tag "a' = 'a") =
        .ok ["translate(name(), 'a', 'A') = 'A' = 'A'"] ∧
        readExpr "translate(name(), 'a', 'A') = 'A' = 'A'" = some e ∧
        e.holds ⟨"a", fun _ => none, [], [], 1, 1⟩ = true := by
  constructor
  · obtain ⟨fragment, e, hfilters, hread, hholds⟩ :=
      (filters_ascii_iff
        (.pseudoClass "text-contains" (some (.text "'Foo  BAR'")))).1
        .contains false
        "'Foo  BAR'" (by decide) rfl (by decide) (by decide) (by decide)
    refine ⟨fragment, e, hfilters, hread, (hholds _).mpr ?_, ?_⟩
    · show ("foo bar" : Text) <:+: "the foo bar".toList
      decide
    · rw [Bool.eq_false_iff, Ne, hholds]
      show ¬("foo bar" : Text) <:+: "the foobar".toList
      decide
  · refine ⟨_, Draft.filters_of_tag rfl, rfl, by decide⟩

end XPath

end SelectorPath
