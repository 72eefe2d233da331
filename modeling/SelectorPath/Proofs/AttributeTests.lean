import SelectorPath.Proofs.Positions

/-!
# Meaning of attribute tests

The filters of an attribute test, read as expressions, are true of an element
exactly when its attribute is as the test asks. The tests for the beginning of a
value and for a part of it are functions of XPath. The other two have to be put
together from what XPath has:

* the end of a value is cut off by a place that is counted from the length of
  the value, and so can lie in front of its first character, or behind the last
  one where nothing is looked for;
* a word is looked for with a space on either side, after the words of the value
  have been joined by single spaces.

As for the filters themselves, the name of the attribute is one for XPath too
and the value holds no single quote.

## Main results

* `truth_endsWith`: the comparison of the last characters is a test for the end,
  for every text.
* `occursIn_normalizeSpace_iff`: the search with spaces finds the words of a
  text and nothing else.
* `filters_attr_iff`: the filters of an attribute test mean the test.
-/

namespace SelectorPath.XPath

/-! ## What a test asks -/

/-- Whether `w` is one of the words of `t`, which are separated by white
space. -/
def IsWord (w t : Text) : Prop :=
  w ≠ [] ∧ (∀ c ∈ w, isSpace c = false) ∧ Text.Stands isSpace w t

/-- What a test with the given value asks of an attribute; `none` stands for an
attribute that the element does not have. -/
def Asks (value : Text) (found : Option Text) : AttributeTest → Prop
  | .present => found.isSome = true
  | .hasWord => ∃ v, found = some v ∧ IsWord value v
  | .contains => ∃ v, found = some v ∧ value <:+: v
  | .startsWith => ∃ v, found = some v ∧ value <+: v
  | .endsWith => ∃ v, found = some v ∧ value <:+ v
  | .hyphenated => ∃ v, found = some v ∧ (v = value ∨ value ++ ['-'] <+: v)
  | .differs => found = none ∨ ∃ v, found = some v ∧ v ≠ value
  | .equals => found = some value

/-! ## Ends -/

private theorem number?_ofInt (n : Int) : number? (Text.ofInt n) = some n := by
  cases n with
  | ofNat m =>
    rw [Text.ofInt, number?_numeral (isNumeral_ofNat m), Text.toNat_ofNat]
  | negSucc m =>
    rw [Text.ofInt, number?_negative (isNumeral_ofNat (m + 1)),
      Text.toNat_ofNat]
    rfl

/-- The place from which the last characters are taken is one for every length
of the text that is looked for: in front of the text it means all of the text,
and behind it nothing. -/
theorem value_lastCharacters (c : Context) (e : Expr) (body : Text) :
    (Expr.substring e (.minus (.stringLength e)
      (.number (Text.ofInt (Int.ofNat body.length - 1))))).value c =
      .string ((e.value c).toText.drop ((e.value c).toText.length -
        body.length)) := by
  have hnumber := number?_ofInt (Int.ofNat body.length - 1)
  have hplace : ((e.value c).toText.length - (Int.ofNat body.length - 1) -
      1 : Int).toNat =
      (e.value c).toText.length - body.length := by
    have hcast : Int.ofNat body.length = (body.length : Int) := rfl
    omega
  simp only [Expr.value, Value.toNumber, hnumber, Option.bind_some,
    Option.map_some, hplace]

/-- The test for an ending holds of the texts that end so. -/
theorem truth_endsWith (c : Context) (e : Expr) (quote : Char) (body : Text) :
    (e.endsWith quote body).truth c = true ↔ body <:+ (e.value c).toText := by
  rw [Expr.endsWith, truth_equal_string (value_lastCharacters c e body) rfl,
    beq_iff_eq, List.suffix_iff_eq_drop, eq_comm]

/-! ## Parts and words -/

/-- The search within a text finds what is an infix of it. -/
theorem occursIn_iff {part t : Text} :
    occursIn part t = true ↔ part <:+: t := by
  induction t with
  | nil => rw [occursIn, List.isEmpty_iff, List.infix_nil]
  | cons c t ih =>
    rw [occursIn, Bool.or_eq_true, List.isPrefixOf_iff_prefix, ih,
      List.infix_cons_iff]

private theorem ne_space_of_isSpace {c : Char} (h : isSpace c = false) :
    (c == ' ') = false := by
  simp only [isSpace, Bool.or_eq_false_iff] at h
  exact h.1.1.1

/-- The words of a text are the pieces of the text in which they are joined by
single spaces. -/
theorem mem_splitBy_normalizeSpace {w : Text} (hne : w ≠ []) (t : Text) :
    w ∈ Text.splitBy (· == ' ') (normalizeSpace t) ↔
      w ∈ Text.splitBy isSpace t := by
  have hwords : ∀ word ∈ (Text.splitBy isSpace t).filter (fun w => !w.isEmpty),
      ∀ c ∈ word, (c == ' ') = false := by
    intro word hword c hc
    exact ne_space_of_isSpace
      (Text.not_of_mem_splitBy (List.mem_filter.mp hword).1 c hc)
  refine (Text.mem_splitBy_join rfl hwords hne).trans ?_
  simp [hne]

/-- The search with spaces finds the words of a text and nothing else. -/
theorem occursIn_normalizeSpace_iff {w : Text} (hne : w ≠ [])
    (hw : ∀ c ∈ w, isSpace c = false) (t : Text) :
    occursIn (" " ++ w ++ " ") (" " ++ normalizeSpace t ++ " ") = true ↔
      IsWord w t := by
  have hspace : ∀ c ∈ w, (c == ' ') = false :=
    fun c hc => ne_space_of_isSpace (hw c hc)
  calc
    _ ↔ ' ' :: (w ++ [' ']) <:+: ' ' :: (normalizeSpace t ++ [' ']) :=
      occursIn_iff
    _ ↔ Text.Stands (· == ' ') w (normalizeSpace t) := Text.padded_infix_iff
    _ ↔ w ∈ Text.splitBy (· == ' ') (normalizeSpace t) :=
      (Text.mem_splitBy_iff hspace).symm
    _ ↔ w ∈ Text.splitBy isSpace t := mem_splitBy_normalizeSpace hne t
    _ ↔ Text.Stands isSpace w t := Text.mem_splitBy_iff hw
    _ ↔ IsWord w t := ⟨fun h => ⟨hne, hw, h⟩, fun h => h.2.2⟩

/-! ## Filters -/

section Filters

variable {c : Context} {name value : Text}

private theorem truth_attr_differs :
    (Expr.binary .unequal (.attr name) (.single value)).truth c = true ↔
      ∃ v, c.attribute? name = some v ∧ v ≠ value := by
  cases h : c.attribute? name <;>
    simp [h, Expr.truth, Expr.value, Expr.single, Operator.apply, Value.compare,
      Value.members, Value.related, Value.same, Value.isBoolean, Value.isNumber,
      Value.toText, Value.toBool]

/-- A condition beside the one that the attribute is there may take its value
for granted. -/
theorem all_truth_pair_iff {e : Expr} {P : Text → Prop}
    (h : ∀ v, c.attribute? name = some v → (e.truth c = true ↔ P v)) :
    [Expr.attr name, e].all (Expr.truth c) = true ↔
    ∃ v, c.attribute? name = some v ∧ P v := by
  rw [List.all_cons, List.all_cons, List.all_nil, Bool.and_true,
    Bool.and_eq_true, truth_attr, Option.isSome_iff_exists]
  constructor
  · rintro ⟨⟨v, hv⟩, he⟩
    exact ⟨v, hv, (h v hv).mp he⟩
  · rintro ⟨v, hv, hP⟩
    exact ⟨⟨v, hv⟩, (h v hv).mpr hP⟩

private theorem all_truth_attributeFilters_iff {test : AttributeTest}
    (hword : test = .hasWord → value ≠ [] ∧ ∀ ch ∈ value, isSpace ch = false) :
    (attributeFilters name value test).all (Expr.truth c) = true ↔
      Asks value (c.attribute? name) test := by
  have hattr : ∀ v, c.attribute? name = some v →
      ((Expr.attr name).value c).toText = v := by
    intro v hv
    rw [Expr.value, hv]
    rfl
  cases test with
  | present =>
    rw [attributeFilters, List.all_cons, List.all_nil, Bool.and_true,
      truth_attr]
    rfl
  | hasWord =>
    obtain ⟨hne, hspace⟩ := hword rfl
    apply all_truth_pair_iff
    intro v hv
    show occursIn _ (" " ++ normalizeSpace ((Expr.attr name).value c).toText ++
        " ") = true ↔ _
    rw [hattr v hv]
    exact occursIn_normalizeSpace_iff hne hspace v
  | contains =>
    apply all_truth_pair_iff
    intro v hv
    show occursIn value ((Expr.attr name).value c).toText = true ↔ _
    rw [hattr v hv, occursIn_iff]
  | startsWith =>
    apply all_truth_pair_iff
    intro v hv
    show value.isPrefixOf ((Expr.attr name).value c).toText = true ↔ _
    rw [hattr v hv, List.isPrefixOf_iff_prefix]
  | endsWith =>
    apply all_truth_pair_iff
    intro v hv
    rw [truth_endsWith, hattr v hv]
  | hyphenated =>
    apply all_truth_pair_iff
    intro v hv
    show ((Expr.binary .equal (.attr name) (.single value)).truth c ||
      (value ++ "-").isPrefixOf ((Expr.attr name).value c).toText) = true ↔ _
    rw [truth_attr_equals, hattr v hv, hv, Bool.or_eq_true, beq_iff_eq,
      Option.some_inj, List.isPrefixOf_iff_prefix]
    rfl
  | differs =>
    rw [attributeFilters, List.all_cons, List.all_nil, Bool.and_true]
    show (!(Expr.attr name).truth c ||
        (Expr.binary .unequal (.attr name) (.single value)).truth c) = true ↔ _
    rw [Bool.or_eq_true, truth_attr_differs, truth_attr, Bool.not_eq_true',
      Option.isSome_eq_false_iff, Option.isNone_iff_eq_none]
    rfl
  | equals =>
    rw [attributeFilters, List.all_cons, List.all_nil, Bool.and_true,
      truth_attr_equals, beq_iff_eq]
    rfl

end Filters

/-- Filters of an attribute test mean the test: each can be read, all of them
are true of an element exactly when its attribute is as the test asks, and the
predicate that they are joined to keeps just these elements. -/
theorem filters_attr_iff {t : Token} {test : AttributeTest}
    (hkind : t.kind = .attr) (htest : t.test = some test)
    (hname : isName t.label = true) (hvalue : '\'' ∉ t.value.getD [])
    (hword : test = .hasWord → t.value.getD [] ≠ [] ∧
      ∀ ch ∈ t.value.getD [], isSpace ch = false) :
    ∃ (fragments : List Text) (es : List Expr) (e : Expr),
      filters t = .ok fragments ∧ fragments.map readExpr = es.map some ∧
      readExpr (flatten .and fragments) = some e ∧
      ∀ c : Context,
        (es.all (Expr.truth c) = true ↔
          Asks (t.value.getD []) (c.attribute? t.label) test) ∧
          e.holds c = es.all (Expr.truth c) := by
  have hfragments := isFragment_attributeFilters test hname hvalue
  have hne : attributeFilters t.label (t.value.getD []) test ≠ [] := by
    cases test <;> exact List.cons_ne_nil _ _
  obtain ⟨e, hreadable, hisTest, hrender, htruth⟩ :=
    flatten_render .and hne hfragments
  refine ⟨_, attributeFilters t.label (t.value.getD []) test, e,
    filters_of_attr hkind htest, ?_, ?_, ?_⟩
  · rw [List.map_map]
    apply List.map_congr_left
    intro e he
    have hread := hfragments e he
    simp only [Expr.isFragment, Bool.and_eq_true] at hread
    exact readExpr_render hread.1.1
  · rw [← hrender, readExpr_render hreadable]
  · intro c
    refine ⟨all_truth_attributeFilters_iff hword, ?_⟩
    rw [holds_of_isTest c hisTest, htruth, Connective.join, List.all_map]
    rfl

/-- The end of one word and the start of another are not found, a word behind a
tab is. -/
theorem filters_attr_iff_behindTab :
    ∃ (fragments : List Text) (e : Expr),
      filters (.attr "class" .hasWord (some "b")) = .ok fragments ∧
        readExpr (flatten .and fragments) = some e ∧
        e.holds ⟨"p", fun _ => some "ab\tb", [], [], 1, 1⟩ = true ∧
        e.holds ⟨"p", fun _ => some "ab b-c", [], [], 1, 1⟩ = false := by
  have hspace : ∀ ch ∈ ("b" : Text), isSpace ch = false := by
    intro ch hch
    rw [List.mem_singleton.mp hch]
    rfl
  obtain ⟨fragments, es, e, hfilters, -, hread, h⟩ :=
    filters_attr_iff (t := .attr "class" .hasWord (some "b"))
    rfl rfl (by decide) (by decide) (fun _ => ⟨by decide, hspace⟩)
  have hfound : IsWord "b" "ab\tb" :=
    ⟨by decide, hspace, "ab\t", [], rfl, rfl, rfl⟩
  have hmissing : ¬IsWord "b" "ab b-c" := by
    intro hword
    have hmem := (Text.mem_splitBy_iff hword.2.1).mpr hword.2.2
    exact absurd hmem (by decide)
  refine ⟨fragments, e, hfilters, hread, ?_, ?_⟩
  · rw [(h _).2, (h _).1]
    exact ⟨_, rfl, hfound⟩
  · rw [(h _).2, Bool.eq_false_iff, Ne, (h _).1]
    rintro ⟨v, hv, hword⟩
    cases hv
    exact hmissing hword

end SelectorPath.XPath
