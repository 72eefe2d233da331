import SelectorPath.XPath.Location
import SelectorPath.Proofs.LetterCase
import SelectorPath.Proofs.Predicates
import SelectorPath.Proofs.TextParts

/-!
# Meaning of the filters

The filters of a token are texts of expressions that may stand as fragments of a
predicate, and this module says what these expressions mean. Names and values
are taken from a selector, so what they may hold is a hypothesis: a name is one
for XPath too, and a value holds no single quote, because no literal could hold
it.

## Main results

* `isFragment_attributeFilters`, `isFragment_tagFilter`: filters may stand as
  fragments.
* `value_of_isLocal`: an expression that does not ask for a position has the
  same value in every place.
* `truth_tagFilter`: the filter of a type selector compares names without regard
  to letter case.
-/

namespace SelectorPath.XPath

/-! ## Fragments -/

/-- A fragment with an equals sign is put in parentheses among others. -/
theorem needsParens_of_mem {t : Text} (h : '=' ∈ t) : needsParens t = true := by
  have hany : t.any (fun c => c == '=' || c == '<' || c == '>') = true :=
    List.any_eq_true.mpr ⟨'=', h, rfl⟩
  rw [needsParens, hany, Bool.true_or]

/-- Whether an operator compares. -/
def Operator.isComparison : Operator → Bool
  | equal | unequal | atMost | atLeast => true
  | _ => false

/-- The characters of a comparison are those of its sides and of its sign. -/
theorem mem_render_binary {op : Operator} {l r : Expr} {c : Char} :
    c ∈ (Expr.binary op l r).render ↔
      c ∈ l.render ∨ c ∈ " " ++ op.symbol ++ " " ∨ c ∈ r.render := by
  have hrender : (Expr.binary op l r).render =
      l.render ++ (" " ++ op.symbol ++ " " ++ r.render) := by
    show l.render ++ " " ++ op.symbol ++ " " ++ r.render = _
    simp
  rw [hrender, List.mem_append, List.mem_append]

/-- Every comparison has an equals sign, so beside others it is put in
parentheses. -/
theorem mem_render_comparison {op : Operator} (l r : Expr)
    (hop : op.isComparison = true) :
    '=' ∈ (Expr.binary op l r).render := by
  rw [mem_render_binary]
  right
  left
  cases op <;> first | decide | simp [Operator.isComparison] at hop

/-- A comparison that can be read back is a fragment of its own. -/
theorem isFragment_comparison {op : Operator} {l r : Expr}
    (hop : op.isComparison = true)
    (h : (Expr.binary op l r).isReadable = true) :
    (Expr.binary op l r).isFragment = true := by
  have htest : (Expr.binary op l r).isTest = true := by
    cases op <;> first | rfl | simp [Operator.isComparison] at hop
  simp [Expr.isFragment, h, htest,
    needsParens_of_mem (mem_render_comparison l r hop)]

/-- A condition without an operator of its own needs no parentheses. -/
theorem isFragment_of_level {e : Expr} (h : e.isReadable = true)
    (htest : e.isTest = true) (hlevel : e.level = 7) : e.isFragment = true := by
  simp [Expr.isFragment, h, htest, hlevel]

/-- A literal in single quotes can be read back if no single quote is in it. -/
theorem isReadable_single {t : Text} (h : '\'' ∉ t) :
    (Expr.single t).isReadable = true := by
  simp [Expr.single, Expr.isReadable, h]

/-- A natural number is written in digits. -/
theorem isNumeral_ofNat (n : Nat) : isNumeral (Text.ofNat n) = true := by
  have hdigits : (Text.ofNat n).all Char.isDigit = true :=
    List.all_eq_true.mpr fun c hc => Text.isDigit_of_mem_ofNat hc
  simp [isNumeral, Text.ofNat_ne_nil, hdigits]

/-- An integer is written in digits, with a sign where it is negative. -/
theorem isSigned_ofInt (n : Int) : Expr.isSigned (Text.ofInt n) = true := by
  cases n with
  | ofNat m =>
    have hm := isNumeral_ofNat m
    show Expr.isSigned (Text.ofNat m) = true
    unfold Expr.isSigned
    split
    · rename_i t heq
      rw [heq] at hm
      simp [isNumeral] at hm
    · exact hm
  | negSucc m => exact isNumeral_ofNat (m + 1)

/-- An attribute test is made into the conditions of its kind. -/
theorem filters_of_attr {t : Token} {test : AttributeTest}
    (hkind : t.kind = .attr) (htest : t.test = some test) :
    filters t = .ok ((attributeFilters t.label (t.value.getD []) test).map
      Expr.render) := by
  rw [filters, hkind, htest]

/-- The filters of an attribute test may stand as fragments. -/
theorem isFragment_attributeFilters {name value : Text} (test : AttributeTest)
    (hname : isName name = true) (hvalue : '\'' ∉ value) :
    ∀ e ∈ attributeFilters name value test, e.isFragment = true := by
  have hpresent : (Expr.attr name).isFragment = true :=
    isFragment_of_level hname rfl rfl
  intro e he
  cases test with
  | present =>
    rw [attributeFilters, List.mem_singleton] at he
    rw [he]
    exact hpresent
  | hasWord =>
    simp only [attributeFilters, List.mem_cons, List.not_mem_nil,
      or_false] at he
    rcases he with rfl | rfl
    · exact hpresent
    · apply isFragment_of_level _ rfl rfl
      simp [Expr.isReadable, Expr.single, hname, hvalue]
  | contains =>
    simp only [attributeFilters, List.mem_cons, List.not_mem_nil,
      or_false] at he
    rcases he with rfl | rfl
    · exact hpresent
    · apply isFragment_of_level _ rfl rfl
      simp [Expr.isReadable, Expr.single, hname, hvalue]
  | startsWith =>
    simp only [attributeFilters, List.mem_cons, List.not_mem_nil,
      or_false] at he
    rcases he with rfl | rfl
    · exact hpresent
    · apply isFragment_of_level _ rfl rfl
      simp [Expr.isReadable, Expr.single, hname, hvalue]
  | endsWith =>
    simp only [attributeFilters, List.mem_cons, List.not_mem_nil,
      or_false] at he
    rcases he with rfl | rfl
    · exact hpresent
    · apply isFragment_comparison rfl
      simp [Expr.isReadable, Expr.level, Operator.level, hname, hvalue,
        isSigned_ofInt]
  | hyphenated =>
    simp only [attributeFilters, List.mem_cons, List.not_mem_nil,
      or_false] at he
    rcases he with rfl | rfl
    · exact hpresent
    · apply isFragment_of_level _ rfl rfl
      simp [Expr.isReadable, Expr.level, Operator.level, Expr.single, hname,
        hvalue]
  | differs =>
    rw [attributeFilters, List.mem_singleton] at he
    have hread : e.isReadable = true := by
      rw [he]
      simp [Expr.isReadable, Expr.level, Operator.level, Expr.single, hname,
        hvalue]
    have hmem : '=' ∈ e.render := by
      rw [he, mem_render_binary]
      exact .inr (.inr (mem_render_comparison _ _ rfl))
    have htest : e.isTest = true := by
      rw [he]
      rfl
    simp [Expr.isFragment, hread, htest, needsParens_of_mem hmem]
  | equals =>
    rw [attributeFilters, List.mem_singleton] at he
    rw [he]
    apply isFragment_comparison rfl
    simp [Expr.isReadable, Expr.level, Operator.level, Expr.single, hname,
      hvalue]

/-! ## Comparisons -/

/-- Two strings are compared as such. -/
theorem truth_equal_string {c : Context} {l r : Expr} {s t : Text}
    (hl : l.value c = .string s) (hr : r.value c = .string t) :
    (Expr.binary .equal l r).truth c = (s == t) := by
  show (Value.compare .equal (l.value c) (r.value c)) = _
  rw [hl, hr]
  show (((s == t) || false) || false) = _
  rw [Bool.or_false, Bool.or_false]

/-- Two numbers are compared as such. -/
theorem truth_equal_number {c : Context} {l r : Expr} {m n : Int}
    (hl : l.value c = .number (some m)) (hr : r.value c = .number (some n)) :
    (Expr.binary .equal l r).truth c = (n == m) := by
  show (Value.compare .equal (l.value c) (r.value c)) = _
  rw [hl, hr]
  show (((some n == some m) || false) || false) = _
  rw [Bool.or_false, Bool.or_false]
  rfl

/-! ## Names -/

/-- The condition that an element has the given name, exactly. -/
def nameIs (name : Text) : Expr :=
  .binary .equal .elementName (.single name)

/-- A character of a name is in the ASCII range and no quote. -/
theorem toNat_of_continuesName {c : Char} (h : continuesName c = true) :
    c.toNat < 0x80 ∧ c.toNat ≠ 39 := by
  simp only [continuesName, Char.isAlphanum, Bool.or_eq_true, beq_iff_eq,
    isAlpha_iff, isDigit_iff] at h
  rcases h with (((hletter | hdigit) | rfl) | rfl) | rfl
  · omega
  · omega
  · decide
  · decide
  · decide

private theorem continuesName_of_mem {name : Text} (h : isName name = true) :
    ∀ c ∈ name, continuesName c = true := by
  cases name with
  | nil => simp [isName] at h
  | cons c rest =>
    rw [isName, Bool.and_eq_true] at h
    intro d hd
    rcases List.mem_cons.mp hd with rfl | hd
    · have hbegins := h.1
      simp only [beginsName, Bool.or_eq_true] at hbegins
      rcases hbegins with halpha | hscore
      · simp [continuesName, Char.isAlphanum, halpha]
      · simp [continuesName, hscore]
    · exact List.all_eq_true.mp h.2 d hd

/-- A name is in the ASCII range. -/
theorem isAscii_of_isName {name : Text} (h : isName name = true) :
    Text.isAscii name = true := by
  simp only [Text.isAscii, List.all_eq_true, decide_eq_true_eq]
  exact fun c hc => (toNat_of_continuesName (continuesName_of_mem h c hc)).1

private theorem quote_not_mem_of_isName {name : Text} (h : isName name = true) :
    '\'' ∉ name := by
  intro hmem
  exact (toNat_of_continuesName (continuesName_of_mem h _ hmem)).2 rfl

/-- The condition on a name can be read back from its text. -/
theorem isFragment_nameIs {name : Text} (h : isName name = true) :
    (nameIs name).isFragment = true := by
  apply isFragment_comparison rfl
  simp [Expr.isReadable, Expr.level, Operator.level, Expr.single,
    quote_not_mem_of_isName h]

/-- The condition on a name can be read again if the name has no quote: no
letter has the quote as its capital. -/
theorem isReadable_tagFilter {name : Text} (h : '\'' ∉ name) :
    (tagFilter name).isReadable = true := by
  obtain ⟨hlower, hupper⟩ := quote_not_mem_letters name
  simp only [tagFilter, Expr.isReadable, isReadable_single hlower,
    isReadable_single hupper, isReadable_single (Text.quote_not_mem_upper h)]
  rfl

/-- The filter of a type selector may stand as a fragment. -/
theorem isFragment_tagFilter {name : Text} (h : isName name = true) :
    (tagFilter name).isFragment = true :=
  isFragment_comparison rfl (isReadable_tagFilter (quote_not_mem_of_isName h))

/-- The condition on a name compares it exactly. -/
theorem truth_nameIs (c : Context) (name : Text) :
    (nameIs name).truth c = (c.name == name) :=
  truth_equal_string rfl rfl

/-- The condition of a type selector compares what translation makes of the
name. -/
theorem truth_tagFilter_iff (c : Context) (name : Text) :
    (tagFilter name).truth c = true ↔
      translated (Letters.ofText name).lower (Letters.ofText name).upper
        c.name = Text.upper name := by
  have hfilter : (tagFilter name).truth c =
      (translated (Letters.ofText name).lower (Letters.ofText name).upper
        c.name == Text.upper name) := truth_equal_string rfl rfl
  rw [hfilter, beq_iff_eq]

/-- The filter of a type selector compares names without regard to letter
case. -/
theorem truth_tagFilter (c : Context) {name : Text}
    (h : Text.isAscii name = true) :
    (tagFilter name).truth c = true ↔
      c.name.map Char.toUpper = name.map Char.toUpper := by
  rw [truth_tagFilter_iff, translated_letters_eq_upper_iff h]

/-! ## Attributes -/

/-- An attribute alone asks whether it is there. -/
theorem truth_attr (c : Context) (name : Text) :
    (Expr.attr name).truth c = (c.attribute? name).isSome := by
  cases h : c.attribute? name <;> simp [Expr.truth, Expr.value, Value.toBool, h]

/-- A comparison of an attribute asks for its value. -/
theorem truth_attr_equals (c : Context) (name value : Text) :
    (Expr.binary .equal (.attr name) (.single value)).truth c =
      (c.attribute? name == some value) := by
  cases h : c.attribute? name <;>
    simp [h, Expr.truth, Expr.value, Expr.single, Operator.apply, Value.compare,
      Value.members, Value.related, Value.same, Value.isBoolean, Value.isNumber,
      Value.toText, Value.toBool]

/-! ## Positions -/

/-- The condition that an element is the first that its step has reached. -/
def isFirst : Expr :=
  .binary .equal .position (.number "1")

/-- The condition that an element is the last that its step has reached. -/
def isLast : Expr :=
  .binary .equal .position .last

/-- The condition that an element is the only one that its step has reached. -/
def isOnly : Expr :=
  .binary .equal .last (.number "1")

theorem truth_isFirst (c : Context) : isFirst.truth c = (c.position == 1) := by
  have hone : (Expr.number "1").value c = .number (some 1) := by
    show Value.number (number? "1") = _
    rw [show number? "1" = some 1 by decide]
  have htruth : isFirst.truth c = ((1 : Int) == c.position) :=
    truth_equal_number rfl hone
  rw [htruth, Bool.eq_iff_iff, beq_iff_eq, beq_iff_eq]
  omega

theorem truth_isLast (c : Context) :
    isLast.truth c = (c.position == c.size) := by
  have htruth : isLast.truth c = ((c.size : Int) == c.position) :=
    truth_equal_number rfl rfl
  rw [htruth, Bool.eq_iff_iff, beq_iff_eq, beq_iff_eq]
  omega

theorem truth_isOnly (c : Context) : isOnly.truth c = (c.size == 1) := by
  have hone : (Expr.number "1").value c = .number (some 1) := by
    show Value.number (number? "1") = _
    rw [show number? "1" = some 1 by decide]
  have htruth : isOnly.truth c = ((1 : Int) == c.size) :=
    truth_equal_number rfl hone
  rw [htruth, Bool.eq_iff_iff, beq_iff_eq, beq_iff_eq]
  omega

theorem isFragment_position :
    isFirst.isFragment = true ∧ isLast.isFragment = true ∧
    isOnly.isFragment = true := by
  refine ⟨isFragment_comparison rfl ?_, isFragment_comparison rfl ?_,
    isFragment_comparison rfl ?_⟩
  · decide
  · decide
  · decide

/-- Whether an expression asks for the place of its element nowhere. -/
def Expr.isLocal : Expr → Bool
  | position | last => false
  | normalizeSpace e | stringLength e | not e | group e => e.isLocal
  | contains e part | startsWith e part | substring e part =>
    e.isLocal && part.isLocal
  | concat a b c | translate a b c => a.isLocal && b.isLocal && c.isLocal
  | minus l r | binary _ l r => l.isLocal && r.isLocal
  | _ => true

/-- Such an expression has the same value in every place. -/
theorem value_of_isLocal {e : Expr} (h : e.isLocal = true) (c : Context)
    (position size : Nat) :
    e.value { c with position, size } = e.value c := by
  induction e with
  | position => simp [Expr.isLocal] at h
  | last => simp [Expr.isLocal] at h
  | _ => simp_all [Expr.isLocal, Expr.value]

/-- What an attribute test asks for does not depend on places. -/
theorem isLocal_attributeFilters (name value : Text) (test : AttributeTest) :
    ∀ e ∈ attributeFilters name value test, e.isLocal = true := by
  intro e he
  cases test <;>
    simp only [attributeFilters, List.mem_cons, List.not_mem_nil, or_false]
      at he <;>
    rcases he with rfl | rfl <;> rfl

end SelectorPath.XPath
