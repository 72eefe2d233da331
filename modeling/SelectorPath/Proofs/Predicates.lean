import SelectorPath.XPath.Predicate
import SelectorPath.Proofs.Evaluation
import SelectorPath.Proofs.Reading

/-!
# Meaning of joined fragments

A predicate is written from text fragments, by `flatten`, which knows nothing of
expressions. Where the fragments are the texts of expressions, the predicate is
the text of their conjunction or disjunction: the parentheses that `flatten`
adds are those that the reader needs, and what it leaves out as repeated is the
same expression again, because a text writes one expression only.

## Main results

* `flatten_render`: the predicate of fragments is an expression, and its truth
  is that of the fragments joined.
-/

namespace SelectorPath.XPath

/-! ## Truth -/

/-- The truth value of an expression. -/
def Expr.truth (c : Context) (e : Expr) : Bool :=
  (e.value c).toBool

/-- Whether an expression is a condition by itself: its value is never a number,
so a predicate asks for its truth and not for a position. -/
def Expr.isTest : Expr → Bool
  | attr _ | children | not _ | contains _ _ | startsWith _ _ => true
  | binary op _ _ => op != .modulo
  | group e => e.isTest
  | _ => false

/-- Where a test stands alone it holds by its truth. -/
theorem holds_of_isTest (c : Context) {e : Expr} (h : e.isTest = true) :
    e.holds c = e.truth c := by
  have hvalue : (e.value c).isNumber = false := by
    induction e with
    | binary op l r =>
      cases op with
      | modulo => simp [Expr.isTest] at h
      | _ => rfl
    | group e ih => exact ih h
    | attr n => rfl
    | children => rfl
    | not e => rfl
    | contains e part => rfl
    | startsWith e part => rfl
    | _ => simp [Expr.isTest] at h
  unfold Expr.holds Expr.truth
  split
  · rename_i n hn
    simp [hn, Value.isNumber] at hvalue
  · rfl

/-- The operator that a connective is. -/
def Connective.operator : Connective → Operator
  | and => .and
  | or => .or

/-- The truth of several conditions joined. -/
def Connective.join (op : Connective) (truths : List Bool) : Bool :=
  match op with
  | and => truths.all id
  | or => truths.any id

/-- The expressions joined to one, from left to right. -/
def chain (op : Connective) (e : Expr) (es : List Expr) : Expr :=
  es.foldl (.binary op.operator) e

private theorem truth_chain (c : Context) (op : Connective) (e : Expr)
    (es : List Expr) :
    (chain op e es).truth c = op.join ((e :: es).map (Expr.truth c)) := by
  induction es generalizing e with
  | nil => cases op <;> simp [chain, Connective.join]
  | cons e₂ es ih =>
    rw [chain, List.foldl_cons, ← chain, ih]
    cases op with
    | and =>
      have hjoined : (Expr.binary .and e e₂).truth c =
          (e.truth c && e₂.truth c) := rfl
      simp [Connective.join, Connective.operator, hjoined, Bool.and_assoc]
    | or =>
      have hjoined : (Expr.binary .or e e₂).truth c =
          (e.truth c || e₂.truth c) := rfl
      simp [Connective.join, Connective.operator, hjoined, Bool.or_assoc]

private theorem render_chain (op : Connective) (e : Expr) (es : List Expr) :
    (chain op e es).render =
      Text.join (" " ++ op.name ++ " ") ((e :: es).map Expr.render) := by
  induction es generalizing e with
  | nil => simp [chain, Text.join]
  | cons e₂ es ih =>
    have hsymbol : op.operator.symbol = op.name := by
      cases op <;> rfl
    have hjoined : (Expr.binary op.operator e e₂).render =
        e.render ++ " " ++ op.operator.symbol ++ " " ++ e₂.render := rfl
    rw [chain, List.foldl_cons, ← chain, ih]
    cases es with
    | nil => simp [Text.join, hjoined, hsymbol]
    | cons e₃ es => simp [Text.join, hjoined, hsymbol]

private theorem isReadable_chain (op : Connective) {e : Expr} {es : List Expr}
    (he : e.isReadable = true) (hlevel : op.operator.level ≤ e.level)
    (hes : ∀ x ∈ es, x.isReadable = true ∧ op.operator.level < x.level) :
    (chain op e es).isReadable = true := by
  induction es generalizing e with
  | nil => exact he
  | cons e₂ es ih =>
    obtain ⟨he₂, hlevel₂⟩ := hes e₂ (List.mem_cons_self ..)
    apply ih
    · simp [Expr.isReadable, he, he₂, hlevel, hlevel₂]
    · exact Nat.le_refl _
    · exact fun x hx => hes x (List.mem_cons_of_mem _ hx)

private theorem isTest_chain (op : Connective) {e : Expr} (es : List Expr)
    (he : e.isTest = true) :
    (chain op e es).isTest = true := by
  induction es generalizing e with
  | nil => exact he
  | cons e₂ es ih =>
    apply ih
    cases op <;> rfl

/-! ## Fragments -/

/-- Whether the text of an expression may be a fragment: it can be read again,
it is a condition, and beside others it is put in parentheses or binds more
tightly than the connectives. -/
def Expr.isFragment (e : Expr) : Bool :=
  e.isReadable && e.isTest && (decide (2 < e.level) || needsParens e.render)

/-- The expression in parentheses where its text needs them. -/
def guard (e : Expr) : Expr :=
  if needsParens e.render then .group e else e

private theorem render_guard (e : Expr) :
    (guard e).render = guarded e.render := by
  unfold guard guarded
  split
  · rfl
  · rfl

private theorem truth_guard (c : Context) (e : Expr) :
    (guard e).truth c = e.truth c := by
  unfold guard
  split
  · rfl
  · rfl

private theorem isReadable_guard {e : Expr} (h : e.isFragment = true) :
    (guard e).isReadable = true ∧ 2 < (guard e).level := by
  simp only [Expr.isFragment, Bool.and_eq_true, Bool.or_eq_true,
    decide_eq_true_eq] at h
  unfold guard
  split
  · have hgroup : (Expr.group e).level = 7 := rfl
    exact ⟨h.1.1, by omega⟩
  · rename_i hparens
    exact ⟨h.1.1, h.2.resolve_right hparens⟩

private theorem isTest_guard {e : Expr} (h : e.isFragment = true) :
    (guard e).isTest = true := by
  simp only [Expr.isFragment, Bool.and_eq_true] at h
  unfold guard
  split
  · exact h.1.2
  · exact h.1.2

/-- Nothing is no expression. -/
theorem render_ne_nil {e : Expr} (h : e.isReadable = true) : e.render ≠ [] := by
  intro hnil
  have hread := readExpr_render h
  rw [hnil] at hread
  simp [readExpr, lex, Scan.run, Scan.finish, Machine.run, Machine.finish]
    at hread

/-- Repetitions may be removed before or after a mapping that keeps elements
apart. -/
theorem eraseDups_map {α β : Type} [BEq α] [LawfulBEq α] [BEq β] [LawfulBEq β]
    {f : α → β} {l : List α} (h : ∀ a ∈ l, ∀ b ∈ l, f a = f b → a = b) :
    (l.map f).eraseDups = l.eraseDups.map f := by
  induction hn : l.length using Nat.strongRecOn generalizing l with
  | _ n ih =>
    cases l with
    | nil => rfl
    | cons a l =>
      have hfilter : (l.map f).filter (fun b => !b == f a) =
          (l.filter fun b => !b == a).map f := by
        rw [List.filter_map]
        congr 1
        apply List.filter_congr
        intro b hb
        have hiff : f b = f a ↔ b = a :=
          ⟨h b (List.mem_cons_of_mem _ hb) a (List.mem_cons_self ..),
            fun heq => by rw [heq]⟩
        simp only [Function.comp_apply, Bool.not_eq_eq_eq_not, Bool.not_not]
        rw [Bool.eq_iff_iff, beq_iff_eq, beq_iff_eq, hiff]
      have hlt : (l.filter fun b => !b == a).length < n := by
        have hle := List.length_filter_le (fun b => !b == a) l
        simp only [List.length_cons] at hn
        omega
      rw [List.map_cons, List.eraseDups_cons, List.eraseDups_cons,
        List.map_cons, hfilter, ih _ hlt (fun x hx y hy => ?_) rfl]
      exact h x (List.mem_cons_of_mem _ (List.mem_filter.mp hx).1) y
        (List.mem_cons_of_mem _ (List.mem_filter.mp hy).1)

/-- Repetitions among connected values do not count. -/
theorem join_eraseDups {α : Type} [BEq α] [LawfulBEq α] (op : Connective)
    (l : List α) (p : α → Bool) :
    op.join (l.eraseDups.map p) = op.join (l.map p) := by
  cases op with
  | and =>
    rw [Bool.eq_iff_iff]
    simp [Connective.join]
  | or =>
    rw [Bool.eq_iff_iff]
    simp [Connective.join]

/-- A fragment says something, so none is left out. -/
theorem filter_render {es : List Expr} (h : ∀ e ∈ es, e.isFragment = true) :
    (es.map Expr.render).filter (fun f => !f.isEmpty) = es.map Expr.render := by
  apply List.filter_eq_self.mpr
  intro f hf
  obtain ⟨e, he, rfl⟩ := List.mem_map.mp hf
  have hreadable : e.isReadable = true := by
    have hfragment := h e he
    simp only [Expr.isFragment, Bool.and_eq_true] at hfragment
    exact hfragment.1.1
  simpa using render_ne_nil hreadable

/-- Several fragments, each in parentheses where it needs them and written once,
are a chain. -/
theorem exists_chain (op : Connective) {es : List Expr} (hne : es ≠ [])
    (h : ∀ e ∈ es, e.isFragment = true) :
    ∃ e : Expr, e.isReadable = true ∧ e.isTest = true ∧
      e.render = Text.join (" " ++ op.name ++ " ")
        ((es.map Expr.render).map guarded).eraseDups ∧
      ∀ c, e.truth c = op.join (es.map (Expr.truth c)) := by
  have hguard : (es.map Expr.render).map guarded =
      (es.map guard).map Expr.render := by
    simp [Function.comp_def, render_guard]
  have hreadable : ∀ x ∈ es.map guard, x.isReadable = true ∧ 2 < x.level := by
    intro x hx
    obtain ⟨e, he, rfl⟩ := List.mem_map.mp hx
    exact isReadable_guard (h e he)
  have hdups : ((es.map guard).map Expr.render).eraseDups =
      (es.map guard).eraseDups.map Expr.render :=
    eraseDups_map fun a ha b hb =>
      render_injective (hreadable a ha).1 (hreadable b hb).1
  have htruth : ∀ c, op.join ((es.map guard).eraseDups.map (Expr.truth c)) =
      op.join (es.map (Expr.truth c)) := by
    intro c
    rw [join_eraseDups]
    simp [Function.comp_def, truth_guard]
  have htest : ∀ x ∈ es.map guard, x.isTest = true := by
    intro x hx
    obtain ⟨e, he, rfl⟩ := List.mem_map.mp hx
    exact isTest_guard (h e he)
  obtain ⟨x, xs, hxs⟩ : ∃ x xs, (es.map guard).eraseDups = x :: xs := by
    cases es with
    | nil => exact absurd rfl hne
    | cons e es => exact ⟨_, _, List.eraseDups_cons⟩
  have hmem : ∀ y ∈ x :: xs, y ∈ es.map guard := by
    intro y hy
    rwa [← hxs, List.mem_eraseDups] at hy
  have hlevel : op.operator.level ≤ 2 := by
    cases op <;> decide
  rw [hguard, hdups, hxs]
  refine ⟨chain op x xs, ?_, ?_, render_chain op x xs, ?_⟩
  · apply isReadable_chain
    · exact (hreadable x (hmem x (List.mem_cons_self ..))).1
    · have hx := (hreadable x (hmem x (List.mem_cons_self ..))).2
      omega
    · intro y hy
      obtain ⟨hread, hbinds⟩ := hreadable y (hmem y (List.mem_cons_of_mem _ hy))
      exact ⟨hread, by omega⟩
  · exact isTest_chain op xs (htest x (hmem x (List.mem_cons_self ..)))
  · intro c
    rw [truth_chain, ← hxs, htruth]

/-- The predicate of fragments is the text of an expression that is true when
the fragments joined are. -/
theorem flatten_render (op : Connective) {es : List Expr} (hne : es ≠ [])
    (h : ∀ e ∈ es, e.isFragment = true) :
    ∃ e : Expr, e.isReadable = true ∧ e.isTest = true ∧
      e.render = flatten op (es.map Expr.render) ∧
      ∀ c, e.truth c = op.join (es.map (Expr.truth c)) := by
  simp only [flatten, filter_render h, List.length_map]
  by_cases hone : 1 < es.length
  · rw [if_pos hone]
    exact exists_chain op hne h
  · rw [if_neg hone]
    obtain ⟨e, rfl⟩ : ∃ e, es = [e] := by
      match es, hne, hone with
      | [e], _, _ => exact ⟨e, rfl⟩
      | e :: e₂ :: es, _, hone => simp at hone
    have hfragment := h e (List.mem_cons_self ..)
    simp only [Expr.isFragment, Bool.and_eq_true] at hfragment
    refine ⟨e, hfragment.1.1, hfragment.1.2, ?_, ?_⟩
    · have hdups : [e.render].eraseDups = [e.render] := List.eraseDups_cons
      simp [Text.join, hdups]
    · intro c
      cases op <;> simp [Connective.join]

end SelectorPath.XPath
