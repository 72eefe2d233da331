import SelectorPath.XPath.Expr
import SelectorPath.XPath.Predicate

/-!
# Closed texts

A text is closed if its string literals end inside it and its parentheses and
brackets, those in literals left out, balance. Quotes follow XPath 1.0: a quote
opens a literal which the next quote of the same kind ends, and there are no
escapes.

A machine with the characters that it waits for on a stack reads a text from
left to right. What lies deeper on the stack than a text reaches does not matter
(`run_frame`), so closed texts can be put side by side and into parentheses.

## Main results

* `isClosed_append`, `isClosed_parens`, `isClosed_literal`: how closed texts are
  made.
* `isClosed_render`: expressions are closed if their names, numbers and literals
  are in order.
* `isClosed_flatten`: closed fragments make a closed predicate.
-/

namespace SelectorPath.XPath

/-- What a reader waits for: the closing characters, innermost first, and the
quote of an open literal. -/
structure Nesting where
  closers : List Char := []
  quote : Option Char := none
deriving DecidableEq, Repr

namespace Nesting

/-! ## The machine -/

/-- Read a character outside of literals. -/
def stepOutside (closers : List Char) (c : Char) : Option Nesting :=
  if c = '\'' ∨ c = '"' then some ⟨closers, some c⟩
  else if c = '(' then some ⟨')' :: closers, none⟩
  else if c = '[' then some ⟨']' :: closers, none⟩
  else if c = ')' ∨ c = ']' then
    match closers with
    | closer :: rest => if c = closer then some ⟨rest, none⟩ else none
    | [] => none
  else some ⟨closers, none⟩

/-- Read a character; nothing where it closes what is not open. -/
def step (s : Nesting) (c : Char) : Option Nesting :=
  match s.quote with
  | some q => some ⟨s.closers, if c = q then none else some q⟩
  | none => stepOutside s.closers c

/-- Read a text. -/
def run (s : Nesting) : Text → Option Nesting
  | [] => some s
  | c :: rest => (s.step c).bind fun s' => s'.run rest

/-- Nesting is followed through the parts of a text one after the other. -/
theorem run_append (s : Nesting) (a b : Text) :
    s.run (a ++ b) = (s.run a).bind fun s' => s'.run b := by
  induction a generalizing s with
  | nil => rfl
  | cons c a ih =>
    show ((s.step c).bind fun s' => s'.run (a ++ b)) =
        ((s.step c).bind fun s' => s'.run a).bind _
    cases s.step c with
    | none => rfl
    | some s' => exact ih s'

/-- The state with further characters to wait for below its own. -/
def above (s : Nesting) (below : List Char) : Nesting :=
  ⟨s.closers ++ below, s.quote⟩

private theorem stepOutside_above {closers : List Char} {c : Char} {s : Nesting}
    (below : List Char) (h : stepOutside closers c = some s) :
    stepOutside (closers ++ below) c = some (s.above below) := by
  unfold stepOutside at h ⊢
  split
  · rename_i hquote
    rw [if_pos hquote] at h
    cases h
    rfl
  · rename_i hquote
    rw [if_neg hquote] at h
    split
    · rename_i hparen
      rw [if_pos hparen] at h
      cases h
      rfl
    · rename_i hparen
      rw [if_neg hparen] at h
      split
      · rename_i hbracket
        rw [if_pos hbracket] at h
        cases h
        rfl
      · rename_i hbracket
        rw [if_neg hbracket] at h
        split
        · rename_i hclose
          rw [if_pos hclose] at h
          cases closers with
          | nil => simp at h
          | cons closer rest =>
            simp only at h
            split at h
            · rename_i heq
              cases h
              rw [List.cons_append]
              simp only
              rw [if_pos heq]
              rfl
            · simp at h
        · rename_i hclose
          rw [if_neg hclose] at h
          cases h
          rfl

/-- What lies below the characters that a text reaches does not matter. -/
theorem run_frame {s s' : Nesting} {t : Text} (below : List Char)
    (h : s.run t = some s') :
    (s.above below).run t = some (s'.above below) := by
  induction t generalizing s with
  | nil =>
    cases h
    rfl
  | cons c rest ih =>
    obtain ⟨s₁, hstep, hrest⟩ := Option.bind_eq_some_iff.mp h
    have hstep' : (s.above below).step c = some (s₁.above below) := by
      obtain ⟨closers, quote⟩ := s
      cases quote with
      | some q =>
        cases hstep
        rfl
      | none => exact stepOutside_above below hstep
    show ((s.above below).step c).bind _ = _
    rw [hstep', Option.bind_some, ih hrest]

end Nesting

/-! ## Closed texts -/

/-- Whether the literals of a text end inside it and its parentheses and
brackets balance. -/
def isClosed (t : Text) : Bool :=
  ({} : Nesting).run t == some {}

/-- A text is closed if nothing is open at its end. -/
theorem isClosed_iff {t : Text} :
    isClosed t = true ↔ ({} : Nesting).run t = some {} := by
  rw [isClosed, beq_iff_eq]

/-- A closed text leaves every state outside of literals as it is. -/
theorem run_of_isClosed {t : Text} (h : isClosed t = true)
    (closers : List Char) :
    (⟨closers, none⟩ : Nesting).run t = some ⟨closers, none⟩ :=
  Nesting.run_frame closers (isClosed_iff.mp h)

/-- Closed texts can stand one behind the other. -/
theorem isClosed_append {a b : Text} (ha : isClosed a = true)
    (hb : isClosed b = true) :
    isClosed (a ++ b) = true := by
  rw [isClosed_iff, Nesting.run_append, isClosed_iff.mp ha, Option.bind_some]
  exact isClosed_iff.mp hb

theorem isClosed_parens {t : Text} (h : isClosed t = true) :
    isClosed ("(" ++ t ++ ")") = true := by
  rw [isClosed_iff, List.append_assoc]
  show (⟨[')'], none⟩ : Nesting).run (t ++ ")") = some {}
  rw [Nesting.run_append, run_of_isClosed h]
  rfl

/-- Inside a literal, everything but its quote is skipped. -/
theorem Nesting.run_inside {q : Char} {body : Text} (h : q ∉ body)
    (closers : List Char) :
    (⟨closers, some q⟩ : Nesting).run (body ++ [q]) = some ⟨closers, none⟩ := by
  induction body with
  | nil =>
    show some (⟨closers, if q = q then none else some q⟩ : Nesting) = _
    rw [if_pos rfl]
  | cons c rest ih =>
    have hc : c ≠ q := fun heq => h (heq ▸ List.mem_cons_self ..)
    show (⟨closers, if c = q then none else some q⟩ : Nesting).run
        (rest ++ [q]) = _
    rw [if_neg hc]
    exact ih fun hq => h (List.mem_cons_of_mem _ hq)

theorem isClosed_literal {q : Char} {body : Text} (hq : q = '\'' ∨ q = '"')
    (h : q ∉ body) :
    isClosed (q :: body ++ [q]) = true := by
  rw [isClosed_iff]
  show (Nesting.stepOutside [] q).bind (fun s => s.run (body ++ [q])) = some {}
  rw [Nesting.stepOutside, if_pos hq, Option.bind_some]
  exact Nesting.run_inside h []

/-- Whether a character has no part in the nesting. -/
def isNeutral (c : Char) : Bool :=
  !("'\"()[]" : Text).contains c

private theorem isClosed_neutral {t : Text} (h : t.all isNeutral = true) :
    isClosed t = true := by
  rw [isClosed_iff]
  induction t with
  | nil => rfl
  | cons c rest ih =>
    rw [List.all_cons, Bool.and_eq_true] at h
    have hstep : ({} : Nesting).step c = some {} := by
      have hc := h.1
      simp only [isNeutral, List.contains_eq_mem, Bool.not_eq_true',
        decide_eq_false_iff_not] at hc
      have hne : ∀ d ∈ ("'\"()[]" : Text), c ≠ d :=
        fun d hd heq => hc (heq ▸ hd)
      show Nesting.stepOutside [] c = some {}
      unfold Nesting.stepOutside
      rw [if_neg (not_or.mpr ⟨hne _ (by decide), hne _ (by decide)⟩),
        if_neg (hne _ (by decide)), if_neg (hne _ (by decide)),
        if_neg (not_or.mpr ⟨hne _ (by decide), hne _ (by decide)⟩)]
    show (({} : Nesting).step c).bind _ = _
    rw [hstep, Option.bind_some]
    exact ih h.2

/-! ## Expressions -/

/-- Whether the names and numbers of an expression have no part in the nesting
and its literals end at their last quote. -/
def Expr.isSealed : Expr → Bool
  | attr t | number t => t.all isNeutral
  | literal quote body =>
    (quote == '\'' || quote == '"') && !body.contains quote
  | normalizeSpace e | stringLength e | not e | group e => e.isSealed
  | contains e part | startsWith e part | substring e part =>
    e.isSealed && part.isSealed
  | concat a b c | translate a b c => a.isSealed && b.isSealed && c.isSealed
  | minus l r | binary _ l r => l.isSealed && r.isSealed
  | _ => true

/-- The call of a function, `callee` being its name with the parenthesis. -/
theorem isClosed_call {callee arguments : Text}
    (hcallee : ({} : Nesting).run callee = some ⟨[')'], none⟩)
    (h : isClosed arguments = true) :
    isClosed (callee ++ arguments ++ ")") = true := by
  rw [isClosed_iff, List.append_assoc, Nesting.run_append, hcallee,
    Option.bind_some, Nesting.run_append, run_of_isClosed h]
  rfl

theorem isClosed_between {a b : Text} (between : Text)
    (hbetween : isClosed between = true) (ha : isClosed a = true)
    (hb : isClosed b = true) : isClosed (a ++ between ++ b) = true :=
  isClosed_append (isClosed_append ha hbetween) hb

private theorem isClosed_call₂ {callee a b : Text}
    (hcallee : ({} : Nesting).run callee = some ⟨[')'], none⟩)
    (ha : isClosed a = true) (hb : isClosed b = true) :
    isClosed (callee ++ a ++ ", " ++ b ++ ")") = true := by
  have hcall := isClosed_call hcallee (isClosed_between ", " (by decide) ha hb)
  simpa only [List.append_assoc] using hcall

private theorem isClosed_call₃ {callee a b c : Text}
    (hcallee : ({} : Nesting).run callee = some ⟨[')'], none⟩)
    (ha : isClosed a = true) (hb : isClosed b = true) (hc : isClosed c = true) :
    isClosed (callee ++ a ++ ", " ++ b ++ ", " ++ c ++ ")") = true := by
  have hcall :=
    isClosed_call₂ hcallee (isClosed_between ", " (by decide) ha hb) hc
  simpa only [List.append_assoc] using hcall

/-- An expression is closed if its parts are. -/
theorem isClosed_render (e : Expr) (h : e.isSealed = true) :
    isClosed e.render = true := by
  cases e with
  | attr t =>
    have ht : ('@' :: t).all isNeutral = true := by
      rw [List.all_cons, show isNeutral '@' = true by decide]
      exact h
    exact isClosed_neutral ht
  | number t => exact isClosed_neutral h
  | literal quote body =>
    simp only [Expr.isSealed, Bool.and_eq_true, Bool.or_eq_true, beq_iff_eq,
      Bool.not_eq_true', List.contains_eq_mem, decide_eq_false_iff_not] at h
    exact isClosed_literal h.1 h.2
  | children => decide
  | elementName => decide
  | position => decide
  | last => decide
  | ownText => decide
  | ownLength => decide
  | normalizeSpace e => exact isClosed_call rfl (isClosed_render e h)
  | stringLength e => exact isClosed_call rfl (isClosed_render e h)
  | not e => exact isClosed_call rfl (isClosed_render e h)
  | group e => exact isClosed_parens (isClosed_render e h)
  | contains e part =>
    obtain ⟨he, hpart⟩ := Bool.and_eq_true_iff.mp h
    exact isClosed_call₂ rfl (isClosed_render e he) (isClosed_render part hpart)
  | startsWith e part =>
    obtain ⟨he, hpart⟩ := Bool.and_eq_true_iff.mp h
    exact isClosed_call₂ rfl (isClosed_render e he) (isClosed_render part hpart)
  | substring e start =>
    obtain ⟨he, hstart⟩ := Bool.and_eq_true_iff.mp h
    exact isClosed_call₂ rfl (isClosed_render e he)
      (isClosed_render start hstart)
  | concat a b c =>
    simp only [Expr.isSealed, Bool.and_eq_true] at h
    exact isClosed_call₃ rfl (isClosed_render a h.1.1) (isClosed_render b h.1.2)
      (isClosed_render c h.2)
  | translate a b c =>
    simp only [Expr.isSealed, Bool.and_eq_true] at h
    exact isClosed_call₃ rfl (isClosed_render a h.1.1) (isClosed_render b h.1.2)
      (isClosed_render c h.2)
  | binary op l r =>
    obtain ⟨hl, hr⟩ := Bool.and_eq_true_iff.mp h
    have hop : isClosed (" " ++ op.symbol ++ " ") = true := by
      cases op <;> decide
    have hrender : (Expr.binary op l r).render =
        l.render ++ (" " ++ op.symbol ++ " ") ++ r.render := by
      show l.render ++ " " ++ op.symbol ++ " " ++ r.render = _
      simp only [List.append_assoc]
    rw [hrender]
    exact isClosed_between _ hop (isClosed_render l hl) (isClosed_render r hr)
  | minus l r =>
    obtain ⟨hl, hr⟩ := Bool.and_eq_true_iff.mp h
    have hleft := isClosed_render l hl
    have hright := isClosed_render r hr
    cases l with
    | stringLength e =>
      have hrender : (Expr.minus (.stringLength e) r).render =
          (Expr.stringLength e).render ++ "-" ++ r.render := by
        show "string-length(" ++ e.render ++ ")-" ++ r.render =
          "string-length(" ++ e.render ++ ")" ++ "-" ++ r.render
        simp only [List.append_assoc]
        rfl
      rw [hrender]
      exact isClosed_between "-" (by decide) hleft hright
    | _ => exact isClosed_between " - " (by decide) hleft hright

/-! ## Predicates -/

/-- A guarded fragment is closed if the fragment is. -/
theorem isClosed_guarded {fragment : Text} (h : isClosed fragment = true) :
    isClosed (guarded fragment) = true := by
  unfold guarded
  split
  · exact isClosed_parens h
  · exact h

/-- Closed texts can be joined by a closed one. -/
theorem isClosed_join {between : Text} (hbetween : isClosed between = true)
    {ts : List Text} (h : ∀ t ∈ ts, isClosed t = true) :
    isClosed (Text.join between ts) = true := by
  match ts with
  | [] => rfl
  | [t] =>
    rw [Text.join, List.intercalate_singleton]
    exact h t (List.mem_cons_self ..)
  | t :: t₂ :: ts =>
    rw [Text.join, List.intercalate_cons_cons]
    have hrest := isClosed_join hbetween fun u hu =>
      h u (List.mem_cons_of_mem t hu)
    exact isClosed_between between hbetween (h t (List.mem_cons_self ..)) hrest

/-- Closed fragments make a closed predicate. -/
theorem isClosed_flatten (op : Connective) {fragments : List Text}
    (h : ∀ f ∈ fragments, isClosed f = true) :
    isClosed (flatten op fragments) = true := by
  have hop : isClosed (" " ++ op.name ++ " ") = true := by
    cases op <;> decide
  apply isClosed_join hop
  intro f hf
  have hmem := List.mem_eraseDups.mp hf
  split at hmem
  · obtain ⟨f', hf', rfl⟩ := List.mem_map.mp hmem
    exact isClosed_guarded (h f' (List.mem_filter.mp hf').1)
  · exact h f (List.mem_filter.mp hmem).1

private theorem join_ne_nil (between : Text) {ts : List Text} {t : Text}
    (ht : t ∈ ts) (hne : t ≠ []) :
    Text.join between ts ≠ [] := by
  match ts with
  | [] => simp at ht
  | [u] =>
    rw [Text.join, List.intercalate_singleton, ← List.mem_singleton.mp ht]
    exact hne
  | u :: u₂ :: ts =>
    rw [Text.join, List.intercalate_cons_cons]
    rcases List.mem_cons.mp ht with rfl | ht
    · simp [hne]
    · have hrest : List.intercalate between (u₂ :: ts) ≠ [] :=
        join_ne_nil between ht hne
      simp [hrest]

theorem guarded_ne_nil {f : Text} (h : f ≠ []) : guarded f ≠ [] := by
  unfold guarded
  split
  · exact List.cons_ne_nil _ _
  · exact h

/-- A predicate says something if one of its fragments does. -/
theorem flatten_ne_nil (op : Connective) {fragments : List Text} {f : Text}
    (hf : f ∈ fragments) (hne : f ≠ []) : flatten op fragments ≠ [] := by
  have hmem : f ∈ fragments.filter fun f => !f.isEmpty := by
    rw [List.mem_filter]
    exact ⟨hf, by simpa using hne⟩
  unfold flatten
  simp only
  split
  · exact join_ne_nil _ (List.mem_eraseDups.mpr (List.mem_map_of_mem hmem))
      (guarded_ne_nil hne)
  · exact join_ne_nil _ (List.mem_eraseDups.mpr hmem) hne

/-- Joined fragments are empty if all of them are. -/
theorem flatten_eq_nil_iff (op : Connective) {fragments : List Text} :
    flatten op fragments = [] ↔ ∀ f ∈ fragments, f = [] := by
  constructor
  · intro h f hf
    by_cases hne : f = []
    · exact hne
    · exact absurd h (flatten_ne_nil op hf hne)
  · intro h
    have hsaid : fragments.filter (fun f => !f.isEmpty) = [] := by
      rw [List.filter_eq_nil_iff]
      intro f hf
      simp [h f hf]
    unfold flatten
    simp only [hsaid]
    rfl

end SelectorPath.XPath
