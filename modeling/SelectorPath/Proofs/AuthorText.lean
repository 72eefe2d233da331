import Mathlib
import SelectorPath.Proofs.PlainTokens

/-!
# Author text in literals

The value of an attribute test and the text that `:text` looks for are written
into literals of the condition as they are. XPath 1.0 has no escapes: a quote
opens a literal, which the next quote of its kind ends. So the literals that are
read in a condition are the ones that were written exactly if no text holds the
quote around it. Values always stand in single quotes; a text keeps the quotes
of its author, and without them it stands in double quotes.

## Main results

* `literalsOf?_render_iff`: the literals that are read in an expression are its
  own exactly if none of them holds its quote.
* `filters_literals_iff`: author text stays in its literals exactly if it does
  not hold their quote.
-/

namespace SelectorPath.XPath

/-! ## Reading literals -/

/-- The bodies of the literals in a text, in order; nothing if the last one is
not closed. The literal that is open at the start, where there is one, is given
by its quote and its body so far. -/
def literalsFrom (opened : Option (Char × Text)) : Text → Option (List Text)
  | [] => if opened.isNone then some [] else none
  | c :: rest =>
    match opened with
    | some (quote, body) =>
      if c = quote then (literalsFrom none rest).map (body :: ·)
      else literalsFrom (some (quote, body ++ [c])) rest
    | none =>
      if c = '\'' ∨ c = '"' then literalsFrom (some (c, [])) rest
      else literalsFrom none rest

/-- The bodies of the literals in a text. -/
def literalsOf? (t : Text) : Option (List Text) :=
  literalsFrom none t

private theorem literalsFrom_code {t : Text} (rest : Text)
    (h : ∀ c ∈ t, ¬(c = '\'' ∨ c = '"')) :
    literalsFrom none (t ++ rest) = literalsFrom none rest := by
  induction t with
  | nil => rfl
  | cons c t ih =>
    rw [List.forall_mem_cons] at h
    rw [List.cons_append, literalsFrom, if_neg h.1, ih h.2]

private theorem literalsFrom_body {quote : Char} {t : Text} (body rest : Text)
    (h : quote ∉ t) :
    literalsFrom (some (quote, body)) (t ++ quote :: rest) =
      (literalsFrom none rest).map ((body ++ t) :: ·) := by
  induction t generalizing body with
  | nil =>
    rw [List.nil_append, literalsFrom, if_pos rfl, List.append_nil]
  | cons c t ih =>
    rw [List.mem_cons, not_or] at h
    rw [List.cons_append, literalsFrom, if_neg (Ne.symm h.1), ih _ h.2,
      List.append_assoc, List.singleton_append]

private theorem literalsFrom_literal {quote : Char} {body : Text} (rest : Text)
    (hquote : quote = '\'' ∨ quote = '"') (h : quote ∉ body) :
    literalsFrom none (quote :: (body ++ quote :: rest)) =
      (literalsFrom none rest).map (body :: ·) := by
  rw [literalsFrom, if_pos hquote, literalsFrom_body [] rest h, List.nil_append]

/-! ## Stretches of an expression -/

/-- A stretch of a written expression: a literal, or what stands between
literals. -/
inductive Stretch where
  | code (t : Text)
  | literal (quote : Char) (body : Text)
deriving DecidableEq, Repr

namespace Stretch

/-- The stretch as it is written. -/
def text : Stretch → Text
  | code t => t
  | literal quote body => quote :: body ++ [quote]

/-- The body of a literal. -/
def body? : Stretch → Option Text
  | code _ => none
  | literal _ body => some body

/-- Whether quotes stand around literals only. -/
def isSound : Stretch → Bool
  | code t => t.all fun c => c != '\'' && c != '"'
  | literal quote _ => quote == '\'' || quote == '"'

/-- Whether a literal ends at its last quote. -/
def isWhole : Stretch → Bool
  | code _ => true
  | literal quote body => quote ∉ body

end Stretch

/-- The literals that are read are the ones that were written exactly if each is
whole: the first one that is not is read up to its first inner quote. -/
theorem literalsOf?_stretches_iff {stretches : List Stretch}
    (h : ∀ s ∈ stretches, s.isSound = true) :
    literalsOf? (stretches.flatMap Stretch.text) =
      some (stretches.filterMap Stretch.body?) ↔
      ∀ s ∈ stretches, s.isWhole = true := by
  induction stretches with
  | nil => simp [literalsOf?, literalsFrom]
  | cons s rest ih =>
    rw [List.forall_mem_cons] at h
    rw [List.flatMap_cons, List.forall_mem_cons, ← ih h.2, literalsOf?,
      literalsOf?]
    cases s with
    | code t =>
      have ht : ∀ c ∈ t, ¬(c = '\'' ∨ c = '"') := by
        simpa [Stretch.isSound] using h.1
      rw [Stretch.text, literalsFrom_code _ ht, List.filterMap_cons_none rfl]
      simp [Stretch.isWhole]
    | literal quote body =>
      have hquote : quote = '\'' ∨ quote = '"' := by
        simpa [Stretch.isSound] using h.1
      have hwritten : (Stretch.literal quote body :: rest).filterMap
          Stretch.body? =
          body :: rest.filterMap Stretch.body? := rfl
      rw [Stretch.text, List.append_assoc, List.singleton_append,
        List.cons_append, hwritten]
      by_cases hbody : quote ∈ body
      · obtain ⟨front, back, rfl, hfront⟩ := List.eq_append_cons_of_mem hbody
        rw [List.append_assoc, List.cons_append,
          literalsFrom_literal _ hquote hfront]
        simp [Stretch.isWhole]
      · rw [literalsFrom_literal _ hquote hbody]
        simp [Stretch.isWhole, hbody]

namespace Stretch

/-- The call of a function, `callee` being its name with the parenthesis. -/
def call (callee : Text) (arguments : List Stretch) : List Stretch :=
  code callee :: (arguments ++ [code ")"])

/-- Two runs of stretches with something written between them. -/
def beside (a : List Stretch) (between : Text) (b : List Stretch) :
    List Stretch :=
  a ++ code between :: b

private theorem text_call (callee : Text) (arguments : List Stretch) :
    (call callee arguments).flatMap text =
      callee ++ arguments.flatMap text ++ ")" := by
  rw [call, List.flatMap_cons, List.flatMap_append, List.append_assoc]
  rfl

private theorem text_beside (a : List Stretch) (between : Text)
    (b : List Stretch) :
    (beside a between b).flatMap text =
      a.flatMap text ++ between ++ b.flatMap text := by
  rw [beside, List.flatMap_append, List.flatMap_cons, List.append_assoc]
  rfl

private theorem text_call₂ (callee : Text) (a b : List Stretch) :
    (call callee (beside a ", " b)).flatMap text =
      callee ++ a.flatMap text ++ ", " ++ b.flatMap text ++ ")" := by
  rw [text_call, text_beside]
  simp only [List.append_assoc]

private theorem text_call₃ (callee : Text) (a b c : List Stretch) :
    (call callee (beside (beside a ", " b) ", " c)).flatMap text =
      callee ++ a.flatMap text ++ ", " ++ b.flatMap text ++ ", " ++
        c.flatMap text ++ ")" := by
  rw [text_call₂, text_beside]
  simp only [List.append_assoc]

private theorem bodies_call (callee : Text) (arguments : List Stretch) :
    (call callee arguments).filterMap body? = arguments.filterMap body? := by
  rw [call, List.filterMap_cons_none rfl, List.filterMap_append]
  exact List.append_nil _

private theorem bodies_beside (a : List Stretch) (between : Text)
    (b : List Stretch) :
    (beside a between b).filterMap body? =
      a.filterMap body? ++ b.filterMap body? := by
  rw [beside, List.filterMap_append, List.filterMap_cons_none rfl]

private theorem forall_isSound_call {callee : Text} {arguments : List Stretch}
    (hcallee : (code callee).isSound = true)
    (h : ∀ s ∈ arguments, s.isSound = true) :
    ∀ s ∈ call callee arguments, s.isSound = true := by
  rw [call, List.forall_mem_cons, List.forall_mem_append,
    List.forall_mem_singleton]
  exact ⟨hcallee, h, by decide⟩

private theorem forall_isSound_beside {a b : List Stretch} {between : Text}
    (hbetween : (code between).isSound = true) (ha : ∀ s ∈ a, s.isSound = true)
    (hb : ∀ s ∈ b, s.isSound = true) :
    ∀ s ∈ beside a between b, s.isSound = true := by
  rw [beside, List.forall_mem_append, List.forall_mem_cons]
  exact ⟨ha, hbetween, hb⟩

@[simp] theorem isWhole_code (t : Text) : (code t).isWhole = true := rfl

private theorem forall_isWhole_call (callee : Text) (arguments : List Stretch) :
    (∀ s ∈ call callee arguments, s.isWhole = true) ↔
      ∀ s ∈ arguments, s.isWhole = true := by
  rw [call, List.forall_mem_cons, List.forall_mem_append,
    List.forall_mem_singleton]
  simp only [isWhole_code, true_and, and_true]

private theorem forall_isWhole_beside (a : List Stretch) (between : Text)
    (b : List Stretch) :
    (∀ s ∈ beside a between b, s.isWhole = true) ↔
      (∀ s ∈ a, s.isWhole = true) ∧ ∀ s ∈ b, s.isWhole = true := by
  rw [beside, List.forall_mem_append, List.forall_mem_cons]
  simp only [isWhole_code, true_and]

end Stretch

namespace Expr

open Stretch

/-- The sign of a difference, `l` being its left side. -/
def minusSign (l : Expr) : Text :=
  match l with
  | stringLength _ => "-"
  | _ => " - "

/-- The stretches of an expression, as they are written. -/
def stretches : Expr → List Stretch
  | literal quote body => [.literal quote body]
  | normalizeSpace e => call "normalize-space(" e.stretches
  | stringLength e => call "string-length(" e.stretches
  | not e => call "not(" e.stretches
  | group e => call "(" e.stretches
  | contains e part => call "contains(" (beside e.stretches ", " part.stretches)
  | startsWith e part =>
    call "starts-with(" (beside e.stretches ", " part.stretches)
  | substring e start =>
    call "substring(" (beside e.stretches ", " start.stretches)
  | concat a b c =>
    call "concat(" (beside (beside a.stretches ", " b.stretches) ", "
      c.stretches)
  | translate e source target =>
    call "translate(" (beside (beside e.stretches ", " source.stretches) ", "
      target.stretches)
  | minus l r => beside l.stretches l.minusSign r.stretches
  | binary op l r => beside l.stretches (" " ++ op.symbol ++ " ") r.stretches
  | e => [.code e.render]

/-- A difference is written with its sign between the two sides. -/
theorem render_minus (l r : Expr) :
    (minus l r).render = l.render ++ l.minusSign ++ r.render := by
  cases l with
  | stringLength e =>
    show "string-length(" ++ e.render ++ ")-" ++ r.render =
        "string-length(" ++ e.render ++ ")" ++ "-" ++ r.render
    simp only [List.append_assoc]
    rfl
  | _ => rfl

private theorem text_stretches (e : Expr) :
    e.stretches.flatMap Stretch.text = e.render := by
  induction e with
  | literal quote body => exact List.append_nil _
  | normalizeSpace e ih => exact (text_call _ _).trans (by rw [ih]; rfl)
  | stringLength e ih => exact (text_call _ _).trans (by rw [ih]; rfl)
  | not e ih => exact (text_call _ _).trans (by rw [ih]; rfl)
  | group e ih => exact (text_call _ _).trans (by rw [ih]; rfl)
  | contains e part ihe ihpart =>
    exact (text_call₂ _ _ _).trans (by rw [ihe, ihpart]; rfl)
  | startsWith e part ihe ihpart =>
    exact (text_call₂ _ _ _).trans (by rw [ihe, ihpart]; rfl)
  | substring e start ihe ihstart =>
    exact (text_call₂ _ _ _).trans (by rw [ihe, ihstart]; rfl)
  | concat a b c iha ihb ihc =>
    exact (text_call₃ _ _ _ _).trans (by rw [iha, ihb, ihc]; rfl)
  | translate e source target ihe ihsource ihtarget =>
    exact (text_call₃ _ _ _ _).trans (by rw [ihe, ihsource, ihtarget]; rfl)
  | minus l r ihl ihr =>
    refine (text_beside _ _ _).trans ?_
    rw [ihl, ihr, render_minus]
  | binary op l r ihl ihr =>
    refine (text_beside _ _ _).trans ?_
    rw [ihl, ihr]
    show _ = l.render ++ " " ++ op.symbol ++ " " ++ r.render
    simp only [List.append_assoc]
  | _ => exact List.append_nil _

/-- The bodies of the literals that an expression writes. -/
def literals (e : Expr) : List Text :=
  e.stretches.filterMap Stretch.body?

/-- Whether the names and numbers of an expression have no part in the nesting
and its literals have quotes. -/
def isFramed : Expr → Bool
  | attr t | number t => t.all isNeutral
  | literal quote _ => quote == '\'' || quote == '"'
  | normalizeSpace e | stringLength e | not e | group e => e.isFramed
  | contains e part | startsWith e part | substring e part =>
    e.isFramed && part.isFramed
  | concat a b c | translate a b c => a.isFramed && b.isFramed && c.isFramed
  | minus l r | binary _ l r => l.isFramed && r.isFramed
  | _ => true

private theorem isSound_of_isNeutral {t : Text} (h : t.all isNeutral = true) :
    (code t).isSound = true := by
  rw [List.all_eq_true] at h
  rw [isSound, List.all_eq_true]
  intro c hc
  have hneutral := h c hc
  simp only [isNeutral, List.contains_eq_mem, Bool.not_eq_true',
    decide_eq_false_iff_not] at hneutral
  have hne : ∀ d ∈ ("'\"()[]" : Text), c ≠ d :=
    fun d hd heq => hneutral (heq ▸ hd)
  simp [hne '\'' (by decide), hne '"' (by decide)]

private theorem isSound_stretches {e : Expr} (h : e.isFramed = true) :
    ∀ s ∈ e.stretches, s.isSound = true := by
  induction e with
  | attr t =>
    have ht : ('@' :: t).all isNeutral = true := by
      rw [List.all_cons, show isNeutral '@' = true by decide]
      exact h
    exact List.forall_mem_singleton.mpr (isSound_of_isNeutral ht)
  | number t => exact List.forall_mem_singleton.mpr (isSound_of_isNeutral h)
  | literal quote body => exact List.forall_mem_singleton.mpr h
  | normalizeSpace e ih => exact forall_isSound_call (by decide) (ih h)
  | stringLength e ih => exact forall_isSound_call (by decide) (ih h)
  | not e ih => exact forall_isSound_call (by decide) (ih h)
  | group e ih => exact forall_isSound_call (by decide) (ih h)
  | contains e part ihe ihpart =>
    obtain ⟨he, hpart⟩ := Bool.and_eq_true_iff.mp h
    exact forall_isSound_call (by decide)
      (forall_isSound_beside (by decide) (ihe he) (ihpart hpart))
  | startsWith e part ihe ihpart =>
    obtain ⟨he, hpart⟩ := Bool.and_eq_true_iff.mp h
    exact forall_isSound_call (by decide)
      (forall_isSound_beside (by decide) (ihe he) (ihpart hpart))
  | substring e start ihe ihstart =>
    obtain ⟨he, hstart⟩ := Bool.and_eq_true_iff.mp h
    exact forall_isSound_call (by decide)
      (forall_isSound_beside (by decide) (ihe he) (ihstart hstart))
  | concat a b c iha ihb ihc =>
    obtain ⟨hab, hc⟩ := Bool.and_eq_true_iff.mp h
    obtain ⟨ha, hb⟩ := Bool.and_eq_true_iff.mp hab
    have hpair : ∀ s ∈ beside a.stretches ", " b.stretches, s.isSound = true :=
      forall_isSound_beside (by decide) (iha ha) (ihb hb)
    exact forall_isSound_call (by decide)
      (forall_isSound_beside (by decide) hpair (ihc hc))
  | translate a b c iha ihb ihc =>
    obtain ⟨hab, hc⟩ := Bool.and_eq_true_iff.mp h
    obtain ⟨ha, hb⟩ := Bool.and_eq_true_iff.mp hab
    have hpair : ∀ s ∈ beside a.stretches ", " b.stretches, s.isSound = true :=
      forall_isSound_beside (by decide) (iha ha) (ihb hb)
    exact forall_isSound_call (by decide)
      (forall_isSound_beside (by decide) hpair (ihc hc))
  | minus l r ihl ihr =>
    obtain ⟨hl, hr⟩ := Bool.and_eq_true_iff.mp h
    have hsign : (code l.minusSign).isSound = true := by
      unfold minusSign
      split <;> decide
    exact forall_isSound_beside hsign (ihl hl) (ihr hr)
  | binary op l r ihl ihr =>
    obtain ⟨hl, hr⟩ := Bool.and_eq_true_iff.mp h
    have hop : (code (" " ++ op.symbol ++ " ")).isSound = true := by
      cases op <;> decide
    exact forall_isSound_beside hop (ihl hl) (ihr hr)
  | children => decide
  | elementName => decide
  | position => decide
  | last => decide
  | ownText => decide
  | ownLength => decide

/-- What is missing from a framed expression to be sealed is that its literals
are whole. -/
theorem isSealed_iff_isWhole {e : Expr} (h : e.isFramed = true) :
    e.isSealed = true ↔ ∀ s ∈ e.stretches, s.isWhole = true := by
  induction e with
  | attr t => exact iff_of_true h (List.forall_mem_singleton.mpr rfl)
  | number t => exact iff_of_true h (List.forall_mem_singleton.mpr rfl)
  | literal quote body =>
    have hquote : (quote == '\'' || quote == '"') = true := h
    rw [stretches, List.forall_mem_singleton, isSealed, hquote, isWhole]
    simp
  | normalizeSpace e ih => exact (ih h).trans (forall_isWhole_call _ _).symm
  | stringLength e ih => exact (ih h).trans (forall_isWhole_call _ _).symm
  | not e ih => exact (ih h).trans (forall_isWhole_call _ _).symm
  | group e ih => exact (ih h).trans (forall_isWhole_call _ _).symm
  | contains e part ihe ihpart =>
    obtain ⟨he, hpart⟩ := Bool.and_eq_true_iff.mp h
    rw [isSealed, Bool.and_eq_true, ihe he, ihpart hpart, stretches,
      forall_isWhole_call, forall_isWhole_beside]
  | startsWith e part ihe ihpart =>
    obtain ⟨he, hpart⟩ := Bool.and_eq_true_iff.mp h
    rw [isSealed, Bool.and_eq_true, ihe he, ihpart hpart, stretches,
      forall_isWhole_call, forall_isWhole_beside]
  | substring e start ihe ihstart =>
    obtain ⟨he, hstart⟩ := Bool.and_eq_true_iff.mp h
    rw [isSealed, Bool.and_eq_true, ihe he, ihstart hstart, stretches,
      forall_isWhole_call, forall_isWhole_beside]
  | concat a b c iha ihb ihc =>
    obtain ⟨hab, hc⟩ := Bool.and_eq_true_iff.mp h
    obtain ⟨ha, hb⟩ := Bool.and_eq_true_iff.mp hab
    rw [isSealed, Bool.and_eq_true, Bool.and_eq_true, iha ha, ihb hb, ihc hc,
      stretches, forall_isWhole_call, forall_isWhole_beside,
      forall_isWhole_beside]
  | translate a b c iha ihb ihc =>
    obtain ⟨hab, hc⟩ := Bool.and_eq_true_iff.mp h
    obtain ⟨ha, hb⟩ := Bool.and_eq_true_iff.mp hab
    rw [isSealed, Bool.and_eq_true, Bool.and_eq_true, iha ha, ihb hb, ihc hc,
      stretches, forall_isWhole_call, forall_isWhole_beside,
      forall_isWhole_beside]
  | minus l r ihl ihr =>
    obtain ⟨hl, hr⟩ := Bool.and_eq_true_iff.mp h
    rw [isSealed, Bool.and_eq_true, ihl hl, ihr hr, stretches,
      forall_isWhole_beside]
  | binary op l r ihl ihr =>
    obtain ⟨hl, hr⟩ := Bool.and_eq_true_iff.mp h
    rw [isSealed, Bool.and_eq_true, ihl hl, ihr hr, stretches,
      forall_isWhole_beside]
  | _ => exact iff_of_true rfl (List.forall_mem_singleton.mpr rfl)

end Expr

/-- The literals that are read in a framed expression are its own exactly if it
is sealed. -/
theorem literalsOf?_render_iff {e : Expr} (h : e.isFramed = true) :
    literalsOf? e.render = some e.literals ↔ e.isSealed = true := by
  rw [Expr.isSealed_iff_isWhole h, ← e.text_stretches]
  exact literalsOf?_stretches_iff (Expr.isSound_stretches h)

/-- The fragments are closed, and these are the bodies of the literals in
each. -/
def HoldLiterals (fragments : List Text) (literals : List (List Text)) : Prop :=
  (∀ f ∈ fragments, isClosed f = true) ∧ fragments.map literalsOf? =
    literals.map some

/-- Framed expressions hold the literals that they write exactly if they are
sealed. -/
theorem holdLiterals_render_iff {es : List Expr}
    (h : ∀ e ∈ es, e.isFramed = true) :
    HoldLiterals (es.map Expr.render) (es.map Expr.literals) ↔
      ∀ e ∈ es, e.isSealed = true := by
  rw [HoldLiterals, List.map_map, List.map_map, List.map_inj_left]
  constructor
  · rintro ⟨-, hliterals⟩ e he
    exact (literalsOf?_render_iff (h e he)).mp (hliterals e he)
  · intro hsealed
    refine ⟨fun f hf => ?_,
      fun e he => (literalsOf?_render_iff (h e he)).mpr (hsealed e he)⟩
    obtain ⟨e, he, rfl⟩ := List.mem_map.mp hf
    exact isClosed_render e (hsealed e he)

/-! ## Attribute values -/

/-- The literals of the conditions on an attribute: copies of the value, with
what the test puts around them. -/
def attributeLiterals (value : Text) : AttributeTest → List (List Text)
  | .present => [[]]
  | .hasWord => [[], [" ", " ", " " ++ value ++ " "]]
  | .contains | .startsWith | .endsWith => [[], [value]]
  | .hyphenated => [[], [value, value ++ "-"]]
  | .differs | .equals => [[value]]

private theorem map_literals_attributeFilters (name value : Text)
    (test : AttributeTest) :
    (attributeFilters name value test).map Expr.literals =
      attributeLiterals value test := by
  cases test <;> rfl

private theorem isFramed_attributeFilters {name : Text} (value : Text)
    (test : AttributeTest) (hname : name.isPlain = true) :
    ∀ e ∈ attributeFilters name value test, e.isFramed = true := by
  have hneutral := all_isNeutral_of_isPlain hname
  cases test <;>
    simp [attributeFilters, Expr.endsWith, Expr.single, Expr.isFramed, hneutral,
      all_isNeutral_ofInt]

/-- Every test but that of presence writes the value into single quotes. -/
theorem isSealed_attributeFilters_iff {name : Text} (value : Text)
    (test : AttributeTest) (hname : name.isPlain = true) :
    (∀ e ∈ attributeFilters name value test, e.isSealed = true) ↔
      test = .present ∨ '\'' ∉ value := by
  have hneutral := all_isNeutral_of_isPlain hname
  cases test <;>
    simp [attributeFilters, Expr.endsWith, Expr.single, Expr.isSealed, hneutral,
      all_isNeutral_ofInt]

/-! ## Texts that are looked for -/

/-- The literals of a condition on a text: the letters to fold, as often as the
text of the element is read, and what is looked for. -/
def textLiterals (relation : TextRelation) (caseSensitive : Bool)
    (search : Text) : List Text :=
  let letters := Letters.ofText search
  let folded := if caseSensitive || letters.lower.isEmpty then []
    else [letters.upper, letters.lower]
  let (_, body) := searchLiteral (if caseSensitive then search
    else Text.lower search)
  (if relation = .endsWith then folded ++ folded else folded) ++ [body]

private theorem literals_ownExpr (caseSensitive : Bool) (search : Text) :
    (ownExpr caseSensitive search).literals =
      if caseSensitive || (Letters.ofText search).lower.isEmpty then []
      else [(Letters.ofText search).upper, (Letters.ofText search).lower] := by
  unfold ownExpr
  split
  · rfl
  · rfl

private theorem literals_endsWith (e : Expr) (quote : Char) (body : Text) :
    (e.endsWith quote body).literals = e.literals ++ e.literals ++ [body] := by
  refine (Stretch.bodies_beside _ _ _).trans ?_
  refine congrArg (· ++ [body]) ((Stretch.bodies_call _ _).trans ?_)
  refine (Stretch.bodies_beside _ _ _).trans (congrArg (e.literals ++ ·) ?_)
  refine (Stretch.bodies_beside _ _ _).trans ?_
  refine Eq.trans (List.append_nil _) ?_
  exact Stretch.bodies_call _ _

private theorem literals_textFilter (relation : TextRelation)
    (caseSensitive : Bool) (search : Text) :
    (textFilter relation caseSensitive search).literals =
      textLiterals relation caseSensitive search := by
  have hown := literals_ownExpr caseSensitive search
  rw [textLiterals, ← hown]
  cases relation with
  | equals => exact Stretch.bodies_beside _ _ _
  | contains =>
    exact (Stretch.bodies_call _ _).trans (Stretch.bodies_beside _ _ _)
  | startsWith =>
    exact (Stretch.bodies_call _ _).trans (Stretch.bodies_beside _ _ _)
  | endsWith => exact literals_endsWith _ _ _

private theorem isFramed_textFilter (relation : TextRelation)
    (caseSensitive : Bool) (search : Text) :
    (textFilter relation caseSensitive search).isFramed = true := by
  have hown : (ownExpr caseSensitive search).isFramed = true := by
    unfold ownExpr
    split
    · rfl
    · rfl
  have hliteral : (Expr.literal
      (searchLiteral (if caseSensitive then search else Text.lower search)).1
      (searchLiteral (if caseSensitive then search
        else Text.lower search)).2).isFramed = true := by
    rw [Expr.isFramed, Bool.or_eq_true, beq_iff_eq, beq_iff_eq]
    exact searchLiteral_quote _
  cases relation with
  | equals => exact Bool.and_eq_true_iff.mpr ⟨hown, hliteral⟩
  | contains => exact Bool.and_eq_true_iff.mpr ⟨hown, hliteral⟩
  | startsWith => exact Bool.and_eq_true_iff.mpr ⟨hown, hliteral⟩
  | endsWith =>
    refine Bool.and_eq_true_iff.mpr ⟨Bool.and_eq_true_iff.mpr ⟨hown, ?_⟩,
      hliteral⟩
    exact Bool.and_eq_true_iff.mpr ⟨hown, all_isNeutral_ofInt _⟩

private theorem isSealed_textFilter_iff (relation : TextRelation)
    (caseSensitive : Bool) (search : Text) :
    (textFilter relation caseSensitive search).isSealed = true ↔
      isQuotable caseSensitive search = true := by
  refine ⟨fun h => ?_, fun h => (isSealed_textFilter relation h).1⟩
  have hliteral : (Expr.literal
      (searchLiteral (if caseSensitive then search else Text.lower search)).1
      (searchLiteral (if caseSensitive then search
        else Text.lower search)).2).isSealed = true := by
    cases relation with
    | equals => exact (Bool.and_eq_true_iff.mp h).2
    | contains => exact (Bool.and_eq_true_iff.mp h).2
    | startsWith => exact (Bool.and_eq_true_iff.mp h).2
    | endsWith => exact (Bool.and_eq_true_iff.mp h).2
  exact (Bool.and_eq_true_iff.mp hliteral).2

/-! ### The author's quotes -/

/-- The quote and the text that an author wrote: quotes around a text are the
quotes of the literal. -/
def authorLiteral (search : Text) : Char × Text :=
  match search with
  | [] => ('"', [])
  | q :: rest =>
    if (q = '\'' ∨ q = '"') ∧ rest.getLast? = some q then (q, rest.dropLast)
    else ('"', search)

/-- The literal of a search is the author's, with its blanks collapsed. -/
theorem searchLiteral_eq (search : Text) :
    searchLiteral search =
      ((authorLiteral search).1, Text.collapse (authorLiteral search).2) := by
  cases search with
  | nil => rfl
  | cons q rest =>
    rw [searchLiteral, authorLiteral]
    split
    · rfl
    · rfl

section Quotes

variable {q : Char} (hq : q = '\'' ∨ q = '"')

include hq

theorem toNat_quote : 0 < q.toNat ∧ q.toNat < 40 := by
  rcases hq with rfl | rfl
  · decide
  · decide

/-- Only a quote has a quote for its small form. -/
theorem quote_mem_lowerChar_iff {c : Char} : q ∈ Text.lowerChar c ↔ c = q := by
  have hbound := toNat_quote hq
  constructor
  · intro h
    unfold Text.lowerChar at h
    split at h
    · rw [List.mem_singleton] at h
      have hnat : c.toLower.toNat = q.toNat := by rw [h]
      rw [toNat_toLower] at hnat
      apply char_eq_of_toNat_eq
      split at hnat
      · omega
      · exact hnat
    · split at h
      · simp only [List.mem_cons, List.not_mem_nil, or_false] at h
        rcases h with rfl | rfl
        · exact absurd hq (by decide)
        · exact absurd hq (by decide)
      · rw [List.mem_singleton] at h
        unfold Text.moved at h
        split at h
        · rename_i r hr
          have htable : ∀ r ∈ Text.lowerRuns,
              (40 : Int) < r.first + r.shift := by decide +kernel
          have hmove := eq_toNat_of_ofNat (by omega) h.symm
          have hfirst := htable r (List.mem_of_find?_eq_some hr)
          have hcovers := List.find?_some hr
          simp only [Text.Run.covers, Bool.and_eq_true, decide_eq_true_eq]
            at hcovers
          simp only [Text.Run.move, Int.ofNat_eq_natCast] at hmove
          omega
        · exact h.symm
  · rintro rfl
    rcases hq with rfl | rfl
    · decide
    · decide

/-- What the first character of a text becomes in small letters holds a quote
only if it is the quote. -/
theorem exists_lowerAfter_cons (before : Text) (c : Char) (rest : Text) :
    ∃ first, Text.lowerAfter before (c :: rest) =
      first ++ Text.lowerAfter (c :: before) rest ∧
      first ≠ [] ∧ (q ∈ first ↔ c = q) ∧ (c = q → first = [c]) := by
  refine ⟨_, rfl, ?_⟩
  by_cases hsigma : c = 'Σ'
  · subst hsigma
    have hne : 'Σ' ≠ q := by
      rcases hq with rfl | rfl
      · decide
      · decide
    rw [if_pos (by decide)]
    refine ⟨List.cons_ne_nil _ _, ?_, fun h => absurd h hne⟩
    rw [List.mem_singleton, iff_false_right hne]
    split
    · rcases hq with rfl | rfl
      · decide
      · decide
    · rcases hq with rfl | rfl
      · decide
      · decide
  · rw [if_neg (by simpa using hsigma)]
    refine ⟨?_, quote_mem_lowerChar_iff hq, ?_⟩
    · unfold Text.lowerChar
      split
      · exact List.cons_ne_nil _ _
      · split
        · exact List.cons_ne_nil _ _
        · exact List.cons_ne_nil _ _
    · rintro rfl
      rcases hq with rfl | rfl
      · decide
      · decide

private theorem quote_mem_lowerAfter_iff (before t : Text) :
    q ∈ Text.lowerAfter before t ↔ q ∈ t := by
  induction t generalizing before with
  | nil => rfl
  | cons c rest ih =>
    obtain ⟨first, hlower, -, hfirst, -⟩ :=
      exists_lowerAfter_cons hq before c rest
    rw [hlower, List.mem_append, hfirst, ih, List.mem_cons, eq_comm]

/-- What the last character of a text becomes in small letters. -/
theorem exists_lowerAfter_concat (before front : Text) (c : Char) :
    ∃ lowered last, Text.lowerAfter before (front ++ [c]) = lowered ++ last ∧
      (q ∈ lowered ↔ q ∈ front) ∧ last ≠ [] ∧ (q ∈ last ↔ c = q) ∧
        (c = q → last = [c]) := by
  induction front generalizing before with
  | nil =>
    obtain ⟨last, hlower, hne, hlast, heq⟩ :=
      exists_lowerAfter_cons hq before c []
    exact ⟨[], last, hlower.trans (List.append_nil _), Iff.rfl, hne, hlast, heq⟩
  | cons d front ih =>
    obtain ⟨first, hlower, -, hfirst, -⟩ :=
      exists_lowerAfter_cons hq before d (front ++ [c])
    obtain ⟨lowered, last, hrest, hlowered, hlast⟩ := ih (d :: before)
    refine ⟨first ++ lowered, last, ?_, ?_, hlast⟩
    · rw [List.cons_append, hlower, hrest, List.append_assoc]
    · rw [List.mem_append, hfirst, hlowered, List.mem_cons, eq_comm]

/-- A text in small letters ends in a quote if the text does, with the same
quotes in front of it. -/
theorem lowerAfter_endsQuoted (before t : Text) :
    ((Text.lowerAfter before t).getLast? = some q ↔ t.getLast? = some q) ∧
      (t.getLast? = some q → (q ∈ (Text.lowerAfter before t).dropLast ↔
        q ∈ t.dropLast)) := by
  rcases List.eq_nil_or_concat t with rfl | ⟨front, c, rfl⟩
  · simp [Text.lowerAfter]
  · obtain ⟨lowered, last, hlower, hlowered, hne, hlast, heq⟩ :=
      exists_lowerAfter_concat hq before front c
    rw [List.concat_eq_append, hlower, List.getLast?_concat,
      List.dropLast_concat, Option.some.injEq]
    constructor
    · rw [List.getLast?_append_of_ne_nil _ hne]
      constructor
      · intro h
        exact hlast.mp (List.mem_of_getLast? h)
      · intro h
        rw [heq h, h]
        rfl
    · intro h
      rw [heq h, List.dropLast_concat]
      exact hlowered

private theorem quote_mem_join_iff (pieces : List Text) :
    q ∈ Text.join " " pieces ↔ ∃ piece ∈ pieces, q ∈ piece := by
  have hblank : q ∉ (" " : Text) := by
    rcases hq with rfl | rfl
    · decide
    · decide
  induction pieces with
  | nil => simp [Text.join]
  | cons piece pieces ih =>
    cases pieces with
    | nil => simp [Text.join]
    | cons next pieces =>
      have hjoin : Text.join " " (piece :: next :: pieces) =
          piece ++ " " ++ Text.join " " (next :: pieces) :=
        List.intercalate_cons_cons
      rw [hjoin, List.mem_append, List.mem_append, List.exists_mem_cons_iff,
        or_assoc, iff_false_intro hblank, false_or]
      exact or_congr_right ih

private theorem quote_mem_splitBy_iff (t : Text) :
    (∃ piece ∈ Text.splitBy Text.isBlank t, q ∈ piece) ↔ q ∈ t := by
  have hblank : Text.isBlank q = false := by
    rcases hq with rfl | rfl
    · decide
    · decide
  induction t with
  | nil => simp [Text.splitBy]
  | cons c rest ih =>
    have hrest : (∃ piece ∈ Text.splitBy Text.isBlank rest, q ∈ piece) ↔
        q ∈ rest := ih
    rw [Text.splitBy, List.mem_cons, ← hrest]
    split
    · rename_i hc
      have hne : q ≠ c := fun heq => by simp [← heq, hblank] at hc
      simp [hne]
    · split
      · rename_i hnil
        exact absurd hnil (Text.splitBy_ne_nil _ _)
      · rename_i piece pieces hpieces
        rw [hpieces]
        simp [or_assoc]

/-- Collapsing white space keeps quotes. -/
theorem quote_mem_collapse_iff (t : Text) : q ∈ Text.collapse t ↔ q ∈ t := by
  rw [Text.collapse, quote_mem_join_iff hq, ← quote_mem_splitBy_iff hq t]
  constructor
  · rintro ⟨piece, hpiece, hmem⟩
    exact ⟨piece, (List.mem_filter.mp hpiece).1, hmem⟩
  · rintro ⟨piece, hpiece, hmem⟩
    refine ⟨piece, List.mem_filter.mpr ⟨hpiece, ?_⟩, hmem⟩
    simpa using List.ne_nil_of_mem hmem

end Quotes

/-- A text in small letters starts with a quote only if the text does. -/
theorem head_lower {c d : Char} {rest lowered : Text} (hd : d = '\'' ∨ d = '"')
    (h : Text.lower (c :: rest) = d :: lowered) : c = d := by
  obtain ⟨first, hlower, hne, hfirst, -⟩ := exists_lowerAfter_cons hd [] c rest
  rw [Text.lower, hlower] at h
  cases first with
  | nil => exact absurd rfl hne
  | cons e first =>
    obtain ⟨rfl, -⟩ := List.cons.inj h
    exact hfirst.mp List.mem_cons_self

private theorem authorLiteral_of_not_quote {c : Char} (rest : Text)
    (hc : ¬(c = '\'' ∨ c = '"')) :
    authorLiteral (c :: rest) = ('"', c :: rest) := by
  rw [authorLiteral, if_neg fun h => hc h.1]

/-- Small letters keep the author's quotes. -/
theorem authorLiteral_lower (search : Text) :
    (authorLiteral (Text.lower search)).1 = (authorLiteral search).1 ∧
      ((authorLiteral search).1 ∈ (authorLiteral (Text.lower search)).2 ↔
        (authorLiteral search).1 ∈ (authorLiteral search).2) := by
  cases search with
  | nil => exact ⟨rfl, Iff.rfl⟩
  | cons c rest =>
    have hmem : '"' ∈ Text.lower (c :: rest) ↔ '"' ∈ c :: rest :=
      quote_mem_lowerAfter_iff (.inr rfl) [] (c :: rest)
    by_cases hc : c = '\'' ∨ c = '"'
    · obtain ⟨first, hlower, -, -, hfirst⟩ :=
        exists_lowerAfter_cons hc [] c rest
      have hlower : Text.lower (c :: rest) = c :: Text.lowerAfter [c] rest := by
        rw [Text.lower, hlower, hfirst rfl, List.singleton_append]
      obtain ⟨hlast, hinner⟩ := lowerAfter_endsQuoted hc [c] rest
      rw [hlower] at hmem ⊢
      by_cases hend : rest.getLast? = some c
      · rw [authorLiteral, authorLiteral, if_pos ⟨hc, hlast.mpr hend⟩,
          if_pos ⟨hc, hend⟩]
        exact ⟨rfl, hinner hend⟩
      · rw [authorLiteral, authorLiteral, if_neg fun h => hend (hlast.mp h.2),
          if_neg fun h => hend h.2]
        exact ⟨rfl, hmem⟩
    · rw [authorLiteral_of_not_quote rest hc]
      cases hlower : Text.lower (c :: rest) with
      | nil => exact ⟨rfl, by rw [← hmem, hlower]; rfl⟩
      | cons d lowered =>
        have hd : ¬(d = '\'' ∨ d = '"') :=
          fun hd => hc (head_lower hd hlower ▸ hd)
        rw [authorLiteral_of_not_quote lowered hd, ← hlower]
        exact ⟨rfl, hmem⟩

/-- A text can stand in its literal exactly if its author did not write the
quote inside. -/
theorem isQuotable_iff (caseSensitive : Bool) (search : Text) :
    isQuotable caseSensitive search = true ↔
      (authorLiteral search).1 ∉ (authorLiteral search).2 := by
  have hquote := searchLiteral_quote search
  rw [searchLiteral_eq] at hquote
  have hcollapse := fun t => quote_mem_collapse_iff hquote t
  rw [isQuotable]
  cases caseSensitive with
  | true => simp [searchLiteral_eq, hcollapse]
  | false =>
    obtain ⟨hsame, hinner⟩ := authorLiteral_lower search
    simp [searchLiteral_eq, hsame, hcollapse, hinner]

/-! ## Tokens -/

private theorem filters_of_text {t : Token} {relation : TextRelation}
    {caseSensitive : Bool} {fragments : List Text} {argument : Text}
    (hpseudo : t.pseudo? = some (.text relation caseSensitive))
    (hargument : t.argument = some (.text argument))
    (h : filters t = .ok fragments) :
    fragments =
      [(textFilter relation caseSensitive (Text.trim argument)).render] := by
  rw [filters, kind_of_pseudo? hpseudo, hpseudo] at h
  obtain ⟨search, hsearch, h⟩ := bind_eq_ok_iff.mp h
  obtain ⟨argument', hargument', rfl⟩ := argumentText_eq_ok hsearch
  cases hargument.symm.trans hargument'
  cases h
  rfl

/-- The fragments of an attribute test are closed and have the copies of the
value whole in their literals exactly if the value, where it is written at all,
has no single quote. Those of a text test do exactly if the author did not write
the quote of the literal inside the text. -/
theorem filters_literals_iff {t : Token} {fragments : List Text}
    (h : filters t = .ok fragments) :
    (∀ test, t.kind = .attr → t.test = some test → t.label.isPlain = true →
      (HoldLiterals fragments (attributeLiterals (t.value.getD []) test) ↔
        test = .present ∨ '\'' ∉ t.value.getD [])) ∧
      ∀ relation caseSensitive argument,
        t.pseudo? = some (.text relation caseSensitive) →
        t.argument = some (.text argument) →
        (HoldLiterals fragments
          [textLiterals relation caseSensitive (Text.trim argument)] ↔
          (authorLiteral (Text.trim argument)).1 ∉
            (authorLiteral (Text.trim argument)).2) := by
  constructor
  · intro test hkind htest hname
    cases h.symm.trans (filters_of_attr hkind htest)
    rw [← map_literals_attributeFilters t.label,
      holdLiterals_render_iff (isFramed_attributeFilters _ test hname)]
    exact isSealed_attributeFilters_iff _ test hname
  · intro relation caseSensitive argument hpseudo hargument
    have hframed :=
      isFramed_textFilter relation caseSensitive (Text.trim argument)
    rw [filters_of_text hpseudo hargument h, ← literals_textFilter,
      ← isQuotable_iff caseSensitive, ← isSealed_textFilter_iff relation]
    exact (holdLiterals_render_iff
      (List.forall_mem_singleton.mpr hframed)).trans List.forall_mem_singleton

/-- A value with a single quote ends its literal, and the rest of it stands
outside. -/
theorem filters_literals_apostrophe :
    filters (.attr "title" .equals (some "it's")) = .ok ["@title = 'it's'"] ∧
      ¬HoldLiterals ["@title = 'it's'"] [["it's"]] := by
  have hfilters : filters (.attr "title" .equals (some "it's")) =
      .ok ["@title = 'it's'"] := by
    rw [filters]
    rfl
  have hvalue := (filters_literals_iff hfilters).1 .equals rfl rfl (by decide)
  refine ⟨hfilters, fun hholds => ?_⟩
  exact absurd (hvalue.mp hholds) (by decide)

end SelectorPath.XPath
