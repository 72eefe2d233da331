import Mathlib
import SelectorPath.Literal
import SelectorPath.Proofs.Escapes

/-!
# Masked literals and quoted strings

A selector is read with one rule for its quoted strings: a backslash takes the
next character with it, inside a string and outside, and a quote that is not
taken opens a string up to the next one of its kind. Masking has another rule.
It does not look at a backslash outside of literals, and inside one it looks at
a backslash only directly in front of the quote, also where that backslash was
taken by another one; and it gives up such a quote only if there is a later one.

So the two rules find the same strings in a line exactly if no quote that stands
directly behind a backslash, outside of strings or at the end of one, occurs
again behind it (`areSettled`).

## Main results

* `exists_takeString_iff`: the strings of the rule are those that the reader of
  selectors takes.
* `closeLiteral_eq_some_iff`: when a literal ends where the string ends.
* `capture_eq_iff`: when the masked literals are the strings of a line.
-/

namespace SelectorPath

open SelectorPath.Text (isHexDigit isSelectorBlank)
open SelectorPath.Selector

namespace Literal

/-! ## Strings -/

/-- The rest of a string behind its opening quote, and what follows it. A
backslash takes the next character with it. -/
def closeString (quote : Char) : Text → Option (Text × Text)
  | [] => none
  | '\\' :: c :: rest =>
    (closeString quote rest).map fun (body, left) => ('\\' :: c :: body, left)
  | c :: rest =>
    if c = quote then some ([c], rest)
    else (closeString quote rest).map fun (body, left) => (c :: body, left)

/-- What is taken is the string. -/
theorem closeString_eq_some {quote : Char} {t body left : Text}
    (h : closeString quote t = some (body, left)) :
    t = body ++ left ∧ ∃ inner, body = inner ++ [quote] := by
  fun_induction closeString quote t generalizing body with
  | case1 => cases h
  | case2 c rest ih =>
    obtain ⟨⟨body', left'⟩, hrest, heq⟩ := Option.map_eq_some_iff.mp h
    cases heq
    obtain ⟨hsplit, inner, hinner⟩ := ih hrest
    exact ⟨by rw [hsplit]; rfl, '\\' :: c :: inner, by rw [hinner]; rfl⟩
  | case3 rest hpair =>
    cases h
    exact ⟨rfl, [], rfl⟩
  | case4 c rest hpair hc ih =>
    obtain ⟨⟨body', left'⟩, hrest, heq⟩ := Option.map_eq_some_iff.mp h
    cases heq
    obtain ⟨hsplit, inner, hinner⟩ := ih hrest
    exact ⟨by rw [hsplit]; rfl, c :: inner, by rw [hinner]; rfl⟩

private theorem length_closeString_lt {quote : Char} {t body left : Text}
    (h : closeString quote t = some (body, left)) : left.length < t.length := by
  obtain ⟨hsplit, inner, hinner⟩ := closeString_eq_some h
  rw [hsplit, hinner]
  simp only [List.length_append, List.length_cons, List.length_nil]
  omega

/-- The text cut at its strings, from left to right; nothing if a string is not
closed. -/
def cutStrings : Text → Option (List Segment)
  | [] => some []
  | '\\' :: c :: rest =>
    (cutStrings rest).map fun segments => .char '\\' :: .char c :: segments
  | c :: rest =>
    if c = '"' ∨ c = '\'' then
      match _h : closeString c rest with
      | some (body, left) =>
        (cutStrings left).map fun segments => .literal (c :: body) :: segments
      | none => none
    else (cutStrings rest).map fun segments => .char c :: segments
termination_by t => t.length
decreasing_by
  · simp only [List.length_cons]
    omega
  · have hlt := length_closeString_lt _h
    simp only [List.length_cons]
    omega
  · simp

/-! ## Strings of the reader -/

private theorem closeString_quote {quote : Char} (hslash : quote ≠ '\\')
    (rest : Text) :
    closeString quote (quote :: rest) = some ([quote], rest) := by
  rw [closeString, if_pos rfl]
  exact fun d more hc => absurd hc hslash

private theorem closeString_cons {quote c : Char} (hslash : c ≠ '\\')
    (hquote : c ≠ quote) (rest : Text) :
    closeString quote (c :: rest) =
      (closeString quote rest).map fun (body, left) => (c :: body, left) := by
  rw [closeString, if_neg hquote]
  exact fun d more hc => absurd hc hslash

/-- Characters that neither escape nor close are passed over. -/
theorem closeString_skip {quote : Char} {skipped : Text}
    (h : ∀ c ∈ skipped, c ≠ '\\' ∧ c ≠ quote) (rest : Text) :
    closeString quote (skipped ++ rest) =
      (closeString quote rest).map fun (body, left) =>
        (skipped ++ body, left) := by
  induction skipped with
  | nil => simp
  | cons c skipped ih =>
    obtain ⟨hslash, hquote⟩ := h c (List.mem_cons_self ..)
    rw [List.cons_append, closeString_cons hslash hquote,
      ih fun d hd => h d (List.mem_cons_of_mem c hd), Option.map_map]
    rfl

/-- Behind its first character, an escape takes only characters that mean
nothing elsewhere. -/
theorem exists_escaped (d : Char) (rest : Text) :
    ∃ skipped, rest = skipped ++ (escaped (d :: rest)).2 ∧ ∀ c ∈ skipped,
      Balance.isInert c = true := by
  by_cases hd : isHexDigit d = true
  · cases hdigits : takeUpTo isHexDigit 5 rest with
    | mk digits left =>
      obtain ⟨hrest, hall, -⟩ := takeUpTo_append hdigits
      have hinert : ∀ c ∈ digits, Balance.isInert c = true := fun c hc =>
        isInert_of_isHexDigit (List.all_eq_true.mp hall c hc)
      rw [escaped_hex hd hdigits]
      cases left with
      | nil => exact ⟨digits, hrest, hinert⟩
      | cons c left =>
        rw [skipOneBlank]
        split
        · rename_i hblank
          refine ⟨digits ++ [c], by rw [hrest]; simp, ?_⟩
          intro c' hc'
          rcases List.mem_append.mp hc' with hc' | hc'
          · exact hinert c' hc'
          · rw [List.mem_singleton.mp hc']
            exact isInert_of_isSelectorBlank hblank
        · exact ⟨digits, hrest, hinert⟩
  · rw [escaped_other (by simpa using hd)]
    exact ⟨[], rfl, List.forall_mem_nil _⟩

private theorem exists_prepend_iff {ε : Type} {c : Char}
    {r : Except ε Text × Text} {left : Text} :
    (∃ value, prepend c r = (.ok value, left)) ↔
      ∃ value, r = (.ok value, left) := by
  constructor
  · rintro ⟨value, h⟩
    obtain ⟨value', hr, -⟩ := prepend_eq_ok h
    exact ⟨value', hr⟩
  · rintro ⟨value, rfl⟩
    exact ⟨c :: value, rfl⟩

private theorem exists_map_body_iff (extend : Text → Text)
    {found : Option (Text × Text)} {left : Text} :
    (∃ body, (found.map fun (body, left) => (extend body, left)) =
      some (body, left)) ↔
      ∃ body, found = some (body, left) := by
  constructor
  · rintro ⟨body, h⟩
    obtain ⟨⟨body', left'⟩, hfound, heq⟩ := Option.map_eq_some_iff.mp h
    cases heq
    exact ⟨body', hfound⟩
  · rintro ⟨body, rfl⟩
    exact ⟨extend body, rfl⟩

/-- The reader of selectors takes the same strings. -/
theorem exists_takeString_iff {quote : Char} {t left : Text}
    (hquote : quote = '"' ∨ quote = '\'') (hline : '\n' ∉ t) :
    (∃ value, takeString quote t = (.ok value, left)) ↔
      ∃ body, closeString quote t = some (body, left) := by
  have hslash : quote ≠ '\\' := by
    rcases hquote with rfl | rfl <;> decide
  fun_induction takeString quote t with
  | case1 => simp [closeString]
  | case2 rest => simp [closeString_quote hslash]
  | case3 => simp at hline
  | case4 => simp [closeString, hslash.symm]
  | case5 => simp at hline
  | case6 d rest hd _ _ ih =>
    obtain ⟨skipped, hrest, hinert⟩ := exists_escaped d rest
    have hskip : ∀ c ∈ skipped, c ≠ '\\' ∧ c ≠ quote := by
      intro c hc
      have hc := hinert c hc
      simp only [Balance.isInert, Bool.and_eq_true, bne_iff_ne] at hc
      obtain ⟨⟨⟨⟨hback, hdouble⟩, hsingle⟩, -⟩, -⟩ := hc
      exact ⟨hback, by rcases hquote with rfl | rfl <;> assumption⟩
    have hleft : '\n' ∉ (escaped (d :: rest)).2 := by
      intro hmem
      apply hline
      rw [hrest]
      simp [hmem]
    have hclose : closeString quote ('\\' :: d :: rest) =
        (closeString quote (escaped (d :: rest)).2).map fun (body, left) =>
          ('\\' :: d :: (skipped ++ body), left) := by
      rw [closeString]
      conv_lhs => rw [hrest]
      rw [closeString_skip hskip, Option.map_map]
      rfl
    rw [exists_prepend_iff, hclose, exists_map_body_iff fun body => '\\' :: d ::
      (skipped ++ body)]
    exact ih hleft
  | case7 c rest hc hnewline hback ih =>
    have hrest : '\n' ∉ rest := fun hmem => hline (List.mem_cons_of_mem c hmem)
    rw [exists_prepend_iff, closeString_cons hback hc,
      exists_map_body_iff (c :: ·)]
    exact ih hrest

/-! ## Literals -/

private theorem closeLiteral_quote {quote : Char} (hslash : quote ≠ '\\')
    (rest : Text) :
    closeLiteral quote (quote :: rest) = some ([quote], rest) := by
  rw [closeLiteral, if_pos rfl]
  exact fun d more hc => absurd hc hslash

private theorem closeLiteral_cons {quote c : Char} (hslash : c ≠ '\\')
    (hquote : c ≠ quote) (hline : c ≠ '\n') (rest : Text) :
    closeLiteral quote (c :: rest) =
      (closeLiteral quote rest).map fun (body, left) => (c :: body, left) := by
  rw [closeLiteral, if_neg hquote, if_neg hline]
  exact fun d more hc => absurd hc hslash

private theorem closeLiteral_slash {quote d : Char} (hd : d ≠ quote)
    (rest : Text) :
    closeLiteral quote ('\\' :: d :: rest) =
      (closeLiteral quote (d :: rest)).map fun (body, left) =>
        ('\\' :: body, left) := by
  rw [closeLiteral, if_neg hd]

/-- In a line, a literal is closed by any quote of its kind. -/
theorem closeLiteral_eq_none_iff {quote : Char} {t : Text}
    (hslash : quote ≠ '\\') (hline : '\n' ∉ t) :
    closeLiteral quote t = none ↔ quote ∉ t := by
  fun_induction closeLiteral quote t with
  | case1 => simp
  | case2 rest body left hrest ih => simp
  | case3 rest hrest ih => simp
  | case4 c rest hc ih =>
    have hrest : '\n' ∉ c :: rest :=
      fun hmem => hline (List.mem_cons_of_mem _ hmem)
    rw [Option.map_eq_none_iff, List.mem_cons, not_or]
    exact (ih hrest).trans ⟨fun h => ⟨hslash, h⟩, And.right⟩
  | case5 => simp
  | case6 => simp at hline
  | case7 c rest _ hc hnewline ih =>
    have hrest : '\n' ∉ rest := fun hmem => hline (List.mem_cons_of_mem _ hmem)
    rw [Option.map_eq_none_iff, List.mem_cons, not_or]
    exact (ih hrest).trans ⟨fun h => ⟨fun heq => hc heq.symm, h⟩, And.right⟩

private theorem map_cons_eq_some_iff {found : Option (Text × Text)} {c : Char}
    {body left : Text} :
    (found.map fun (body, left) => (c :: body, left)) = some (c :: body, left) ↔
      found = some (body, left) := by
  rw [Option.map_eq_some_iff]
  constructor
  · rintro ⟨⟨body', left'⟩, hfound, heq⟩
    cases heq
    exact hfound
  · rintro rfl
    exact ⟨_, rfl, rfl⟩

/-- Whether a string, or its rest, has a backslash in front of its last
quote. -/
def endsEscaped (body : Text) : Bool :=
  body.dropLast.getLast? == some '\\'

private theorem endsEscaped_cons {c : Char} {body : Text} (hbody : body ≠ [])
    (h : c ≠ '\\' ∨ body.dropLast ≠ []) :
    endsEscaped (c :: body) = endsEscaped body := by
  rw [endsEscaped, endsEscaped, List.dropLast_cons_of_ne_nil hbody]
  cases hinner : body.dropLast with
  | nil =>
    have hc : c ≠ '\\' := h.resolve_right fun hne => hne hinner
    simp [hc]
  | cons d inner => rw [List.getLast?_cons_cons]

private theorem endsEscaped_pair {c : Char} {body : Text} (hbody : body ≠ [])
    (h : c ≠ '\\' ∨ body.dropLast ≠ []) :
    endsEscaped ('\\' :: c :: body) = endsEscaped body := by
  have hinner : (c :: body).dropLast ≠ [] := by
    rw [List.dropLast_cons_of_ne_nil hbody]
    exact List.cons_ne_nil c _
  rw [endsEscaped_cons (List.cons_ne_nil c body) (.inr hinner),
    endsEscaped_cons hbody h]

/-- A quote behind a backslash closes a literal only where it does not occur
again. -/
theorem closeLiteral_escaped_iff {quote : Char} {rest : Text}
    (hslash : quote ≠ '\\') (hline : '\n' ∉ rest) :
    closeLiteral quote ('\\' :: quote :: rest) = some (['\\', quote], rest) ↔
      quote ∉ rest := by
  have hnone := closeLiteral_eq_none_iff hslash hline
  rw [closeLiteral, if_pos rfl]
  cases hfound : closeLiteral quote rest with
  | none => simpa using hnone.mp hfound
  | some found =>
    obtain ⟨body, left⟩ := found
    have hlater : ¬quote ∉ rest := fun hmem => by
      simp [hnone.mpr hmem] at hfound
    have hleft : left ≠ rest := fun heq => by
      have hlt := length_closeLiteral_lt hfound
      rw [heq] at hlt
      exact absurd hlt (Nat.lt_irrefl _)
    simp [hlater, hleft]

/-- The step over a backslash and the character it takes. -/
theorem closeLiteral_taken_iff {quote c : Char} {rest body left : Text}
    (hslash : quote ≠ '\\') (hline : '\n' ∉ c :: rest)
    (hstring : closeString quote rest = some (body, left))
    (hstep : closeLiteral quote rest = some (body, left) ↔
      (endsEscaped body = true → quote ∉ left)) :
    closeLiteral quote ('\\' :: c :: rest) = some ('\\' :: c :: body, left) ↔
      (endsEscaped ('\\' :: c :: body) = true → quote ∉ left) := by
  rw [List.mem_cons, not_or] at hline
  obtain ⟨hsplit, inner, hinner⟩ := closeString_eq_some hstring
  have hbody : body ≠ [] := by simp [hinner]
  by_cases hc : c = quote
  · -- Both skip the quote: the string has a later one.
    subst hc
    have hlater : closeLiteral c rest ≠ none := by
      rw [Ne, closeLiteral_eq_none_iff hslash hline.2, not_not, hsplit, hinner]
      simp
    obtain ⟨⟨found, behind⟩, hfound⟩ := Option.ne_none_iff_exists'.mp hlater
    rw [closeLiteral, if_pos rfl, hfound, endsEscaped_pair hbody (.inl hslash),
      ← hstep, hfound]
    simp
  · rw [closeLiteral_slash hc, map_cons_eq_some_iff]
    by_cases hback : c = '\\'
    · subst hback
      cases rest with
      | nil => cases hstring
      | cons d rest =>
        by_cases hd : d = quote
        · -- The string ends here, behind a backslash that another one has
          -- taken.
          subst hd
          rw [closeString_quote hslash] at hstring
          cases hstring
          rw [closeLiteral_escaped_iff hslash fun hmem =>
            hline.2 (List.mem_cons_of_mem d hmem)]
          simp [endsEscaped]
        · have hlong : body.dropLast ≠ [] := by
            intro hshort
            rw [hinner, List.dropLast_concat] at hshort
            rw [hinner, hshort] at hsplit
            exact hd (List.cons.inj hsplit).1
          rw [closeLiteral_slash hd, map_cons_eq_some_iff, hstep,
            endsEscaped_pair hbody (.inr hlong)]
    · rw [closeLiteral_cons hback hc (Ne.symm hline.1),
        map_cons_eq_some_iff, hstep, endsEscaped_pair hbody (.inl hback)]

/-- A literal ends where the string ends, unless the string has a backslash in
front of its last quote and the quote occurs again. -/
theorem closeLiteral_eq_some_iff {quote : Char} {t body left : Text}
    (hslash : quote ≠ '\\') (hline : '\n' ∉ t)
    (h : closeString quote t = some (body, left)) :
    closeLiteral quote t = some (body, left) ↔
      (endsEscaped body = true → quote ∉ left) := by
  fun_induction closeString quote t generalizing body with
  | case1 => cases h
  | case2 c rest ih =>
    obtain ⟨⟨body', left'⟩, hstring, heq⟩ := Option.map_eq_some_iff.mp h
    cases heq
    have htaken : '\n' ∉ c :: rest :=
      fun hmem => hline (List.mem_cons_of_mem _ hmem)
    have hrest : '\n' ∉ rest := fun hmem => htaken (List.mem_cons_of_mem _ hmem)
    exact closeLiteral_taken_iff hslash htaken hstring (ih hrest hstring)
  | case3 rest hpair =>
    cases h
    simp [closeLiteral_quote hslash, endsEscaped]
  | case4 c rest hpair hc ih =>
    obtain ⟨⟨body', left'⟩, hstring, heq⟩ := Option.map_eq_some_iff.mp h
    cases heq
    have hrest : '\n' ∉ rest := fun hmem => hline (List.mem_cons_of_mem c hmem)
    obtain ⟨hsplit, inner, hinner⟩ := closeString_eq_some hstring
    have hbody : body' ≠ [] := by simp [hinner]
    have hback : c ≠ '\\' := by
      apply ne_backslash _ hpair
      rintro rfl rfl
      cases hstring
    have hnewline : c ≠ '\n' := fun heq => hline (by simp [heq])
    rw [closeLiteral_cons hback hc hnewline, map_cons_eq_some_iff,
      ih hrest hstring, endsEscaped_cons hbody (.inl hback)]

end Literal

/-! ## Literals and strings of a line -/

/-- The text that a segment was cut from. -/
def Segment.source : Segment → Text
  | .char c => [c]
  | .literal t => t

/-- The quote of a segment that stands directly behind a backslash: one outside
of strings, or the last one of a string. -/
def Segment.loose? : Segment → Option Char
  | .char c => if c = '"' ∨ c = '\'' then some c else none
  | .literal t => if Literal.endsEscaped t then t.getLast? else none

namespace Literal

/-- The text that segments were cut from. -/
def source (segments : List Segment) : Text :=
  segments.flatMap Segment.source

@[simp] theorem source_nil : source [] = [] := rfl

@[simp] theorem source_cons (segment : Segment) (rest : List Segment) :
    source (segment :: rest) = segment.source ++ source rest := rfl

private theorem source_of_cutStrings {t : Text} {strings : List Segment}
    (h : cutStrings t = some strings) :
    source strings = t := by
  fun_induction cutStrings t generalizing strings with
  | case1 => cases h; rfl
  | case2 c rest ih =>
    obtain ⟨later, hlater, rfl⟩ := Option.map_eq_some_iff.mp h
    simp [Segment.source, ih hlater]
  | case3 c rest hpair hquote body left hstring ih =>
    obtain ⟨later, hlater, rfl⟩ := Option.map_eq_some_iff.mp h
    simp [Segment.source, ih hlater, (closeString_eq_some hstring).1]
  | case4 => cases h
  | case5 c rest hpair hquote ih =>
    obtain ⟨later, hlater, rfl⟩ := Option.map_eq_some_iff.mp h
    simp [Segment.source, ih hlater]

/-- A literal and what follows it make up the text. -/
theorem closeLiteral_append {quote : Char} {t body left : Text}
    (h : closeLiteral quote t = some (body, left)) : t = body ++ left := by
  fun_induction closeLiteral quote t generalizing body left with
  | case1 => cases h
  | case2 rest body' left' hrest ih => cases h; simp [ih hrest]
  | case3 rest hrest ih => cases h; rfl
  | case4 c rest hc ih =>
    obtain ⟨⟨body', left'⟩, hrest, heq⟩ := Option.map_eq_some_iff.mp h
    cases heq
    rw [ih hrest]; rfl
  | case5 => cases h; rfl
  | case6 => cases h
  | case7 c rest _ _ _ ih =>
    obtain ⟨⟨body', left'⟩, hrest, heq⟩ := Option.map_eq_some_iff.mp h
    cases heq
    rw [ih hrest]; rfl

/-- The segments make up the text. -/
theorem source_segments (t : Text) : source (segments t) = t := by
  fun_induction segments t with
  | case1 => rfl
  | case2 c rest hquote body left hliteral ih =>
    simp [Segment.source, ih, closeLiteral_append hliteral]
  | case3 c rest hquote hliteral ih => simp [Segment.source, ih]
  | case4 c rest hquote ih => simp [Segment.source, ih]

/-- A character that is no quote is a segment of its own. -/
theorem segments_char {c : Char} (rest : Text) (h : ¬(c = '"' ∨ c = '\'')) :
    segments (c :: rest) = .char c :: segments rest := by
  rw [segments, if_neg h]

/-- A quote that starts a literal is taken with it. -/
theorem segments_literal {c : Char} {rest body left : Text}
    (h : c = '"' ∨ c = '\'')
    (hliteral : closeLiteral c rest = some (body, left)) :
    segments (c :: rest) = .literal (c :: body) :: segments left := by
  rw [segments, if_pos h]
  split
  · rename_i hfound
    cases hliteral.symm.trans hfound
    rfl
  · rename_i hfound
    cases hliteral.symm.trans hfound

/-- A quote that starts no literal is an ordinary character. -/
theorem segments_quote {c : Char} {rest : Text} (h : c = '"' ∨ c = '\'')
    (hliteral : closeLiteral c rest = none) :
    segments (c :: rest) = .char c :: segments rest := by
  rw [segments, if_pos h]
  split
  · rename_i hfound
    cases hliteral.symm.trans hfound
  · rfl

/-- No quote that stands directly behind a backslash, outside of strings or at
the end of one, occurs again. -/
def areSettled : List Segment → Bool
  | [] => true
  | segment :: rest =>
    (segment.loose?.all fun quote => quote ∉ source rest) && areSettled rest

private theorem areSettled_char_iff {c : Char} {rest : List Segment}
    (h : c = '"' ∨ c = '\'') :
    areSettled (.char c :: rest) = true ↔
      c ∉ source rest ∧ areSettled rest = true := by
  simp [areSettled, Segment.loose?, h]

private theorem areSettled_char {c : Char} {rest : List Segment}
    (h : ¬(c = '"' ∨ c = '\'')) :
    areSettled (.char c :: rest) = areSettled rest := by
  simp [areSettled, Segment.loose?, h]

private theorem areSettled_literal_iff {quote : Char} {inner : Text}
    {rest : List Segment} (h : quote ≠ '\\') :
    areSettled (.literal (quote :: (inner ++ [quote])) :: rest) = true ↔
      (endsEscaped (inner ++ [quote]) = true → quote ∉ source rest) ∧
        areSettled rest = true := by
  have hends : endsEscaped (quote :: (inner ++ [quote])) =
      endsEscaped (inner ++ [quote]) :=
    endsEscaped_cons (by simp) (.inl h)
  have hlast : (quote :: (inner ++ [quote])).getLast? = some quote := by
    rw [← List.cons_append, List.getLast?_concat]
  rw [areSettled, Segment.loose?, hends, hlast, Bool.and_eq_true]
  by_cases hbehind : endsEscaped (inner ++ [quote]) = true
  · simp [hbehind]
  · simp [hbehind]

private theorem ne_backslash_of_quote {c : Char} (h : c = '"' ∨ c = '\'') :
    c ≠ '\\' := by
  rcases h with rfl | rfl
  · decide
  · decide

/-- A literal found first is the one that its opening quote starts. -/
theorem closeLiteral_of_segments {c : Char} {rest body left : Text}
    {later : List Segment} (hquote : c = '"' ∨ c = '\'')
    (hsplit : rest = body ++ left)
    (h : segments (c :: rest) = .literal (c :: body) :: later) :
    closeLiteral c rest = some (body, left) := by
  cases hfound : closeLiteral c rest with
  | none =>
    rw [segments_quote hquote hfound] at h
    cases h
  | some found =>
    obtain ⟨body', left'⟩ := found
    rw [segments_literal hquote hfound] at h
    cases h
    rw [closeLiteral_append hfound, List.append_cancel_left_eq] at hsplit
    rw [hsplit]

/-- A line is cut at its strings exactly if they are settled. -/
theorem segments_eq_iff {t : Text} {strings : List Segment} (hline : '\n' ∉ t)
    (h : cutStrings t = some strings) :
    segments t = strings ↔ areSettled strings = true := by
  fun_induction cutStrings t generalizing strings with
  | case1 =>
    cases h
    simp [segments, areSettled]
  | case2 c rest ih =>
    obtain ⟨later, hlater, rfl⟩ := Option.map_eq_some_iff.mp h
    have hrest : '\n' ∉ rest := fun hmem => hline (by simp [hmem])
    rw [segments_char _ (by decide), areSettled_char (by decide),
      List.cons_inj_right]
    by_cases hc : c = '"' ∨ c = '\''
    · have hslash := ne_backslash_of_quote hc
      rw [areSettled_char_iff hc, source_of_cutStrings hlater,
        ← closeLiteral_eq_none_iff hslash hrest]
      cases hfound : closeLiteral c rest with
      | none => simp [segments_quote hc hfound, ih hrest hlater]
      | some found => simp [segments_literal hc hfound]
    · rw [segments_char _ hc, areSettled_char hc, List.cons_inj_right,
        ih hrest hlater]
  | case3 c rest hpair hc body left hstring ih =>
    obtain ⟨later, hlater, rfl⟩ := Option.map_eq_some_iff.mp h
    have hslash := ne_backslash_of_quote hc
    have hrest : '\n' ∉ rest := fun hmem => hline (List.mem_cons_of_mem c hmem)
    obtain ⟨hsplit, inner, hinner⟩ := closeString_eq_some hstring
    have hleft : '\n' ∉ left := fun hmem => hrest (by simp [hsplit, hmem])
    have hclose := closeLiteral_eq_some_iff hslash hrest hstring
    rw [hinner, areSettled_literal_iff hslash, ← hinner,
      source_of_cutStrings hlater, ← hclose, ← ih hleft hlater]
    constructor
    · intro hsegments
      have hfound := closeLiteral_of_segments hc hsplit hsegments
      rw [segments_literal hc hfound] at hsegments
      exact ⟨hfound, List.cons.inj hsegments |>.2⟩
    · rintro ⟨hfound, hsegments⟩
      rw [segments_literal hc hfound, hsegments]
  | case4 => cases h
  | case5 c rest hpair hc ih =>
    obtain ⟨later, hlater, rfl⟩ := Option.map_eq_some_iff.mp h
    have hrest : '\n' ∉ rest := fun hmem => hline (List.mem_cons_of_mem c hmem)
    rw [segments_char _ hc, areSettled_char hc, List.cons_inj_right,
      ih hrest hlater]

/-! ## Masks -/

/-- Every literal among the segments starts with a quote. -/
def AreQuoted (segments : List Segment) : Prop :=
  ∀ t, .literal t ∈ segments → t.head? = some '"' ∨ t.head? = some '\''

private theorem areQuoted_cons_iff {segment : Segment} {rest : List Segment} :
    AreQuoted (segment :: rest) ↔
      (∀ t, segment = .literal t → t.head? = some '"' ∨ t.head? = some '\'') ∧
        AreQuoted rest := by
  simp only [AreQuoted, List.mem_cons, or_imp, forall_and, eq_comm]

private theorem areQuoted_of_cutStrings {t : Text} {strings : List Segment}
    (h : cutStrings t = some strings) :
    AreQuoted strings := by
  fun_induction cutStrings t generalizing strings with
  | case1 => cases h; simp [AreQuoted]
  | case2 c rest ih =>
    obtain ⟨later, hlater, rfl⟩ := Option.map_eq_some_iff.mp h
    simp [areQuoted_cons_iff, ih hlater]
  | case3 c rest hpair hc body left hstring ih =>
    obtain ⟨later, hlater, rfl⟩ := Option.map_eq_some_iff.mp h
    simp [areQuoted_cons_iff, ih hlater, hc]
  | case4 => cases h
  | case5 c rest hpair hc ih =>
    obtain ⟨later, hlater, rfl⟩ := Option.map_eq_some_iff.mp h
    simp [areQuoted_cons_iff, ih hlater]

private theorem areQuoted_segments (t : Text) : AreQuoted (segments t) := by
  fun_induction segments t with
  | case1 => simp [AreQuoted]
  | case2 c rest hc body left hliteral ih => simp [areQuoted_cons_iff, ih, hc]
  | case3 c rest hc hliteral ih => simp [areQuoted_cons_iff, ih]
  | case4 c rest hc ih => simp [areQuoted_cons_iff, ih]

/-- No character stands both in front of a placeholder and in front of the
literal behind it: the first starts with a low line, the second with a quote. -/
theorem not_head_of_literal {c : Char} {t masked masked' left left' : Text}
    {index : Nat} (ht : t.head? = some '"' ∨ t.head? = some '\'')
    (hmask : c :: masked = placeholder index ++ masked')
    (hsource : c :: left = t ++ left') : False := by
  have hc : c = '_' := (List.cons.inj hmask).1
  cases t with
  | nil => simp at ht
  | cons d body =>
    have hd : c = d := (List.cons.inj hsource).1
    subst hd hc
    simp at ht

/-- Cuts of one text with the same mask and the same literals are the same. -/
theorem eq_of_mask_eq {index : Nat} {cut cut' : List Segment}
    (hquoted : AreQuoted cut) (hquoted' : AreQuoted cut')
    (hsource : source cut = source cut')
    (hmask : mask index cut = mask index cut')
    (hliterals : literals cut = literals cut') : cut = cut' := by
  induction cut generalizing cut' index with
  | nil =>
    cases cut' with
    | nil => rfl
    | cons segment' rest' =>
      cases segment' with
      | char c => cases hmask
      | literal t => cases hliterals
  | cons segment rest ih =>
    rw [areQuoted_cons_iff] at hquoted
    cases cut' with
    | nil =>
      cases segment with
      | char c => cases hmask
      | literal t => cases hliterals
    | cons segment' rest' =>
      rw [areQuoted_cons_iff] at hquoted'
      cases segment with
      | char c =>
        cases segment' with
        | char d =>
          obtain ⟨rfl, hrest⟩ := List.cons.inj hmask
          rw [ih hquoted.2 hquoted'.2 (List.cons.inj hsource).2 hrest hliterals]
        | literal t =>
          exact (not_head_of_literal (hquoted'.1 t rfl) hmask hsource).elim
      | literal t =>
        cases segment' with
        | char d =>
          exact (not_head_of_literal (hquoted.1 t rfl) hmask.symm
            hsource.symm).elim
        | literal t' =>
          obtain ⟨rfl, hrest⟩ := List.cons.inj hliterals
          rw [ih hquoted.2 hquoted'.2 (List.append_cancel_left hsource)
            (List.append_cancel_left hmask) hrest]

/-- On a line with every string closed, the recorded literals are its strings,
and the mask has the placeholders in their places, exactly if no quote that
stands directly behind a backslash, outside of strings or at the end of one,
occurs again. -/
theorem capture_eq_iff {t : Text} {strings : List Segment} (hline : '\n' ∉ t)
    (hstrings : cutStrings t = some strings) :
    capture t = (mask 0 strings, literals strings) ↔
      areSettled strings = true := by
  rw [← segments_eq_iff hline hstrings, capture, Prod.mk.injEq]
  constructor
  · rintro ⟨hmask, hliterals⟩
    have hsource : source (segments t) = source strings := by
      rw [source_segments, source_of_cutStrings hstrings]
    exact eq_of_mask_eq (areQuoted_segments t)
      (areQuoted_of_cutStrings hstrings) hsource hmask hliterals
  · rintro rfl
    exact ⟨rfl, rfl⟩

/-- Two strings, the first of which ends in a taken backslash. -/
def adjacentStrings : List Segment :=
  [.literal "\"a\\\\\"", .char ' ', .literal "\"b\""]

/-- The quote behind the taken backslash occurs again: the literal runs on up to
the second string. -/
theorem capture_adjacentStrings :
    '\n' ∉ source adjacentStrings ∧ cutStrings (source adjacentStrings) =
      some adjacentStrings ∧
      capture (source adjacentStrings) ≠
        (mask 0 adjacentStrings, literals adjacentStrings) ∧
      capture (source adjacentStrings) =
        (("__S0__b\"" : Text), [("\"a\\\\\" \"" : Text)]) := by
  have hline : '\n' ∉ source adjacentStrings := by decide
  have hstrings : cutStrings (source adjacentStrings) =
      some adjacentStrings := by cbv
  refine ⟨hline, hstrings, ?_, by cbv⟩
  rw [Ne, capture_eq_iff hline hstrings]
  decide

end Literal

end SelectorPath
