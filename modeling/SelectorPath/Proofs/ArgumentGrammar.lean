import Mathlib
import SelectorPath.Proofs.Balance
import SelectorPath.Selector.Cursor

/-!
# The grammar of arguments

What can stand between the parentheses of an argument is given by a grammar,
without a count of parentheses and without a flag for open strings. A text ahead
of the reader has one of three shapes: a balanced text and a closing parenthesis
lie at its front, or it ends with parentheses still open, or it ends inside a
string. Every text has one of the shapes, which is shown by the grammar alone,
and the reader gives a different answer to each; so the answer tells the shape.

## Main results

* `argumentShape`: every text has one of the three shapes.
* `run_balancedText`, `run_openText`: the machine over the parts of the grammar.
* `takeBalanced_of_run_end`: what the reader answers where no parenthesis closes
  the argument.
* `Cursor.argument_eq_ok_iff_balancedText`: an argument is taken if it is in the
  grammar and a parenthesis follows it, and what happens otherwise.
-/

namespace SelectorPath.Selector

/-! ## The grammar -/

/-- What stands between the quotes `q` of a string. -/
inductive StringBody (q : Char) : Text → Prop
  | nil : StringBody q []
  | escape (c : Char) {t : Text} (ht : StringBody q t) :
    StringBody q ('\\' :: c :: t)
  | char {c : Char} {t : Text} (hquote : c ≠ q) (hslash : c ≠ '\\')
    (ht : StringBody q t) : StringBody q (c :: t)

/-- What stands between the parentheses of an argument. -/
inductive BalancedText : Text → Prop
  | nil : BalancedText []
  | escape (c : Char) {t : Text} (ht : BalancedText t) :
    BalancedText ('\\' :: c :: t)
  | string {q : Char} {s t : Text} (hq : q = '"' ∨ q = '\'')
    (hs : StringBody q s) (ht : BalancedText t) :
    BalancedText (q :: (s ++ q :: t))
  | parens {s t : Text} (hs : BalancedText s) (ht : BalancedText t) :
    BalancedText ('(' :: (s ++ ')' :: t))
  | char {c : Char} {t : Text} (hc : Balance.isInert c = true)
    (ht : BalancedText t) : BalancedText (c :: t)

/-- Balanced texts with opening parentheses between them. -/
inductive OpenText : Text → Prop
  | balanced {s : Text} (hs : BalancedText s) : OpenText s
  | opening {s t : Text} (hs : BalancedText s) (ht : OpenText t) :
    OpenText (s ++ '(' :: t)

/-- What the end of a text may leave of an escape: nothing, or its backslash. -/
def IsCutOff (tail : Text) : Prop :=
  tail = [] ∨ tail = ['\\']

/-- Whether a text ends with parentheses open, perhaps none, and outside of
strings. -/
def EndsOutside (t : Text) : Prop :=
  ∃ front tail, OpenText front ∧ IsCutOff tail ∧ t = front ++ tail

/-- Whether a text ends inside a string. -/
def EndsInString (t : Text) : Prop :=
  ∃ front q body tail, OpenText front ∧ (q = '"' ∨ q = '\'') ∧
    StringBody q body ∧ IsCutOff tail ∧
    t = front ++ q :: (body ++ tail)

/-- Balanced texts can stand one behind the other. -/
theorem BalancedText.append {s t : Text} (hs : BalancedText s)
    (ht : BalancedText t) : BalancedText (s ++ t) := by
  induction hs with
  | nil => exact ht
  | escape c hs ih => exact .escape c ih
  | string hq hbody hs ih => simpa using BalancedText.string hq hbody ih
  | parens hinner hs ihinner ih => simpa using BalancedText.parens hinner ih
  | char hc hs ih => exact .char hc ih

/-- A balanced text in front of an open one changes nothing about what is open.
-/
theorem OpenText.prepend {s t : Text} (hs : BalancedText s) (ht : OpenText t) :
    OpenText (s ++ t) := by
  cases ht with
  | balanced ht => exact .balanced (hs.append ht)
  | opening hs' ht => simpa using OpenText.opening (hs.append hs') ht

/-! ## Every text has a shape -/

/-- The shapes of a text ahead of the reader of an argument. -/
inductive ArgumentShape (t : Text) : Prop
  | closed {raw rest : Text} (hraw : BalancedText raw) (ht : t =
    raw ++ ')' :: rest)
  | outside (ht : EndsOutside t)
  | inString (ht : EndsInString t)

/-- A balanced text may stand in front of an argument. -/
theorem ArgumentShape.prepend {s t : Text} (hs : BalancedText s)
    (ht : ArgumentShape t) :
    ArgumentShape (s ++ t) := by
  cases ht with
  | closed hraw ht =>
    exact .closed (hs.append hraw) (by rw [ht, List.append_assoc])
  | outside ht =>
    obtain ⟨front, tail, hfront, htail, rfl⟩ := ht
    exact .outside ⟨s ++ front, tail, hfront.prepend hs, htail,
      by rw [List.append_assoc]⟩
  | inString ht =>
    obtain ⟨front, q, body, tail, hfront, hq, hbody, htail, rfl⟩ := ht
    exact .inString ⟨s ++ front, q, body, tail, hfront.prepend hs, hq, hbody,
      htail, by rw [List.append_assoc]⟩

/-- A string is closed by its quote or goes on to the end of the text. -/
theorem exists_stringBody (q : Char) (t : Text) :
    (∃ body rest, StringBody q body ∧ t = body ++ q :: rest) ∨
      ∃ body tail, StringBody q body ∧ IsCutOff tail ∧ t = body ++ tail := by
  fun_induction dangles t with
  | case1 => exact .inr ⟨[], [], .nil, .inl rfl, rfl⟩
  | case2 => exact .inr ⟨[], ['\\'], .nil, .inr rfl, rfl⟩
  | case3 c rest ih =>
    rcases ih with ⟨body, left, hbody, rfl⟩ | ⟨body, tail, hbody, htail, rfl⟩
    · exact .inl ⟨_, left, .escape c hbody, rfl⟩
    · exact .inr ⟨_, tail, .escape c hbody, htail, rfl⟩
  | case4 c rest hlast hpair ih =>
    have hslash := ne_backslash hlast hpair
    by_cases hquote : c = q
    · subst hquote
      exact .inl ⟨[], rest, .nil, rfl⟩
    · rcases ih with ⟨body, left, hbody, rfl⟩ | ⟨body, tail, hbody, htail, rfl⟩
      · exact .inl ⟨_, left, .char hquote hslash hbody, rfl⟩
      · exact .inr ⟨_, tail, .char hquote hslash hbody, htail, rfl⟩

/-- An opening parenthesis waits for the one that closes it: behind that one the
text has a shape again, and without it the text has ended. -/
theorem ArgumentShape.opening {t : Text} (ht : ArgumentShape t)
    (hrest : ∀ rest : Text, rest.length < t.length → ArgumentShape rest) :
    ArgumentShape ('(' :: t) := by
  cases ht with
  | @closed raw rest hraw ht =>
    subst ht
    have hshape := hrest rest (by simp; omega)
    simpa using hshape.prepend (.parens hraw .nil)
  | outside ht =>
    obtain ⟨front, tail, hfront, htail, rfl⟩ := ht
    exact .outside ⟨'(' :: front, tail, .opening .nil hfront, htail, rfl⟩
  | inString ht =>
    obtain ⟨front, q, body, tail, hfront, hq, hbody, htail, rfl⟩ := ht
    exact .inString ⟨'(' :: front, q, body, tail, .opening .nil hfront, hq,
      hbody, htail, rfl⟩

/-- Every text has one of the shapes. -/
theorem argumentShape (t : Text) : ArgumentShape t := by
  induction hlength : t.length using Nat.strong_induction_on generalizing t with
  | _ n ih =>
    subst hlength
    have hshorter : ∀ rest : Text, rest.length < t.length →
        ArgumentShape rest := fun rest hlt =>
      ih rest.length hlt rest rfl
    cases t with
    | nil => exact .outside ⟨[], [], .balanced .nil, .inl rfl, rfl⟩
    | cons c rest =>
      have hrest := hshorter rest (by simp)
      by_cases hslash : c = '\\'
      · subst hslash
        cases rest with
        | nil => exact .outside ⟨[], ['\\'], .balanced .nil, .inr rfl, rfl⟩
        | cons d rest =>
          exact (hshorter rest (by simp)).prepend (.escape d .nil)
      by_cases hquote : c = '"' ∨ c = '\''
      · rcases exists_stringBody c rest with ⟨body, left, hbody, rfl⟩ |
            ⟨body, tail, hbody, htail, rfl⟩
        · have hleft := hshorter left (by simp; omega)
          simpa using hleft.prepend (.string hquote hbody .nil)
        · exact .inString ⟨[], c, body, tail, .balanced .nil, hquote, hbody,
            htail, rfl⟩
      by_cases hopen : c = '('
      · subst hopen
        exact hrest.opening fun left hlt => hshorter left (by simp; omega)
      by_cases hclose : c = ')'
      · subst hclose
        exact .closed .nil rfl
      · rw [not_or] at hquote
        have hinert : Balance.isInert c = true := by
          simp [Balance.isInert, hslash, hquote, hopen, hclose]
        exact hrest.prepend (.char hinert .nil)

/-! ## The machine over the grammar -/

private theorem run_stringBody {q : Char} {body : Text} (h : StringBody q body)
    (depth : Nat) :
    Balance.run ⟨depth, some q, false⟩ body = some ⟨depth, some q, false⟩ := by
  induction h with
  | nil => rfl
  | escape c h ih => rw [Balance.run_pair, ih]
  | char hquote hslash h ih =>
    rw [Balance.run_cons (Balance.step_inside depth q hslash),
      if_neg hquote, ih]

/-- A balanced text leaves the machine as it is. -/
theorem run_balancedText {s : Text} (h : BalancedText s) (depth : Nat) :
    Balance.run ⟨depth, none, false⟩ s = some ⟨depth, none, false⟩ := by
  induction h generalizing depth with
  | nil => rfl
  | escape c h ih => rw [Balance.run_pair, ih]
  | @string q s t hq hs ht ih =>
    have hclose : Balance.step ⟨depth, some q, false⟩ q =
        some ⟨depth, none, false⟩ := by
      rw [Balance.step_inside depth q (by rcases hq with rfl | rfl <;> decide),
        if_pos rfl]
    rw [Balance.run_cons (Balance.step_of_steps (.quote hq)),
      Balance.run_append, run_stringBody hs, Option.bind_some,
      Balance.run_cons hclose, ih]
  | parens hs ht ihs iht =>
    rw [Balance.run_cons (Balance.step_of_steps .opening), Balance.run_append,
      ihs, Option.bind_some,
      Balance.run_cons (Balance.step_of_steps (.closing rfl)), iht]
  | char hc h ih =>
    rw [Balance.run_cons (Balance.step_of_steps (.other hc)), ih]

/-- Parentheses that are not closed add to the count. -/
theorem run_openText {front : Text} (h : OpenText front) (depth : Nat) :
    ∃ depth', Balance.run ⟨depth, none, false⟩ front =
      some ⟨depth', none, false⟩ := by
  induction h generalizing depth with
  | balanced hs => exact ⟨depth, run_balancedText hs depth⟩
  | opening hs ht ih =>
    obtain ⟨depth', hrun⟩ := ih (depth + 1)
    refine ⟨depth', ?_⟩
    rw [Balance.run_append, run_balancedText hs, Option.bind_some,
      Balance.run_cons (Balance.step_of_steps .opening), hrun]

private theorem run_cutOff {tail : Text} (h : IsCutOff tail) (depth : Nat)
    (quote : Option Char) :
    ∃ escaped, Balance.run ⟨depth, quote, false⟩ tail =
      some ⟨depth, quote, escaped⟩ := by
  rcases h with rfl | rfl
  · exact ⟨false, rfl⟩
  · exact ⟨true, rfl⟩

private theorem exists_run_of_endsOutside {t : Text} (h : EndsOutside t) :
    ∃ depth escaped, ({} : Balance).run t = some ⟨depth, none, escaped⟩ := by
  obtain ⟨front, tail, hfront, htail, rfl⟩ := h
  obtain ⟨depth, hrun⟩ := run_openText hfront 0
  obtain ⟨escaped, hcut⟩ := run_cutOff htail depth none
  exact ⟨depth, escaped,
    by rw [Balance.run_append, hrun, Option.bind_some, hcut]⟩

private theorem exists_run_of_endsInString {t : Text} (h : EndsInString t) :
    ∃ depth q escaped,
      ({} : Balance).run t = some ⟨depth, some q, escaped⟩ := by
  obtain ⟨front, q, body, tail, hfront, hq, hbody, htail, rfl⟩ := h
  obtain ⟨depth, hrun⟩ := run_openText hfront 0
  obtain ⟨escaped, hcut⟩ := run_cutOff htail depth (some q)
  refine ⟨depth, q, escaped, ?_⟩
  rw [Balance.run_append, hrun, Option.bind_some,
    Balance.run_cons (Balance.step_of_steps (.quote hq)),
    Balance.run_append, run_stringBody hbody, Option.bind_some, hcut]

/-! ## What the reader answers -/

/-- The reader of an argument that is not closed comes to the end of the text,
and tells whether a string is open there. -/
theorem takeBalanced_of_run_end {depth : Nat} {quote : Option Char} {t : Text}
    {s : Balance} (h : (⟨depth, quote, false⟩ : Balance).run t = some s) :
    takeBalanced depth quote t =
      (.error (if s.quote.isSome then .openString else .unbalanced), []) := by
  fun_induction dangles t generalizing depth quote with
  | case1 =>
    cases h
    rfl
  | case2 =>
    cases h
    rfl
  | case3 c rest ih =>
    rw [takeBalanced, ih h]
    rfl
  | case4 c rest hlast hpair ih =>
    have hc := ne_backslash hlast hpair
    obtain ⟨s₁, hstep, hrest⟩ := Option.bind_eq_some_iff.mp h
    have hs : s₁ = ⟨s₁.depth, s₁.quote, false⟩ := by
      rw [← Balance.escaped_step hc hstep]
    rw [hs] at hrest
    rw [takeBalanced_cons hc, hstep, Option.elim_some, ih hrest]
    rfl

private theorem takeArgument_closed {raw : Text} (h : BalancedText raw)
    (rest : Text) :
    takeArgument (raw ++ ')' :: rest) = (.ok raw, rest) :=
  takeBalanced_of_run (run_balancedText h 0) rest

private theorem takeArgument_of_endsOutside {t : Text} (h : EndsOutside t) :
    takeArgument t = (.error .unbalanced, []) := by
  obtain ⟨depth, escaped, hrun⟩ := exists_run_of_endsOutside h
  exact takeBalanced_of_run_end hrun

private theorem takeArgument_of_endsInString {t : Text} (h : EndsInString t) :
    takeArgument t = (.error .openString, []) := by
  obtain ⟨depth, q, escaped, hrun⟩ := exists_run_of_endsInString h
  exact takeBalanced_of_run_end hrun

private theorem message_unbalanced_ne :
    ArgumentFault.unbalanced.message ≠ ArgumentFault.openString.message := by
  decide

namespace Cursor

/-- A cursor moved to the end of what lies ahead has passed the rest. -/
theorem moveTo_append {c : Cursor} {taken left : Text}
    (h : c.ahead = taken ++ left) :
    c.moveTo left = ⟨taken.reverse ++ c.behind, left⟩ := by
  simp [moveTo, h]

private theorem argument_closed {c : Cursor} {raw rest : Text}
    (hraw : BalancedText raw) (h : c.ahead = raw ++ ')' :: rest) :
    c.argument = (.ok raw, ⟨(raw ++ ")").reverse ++ c.behind, rest⟩) := by
  have htaken : c.ahead = (raw ++ ")") ++ rest := by simp [h]
  rw [← moveTo_append htaken, argument, h, takeArgument_closed hraw]
  rfl

private theorem argument_failed {c : Cursor} {fault : ArgumentFault}
    (h : takeArgument c.ahead = (.error fault, [])) :
    c.argument = (.error ⟨c.position - 1, .argument fault⟩,
      ⟨c.ahead.reverse ++ c.behind, []⟩) := by
  rw [← moveTo_append (List.append_nil c.ahead).symm, argument, h]
  rfl

/-- An argument is taken, as it is written, exactly if it is in the grammar and
a parenthesis follows it. There is at most one such argument, and the cursor
then stands behind its parenthesis. Without one the cursor stands at the end,
and the message of the error tells whether the text ends inside a string. -/
theorem argument_eq_ok_iff_balancedText (c : Cursor) :
    (∀ raw, c.argument.1 = .ok raw ↔
      BalancedText raw ∧ ∃ rest, c.ahead = raw ++ ')' :: rest) ∧
    (∀ raw rest, BalancedText raw → c.ahead = raw ++ ')' :: rest →
      c.argument.2 = ⟨(raw ++ ")").reverse ++ c.behind, rest⟩ ∧
        ∀ raw' rest', BalancedText raw' → c.ahead = raw' ++ ')' :: rest' →
          raw' = raw ∧ rest' = rest) ∧
    ((∀ raw rest, BalancedText raw → c.ahead ≠ raw ++ ')' :: rest) →
      ∃ e : ParseError, c.argument =
        (.error e, ⟨c.ahead.reverse ++ c.behind, []⟩) ∧
        e.position = c.position - 1 ∧
        (e.problem.message = "unterminated string in argument" ↔
          EndsInString c.ahead) ∧
        (e.problem.message = "unbalanced parentheses" ↔
          EndsOutside c.ahead)) := by
  refine ⟨fun raw => ⟨fun hok => ?_, ?_⟩, fun raw rest hraw hahead => ⟨?_, ?_⟩,
    fun hnone => ?_⟩
  · cases argumentShape c.ahead with
    | closed hraw hahead =>
      rw [argument_closed hraw hahead] at hok
      cases hok
      exact ⟨hraw, _, hahead⟩
    | outside hends =>
      rw [argument_failed (takeArgument_of_endsOutside hends)] at hok
      cases hok
    | inString hends =>
      rw [argument_failed (takeArgument_of_endsInString hends)] at hok
      cases hok
  · rintro ⟨hraw, rest, hahead⟩
    rw [argument_closed hraw hahead]
  · rw [argument_closed hraw hahead]
  · intro raw' rest' hraw' hahead'
    have htaken := takeArgument_closed hraw' rest'
    rw [← hahead', hahead, takeArgument_closed hraw] at htaken
    cases htaken
    exact ⟨rfl, rfl⟩
  · cases argumentShape c.ahead with
    | closed hraw hahead => exact absurd hahead (hnone _ _ hraw)
    | outside hends =>
      have htaken := takeArgument_of_endsOutside hends
      refine ⟨_, argument_failed htaken, rfl,
        ⟨fun h => absurd h message_unbalanced_ne, fun hin => ?_⟩,
        iff_of_true rfl hends⟩
      cases htaken.symm.trans (takeArgument_of_endsInString hin)
    | inString hends =>
      have htaken := takeArgument_of_endsInString hends
      refine ⟨_, argument_failed htaken, rfl, iff_of_true rfl hends,
        ⟨fun h => absurd h message_unbalanced_ne.symm, fun hout => ?_⟩⟩
      cases htaken.symm.trans (takeArgument_of_endsOutside hout)

/-- A parenthesis that is escaped, parentheses and an escaped quote in a string,
and parentheses around a string; and a string that is cut off in an escape, with
a parenthesis open around it. -/
theorem argument_eq_ok_iff_balancedText_cutOff :
    BalancedText "a\\)')(\\''(\"\")" ∧
      (Cursor.mk "(" "a\\)')(\\''(\"\"))b)").argument.1 =
        .ok "a\\)')(\\''(\"\")" ∧
      EndsInString "a('b)\\" ∧
      ∃ e : ParseError, (Cursor.mk "(" "a('b)\\").argument =
        (.error e, ⟨"\\)b'(a(", []⟩) ∧ e.position = 0 ∧
        e.problem.message = "unterminated string in argument" := by
  have hraw : BalancedText "a\\)')(\\''(\"\")" := by
    refine .char (by decide) (.escape ')' ?_)
    refine @BalancedText.string '\'' ")(\\'" "(\"\")" (.inr rfl) ?_ ?_
    · exact .char (by decide) (by decide)
        (.char (by decide) (by decide) (.escape '\'' .nil))
    · exact @BalancedText.parens "\"\"" []
        (@BalancedText.string '"' [] [] (.inl rfl) .nil .nil) .nil
  have hends : EndsInString "a('b)\\" := by
    refine ⟨"a(", '\'', "b)", "\\", ?_, .inr rfl, ?_, .inr rfl, rfl⟩
    · exact @OpenText.opening "a" [] (.char (by decide) .nil) (.balanced .nil)
    · exact .char (by decide) (by decide) (.char (by decide) (by decide) .nil)
  obtain ⟨hok, -, -⟩ :=
    argument_eq_ok_iff_balancedText ⟨"(", "a\\)')(\\''(\"\"))b)"⟩
  obtain ⟨-, -, hfailed⟩ := argument_eq_ok_iff_balancedText ⟨"(", "a('b)\\"⟩
  have hnone : ∀ raw rest, BalancedText raw →
      ("a('b)\\" : Text) ≠ raw ++ ')' :: rest := by
    intro raw rest hraw heq
    have htaken := takeArgument_closed hraw rest
    rw [← heq, takeArgument_of_endsInString hends] at htaken
    cases htaken
  obtain ⟨e, herror, hposition, hmessage, -⟩ := hfailed hnone
  exact ⟨hraw, (hok _).mpr ⟨hraw, "b)", rfl⟩, hends, e, herror, hposition,
    hmessage.mpr hends⟩

end Cursor

end SelectorPath.Selector
