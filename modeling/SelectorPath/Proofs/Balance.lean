import SelectorPath.Proofs.Trimming
import SelectorPath.Selector.Lexeme

/-!
# Balanced arguments

An argument in parentheses is taken as it is written, up to the parenthesis that
closes it. The reader counts parentheses, skips strings, and lets a backslash
take the next character with it, whatever that is. `Balance` is its state, and
`takeArgument` is a run of that machine: an argument is taken exactly if it
brings the machine back to where it started.

An argument is trimmed afterwards, and trimming knows no escapes: a blank at the
end goes also where a backslash had taken it. The backslash then dangles, and
one blank behind it makes the text balanced again.

## Main results

* `takeArgument_eq_ok_iff`: an argument is taken if it is balanced and a
  parenthesis follows it.
* `isBalanced_append`, `isBalanced_parens`: how balanced texts are made.
* `run_trim`: what trimming leaves of a balanced text.
-/

namespace SelectorPath.Selector

open SelectorPath.Text (isSelectorBlank trimBy)

/-! ## Dangling backslashes -/

/-- Whether a text ends with a backslash that has no character to take. -/
def dangles : Text → Bool
  | [] => false
  | ['\\'] => true
  | '\\' :: _ :: rest => dangles rest
  | _ :: rest => dangles rest

/-- A character that is no backslash decides nothing about a lone one at the
end. -/
theorem dangles_cons {c : Char} (h : c ≠ '\\') (rest : Text) :
    dangles (c :: rest) = dangles rest := by
  rw [dangles]
  · intro hc
    exact absurd hc h
  · intro d more hc
    exact absurd hc h

/-- What is neither a last backslash nor one in front of a character is no
backslash. -/
theorem ne_backslash {c : Char} {rest : Text}
    (hlast : c = '\\' → rest = [] → False)
    (hpair : ∀ d more, c = '\\' → rest = d :: more → False) : c ≠ '\\' := by
  intro hc
  cases rest with
  | nil => exact hlast hc rfl
  | cons d more => exact hpair d more hc rfl

/-- Behind a text that does not dangle, backslashes pair up as if it were not
there. -/
theorem dangles_append {a : Text} (h : dangles a = false) (b : Text) :
    dangles (a ++ b) = dangles b := by
  fun_induction dangles a with
  | case1 => rfl
  | case2 => simp at h
  | case3 c rest ih => exact ih h
  | case4 c rest hlast hpair ih =>
    rw [List.cons_append, dangles_cons (ne_backslash hlast hpair)]
    exact ih h

/-- A last character other than a backslash is taken, or stands alone. -/
theorem dangles_concat (a : Text) {c : Char} (h : c ≠ '\\') :
    dangles (a ++ [c]) = false := by
  fun_induction dangles a with
  | case1 => exact dangles_cons h []
  | case2 => rfl
  | case3 d rest ih => exact ih
  | case4 d rest hlast hpair ih =>
    rw [List.cons_append, dangles_cons (ne_backslash hlast hpair)]
    exact ih

/-! ## The machine -/

/-- Where the reader of an argument stands: how many parentheses are open, the
quote of an open string, and whether a backslash waits for the character that it
takes. -/
structure Balance where
  depth : Nat := 0
  quote : Option Char := none
  escaped : Bool := false
deriving DecidableEq, Repr

namespace Balance

/-- Read a character outside of strings; nothing at a parenthesis that was not
opened. -/
def stepOutside (depth : Nat) (c : Char) : Option Balance :=
  if c = '"' ∨ c = '\'' then some ⟨depth, some c, false⟩
  else if c = '(' then some ⟨depth + 1, none, false⟩
  else if c = ')' then
    match depth with
    | 0 => none
    | depth + 1 => some ⟨depth, none, false⟩
  else some ⟨depth, none, false⟩

/-- Read a character. -/
def step (s : Balance) (c : Char) : Option Balance :=
  if s.escaped then some ⟨s.depth, s.quote, false⟩
  else if c = '\\' then some ⟨s.depth, s.quote, true⟩
  else match s.quote with
    | some q => some ⟨s.depth, if c = q then none else some q, false⟩
    | none => stepOutside s.depth c

/-- Read a text. -/
def run (s : Balance) : Text → Option Balance
  | [] => some s
  | c :: rest => (s.step c).bind fun s' => s'.run rest

/-- The reader of arguments goes through the parts of a text one after the
other. -/
theorem run_append (s : Balance) (a b : Text) :
    s.run (a ++ b) = (s.run a).bind fun s' => s'.run b := by
  induction a generalizing s with
  | nil => rfl
  | cons c a ih =>
    show ((s.step c).bind fun s' => s'.run (a ++ b)) =
        ((s.step c).bind fun s' => s'.run a).bind _
    cases s.step c with
    | none => rfl
    | some s' => exact ih s'

/-- The reader of arguments takes one character at a time. -/
theorem run_cons {s s' : Balance} {c : Char} (h : s.step c = some s')
    (rest : Text) :
    s.run (c :: rest) = s'.run rest := by
  rw [run, h, Option.bind_some]

/-- A backslash takes the next character with it. -/
theorem run_pair (depth : Nat) (quote : Option Char) (c : Char) (rest : Text) :
    run ⟨depth, quote, false⟩ ('\\' :: c :: rest) =
      run ⟨depth, quote, false⟩ rest :=
  rfl

/-- Inside a string only its quote counts. -/
theorem step_inside (depth : Nat) (q : Char) {c : Char} (h : c ≠ '\\') :
    step ⟨depth, some q, false⟩ c =
      some ⟨depth, if c = q then none else some q, false⟩ := by
  simp [step, h]

private theorem step_outside (depth : Nat) {c : Char} (h : c ≠ '\\') :
    step ⟨depth, none, false⟩ c = stepOutside depth c := by
  simp [step, h]

/-- Whether a character means nothing to the reader of an argument. -/
def isInert (c : Char) : Bool :=
  c != '\\' && c != '"' && c != '\'' && c != '(' && c != ')'

/-- A character that means nothing is taken by a waiting backslash, or else
skipped. -/
theorem step_inert (s : Balance) {c : Char} (h : isInert c = true)
    (hq : s.quote ≠ some c) :
    s.step c = some ⟨s.depth, s.quote, false⟩ := by
  obtain ⟨depth, quote, escaped⟩ := s
  simp only [isInert, Bool.and_eq_true, bne_iff_ne] at h
  obtain ⟨⟨⟨⟨hslash, hdouble⟩, hsingle⟩, hopen⟩, hclose⟩ := h
  cases escaped with
  | true => rfl
  | false =>
    cases quote with
    | none => simp [step, stepOutside, hslash, hdouble, hsingle, hopen, hclose]
    | some q =>
      have hcq : c ≠ q := fun hcq => hq (congrArg some hcq.symm)
      simp [step, hslash, hcq]

/-- The machine stops only at a parenthesis, in the state that it starts in. -/
theorem step_eq_none {depth : Nat} {quote : Option Char} {c : Char}
    (h : step ⟨depth, quote, false⟩ c = none) :
    c = ')' ∧ (⟨depth, quote, false⟩ : Balance) = {} := by
  by_cases hslash : c = '\\'
  · simp [step, hslash] at h
  · cases quote with
    | some q => simp [step_inside depth q hslash] at h
    | none =>
      rw [step_outside depth hslash] at h
      unfold stepOutside at h
      split at h
      · simp at h
      · split at h
        · simp at h
        · split at h
          · rename_i hclose
            cases depth with
            | zero => exact ⟨hclose, rfl⟩
            | succ depth => simp at h
          · simp at h

/-- What a character does where no backslash waits for it. -/
inductive Steps (depth : Nat) : Option Char → Char → Balance → Prop
  | slash (quote : Option Char) : Steps depth quote '\\' ⟨depth, quote, true⟩
  | inside (q : Char) {c : Char} (hc : c ≠ '\\') :
    Steps depth (some q) c ⟨depth, if c = q then none else some q, false⟩
  | quote {c : Char} (hc : c = '"' ∨ c = '\'') :
    Steps depth none c ⟨depth, some c, false⟩
  | opening : Steps depth none '(' ⟨depth + 1, none, false⟩
  | closing {below : Nat} (hdepth : depth = below + 1) :
    Steps depth none ')' ⟨below, none, false⟩
  | other {c : Char} (hc : isInert c = true) :
    Steps depth none c ⟨depth, none, false⟩

private theorem steps_of_step {depth : Nat} {quote : Option Char} {c : Char}
    {s : Balance} (h : step ⟨depth, quote, false⟩ c = some s) :
    Steps depth quote c s := by
  by_cases hslash : c = '\\'
  · subst hslash
    cases h
    exact .slash quote
  cases quote with
  | some q =>
    rw [step_inside depth q hslash] at h
    cases h
    exact .inside q hslash
  | none =>
    rw [step_outside depth hslash] at h
    unfold stepOutside at h
    split at h
    · rename_i hquote
      cases h
      exact .quote hquote
    · rename_i hquote
      split at h
      · rename_i hopen
        subst hopen
        cases h
        exact .opening
      · rename_i hopen
        split at h
        · rename_i hclose
          subst hclose
          cases depth with
          | zero => cases h
          | succ below =>
            cases h
            exact .closing rfl
        · rename_i hclose
          cases h
          refine .other ?_
          rw [not_or] at hquote
          simp [isInert, hslash, hquote, hopen, hclose]

/-- The relation on steps tells what the reader of arguments does. -/
theorem step_of_steps {depth : Nat} {quote : Option Char} {c : Char}
    {s : Balance} (h : Steps depth quote c s) :
    step ⟨depth, quote, false⟩ c = some s := by
  cases h with
  | slash quote => rfl
  | inside q hc => exact step_inside depth q hc
  | quote hc => rcases hc with rfl | rfl <;> rfl
  | opening => rfl
  | closing hdepth =>
    rw [hdepth]
    rfl
  | other hc => exact step_inert _ hc (by rintro ⟨⟩)

/-- Reading a character other than a backslash does not leave one waiting. -/
theorem escaped_step {depth : Nat} {quote : Option Char} {c : Char}
    {s : Balance} (h : c ≠ '\\')
    (hstep : step ⟨depth, quote, false⟩ c = some s) : s.escaped = false := by
  cases steps_of_step hstep with
  | slash quote => exact absurd rfl h
  | inside q hc => rfl
  | quote hc => rfl
  | opening => rfl
  | closing hdepth => rfl
  | other hc => rfl

/-- A backslash waits behind a text exactly if the text dangles. -/
theorem escaped_run {s s' : Balance} {t : Text} (hs : s.escaped = false)
    (h : s.run t = some s') :
    s'.escaped = dangles t := by
  fun_induction dangles t generalizing s with
  | case1 =>
    cases h
    exact hs
  | case2 =>
    obtain ⟨depth, quote, escaped⟩ := s
    cases hs
    cases h
    rfl
  | case3 c rest ih =>
    obtain ⟨depth, quote, escaped⟩ := s
    cases hs
    exact ih rfl h
  | case4 c rest hlast hpair ih =>
    obtain ⟨depth, quote, escaped⟩ := s
    cases hs
    obtain ⟨s₁, hstep, hrest⟩ := Option.bind_eq_some_iff.mp h
    exact ih (escaped_step (ne_backslash hlast hpair) hstep) hrest

end Balance

/-! ## Taking an argument -/

/-- What the reader of an argument does with a character other than a
backslash. -/
theorem takeBalanced_cons {c : Char} (h : c ≠ '\\') (depth : Nat)
    (quote : Option Char) (rest : Text) :
    takeBalanced depth quote (c :: rest) =
      (Balance.step ⟨depth, quote, false⟩ c).elim (.ok [], rest)
        fun s => prepend c (takeBalanced s.depth s.quote rest) := by
  cases quote with
  | some q =>
    rw [Balance.step_inside depth q h]
    simp [takeBalanced, h]
  | none =>
    rw [Balance.step_outside depth h]
    by_cases hquote : c = '"' ∨ c = '\''
    · cases depth <;> simp [takeBalanced, Balance.stepOutside, h, hquote]
    by_cases hopen : c = '('
    · cases depth <;> simp [takeBalanced, Balance.stepOutside, hopen]
    by_cases hclose : c = ')'
    · cases depth <;> simp [takeBalanced, Balance.stepOutside, hclose]
    · cases depth <;> simp [takeBalanced, Balance.stepOutside, h, hquote, hopen,
          hclose]

/-- What is taken runs back to the state in which the next parenthesis
closes. -/
theorem run_of_takeBalanced {depth : Nat} {quote : Option Char}
    {ahead raw left : Text}
    (h : takeBalanced depth quote ahead = (.ok raw, left)) :
    (⟨depth, quote, false⟩ : Balance).run raw = some {} := by
  fun_induction dangles ahead generalizing depth quote raw with
  | case1 => simp [takeBalanced] at h
  | case2 => simp [takeBalanced] at h
  | case3 c rest ih =>
    rw [takeBalanced] at h
    obtain ⟨t, ht, rfl⟩ := prepend_eq_ok h
    obtain ⟨t', ht', rfl⟩ := prepend_eq_ok ht
    rw [Balance.run_pair]
    exact ih ht'
  | case4 c rest hlast hpair ih =>
    have hc := ne_backslash hlast hpair
    rw [takeBalanced_cons hc] at h
    cases hstep : Balance.step ⟨depth, quote, false⟩ c with
    | none =>
      simp only [hstep, Option.elim_none, Prod.mk.injEq, Except.ok.injEq] at h
      rw [← h.1]
      exact congrArg some (Balance.step_eq_none hstep).2
    | some s =>
      simp only [hstep, Option.elim_some] at h
      obtain ⟨t, ht, rfl⟩ := prepend_eq_ok h
      have hs : s = ⟨s.depth, s.quote, false⟩ := by
        rw [← Balance.escaped_step hc hstep]
      rw [Balance.run_cons hstep, hs]
      exact ih ht

/-- A text that runs back to that state is taken, whatever follows its
parenthesis. -/
theorem takeBalanced_of_run {depth : Nat} {quote : Option Char} {raw : Text}
    (h : (⟨depth, quote, false⟩ : Balance).run raw = some {}) (left : Text) :
    takeBalanced depth quote (raw ++ ')' :: left) = (.ok raw, left) := by
  fun_induction dangles raw generalizing depth quote with
  | case1 =>
    cases h
    rfl
  | case2 => simp [Balance.run, Balance.step] at h
  | case3 c rest ih =>
    rw [List.cons_append, List.cons_append, takeBalanced, ih h]
    rfl
  | case4 c rest hlast hpair ih =>
    have hc := ne_backslash hlast hpair
    obtain ⟨s, hstep, hrest⟩ := Option.bind_eq_some_iff.mp h
    have hs : s = ⟨s.depth, s.quote, false⟩ := by
      rw [← Balance.escaped_step hc hstep]
    rw [hs] at hrest
    rw [List.cons_append, takeBalanced_cons hc, hstep]
    show prepend c (takeBalanced s.depth s.quote (rest ++ ')' :: left)) = _
    rw [ih hrest]
    rfl

/-- Whether a text can stand in parentheses: its own balance, and neither a
string nor an escape is open at its end. -/
def IsBalanced (t : Text) : Prop :=
  takeArgument (t ++ ")") = (.ok t, [])

/-- A text is balanced if the reader of arguments ends as it started. -/
theorem isBalanced_iff_run {t : Text} :
    IsBalanced t ↔ ({} : Balance).run t = some {} :=
  ⟨run_of_takeBalanced, fun h => takeBalanced_of_run h []⟩

/-- An argument is taken exactly if it is balanced and a parenthesis follows
it. -/
theorem takeArgument_eq_ok_iff {ahead raw left : Text} :
    takeArgument ahead = (.ok raw, left) ↔
      ahead = raw ++ ')' :: left ∧ IsBalanced raw := by
  constructor
  · intro h
    exact ⟨takeBalanced_eq_ok h, isBalanced_iff_run.mpr (run_of_takeBalanced h)⟩
  · intro h
    rw [h.1]
    exact takeBalanced_of_run (isBalanced_iff_run.mp h.2) left

/-! ## Making balanced texts -/

/-- Balanced texts can stand one behind the other for the reader of arguments.
-/
theorem isBalanced_append {a b : Text} (ha : IsBalanced a) (hb : IsBalanced b) :
    IsBalanced (a ++ b) := by
  rw [isBalanced_iff_run] at ha hb ⊢
  rw [Balance.run_append, ha]
  exact hb

/-- Parentheses that are open around a text do not matter to it. -/
theorem Balance.step_frame {s s' : Balance} {c : Char} (below : Nat)
    (h : s.step c = some s') :
    Balance.step ⟨s.depth + below, s.quote, s.escaped⟩ c =
      some ⟨s'.depth + below, s'.quote, s'.escaped⟩ := by
  obtain ⟨depth, quote, escaped⟩ := s
  cases escaped with
  | true =>
    cases h
    rfl
  | false =>
    apply step_of_steps
    cases steps_of_step h with
    | slash quote => exact .slash quote
    | inside q hc => exact .inside q hc
    | quote hc => exact .quote hc
    | opening =>
      rw [Nat.add_right_comm]
      exact .opening
    | closing hdepth => exact .closing (by rw [hdepth, Nat.add_right_comm])
    | other hc => exact .other hc

/-- Parentheses that are open further out change nothing. -/
theorem Balance.run_frame {s s' : Balance} {t : Text} (below : Nat)
    (h : s.run t = some s') :
    Balance.run ⟨s.depth + below, s.quote, s.escaped⟩ t =
      some ⟨s'.depth + below, s'.quote, s'.escaped⟩ := by
  induction t generalizing s with
  | nil =>
    cases h
    rfl
  | cons c rest ih =>
    obtain ⟨s₁, hstep, hrest⟩ := Option.bind_eq_some_iff.mp h
    rw [run_cons (step_frame below hstep)]
    exact ih hrest

/-- A balanced text stays balanced in parentheses. -/
theorem isBalanced_parens {t : Text} (h : IsBalanced t) :
    IsBalanced ('(' :: t ++ ")") := by
  rw [isBalanced_iff_run] at h ⊢
  show Balance.run ⟨1, none, false⟩ (t ++ ")") = some {}
  have hinner : Balance.run ⟨1, none, false⟩ t = some ⟨1, none, false⟩ :=
    Balance.run_frame 1 h
  rw [Balance.run_append, hinner]
  rfl

/-! ## Blanks -/

/-- Blanks mean nothing to the reader of arguments. -/
theorem isInert_of_isSelectorBlank {c : Char} (h : isSelectorBlank c = true) :
    Balance.isInert c = true := by
  simp only [isSelectorBlank, Bool.or_eq_true, beq_iff_eq] at h
  rcases h with (((rfl | rfl) | rfl) | rfl) | rfl <;> rfl

/-- No blank opens a string, so none closes one. -/
theorem Balance.quote_step {s s' : Balance} {c : Char} (h : s.step c = some s')
    (hs : s.quote.all (fun q => !isSelectorBlank q) = true) :
    s'.quote.all (fun q => !isSelectorBlank q) = true := by
  obtain ⟨depth, quote, escaped⟩ := s
  cases escaped with
  | true =>
    cases h
    exact hs
  | false =>
    cases steps_of_step h with
    | slash quote => exact hs
    | inside q hc =>
      by_cases hq : c = q
      · simp [hq]
      · simpa [hq] using hs
    | quote hc => rcases hc with rfl | rfl <;> rfl
    | opening => rfl
    | closing hdepth => rfl
    | other hc => rfl

private theorem Balance.quote_run {s s' : Balance} {t : Text}
    (h : s.run t = some s')
    (hs : s.quote.all (fun q => !isSelectorBlank q) = true) :
    s'.quote.all (fun q => !isSelectorBlank q) = true := by
  induction t generalizing s with
  | nil =>
    cases h
    exact hs
  | cons c rest ih =>
    obtain ⟨s₁, hstep, hrest⟩ := Option.bind_eq_some_iff.mp h
    exact ih hrest (quote_step hstep hs)

/-- Blanks are taken by a waiting backslash, or else skipped. -/
theorem Balance.run_blanks {s : Balance}
    (hs : s.quote.all (fun q => !isSelectorBlank q) = true) {w : Text}
    (h : w.all isSelectorBlank = true) (hne : w ≠ []) :
    s.run w = some ⟨s.depth, s.quote, false⟩ := by
  induction w generalizing s with
  | nil => exact absurd rfl hne
  | cons c rest ih =>
    rw [List.all_cons, Bool.and_eq_true] at h
    have hquote : s.quote ≠ some c := by
      intro hc
      rw [hc, Option.all_some, h.1] at hs
      exact absurd hs (by decide)
    rw [run_cons (step_inert s (isInert_of_isSelectorBlank h.1) hquote)]
    cases rest with
    | nil => rfl
    | cons d rest => exact ih hs h.2 (List.cons_ne_nil d rest)

/-- Trimming leaves of a balanced text a text that is balanced but for a
backslash that has lost its blank. -/
theorem run_trim {raw : Text} (h : IsBalanced raw) :
    ({} : Balance).run (trimBy isSelectorBlank raw) =
      some ⟨0, none, dangles (trimBy isSelectorBlank raw)⟩ := by
  obtain ⟨before, after, hbefore, hafter, hraw⟩ :=
    Text.exists_trimBy isSelectorBlank raw
  generalize trimBy isSelectorBlank raw = core at hraw
  rw [isBalanced_iff_run, hraw, Balance.run_append] at h
  have hstart : ({} : Balance).run before = some {} := by
    by_cases hne : before = []
    · rw [hne]
      rfl
    · exact Balance.run_blanks rfl hbefore hne
  rw [hstart, Option.bind_some, Balance.run_append] at h
  obtain ⟨s, hcore, hend⟩ := Option.bind_eq_some_iff.mp h
  rw [hcore, ← Balance.escaped_run rfl hcore]
  obtain ⟨depth, quote, escaped⟩ := s
  by_cases hne : after = []
  · rw [hne] at hend
    cases hend
    rfl
  · rw [Balance.run_blanks (Balance.quote_run hcore rfl) hafter hne] at hend
    cases hend
    rfl

/-- A text that ends with nothing open and no lone backslash is balanced. -/
theorem isBalanced_of_run {t : Text}
    (h : ({} : Balance).run t = some ⟨0, none, dangles t⟩)
    (hend : dangles t = false) : IsBalanced t := by
  rw [isBalanced_iff_run, h, hend]

/-- A blank behind a dangling backslash balances the text again. -/
theorem isBalanced_space_of_run {t : Text}
    (h : ({} : Balance).run t = some ⟨0, none, dangles t⟩) :
    IsBalanced (t ++ " ") := by
  rw [isBalanced_iff_run, Balance.run_append, h]
  exact Balance.run_blanks rfl (by decide) (by decide)

/-- A blank balances no text but one that dangles. -/
theorem isBalanced_of_space {t : Text} (h : IsBalanced (t ++ " "))
    (hend : dangles t = false) :
    IsBalanced t := by
  rw [isBalanced_iff_run, Balance.run_append] at h
  obtain ⟨s, hrun, hspace⟩ := Option.bind_eq_some_iff.mp h
  rw [Balance.run_blanks (Balance.quote_run hrun rfl) (by decide) (by decide)]
    at hspace
  have hescaped := Balance.escaped_run rfl hrun
  obtain ⟨depth, quote, escaped⟩ := s
  cases hspace
  rw [isBalanced_iff_run, hrun, ← hend, ← hescaped]

/-- A balanced text ends in no lone backslash. -/
theorem dangles_of_isBalanced {t : Text} (h : IsBalanced t) :
    dangles t = false :=
  (Balance.escaped_run rfl (isBalanced_iff_run.mp h)).symm

end SelectorPath.Selector
