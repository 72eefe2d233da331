import SelectorPath.Error
import SelectorPath.Text.Blank
import SelectorPath.Text.Hex

/-!
# Lexemes of a selector

The pieces that a selector is read from: names with escapes, quoted strings, and
arguments in parentheses. Each reader takes the text that lies ahead and gives
what it read together with the text that is left, also where it fails.

## Main results

* `length_escaped_le`, `length_takeName_le`, `length_takeString_le`: a reader
  never lengthens what lies ahead.
* `length_takeName_lt`: where a name starts, reading it takes at least one
  character.
* `length_takeArgument`: an argument and its closing parenthesis are exactly
  what is taken.
-/

namespace SelectorPath.Selector

open SelectorPath.Text (isSelectorBlank isHexDigit hexNumber)

/-! ## Characters of a name -/

/-- Whether a name can start with the character. -/
def isNameStart (c : Char) : Bool :=
  c.isAlpha || c == '_' || 0x80 ≤ c.toNat

/-- Whether the character can stand in a name. -/
def isNameChar (c : Char) : Bool :=
  isNameStart c || c.isDigit || c == '-'

/-! ## Escapes -/

/-- Whether an escape lies ahead: a backslash in front of any character but a
newline. -/
def startsEscape : Text → Bool
  | '\\' :: c :: _ => c != '\n'
  | _ => false

/-- Whether a name lies ahead. -/
def startsName : Text → Bool
  | '-' :: c :: rest => isNameStart c || c == '-' || startsEscape (c :: rest)
  | c :: rest => isNameStart c || startsEscape (c :: rest)
  | [] => false

/-- The longest run of at most `n` characters satisfying `p`, and what follows
it. -/
def takeUpTo (p : Char → Bool) : (n : Nat) → Text → Text × Text
  | 0, ahead => ([], ahead)
  | _ + 1, [] => ([], [])
  | n + 1, c :: rest =>
    if p c then ((takeUpTo p n rest).1.cons c, (takeUpTo p n rest).2)
    else ([], c :: rest)

/-- The text without its first character where that is blank. -/
def skipOneBlank : Text → Text
  | [] => []
  | c :: rest => if isSelectorBlank c then rest else c :: rest

/-- The character with the given number; zero and numbers that are no character
give the replacement character. -/
def codePoint (n : Nat) : Char :=
  if h : n.isValidChar ∧ n ≠ 0 then Char.ofNatAux n h.1 else '\uFFFD'

/-- What follows the backslash of an escape: up to six hexadecimal digits and
one blank after them, or the character itself. -/
def escaped : Text → Char × Text
  | [] => ('\uFFFD', [])
  | c :: rest =>
    if isHexDigit c then
      let (digits, left) := takeUpTo isHexDigit 5 rest
      (codePoint (hexNumber (c :: digits)), skipOneBlank left)
    else (c, rest)

private theorem length_takeUpTo_le (p : Char → Bool) (n : Nat) (ahead : Text) :
    (takeUpTo p n ahead).2.length ≤ ahead.length := by
  induction n generalizing ahead with
  | zero => simp [takeUpTo]
  | succ n ih =>
    cases ahead with
    | nil => simp [takeUpTo]
    | cons c rest =>
      rw [takeUpTo]
      split
      · have h := ih rest
        simp only [List.length_cons]
        omega
      · simp

private theorem length_skipOneBlank_le (ahead : Text) :
    (skipOneBlank ahead).length ≤ ahead.length := by
  cases ahead with
  | nil => simp [skipOneBlank]
  | cons c rest =>
    rw [skipOneBlank]
    split <;> simp

/-- An escape takes no more than what lies ahead. -/
theorem length_escaped_le (ahead : Text) :
    (escaped ahead).2.length ≤ ahead.length := by
  cases ahead with
  | nil => simp [escaped]
  | cons c rest =>
    rw [escaped]
    split
    · have h1 := length_takeUpTo_le isHexDigit 5 rest
      have h2 := length_skipOneBlank_le (takeUpTo isHexDigit 5 rest).2
      simp only [List.length_cons]
      omega
    · simp

/-! ## Names -/

/-- The name that lies ahead, with its escapes replaced, and what follows it. -/
def takeName : Text → Text × Text
  | [] => ([], [])
  | c :: rest =>
    if isNameChar c then
      let (name, left) := takeName rest
      (c :: name, left)
    else if startsEscape (c :: rest) then
      let (name, left) := takeName (escaped rest).2
      ((escaped rest).1 :: name, left)
    else ([], c :: rest)
termination_by ahead => ahead.length
decreasing_by
  · simp
  · have h := length_escaped_le rest
    simp only [List.length_cons]
    omega

/-- A name takes no more than what lies ahead. -/
theorem length_takeName_le (ahead : Text) :
    (takeName ahead).2.length ≤ ahead.length := by
  fun_induction takeName ahead with
  | case1 => simp
  | case2 c rest _ name left h ih =>
    simp only [h] at ih
    simp only [List.length_cons]
    omega
  | case3 c rest _ _ name left h ih =>
    simp only [h] at ih
    have he := length_escaped_le rest
    simp only [List.length_cons]
    omega
  | case4 => simp

/-- A name that starts takes at least one character. -/
theorem length_takeName_lt {ahead : Text} (h : startsName ahead = true) :
    (takeName ahead).2.length < ahead.length := by
  cases ahead with
  | nil => simp [startsName] at h
  | cons c rest =>
    rw [takeName]
    split
    · have hl := length_takeName_le rest
      simp only [List.length_cons]
      omega
    · rename_i hc
      split
      · have hl := length_takeName_le (escaped rest).2
        have he := length_escaped_le rest
        simp only [List.length_cons]
        omega
      · rename_i he
        exfalso
        simp only [isNameChar, Bool.or_eq_true, beq_iff_eq, not_or] at hc
        unfold startsName at h
        split at h
        · rename_i heq
          injection heq with hdash
          exact hc.2 hdash
        · simp_all
        · simp_all

/-! ## Quoted strings -/

/-- Add a character in front of what was read. -/
def prepend {ε : Type} (c : Char) : Except ε Text × Text → Except ε Text × Text
  | (.ok t, left) => (.ok (c :: t), left)
  | (.error e, left) => (.error e, left)

/-- The string that lies ahead, up to and without its closing quote; a backslash
in front of a newline joins two lines. -/
def takeString (quote : Char) : Text → Except StringFault Text × Text
  | [] => (.error .unterminated, [])
  | c :: rest =>
    if c = quote then (.ok [], rest)
    else if c = '\n' then (.error .newline, rest)
    else if c = '\\' then
      match rest with
      | [] => (.error .unterminated, [])
      | '\n' :: rest => takeString quote rest
      | d :: rest =>
        prepend (escaped (d :: rest)).1
          (takeString quote (escaped (d :: rest)).2)
    else prepend c (takeString quote rest)
termination_by ahead => ahead.length
decreasing_by
  · simp only [List.length_cons]
    omega
  · have h := length_escaped_le (d :: rest)
    simp only [List.length_cons] at h ⊢
    omega
  · simp

@[simp]
theorem prepend_snd {ε : Type} (c : Char) (r : Except ε Text × Text) :
    (prepend c r).2 = r.2 := by
  obtain ⟨r, left⟩ := r
  cases r <;> rfl

/-- A text with a character in front comes from the text without it. -/
theorem prepend_eq_ok {ε : Type} {c : Char} {r : Except ε Text × Text}
    {t left : Text} (h : prepend c r = (.ok t, left)) :
    ∃ t', r = (.ok t', left) ∧ t = c :: t' := by
  obtain ⟨r, left'⟩ := r
  cases r with
  | error e => simp [prepend] at h
  | ok t' =>
    simp only [prepend, Prod.mk.injEq, Except.ok.injEq] at h
    exact ⟨t', by simp [h.2], h.1.symm⟩

/-- A string takes no more than what lies ahead. -/
theorem length_takeString_le (quote : Char) (ahead : Text) :
    (takeString quote ahead).2.length ≤ ahead.length := by
  fun_induction takeString quote ahead with
  | case1 => simp
  | case2 => simp
  | case3 => simp
  | case4 => simp
  | case5 =>
    simp only [List.length_cons]
    omega
  | case6 d rest _ _ _ ih =>
    have h := length_escaped_le (d :: rest)
    simp only [prepend_snd, List.length_cons] at ih h ⊢
    omega
  | case7 =>
    simp only [prepend_snd, List.length_cons]
    omega

/-! ## Arguments -/

/-- The argument that lies ahead, up to and without the parenthesis that closes
it, exactly as written: `depth` parentheses are open inside it, `quote` is the
quote of an open string. A backslash takes the next character with it. -/
def takeBalanced (depth : Nat) (quote : Option Char) :
    Text → Except ArgumentFault Text × Text
  | [] => (.error (if quote.isSome then .openString else .unbalanced), [])
  | '\\' :: [] =>
    (.error (if quote.isSome then .openString else .unbalanced), [])
  | '\\' :: c :: rest =>
    prepend '\\' (prepend c (takeBalanced depth quote rest))
  | c :: rest =>
    match quote with
    | some q =>
      prepend c (takeBalanced depth (if c = q then none else some q) rest)
    | none =>
      if c = '"' ∨ c = '\'' then prepend c (takeBalanced depth (some c) rest)
      else if c = '(' then prepend c (takeBalanced (depth + 1) none rest)
      else if c = ')' then
        match depth with
        | 0 => (.ok [], rest)
        | depth + 1 => prepend c (takeBalanced depth none rest)
      else prepend c (takeBalanced depth none rest)

/-- The argument behind an opening parenthesis. -/
def takeArgument (ahead : Text) : Except ArgumentFault Text × Text :=
  takeBalanced 0 none ahead

/-- What is taken is the argument and the parenthesis that closes it. -/
theorem takeBalanced_eq_ok {depth : Nat} {quote : Option Char}
    {ahead raw left : Text}
    (h : takeBalanced depth quote ahead = (.ok raw, left)) :
    ahead = raw ++ ')' :: left := by
  fun_induction takeBalanced depth quote ahead generalizing raw with
  | case1 => simp at h
  | case2 => simp at h
  | case3 _ _ c rest ih =>
    obtain ⟨t, ht, rfl⟩ := prepend_eq_ok h
    obtain ⟨t', ht', rfl⟩ := prepend_eq_ok ht
    simp [ih ht']
  | case7 _ _ hparen =>
    simp only [Prod.mk.injEq, Except.ok.injEq] at h
    obtain ⟨rfl, rfl⟩ := h
    simp_all
  | _ =>
    rename_i ih
    obtain ⟨t, ht, rfl⟩ := prepend_eq_ok h
    simp [ih ht]

/-- An argument, its closing parenthesis and the rest make up what lies ahead.
-/
theorem length_takeArgument {ahead raw left : Text}
    (h : takeArgument ahead = (.ok raw, left)) :
    raw.length + 1 + left.length = ahead.length := by
  have h := takeBalanced_eq_ok h
  simp only [h, List.length_append, List.length_cons]
  omega

end SelectorPath.Selector
