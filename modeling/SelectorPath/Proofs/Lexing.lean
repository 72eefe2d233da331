import SelectorPath.XPath.Expr

/-!
# Lexemes of XPath

A text is cut into lexemes one character at a time, each lexeme as long as it
can be. Between two characters the scan holds the lexemes found so far and the
one under way, so a scan over two texts is a scan over the first and then one
over the second, whatever lexeme spans the seam.

Two notions say what a text is cut into. `Cuts t ls`: the lexemes `ls`, with
nothing under way at the end. `Spells t ls`: the same once the name or number at
the end is taken to be complete. An expression spells its lexemes, and what is
written behind one starts with a character that ends every name and number.

## Main results

* `Spells.append_cuts`: a text that starts with such a character may follow any
  spelling.
* `lex_of_spells`: a spelling is what the scan finds.
-/

namespace SelectorPath.XPath

/-! ## Scanning -/

/-- The smallest parts of XPath text. -/
inductive Lexeme where
  | slash
  | slashes
  /-- The mark behind the name of an axis. -/
  | separator
  | at
  | paren
  | endParen
  | bracket
  | endBracket
  | comma
  | star
  | minus
  /-- A comparison. -/
  | relation (op : Operator)
  | name (t : Text)
  | number (t : Text)
  | literal (quote : Char) (body : Text)
deriving DecidableEq, Repr

/-- Whether a name can start with the character; of the characters of a name
only ASCII is known. -/
def beginsName (c : Char) : Bool :=
  c.isAlpha || c == '_'

/-- Whether the character can stand inside a name. -/
def continuesName (c : Char) : Bool :=
  c.isAlphanum || c == '_' || c == '-' || c == '.'

/-- Whether a text is a name. -/
def isName : Text → Bool
  | [] => false
  | c :: rest => beginsName c && rest.all continuesName

/-- Whether a text is a natural number in decimal digits. -/
def isNumeral (t : Text) : Bool :=
  !t.isEmpty && t.all Char.isDigit

/-- The lexeme under way; what was read of it stands latest first. -/
inductive Pending where
  | idle
  | slash
  | colon
  | bang
  | less
  | greater
  | name (read : Text)
  | number (read : Text)
  | literal (quote : Char) (read : Text)
deriving DecidableEq, Repr

/-- A scan: the lexemes found, latest first, and the one under way. -/
structure Scan where
  found : List Lexeme
  pending : Pending
deriving DecidableEq, Repr

namespace Scan

/-- Read a character with no lexeme under way. -/
def start (found : List Lexeme) (c : Char) : Option Scan :=
  match c with
  | '/' => some ⟨found, .slash⟩
  | ':' => some ⟨found, .colon⟩
  | '!' => some ⟨found, .bang⟩
  | '<' => some ⟨found, .less⟩
  | '>' => some ⟨found, .greater⟩
  | '=' => some ⟨.relation .equal :: found, .idle⟩
  | '@' => some ⟨.at :: found, .idle⟩
  | '(' => some ⟨.paren :: found, .idle⟩
  | ')' => some ⟨.endParen :: found, .idle⟩
  | '[' => some ⟨.bracket :: found, .idle⟩
  | ']' => some ⟨.endBracket :: found, .idle⟩
  | ',' => some ⟨.comma :: found, .idle⟩
  | '*' => some ⟨.star :: found, .idle⟩
  | '-' => some ⟨.minus :: found, .idle⟩
  | '\'' => some ⟨found, .literal '\'' []⟩
  | '"' => some ⟨found, .literal '"' []⟩
  | ' ' => some ⟨found, .idle⟩
  | c =>
    if beginsName c then some ⟨found, .name [c]⟩
    else if c.isDigit then some ⟨found, .number [c]⟩
    else none

/-- Read a character. -/
def step (s : Scan) (c : Char) : Option Scan :=
  match s.pending with
  | .idle => start s.found c
  | .slash =>
    if c = '/' then some ⟨.slashes :: s.found, .idle⟩
    else start (.slash :: s.found) c
  | .colon => if c = ':' then some ⟨.separator :: s.found, .idle⟩ else none
  | .bang =>
    if c = '=' then some ⟨.relation .unequal :: s.found, .idle⟩ else none
  | .less =>
    if c = '=' then some ⟨.relation .atMost :: s.found, .idle⟩ else none
  | .greater =>
    if c = '=' then some ⟨.relation .atLeast :: s.found, .idle⟩ else none
  | .name read =>
    if continuesName c then some ⟨s.found, .name (c :: read)⟩
    else start (.name read.reverse :: s.found) c
  | .number read =>
    if c.isDigit then some ⟨s.found, .number (c :: read)⟩
    else start (.number read.reverse :: s.found) c
  | .literal quote read =>
    if c = quote then some ⟨.literal quote read.reverse :: s.found, .idle⟩
    else some ⟨s.found, .literal quote (c :: read)⟩

/-- Read a text. -/
def run (s : Scan) : Text → Option Scan
  | [] => some s
  | c :: rest => (s.step c).bind fun s' => s'.run rest

/-- The lexemes found, latest first, once a name or number under way is
complete. -/
def finish (s : Scan) : Option (List Lexeme) :=
  match s.pending with
  | .idle => some s.found
  | .name read => some (.name read.reverse :: s.found)
  | .number read => some (.number read.reverse :: s.found)
  | _ => none

/-- A scan goes through the parts of a text one after the other. -/
theorem run_append (s : Scan) (front back : Text) :
    s.run (front ++ back) = (s.run front).bind fun s' => s'.run back := by
  induction front generalizing s with
  | nil => rfl
  | cons c rest ih =>
    rw [List.cons_append, run, run]
    cases s.step c with
    | none => rfl
    | some s' => exact ih s'

/-- A character that cannot stand in a name or number ends the one under way. -/
theorem step_of_finish {s : Scan} {found : List Lexeme} {c : Char}
    (h : s.finish = some found) (hc : continuesName c = false) :
    s.step c = (⟨found, .idle⟩ : Scan).step c := by
  obtain ⟨earlier, pending⟩ := s
  have hdigit : c.isDigit = false := by
    simp only [continuesName, Char.isAlphanum, Bool.or_eq_false_iff] at hc
    exact hc.1.1.1.2
  cases pending with
  | idle =>
    cases h
    rfl
  | name read =>
    cases h
    simp [step, hc]
  | number read =>
    cases h
    simp [step, hdigit]
  | _ => simp [finish] at h

end Scan

/-- The lexemes of a text. -/
def lex (t : Text) : Option (List Lexeme) :=
  ((⟨[], .idle⟩ : Scan).run t).bind fun s => s.finish.map List.reverse

/-! ## Spelling -/

/-- Whether a text is cut into the given lexemes, with nothing under way at its
end. -/
def Cuts (t : Text) (ls : List Lexeme) : Prop :=
  ∀ found, (⟨found, .idle⟩ : Scan).run t = some ⟨ls.reverse ++ found, .idle⟩

/-- Whether a text is cut into the given lexemes, its last name or number being
complete. -/
def Spells (t : Text) (ls : List Lexeme) : Prop :=
  ∀ found, ∃ s, (⟨found, .idle⟩ : Scan).run t = some s ∧
    s.finish = some (ls.reverse ++ found)

/-- Whether a text starts with a character that ends every name and number. -/
def startsApart (t : Text) : Bool :=
  t.head?.any fun c => !continuesName c

/-- A text that is cut into lexemes spells them. -/
theorem Cuts.spells {t : Text} {ls : List Lexeme} (h : Cuts t ls) :
    Spells t ls :=
  fun found => ⟨_, h found, rfl⟩

/-- Texts that are cut into lexemes can stand one behind the other. -/
theorem Cuts.append {front back : Text} {ls ms : List Lexeme}
    (hfront : Cuts front ls) (hback : Cuts back ms) :
    Cuts (front ++ back) (ls ++ ms) := by
  intro found
  rw [Scan.run_append, hfront found, Option.bind_some, hback,
    List.reverse_append, List.append_assoc]

/-- A text that is cut can stand in front of one that spells. -/
theorem Cuts.append_spells {front back : Text} {ls ms : List Lexeme}
    (hfront : Cuts front ls) (hback : Spells back ms) :
    Spells (front ++ back) (ls ++ ms) := by
  intro found
  obtain ⟨s, hs, hfinish⟩ := hback (ls.reverse ++ found)
  refine ⟨s, ?_, ?_⟩
  · rw [Scan.run_append, hfront found, Option.bind_some, hs]
  · rw [hfinish, List.reverse_append, List.append_assoc]

/-- Behind a spelling, a text that starts with a character of its own is cut as
if it stood alone. -/
theorem Spells.run_apart {front back : Text} {ls : List Lexeme}
    (hfront : Spells front ls) (hapart : startsApart back = true)
    (found : List Lexeme) :
    (⟨found, .idle⟩ : Scan).run (front ++ back) =
      (⟨ls.reverse ++ found, .idle⟩ : Scan).run back := by
  obtain ⟨s, hs, hfinish⟩ := hfront found
  cases back with
  | nil => simp [startsApart] at hapart
  | cons c rest =>
    have hc : continuesName c = false := by simpa [startsApart] using hapart
    rw [Scan.run_append, hs, Option.bind_some, Scan.run, Scan.run,
      Scan.step_of_finish hfinish hc]

/-- A text that spells can stand in front of one that is cut and starts apart.
-/
theorem Spells.append_cuts {front back : Text} {ls ms : List Lexeme}
    (hfront : Spells front ls) (hback : Cuts back ms)
    (hapart : startsApart back = true) : Cuts (front ++ back) (ls ++ ms) := by
  intro found
  rw [hfront.run_apart hapart, hback, List.reverse_append, List.append_assoc]

/-- A text that spells can stand in front of one that spells and starts apart.
-/
theorem Spells.append_apart {front back : Text} {ls ms : List Lexeme}
    (hfront : Spells front ls) (hback : Spells back ms)
    (hapart : startsApart back = true) :
    Spells (front ++ back) (ls ++ ms) := by
  intro found
  obtain ⟨s, hs, hfinish⟩ := hback (ls.reverse ++ found)
  refine ⟨s, ?_, ?_⟩
  · rw [hfront.run_apart hapart, hs]
  · rw [hfinish, List.reverse_append, List.append_assoc]

/-- The lexer finds the lexemes that a text spells. -/
theorem lex_of_spells {t : Text} {ls : List Lexeme} (h : Spells t ls) :
    lex t = some ls := by
  obtain ⟨s, hs, hfinish⟩ := h []
  rw [lex, hs, Option.bind_some, hfinish]
  simp

/-! ## Names, numbers and literals -/

/-- No mark starts a name. -/
theorem start_name {c : Char} (found : List Lexeme) (h : beginsName c = true) :
    Scan.start found c = some ⟨found, .name [c]⟩ := by
  unfold Scan.start
  split
  case h_18 => rw [if_pos h]
  all_goals exact absurd h (by decide)

theorem isDigit_iff {c : Char} :
    c.isDigit = true ↔ 48 ≤ c.toNat ∧ c.toNat ≤ 57 := by
  show (decide (c.val ≥ '0'.val) && decide (c.val ≤ '9'.val)) = true ↔ _
  rw [Bool.and_eq_true, decide_eq_true_eq, decide_eq_true_eq, ge_iff_le,
    UInt32.le_iff_toNat_le, UInt32.le_iff_toNat_le]
  exact Iff.rfl

theorem isAlpha_iff {c : Char} :
    c.isAlpha = true ↔
      (65 ≤ c.toNat ∧ c.toNat ≤ 90) ∨ (97 ≤ c.toNat ∧ c.toNat ≤ 122) := by
  show (decide (c.val ≥ 'A'.val ∧ c.val ≤ 'Z'.val)
    || (decide (c.val ≥ 'a'.val) && decide (c.val ≤ 'z'.val))) = true ↔ _
  simp only [Bool.or_eq_true, Bool.and_eq_true, decide_eq_true_eq, ge_iff_le,
    UInt32.le_iff_toNat_le]
  exact Iff.rfl

private theorem beginsName_of_isDigit {c : Char} (h : c.isDigit = true) :
    beginsName c = false := by
  cases hb : beginsName c with
  | false => rfl
  | true =>
    rw [beginsName, Bool.or_eq_true, beq_iff_eq, isAlpha_iff] at hb
    rw [isDigit_iff] at h
    rcases hb with hb | rfl
    · omega
    · exact absurd h (by decide)

private theorem start_digit {c : Char} (found : List Lexeme)
    (h : c.isDigit = true) :
    Scan.start found c = some ⟨found, .number [c]⟩ := by
  have hname := beginsName_of_isDigit h
  unfold Scan.start
  split
  case h_18 => rw [if_neg (by simp [hname]), if_pos h]
  all_goals exact absurd h (by decide)

private theorem run_name (found : List Lexeme) (read : Text) {rest : Text}
    (h : rest.all continuesName = true) :
    (⟨found, .name read⟩ : Scan).run rest =
      some ⟨found, .name (rest.reverse ++ read)⟩ := by
  induction rest generalizing read with
  | nil => rfl
  | cons c rest ih =>
    rw [List.all_cons, Bool.and_eq_true] at h
    rw [Scan.run]
    show ((if continuesName c then some (⟨found, .name (c :: read)⟩ : Scan)
      else Scan.start (.name read.reverse :: found) c).bind fun s =>
        s.run rest) = _
    rw [if_pos h.1, Option.bind_some, ih _ h.2]
    simp

private theorem run_number (found : List Lexeme) (read : Text) {rest : Text}
    (h : rest.all Char.isDigit = true) :
    (⟨found, .number read⟩ : Scan).run rest =
      some ⟨found, .number (rest.reverse ++ read)⟩ := by
  induction rest generalizing read with
  | nil => rfl
  | cons c rest ih =>
    rw [List.all_cons, Bool.and_eq_true] at h
    rw [Scan.run]
    show ((if c.isDigit then some (⟨found, .number (c :: read)⟩ : Scan)
      else Scan.start (.number read.reverse :: found) c).bind fun s =>
        s.run rest) = _
    rw [if_pos h.1, Option.bind_some, ih _ h.2]
    simp

private theorem run_literal (found : List Lexeme) {quote : Char} (read : Text)
    {body : Text} (h : quote ∉ body) :
    (⟨found, .literal quote read⟩ : Scan).run (body ++ [quote]) =
      some ⟨.literal quote (read.reverse ++ body) :: found, .idle⟩ := by
  induction body generalizing read with
  | nil =>
    rw [List.nil_append, Scan.run]
    simp [Scan.step, Scan.run]
  | cons c body ih =>
    rw [List.mem_cons, not_or] at h
    rw [List.cons_append, Scan.run]
    show ((if c = quote then
        some (⟨.literal quote read.reverse :: found, .idle⟩ : Scan)
      else some ⟨found, .literal quote (c :: read)⟩).bind fun s =>
        s.run (body ++ [quote])) = _
    rw [if_neg (Ne.symm h.1), Option.bind_some, ih _ h.2]
    simp

/-- A name spells one lexeme. -/
theorem spells_name {t : Text} (h : isName t = true) : Spells t [.name t] := by
  cases t with
  | nil => simp [isName] at h
  | cons c rest =>
    rw [isName, Bool.and_eq_true] at h
    intro found
    refine ⟨⟨found, .name (rest.reverse ++ [c])⟩, ?_, ?_⟩
    · show (Scan.start found c).bind _ = _
      rw [start_name found h.1, Option.bind_some, run_name found [c] h.2]
    · simp [Scan.finish]

/-- A numeral spells one lexeme. -/
theorem spells_number {t : Text} (h : isNumeral t = true) :
    Spells t [.number t] := by
  cases t with
  | nil => simp [isNumeral] at h
  | cons c rest =>
    simp only [isNumeral, List.all_cons, Bool.and_eq_true] at h
    intro found
    refine ⟨⟨found, .number (rest.reverse ++ [c])⟩, ?_, ?_⟩
    · show (Scan.start found c).bind _ = _
      rw [start_digit found h.2.1, Option.bind_some, run_number found [c] h.2.2]
    · simp [Scan.finish]

/-- A literal is cut out as one lexeme. -/
theorem cuts_literal {quote : Char} {body : Text}
    (hquote : quote = '\'' ∨ quote = '"') (h : quote ∉ body) :
    Cuts (quote :: body ++ [quote]) [.literal quote body] := by
  intro found
  have hstart : Scan.start found quote = some ⟨found, .literal quote []⟩ := by
    rcases hquote with rfl | rfl
    · rfl
    · rfl
  show ((Scan.start found quote).bind fun s => s.run (body ++ [quote])) = _
  rw [hstart, Option.bind_some, run_literal found [] h]
  simp

end SelectorPath.XPath
