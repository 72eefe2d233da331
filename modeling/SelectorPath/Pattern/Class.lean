import SelectorPath.Pattern.Escape

/-!
# Classes of a pattern

A class in brackets is read in two steps. Its extent is found first, by counting
brackets; then the members between the brackets are put together, with brackets
inside brackets, ranges, names such as `[:alpha:]`, and the operators `&&`, `--`
and `~~`, which bind weaker than standing side by side and all alike, from left
to right.

## Main results

* `readClass_length`: a class takes no more than what lies ahead of its opening
  bracket.
-/

namespace SelectorPath.Pattern

/-! ## The extent of a class -/

/-- A member of a class as it is written. -/
inductive ClassUnit where
  /-- A character that is written as it is, and may be a sign. -/
  | plain (c : Char)
  /-- A character that an escape writes. -/
  | literal (c : Char)
  | set (set : CharSet)

/-- The letters that stand for themselves behind a backslash in a class. -/
def standsForItself (c : Char) : Bool :=
  c == 'A' || c == 'B' || c == 'G' || c == 'K' || c == 'k' || c == 'z'

/-- The unit of an escape in a class. -/
def readClassEscape (c : Char) (rest : Text) :
    Except Fault (ClassUnit × Text) :=
  if c = 'b' then .ok (.literal '\x08', rest)
  else if standsForItself c then .ok (.literal c, rest)
  else match readEscaped c rest with
    | .ok (.char x, left) => .ok (.literal x, left)
    | .ok (.set set, left) => .ok (.set set, left)
    | .error fault => .error fault

private theorem readClassEscape_length {c : Char} {rest left : Text}
    {unit : ClassUnit} (h : readClassEscape c rest = .ok (unit, left)) :
    left.length ≤ rest.length := by
  unfold readClassEscape at h
  split at h
  · simp only [Except.ok.injEq, Prod.mk.injEq] at h
    simp [h.2]
  split at h
  · simp only [Except.ok.injEq, Prod.mk.injEq] at h
    simp [h.2]
  split at h
  · rename_i hread
    simp only [Except.ok.injEq, Prod.mk.injEq] at h
    rw [← h.2]
    exact readEscaped_length hread
  · rename_i hread
    simp only [Except.ok.injEq, Prod.mk.injEq] at h
    rw [← h.2]
    exact readEscaped_length hread
  · simp at h

/-- How a bracket changes the number of brackets that are open. -/
def nestingBehind (c : Char) (nesting : Nat) : Nat :=
  if c = '[' then nesting + 1 else if c = ']' then nesting - 1 else nesting

/-- The units up to the bracket that closes the outermost of the open ones, and
what follows it. -/
def takeUnits (nesting : Nat) : Text → Except Fault (List ClassUnit × Text)
  | [] => .error .unclosedClass
  | c :: rest =>
    if c = '\\' then
      match rest with
      | [] => .error .badEscape
      | e :: rest =>
        match _h : readClassEscape e rest with
        | .error fault => .error fault
        | .ok (unit, left) =>
          match takeUnits nesting left with
          | .ok (units, left) => .ok (unit :: units, left)
          | .error fault => .error fault
    else if nestingBehind c nesting = 0 then .ok ([.plain c], rest)
    else match takeUnits (nestingBehind c nesting) rest with
      | .ok (units, left) => .ok (.plain c :: units, left)
      | .error fault => .error fault
termination_by t => t.length
decreasing_by
  · have hle := readClassEscape_length _h
    simp only [List.length_cons]
    omega
  · simp

private theorem takeUnits_length {nesting : Nat} {ahead left : Text}
    {units : List ClassUnit} (h : takeUnits nesting ahead = .ok (units, left)) :
    left.length ≤ ahead.length := by
  fun_induction takeUnits nesting ahead generalizing units left with
  | case1 => simp at h
  | case2 => simp at h
  | case3 => simp at h
  | case4 nesting e rest unit left' hread units' left'' hrest ih =>
    have hi := ih hrest
    have hle := readClassEscape_length hread
    simp only [Except.ok.injEq, Prod.mk.injEq] at h
    rw [← h.2]
    simp only [List.length_cons]
    omega
  | case5 => simp at h
  | case6 =>
    simp only [Except.ok.injEq, Prod.mk.injEq] at h
    simp [← h.2]
  | case7 nesting c rest hc hn units' left' hrest ih =>
    have hi := ih hrest
    simp only [Except.ok.injEq, Prod.mk.injEq] at h
    rw [← h.2]
    simp only [List.length_cons]
    omega
  | case8 => simp at h

/-! ## The members of a class -/

/-- An operator between the members of a class. -/
inductive SetOperator where
  | inter
  | minus
  | either
deriving DecidableEq, Repr

/-- The set that an operator makes of two. -/
def SetOperator.apply : SetOperator → CharSet → CharSet → CharSet
  | inter => .inter
  | minus => .minus
  | either => .either

/-- The operator that a character stands for where it is written twice. -/
def SetOperator.ofChar? (c : Char) : Option SetOperator :=
  if c = '&' then some .inter
  else if c = '-' then some .minus
  else if c = '~' then some .either
  else none

/-- A bracket that is open. -/
structure OpenBracket where
  isNegative : Bool
  /-- The last operator, with all that stands in front of it. -/
  left : Option (SetOperator × CharSet) := none
  /-- The members behind the last operator. -/
  members : CharSet := .none

namespace OpenBracket

/-- Add a member. -/
def add (b : OpenBracket) (set : CharSet) : OpenBracket :=
  { b with members := .union b.members set }

/-- The members so far as one set. -/
def content (b : OpenBracket) : CharSet :=
  match b.left with
  | some (operator, left) => operator.apply left b.members
  | none => b.members

/-- Read an operator. -/
def operate (b : OpenBracket) (operator : SetOperator) : OpenBracket :=
  { b with left := some (operator, b.content), members := .none }

/-- The closed bracket. -/
def close (b : OpenBracket) : CharSet :=
  .bracket b.isNegative b.content

end OpenBracket

/-- The character of a unit. -/
def ClassUnit.char? : ClassUnit → Option Char
  | plain c => some c
  | literal c => some c
  | set _ => none

/-- The set of a unit that stands alone. -/
def ClassUnit.toSet : ClassUnit → CharSet
  | plain c => .char c
  | literal c => .char c
  | set members => members

/-- Whether a unit is a character that is written as it is. -/
def ClassUnit.isPlain (c : Char) : ClassUnit → Bool
  | plain x => x == c
  | _ => false

/-- The characters between two units. -/
def rangeOf (first last : ClassUnit) : Except Fault CharSet :=
  match first.char?, last.char? with
  | some low, some high =>
    if low ≤ high then .ok (.range low high) else .error .reversedRange
  | _, _ => .error .badClass

/-- The members that stand for themselves because they come first, hyphens or a
closing bracket. -/
def openMembers (b : OpenBracket) (units : List ClassUnit) :
    OpenBracket × List ClassUnit :=
  match units with
  | .plain ']' :: rest => (b.add (.char ']'), rest)
  | _ =>
    if (units.takeWhile (·.isPlain '-')).isEmpty then (b, units)
    else (b.add (.char '-'), units.dropWhile (·.isPlain '-'))

/-- The bracket that opens in front of the units. -/
def openBracket : List ClassUnit → OpenBracket × List ClassUnit
  | .plain '^' :: rest => openMembers { isNegative := true } rest
  | units => openMembers { isNegative := false } units

/-- The text of the units up to a colon. -/
def takeSetName : List ClassUnit → Option (Text × List ClassUnit)
  | .plain ':' :: .plain ']' :: rest => some ([], rest)
  | .plain ':' :: _ => none
  | .plain c :: rest =>
    (takeSetName rest).map fun (name, left) => (c :: name, left)
  | _ => none

/-- The named set that stands behind an opening bracket. -/
def takeNamedSet? : List ClassUnit → Option (CharSet × List ClassUnit)
  | .plain ':' :: .plain '^' :: rest => do
    let (name, left) ← takeSetName rest
    let set ← asciiSet? name
    some (.bracket true set, left)
  | .plain ':' :: rest => do
    let (name, left) ← takeSetName rest
    let set ← asciiSet? name
    some (.bracket false set, left)
  | _ => none

private theorem length_openMembers_le (b : OpenBracket)
    (units : List ClassUnit) :
    (openMembers b units).2.length ≤ units.length := by
  unfold openMembers
  split
  · simp
  · split
    · exact Nat.le_refl _
    · exact (List.dropWhile_sublist _).length_le

private theorem length_openBracket_le (units : List ClassUnit) :
    (openBracket units).2.length ≤ units.length := by
  unfold openBracket
  split
  · rename_i rest
    have hle := length_openMembers_le { isNegative := true } rest
    simp only [List.length_cons]
    omega
  · exact length_openMembers_le _ _

private theorem takeSetName_length {units left : List ClassUnit} {name : Text}
    (h : takeSetName units = some (name, left)) :
    left.length ≤ units.length := by
  fun_induction takeSetName units generalizing name left with
  | case1 =>
    simp only [Option.some.injEq, Prod.mk.injEq] at h
    simp [← h.2]
    omega
  | case2 => simp at h
  | case3 c rest _ _ ih =>
    simp only [Option.map_eq_some_iff, Prod.mk.injEq, Prod.exists] at h
    obtain ⟨name', left', hrest, _, rfl⟩ := h
    have hi := ih hrest
    simp only [List.length_cons]
    omega
  | case4 => simp at h

private theorem takeNamedSet?_length {units left : List ClassUnit}
    {set : CharSet} (h : takeNamedSet? units = some (set, left)) :
    left.length ≤ units.length := by
  unfold takeNamedSet? at h
  split at h
  · rename_i rest
    simp only [bind, Option.bind_eq_some_iff, Prod.exists, Option.some.injEq,
      Prod.mk.injEq] at h
    obtain ⟨name, left', hname, _, _, _, rfl⟩ := h
    have hle := takeSetName_length hname
    simp only [List.length_cons]
    omega
  · rename_i rest _
    simp only [bind, Option.bind_eq_some_iff, Prod.exists, Option.some.injEq,
      Prod.mk.injEq] at h
    obtain ⟨name, left', hname, _, _, _, rfl⟩ := h
    have hle := takeSetName_length hname
    simp only [List.length_cons]
    omega
  · simp at h

/-- The member that starts with a unit: a range where a hyphen and another
member follow. -/
def readMember (unit : ClassUnit) (rest : List ClassUnit) :
    Except Fault (CharSet × List ClassUnit) :=
  match rest with
  | .plain '-' :: last :: left =>
    if last.isPlain ']' || last.isPlain '-' then .ok (unit.toSet, rest)
    else match rangeOf unit last with
      | .ok set => .ok (set, left)
      | .error fault => .error fault
  | _ => .ok (unit.toSet, rest)

private theorem readMember_length {unit : ClassUnit}
    {rest left : List ClassUnit} {set : CharSet}
    (h : readMember unit rest = .ok (set, left)) :
    left.length ≤ rest.length := by
  unfold readMember at h
  split at h
  · split at h
    · simp only [Except.ok.injEq, Prod.mk.injEq] at h
      simp [← h.2]
    · split at h
      · simp only [Except.ok.injEq, Prod.mk.injEq] at h
        simp only [← h.2, List.length_cons]
        omega
      · simp at h
  · simp only [Except.ok.injEq, Prod.mk.injEq] at h
    simp [← h.2]

/-- The operator that two units write together, and what follows it. -/
def takeOperator? : List ClassUnit → Option (SetOperator × List ClassUnit)
  | .plain c :: .plain d :: rest =>
    if c = d then (SetOperator.ofChar? c).map (·, rest) else none
  | _ => none

private theorem takeOperator?_length {units left : List ClassUnit}
    {operator : SetOperator} (h : takeOperator? units = some (operator, left)) :
    left.length < units.length := by
  unfold takeOperator? at h
  split at h
  · split at h
    · simp only [Option.map_eq_some_iff, Prod.mk.injEq] at h
      obtain ⟨_, _, _, rfl⟩ := h
      simp only [List.length_cons]
      omega
    · simp at h
  · simp at h

/-- The set of the innermost open bracket, with those around it, and what is
left when all are closed. -/
def readMembers (b : OpenBracket) (outer : List OpenBracket) :
    List ClassUnit → Except Fault (CharSet × List ClassUnit)
  | [] => .error .unclosedClass
  | unit :: rest =>
    if unit.isPlain '[' then
      match _h : takeNamedSet? rest with
      | some (set, left) => readMembers (b.add set) outer left
      | none =>
        readMembers (openBracket rest).1 (b :: outer) (openBracket rest).2
    else if unit.isPlain ']' then
      match outer with
      | [] => .ok (b.close, rest)
      | around :: outer => readMembers (around.add b.close) outer rest
    else match _h : takeOperator? (unit :: rest) with
      | some (operator, left) => readMembers (b.operate operator) outer left
      | none =>
        match _hm : readMember unit rest with
        | .ok (set, left) => readMembers (b.add set) outer left
        | .error fault => .error fault
termination_by units => units.length
decreasing_by
  · have hle := takeNamedSet?_length _h
    simp only [List.length_cons]
    omega
  · have hle := length_openBracket_le rest
    simp only [List.length_cons]
    omega
  · simp
  · exact takeOperator?_length _h
  · have hle := readMember_length _hm
    simp only [List.length_cons]
    omega

/-- The members that stand right behind the opening bracket of a class and do
not end its extent. -/
def takeFirstUnits (ahead : Text) : List ClassUnit × Text :=
  let (caret, rest) : Text × Text := match ahead with
    | '^' :: rest => (['^'], rest)
    | _ => ([], ahead)
  match rest with
  | ']' :: rest => ((caret ++ [']']).map .plain, rest)
  | _ => (caret.map .plain, rest)

/-- The set of a class behind its opening bracket, and what follows the
class. -/
def readClass (ahead : Text) : Except Fault (CharSet × Text) :=
  match takeUnits 1 (takeFirstUnits ahead).2 with
  | .error fault => .error fault
  | .ok (units, left) =>
    let (b, units) := openBracket ((takeFirstUnits ahead).1 ++ units)
    match readMembers b [] units with
    | .ok (set, []) => .ok (set, left)
    | .ok (_, _ :: _) => .error .badClass
    | .error fault => .error fault

private theorem length_takeFirstUnits_le (ahead : Text) :
    (takeFirstUnits ahead).2.length ≤ ahead.length := by
  unfold takeFirstUnits
  simp only
  split
  · split
    · simp_all
      omega
    · simp_all
  · split
    · simp_all
    · simp_all

/-- A class takes no more than what lies ahead of its opening bracket. -/
theorem readClass_length {ahead left : Text} {set : CharSet}
    (h : readClass ahead = .ok (set, left)) :
    left.length ≤ ahead.length := by
  have hfirst := length_takeFirstUnits_le ahead
  unfold readClass at h
  split at h
  · simp at h
  · rename_i hunits
    have hle := takeUnits_length hunits
    simp only at h
    split at h
    · simp only [Except.ok.injEq, Prod.mk.injEq] at h
      rw [← h.2]
      omega
    · simp at h
    · simp at h

end SelectorPath.Pattern
