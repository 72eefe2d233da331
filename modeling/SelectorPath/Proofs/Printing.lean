import Mathlib
import SelectorPath.Proofs.Escapes
import SelectorPath.Proofs.SelectorLists
import SelectorPath.Proofs.TokenShape

/-!
# Printing selector lists

Tokens are printed with every name and value in escapes, and a text argument as
it is. What is printed is read back: the shape of a selector list that is read
(`IsSelectorList`) is all that this takes, so that shape is exact.

Two blanks are more than they seem. The one that ends the escape at the end of a
name is not the descendant combinator that may follow it. And at the end of a
selector list in parentheses it is trimmed off, after which the list still reads
the same. A text argument that ends inside an escape is printed with one blank
behind it, which the escape takes and which is then trimmed off.

## Main results

* `Token.PrintsBack`: how a printed simple selector is read.
* `parse_printAll`: reading undoes printing.
-/

namespace SelectorPath

open SelectorPath.Text (isSelectorBlank skipBlank trimBy isTrimmedBy)
open SelectorPath.Selector

/-! ## The printer -/

/-- The symbol of a combinator. -/
def Combinator.symbol : Combinator → Char
  | descendant => ' '
  | child => '>'
  | sibling => '~'
  | adjacent => '+'

/-- The operator of a test that has a value. -/
def AttributeTest.operator : AttributeTest → Text
  | present => []
  | hasWord => "~="
  | contains => "*="
  | startsWith => "^="
  | endsWith => "$="
  | hyphenated => "|="
  | differs => "!="
  | equals => "="

/-- The inside of an attribute test, with `gap` blanks on either side of its
operator. -/
def printTest (gap : Nat) (name : Text) (test : AttributeTest) :
    Option Text → Text
  | none => escapeText name
  | some value =>
    escapeText name ++
      (List.replicate gap ' ' ++ (test.operator ++ (List.replicate gap ' '
      ++ ('"' :: escapeText value ++ "\""))))

/-- A text argument; a blank behind it completes an escape at its end. -/
def printText (t : Text) : Text :=
  if dangles t then t ++ " " else t

mutual

/-- A token as it is written. -/
def Token.print (gap : Nat) : Token → Text
  | ⟨.tag, name, _, _, _⟩ => escapeText (name.getD [])
  | ⟨.universal, _, _, _, _⟩ => "*"
  | ⟨.attr, name, value, test, _⟩ =>
    '[' :: printTest gap (name.getD []) (test.getD .present) value ++ "]"
  | ⟨.pseudoClass, name, _, _, argument⟩ =>
    ':' :: escapeText (name.getD []) ++ printArgument? gap argument
  | ⟨.pseudoElement, name, _, _, argument⟩ =>
    ':' :: ':' :: escapeText (name.getD []) ++ printArgument? gap argument
  | ⟨.combinator c, _, _, _, _⟩ => [c.symbol]
  | ⟨.root, _, _, _, _⟩ => []

/-- An argument in parentheses, where there is one. -/
def printArgument? (gap : Nat) : Option (Argument Token) → Text
  | none => []
  | some argument => '(' :: printArgument gap argument ++ ")"

/-- An argument. -/
def printArgument (gap : Nat) : Argument Token → Text
  | .text t => printText t
  | .selectors streams => Text.join "," (printEach gap streams)

/-- The alternatives of a selector list. -/
def printEach (gap : Nat) : List (List Token) → List Text
  | [] => []
  | stream :: streams => printStream gap stream :: printEach gap streams

/-- The tokens of an alternative. -/
def printStream (gap : Nat) : List Token → Text
  | [] => []
  | token :: tokens => token.print gap ++ printStream gap tokens

end

/-- A selector list. -/
def printAll (gap : Nat) (streams : List Stream) : Text :=
  Text.join "," (printEach gap streams)

/-! ## Simple selectors -/

/-- Whether a simple selector is printed with the character in front. -/
def opensSimple (c : Char) : Bool :=
  c == '\\' || c == '[' || c == '*' || c == ':'

/-- Whether a name ends in front of the text, and no argument belongs to it. -/
def EndsName (rest : Text) : Prop :=
  extendsName rest = false ∧ rest.head? ≠ some '('

/-- How a simple selector is printed and read back: it starts and ends with
characters that keep it apart, the reader of arguments passes over it, and it is
read wherever its name, if it ends with one, does not go on. -/
structure Token.PrintsBack (gap : Nat) (t : Token) : Prop where
  simple : t.kind.isCombinator = false
  starts : ∃ c ahead, t.print gap = c :: ahead ∧ opensSimple c = true ∧
    (c = '\\' → t.kind = .tag)
  solid : EndsSolid (t.print gap)
  balanced : IsBalanced (t.print gap)
  reads : ∀ (ending : Ending) (rest : Text),
    (t.endsInName = true → EndsName rest) →
    parseFrom ending (t.print gap ++ rest) =
      (parseFrom .simple rest).map (splice ([t], []))

private theorem exists_escapeText {name : Text} (h : name ≠ []) :
    ∃ ahead, escapeText name = '\\' :: ahead := by
  cases name with
  | nil => exact absurd rfl h
  | cons c name =>
    obtain ⟨d, tail, hescape, -⟩ := escaped_escapeChar c
    exact ⟨d :: tail ++ escapeText name, by simp [escapeText, hescape]⟩

private theorem printsBack_tag (gap : Nat) {name : Text} (h : name ≠ []) :
    (Token.tag name).PrintsBack gap := by
  obtain ⟨ahead, hprint⟩ := exists_escapeText h
  refine ⟨rfl, ⟨'\\', ahead, hprint, rfl, fun _ => rfl⟩, endsSolid_escapeText h,
    isBalanced_escapeText name, ?_⟩
  intro ending rest hends
  have hname := takeName_escapeText name (hends rfl).1
  have hstart := startsName_escapeText h rest
  show parseFrom ending (escapeText name ++ rest) = _
  rw [hprint, List.cons_append] at hname hstart ⊢
  have hread := ReadsItem.tag hstart
  rw [hname] at hread
  exact parseFrom_of_adds (readItem_eq_ok_iff.mpr hread) .token

private theorem printsBack_universal (gap : Nat) :
    Token.universal.PrintsBack gap := by
  refine ⟨rfl, ⟨'*', [], rfl, rfl, by decide⟩,
    endsSolid_concat [] (by decide) (by decide), isBalanced_of_inert rfl, ?_⟩
  intro ending rest _
  exact parseFrom_of_adds (readItem_eq_ok_iff.mpr .universal) .token

/-! ## Attribute tests -/

private theorem readAttributeName_escapeText {name rest : Text}
    (hname : name ≠ []) (h : extendsName rest = false) :
    readAttributeName (escapeText name ++ rest) = .ok (name, rest) := by
  obtain ⟨ahead, hprint⟩ := exists_escapeText hname
  have hskip : skipBlank (escapeText name ++ rest) =
      escapeText name ++ rest := by
    apply skipBlank_of_head?
    rw [hprint]
    rfl
  unfold readAttributeName
  rw [hskip, takeName_escapeText name h]
  simpa using hname

/-- An operator is read back, and does not go on with a name. -/
theorem readTest_operator {test : AttributeTest} (h : test ≠ .present)
    (rest : Text) :
    ∃ c ahead, test.operator ++ rest = c :: ahead ∧ isSelectorBlank c = false ∧
      extendsName (test.operator ++ rest) = false ∧
      readTest (test.operator ++ rest) = .ok (test, rest) := by
  cases test with
  | present => exact absurd rfl h
  | hasWord => exact ⟨'~', '=' :: rest, rfl, rfl, rfl, rfl⟩
  | contains => exact ⟨'*', '=' :: rest, rfl, rfl, rfl, rfl⟩
  | startsWith => exact ⟨'^', '=' :: rest, rfl, rfl, rfl, rfl⟩
  | endsWith => exact ⟨'$', '=' :: rest, rfl, rfl, rfl, rfl⟩
  | hyphenated => exact ⟨'|', '=' :: rest, rfl, rfl, rfl, rfl⟩
  | differs => exact ⟨'!', '=' :: rest, rfl, rfl, rfl, rfl⟩
  | equals => exact ⟨'=', rest, rfl, rfl, rfl, rfl⟩

private theorem skipBlank_gap (gap : Nat) {rest : Text} {c : Char}
    (hc : isSelectorBlank c = false) (hrest : rest.head? = some c) :
    skipBlank (List.replicate gap ' ' ++ rest) = rest := by
  rw [skipBlank_append (by simp [isSelectorBlank])]
  apply skipBlank_of_head?
  rw [hrest]
  simp [hc]

/-- What is printed inside the brackets is read back. -/
theorem readAttribute_present {name : Text} (hname : name ≠ []) (rest : Text) :
    readAttribute (escapeText name ++ ']' :: rest) =
      .ok (.attr name .present none, rest) :=
  readAttribute_eq_ok_iff.mpr
    (.present (readAttributeName_escapeText hname rfl) rfl)

private theorem readAttribute_compares (gap : Nat) {name : Text}
    {test : AttributeTest} (hname : name ≠ []) (htest : test ≠ .present)
    (value rest : Text) :
    readAttribute (printTest gap name test (some value) ++ ']' :: rest) =
      .ok (.attr name test (some value), rest) := by
  -- The text is cut behind the name, behind the operator and behind the value.
  obtain ⟨left, hleft⟩ : ∃ left : Text,
      left = List.replicate gap ' ' ++ '"' ::
        (escapeText value ++ '"' :: ']' :: rest) := ⟨_, rfl⟩
  have hprint : printTest gap name test (some value) ++ ']' :: rest =
      escapeText name ++
        (List.replicate gap ' ' ++ (test.operator ++ left)) := by
    rw [hleft]
    simp [printTest]
  obtain ⟨c, ahead, hoperator, hblank, hextends, hread⟩ :=
    readTest_operator htest left
  have hgap : extendsName (List.replicate gap ' ' ++ (test.operator ++ left)) =
      false := by
    cases gap with
    | zero => exact hextends
    | succ gap => rfl
  have htest : readTest
      (skipBlank (List.replicate gap ' ' ++ (test.operator ++ left))) =
      .ok (test, left) := by
    rw [skipBlank_gap gap hblank (by rw [hoperator]; rfl), hread]
  have hvalue : readValue name (skipBlank left) = .ok (value, ']' :: rest) := by
    rw [hleft, skipBlank_gap gap rfl rfl, readValue, if_pos (.inl rfl),
      takeString_escapeText]
  rw [hprint]
  exact readAttribute_eq_ok_iff.mpr
    (.compares (readAttributeName_escapeText hname hgap) htest hvalue rfl)

private theorem isBalanced_printTest (gap : Nat) (name : Text)
    (test : AttributeTest) (value : Option Text) :
    IsBalanced (printTest gap name test value) := by
  cases value with
  | none => exact isBalanced_escapeText name
  | some value =>
    have hgap : IsBalanced (List.replicate gap ' ') :=
      isBalanced_of_inert (by simp [Balance.isInert])
    have hoperator : IsBalanced test.operator :=
      isBalanced_of_inert (by cases test <;> rfl)
    exact isBalanced_append (isBalanced_escapeText name) (isBalanced_append hgap
      (isBalanced_append hoperator
        (isBalanced_append hgap (isBalanced_string value))))

private theorem printsBack_attr (gap : Nat) {name : Text} {test : AttributeTest}
    {value : Option Text}
    (h : ∀ rest : Text,
      readAttribute (printTest gap name test value ++ ']' :: rest) =
      .ok (.attr name test value, rest)) :
    (Token.attr name test value).PrintsBack gap where
  simple := rfl
  starts := ⟨'[', _, rfl, rfl, by rintro ⟨⟩⟩
  solid := endsSolid_concat ('[' :: printTest gap name test value) (by decide)
    (by decide)
  balanced := by
    have hopen : IsBalanced ['['] := isBalanced_of_inert rfl
    have hclose : IsBalanced [']'] := isBalanced_of_inert rfl
    exact isBalanced_append
      (isBalanced_append hopen (isBalanced_printTest gap name test value))
      hclose
  reads := by
    intro ending rest _
    show parseFrom ending
        ('[' :: (printTest gap name test value ++ [']'] ++ rest)) = _
    rw [List.append_assoc]
    exact parseFrom_of_adds (readItem_eq_ok_iff.mpr (.attr (h rest))) .token

/-! ## Pseudo-classes and pseudo-elements -/

private theorem print_pseudoToken (gap : Nat) (isElement : Bool) (name : Text)
    (argument : Option (Argument Token)) :
    (pseudoToken isElement name argument).print gap =
      ':' :: marked isElement
        (escapeText name ++ printArgument? gap argument) := by
  cases isElement <;> rfl

private theorem asciiLower_eq_self {name : Text}
    (h : isPseudoName name = true) : name.asciiLower = name := by
  rw [isPseudoName, Bool.and_eq_true, List.all_eq_true] at h
  have hlower : ∀ c ∈ name, c.toLower = c := by
    intro c hc
    exact Char.toLower_eq_of_not_isUpper (by simpa using h.2 c hc)
  rw [Text.asciiLower, List.map_congr_left hlower, List.map_id']

/-- The name of a printed pseudo-class is read back. -/
theorem takeName_pseudo {name rest : Text} (hname : isPseudoName name = true)
    (h : extendsName rest = false) :
    startsName (escapeText name ++ rest) = true ∧
      (takeName (escapeText name ++ rest)).2 = rest ∧
      pseudoName (escapeText name ++ rest) = name := by
  have hne : name ≠ [] := by
    rintro rfl
    exact absurd hname (by decide)
  refine ⟨startsName_escapeText hne rest, ?_, ?_⟩
  · rw [takeName_escapeText name h]
  · rw [pseudoName, takeName_escapeText name h, asciiLower_eq_self hname]

private theorem isBalanced_marked {t : Text} (isElement : Bool)
    (h : IsBalanced t) :
    IsBalanced (':' :: marked isElement t) := by
  cases isElement with
  | false => exact isBalanced_append (isBalanced_of_inert (t := ":") rfl) h
  | true => exact isBalanced_append (isBalanced_of_inert (t := "::") rfl) h

private theorem endsSolid_marked {t : Text} (isElement : Bool)
    (h : EndsSolid t) :
    EndsSolid (':' :: marked isElement t) := by
  cases isElement with
  | false => exact h.append ":"
  | true => exact h.append "::"

private theorem printsBack_bare (gap : Nat) {name : Text} (isElement : Bool)
    (hname : isPseudoName name = true) :
    (pseudoToken isElement name none).PrintsBack gap := by
  have hne : name ≠ [] := by
    rintro rfl
    exact absurd hname (by decide)
  have hprint := print_pseudoToken gap isElement name none
  rw [show printArgument? gap none = [] from rfl, List.append_nil] at hprint
  refine ⟨by cases isElement <;> rfl, ⟨':', _, hprint, rfl, by rintro ⟨⟩⟩, ?_,
    ?_, ?_⟩
  · rw [hprint]
    exact endsSolid_marked isElement (endsSolid_escapeText hne)
  · rw [hprint]
    exact isBalanced_marked isElement (isBalanced_escapeText name)
  · intro ending rest hends
    have hends := hends (by cases isElement <;> rfl)
    obtain ⟨hstart, hleft, hread⟩ := takeName_pseudo hname hends.1
    have hitem :=
      @ReadsPseudo.bare isElement _ hstart (by rw [hleft]; exact hends.2)
    rw [hleft, hread] at hitem
    rw [hprint, List.cons_append, marked_append]
    exact parseFrom_of_adds (readItem_eq_ok_iff.mpr (.pseudo hitem)) .token

/-- With an argument, what remains is what the argument is read as. -/
theorem printsBack_argument (gap : Nat) {name : Text} {isElement : Bool}
    {argument : Argument Token} (hname : isPseudoName name = true)
    (hbalanced : IsBalanced (printArgument gap argument))
    (hitem : ∀ {ahead inside rest : Text}, startsName ahead = true →
      pseudoName ahead = name → (takeName ahead).2 = '(' :: inside →
      takeArgument inside = (.ok (printArgument gap argument), rest) → ∃ item,
      ReadsPseudo (marked isElement ahead) item rest ∧ ∀ ending,
      Adds ending item ([pseudoToken isElement name (some argument)], [])
      .simple) :
    (pseudoToken isElement name (some argument)).PrintsBack gap := by
  have hprint := print_pseudoToken gap isElement name (some argument)
  have hparens : printArgument? gap (some argument) =
      '(' :: printArgument gap argument ++ ")" := rfl
  refine ⟨by cases isElement <;> rfl, ⟨':', _, hprint, rfl, by rintro ⟨⟩⟩, ?_,
    ?_, ?_⟩
  · rw [hprint, hparens]
    refine endsSolid_marked isElement ?_
    rw [← List.append_assoc]
    exact endsSolid_concat _ (by decide) (by decide)
  · rw [hprint, hparens]
    exact isBalanced_marked isElement
      (isBalanced_append (isBalanced_escapeText name)
        (isBalanced_parens hbalanced))
  · intro ending rest _
    have hrest : printArgument? gap (some argument) ++ rest =
        '(' :: (printArgument gap argument ++ ')' :: rest) := by
      rw [hparens]
      simp
    obtain ⟨hstart, hleft, hread⟩ :=
      @takeName_pseudo name ('(' :: (printArgument gap argument ++ ')' :: rest))
        hname rfl
    obtain ⟨item, hpseudo, hadds⟩ := hitem hstart hread hleft
      (takeArgument_eq_ok_iff.mpr ⟨rfl, hbalanced⟩)
    rw [hprint, List.cons_append, marked_append, List.append_assoc, hrest]
    exact parseFrom_of_adds (readItem_eq_ok_iff.mpr (.pseudo hpseudo))
      (hadds ending)

private theorem isBalanced_printText {t : Text} (h : IsArgument t) :
    IsBalanced (printText t) := by
  unfold printText
  cases hend : dangles t with
  | false =>
    rcases h.2 with hbalanced | hbalanced
    · exact hbalanced
    · exact isBalanced_of_space hbalanced hend
  | true =>
    rcases h.2 with hbalanced | hbalanced
    · rw [dangles_of_isBalanced hbalanced] at hend
      exact absurd hend (by decide)
    · exact hbalanced

private theorem trimBy_printText {t : Text} (h : IsArgument t) :
    trimBy isSelectorBlank (printText t) = t := by
  unfold printText
  split
  · exact Text.trimBy_append h.1 rfl
  · have htrim := @Text.trimBy_append isSelectorBlank t [] h.1 rfl
    rwa [List.append_nil] at htrim

private theorem printsBack_text (gap : Nat) {name t : Text} {isElement : Bool}
    (hname : isPseudoName name = true)
    (hkind : isElement = true ∨ takesSelectors name = false)
    (ht : IsArgument t) :
    (pseudoToken isElement name (some (.text t))).PrintsBack gap := by
  refine printsBack_argument gap hname (isBalanced_printText ht) ?_
  intro ahead inside rest hstart hread hopen hraw
  have hitem := @ReadsPseudo.text isElement _ _ _ _ hstart hopen hraw
    (by rw [hread]; exact hkind)
  rw [hread, show printArgument gap (.text t) =
    printText t from rfl, trimBy_printText ht] at hitem
  exact ⟨_, hitem, fun ending => .token⟩

/-! ## Streams -/

/-- Whether a printed alternative ends in front of the text. -/
def endsStream (after : Text) : Bool :=
  after.head?.all (· == ',')

/-- How the tokens of a stream are printed: combinators as their symbols, and
all others as simple selectors that are read back. -/
def PrintsBackStream (gap : Nat) (stream : Stream) : Prop :=
  ∀ t ∈ stream, (∃ k, t = .combinator k) ∨ t.PrintsBack gap

private theorem printStream_cons (gap : Nat) (t : Token) (stream : Stream)
    (after : Text) :
    printStream gap (t :: stream) ++ after =
      t.print gap ++ (printStream gap stream ++ after) := by
  rw [printStream, List.append_assoc]

/-- A compound starts where a simple selector is printed. -/
theorem startsCompound_of_opensSimple {c : Char} {ahead : Text}
    (h : opensSimple c = true) :
    skipBlank (c :: ahead) = c :: ahead ∧
      startsCompound (c :: ahead) = true := by
  simp only [opensSimple, Bool.or_eq_true, beq_iff_eq] at h
  rcases h with ((rfl | rfl) | rfl) | rfl <;> exact ⟨rfl, rfl⟩

/-- A joined stream does not start with a combinator. -/
theorem exists_printStream {gap : Nat} {stream : Stream}
    (h : PrintsBackStream gap stream) (hjoins : joinsFrom true stream = true)
    (after : Text) :
    ∃ c ahead, printStream gap stream ++ after = c :: ahead ∧
      opensSimple c = true := by
  cases stream with
  | nil => exact absurd hjoins (by decide)
  | cons t stream =>
    rcases h t (List.mem_cons_self ..) with ⟨k, rfl⟩ | ht
    · simp [joinsFrom, Token.combinator, Kind.isCombinator] at hjoins
    · obtain ⟨c, ahead, hprint, hopens, -⟩ := ht.starts
      exact ⟨c, _, by rw [printStream_cons, hprint]; rfl, hopens⟩

private theorem endsName_cons {c : Char} (hchar : isNameChar c = false)
    (hslash : c ≠ '\\') (hopen : c ≠ '(') (ahead : Text) :
    EndsName (c :: ahead) := by
  refine ⟨(extendsName_cons hslash ahead).trans hchar, ?_⟩
  simpa using hopen

/-- Behind a name neither a type selector nor an argument is printed. -/
theorem endsName_printStream {gap : Nat} {t : Token} {stream : Stream}
    {after : Text} (h : PrintsBackStream gap stream)
    (hapart : namesApart (t :: stream) = true)
    (hafter : endsStream after = true) (hname : t.endsInName = true) :
    EndsName (printStream gap stream ++ after) := by
  cases stream with
  | nil =>
    cases after with
    | nil => exact ⟨rfl, by simp [printStream]⟩
    | cons c after =>
      obtain rfl : c = ',' := by simpa [endsStream] using hafter
      exact endsName_cons (by decide) (by decide) (by decide) after
  | cons b stream =>
    rw [printStream_cons]
    rcases h b (List.mem_cons_self ..) with ⟨k, rfl⟩ | hb
    · cases k <;> exact endsName_cons (by decide) (by decide) (by decide) _
    · obtain ⟨c, ahead, hprint, hopens, htag⟩ := hb.starts
      have hslash : c ≠ '\\' := by
        intro hc
        simp [namesApart, hname, htag hc] at hapart
      simp only [opensSimple, Bool.or_eq_true, beq_iff_eq] at hopens
      rw [hprint]
      rcases hopens with ((rfl | rfl) | rfl) | rfl
      · exact absurd rfl hslash
      · exact endsName_cons (by decide) (by decide) (by decide) _
      · exact endsName_cons (by decide) (by decide) (by decide) _
      · exact endsName_cons (by decide) (by decide) (by decide) _

/-- The symbol of a combinator is read as it, in front of a simple selector. -/
theorem readItem_symbol (k : Combinator) {ahead : Text}
    (hskip : skipBlank ahead = ahead) (hstarts : startsCompound ahead = true) :
    ∃ place, readItem k.symbol ahead = .ok (.combinator k place, ahead) := by
  have hcombinator : ∀ {c : Char} {place : Nat},
      ReadsItem ahead c (.combinator k place) (skipBlank ahead) →
      ∃ place, readItem c ahead = .ok (.combinator k place, ahead) := by
    intro c place hread
    rw [hskip] at hread
    exact ⟨place, readItem_eq_ok_iff.mpr hread⟩
  cases k with
  | descendant =>
    exact hcombinator (.descendant rfl (by rw [hskip]; exact hstarts))
  | child => exact hcombinator (.combinator rfl)
  | sibling => exact hcombinator (.combinator rfl)
  | adjacent => exact hcombinator (.combinator rfl)

/-- A printed alternative is read back in front of a comma or the end. -/
theorem parseFrom_printStream {gap : Nat} {stream : Stream} {ending : Ending}
    {after : Text} (h : PrintsBackStream gap stream)
    (hapart : namesApart stream = true)
    (hjoins : joinsFrom ending.isOpen stream = true)
    (hafter : endsStream after = true) :
    parseFrom ending (printStream gap stream ++ after) =
      (parseFrom .simple after).map (splice (stream, [])) := by
  induction stream generalizing ending with
  | nil =>
    cases ending with
    | simple => exact (map_splice_nil _).symm
    | nothing => cases hjoins
    | combinator k => cases hjoins
  | cons t stream ih =>
    have hrest : PrintsBackStream gap stream :=
      fun u hu => h u (List.mem_cons_of_mem t hu)
    have hapart' : namesApart stream = true := by
      cases stream with
      | nil => rfl
      | cons b stream =>
        rw [namesApart, Bool.and_eq_true] at hapart
        exact hapart.2
    rw [joinsFrom, Bool.and_eq_true, Bool.and_eq_true] at hjoins
    obtain ⟨⟨-, hplace⟩, hjoins⟩ := hjoins
    rw [printStream_cons]
    rcases h t (List.mem_cons_self ..) with ⟨k, rfl⟩ | ht
    · -- A combinator stands behind a simple selector, and one is printed
      -- behind it.
      have hsimple : ending = .simple := by
        cases ending with
        | simple => rfl
        | nothing => cases hplace
        | combinator k => cases hplace
      obtain ⟨c, ahead, hprint, hopens⟩ := exists_printStream hrest hjoins after
      obtain ⟨hskip, hstarts⟩ := @startsCompound_of_opensSimple c ahead hopens
      rw [← hprint] at hskip hstarts
      obtain ⟨place, hitem⟩ := readItem_symbol k hskip hstarts
      subst hsimple
      have hread :=
        parseFrom_of_adds hitem (@Adds.combinator .simple k place rfl)
      rw [@ih (.combinator k) hrest hapart' hjoins, map_splice_splice] at hread
      exact hread
    · rw [ht.simple] at hjoins
      rw [ht.reads ending _ fun hname =>
        endsName_printStream hrest hapart hafter hname,
        @ih .simple hrest hapart' hjoins, map_splice_splice]
      rfl

private theorem isBalanced_printStream {gap : Nat} {stream : Stream}
    (h : PrintsBackStream gap stream) :
    IsBalanced (printStream gap stream) := by
  induction stream with
  | nil => exact isBalanced_of_inert rfl
  | cons t stream ih =>
    obtain ⟨ht, hrest⟩ := List.forall_mem_cons.mp h
    refine isBalanced_append ?_ (ih hrest)
    rcases ht with ⟨k, rfl⟩ | ht
    · exact isBalanced_of_inert (by cases k <;> rfl)
    · exact ht.balanced

/-- A joined stream does not end with a combinator. -/
theorem endsSolid_printStream {gap : Nat} {stream : Stream} {afterAxis : Bool}
    (h : PrintsBackStream gap stream)
    (hjoins : joinsFrom afterAxis stream = true) (hne : stream ≠ []) :
    EndsSolid (printStream gap stream) := by
  induction stream generalizing afterAxis with
  | nil => exact absurd rfl hne
  | cons t stream ih =>
    obtain ⟨ht, hrest⟩ := List.forall_mem_cons.mp h
    rw [joinsFrom, Bool.and_eq_true] at hjoins
    by_cases hlast : stream = []
    · subst hlast
      rcases ht with ⟨k, rfl⟩ | ht
      · cases hjoins.2
      · rw [printStream, printStream, List.append_nil]
        exact ht.solid
    · exact (ih hrest hjoins.2 hlast).append _

/-! ## Selector lists -/

/-- A selector list that is printed so that every alternative is read back. -/
structure PrintsBackAll (gap : Nat) (streams : List Stream) : Prop where
  ne_nil : streams ≠ []
  joined : ∀ stream ∈ streams, isJoined stream = true
  apart : ∀ stream ∈ streams, namesApart stream = true
  prints : ∀ stream ∈ streams, PrintsBackStream gap stream

private theorem printAll_singleton (gap : Nat) (stream : Stream) :
    printAll gap [stream] = printStream gap stream := by
  simp [printAll, printEach, Text.join]

private theorem printAll_cons (gap : Nat) (first second : Stream)
    (others : List Stream) :
    printAll gap (first :: second :: others) =
      printStream gap first ++ ',' :: printAll gap (second :: others) := by
  simp [printAll, printEach, Text.join]

/-- What prints back does so without its first stream. -/
theorem PrintsBackAll.tail {gap : Nat} {first second : Stream}
    {others : List Stream} (h : PrintsBackAll gap (first :: second :: others)) :
    PrintsBackAll gap (second :: others) :=
  ⟨List.cons_ne_nil _ _, (List.forall_mem_cons.mp h.joined).2,
    (List.forall_mem_cons.mp h.apart).2, (List.forall_mem_cons.mp h.prints).2⟩

private theorem PrintsBackAll.exists_printAll {gap : Nat}
    {streams : List Stream} (h : PrintsBackAll gap streams) :
    ∃ c ahead, printAll gap streams = c :: ahead ∧ opensSimple c = true := by
  cases streams with
  | nil => exact absurd rfl h.ne_nil
  | cons first others =>
    have hfirst := exists_printStream (h.prints first (List.mem_cons_self ..))
      (h.joined first (List.mem_cons_self ..))
    cases others with
    | nil =>
      rw [printAll_singleton, ← List.append_nil (printStream gap first)]
      exact hfirst []
    | cons second others =>
      rw [printAll_cons]
      exact hfirst _

private theorem PrintsBackAll.skipBlank_printAll {gap : Nat}
    {streams : List Stream} (h : PrintsBackAll gap streams) :
    skipBlank (printAll gap streams) = printAll gap streams := by
  obtain ⟨c, ahead, hprint, hopens⟩ := h.exists_printAll
  rw [hprint]
  exact (startsCompound_of_opensSimple hopens).1

/-- A printed list is read back alternative by alternative. -/
theorem PrintsBackAll.parseFrom_printAll {gap : Nat} {first : Stream}
    {others : List Stream} (h : PrintsBackAll gap (first :: others)) :
    parseFrom .nothing (printAll gap (first :: others)) =
      .ok (first, others) := by
  induction others generalizing first with
  | nil =>
    have hread := @parseFrom_printStream gap first .nothing []
      (h.prints first (List.mem_singleton_self _))
      (h.apart first (List.mem_singleton_self _))
        (h.joined first (List.mem_singleton_self _)) rfl
    rw [List.append_nil, parseFrom_end rfl] at hread
    rw [printAll_singleton, hread]
    exact congrArg Except.ok (splice_nil (first, []))
  | cons second others ih =>
    have hread := @parseFrom_printStream gap first .nothing
      (',' :: printAll gap (second :: others))
      (h.prints first (List.mem_cons_self ..))
        (h.apart first (List.mem_cons_self ..))
      (h.joined first (List.mem_cons_self ..)) rfl
    rw [parseFrom_comma rfl, h.tail.skipBlank_printAll, ih h.tail] at hread
    rw [printAll_cons, hread]
    exact congrArg Except.ok (splice_closed first [] (second :: others))

private theorem PrintsBackAll.isBalanced_printAll {gap : Nat} {first : Stream}
    {others : List Stream} (h : PrintsBackAll gap (first :: others)) :
    IsBalanced (printAll gap (first :: others)) := by
  have hfirst := isBalanced_printStream (h.prints first (List.mem_cons_self ..))
  induction others generalizing first with
  | nil =>
    rw [printAll_singleton]
    exact hfirst
  | cons second others ih =>
    have hcomma : IsBalanced [','] := isBalanced_of_inert rfl
    have hrest := ih h.tail
      (isBalanced_printStream (h.tail.prints second (List.mem_cons_self ..)))
    rw [printAll_cons]
    exact isBalanced_append hfirst (isBalanced_append hcomma hrest)

private theorem PrintsBackAll.endsSolid_printAll {gap : Nat} {first : Stream}
    {others : List Stream} (h : PrintsBackAll gap (first :: others)) :
    EndsSolid (printAll gap (first :: others)) := by
  induction others generalizing first with
  | nil =>
    have hjoined := h.joined first (List.mem_singleton_self _)
    rw [printAll_singleton]
    refine endsSolid_printStream (h.prints first (List.mem_singleton_self _))
      hjoined ?_
    rintro rfl
    cases hjoined
  | cons second others ih =>
    rw [printAll_cons]
    exact ((ih h.tail).append [',']).append (printStream gap first)

/-- A selector list in parentheses is read back, although the blank of an escape
at its end is trimmed off. -/
theorem printsBack_selectors {gap : Nat} {name : Text} {streams : List Stream}
    (hname : isPseudoName name = true) (hkind : takesSelectors name = true)
    (h : PrintsBackAll gap streams) :
    (Token.pseudoClass name (some (.selectors streams))).PrintsBack gap := by
  cases streams with
  | nil => exact absurd rfl h.ne_nil
  | cons first others =>
    refine @printsBack_argument gap name false _ hname h.isBalanced_printAll ?_
    intro ahead inside rest hstart hread hopen hraw
    have hitem :=
      ReadsPseudo.nested hstart hopen hraw (by rw [hread]; exact hkind)
    have hlist :
        parseFrom .nothing (skipBlank (printAll gap (first :: others))) =
          .ok (first, others) := by
      rw [h.skipBlank_printAll, h.parseFrom_printAll]
    have hinner := parseFrom_trim hlist h.endsSolid_printAll.dangles_trimBy
    rw [hread] at hitem
    exact ⟨_, hitem, fun ending => .nested hinner⟩

/-- Every token that reading makes is printed so that it is read back. -/
theorem Token.IsRead.printsBack {t : Token} (h : t.IsRead) (gap : Nat) :
    (∃ k, t = .combinator k) ∨ t.PrintsBack gap := by
  induction h with
  | tag hname => exact .inr (printsBack_tag gap hname)
  | universal => exact .inr (printsBack_universal gap)
  | combinator k => exact .inl ⟨k, rfl⟩
  | present hname =>
    exact .inr (printsBack_attr gap (readAttribute_present hname))
  | compares hname htest value =>
    exact .inr (printsBack_attr gap
      (readAttribute_compares gap hname htest value))
  | bare isElement hname => exact .inr (printsBack_bare gap isElement hname)
  | text hname hkind ht => exact .inr (printsBack_text gap hname hkind ht)
  | selectors hname hkind hne hjoined hapart htokens ih =>
    exact .inr (printsBack_selectors hname hkind ⟨hne, hjoined, hapart, ih⟩)

/-- Reading undoes printing, for every list that has the shape of one that is
read. -/
theorem parse_printAll {streams : List Stream} (h : IsSelectorList streams)
    (gap : Nat) :
    parse (printAll gap streams) = .ok streams := by
  have hprints : PrintsBackAll gap streams :=
    ⟨h.ne_nil, h.joined, h.apart,
      fun stream hs t ht => (h.tokens stream hs t ht).printsBack gap⟩
  cases streams with
  | nil => exact absurd rfl h.ne_nil
  | cons first others =>
    refine parse_eq_ok_iff.mpr ⟨(first, others), ?_, rfl⟩
    rw [hprints.skipBlank_printAll, hprints.parseFrom_printAll]

/-- Two blanks are trimmed off: the one that ends the escape of `b`, and the one
that the backslash behind `x` takes. -/
theorem parse_printAll_trimmedEscape :
    IsSelectorList trimmedEscape ∧
      printAll 1 trimmedEscape = "\\61 :\\6e \\6f \\74 (\\62 )::\\63 (x\\ )" ∧
      parse "\\61 :\\6e \\6f \\74 (\\62 )::\\63 (x\\ )" =
        .ok trimmedEscape := by
  have hnot : Token.IsRead
      (.pseudoClass "not" (some (.selectors [[.tag "b"]]))) :=
    .selectors rfl rfl (List.cons_ne_nil _ _)
      (List.forall_mem_singleton.mpr rfl)
      (List.forall_mem_singleton.mpr rfl)
      (List.forall_mem_singleton.mpr
        (List.forall_mem_singleton.mpr (.tag (by decide))))
  have htext : Token.IsRead (.pseudoElement "c" (some (.text "x\\"))) :=
    @Token.IsRead.text "c" "x\\" true rfl (.inl rfl)
      ⟨rfl, .inr (isBalanced_iff_run.mpr rfl)⟩
  have hlist : IsSelectorList trimmedEscape := by
    refine ⟨List.cons_ne_nil _ _, List.forall_mem_singleton.mpr rfl,
      List.forall_mem_singleton.mpr rfl, ?_⟩
    refine List.forall_mem_singleton.mpr
      (List.forall_mem_cons.mpr ⟨.tag (by decide), ?_⟩)
    exact List.forall_mem_cons.mpr ⟨hnot, List.forall_mem_singleton.mpr htext⟩
  have hprint : printAll 1 trimmedEscape =
      "\\61 :\\6e \\6f \\74 (\\62 )::\\63 (x\\ )" := rfl
  exact ⟨hlist, hprint, hprint ▸ parse_printAll hlist 1⟩

end SelectorPath
