import Mathlib
import SelectorPath.Custom.DefinitionFile
import SelectorPath.Proofs.DefinitionOrder
import SelectorPath.Proofs.TemplatePieces
import SelectorPath.Proofs.TextParts
import SelectorPath.Proofs.Trimming

/-!
# Uses of templates

The definition file brings a template in as one text. How many arguments a use
is cut into follows from the highest number among the pieces of the template.
This module follows a use through these steps: what is made of the argument
between the parentheses, and what then stands in the place of the use.

A reference whose number is too large to be kept is no reference. The template
is filled as its pieces say exactly when all of its numbers are below the bound.

## Main results

* `Template.renderArguments_eq`: what the arguments of a use make of the pieces.
* `argumentsOf_join`: the arguments of a use are cut apart again.
* `Registry.expand_use`: a registry with one function replaces a use of it.
* `Registry.expand_template`: a use of a template is replaced by the filled
  template.
-/

namespace SelectorPath

/-! ## Filled templates -/

namespace TemplatePiece

/-- What a piece is filled with: numbers count the arguments where one of them
is above one, and stand for all the arguments otherwise. -/
def value (several : Bool) (arguments : List Text) : TemplatePiece → Text
  | text t => t
  | reference (.index 0) => []
  | reference (.index (n + 1)) =>
    if several then (arguments[n]?).getD [] else Text.join ", " arguments
  | reference (.named _) => []
  | reference .data => Text.join ", " arguments

/-- The pieces filled with arguments. -/
def filled (pieces : List TemplatePiece) (arguments : List Text) : Text :=
  pieces.flatMap (value (1 < highest pieces) arguments)

end TemplatePiece

namespace Template

open TemplatePiece

private theorem le_highest {pieces : List TemplatePiece} {n : Nat}
    (h : reference (.index n) ∈ pieces) :
    n ≤ highest pieces := by
  have hmem : n ∈ pieces.filterMap index? := List.mem_filterMap.mpr ⟨_, h, rfl⟩
  rw [highest]
  generalize pieces.filterMap index? = numbers at hmem ⊢
  induction numbers with
  | nil => cases hmem
  | cons m numbers ih =>
    rw [List.foldr_cons]
    rcases List.mem_cons.mp hmem with rfl | hmem
    · exact le_max_left _ _
    · exact (ih hmem).trans (le_max_right _ _)

/-- What a function of the template's arity is handed makes the filled
pieces. -/
theorem renderArguments_eq (pieces : List TemplatePiece)
    (arguments : List Text) :
    renderArguments ⟨pieces⟩ (if 1 < highest pieces then arguments
      else [Text.join ", " arguments]) =
      filled pieces arguments := by
  rw [renderArguments, render, filled]
  refine List.flatMap_congr fun piece hpiece => ?_
  cases piece with
  | text t => rfl
  | reference r =>
    cases r with
    | named name => rfl
    | data =>
      by_cases hseveral : 1 < highest pieces
      · rw [if_pos hseveral]
        rfl
      · rw [if_neg hseveral]
        exact Text.join_singleton _ _
    | index n =>
      cases n with
      | zero => rfl
      | succ n =>
        by_cases hseveral : 1 < highest pieces
        · rw [if_pos hseveral]
          simp [value, hseveral, fromOne]
        · have hle : n + 1 ≤ highest pieces := le_highest hpiece
          obtain rfl : n = 0 := by omega
          rw [if_neg hseveral]
          simp [value, hseveral, fromOne]

/-- Numbers below the bound are kept. -/
theorem filled_bounded {pieces : List TemplatePiece}
    (h : ∀ n, reference (.index n) ∈ pieces → n < indexBound)
    (arguments : List Text) :
    filled (pieces.map bounded) arguments = filled pieces arguments := by
  rw [map_bounded h]

section Beyond

variable {arguments : List Text}
  (hlength : arguments.length < indexBound) (several : Bool)

include hlength

/-- There is no argument for a number beyond the bound, but there is the dollar
sign. -/
theorem length_value_lt {n : Nat} (hn : indexBound ≤ n) :
    ((reference (.index n)).value true arguments).length <
      ((reference (.index n)).bounded.value several arguments).length := by
  have hnone : (reference (.index n)).value true arguments = [] := by
    cases n with
    | zero => rfl
    | succ n =>
      have hnone : arguments[n]? = none := List.getElem?_eq_none (by omega)
      simp only [value, if_true, hnone, Option.getD_none]
  rw [hnone, bounded, if_neg (by omega), value]
  decide

/-- Keeping the numbers in bounds makes no value shorter. -/
theorem length_value_le (piece : TemplatePiece) :
    (piece.value true arguments).length ≤
      (piece.bounded.value several arguments).length := by
  cases piece with
  | text t => exact le_rfl
  | reference r =>
    cases r with
    | named name => exact le_rfl
    | data => exact le_rfl
    | index n =>
      by_cases hn : n < indexBound
      · rw [bounded, if_pos hn]
        cases n with
        | zero => exact le_rfl
        | succ n =>
          cases several with
          | true => exact le_rfl
          | false =>
            -- One argument against all of them.
            simp only [value, if_true, Bool.false_eq_true, if_false]
            cases hargument : arguments[n]? with
            | none => exact Nat.zero_le _
            | some argument =>
              exact Text.length_le_join (List.mem_of_getElem? hargument)
      · exact (length_value_lt hlength several (by omega)).le

/-- Where a number is beyond the bound, the dollar sign makes the text longer
than it should be. -/
theorem index_lt_of_filled_bounded {pieces : List TemplatePiece}
    (heq : filled (pieces.map bounded) arguments = filled pieces arguments)
    {n : Nat} (hn : reference (.index n) ∈ pieces) : n < indexBound := by
  by_contra hbeyond
  have hhighest : n ≤ highest pieces := le_highest hn
  have hseveral : decide (1 < highest pieces) = true :=
    decide_eq_true (lt_of_lt_of_le (by decide)
      ((Nat.le_of_not_lt hbeyond).trans hhighest))
  have hsum := congrArg List.length heq
  rw [filled, filled, hseveral, List.length_flatMap, List.length_flatMap,
    List.map_map] at hsum
  refine absurd hsum.symm (ne_of_lt ?_)
  exact List.sum_lt_sum _ _ (fun piece _ => length_value_le hlength _ piece)
    ⟨_, hn, length_value_lt hlength _ (Nat.le_of_not_lt hbeyond)⟩

end Beyond

end Template

/-! ## The arguments of a use -/

/-- An argument that is written as it is: no comma, closing parenthesis or
quote, and no blanks around. -/
structure IsPlainArgument (argument : Text) : Prop where
  ne_nil : argument ≠ []
  no_comma : ',' ∉ argument
  no_paren : ')' ∉ argument
  no_double : '"' ∉ argument
  no_single : '\'' ∉ argument
  trimmed : Text.trim argument = argument

instance (argument : Text) : Decidable (IsPlainArgument argument) :=
  decidable_of_iff (argument ≠ [] ∧ ',' ∉ argument ∧ ')' ∉ argument ∧
    '"' ∉ argument ∧ '\'' ∉ argument ∧
      Text.trim argument = argument)
    ⟨fun h => ⟨h.1, h.2.1, h.2.2.1, h.2.2.2.1, h.2.2.2.2.1, h.2.2.2.2.2⟩,
      fun h => ⟨h.ne_nil, h.no_comma, h.no_paren, h.no_double, h.no_single,
        h.trimmed⟩⟩

/-- The arguments as they are written between the parentheses make an argument
without blanks around. -/
theorem isTrimmed_join {arguments : List Text} (hne : arguments ≠ [])
    (h : ∀ a ∈ arguments, IsPlainArgument a) :
    Text.join ", " arguments ≠ [] ∧
      Text.isTrimmedBy Text.isBlank (Text.join ", " arguments) = true := by
  induction arguments with
  | nil => exact absurd rfl hne
  | cons a rest ih =>
    have ha := h a List.mem_cons_self
    have htrimmed : Text.isTrimmedBy Text.isBlank a = true := by
      rw [← ha.trimmed]
      exact Text.isTrimmedBy_trimBy _ _
    cases rest with
    | nil => simpa [Text.join] using ⟨ha.ne_nil, htrimmed⟩
    | cons b rest =>
      obtain ⟨hne', htrimmed'⟩ := ih (List.cons_ne_nil _ _) fun c hc =>
        h c (List.mem_cons_of_mem _ hc)
      rw [Text.join_cons_cons]
      exact ⟨by simp, Text.isTrimmedBy_append ha.ne_nil hne' htrimmed
        htrimmed' _⟩

/-- The commas cut the arguments apart, and trimming takes off the blank behind
a comma. -/
theorem map_trim_splitBy_join {arguments : List Text} (hne : arguments ≠ [])
    (h : ∀ a ∈ arguments, IsPlainArgument a) :
    ((Text.join ", " arguments).splitBy (· == ',')).map Text.trim =
      arguments := by
  -- All pieces but the first have a blank in front.
  suffices hlead : ∀ lead : Text, lead.all Text.isBlank = true → ',' ∉ lead →
      ((lead ++ Text.join ", " arguments).splitBy (· == ',')).map Text.trim =
        arguments from
    hlead [] rfl List.not_mem_nil
  induction arguments with
  | nil => exact absurd rfl hne
  | cons a rest ih =>
    intro lead hblank hcomma
    have ha := h a List.mem_cons_self
    have htrim : Text.trim (lead ++ a) = a :=
      (Text.trimBy_append_left hblank a).trans ha.trimmed
    have hnot : ∀ c ∈ lead ++ a, (c == ',') = false := by
      intro c hc
      rw [beq_eq_false_iff_ne]
      rintro rfl
      exact (List.mem_append.mp hc).elim hcomma ha.no_comma
    cases rest with
    | nil =>
      rw [Text.join_singleton, Text.splitBy_of_not hnot,
        List.map_singleton, htrim]
    | cons b rest =>
      have hjoin : lead ++ Text.join ", " (a :: b :: rest) =
          (lead ++ a) ++ ',' :: (" " ++ Text.join ", " (b :: rest)) := by
        simp [Text.join_cons_cons]
      rw [hjoin, Text.splitBy_append_cons hnot rfl, List.map_cons, htrim,
        ih (List.cons_ne_nil _ _) (fun c hc => h c (List.mem_cons_of_mem _ hc))
          " " (by decide) (by decide)]

/-- A function is handed the arguments one by one, or all of them as one where
one is expected. -/
theorem argumentsOf_join {arguments : List Text} (hne : arguments ≠ [])
    (h : ∀ a ∈ arguments, IsPlainArgument a) (arity : Nat) :
    argumentsOf [] arity (some (Text.join ", " arguments)) =
      if 1 < arity then arguments else [Text.join ", " arguments] := by
  have hrestore : (fun piece => Literal.restore [] (Text.trim piece)) =
      Text.trim :=
    funext fun piece => Literal.restore_nil _
  rw [argumentsOf, hrestore, map_trim_splitBy_join hne h, Literal.restore_nil]

/-! ## A use in a selector -/

private theorem not_mem_of_isWordName {name : Text} (h : isWordName name = true)
    {c : Char} (hc : continuesName c = false) : c ∉ name := by
  intro hmem
  have hcontinues := List.all_eq_true.mp h c hmem
  rw [hc] at hcontinues
  cases hcontinues

private theorem isPatternKey_of_isWordName {name : Text}
    (h : isWordName name = true) :
    isPatternKey name = false := by
  cases name with
  | nil => rfl
  | cons c name =>
    have hc : c ≠ '/' := by
      rintro rfl
      exact not_mem_of_isWordName h (by decide) List.mem_cons_self
    simpa [isPatternKey] using hc

/-- A text in which nothing is replaced or masked. -/
structure IsQuiet (t : Text) : Prop where
  no_colon : ':' ∉ t
  no_double : '"' ∉ t
  no_single : '\'' ∉ t

namespace Registry

/-- With one plain name and no quotes around, expansion is the pass over the
uses of that name. -/
theorem expand_single {key selector : Text} (hkey : isPatternKey key = false)
    (handler : Handler) (hdouble : '"' ∉ selector) (hsingle : '\'' ∉ selector) :
    (empty.insert key handler).expand selector =
      .ok (Text.replaceAll (findName [key])
        (expandName (empty.insert key handler) []) selector) := by
  have hkeys : (empty.insert key handler).keys = [key] := rfl
  rw [expand_plain (by simp [hkeys]) (by simpa [hkeys] using hkey) hdouble
    hsingle, hkeys]

/-- A registry with one function replaces a use of it, and nothing else. -/
theorem expand_use {key argument before behind : Text} {arity : Nat}
    {make : List Text → Text} (hkey : isWordName key = true)
    (hne : argument ≠ []) (hparen : ')' ∉ argument) (hdouble : '"' ∉ argument)
    (hsingle : '\'' ∉ argument) (htrim : Text.trim argument = argument)
    (hbefore : IsQuiet before) (hbehind : IsQuiet behind) :
    (empty.insert key (.function arity make)).expand
        (before ++ (⟨key, some argument⟩ : NameUse).written ++ behind) =
      .ok (before ++ make (argumentsOf [] arity (some argument)) ++
        behind) := by
  have hwritten : before ++ (⟨key, some argument⟩ : NameUse).written ++ behind =
      before ++ ':' :: (key ++ '(' :: (argument ++ ')' :: behind)) := by
    simp [NameUse.written]
  have huse : useOfNames? [key] (key ++ '(' :: (argument ++ ')' :: behind)) =
      some (⟨key, some argument⟩, behind) := by
    have hafter : Text.after? key (key ++ '(' :: (argument ++ ')' :: behind)) =
        some ('(' :: (argument ++ ')' :: behind)) :=
          Text.after?_eq_some_iff.mpr rfl
    simp [useOfNames?, hafter, argumentBehind?_argument hne hparen]
  have hname : expandName (empty.insert key (.function arity make)) []
      ⟨key, some argument⟩ = make (argumentsOf [] arity (some argument)) := by
    have hsome : argument.isEmpty = false := by simpa using hne
    simp [expandName, find?_insert_self, htrim, Option.filter, hsome]
  have hrest : Text.replaceAll (findName [key])
      (expandName (empty.insert key (.function arity make)) []) behind =
        behind := by
    have hskip := @replaceAll_skip [key]
      (expandName (empty.insert key (.function arity make)) []) behind
      hbehind.no_colon []
    rwa [replaceAll_nil, List.append_nil] at hskip
  have hword := fun c => @not_mem_of_isWordName key hkey c
  rw [hwritten, expand_single (isPatternKey_of_isWordName hkey),
    replaceAll_skip hbefore.no_colon, replaceAll_use huse, hname, hrest,
    List.append_assoc]
  · simp [hbefore.no_double, hbehind.no_double, hdouble, hword '"' (by decide)]
  · simp [hbefore.no_single, hbehind.no_single, hsingle, hword '\'' (by decide)]

/-- A file with one template defines one function. -/
theorem ofFile_template {contents key written : Text}
    {fields : List (Text × Json)} (hkey : isPatternKey key = false)
    (hfile : Json.ofText? contents = some (.object [(key, .object fields)]))
    (htemplate : Json.field? fields "template" = some (.string written))
    (harity : Json.field? fields "arity" = none ∨ Json.field? fields "arity" =
      some .null) :
    ofFile contents = .ok (empty.insert key
      (.function (Template.ofText written).highestIndex
        (Template.ofText written).renderArguments)) := by
  have hnone : Definition.arity? fields = some none := by
    rcases harity with harity | harity <;> rw [Definition.arity?, harity]
  have hdefinition : Definition.ofJson? (.object fields) =
      some (.template (Template.ofText written) none) := by
    rw [Definition.ofJson?, htemplate, hnone]
  have hhandler : Definition.handler key
      (.template (Template.ofText written) none) =
      .function (Template.ofText written).highestIndex
        (Template.ofText written).renderArguments := by
    rw [Definition.handler, Template.handler, hkey]
    rfl
  rw [ofFile, ofFileBy, Json.readObject, hfile]
  simp only [ofEntries, define, List.foldlM_cons, List.foldlM_nil, hdefinition,
    hhandler]
  rfl

open TemplatePiece in
/-- A use of a template is replaced by the template, filled with the arguments
of the use. Where a number of the template is not below the bound, a dollar sign
stands for the reference and the number does not count, and then the result is
another one. -/
theorem expand_template {contents key before behind : Text}
    {fields : List (Text × Json)} {pieces : List TemplatePiece}
    {arguments : List Text}
    (hfile : Json.ofText? contents = some (.object [(key, .object fields)]))
    (hkey : isWordName key = true)
    (htemplate : Json.field? fields "template" =
      some (.string (writtenAll pieces)))
    (harity : Json.field? fields "arity" = none ∨ Json.field? fields "arity" =
      some .null)
    (hpieces : areApart pieces = true) (hbefore : IsQuiet before)
    (hbehind : IsQuiet behind) (hne : arguments ≠ [])
    (harguments : ∀ a ∈ arguments, IsPlainArgument a) :
    ∃ r, ofFile contents = .ok r ∧
      r.expand (before ++
        (⟨key, some (Text.join ", " arguments)⟩ : NameUse).written ++ behind) =
        .ok (before ++ filled (pieces.map bounded) arguments ++ behind) ∧
      ((∀ n, reference (.index n) ∈ pieces → n < Template.indexBound) →
        filled (pieces.map bounded) arguments = filled pieces arguments) ∧
      (arguments.length < Template.indexBound →
        filled (pieces.map bounded) arguments = filled pieces arguments →
        ∀ n, reference (.index n) ∈ pieces → n < Template.indexBound) := by
  obtain ⟨hjoin, htrimmed⟩ := isTrimmed_join hne harguments
  have htrim : Text.trim (Text.join ", " arguments) =
      Text.join ", " arguments := by
    have happend := @Text.trimBy_append Text.isBlank _ [] htrimmed rfl
    rwa [List.append_nil] at happend
  have hfree : ∀ c, c ∉ (", " : Text) → (∀ a ∈ arguments, c ∉ a) →
      c ∉ Text.join ", " arguments := by
    intro c hsep hpieces hmem
    rcases Text.mem_join hmem with hc | ⟨a, ha, hc⟩
    · exact hsep hc
    · exact hpieces a ha hc
  have hmade : (Template.ofText (writtenAll pieces)).renderArguments
      (argumentsOf [] (Template.ofText (writtenAll pieces)).highestIndex
        (some (Text.join ", " arguments))) =
        filled (pieces.map bounded) arguments := by
    have hseveral : (1 < max 1 (highest (pieces.map bounded))) =
        (1 < highest (pieces.map bounded)) := by
      simp
    rw [argumentsOf_join hne harguments, Template.highestIndex_ofText hpieces,
      Template.renderArguments, Template.render_ofText hpieces,
      ← Template.renderArguments]
    simp only [hseveral]
    exact Template.renderArguments_eq _ _
  refine ⟨_, ofFile_template (isPatternKey_of_isWordName hkey) hfile htemplate
    harity, ?_, fun h => Template.filled_bounded h arguments,
    fun hlength heq n hn => Template.index_lt_of_filled_bounded hlength heq hn⟩
  rw [expand_use hkey hjoin (hfree ')' (by decide) fun a ha =>
    (harguments a ha).no_paren)
    (hfree '"' (by decide) fun a ha => (harguments a ha).no_double)
    (hfree '\'' (by decide) fun a ha => (harguments a ha).no_single) htrim
      hbefore hbehind, hmade]

open TemplatePiece in
/-- Two of three numbers have an argument; and a number beyond the bound. -/
theorem expand_template_cell :
    (∃ r, ofFile
        "\x7b\"cell\": \x7b\"template\": \"tr:nth($2) > td.$1$3\"\x7d\x7d" =
          .ok r ∧
      r.expand "x :cell(sum, 4) y" = .ok "x tr:nth(4) > td.sum y") ∧
    ∃ r, ofFile
        "\x7b\"t\": \x7b\"template\": \"a$18446744073709551616\"\x7d\x7d" =
          .ok r ∧
      r.expand ":t(b)" = .ok "a$" ∧
      filled [text "a", reference (.index 18446744073709551616)] ["b"] =
        "a" := by
  constructor
  · have hfile : Json.ofText?
        "\x7b\"cell\": \x7b\"template\": \"tr:nth($2) > td.$1$3\"\x7d\x7d" =
        some (.object [("cell".toList, .object
          [("template".toList, .string "tr:nth($2) > td.$1$3".toList)])]) := by
      cbv
    obtain ⟨r, hr, hexpand, -, -⟩ := @expand_template _ _ "x " " y" _
      [text "tr:nth(", reference (.index 2), text ") > td.",
        reference (.index 1), reference (.index 3)]
      ["sum", "4"] hfile (by decide) rfl (.inl rfl) (by decide) ⟨by decide,
        by decide, by decide⟩
      ⟨by decide, by decide, by decide⟩ (by decide) (by decide)
    exact ⟨r, hr, hexpand⟩
  · have hfile : Json.ofText?
        "\x7b\"t\": \x7b\"template\": \"a$18446744073709551616\"\x7d\x7d" =
        some (.object [("t".toList, .object
          [("template".toList,
            .string "a$18446744073709551616".toList)])]) := by
      cbv
    obtain ⟨r, hr, hexpand, -, -⟩ := @expand_template _ _ [] [] _
      [text "a", reference (.index 18446744073709551616)] ["b"] hfile
        (by decide) rfl (.inl rfl)
      (by decide) ⟨by decide, by decide, by decide⟩ ⟨by decide, by decide,
        by decide⟩ (by decide) (by decide)
    exact ⟨r, hr, hexpand, by decide⟩

end Registry

end SelectorPath
