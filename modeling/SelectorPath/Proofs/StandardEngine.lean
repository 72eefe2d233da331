import Mathlib
import SelectorPath.Custom.Expansion
import SelectorPath.Proofs.NameUses
import SelectorPath.Proofs.Placeholders
import SelectorPath.Proofs.Replacing

/-!
# Expansion by the standard engine

The standard engine never gives up a search, so what it does with literals and
plain names can be told without results. Masking cuts a text into segments,
restoring reads placeholders from left to right, and the pass over plain names
writes what stands for each use.

A search of the engine lists the occurrences with their places, and replacing
goes along the list. That comes to a pass over the text, told by what it does at
one place (`Engine.IsPass`).

## Main results

* `Engine.replaceFrom_of_isPass`: replacing along a list of occurrences is the
  pass over the text.
* `Standard.capture_eq`, `Standard.restore_eq`: masking and restoring.
* `Standard.compile_namesPattern`: a choice of names is recognised.
* `Registry.expand_eq`: expansion in the program.
-/

namespace SelectorPath

open SelectorPath.Text (Finder)

/-! ## Listing occurrences -/

namespace Text

variable {α : Type} {find : Finder α} {groups : α → List (Option Text)}

private theorem occurrencesFrom_nil {behind : Text} {ended : Bool}
    (h : find behind [] = none) :
    occurrencesFrom find groups behind ended [] = [] := by
  rw [occurrencesFrom, h]

private theorem occurrencesFrom_of_none {behind rest : Text} {ended : Bool}
    {c : Char} (h : find behind (c :: rest) = none) :
    occurrencesFrom find groups behind ended (c :: rest) =
      occurrencesFrom find groups (c :: behind) false rest := by
  rw [occurrencesFrom, h]

private theorem occurrencesFrom_of_some {behind taken left : Text}
    {ended : Bool} {found : α}
    (h : find behind (taken ++ left) = some (found, left)) (hne : taken ≠ []) :
    occurrencesFrom find groups behind ended (taken ++ left) =
      ⟨behind.length, behind.length + taken.length,
        some taken :: groups found⟩ ::
        occurrencesFrom find groups (taken.reverse ++ behind) true left := by
  have hlt : left.length < (taken ++ left).length := by
    have hpos := List.length_pos_iff.mpr hne
    simp only [List.length_append]
    omega
  have htaken : (taken ++ left).take ((taken ++ left).length - left.length) =
      taken := by simp
  rw [occurrencesFrom.eq_def, h]
  simp only [if_pos hlt, htaken]

end Text

/-! ## Replacing along a list -/

namespace Engine

variable {α σ : Type}

/-- What a pass over a text writes, and the state it ends with, told by what it
does at one place: a character is copied where nothing is found, and what is
found is replaced. -/
structure IsPass (find : Finder α) (groups : α → List (Option Text))
    (write : σ → Occurrence → Except SelectorError (Text × σ))
    (out : σ → Text → Text × σ) :
    Prop where
  nil : ∀ s, out s [] = ([], s)
  copy : ∀ s c rest, find [] (c :: rest) = none →
    out s (c :: rest) = (c :: (out s rest).1, (out s rest).2)
  replace : ∀ s taken left found start,
      find [] (taken ++ left) = some (found, left) →
    ∃ written s', out s (taken ++ left) =
      (written ++ (out s' left).1, (out s' left).2) ∧
      write s ⟨start, start + taken.length, some taken :: groups found⟩ =
        .ok (written, s')

/-- Whether what is left behind an occurrence is the end of the text. -/
def LeavesEnd (find : Finder α) : Prop :=
  ∀ ahead found left, find [] ahead = some (found, left) → left <:+ ahead

/-- Replacing along the list of occurrences is the pass over the text. -/
theorem replaceFrom_of_isPass (e : Engine) (regex : e.Regex) {find : Finder α}
    {groups : α → List (Option Text)}
    {write : σ → Occurrence → Except SelectorError (Text × σ)}
    {out : σ → Text → Text × σ} (hfind : find.IsForward) (hend : LeavesEnd find)
    (h : IsPass find groups write out) (before gap ahead : Text) (ended : Bool)
    (s : σ) :
    e.replaceFrom regex write (before ++ gap ++ ahead) before.length s
        ((Text.occurrencesFrom find groups (before ++ gap).reverse ended
          ahead).map .ok) =
      .ok (gap ++ (out s ahead).1, (out s ahead).2) := by
  -- `gap` is what has been passed since the last occurrence; it is copied when
  -- the next one is found, or at the end.
  induction hlength : ahead.length using Nat.strongRecOn
      generalizing before gap ahead ended s with
  | ind n ih =>
    have hahead := hfind.ahead_only (before ++ gap).reverse ahead
    cases hfound : find [] ahead with
    | none =>
      rw [hfound] at hahead
      cases ahead with
      | nil =>
        rw [Text.occurrencesFrom_nil hahead, List.map_nil, replaceFrom, h.nil]
        simp
      | cons c rest =>
        have hrest := ih rest.length (by simp [← hlength]) before (gap ++ [c])
          rest false s rfl
        have htext : before ++ gap ++ c :: rest =
            before ++ (gap ++ [c]) ++ rest := by simp
        have hbehind : c :: (before ++ gap).reverse =
            (before ++ (gap ++ [c])).reverse := by simp
        rw [Text.occurrencesFrom_of_none hahead, htext, hbehind, hrest,
          h.copy s c rest hfound]
        simp
    | some occurrence =>
      obtain ⟨found, left⟩ := occurrence
      rw [hfound] at hahead
      obtain ⟨taken, rfl⟩ := hend _ _ _ hfound
      have hne : taken ≠ [] := by
        rintro rfl
        exact absurd (hfind.length_lt hfound) (by simp)
      obtain ⟨written, s', hout, hwrite⟩ :=
        h.replace s taken left found (before ++ gap).reverse.length hfound
      have hleft := ih left.length (by have := hfind.length_lt hfound; omega)
        (before ++ gap ++ taken) [] left true s' rfl
      have hbehind : taken.reverse ++ (before ++ gap).reverse =
          (before ++ gap ++ taken ++ []).reverse := by simp
      have hstop : (before ++ gap).reverse.length + taken.length =
          (before ++ gap ++ taken).length := by
        simp only [List.length_reverse, List.length_append]
      have htext : before ++ gap ++ (taken ++ left) =
          before ++ gap ++ taken ++ [] ++ left := by simp
      have hgap : ((before ++ gap ++ (taken ++ left)).drop before.length).take
          ((before ++ gap).reverse.length - before.length) = gap := by simp
      rw [Text.occurrencesFrom_of_some hahead hne, List.map_cons, replaceFrom,
        hwrite, hout]
      simp only [hgap]
      rw [hbehind, hstop, htext]
      simp only [bind, Except.bind, hleft]
      simp

/-- A search of the standard engine is a pass over the text. -/
theorem replaceWith_of_isPass (regex : Standard.Regex) {find : Finder α}
    {groups : α → List (Option Text)}
    {write : σ → Occurrence → Except SelectorError (Text × σ)}
    {out : σ → Text → Text × σ}
    (hregex : regex.occurrences = Text.occurrences find groups)
    (hfind : find.IsForward) (hend : LeavesEnd find)
    (h : IsPass find groups write out) (s : σ) (t : Text) :
    standard.replaceWith regex write s t = .ok (out s t) := by
  have hrun := replaceFrom_of_isPass standard regex hfind hend h [] [] t false s
  have hlist : standard.occurrences regex t =
      (Text.occurrencesFrom find groups [] false t).map .ok := by
    show (regex.occurrences t).map _ = _
    rw [hregex]
    rfl
  show standard.replaceFrom regex write t 0 s (standard.occurrences regex t) = _
  rw [hlist]
  exact hrun

end Engine

/-! ## Literals and placeholders -/

namespace Standard

private theorem findLiteral_eq_some {ahead left : Text} {quote : Char}
    (h : findLiteral [] ahead = some (quote, left)) :
    ∃ rest body, ahead = quote :: rest ∧ (quote = '"' ∨ quote = '\'') ∧
      Literal.closeLiteral quote rest = some (body, left) := by
  cases ahead with
  | nil => cases h
  | cons c rest =>
    rw [findLiteral] at h
    split at h
    · rename_i hquote
      obtain ⟨⟨body, left'⟩, hclose, heq⟩ := Option.map_eq_some_iff.mp h
      cases heq
      exact ⟨rest, body, rfl, hquote, hclose⟩
    · cases h

private theorem isForward_findLiteral : findLiteral.IsForward where
  ahead_only _ _ := rfl
  length_lt := by
    intro ahead quote left h
    obtain ⟨rest, body, rfl, -, hclose⟩ := findLiteral_eq_some h
    exact Nat.lt_succ_of_lt (Literal.length_closeLiteral_lt hclose)

private theorem leavesEnd_findLiteral : Engine.LeavesEnd findLiteral := by
  intro ahead quote left h
  obtain ⟨rest, body, rfl, -, hclose⟩ := findLiteral_eq_some h
  exact ⟨quote :: body,
    by rw [List.cons_append, Literal.closeLiteral_append hclose]⟩

/-- Masking goes along the segments of a text. -/
private theorem isPass_capture :
    Engine.IsPass findLiteral (fun quote => [some [quote]])
    (fun table o => .ok (Literal.placeholder table.length, table ++ [o.text]))
    (fun table t => (Literal.mask table.length (Literal.segments t),
      table ++ Literal.literals (Literal.segments t))) where
  nil table := by simp [Literal.segments, Literal.mask, Literal.literals]
  copy table c rest h := by
    have hsegments : Literal.segments (c :: rest) =
        .char c :: Literal.segments rest := by
      by_cases hquote : c = '"' ∨ c = '\''
      · rw [findLiteral, if_pos hquote, Option.map_eq_none_iff] at h
        exact Literal.segments_quote hquote h
      · exact Literal.segments_char rest hquote
    simp only [hsegments, Literal.mask, Literal.literals]
  replace table taken left quote start h := by
    obtain ⟨rest, body, hahead, hquote, hclose⟩ := findLiteral_eq_some h
    have htaken : taken = quote :: body := by
      rw [Literal.closeLiteral_append hclose, ← List.cons_append] at hahead
      exact List.append_cancel_right hahead
    refine ⟨_, _, ?_, rfl⟩
    rw [hahead, Literal.segments_literal hquote hclose, htaken]
    simp [Literal.mask, Literal.literals, Occurrence.text, Occurrence.group?]

/-- Masking with the standard engine cuts the text into segments. -/
theorem capture_eq (t : Text) :
    Engine.standard.capture t = .ok (Literal.capture t) :=
  Engine.replaceWith_of_isPass literal rfl isForward_findLiteral
    leavesEnd_findLiteral isPass_capture [] t

private theorem isForward_placeholder? :
    Finder.IsForward fun _ ahead => Literal.placeholder? ahead where
  ahead_only _ _ := rfl
  length_lt := Literal.length_placeholder?_lt

private theorem leavesEnd_placeholder? :
    Engine.LeavesEnd fun _ ahead => Literal.placeholder? ahead := by
  intro ahead digits left h
  exact ⟨_, (Literal.placeholder?_eq_some h).symm⟩

/-- Restoring reads placeholders from left to right. -/
private theorem isPass_restore (table : List Text) :
    Engine.IsPass (fun _ ahead => Literal.placeholder? ahead)
      (fun digits => [some digits]) (fun (_ : Unit) o =>
        (Except.ok (((o.group? 1).bind (Literal.numbered? table)).getD
          o.text)).map (·, ()))
      (fun _ t => (Literal.restore table t, ())) where
  nil _ := by simp [Literal.restore]
  copy _ c rest h := by simp only [Literal.restore_cons_of_none h]
  replace _ taken left digits start h := by
    have htaken : taken = "__S" ++ digits ++ "__" :=
      List.append_cancel_right (Literal.placeholder?_eq_some h)
    refine ⟨_, (), ?_, rfl⟩
    rw [Literal.restore_of_placeholder? h, htaken]
    simp [Occurrence.text, Occurrence.group?]

/-- Restoring with the standard engine. -/
theorem restore_eq (table : List Text) (t : Text) :
    Engine.standard.restore table t = .ok (Literal.restore table t) := by
  unfold Engine.restore
  split
  · rename_i hempty
    rw [List.isEmpty_iff.mp hempty, Literal.restore_nil]
  · have hrun := Engine.replaceWith_of_isPass placeholder rfl
      isForward_placeholder? leavesEnd_placeholder? (isPass_restore table) () t
    exact congrArg (Except.map (·.1)) hrun

/-! ## Names -/

private theorem readNames_of_not_isMeta {c : Char} (h : isMeta c = false)
    (rest : Text) :
    readNames (c :: rest) = (readNames rest).map (consName c) := by
  have hne : ∀ d, isMeta d = true → c ≠ d := by
    rintro d hd rfl
    exact absurd hd (Bool.eq_false_iff.mp h)
  rw [readNames, h]
  · rfl
  · exact fun hclose => hne ')' (by decide) hclose
  · exact fun hbar => hne '|' (by decide) hbar
  · exact fun d left hslash _ => hne '\\' (by decide) hslash

private theorem readNames_escape (name : Text) {rest first left : Text}
    {names : List Text} (h : readNames rest = some (first :: names, left)) :
    readNames (escape name ++ rest) =
      some ((name ++ first) :: names, left) := by
  induction name with
  | nil => exact h
  | cons c name ih =>
    have hstart : escape (c :: name) ++ rest =
        (if isMeta c then ['\\', c] else [c]) ++ (escape name ++ rest) := by
      simp [escape]
    rw [hstart]
    by_cases hmeta : isMeta c = true
    · simp [hmeta, readNames, ih, consName]
    · rw [if_neg hmeta, List.singleton_append,
        readNames_of_not_isMeta (Bool.eq_false_iff.mpr hmeta), ih]
      rfl

private theorem readNames_join {names : List Text} (hne : names ≠ [])
    (rest : Text) :
    readNames (Text.join "|" (names.map escape) ++ ')' :: rest) =
      some (names, rest) := by
  induction names with
  | nil => exact absurd rfl hne
  | cons name names ih =>
    cases names with
    | nil =>
      rw [List.map_singleton, Text.join_singleton, readNames_escape name rfl,
        List.append_nil]
    | cons next names =>
      have hnext := ih (List.cons_ne_nil _ _)
      have hbar : readNames
          ('|' :: (Text.join "|" ((next :: names).map escape) ++ ')' :: rest)) =
          some ([] :: next :: names, rest) := by
        rw [readNames, hnext, Option.map_some]
      have hname := readNames_escape name hbar
      rw [List.append_nil] at hname
      rw [List.map_cons, List.map_cons, Text.join_cons_cons]
      simpa using hname

/-- A choice of names is recognised. -/
theorem compile_namesPattern {names : List Text} (hne : names ≠ []) :
    Engine.standard.compile (Engine.standard.namesPattern names) =
      .ok (ofNames (Engine.standard.namesPattern names) names) := by
  have hnames : namesOf? (Engine.standard.namesPattern names) = some names := by
    have hstart : Text.after? ":(" (Engine.standard.namesPattern names) =
        some (Text.join "|" (names.map escape) ++ ')' :: argumentPattern) := by
      rw [Text.after?_eq_some_iff, Engine.namesPattern]
      simp [Engine.standard]
    simp only [namesOf?, hstart, Option.bind_eq_bind, Option.bind_some,
      readNames_join hne, if_true]
  show compile _ = _
  simp only [compile, hnames]
  rfl

end Standard

/-! ## Uses of names -/

/-- The arguments of a function, where nothing fails. -/
def argumentsOf (table : List Text) (arity : Nat) : Option Text → List Text
  | none => []
  | some argument =>
    if 1 < arity then
      (argument.splitBy (· == ',')).map fun piece =>
        Literal.restore table (Text.trim piece)
    else [Literal.restore table argument]

/-- What a use of a plain name is replaced by, where nothing fails. -/
def expandName (registry : Registry) (table : List Text) (use : NameUse) :
    Text :=
  let argument := (use.argument.map Text.trim).filter fun a => !a.isEmpty
  match registry.find? use.name with
  | some (.literal replacement) => replacement
  | some (.function arity make) => make (argumentsOf table arity argument)
  | some (.onMatch make) => make (argument.map (Literal.restore table)) {}
  | none => use.written

namespace Standard

private theorem argumentsOf_eq (table : List Text) (arity : Nat)
    (argument : Option Text) :
    Engine.standard.argumentsOf table arity argument =
      .ok (argumentsOf table arity argument) := by
  cases argument with
  | none => rfl
  | some argument =>
    simp only [Engine.argumentsOf, argumentsOf, restore_eq]
    split
    · exact List.mapM_pure
    · rfl

private theorem restoreArgument_eq (table : List Text)
    (argument : Option Text) :
    Engine.standard.restoreArgument table argument =
      .ok (argument.map (Literal.restore table)) := by
  cases argument with
  | none => rfl
  | some argument => rw [Engine.restoreArgument, restore_eq]; rfl

/-- What is written for a use does not fail. -/
private theorem expandName_eq {r : Registry} {use : NameUse}
    (hname : use.name ∈ r.names) (table : List Text) (source taken : Text)
    (start stop : Nat) :
    Engine.standard.expandName r table (ofNames source r.names)
        ⟨start, stop, some taken :: use.groups⟩ =
          .ok (expandName r table use) := by
  obtain ⟨handler, hfind, -⟩ := Registry.mem_entries_of_mem_names hname
  have hdata : Engine.standard.named? (ofNames source r.names)
      ⟨start, stop, some taken :: use.groups⟩ "data" = use.argument := rfl
  have hgroup : Occurrence.group? ⟨start, stop, some taken :: use.groups⟩ 1 =
      some use.name := rfl
  unfold Engine.expandName expandName
  rw [hdata, hgroup, Option.getD_some, hfind]
  cases handler with
  | literal replacement => rfl
  | function arity make => simp only [argumentsOf_eq, Except.map]
  | onMatch make => simp only [restoreArgument_eq, Except.map]

private theorem leavesEnd_findName (names : List Text) :
    Engine.LeavesEnd (findName names) := by
  intro ahead use left h
  unfold findName at h
  split at h
  · rw [(leads_of_useOfNames? h).2.written]
    exact List.suffix_append _ _
  · cases h

/-- The pass over the plain names of a registry. -/
private theorem isPass_names (r : Registry) (table : List Text)
    (source : Text) :
    Engine.IsPass (findName r.names) NameUse.groups
      (fun (_ : Unit) o =>
        (Engine.standard.expandName r table (ofNames source r.names) o).map
          (·, ()))
      (fun _ t => (Text.replaceAll (findName r.names) (expandName r table) t,
        ())) where
  nil _ := by simp only [replaceAll_nil]
  copy _ c rest h := by simp only [replaceAll_copy h]
  replace _ taken left use start h := by
    have hname : use.name ∈ r.names := by
      unfold findName at h
      split at h
      · exact (leads_of_useOfNames? h).1
      · cases h
    refine ⟨expandName r table use, (), by simp only [replaceAll_found h], ?_⟩
    rw [expandName_eq hname]
    rfl

private theorem replaceAll_findName_nil (write : NameUse → Text) (t : Text) :
    Text.replaceAll (findName []) write t = t := by
  induction t with
  | nil => exact replaceAll_nil
  | cons c rest ih =>
    have hnone : findName [] [] (c :: rest) = none := by
      unfold findName
      split <;> rfl
    rw [replaceAll_copy hnone, ih]

/-- The names of a registry are replaced in one pass. -/
theorem expandNames_eq (r : Registry) (table : List Text) (t : Text) :
    Engine.standard.expandNames r table t =
      .ok (Text.replaceAll (findName r.names) (expandName r table) t) := by
  unfold Engine.expandNames
  split
  · rename_i hempty
    rw [List.isEmpty_iff.mp hempty, replaceAll_findName_nil]
  · rename_i hsome
    have hne : r.names ≠ [] := by simpa using hsome
    have hpass := isPass_names r table (Engine.standard.namesPattern r.names)
    have hrun := Engine.replaceWith_of_isPass
      (ofNames (Engine.standard.namesPattern r.names) r.names) rfl
      (isForward_findName r.names) (leavesEnd_findName r.names) hpass () t
    simp only [compile_namesPattern hne]
    exact congrArg (Except.map (·.1)) hrun

end Standard

/-! ## Registries -/

namespace Registry

/-- Without definitions a selector stays as it is. -/
theorem expand_of_isEmpty {r : Registry} (h : r.isEmpty = true)
    (selector : Text) :
    r.expand selector = .ok selector := by
  rw [expand, Engine.expand, if_pos h]

/-- Expansion in the program. Only the patterns of the registry enter through
the engine. -/
theorem expand_eq {r : Registry} (h : r.isEmpty = false) (selector : Text) :
    r.expand selector = (do
      let passes ← Engine.standard.passes r
      let expanded ← passes.foldlM
        (Engine.standard.runPass (Literal.capture selector).2)
        (Text.replaceAll (findName r.names)
          (expandName r (Literal.capture selector).2)
          (Literal.capture selector).1)
      .ok (Literal.restore (Literal.capture selector).2 expanded)) := by
  rw [expand, Engine.expand, h]
  simp only [Standard.capture_eq, Standard.expandNames_eq, Standard.restore_eq]
  rfl

private theorem passes_plain {r : Registry}
    (h : ∀ key ∈ r.keys, isPatternKey key = false) :
    Engine.standard.passes r = .ok [] := by
  have hnone : r.entries.filter (fun entry => isPatternKey entry.1) = [] :=
    List.filter_eq_nil_iff.mpr fun entry hentry => by
      simp [h entry.1 (List.mem_map_of_mem hentry)]
  exact congrArg (List.mapM fun entry =>
    Engine.standard.compileKey entry.1 entry.2) hnone

/-- With plain names, expansion is the pass over the uses of the names while the
literals are masked. -/
theorem expand_of_plain {r : Registry} (hne : r.keys ≠ [])
    (h : ∀ key ∈ r.keys, isPatternKey key = false) (selector : Text) :
    r.expand selector = .ok (Literal.restore (Literal.capture selector).2
      (Text.replaceAll (findName r.names)
        (expandName r (Literal.capture selector).2)
        (Literal.capture selector).1)) := by
  have hsome : r.isEmpty = false := by simpa [isEmpty, keys] using hne
  rw [expand_eq hsome, passes_plain h]
  rfl

/-- With plain names and no quotes, expansion is the pass over the uses of the
names. -/
theorem expand_plain {r : Registry} {selector : Text} (hne : r.keys ≠ [])
    (h : ∀ key ∈ r.keys, isPatternKey key = false) (hdouble : '"' ∉ selector)
    (hsingle : '\'' ∉ selector) :
    r.expand selector =
      .ok (Text.replaceAll (findName r.keys) (expandName r []) selector) := by
  have hnames : r.names = r.keys := List.filter_eq_self.mpr fun key hkey => by
    simp [h key hkey]
  rw [expand_of_plain hne h, Literal.capture_of_no_quote hdouble hsingle,
    hnames]
  exact congrArg Except.ok (Literal.restore_nil _)

end Registry

end SelectorPath
