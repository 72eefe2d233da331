import Mathlib
import SelectorPath.Proofs.StandardEngine

/-!
# Faults of pattern keys

The pattern keys of a registry are made ready before a selector is looked at.
What comes later looks for patterns again and again: for literals, for plain
names, for the patterns of the keys, and for placeholders in arguments and at
the end. Each search can be given up by the engine, and the choice of plain
names has to be compiled. With an engine that never gives up and compiles every
choice of names, none of this fails. So a registry either expands every selector
or none, and what it reports is the fault of the first of its pattern keys that
has one.

A key can have three faults. Its text is looked at first, then its handler, and
only then is the pattern compiled, so a key has at most one of them.

## Main results

* `Engine.compileKey_eq_error_iff`: the fault of a key.
* `Engine.hasResult_replaceFrom`: replacing goes through if every search and
  everything written does.
* `Engine.expand_fails_alike`: when expansion fails, and with which error.
-/

namespace SelectorPath

/-! ## Cutting a key -/

/-- How a pattern key is cut. Its last slash ends the text of the pattern, and
the flags stand behind it; a key with one slash only has no text. -/
inductive CutsKey : (key source flags : Text) → Prop
  | closed (source : Text) {flags : Text} (h : '/' ∉ flags) :
    CutsKey ('/' :: (source ++ '/' :: flags)) source flags
  | unclosed {flags : Text} (h : '/' ∉ flags) : CutsKey ('/' :: flags) [] flags

private theorem exists_cutsKey {key : Text} (h : isPatternKey key = true) :
    ∃ source flags, CutsKey key source flags := by
  cases key with
  | nil => simp [isPatternKey] at h
  | cons c body =>
    obtain rfl : c = '/' := by simpa [isPatternKey] using h
    by_cases hslash : '/' ∈ body
    · obtain ⟨flags, source, hbody, hflags⟩ :=
        List.eq_append_cons_of_mem (List.mem_reverse.mpr hslash)
      have hcut : body = source.reverse ++ '/' :: flags.reverse := by
        rw [← List.reverse_reverse body, hbody]
        simp
      rw [hcut]
      exact ⟨_, _, .closed _ (by simpa using hflags)⟩
    · exact ⟨_, _, .unclosed hslash⟩

private theorem takeWhile_slash {flags : Text} (h : '/' ∉ flags)
    (source : Text) :
    ((source ++ '/' :: flags).reverse.takeWhile (· != '/')).reverse =
      flags := by
  have hall : ∀ c ∈ flags.reverse, (c != '/') = true := fun c hc => by
    rw [bne_iff_ne]
    rintro rfl
    exact h (List.mem_reverse.mp hc)
  have hbody : (source ++ '/' :: flags).reverse =
      flags.reverse ++ '/' :: source.reverse := by simp
  rw [hbody, List.takeWhile_append_of_pos hall,
    List.takeWhile_cons_of_neg (by decide), List.append_nil,
    List.reverse_reverse]

/-- The text of a key is the one of its cut, and ignoring case is among its
flags if it is among those of the cut. -/
theorem cutPatternKey_of_cutsKey {key source flags : Text}
    (h : CutsKey key source flags) :
    (cutPatternKey key).1 = source ∧ (cutPatternKey key).2.contains 'i' =
      flags.contains 'i' := by
  cases h with
  | closed source h =>
    have hlength : (source ++ '/' :: flags).length - flags.length - 1 =
        source.length := by
      simp only [List.length_append, List.length_cons]
      omega
    simp only [cutPatternKey, List.drop_succ_cons, List.drop_zero,
      takeWhile_slash h, hlength]
    simp
  | unclosed h => simp [cutPatternKey, h]

/-! ## Faults of one key -/

/-- Whether the text of a key is refused: it does not start with a small letter,
or it ends with an anchor. -/
def IsRefused (source : Text) : Prop :=
  (∀ c rest, source = c :: rest → c.isLower = false) ∨
    ("$" : Text) <:+ source ∧ ¬("\\$" : Text) <:+ source

private theorem isPatternSource_eq_false_iff {source : Text} :
    isPatternSource source = false ↔ IsRefused source := by
  have hhead : source.head?.any Char.isLower = false ↔
      ∀ c rest, source = c :: rest → c.isLower = false := by
    cases source with
    | nil => simp
    | cons d rest =>
      constructor
      · rintro hd c rest' ⟨⟩
        simpa using hd
      · intro h
        simpa using h d rest rfl
  have hend : ∀ last : Text, last.isSuffixOf source = true ↔ last <:+ source :=
    fun last => List.isSuffixOf_iff_suffix
  rw [isPatternSource, Bool.and_eq_false_iff, hhead, Bool.or_eq_false_iff,
    Bool.not_eq_false', hend, Bool.eq_false_iff, Ne, hend, IsRefused]

/-- Why a pattern key cannot be used with its handler, as the error that says
so. -/
inductive KeyFault (e : Engine) (key : Text) (handler : Handler) :
    SelectorError → Prop
  /-- The text of the key is refused. -/
  | source {source flags : Text} (hcut : CutsKey key source flags)
    (hsource : IsRefused source) : KeyFault e key handler (.badPatternKey key)
  /-- The handler makes nothing of what a pattern has matched. -/
  | handler {source flags : Text} (hcut : CutsKey key source flags)
    (hsource : ¬IsRefused source) (hhandler : ∀ make, handler ≠ .onMatch make) :
    KeyFault e key handler (.patternWithoutMatch key)
  /-- The engine cannot compile the pattern. -/
  | pattern {source flags cause : Text} {make : Option Text → Captures → Text}
    (hcut : CutsKey key source flags) (hsource : ¬IsRefused source)
    (hhandler : handler = .onMatch make)
    (hpattern : e.compile (patternText (flags.contains 'i') source) =
      .error cause) :
    KeyFault e key handler
      (.badPattern (patternText (flags.contains 'i') source) cause)

namespace Engine

variable {e : Engine}

private theorem compileKey_of_refused {key source flags : Text}
    (handler : Handler) (hcut : CutsKey key source flags)
    (hsource : IsRefused source) :
    e.compileKey key handler = .error (.badPatternKey key) := by
  have hsource := isPatternSource_eq_false_iff.mpr hsource
  simp only [compileKey, (cutPatternKey_of_cutsKey hcut).1, hsource,
    Bool.not_false, if_true]

private theorem compileKey_of_accepted {key source flags : Text}
    (handler : Handler) (hcut : CutsKey key source flags)
    (hsource : ¬IsRefused source) :
    e.compileKey key handler =
      match handler with
      | .onMatch make =>
        ((e.compile (patternText (flags.contains 'i') source)).map
          (⟨·, make⟩)).mapError
          (.badPattern (patternText (flags.contains 'i') source))
      | _ => .error (.patternWithoutMatch key) := by
  obtain ⟨hkey, hflags⟩ := cutPatternKey_of_cutsKey hcut
  rw [← isPatternSource_eq_false_iff, Bool.not_eq_false] at hsource
  cases handler <;>
    simp only [compileKey, hkey, hsource, hflags, Bool.not_true,
      Bool.false_eq_true, if_false]

/-- A key is refused exactly for its fault. -/
theorem compileKey_eq_error_iff {key : Text} {handler : Handler}
    {error : SelectorError} (h : isPatternKey key = true) :
    e.compileKey key handler = .error error ↔ KeyFault e key handler error := by
  constructor
  · intro he
    obtain ⟨source, flags, hcut⟩ := exists_cutsKey h
    by_cases hsource : IsRefused source
    · rw [compileKey_of_refused handler hcut hsource] at he
      cases he
      exact .source hcut hsource
    · rw [compileKey_of_accepted handler hcut hsource] at he
      cases handler with
      | onMatch make =>
        cases hpattern : e.compile
            (patternText (flags.contains 'i') source) with
        | ok regex =>
          rw [hpattern] at he
          cases he
        | error cause =>
          rw [hpattern] at he
          cases he
          exact .pattern hcut hsource rfl hpattern
      | _ =>
        cases he
        exact .handler hcut hsource (by rintro make ⟨⟩)
  · intro he
    cases he with
    | source hcut hsource => exact compileKey_of_refused handler hcut hsource
    | handler hcut hsource hhandler =>
      rw [compileKey_of_accepted handler hcut hsource]
      cases handler with
      | onMatch make => exact absurd rfl (hhandler make)
      | _ => rfl
    | pattern hcut hsource hhandler hpattern =>
      rw [compileKey_of_accepted handler hcut hsource, hhandler, hpattern]
      rfl

end Engine

/-! ## Results -/

section HasResult

variable {ε α β : Type}

/-- Whether a computation has a result. -/
def HasResult (x : Except ε α) : Prop :=
  ∃ a, x = .ok a

private theorem hasResult_ok (a : α) : HasResult (.ok a : Except ε α) :=
  ⟨a, rfl⟩

private theorem HasResult.ne_error {x : Except ε α} (h : HasResult x) (e : ε) :
    x ≠ .error e := by
  obtain ⟨a, rfl⟩ := h
  rintro ⟨⟩

private theorem HasResult.map {x : Except ε α} (h : HasResult x) (f : α → β) :
    HasResult (x.map f) := by
  obtain ⟨a, rfl⟩ := h
  exact ⟨f a, rfl⟩

private theorem HasResult.bind {x : Except ε α} {f : α → Except ε β}
    (h : HasResult x) (hf : ∀ a, HasResult (f a)) : HasResult (x >>= f) := by
  obtain ⟨a, rfl⟩ := h
  exact hf a

private theorem hasResult_mapM {f : α → Except ε β} {l : List α}
    (h : ∀ x ∈ l, HasResult (f x)) :
    HasResult (l.mapM f) := by
  induction l with
  | nil => exact hasResult_ok []
  | cons a rest ih =>
    rw [List.forall_mem_cons] at h
    rw [List.mapM_cons]
    exact h.1.bind fun b => (ih h.2).bind fun bs => hasResult_ok (b :: bs)

private theorem hasResult_of_mapM {f : α → Except ε β} {l : List α}
    (h : HasResult (l.mapM f)) :
    ∀ x ∈ l, HasResult (f x) := by
  induction l with
  | nil => exact List.forall_mem_nil _
  | cons a rest ih =>
    obtain ⟨bs, h⟩ := h
    rw [List.mapM_cons] at h
    cases hfirst : f a with
    | error e =>
      rw [hfirst] at h
      cases h
    | ok b =>
      cases hrest : rest.mapM f with
      | error e =>
        rw [hfirst, hrest] at h
        cases h
      | ok bs' => exact List.forall_mem_cons.mpr ⟨⟨b, hfirst⟩, ih ⟨bs', hrest⟩⟩

private theorem hasResult_foldlM {f : β → α → Except ε β}
    (h : ∀ b a, HasResult (f b a)) (b : β) (l : List α) :
    HasResult (l.foldlM f b) := by
  induction l generalizing b with
  | nil => exact hasResult_ok b
  | cons a rest ih =>
    rw [List.foldlM_cons]
    exact (h b a).bind ih

/-- A list is run through up to the first failure. -/
private theorem mapM_eq_error_iff {f : α → Except ε β} {l : List α} {e : ε} :
    l.mapM f = .error e ↔
      ∃ before x behind, l = before ++ x :: behind ∧ f x = .error e ∧
        ∀ y ∈ before, ∀ e', f y ≠ .error e' := by
  induction l with
  | nil => simp [pure, Except.pure]
  | cons a rest ih =>
    rw [List.mapM_cons]
    cases hfirst : f a with
    | error e' =>
      constructor
      · rintro ⟨⟩
        exact ⟨[], a, rest, rfl, hfirst, List.forall_mem_nil _⟩
      · rintro ⟨before, x, behind, heq, hx, hbefore⟩
        cases before with
        | nil =>
          cases heq
          exact congrArg Except.error (Except.error.inj (hfirst.symm.trans hx))
        | cons b before =>
          cases heq
          exact absurd hfirst (hbefore a List.mem_cons_self e')
    | ok b =>
      have hrest : (Except.ok b >>= fun b => rest.mapM f >>= fun bs =>
          pure (b :: bs)) = .error e ↔
          rest.mapM f = .error e := by
        cases rest.mapM f with
        | error e' => rfl
        | ok bs => exact ⟨by rintro ⟨⟩, by rintro ⟨⟩⟩
      rw [hrest, ih]
      constructor
      · rintro ⟨before, x, behind, rfl, hx, hbefore⟩
        refine ⟨a :: before, x, behind, rfl, hx,
          List.forall_mem_cons.mpr ⟨?_, hbefore⟩⟩
        rw [hfirst]
        rintro e' ⟨⟩
      · rintro ⟨before, x, behind, heq, hx, hbefore⟩
        cases before with
        | nil =>
          cases heq
          rw [hfirst] at hx
          cases hx
        | cons d before =>
          cases heq
          exact ⟨before, x, behind, rfl, hx,
            (List.forall_mem_cons.mp hbefore).2⟩

end HasResult

/-! ## The first fault -/

/-- The error of the first pattern key, in the order of the registry, that has a
fault. -/
def Registry.FirstFault (e : Engine) (r : Registry) (error : SelectorError) :
    Prop :=
  ∃ before key handler behind, r.entries = before ++ (key, handler) :: behind ∧
    isPatternKey key = true ∧ KeyFault e key handler error ∧
      ∀ entry ∈ before, isPatternKey entry.1 = true → ∀ error',
        ¬KeyFault e entry.1 entry.2 error'

namespace Engine

variable {e : Engine}

private theorem passes_eq_error_iff {r : Registry} {error : SelectorError} :
    e.passes r = .error error ↔ r.FirstFault e error := by
  have hpasses : e.passes r = .error error ↔
      (r.entries.filter fun entry => isPatternKey entry.1).mapM
        (fun entry => e.compileKey entry.1 entry.2) = .error error := Iff.rfl
  rw [hpasses, mapM_eq_error_iff]
  constructor
  · rintro ⟨before, ⟨key, handler⟩, behind, hfilter, hkey, hbefore⟩
    obtain ⟨front, back, hentries, hfront, hback⟩ :=
      List.filter_eq_append_iff.mp hfilter
    obtain ⟨skipped, rest, rfl, hskipped, hpattern, -⟩ :=
      List.filter_eq_cons_iff.mp hback
    refine ⟨front ++ skipped, key, handler, rest,
      by rw [hentries, List.append_assoc], hpattern,
      (compileKey_eq_error_iff hpattern).mp hkey, ?_⟩
    intro entry hentry hpattern' error' hfault
    rcases List.mem_append.mp hentry with hmem | hmem
    · have hbefore' : entry ∈ before :=
        hfront ▸ List.mem_filter.mpr ⟨hmem, hpattern'⟩
      exact hbefore entry hbefore' error'
        ((compileKey_eq_error_iff hpattern').mpr hfault)
    · exact hskipped entry hmem hpattern'
  · rintro ⟨before, key, handler, behind, hentries, hpattern, hfault, hbefore⟩
    refine ⟨before.filter fun entry => isPatternKey entry.1, (key, handler),
      behind.filter fun entry => isPatternKey entry.1, ?_,
      (compileKey_eq_error_iff hpattern).mpr hfault, ?_⟩
    · rw [hentries, List.filter_append, List.filter_cons, if_pos hpattern]
    · intro entry hentry error' herror'
      obtain ⟨hmem, hpattern'⟩ := List.mem_filter.mp hentry
      exact hbefore entry hmem hpattern' error'
        ((compileKey_eq_error_iff hpattern').mp herror')

/-- Some pattern key has a fault exactly if there is a first one that has. -/
theorem exists_firstFault_iff {r : Registry} :
    (∃ error, r.FirstFault e error) ↔
      ∃ entry ∈ r.entries, isPatternKey entry.1 = true ∧
        ∃ error, KeyFault e entry.1 entry.2 error := by
  constructor
  · rintro ⟨error, before, key, handler, behind, hentries, hpattern, hfault, -⟩
    exact ⟨(key, handler), by simp [hentries], hpattern, error, hfault⟩
  · rintro ⟨entry, hentry, hpattern, error, hfault⟩
    cases hpasses : e.passes r with
    | error error' => exact ⟨error', passes_eq_error_iff.mp hpasses⟩
    | ok passes =>
      have hready := hasResult_of_mapM ⟨passes, hpasses⟩ entry
        (List.mem_filter.mpr ⟨hentry, hpattern⟩)
      exact absurd ((compileKey_eq_error_iff hpattern).mpr hfault)
        (hready.ne_error error)

/-! ## Stages of expansion -/

/-- The engine gives up no search. -/
def NeverGivesUp (e : Engine) : Prop :=
  ∀ regex t, ∀ found ∈ e.occurrences regex t, ∃ o, found = .ok o

/-- The engine compiles every choice of escaped names. -/
def CompilesNames (e : Engine) : Prop :=
  ∀ names, names ≠ [] → HasResult (e.compile (e.namesPattern names))

/-- Replacing goes through if every search and everything written does. -/
theorem hasResult_replaceFrom {σ : Type} (regex : e.Regex)
    {write : σ → Occurrence → Except SelectorError (Text × σ)}
    (hwrite : ∀ s o, HasResult (write s o))
    {found : List (Except Text Occurrence)}
    (hfound : ∀ x ∈ found, ∃ o, x = .ok o) (t : Text) (last : Nat) (s : σ) :
    HasResult (e.replaceFrom regex write t last s found) := by
  induction found generalizing last s with
  | nil => exact hasResult_ok _
  | cons x found ih =>
    rw [List.forall_mem_cons] at hfound
    obtain ⟨⟨o, rfl⟩, hfound⟩ := hfound
    rw [replaceFrom]
    exact (hwrite s o).bind fun written =>
      (ih hfound o.stop written.2).bind fun left => hasResult_ok _

section Reliable

variable (hsearch : e.NeverGivesUp)

include hsearch

private theorem hasResult_replaceAll {regex : e.Regex}
    {write : Occurrence → Except SelectorError Text}
    (hwrite : ∀ o, HasResult (write o)) (t : Text) :
    HasResult (e.replaceAll regex write t) := by
  have hrun := hasResult_replaceFrom regex
    (fun (_ : Unit) o => (hwrite o).map fun t => (t, ()))
      (hsearch regex t) t 0 ()
  exact hrun.map _

private theorem hasResult_capture (t : Text) : HasResult (e.capture t) :=
  hasResult_replaceFrom e.literal (fun _ _ => hasResult_ok _)
    (hsearch e.literal t) t 0 []

private theorem hasResult_restore (table : List Text) (t : Text) :
    HasResult (e.restore table t) := by
  unfold restore
  split
  · exact hasResult_ok t
  · exact hasResult_replaceAll hsearch (fun o => hasResult_ok _) t

private theorem hasResult_restoreArgument (table : List Text)
    (argument : Option Text) :
    HasResult (e.restoreArgument table argument) := by
  cases argument with
  | none => exact hasResult_ok none
  | some argument => exact (hasResult_restore hsearch table argument).map some

private theorem hasResult_argumentsOf (table : List Text) (arity : Nat)
    (argument : Option Text) :
    HasResult (e.argumentsOf table arity argument) := by
  cases argument with
  | none => exact hasResult_ok []
  | some argument =>
    rw [argumentsOf]
    split
    · exact hasResult_mapM fun piece _ =>
        hasResult_restore hsearch table (Text.trim piece)
    · exact (hasResult_restore hsearch table argument).bind fun whole =>
        hasResult_ok [whole]

private theorem hasResult_expandName (r : Registry) (table : List Text)
    (regex : e.Regex) (o : Occurrence) :
    HasResult (e.expandName r table regex o) := by
  unfold expandName
  split
  · exact hasResult_ok _
  · exact (hasResult_argumentsOf hsearch table _ _).map _
  · exact (hasResult_restoreArgument hsearch table _).map _
  · exact hasResult_ok _

private theorem hasResult_expandNames (hnames : e.CompilesNames) (r : Registry)
    (table : List Text) (t : Text) : HasResult (e.expandNames r table t) := by
  unfold expandNames
  split
  · exact hasResult_ok t
  · rename_i hsome
    obtain ⟨regex, hregex⟩ := hnames r.names (by simpa using hsome)
    simp only [hregex, Except.mapError]
    exact hasResult_replaceAll hsearch
      (hasResult_expandName hsearch r table regex) t

private theorem hasResult_runPass (table : List Text) (t : Text)
    (pass : e.Pass) :
    HasResult (e.runPass table t pass) :=
  hasResult_replaceAll hsearch
    (fun _ => (hasResult_restoreArgument hsearch table _).map _) t

/-- Once the pattern keys are ready, expansion goes through. -/
private theorem hasResult_expand (hnames : e.CompilesNames) {r : Registry}
    {passes : List e.Pass} (hpasses : e.passes r = .ok passes)
    (selector : Text) : HasResult (e.expand r selector) := by
  unfold expand
  split
  · exact hasResult_ok selector
  · rw [hpasses]
    exact (hasResult_capture hsearch selector).bind fun masked =>
      (hasResult_expandNames hsearch hnames r masked.2 masked.1).bind fun t =>
        (hasResult_foldlM (hasResult_runPass hsearch masked.2) t passes).bind
          (hasResult_restore hsearch masked.2)

/-- Expansion fails where the pattern keys cannot be made ready, and nowhere
else. -/
theorem expand_eq_error_iff (hnames : e.CompilesNames) {r : Registry}
    {selector : Text} {error : SelectorError} :
    e.expand r selector = .error error ↔ r.FirstFault e error := by
  rw [← passes_eq_error_iff]
  cases hpasses : e.passes r with
  | ok passes =>
    refine ⟨fun h => ?_, by rintro ⟨⟩⟩
    exact absurd h ((hasResult_expand hsearch hnames hpasses selector).ne_error
      error)
  | error error' =>
    have hsome : ¬r.isEmpty = true := by
      intro hempty
      rw [passes, List.isEmpty_iff.mp hempty] at hpasses
      cases hpasses
    rw [expand, if_neg hsome, hpasses]
    constructor
    · rintro ⟨⟩
      rfl
    · rintro ⟨⟩
      rfl

end Reliable

/-- Two selectors fail alike under one registry. They fail exactly if a pattern
key has a fault, and with the error of the first key that has one. -/
theorem expand_fails_alike (e : Engine) (hsearch : e.NeverGivesUp)
    (hnames : e.CompilesNames) (r : Registry) (selector selector' : Text) :
    (∀ error, e.expand r selector = .error error ↔
      e.expand r selector' = .error error) ∧
      ((∃ error, e.expand r selector = .error error) ↔
        ∃ entry ∈ r.entries, isPatternKey entry.1 = true ∧
          ∃ error, KeyFault e entry.1 entry.2 error) ∧
      ∀ error, e.expand r selector = .error error ↔ r.FirstFault e error := by
  refine ⟨fun error => ?_, ?_, fun error => expand_eq_error_iff hsearch hnames⟩
  · rw [expand_eq_error_iff hsearch hnames, expand_eq_error_iff hsearch hnames]
  · simp only [expand_eq_error_iff hsearch hnames, exists_firstFault_iff]

/-! ### The standard engine -/

private theorem neverGivesUp_standard : standard.NeverGivesUp := by
  intro regex t found hfound
  obtain ⟨o, -, rfl⟩ := List.mem_map.mp hfound
  exact ⟨o, rfl⟩

private theorem compilesNames_standard : standard.CompilesNames := fun _ hne =>
  ⟨_, Standard.compile_namesPattern hne⟩

/-- A name and a pattern that can be used, then a pattern with two faults and
one with a single fault. -/
def misnamed : Registry :=
  ⟨[("link", .literal "a"), ("/big/", .onMatch fun _ _ => "b"),
    ("/Foo/", .literal "x"), ("/h/", .literal "y")]⟩

/-- A pattern with two faults is reported for the first of them, whatever the
selector is. -/
theorem expand_fails_alike_misnamed :
    standard.expand misnamed ":link" = .error (.badPatternKey "/Foo/") ∧
      standard.expand misnamed ":big('x')" =
        .error (.badPatternKey "/Foo/") := by
  obtain ⟨halike, -, hfirst⟩ := expand_fails_alike standard
    neverGivesUp_standard compilesNames_standard misnamed ":link" ":big('x')"
  have hbig : HasResult
      (standard.compileKey "/big/" (.onMatch fun _ _ => "b")) := ⟨_, rfl⟩
  have hfault : misnamed.FirstFault standard (.badPatternKey "/Foo/") := by
    refine ⟨[("link", .literal "a"), ("/big/", .onMatch fun _ _ => "b")],
      "/Foo/", .literal "x", [("/h/", .literal "y")], rfl, by decide, ?_, ?_⟩
    · refine .source (.closed "Foo" List.not_mem_nil) (.inl ?_)
      rintro c rest ⟨⟩
      decide
    · simp only [List.forall_mem_cons]
      refine ⟨fun hpattern => absurd hpattern (by decide),
        fun hpattern error hkey => ?_, List.forall_mem_nil _⟩
      exact hbig.ne_error error ((compileKey_eq_error_iff hpattern).mpr hkey)
  exact ⟨(hfirst _).mpr hfault, (halike _).mp ((hfirst _).mpr hfault)⟩

end Engine

end SelectorPath
