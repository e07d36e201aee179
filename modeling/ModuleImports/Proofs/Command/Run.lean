import ModuleImports.Command.Run
import ModuleImports.Proofs.Command.Listing
import ModuleImports.Proofs.Json.Standard

/-!
# Proofs/Command/Run — how a run ends

A run shows one failure, or lists the imports of all its inputs.  `Ends` says which, by what can be
read and what texts have for imports: the settings come first, then the reading of all inputs, then
their imports, and of several inputs that fail in the same way the first one counts.
`execute_ends_iff` says that a run ends in just this way.

Each step of a run is a walk along a list that stops at the first failure; `mapM_eq_ok_iff` and
`mapM_eq_error_iff` say what such a walk comes to.
-/

namespace ModuleImports.Command

/-! ## Walks that stop at the first failure -/

section Walk

variable {ε α β : Type} {f : α → Except ε β} {xs : List α} {ys : List β} {e : ε}

theorem mapM_eq_ok_iff : xs.mapM f = .ok ys ↔ List.Forall₂ (fun x y => f x = .ok y) xs ys := by
  induction xs generalizing ys with
  | nil => cases ys <;> simp [pure, Except.pure]
  | cons x xs ih =>
    rw [List.mapM_cons]
    rcases hx : f x with e | y
    · cases ys <;> simp [bind, Except.bind, hx]
    · rcases hxs : xs.mapM f with e | zs
      · cases ys <;> simp [bind, Except.bind, ← ih, hx, hxs]
      · cases ys <;> simp [bind, Except.bind, pure, Except.pure, ← ih, hx, hxs]

/-- **A walk fails with the first failure.** -/
theorem mapM_eq_error_iff : xs.mapM f = .error e ↔ ∃ before x after, xs = before ++ x :: after ∧
    (∀ b ∈ before, ∃ y, f b = .ok y) ∧ f x = .error e := by
  induction xs with
  | nil => simp [pure, Except.pure]
  | cons x xs ih =>
    rw [List.mapM_cons]
    rcases hx : f x with e' | y
    · constructor
      · intro h
        exact ⟨[], x, xs, rfl, nofun, hx.trans (congrArg Except.error (Except.error.inj h))⟩
      · rintro ⟨before, z, after, hsplit, hbefore, hz⟩
        rcases before with _ | ⟨b, before⟩
        · obtain ⟨rfl, rfl⟩ := List.cons.inj hsplit
          exact hx.symm.trans hz ▸ rfl
        · obtain ⟨rfl, rfl⟩ := List.cons.inj hsplit
          obtain ⟨y, hy⟩ := hbefore x List.mem_cons_self
          exact absurd (hx.symm.trans hy) (by simp)
    · constructor
      · intro h
        have hxs : xs.mapM f = .error e := by
          rcases hxs : xs.mapM f with e' | zs
          · rw [hxs] at h
            exact congrArg Except.error (Except.error.inj h)
          · rw [hxs] at h
            exact absurd h (by simp [bind, Except.bind, pure, Except.pure])
        obtain ⟨before, z, after, rfl, hbefore, hz⟩ := ih.1 hxs
        exact ⟨x :: before, z, after, rfl, List.forall_mem_cons.2 ⟨⟨y, hx⟩, hbefore⟩, hz⟩
      · rintro ⟨before, z, after, hsplit, hbefore, hz⟩
        rcases before with _ | ⟨b, before⟩
        · obtain ⟨rfl, rfl⟩ := List.cons.inj hsplit
          exact absurd (hx.symm.trans hz) (by simp)
        · obtain ⟨rfl, rfl⟩ := List.cons.inj hsplit
          rw [ih.2 ⟨before, z, after, rfl, (List.forall_mem_cons.1 hbefore).2, hz⟩]
          rfl

end Walk

/-! ## How a run ends -/

/-- Settings with what the switches of a run force on them. -/
def Invocation.forced (i : Invocation) (o : ImportOptions) : ImportOptions where
  grammar := if i.basic then .basic else o.grammar
  skipComments := i.skipComments || o.skipComments

/-- **The settings that a run goes by.** -/
inductive Settings (lib : JsonLibrary) (w : Surroundings) (i : Invocation) :
    ImportOptions → Prop where
  | default (hconfig : i.config? = none) : Settings lib w i (i.forced ⟨.full, false⟩)
  | file {path text : String} {o : ImportOptions} (hconfig : i.config? = some path)
      (htext : w.file? path = some text)
      (hread : lib.read? (ImportOptions.codec lib) text = some o) : Settings lib w i (i.forced o)

/-- The inputs of a run in their order, each with its text if it can be read. -/
def Surroundings.inputs (w : Surroundings) : List String → List (String × Option String)
  | [] => [(stdinName, w.stdin?)]
  | files => files.map fun path => (path, w.file? path)

/-- All inputs can be read, and these are their texts. -/
def Surroundings.Holds (w : Surroundings) (files : List String) (texts : List (String × String)) :
    Prop :=
  w.inputs files = texts.map fun x => (x.1, some x.2)

/-- These are the imports of an input. -/
def ImportsOf (o : ImportOptions) (x : String × String) (f : FileImports) : Prop :=
  f.file = x.1 ∧ (SourceText.ofString x.2).imports o = .ok f.imports

/-- **How a run ends**: its outcome, its exit status and what it prints. -/
inductive Ends (lib : JsonLibrary) (w : Surroundings) (i : Invocation) :
    Outcome → Nat → String → Prop where
  /-- There are no settings to be read. -/
  | settingsUnreadable {path : String} (hconfig : i.config? = some path)
      (htext : w.file? path = none) : Ends lib w i (.unreadable path) 2 ""
  /-- The file with the settings holds something else. -/
  | settingsInvalid {path text : String} (hconfig : i.config? = some path)
      (htext : w.file? path = some text)
      (hread : lib.read? (ImportOptions.codec lib) text = none) :
      Ends lib w i (.invalidConfig path) 2 ""
  /-- This input is the first that cannot be read. -/
  | inputUnreadable {o : ImportOptions} {name : String}
      {before after : List (String × Option String)} (hsettings : Settings lib w i o)
      (hinputs : w.inputs i.files = before ++ (name, none) :: after)
      (hbefore : ∀ x ∈ before, x.2 ≠ none) : Ends lib w i (.unreadable name) 2 ""
  /-- All inputs can be read, and this one is the first with an error. -/
  | inputFails {o : ImportOptions} {name text : String} {before after : List (String × String)}
      {e : ImportError} (hsettings : Settings lib w i o)
      (htexts : w.Holds i.files (before ++ (name, text) :: after))
      (hbefore : ∀ x ∈ before, ∃ f, ImportsOf o x f)
      (herror : (SourceText.ofString text).imports o = .error e) :
      Ends lib w i (.failed name e) 1 ""
  /-- All inputs have imports, and these are printed. -/
  | lists {o : ImportOptions} {texts : List (String × String)} {fs : List FileImports}
      {out : String} (hsettings : Settings lib w i o) (htexts : w.Holds i.files texts)
      (himports : List.Forall₂ (ImportsOf o) texts fs) (hprints : Prints lib fs i.json out) :
      Ends lib w i (.listed out) 0 out

/-! ## What the steps come to -/

section Steps

variable {lib : JsonLibrary} {w : Surroundings} {i : Invocation} {o : ImportOptions}
  {files : List String} {texts : List (String × String)} {fs : List FileImports}
  {outcome : Outcome}

/-- Settings in a file are read if it has a text that holds some. -/
theorem readConfig_eq_ok_iff {path : String} : readConfig lib w path = .ok o ↔
    ∃ text, w.file? path = some text ∧ lib.read? (ImportOptions.codec lib) text = some o := by
  unfold readConfig
  rcases w.file? path with _ | text
  · simp
  · rcases hread : lib.read? (ImportOptions.codec lib) text with _ | o' <;> simp [hread]

theorem readConfig_eq_error_iff {path : String} : readConfig lib w path = .error outcome ↔
    w.file? path = none ∧ .unreadable path = outcome ∨
      ∃ text, w.file? path = some text ∧ lib.read? (ImportOptions.codec lib) text = none ∧
        .invalidConfig path = outcome := by
  unfold readConfig
  rcases w.file? path with _ | text
  · simp
  · rcases hread : lib.read? (ImportOptions.codec lib) text with _ | o' <;> simp [hread]

/-- Switches come after the file with the settings. -/
theorem resolveOptions_eq_map : resolveOptions lib w i =
    (match i.config? with
      | some path => readConfig lib w path
      | none => .ok ⟨.full, false⟩).map i.forced := by
  unfold resolveOptions
  rcases i.config? with _ | path
  · rfl
  · dsimp only
    rcases readConfig lib w path <;> rfl

theorem resolveOptions_eq_ok_iff : resolveOptions lib w i = .ok o ↔ Settings lib w i o := by
  rw [resolveOptions_eq_map]
  constructor
  · intro h
    rcases hconfig : i.config? with _ | path
    · rw [hconfig] at h
      exact Except.ok.inj h ▸ .default hconfig
    · rw [hconfig] at h
      rcases hread : readConfig lib w path with outcome | o'
      · exact absurd h (by simp [hread, Except.map])
      · obtain ⟨text, htext, ho⟩ := readConfig_eq_ok_iff.1 hread
        simp only [hread] at h
        exact Except.ok.inj h ▸ .file hconfig htext ho
  · rintro (hconfig | ⟨hconfig, htext, hread⟩)
    · rw [hconfig]
      rfl
    · rw [hconfig]
      exact congrArg (Except.map i.forced) (readConfig_eq_ok_iff.2 ⟨_, htext, hread⟩)

theorem resolveOptions_eq_error_iff : resolveOptions lib w i = .error outcome ↔
    ∃ path, i.config? = some path ∧ readConfig lib w path = .error outcome := by
  rw [resolveOptions_eq_map]
  rcases i.config? with _ | path
  · simp [Except.map]
  · rcases hread : readConfig lib w path <;> simp [hread, Except.map]

/-- Inputs are read in a walk. -/
theorem readInputs_eq_mapM :
    readInputs w files = (w.inputs files).mapM fun x => readInput x.1 x.2 := by
  rcases files with _ | ⟨file, files⟩
  · rcases h : readInput stdinName w.stdin? <;>
      simp [readInputs, Surroundings.inputs, h, Except.map, bind, Except.bind, pure, Except.pure]
  · rw [readInputs, Surroundings.inputs, List.mapM_map]
    · rfl
    all_goals exact List.cons_ne_nil _ _

theorem readInput_eq_ok_iff {name : String} {text? : Option String} {x : String × String} :
    readInput name text? = .ok x ↔ (name, text?) = (x.1, some x.2) := by
  rcases text? with _ | text
  · simp [readInput]
  · simp [readInput, Prod.ext_iff]

theorem readInput_eq_error_iff {name : String} {text? : Option String} :
    readInput name text? = .error outcome ↔ text? = none ∧ outcome = .unreadable name := by
  rcases text? with _ | text <;> simp [readInput, eq_comm]

theorem readInputs_eq_ok_iff : readInputs w files = .ok texts ↔ w.Holds files texts := by
  rw [readInputs_eq_mapM, mapM_eq_ok_iff]
  simp only [readInput_eq_ok_iff]
  rw [Surroundings.Holds, ← List.forall₂_eq_eq_eq, List.forall₂_map_right_iff]

theorem readInputs_eq_error_iff : readInputs w files = .error outcome ↔
    ∃ before name after, w.inputs files = before ++ (name, none) :: after ∧
      (∀ x ∈ before, x.2 ≠ none) ∧ outcome = .unreadable name := by
  rw [readInputs_eq_mapM, mapM_eq_error_iff]
  simp only [readInput_eq_error_iff, readInput_eq_ok_iff]
  constructor
  · rintro ⟨before, ⟨name, _⟩, after, hinputs, hbefore, rfl, houtcome⟩
    refine ⟨before, name, after, hinputs, fun x hx hnone => ?_, houtcome⟩
    obtain ⟨y, hy⟩ := hbefore x hx
    exact Option.some_ne_none _ ((congrArg Prod.snd hy).symm.trans hnone)
  · rintro ⟨before, name, after, hinputs, hbefore, houtcome⟩
    refine ⟨before, (name, none), after, hinputs, fun x hx => ?_, rfl, houtcome⟩
    obtain ⟨text, htext⟩ := Option.ne_none_iff_exists'.1 (hbefore x hx)
    exact ⟨(x.1, text), Prod.ext rfl htext⟩

/-- The imports of an input, or how the run ends if it has none. -/
def importsIn (o : ImportOptions) (x : String × String) : Except Outcome FileImports :=
  match (SourceText.ofString x.2).imports o with
  | .ok imports => .ok ⟨x.1, imports⟩
  | .error e => .error (.failed x.1 e)

/-- Texts are parsed in a walk. -/
theorem parseInputs_eq_mapM (o : ImportOptions) (texts : List (String × String)) :
    (parseInputs o texts).2 = texts.mapM (importsIn o) := by
  induction texts with
  | nil => rfl
  | cons x texts ih =>
    rw [List.mapM_cons, ← ih, parseInputs, parseInput, importsIn, SourceText.imports]
    rcases (Recognition.of o (.ofString x.2)).records with e | imports
    · rfl
    · rcases parseInputs o texts with ⟨events, outcome | fs⟩ <;> rfl

theorem importsIn_eq_ok_iff {x : String × String} {f : FileImports} :
    importsIn o x = .ok f ↔ ImportsOf o x f := by
  rw [importsIn, ImportsOf]
  rcases (SourceText.ofString x.2).imports o with e | imports
  · simp
  · rcases f with ⟨file, fimports⟩
    simp [eq_comm]

theorem importsIn_eq_error_iff {x : String × String} : importsIn o x = .error outcome ↔
    ∃ e, (SourceText.ofString x.2).imports o = .error e ∧ outcome = .failed x.1 e := by
  rw [importsIn]
  rcases (SourceText.ofString x.2).imports o with e | imports <;> simp [eq_comm]

theorem parseInputs_eq_ok_iff :
    (parseInputs o texts).2 = .ok fs ↔ List.Forall₂ (ImportsOf o) texts fs := by
  rw [parseInputs_eq_mapM, mapM_eq_ok_iff]
  simp only [importsIn_eq_ok_iff]

theorem parseInputs_eq_error_iff : (parseInputs o texts).2 = .error outcome ↔
    ∃ before name text after e, texts = before ++ (name, text) :: after ∧
      (∀ x ∈ before, ∃ f, ImportsOf o x f) ∧
      (SourceText.ofString text).imports o = .error e ∧ outcome = .failed name e := by
  rw [parseInputs_eq_mapM, mapM_eq_error_iff]
  simp only [importsIn_eq_ok_iff, importsIn_eq_error_iff]
  constructor
  · rintro ⟨before, ⟨name, text⟩, after, hsplit, hbefore, e, herror, houtcome⟩
    exact ⟨before, name, text, after, e, hsplit, hbefore, herror, houtcome⟩
  · rintro ⟨before, name, text, after, e, hsplit, hbefore, herror, houtcome⟩
    exact ⟨before, (name, text), after, hsplit, hbefore, e, herror, houtcome⟩

/-- **What is listed are records that texts have.** -/
theorem wellFormed_of_importsOf (himports : List.Forall₂ (ImportsOf o) texts fs) :
    ∀ f ∈ fs, ∀ r ∈ f.imports, r.WellFormed := by
  intro f hf r hr
  obtain ⟨x, -, -, hx⟩ := exists_mem_of_forall₂ himports f hf
  exact (SourceText.exists_imports_iff_admits.1 ⟨_, hx⟩ r hr).1

/-- **A run lists the imports of its inputs** if there are settings, and all inputs have imports. -/
theorem run_outcome_of_importsOf (hsettings : Settings lib w i o) (htexts : w.Holds i.files texts)
    (himports : List.Forall₂ (ImportsOf o) texts fs) :
    (run lib w i).outcome = .ofImports lib i.json fs := by
  simp only [run, resolveOptions_eq_ok_iff.2 hsettings, readInputs_eq_ok_iff.2 htexts,
    parseInputs_eq_ok_iff.2 himports]

end Steps

/-! ## The run -/

section Run

variable {lib : JsonLibrary} {w : Surroundings} {i : Invocation} {outcome : Outcome} {status : Nat}
  {out : String}

/-- **Every run ends in one of these ways.** -/
theorem ends_run (hlib : lib.Documented) (w : Surroundings) (i : Invocation) :
    Ends lib w i (run lib w i).outcome (run lib w i).outcome.status (run lib w i).outcome.out := by
  rcases hoptions : resolveOptions lib w i with outcome | o
  · obtain ⟨path, hconfig, herror⟩ := resolveOptions_eq_error_iff.1 hoptions
    obtain ⟨htext, rfl⟩ | ⟨text, htext, hread, rfl⟩ := readConfig_eq_error_iff.1 herror
    · rw [run, hoptions]
      exact .settingsUnreadable hconfig htext
    · rw [run, hoptions]
      exact .settingsInvalid hconfig htext hread
  have hsettings := resolveOptions_eq_ok_iff.1 hoptions
  rcases hinputs : readInputs w i.files with outcome | texts
  · obtain ⟨before, name, after, hsplit, hbefore, rfl⟩ := readInputs_eq_error_iff.1 hinputs
    simp only [run, hoptions, hinputs]
    exact .inputUnreadable hsettings hsplit hbefore
  have hholds := readInputs_eq_ok_iff.1 hinputs
  rcases hparsed : (parseInputs o texts).2 with outcome | fs
  · obtain ⟨before, name, text, after, e, rfl, hbefore, herror, rfl⟩ :=
      parseInputs_eq_error_iff.1 hparsed
    simp only [run, hoptions, hinputs, hparsed]
    exact .inputFails hsettings hholds hbefore herror
  · have himports := parseInputs_eq_ok_iff.1 hparsed
    obtain ⟨out, hprints⟩ := exists_prints hlib fs i.json
    have hlisting := (listing?_eq_some_iff hlib (wellFormed_of_importsOf himports)).2 hprints
    rw [run_outcome_of_importsOf hsettings hholds himports, Outcome.ofImports, hlisting]
    exact .lists hsettings hholds himports hprints

/-- **A run that could end in this way does.** -/
theorem Ends.outcome_eq (hlib : lib.Documented) (h : Ends lib w i outcome status out) :
    (run lib w i).outcome = outcome := by
  rcases h with ⟨hconfig, htext⟩ | ⟨hconfig, htext, hread⟩ | ⟨hsettings, hinputs, hbefore⟩ |
    ⟨hsettings, htexts, hbefore, herror⟩ | ⟨hsettings, htexts, himports, hprints⟩
  · have herror : readConfig lib w _ = _ := readConfig_eq_error_iff.2 (.inl ⟨htext, rfl⟩)
    rw [run, resolveOptions_eq_error_iff.2 ⟨_, hconfig, herror⟩]
  · have herror : readConfig lib w _ = _ :=
      readConfig_eq_error_iff.2 (.inr ⟨_, htext, hread, rfl⟩)
    rw [run, resolveOptions_eq_error_iff.2 ⟨_, hconfig, herror⟩]
  · simp only [run, resolveOptions_eq_ok_iff.2 hsettings,
      readInputs_eq_error_iff.2 ⟨_, _, _, hinputs, hbefore, rfl⟩]
  · simp only [run, resolveOptions_eq_ok_iff.2 hsettings, readInputs_eq_ok_iff.2 htexts,
      parseInputs_eq_error_iff.2 ⟨_, _, _, _, _, rfl, hbefore, herror, rfl⟩]
  · have hlisting := (listing?_eq_some_iff hlib (wellFormed_of_importsOf himports)).2 hprints
    rw [run_outcome_of_importsOf hsettings htexts himports, Outcome.ofImports, hlisting]

/-- The exit status and what is printed follow from the outcome. -/
theorem Ends.shown_eq (h : Ends lib w i outcome status out) :
    outcome.status = status ∧ outcome.out = out := by
  cases h <;> exact ⟨rfl, rfl⟩

/-- Noting nothing changes no outcome. -/
theorem Tools.execute_outcome {tools : Tools} {args : List String}
    (h : tools.readArguments args = .ok i) :
    (tools.execute w args).outcome = (run tools.json w i).outcome := by
  rw [execute, h]
  dsimp only
  split <;> rfl

/-- **How a command ends.**  A command line that asks for a run gets the first failure there is, of
settings before inputs, of reading before imports and of one input before the next, with nothing
printed; or else, with nothing left out, all records of all its inputs in order are printed. -/
theorem execute_ends_iff (tools : Tools) (hjson : tools.json.Documented) (w : Surroundings)
    (args : List String) (i : Invocation) (h : tools.readArguments args = .ok i)
    (outcome : Outcome) (status : Nat) (out : String) :
    Ends tools.json w i outcome status out ↔ (tools.execute w args).outcome = outcome ∧
      (tools.execute w args).outcome.status = status ∧
        (tools.execute w args).outcome.out = out := by
  rw [Tools.execute_outcome h]
  constructor
  · intro hends
    rw [hends.outcome_eq hjson]
    exact ⟨rfl, hends.shown_eq⟩
  · rintro ⟨rfl, rfl, rfl⟩
    exact ends_run hjson w i

/-- Two inputs are listed with their names; with settings from a file, one input is listed as JSON;
and an input that cannot be read comes before an earlier one with an error. -/
theorem execute_of_good_and_bad_inputs :
    ((execute ⟨fun path => if path = "a.js" then some "import d from 'm'" else some "", none⟩
        ["a.js", "b.js"]).outcome.status = 0 ∧
      (execute ⟨fun path => if path = "a.js" then some "import d from 'm'" else some "", none⟩
        ["a.js", "b.js"]).outcome.out = "a.js:\n  default     d from \"m\"\nb.js:\n") ∧
    ((execute ⟨fun _ => some r#"{"skipComments":true}"#, some "import 'm' // x"⟩
        ["--json", "-cc.json"]).outcome.status = 0 ∧
      (execute ⟨fun _ => some r#"{"skipComments":true}"#, some "import 'm' // x"⟩
        ["--json", "-cc.json"]).outcome.out = "\n".intercalate
          ["[", r"  {", r#"    "type": "sideEffectImport","#, r#"    "source": "m""#, r"  }", "]",
            ""]) ∧
    (execute ⟨fun path => if path = "a.js" then some "import" else none, none⟩
      ["--json", "-v", "a.js", "b.js"]).outcome = .unreadable "b.js" := by
  have hends (w : Surroundings) (args : List String) (i : Invocation)
      (h : Invocation.ofArguments args = .ok i) :=
    execute_ends_iff .standard JsonLibrary.standard_documented w args i h
  refine ⟨?_, ?_, ?_⟩
  · have hfirst : ImportsOf ⟨.full, false⟩ ("a.js", "import d from 'm'")
        ⟨"a.js", [.defaultImport "d" "m"]⟩ := ⟨rfl, by decide +kernel⟩
    have hsecond : ImportsOf ⟨.full, false⟩ ("b.js", "") ⟨"b.js", []⟩ := ⟨rfl, by decide +kernel⟩
    obtain ⟨-, hstatus, hout⟩ := (hends
      ⟨fun path => if path = "a.js" then some "import d from 'm'" else some "", none⟩
      ["a.js", "b.js"] { files := ["a.js", "b.js"] } (by decide +kernel) _ _ _).1
      (.lists (.default rfl) (show _ = _ from rfl) (.cons hfirst (.cons hsecond .nil)) .lines)
    exact ⟨hstatus, hout.trans (by decide +kernel)⟩
  · have hconfig : ImportOptions.read? r#"{"skipComments":true}"# = some ⟨.full, true⟩ := by
      with_unfolding_all rfl
    have hone : ImportsOf ⟨.full, true⟩ ("<stdin>", "import 'm' // x")
        ⟨"<stdin>", [.sideEffectImport "m"]⟩ := ⟨rfl, by decide +kernel⟩
    obtain ⟨-, hstatus, hout⟩ := (hends
      ⟨fun _ => some r#"{"skipComments":true}"#, some "import 'm' // x"⟩ ["--json", "-cc.json"]
      { json := true, config? := some "c.json" } (by decide +kernel) _ _ _).1
      (.lists (.file rfl rfl hconfig) (show _ = _ from rfl) (.cons hone .nil) (.json rfl))
    exact ⟨hstatus, hout.trans (by decide +kernel)⟩
  · exact ((hends ⟨fun path => if path = "a.js" then some "import" else none, none⟩
      ["--json", "-v", "a.js", "b.js"] { files := ["a.js", "b.js"], json := true, verbose := true }
      (by decide +kernel) _ _ _).1 (.inputUnreadable (.default rfl)
        (show _ = [("a.js", some "import")] ++ ("b.js", none) :: [] from by decide +kernel)
        (by decide))).1

end Run

end ModuleImports.Command
