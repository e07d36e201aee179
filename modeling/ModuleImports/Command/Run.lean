import ModuleImports.Command.Arguments
import ModuleImports.Command.Listing
import ModuleImports.Import.OptionsJson
import ModuleImports.Import.Reader

/-!
# Command/Run — one run of the command

A run goes through four steps, and the first failure ends it: settings, reading of all inputs,
parsing of the inputs in order, listing.  Nothing is listed unless every input has been parsed.
What happens on the way is noted, and shown if the run is verbose.

How command lines are read and what is done with JSON are for `Tools` to say; `Tools.standard` are
those that run.
-/

namespace ModuleImports.Command

/-- What a run can read: files by their paths, and standard input.  There is none where there is no
such file, or no text in it. -/
structure Surroundings where
  file? : String → Option String
  stdin? : Option String

/-- What a run does not do itself: reading command lines, and JSON. -/
structure Tools where
  readArguments : List String → Except Stop Invocation
  json : JsonLibrary

/-- **The tools that run.** -/
def Tools.standard : Tools := ⟨Invocation.ofArguments, .standard⟩

/-- The name that standard input has among inputs. -/
def stdinName : String := "<stdin>"

/-- Something worth noting in a run. -/
inductive Event where
  | resolved (options : ImportOptions)
  | recognized (r : Recognized)
  | lexicalError (e : LexicalError)
  | parsed (file : String) (count : Nat)
  | parseFailed (file : String) (e : ImportError)
deriving DecidableEq, Repr

/-- How a run ends. -/
inductive Outcome where
  /-- With this listing. -/
  | listed (out : String)
  /-- With the first input that has an error. -/
  | failed (file : String) (e : ImportError)
  /-- A file or standard input has no text. -/
  | unreadable (path : String)
  /-- The file with the settings holds none. -/
  | invalidConfig (path : String)
  /-- The listing could not be written. -/
  | unwritable
  /-- The command line stops it. -/
  | stopped (s : Stop)
deriving DecidableEq, Repr

/-- All that a run shows. -/
structure Report where
  events : List Event
  outcome : Outcome
deriving DecidableEq, Repr

/-! ## The steps -/

/-- The settings in a file. -/
def readConfig (lib : JsonLibrary) (w : Surroundings) (path : String) :
    Except Outcome ImportOptions :=
  match w.file? path with
  | none => .error (.unreadable path)
  | some text =>
    match lib.read? (ImportOptions.codec lib) text with
    | none => .error (.invalidConfig path)
    | some options => .ok options

/-- **The settings of a run**: those of the file, or the default ones, and what switches force. -/
def resolveOptions (lib : JsonLibrary) (w : Surroundings) (i : Invocation) :
    Except Outcome ImportOptions := do
  let options ← match i.config? with
    | some path => readConfig lib w path
    | none => .ok {}
  return {
    grammar := if i.basic then .basic else options.grammar
    skipComments := i.skipComments || options.skipComments }

/-- The text of an input, with its name. -/
def readInput (name : String) (text? : Option String) : Except Outcome (String × String) :=
  match text? with
  | some text => .ok (name, text)
  | none => .error (.unreadable name)

/-- The texts of all inputs, with their names. -/
def readInputs (w : Surroundings) : List String → Except Outcome (List (String × String))
  | [] => (readInput stdinName w.stdin?).map ([·])
  | files => files.mapM fun path => readInput path (w.file? path)

/-- The note of a lexical error, when reading a text has met it. -/
def lexicalEvents : ImportError → List Event
  | .lexical e => [.lexicalError e]
  | .syntactic _ => []

/-- What parsing an input notes, and its imports. -/
def parseInput (options : ImportOptions) (name text : String) :
    List Event × Except ImportError FileImports :=
  let r := Recognition.of options (.ofString text)
  let recognized := r.recognized.map Event.recognized
  match r.records with
  | .ok imports => (recognized ++ [.parsed name imports.length], .ok ⟨name, imports⟩)
  | .error e => (recognized ++ lexicalEvents e ++ [.parseFailed name e], .error e)

/-- What parsing the inputs notes, and the imports of all of them. -/
def parseInputs (options : ImportOptions) :
    List (String × String) → List Event × Except Outcome (List FileImports)
  | [] => ([], .ok [])
  | (name, text) :: inputs =>
    match parseInput options name text with
    | (events, .error e) => (events, .error (.failed name e))
    | (events, .ok imports) =>
      let (more, rest) := parseInputs options inputs
      (events ++ more, rest.map (imports :: ·))

/-- A run that gets as far as listing some imports. -/
def Outcome.ofImports (lib : JsonLibrary) (json : Bool) (fs : List FileImports) : Outcome :=
  match listing? lib json fs with
  | some out => .listed out
  | none => .unwritable

/-- **A run.** -/
def run (lib : JsonLibrary) (w : Surroundings) (i : Invocation) : Report :=
  match resolveOptions lib w i with
  | .error outcome => ⟨[], outcome⟩
  | .ok options =>
    match readInputs w i.files with
    | .error outcome => ⟨[.resolved options], outcome⟩
    | .ok inputs =>
      let (events, result) := parseInputs options inputs
      ⟨.resolved options :: events,
        match result with
        | .error outcome => outcome
        | .ok fs => .ofImports lib i.json fs⟩

/-! ## What is shown -/

namespace Outcome

/-- The exit status: 0 for a text that was asked for, 1 for an error in an input, 2 for anything that
kept inputs from being parsed or listed. -/
def status : Outcome → Nat
  | listed _ | stopped (.shows _) => 0
  | failed .. => 1
  | unreadable _ | invalidConfig _ | unwritable | stopped (.mistake _) => 2

/-- What standard output gets. -/
def out : Outcome → String
  | listed text | stopped (.shows text) => text
  | _ => ""

/-- The complaint about files and settings, as far as it is not what their readers say. -/
def complaint? : Outcome → Option String
  | unreadable path => some ("error: failed to read '" ++ path ++ "'")
  | invalidConfig path => some ("error: invalid config '" ++ path ++ "'")
  | _ => none

end Outcome

/-- The line that notes an event. -/
def Event.line (e : Event) : String :=
  "DEBUG " ++
  match e with
  | resolved o =>
    "resolved options grammar=" ++ o.grammar.declaredName ++
      " skip_comments=" ++ toString o.skipComments
  | recognized r =>
    let (place, kind, source) := r.note
    "recognized import pos=" ++ toString place ++
      " kind=" ++ Quoted.quote kind ++ " source=" ++ Quoted.quote source
  | lexicalError e =>
    "lexical error code=" ++ toString e.code ++ " position=" ++ toString e.span.start
  | parsed file count => "parsed file=" ++ file ++ " count=" ++ toString count
  | parseFailed file e =>
    "parse failed file=" ++ file ++ " code=" ++ toString e.code ++
      " position=" ++ toString e.span.start ++ " lexical=" ++ toString e.isLexical

/-- **The whole command**: what a command line does, with the notes that it wants to see. -/
def Tools.execute (tools : Tools) (w : Surroundings) (args : List String) : Report :=
  match tools.readArguments args with
  | .error s => ⟨[], .stopped s⟩
  | .ok i =>
    let report := run tools.json w i
    if i.verbose then report else { report with events := [] }

/-- The command that runs. -/
def execute (w : Surroundings) (args : List String) : Report := Tools.standard.execute w args

end ModuleImports.Command
