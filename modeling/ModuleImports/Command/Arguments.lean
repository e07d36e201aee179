/-!
# Command/Arguments — what a command line asks for

Arguments are read from left to right, and the first one that ends the matter does so: a mistake, or
a request for the version or the help text.  `--` makes files of all that follows it.  Short options
may share one dash, and the path of `-c` may follow it at once, after `=`, or as the next argument.
-/

namespace ModuleImports.Command

/-- A run over some inputs. -/
structure Invocation where
  /-- The inputs; standard input if there are none. -/
  files : List String := []
  json : Bool := false
  basic : Bool := false
  skipComments : Bool := false
  verbose : Bool := false
  /-- The file with the settings. -/
  config? : Option String := none
deriving DecidableEq, Repr

/-- A switch. -/
inductive Flag where
  | json
  | basic
  | skipComments
  | verbose
deriving DecidableEq, Repr

/-- A mistake in a command line. -/
inductive UsageError where
  | unknown (argument : String)
  | repeated (option : String)
  | unexpectedValue (option : String)
  | missingValue (option : String)
  | emptyPath
deriving DecidableEq, Repr

/-- Why no inputs are read. -/
inductive Stop where
  | mistake (e : UsageError)
  /-- The command line asks for a text, such as the help text, and not for a run. -/
  | shows (text : String)
deriving DecidableEq, Repr

/-! ## Texts that can be asked for -/

/-- The name of the program and its version. -/
def versionText : String := "esimports 0.1.0\n"

/-- What a request for help gets. -/
def helpText : String :=
  "List the import declarations of ECMAScript modules\n\n" ++
  "Usage: esimports [OPTIONS] [FILE]...\n\n" ++
  "Arguments:\n" ++
  "  [FILE]...  Source files to scan. Standard input is read when none are given\n\n" ++
  "Options:\n" ++
  "      --json           Print the records as JSON\n" ++
  "      --basic          Accept only default, plain named and namespace imports\n" ++
  "      --skip-comments  Treat `//` and `/* */` comments as whitespace\n" ++
  "  -c, --config <PATH>  JSON file with parse options (`grammar`, `skipComments`)\n" ++
  "  -v, --verbose        Log every recognized declaration\n" ++
  "  -h, --help           Print help\n" ++
  "  -V, --version        Print version\n"

/-! ## Arguments -/

namespace Flag

/-- Whether a run has the switch on. -/
def isSet (i : Invocation) : Flag → Bool
  | json => i.json
  | basic => i.basic
  | skipComments => i.skipComments
  | verbose => i.verbose

/-- The run with the switch on. -/
def set (i : Invocation) : Flag → Invocation
  | json => { i with json := true }
  | basic => { i with basic := true }
  | skipComments => { i with skipComments := true }
  | verbose => { i with verbose := true }

/-- The long name of a switch, with its dashes. -/
def name : Flag → String
  | json => "--json"
  | basic => "--basic"
  | skipComments => "--skip-comments"
  | verbose => "--verbose"

/-- The switch of a long name. -/
def ofName? (name : String) : Option Flag :=
  [json, basic, skipComments, verbose].find? (·.name == "--" ++ name)

end Flag

/-- How far a command line has been read. -/
structure ArgumentState where
  invocation : Invocation := {}
  /-- Whether the path of the settings has to come next. -/
  awaitsPath : Bool := false
  /-- Whether only files can follow. -/
  onlyFiles : Bool := false
deriving DecidableEq, Repr

namespace ArgumentState

/-- The command line ends in a mistake. -/
def mistake {α : Type} (e : UsageError) : Except Stop α := .error (.mistake e)

/-- A switch may be given once. -/
def addFlag (s : ArgumentState) (f : Flag) : Except Stop ArgumentState :=
  if f.isSet s.invocation then mistake (.repeated f.name)
  else .ok { s with invocation := f.set s.invocation }

/-- One input more. -/
def addFile (s : ArgumentState) (path : String) : Except Stop ArgumentState :=
  if path.isEmpty then mistake .emptyPath
  else .ok { s with invocation := { s.invocation with files := s.invocation.files ++ [path] } }

/-- Settings may be given once. -/
def addConfig (s : ArgumentState) (path : String) : Except Stop ArgumentState :=
  if s.invocation.config?.isSome then mistake (.repeated "--config")
  else if path.isEmpty then mistake .emptyPath
  else .ok { s with invocation := { s.invocation with config? := some path }, awaitsPath := false }

/-- Short options behind one dash. -/
def addShort (s : ArgumentState) : List Char → Except Stop ArgumentState
  | [] => .ok s
  | 'v' :: cs => do (← s.addFlag .verbose).addShort cs
  | 'V' :: _ => .error (.shows versionText)
  | 'h' :: _ => .error (.shows helpText)
  | ['c'] => .ok { s with awaitsPath := true }
  | 'c' :: '=' :: path => s.addConfig (String.ofList path)
  | 'c' :: path => s.addConfig (String.ofList path)
  | c :: _ => mistake (.unknown ("-" ++ c.toString))

/-- A long option: its name, and the value after `=` if there is one. -/
def addLong (s : ArgumentState) (name : String) (value? : Option String) :
    Except Stop ArgumentState :=
  match name, value? with
  | "config", some path => s.addConfig path
  | "config", none => .ok { s with awaitsPath := true }
  | "version", none => .error (.shows versionText)
  | "help", none => .error (.shows helpText)
  | name, value? =>
    match Flag.ofName? name, value? with
    | some f, none => s.addFlag f
    | some f, some _ => mistake (.unexpectedValue f.name)
    | none, _ => mistake (.unknown ("--" ++ name))

/-- The name and the value of a long option, given what follows its dashes. -/
def splitValue (cs : List Char) : String × Option String :=
  let name := cs.takeWhile (· != '=')
  (String.ofList name, (cs.drop name.length).tail?.map String.ofList)

/-- A dash alone can be a path, anything else that starts with one cannot. -/
def looksLikeOption : List Char → Bool
  | '-' :: _ :: _ => true
  | _ => false

/-- **One argument more.** -/
def add (s : ArgumentState) (arg : String) : Except Stop ArgumentState :=
  if s.onlyFiles then s.addFile arg
  else if s.awaitsPath then
    if looksLikeOption arg.toList then mistake (.missingValue "--config") else s.addConfig arg
  else match arg.toList with
    | ['-', '-'] => .ok { s with onlyFiles := true }
    | '-' :: '-' :: cs =>
      let (name, value?) := splitValue cs
      s.addLong name value?
    | '-' :: c :: cs => s.addShort (c :: cs)
    | _ => s.addFile arg

/-- The end of the command line. -/
def finish (s : ArgumentState) : Except Stop Invocation :=
  if s.awaitsPath then mistake (.missingValue "--config") else .ok s.invocation

end ArgumentState

/-- **What a command line asks for.** -/
def Invocation.ofArguments (args : List String) : Except Stop Invocation := do
  (← args.foldlM ArgumentState.add {}).finish

end ModuleImports.Command
