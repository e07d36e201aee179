import ModuleImports.Command.Run

/-!
# Main — the command line program

Reads what a run can see, and prints its report.
-/

namespace ModuleImports.Command

/-- The text in a file, if it can be read. -/
def fileText? (path : String) : IO (Option String) := do
  try
    return String.fromUTF8? (← IO.FS.readBinFile path)
  catch _ => return none

/-- All of standard input, if it is a text. -/
def stdinText? : IO (Option String) := do
  try
    return String.fromUTF8? (← (← IO.getStdin).readBinToEnd)
  catch _ => return none

/-- What the run of an invocation can read. -/
def surroundings (i : Invocation) : IO Surroundings := do
  let paths := i.config?.toList ++ i.files
  let texts ← paths.mapM fun path => return (path, ← fileText? path)
  let stdin? ← if i.files.isEmpty then stdinText? else pure none
  return ⟨fun path => (texts.lookup path).join, stdin?⟩

/-- The lines that explain an outcome on standard error. -/
def explanation : Outcome → List String
  | .failed file (.lexical e) => [codeName e.code ++ ": " ++ e.display, "  in " ++ file]
  | .failed file (.syntactic e) => [codeName e.code ++ ": " ++ e.display, "  in " ++ file]
  | .stopped (.mistake _) => ["error: invalid arguments", "", "For more information, try '--help'."]
  | o => o.complaint?.toList

end ModuleImports.Command

open ModuleImports.Command in
/-- Runs the command. -/
def main (args : List String) : IO UInt32 := do
  let w ← match Invocation.ofArguments args with
    | .ok i => surroundings i
    | .error _ => pure ⟨fun _ => none, none⟩
  let report := execute w args
  for event in report.events do
    IO.eprintln event.line
  for line in explanation report.outcome do
    IO.eprintln line
  IO.print report.outcome.out
  return report.outcome.status.toUInt32
