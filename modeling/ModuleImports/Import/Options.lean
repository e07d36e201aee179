import ModuleImports.Token.Scan

/-!
# Import/Options — how a text is to be read

Two settings: which forms of import are accepted, and whether comments count as blanks.
-/

namespace ModuleImports

/-- Which forms of import are accepted. -/
inductive ImportGrammar where
  /-- Default imports, lists of plain names, and namespace imports. -/
  | basic
  /-- Every static form: also aliases, a default binding before a list or a namespace, and imports
  for their side effects.  The expressions `import(…)` and `import.…` are passed over. -/
  | full
deriving DecidableEq, Repr, Inhabited

/-- How a text is to be read for its imports. -/
structure ImportOptions where
  grammar : ImportGrammar := .full
  /-- Whether comments count as blanks. -/
  skipComments : Bool := false
deriving DecidableEq, Repr, Inhabited

/-- What the settings mean for splitting a text into tokens. -/
def ImportOptions.scanOptions (o : ImportOptions) : ScanOptions := ⟨o.skipComments⟩

end ModuleImports
