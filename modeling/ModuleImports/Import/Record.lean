/-!
# Import/Record — what an import declaration says

A declaration gives one `ImportRecord`, or two if it has a default binding and more after a comma.
-/

namespace ModuleImports

/-- An entry of a named import: a name that the other module exports, and the name it gets here if
that is another one. -/
structure ImportSpecifier where
  name : String
  alias? : Option String
deriving DecidableEq, Repr

/-- The name that the entry introduces. -/
def ImportSpecifier.localName (s : ImportSpecifier) : String := s.alias?.getD s.name

/-- One import, by its form. -/
inductive ImportRecord where
  /-- `import X from "S"` -/
  | defaultImport (binding source : String)
  /-- `import { a, b as c } from "S"` -/
  | namedImport (imports : List ImportSpecifier) (source : String)
  /-- `import * as X from "S"` -/
  | namespaceImport (binding source : String)
  /-- `import "S"` -/
  | sideEffectImport (source : String)
deriving DecidableEq, Repr

namespace ImportRecord

/-- The module that is imported. -/
def source : ImportRecord → String
  | defaultImport _ s | namedImport _ s | namespaceImport _ s | sideEffectImport s => s

/-- The names that the import introduces, in the order of the text. -/
def localNames : ImportRecord → List String
  | defaultImport b _ | namespaceImport b _ => [b]
  | namedImport is _ => is.map ImportSpecifier.localName
  | sideEffectImport _ => []

/-- The short name of the form. -/
def kindName : ImportRecord → String
  | defaultImport .. => "default"
  | namedImport .. => "named"
  | namespaceImport .. => "namespace"
  | sideEffectImport .. => "side-effect"

end ImportRecord

end ModuleImports
