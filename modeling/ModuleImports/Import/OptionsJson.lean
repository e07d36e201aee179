import ModuleImports.Import.Options
import ModuleImports.Json.Standard

/-!
# Import/OptionsJson — settings as JSON

Each kind of settings declares its own record, in which every field may be missing.  The two have a
field for comments in common, so one document can hold both.
-/

namespace ModuleImports

open Json

namespace ImportGrammar

/-- The name of a grammar in its declaration. -/
def declaredName : ImportGrammar → String
  | basic => "Basic"
  | full => "Full"

/-- A grammar is a choice. -/
def shape : ChoiceShape ImportGrammar where
  rule := .camelCase
  alternatives := [basic, full]
  name := declaredName

/-- A grammar in documents. -/
def codec (lib : JsonLibrary) : Codec ImportGrammar := lib.choice shape

/-- The name of a grammar in documents. -/
def name (g : ImportGrammar) : String := shape.nameOf g

end ImportGrammar

namespace ScanOptions

/-- **Settings for splitting a text** are a record. -/
def shape (lib : JsonLibrary) : RecordShape ScanOptions where
  rule := .camelCase
  Values := Bool × Unit
  fields :=
    .cons { name := "skip_comments", codec := lib.bool,
            absent? := some ({} : ScanOptions).skipComments } .nil
  make := fun (skip, _) => ⟨skip⟩
  values o := (o.skipComments, ())
  make_values _ := rfl

/-- Settings for splitting a text in documents. -/
def codec (lib : JsonLibrary) : Codec ScanOptions := lib.record (shape lib)

/-- Settings as a document. -/
def toJson (o : ScanOptions) : Json := (codec .standard).write o

/-- **Settings for splitting a text, from JSON.** -/
def read? (text : String) : Option ScanOptions := JsonLibrary.standard.read? (codec .standard) text

end ScanOptions

namespace ImportOptions

/-- **Settings for reading a text** are a record. -/
def shape (lib : JsonLibrary) : RecordShape ImportOptions where
  rule := .camelCase
  Values := ImportGrammar × Bool × Unit
  fields :=
    .cons { name := "grammar", codec := ImportGrammar.codec lib,
            absent? := some ({} : ImportOptions).grammar } <|
    .cons { name := "skip_comments", codec := lib.bool,
            absent? := some ({} : ImportOptions).skipComments } .nil
  make := fun (grammar, skip, _) => ⟨grammar, skip⟩
  values o := (o.grammar, o.skipComments, ())
  make_values _ := rfl

/-- Settings for reading a text in documents. -/
def codec (lib : JsonLibrary) : Codec ImportOptions := lib.record (shape lib)

/-- Settings as a document. -/
def toJson (o : ImportOptions) : Json := (codec .standard).write o

/-- **Settings for reading a text, from JSON.** -/
def read? (text : String) : Option ImportOptions :=
  JsonLibrary.standard.read? (codec .standard) text

end ImportOptions

end ModuleImports
