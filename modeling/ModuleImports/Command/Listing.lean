import ModuleImports.Import.RecordJson
import ModuleImports.Text.Quoted

/-!
# Command/Listing — the imports of some inputs, as text or as JSON

As text, every import has a line: its kind in a column, the names it binds, and its source in
quotes.  One input is listed by itself; of several, each has its name in front.
-/

namespace ModuleImports.Command

open Json

/-- The imports of one input. -/
structure FileImports where
  file : String
  imports : List ImportRecord
deriving DecidableEq, Repr

/-! ## As text -/

/-- How wide the column of kinds is. -/
def kindWidth : Nat := 11

/-- A text with spaces after it, to some width. -/
def padded (width : Nat) (s : String) : String :=
  s ++ String.ofList (List.replicate (width - s.length) ' ')

/-- An entry of a named import as its declaration has it. -/
def specifierText (s : ImportSpecifier) : String :=
  match s.alias? with
  | some a => s.name ++ " as " ++ a
  | none => s.name

/-- The names that an import binds. -/
def namesText : ImportRecord → String
  | .namedImport is _ => r"{ " ++ ", ".intercalate (is.map specifierText) ++ r" }"
  | r => ", ".intercalate r.localNames

/-- **The line of an import.** -/
def recordText (r : ImportRecord) : String :=
  let names := namesText r
  let binding := if names.isEmpty then "" else names ++ " from "
  padded kindWidth r.kindName ++ " " ++ binding ++ Quoted.quote r.source

/-- The lines of an input, each behind some spaces. -/
def recordLines (indent : String) (rs : List ImportRecord) : String :=
  String.join (rs.map fun r => indent ++ recordText r ++ "\n")

/-- **The listing as text.** -/
def listingText : List FileImports → String
  | [one] => recordLines "" one.imports
  | several => String.join (several.map fun f => f.file ++ ":\n" ++ recordLines "  " f.imports)

/-! ## As JSON -/

/-- **An input with its imports** is a record. -/
def FileImports.shape (lib : JsonLibrary) : RecordShape FileImports where
  Values := String × List ImportRecord × Unit
  fields :=
    .cons { name := "file", codec := lib.string } <|
    .cons { name := "imports", codec := lib.list (ImportRecord.codec lib) } .nil
  make := fun (file, imports, _) => ⟨file, imports⟩
  values f := (f.file, f.imports, ())
  make_values _ := rfl

/-- An input with its imports in documents. -/
def FileImports.codec (lib : JsonLibrary) : Codec FileImports := lib.record (shape lib)

/-- **The listing as JSON.** -/
def listingJson (lib : JsonLibrary) : List FileImports → Json
  | [one] => (lib.list (ImportRecord.codec lib)).write one.imports
  | several => (lib.list (FileImports.codec lib)).write several

/-- The listing in the form that was asked for, unless JSON cannot be written. -/
def listing? (lib : JsonLibrary) (json : Bool) (fs : List FileImports) : Option String :=
  if json then (lib.pretty? (listingJson lib fs)).map (· ++ "\n") else some (listingText fs)

end ModuleImports.Command
