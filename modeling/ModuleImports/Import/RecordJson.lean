import ModuleImports.Import.Record
import ModuleImports.Json.Standard

/-!
# Import/RecordJson — import records as JSON

A record is a union: its member `type` names the form, and the others are the parts.  An entry of a
named import is a record, in which a name that is not given is left out and may be missing.
-/

namespace ModuleImports

open Json

namespace ImportSpecifier

/-- **An entry** is a record. -/
def shape (lib : JsonLibrary) : RecordShape ImportSpecifier where
  Values := String × Option String × Unit
  fields :=
    .cons { name := "name", codec := lib.string } <|
    .cons { name := "alias", codec := lib.option lib.string, absent? := some none,
            isLeftOut := Option.isNone } .nil
  make := fun (name, alias?, _) => ⟨name, alias?⟩
  values s := (s.name, s.alias?, ())
  make_values _ := rfl

/-- An entry in documents. -/
def codec (lib : JsonLibrary) : Codec ImportSpecifier := lib.record (shape lib)

end ImportSpecifier

namespace ImportRecord

variable (lib : JsonLibrary)

/-- The form of a default import. -/
def defaultForm : UnionForm ImportRecord where
  name := "DefaultImport"
  Values := String × String × Unit
  fields :=
    .cons { name := "binding", codec := lib.string } <|
    .cons { name := "source", codec := lib.string } .nil
  make := fun (binding, source, _) => defaultImport binding source

/-- The form of a named import. -/
def namedForm : UnionForm ImportRecord where
  name := "NamedImport"
  Values := List ImportSpecifier × String × Unit
  fields :=
    .cons { name := "imports", codec := lib.list (ImportSpecifier.codec lib) } <|
    .cons { name := "source", codec := lib.string } .nil
  make := fun (imports, source, _) => namedImport imports source

/-- The form of a namespace import. -/
def namespaceForm : UnionForm ImportRecord where
  name := "NamespaceImport"
  Values := String × String × Unit
  fields :=
    .cons { name := "binding", codec := lib.string } <|
    .cons { name := "source", codec := lib.string } .nil
  make := fun (binding, source, _) => namespaceImport binding source

/-- The form of an import for its side effects. -/
def sideEffectForm : UnionForm ImportRecord where
  name := "SideEffectImport"
  Values := String × Unit
  fields := .cons { name := "source", codec := lib.string } .nil
  make := fun (source, _) => sideEffectImport source

/-- The form of a record, with its parts. -/
def split : ImportRecord → Σ form : UnionForm ImportRecord, form.Values
  | defaultImport binding source => ⟨defaultForm lib, binding, source, ()⟩
  | namedImport imports source => ⟨namedForm lib, imports, source, ()⟩
  | namespaceImport binding source => ⟨namespaceForm lib, binding, source, ()⟩
  | sideEffectImport source => ⟨sideEffectForm lib, source, ()⟩

/-- **A record** is a union. -/
def shape : UnionShape ImportRecord where
  tag := "type"
  rule := .camelCase
  forms := [defaultForm lib, namedForm lib, namespaceForm lib, sideEffectForm lib]
  split := split lib
  split_mem r := by cases r <;> simp [split]
  make_split r := by cases r <;> rfl

/-- A record in documents. -/
def codec : Codec ImportRecord := lib.union (shape lib)

/-- A record as a document. -/
def toJson (r : ImportRecord) : Json := (codec .standard).write r

/-- **A record, from JSON.** -/
def read? (text : String) : Option ImportRecord := JsonLibrary.standard.read? (codec .standard) text

end ImportRecord

end ModuleImports
