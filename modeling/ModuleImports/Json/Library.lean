import ModuleImports.Json.Value

/-!
# Json/Library — how values stand in documents

A type declares a shape.  A record has fields, a choice has alternatives that are just names, and a
union has forms, each with fields of its own, and a member that tells them apart.  A `JsonLibrary`
makes of a shape the two directions between values and documents; it also reads and writes the text
of a document.  Declarations are written for any library.
-/

namespace ModuleImports

namespace Json

/-- The two directions between the values of a type and documents. -/
structure Codec (α : Type) where
  write : α → Json
  read? : Json → Option α

/-- How a declared name is spelled in documents. -/
inductive NameRule where
  | asDeclared
  | camelCase
deriving DecidableEq, Repr

/-- A field of a record. -/
structure Field (α : Type) where
  /-- Its name in the declaration. -/
  name : String
  codec : Codec α
  /-- The value that a missing field has, if it may be missing. -/
  absent? : Option α := none
  /-- Whether a value is left out of documents. -/
  isLeftOut : α → Bool := fun _ => false

/-- Fields in the order of their declaration.  Their values are nested pairs. -/
inductive Fields : Type → Type 1 where
  | nil : Fields Unit
  | cons {α β : Type} (first : Field α) (rest : Fields β) : Fields (α × β)

/-- The names of fields, as they are declared. -/
def Fields.names {β : Type} : Fields β → List String
  | .nil => []
  | .cons f fs => f.name :: fs.names

/-- The members for fields and their values, in order and without what is left out.  `rename` gives
the name of the member for a field. -/
def Fields.members (rename : String → String) {β : Type} :
    Fields β → β → List (Option String × Json)
  | .nil, _ => []
  | .cons f fs, (a, b) =>
    if f.isLeftOut a then fs.members rename b
    else (some (rename f.name), f.codec.write a) :: fs.members rename b

/-- **The shape of a record.** -/
structure RecordShape (α : Type) where
  rule : NameRule := .asDeclared
  Values : Type
  fields : Fields Values
  make : Values → α
  values : α → Values
  make_values : ∀ a, make (values a) = a

/-- **The shape of a choice**, which has nothing but a name for each alternative. -/
structure ChoiceShape (α : Type) where
  rule : NameRule := .asDeclared
  alternatives : List α
  /-- The name of an alternative in the declaration. -/
  name : α → String

/-- One form of a union. -/
structure UnionForm (α : Type) where
  /-- Its name in the declaration. -/
  name : String
  Values : Type
  fields : Fields Values
  make : Values → α

/-- **The shape of a union.**  The rule is for the names of forms, not for those of fields. -/
structure UnionShape (α : Type) where
  /-- The name of the member that says which form it is. -/
  tag : String
  rule : NameRule := .asDeclared
  forms : List (UnionForm α)
  /-- The form that a value has, with the values of its fields. -/
  split : α → Σ form : UnionForm α, form.Values
  split_mem : ∀ a, (split a).1 ∈ forms
  make_split : ∀ a, (split a).1.make (split a).2 = a

end Json

open Json

/-- **A library for JSON.** -/
structure JsonLibrary where
  /-- The document that a text is. -/
  parse? : String → Option Json
  /-- A document as a text without blanks, unless writing fails. -/
  compact? : Json → Option String
  /-- A document as a text with lines and indents, unless writing fails. -/
  pretty? : Json → Option String
  /-- The name of the member for a declared field. -/
  fieldName : NameRule → String → String
  /-- The name of a declared alternative or form. -/
  formName : NameRule → String → String
  bool : Codec Bool
  string : Codec String
  option {α : Type} : Codec α → Codec (Option α)
  list {α : Type} : Codec α → Codec (List α)
  record {α : Type} : RecordShape α → Codec α
  choice {α : Type} : ChoiceShape α → Codec α
  union {α : Type} : UnionShape α → Codec α

namespace JsonLibrary

variable (lib : JsonLibrary)

/-- **The value in a text.** -/
def read? {α : Type} (c : Codec α) (text : String) : Option α := (lib.parse? text).bind c.read?

/-- **A value as a text.** -/
def write? {α : Type} (c : Codec α) (a : α) : Option String := lib.compact? (c.write a)

end JsonLibrary

end ModuleImports
