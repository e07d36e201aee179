import ModuleImports.Json.Library
import ModuleImports.Json.Limits
import ModuleImports.Json.Reader
import ModuleImports.Json.Writer

/-!
# Json/Standard — a library for JSON that runs

A record is an object with a member for each field, in any order; members of other names are passed
over.  It may also be an array of its values in order, which may stop early.  A union is an object
with the fields of its form and one member more, or an array of the form and the fields; since the
form decides what the fields are, the document is taken in as a whole first.
-/

namespace ModuleImports

namespace Json

/-! ## Names -/

/-- Words with marks between them as one word, in which each but the first starts with a capital. -/
def joinWords (startsWord : Bool) : List Char → List Char
  | [] => []
  | '_' :: cs => joinWords true cs
  | c :: cs => (if startsWord then c.toUpper else c) :: joinWords false cs

/-- A word with its first letter in lower case. -/
def lowerFirst : List Char → List Char
  | [] => []
  | c :: cs => c.toLower :: cs

/-- The name of the member for a field. -/
def NameRule.fieldName : NameRule → String → String
  | asDeclared, name => name
  | camelCase, name => String.ofList (joinWords false name.toList)

/-- The name of an alternative or a form. -/
def NameRule.formName : NameRule → String → String
  | asDeclared, name => name
  | camelCase, name => String.ofList (lowerFirst name.toList)

/-! ## Fields -/

/-- What a field is among the members of an object. -/
def Field.ofMembers? {α : Type} (f : Field α) (key : String)
    (ms : List (Option String × Json)) : Option α :=
  match membersNamed key ms with
  | [] => f.absent?
  | [v] => f.codec.read? v
  | _ => none

namespace Fields

/-- What fields are among the members of an object. -/
def ofMembers? (rename : String → String) (ms : List (Option String × Json)) {β : Type} :
    Fields β → Option β
  | .nil => some ()
  | .cons f fs => do return (← f.ofMembers? (rename f.name) ms, ← fs.ofMembers? rename ms)

/-- What fields are as the items of an array. -/
def ofItems? {β : Type} : Fields β → List Json → Option β
  | .nil, [] => some ()
  | .nil, _ :: _ => none
  | .cons f fs, [] => do return (← f.absent?, ← fs.ofItems? [])
  | .cons f fs, v :: vs => do return (← f.codec.read? v, ← fs.ofItems? vs)

end Fields

/-! ## Codecs -/

/-- Truth values. -/
def boolCodec : Codec Bool := ⟨.bool, bool?⟩

/-- Texts. -/
def stringCodec : Codec String := ⟨.ofString, string?⟩

/-- A value or null. -/
def optionCodec {α : Type} (c : Codec α) : Codec (Option α) where
  write a? := a?.elim .null c.write
  read? v :=
    match v with
    | .null => some none
    | v => (c.read? v).map some

/-- Values in an array. -/
def listCodec {α : Type} (c : Codec α) : Codec (List α) where
  write as := .array (as.map c.write)
  read? v :=
    match v with
    | .array items => items.mapM c.read?
    | _ => none

/-- **Records.** -/
def RecordShape.codec {α : Type} (shape : RecordShape α) : Codec α where
  write a := .object (shape.fields.members shape.rule.fieldName (shape.values a))
  read? v :=
    match v with
    | .object ms =>
      if namesAreText ms then
        (shape.fields.ofMembers? shape.rule.fieldName ms).map shape.make
      else none
    | .array items => (shape.fields.ofItems? items).map shape.make
    | _ => none

namespace ChoiceShape

variable {α : Type} (shape : ChoiceShape α)

/-- The name of an alternative in documents. -/
def nameOf (a : α) : String := shape.rule.formName (shape.name a)

/-- The alternative of a name. -/
def ofName? (name : String) : Option α := shape.alternatives.find? (shape.nameOf · == name)

/-- **Choices.**  An alternative is its name, or an object with that name for its only member, which
is null. -/
def codec : Codec α where
  write a := .ofString (shape.nameOf a)
  read? v :=
    match v with
    | .string s => s.bind shape.ofName?
    | .object [(name, .null)] => name.bind shape.ofName?
    | _ => none

end ChoiceShape

namespace UnionShape

variable {α : Type} (shape : UnionShape α)

/-- The name of a form in documents. -/
def nameOf (form : UnionForm α) : String := shape.rule.formName form.name

/-- The form of a name. -/
def ofName? (name : String) : Option (UnionForm α) :=
  shape.forms.find? (shape.nameOf · == name)

/-- The form that the members of an object name. -/
def formOf? (ms : List (Option String × Json)) : Option (UnionForm α) :=
  match membersNamed shape.tag ms with
  | [v] => v.string?.bind shape.ofName?
  | _ => none

/-- **Unions.** -/
def codec : Codec α where
  write a :=
    let form := (shape.split a).1
    .object ((some shape.tag, .ofString (shape.nameOf form)) ::
      form.fields.members NameRule.asDeclared.fieldName (shape.split a).2)
  read? v :=
    if v.canBeHeld then
      match v with
      | .object ms => (shape.formOf? ms).bind fun form =>
        (form.fields.ofMembers? NameRule.asDeclared.fieldName ms).map form.make
      | .array (name :: items) => (name.string?.bind shape.ofName?).bind fun form =>
        (form.fields.ofItems? items).map form.make
      | _ => none
    else none

end UnionShape

end Json

open Json

/-- **The library that runs.** -/
def JsonLibrary.standard : JsonLibrary where
  parse? := Json.read?
  compact? v := some v.toCompactString
  pretty? v := some v.toSpreadString
  fieldName := NameRule.fieldName
  formName := NameRule.formName
  bool := boolCodec
  string := stringCodec
  option := optionCodec
  list := listCodec
  record := RecordShape.codec
  choice := ChoiceShape.codec
  union := UnionShape.codec

end ModuleImports
