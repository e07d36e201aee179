import ModuleImports.Lexeme.Numeral

/-!
# Json/Value — JSON documents

A document keeps what its written form says: the members of an object in their order, doubled ones
too, and numbers as they are spelled.
-/

namespace ModuleImports

/-- **A JSON document.**  A string whose escapes leave a surrogate unpaired is well-formed JSON and
stands for no text; it is `none`. -/
inductive Json where
  | null
  | bool (b : Bool)
  | number (n : Numeral)
  | string (s : Option String)
  | array (items : List Json)
  | object (members : List (Option String × Json))
deriving Inhabited

namespace Json

/-- The document that is a text. -/
def ofString (s : String) : Json := string (some s)

/-- The text that a document is. -/
def string? : Json → Option String
  | string s => s
  | _ => none

/-- The truth value that a document is. -/
def bool? : Json → Option Bool
  | bool b => some b
  | _ => none

/-! ## The members of an object -/

/-- The members of that name. -/
def membersNamed (name : String) (members : List (Option String × Json)) : List Json :=
  (members.filter fun m => m.1 == some name).map Prod.snd

/-- Whether every name is a text. -/
def namesAreText (members : List (Option String × Json)) : Bool := members.all (·.1.isSome)

end Json

end ModuleImports
