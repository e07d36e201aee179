import ModuleImports.Import.Options
import ModuleImports.Import.Record
import ModuleImports.Lexeme.Vocabulary

/-!
# Import/Declaration — an import declaration, one token at a time

Import declarations have no nesting, so what has been read of one is a `Stage`, and the next token
decides by itself how it goes on.  `Stage.next` is that decision, for either grammar, and
`Stage.expected` says in words what a stage could have gone on with.
-/

namespace ModuleImports

open Vocabulary

/-- The part of an import clause that is not a default binding. -/
inductive ImportGroup where
  | list (entries : List ImportSpecifier)
  | everything (binding : String)
deriving DecidableEq, Repr

/-- What an import clause binds: a default, a group, or first one and then the other. -/
structure ImportClause where
  binding? : Option String
  group? : Option ImportGroup
deriving DecidableEq, Repr

/-- The record of a group with its source. -/
def ImportGroup.record (source : String) : ImportGroup → ImportRecord
  | list entries => .namedImport entries source
  | everything binding => .namespaceImport binding source

/-- The records of a clause with its source, in the order of the text. -/
def ImportClause.records (c : ImportClause) (source : String) : List ImportRecord :=
  (c.binding?.map (.defaultImport · source)).toList ++ (c.group?.map (·.record source)).toList

/-- How far a declaration has been read.  `binding?` is the default binding in front of a group, and
`entries` are the complete entries of a list, the last one first. -/
inductive Stage where
  /-- After `import`. -/
  | clause
  /-- After a default binding. -/
  | afterBinding (binding : String)
  /-- After a default binding and a comma. -/
  | group (binding : String)
  /-- In a list, where an entry starts; `closable` if the list may end here. -/
  | entry (binding? : Option String) (entries : List ImportSpecifier) (closable : Bool)
  /-- In a list, after the name of an entry; `complete` if that is an entry already. -/
  | afterName (binding? : Option String) (entries : List ImportSpecifier) (name : String)
      (complete : Bool)
  /-- In a list, after a name and `as`. -/
  | afterAs (binding? : Option String) (entries : List ImportSpecifier) (name : String)
  /-- In a list, after an entry that cannot go on. -/
  | afterEntry (binding? : Option String) (entries : List ImportSpecifier)
  /-- After `*`. -/
  | afterStar (binding? : Option String)
  /-- After `* as`. -/
  | afterStarAs (binding? : Option String)
  /-- After the whole clause. -/
  | afterClause (c : ImportClause)
  /-- After `from`. -/
  | source (c : ImportClause)
deriving DecidableEq, Repr

/-- What a token makes of a declaration. -/
inductive Move where
  /-- The declaration goes on. -/
  | proceed (s : Stage)
  /-- The token was the last one of a declaration with these records. -/
  | complete (records : List ImportRecord)
  /-- There is no declaration here, but an expression. -/
  | expression
  /-- The token cannot come here. -/
  | refuse
deriving DecidableEq, Repr

/-- The text of a token, if it has that kind. -/
def Token.ofKind? (t : Token) (kind : TokenKind) : Option String :=
  if t.kind = kind then t.text? else none

/-- The text of a token that can name an entry only if an alias follows: a reserved word, a word
that is an operator, or a string. -/
def Token.reservedName? (t : Token) : Option String :=
  match t.kind with
  | .keyword | .stringLiteral => t.text?
  | .operator => t.text?.filter isWordOperator
  | _ => none

namespace Stage

/-- A comma or a closing brace after an entry; `entries` has the entry in it. -/
def afterEntryNext (g : ImportGrammar) (binding? : Option String) (entries : List ImportSpecifier)
    (t : Token) : Move :=
  if t.is .delimiter "," then .proceed (.entry binding? entries (g = .full))
  else if t.is .delimiter r"}" then
    .proceed (.afterClause ⟨binding?, some (.list entries.reverse)⟩)
  else .refuse

/-- Where an entry starts.  The full grammar takes other names than identifiers, with an alias. -/
def entryNext (g : ImportGrammar) (binding? : Option String) (entries : List ImportSpecifier)
    (t : Token) : Move :=
  match t.ofKind? .identifier with
  | some name => .proceed (.afterName binding? entries name true)
  | none =>
    match g, t.reservedName? with
    | .full, some name => .proceed (.afterName binding? entries name false)
    | _, _ => .refuse

/-- The first token after `import`. -/
def clauseNext (g : ImportGrammar) (t : Token) : Move :=
  match t.ofKind? .identifier with
  | some binding => .proceed (.afterBinding binding)
  | none =>
    if t.is .delimiter r"{" then .proceed (.entry none [] true)
    else if t.is .operator "*" then .proceed (.afterStar none)
    else if g = .full then
      match t.ofKind? .stringLiteral with
      | some name => .complete [.sideEffectImport name]
      | none => if t.is .delimiter "(" ∨ t.is .operator "." then .expression else .refuse
    else .refuse

/-- **How a declaration goes on with a token.** -/
def next (g : ImportGrammar) (t : Token) : Stage → Move
  | clause => clauseNext g t
  | afterBinding binding =>
    if g = .full ∧ t.is .delimiter "," then .proceed (.group binding)
    else if t.is .identifier "from" then .proceed (.source ⟨some binding, none⟩)
    else .refuse
  | group binding =>
    if t.is .delimiter r"{" then .proceed (.entry (some binding) [] true)
    else if t.is .operator "*" then .proceed (.afterStar (some binding))
    else .refuse
  | entry binding? entries closable =>
    if closable ∧ t.is .delimiter r"}" then
      .proceed (.afterClause ⟨binding?, some (.list entries.reverse)⟩)
    else entryNext g binding? entries t
  | afterName binding? entries name complete =>
    if g = .full ∧ t.is .identifier "as" then .proceed (.afterAs binding? entries name)
    else if complete then afterEntryNext g binding? (⟨name, none⟩ :: entries) t
    else .refuse
  | afterAs binding? entries name =>
    match t.ofKind? .identifier with
    | some localName => .proceed (.afterEntry binding? (⟨name, some localName⟩ :: entries))
    | none => .refuse
  | afterEntry binding? entries => afterEntryNext g binding? entries t
  | afterStar binding? =>
    if t.is .identifier "as" then .proceed (.afterStarAs binding?) else .refuse
  | afterStarAs binding? =>
    match t.ofKind? .identifier with
    | some binding => .proceed (.afterClause ⟨binding?, some (.everything binding)⟩)
    | none => .refuse
  | afterClause c => if t.is .identifier "from" then .proceed (.source c) else .refuse
  | source c =>
    match t.ofKind? .stringLiteral with
    | some name => .complete (c.records name)
    | none => .refuse

/-- **What a message says could have come next.** -/
def expected (g : ImportGrammar) : Stage → String
  | clause =>
    match g with
    | .full => r"identifier, '{', '*' or string literal"
    | .basic => r"identifier, '{' or '*'"
  | afterBinding _ | afterClause _ => TokenKind.identifier.quoting "from"
  | group _ => r"'{' or '*'"
  | entry .. =>
    match g with
    | .full => "identifier or string literal"
    | .basic => TokenKind.identifier.name
  | afterName _ _ _ complete =>
    if complete then r"',' or '}'" else TokenKind.identifier.quoting "as"
  | afterEntry .. => r"',' or '}'"
  | afterStar _ => TokenKind.identifier.quoting "as"
  | afterAs .. | afterStarAs _ => TokenKind.identifier.name
  | source _ => TokenKind.stringLiteral.name

end Stage

end ModuleImports
