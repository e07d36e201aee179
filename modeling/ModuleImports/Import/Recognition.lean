import ModuleImports.Import.Declaration

/-!
# Import/Recognition — what the tokens of a text say about its imports

Only the keyword `import` starts a declaration; every other token between declarations is passed
over.  A declaration counts once the token after it, or the end of the text, is there: then all its
records count, and before that none.  `Scan.recognition` says what that comes to for all tokens of a
text.
-/

namespace ModuleImports

/-- A record that counts, and the place of the `import` it came from. -/
structure Recognized where
  place : Nat
  record : ImportRecord
deriving DecidableEq, Repr

/-- What is noted of a record that counts: the place of its `import`, its kind and its source. -/
def Recognized.note (r : Recognized) : Nat × String × String :=
  (r.place, r.record.kindName, r.record.source)

/-- All that reading a text gives: the records that count, and the error that ended reading, if one
did. -/
structure Recognition where
  recognized : List Recognized
  failure : Option ImportError
deriving DecidableEq, Repr

namespace Recognition

/-- The same recognition with more records in front. -/
def prepend (rs : List Recognized) (r : Recognition) : Recognition :=
  { r with recognized := rs ++ r.recognized }

/-- **The imports of a text**, or why it has none. -/
def records (r : Recognition) : Except ImportError (List ImportRecord) :=
  match r.failure with
  | some e => .error e
  | none => .ok (r.recognized.map (·.record))

@[simp] theorem prepend_nil (r : Recognition) : prepend [] r = r := rfl

@[simp] theorem prepend_prepend (rs ss : List Recognized) (r : Recognition) :
    prepend rs (prepend ss r) = prepend (rs ++ ss) r := by
  simp [prepend]

end Recognition

/-- Where reading a text stands between two tokens. -/
inductive ReadingState where
  /-- Between declarations; the records of the declaration that has just ended, if one has. -/
  | between (ended : List Recognized)
  /-- In the declaration that starts at a place. -/
  | within (place : Nat) (stage : Stage)
deriving DecidableEq, Repr

namespace ReadingState

/-- The records that count as soon as reading gets past this state. -/
def ended : ReadingState → List Recognized
  | between ended => ended
  | within .. => []

/-- The state after a token, unless it cannot come here. -/
def next (g : ImportGrammar) (t : Token) : ReadingState → Option ReadingState
  | between _ =>
    if t.is .keyword "import" then some (within t.span.start .clause) else some (between [])
  | within place stage =>
    match stage.next g t with
    | .proceed stage => some (within place stage)
    | .complete records => some (between (records.map (⟨place, ·⟩)))
    | .expression => some (between [])
    | .refuse => none

/-- What a message says could have come next.  Between declarations anything can. -/
def expected (g : ImportGrammar) : ReadingState → String
  | between _ => ""
  | within _ stage => stage.expected g

/-- A token that cannot come here. -/
def refusal (g : ImportGrammar) (t : Token) (state : ReadingState) : Recognition :=
  ⟨[], some (.syntactic ⟨state.expected g, t.describe, t.span⟩)⟩

/-- The end of the text, which is at `stop`. -/
def finish (g : ImportGrammar) (stop : Nat) : ReadingState → Recognition
  | between ended => ⟨ended, none⟩
  | within _ stage =>
    ⟨[], some (.syntactic ⟨stage.expected g, "end of input", Span.empty stop⟩)⟩

/-- The end of the tokens: of the text too, unless an error has cut them short. -/
def finishOr (g : ImportGrammar) (failure : Option LexicalError) (stop : Nat)
    (state : ReadingState) : Recognition :=
  match failure with
  | some e => ⟨[], some (.lexical e)⟩
  | none => state.finish g stop

/-- **Reading tokens from a state on.** -/
def read (g : ImportGrammar) (failure : Option LexicalError) (stop : Nat) :
    ReadingState → List Token → Recognition
  | state, [] => state.finishOr g failure stop
  | state, t :: ts =>
    match state.next g t with
    | some after => (after.read g failure stop ts).prepend state.ended
    | none => state.refusal g t

end ReadingState

/-- **What the tokens of a text say**, the text being `stop` characters long. -/
def Scan.recognition (g : ImportGrammar) (stop : Nat) (s : Scan) : Recognition :=
  (ReadingState.between []).read g s.failure stop s.tokens

end ModuleImports
