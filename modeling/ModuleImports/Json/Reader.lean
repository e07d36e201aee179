import ModuleImports.Json.Value
import ModuleImports.Text.CodePoint

/-!
# Json/Reader — reading a JSON document

Reading has two steps.  The text is cut into **pieces**: the six structural characters, and scalars.
Then a machine with a stack of open arrays and objects takes the pieces one at a time.  Neither step
accepts more than the format allows: no comments, no trailing commas, nothing after the document.
-/

namespace ModuleImports.Json

open Vocabulary

/-! ## Pieces -/

/-- A structural character or a scalar. -/
inductive Piece where
  | openArray
  | closeArray
  | openObject
  | closeObject
  | comma
  | colon
  | scalar (v : Json)

/-- Space, tab, line feed, carriage return. -/
def isSpace (c : Char) : Bool := c == ' ' || c == '\t' || c == '\n' || c == '\r'

/-- The character that a backslash and this one stand for. -/
def escaped? : Char → Option Char
  | '"' => some '"'
  | '\\' => some '\\'
  | '/' => some '/'
  | 'b' => some '\x08'
  | 'f' => some '\x0c'
  | 'n' => some '\n'
  | 'r' => some '\r'
  | 't' => some '\t'
  | _ => none

/-- The rest of a string of which `n` characters have been read: its units, of which `units` have
been read, the last one first, and its length with the quotes.  Control characters have to be
escaped. -/
def readUnits (units : List Nat) (n : Nat) : List Char → Option (List Nat × Nat)
  | [] => none
  | '"' :: _ => some (units.reverse, n + 1)
  | '\\' :: 'u' :: a :: b :: c :: d :: cs =>
    if [a, b, c, d].all isHexDigit then readUnits (hexValue [a, b, c, d] :: units) (n + 6) cs
    else none
  | '\\' :: c :: cs =>
    match escaped? c with
    | some d => readUnits (d.toNat :: units) (n + 2) cs
    | none => none
  | c :: cs =>
    if c = '\\' ∨ c.toNat < 0x20 then none else readUnits (c.toNat :: units) (n + 1) cs

/-- The piece at the front of a text, and its length. -/
def piece? (c : Char) (cs : List Char) : Option (Piece × Nat) :=
  match c, cs with
  | '[', _ => some (.openArray, 1)
  | ']', _ => some (.closeArray, 1)
  | '{', _ => some (.openObject, 1)
  | '}', _ => some (.closeObject, 1)
  | ',', _ => some (.comma, 1)
  | ':', _ => some (.colon, 1)
  | 'n', 'u' :: 'l' :: 'l' :: _ => some (.scalar .null, 4)
  | 't', 'r' :: 'u' :: 'e' :: _ => some (.scalar (.bool true), 4)
  | 'f', 'a' :: 'l' :: 's' :: 'e' :: _ => some (.scalar (.bool false), 5)
  | '"', cs =>
    (readUnits [] 1 cs).map fun (units, n) =>
      (.scalar (.string ((CodePoint.decode? units).map String.ofList)), n)
  | c, cs =>
    if c.isDigit ∨ c = '-' ∧ (cs.head?).any Char.isDigit then
      match Numeral.read (c :: cs) with
      | .ok n => some (.scalar (.number n), n.spelling.length)
      | .error _ => none
    else none

/-- The pieces of a text; `found` are those before, the last one first. -/
def piecesOnto? (found : List Piece) : List Char → Option (List Piece)
  | [] => some found.reverse
  | c :: cs =>
    if isSpace c then piecesOnto? found cs
    else match piece? c cs with
      | some (p, n) => piecesOnto? (p :: found) (cs.drop (n - 1))
      | none => none
termination_by cs => cs.length
decreasing_by all_goals simp only [List.length_cons, List.length_drop]; omega

/-- The pieces of a text. -/
def pieces? (cs : List Char) : Option (List Piece) := piecesOnto? [] cs

/-! ## The machine -/

/-- An array or object that is open: what is complete of it, the last one first, and for an object
the name of the member being read. -/
inductive Frame where
  | items (done : List Json)
  | members (done : List (Option String × Json)) (name : Option String)

/-- Where the machine stands; every state has the frames that are open. -/
inductive ReadState where
  /-- A document has to start. -/
  | value (frames : List Frame)
  /-- An array has just been opened. -/
  | firstItem (frames : List Frame)
  /-- An object has just been opened. -/
  | firstName (frames : List Frame)
  /-- The name of a further member has to come. -/
  | nextName (frames : List Frame) (done : List (Option String × Json))
  /-- A colon has to come. -/
  | colon (frames : List Frame) (done : List (Option String × Json)) (name : Option String)
  /-- A document is complete. -/
  | after (frames : List Frame) (v : Json)

/-- A document starts with this piece. -/
def start? (frames : List Frame) : Piece → Option ReadState
  | .scalar v => some (.after frames v)
  | .openArray => some (.firstItem frames)
  | .openObject => some (.firstName frames)
  | _ => none

namespace ReadState

/-- The state after a piece, unless it cannot come here. -/
def next? : ReadState → Piece → Option ReadState
  | value frames, p => start? frames p
  | firstItem frames, .closeArray => some (.after frames (.array []))
  | firstItem frames, p => start? (.items [] :: frames) p
  | firstName frames, .closeObject => some (.after frames (.object []))
  | firstName frames, .scalar (.string s) => some (.colon frames [] s)
  | nextName frames done, .scalar (.string s) => some (.colon frames done s)
  | colon frames done name, .colon => some (.value (.members done name :: frames))
  | after (.items done :: frames) v, .comma => some (.value (.items (v :: done) :: frames))
  | after (.items done :: frames) v, .closeArray =>
    some (.after frames (.array (v :: done).reverse))
  | after (.members done name :: frames) v, .comma => some (.nextName frames ((name, v) :: done))
  | after (.members done name :: frames) v, .closeObject =>
    some (.after frames (.object ((name, v) :: done).reverse))
  | _, _ => none

/-- The document, if it is complete and nothing is open. -/
def result? : ReadState → Option Json
  | after [] v => some v
  | _ => none

/-- The state after some pieces. -/
def run? (s : ReadState) : List Piece → Option ReadState
  | [] => some s
  | p :: ps =>
    match s.next? p with
    | some s => s.run? ps
    | none => none

end ReadState

/-- **The document that a text is.** -/
def read? (text : String) : Option Json := do
  let pieces ← pieces? text.toList
  let last ← (ReadState.value []).run? pieces
  last.result?

end ModuleImports.Json
