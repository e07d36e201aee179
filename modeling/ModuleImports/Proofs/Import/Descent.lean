import ModuleImports.Import.Reader
import ModuleImports.Proofs.Token.Account
import ModuleImports.Proofs.Token.Lookahead

/-!
# Proofs/Import/Descent — reading imports part by part

`Descent.read` reads a text as its grammar is written.  Each part of a declaration has a function
that moves the cursor past it, and two loops stand around them: one over the entries of a list, and
one over the text.  Whether a part is there is asked of the current token.  Asking moves nothing, a
move that fails leaves the token, and an `import` that starts an expression is passed without what
follows it, so it does not go without saying that the loops end.

They do because every part is **orderly** (`Descent.Orderly`): it moves past tokens with one move
for each, and fails either in between or in a move past a token.  A round of either loop moves past
a token at least (`takes_round`, `orderly_item`).
-/

namespace ModuleImports

/-- **A cursor that counts its moves.**  The token that it holds is one of its text. -/
structure Metered where
  cursor : Cursor
  moves : Nat
  spells : ∀ t, cursor.current = some t → cursor.source.Spells t

namespace Metered

/-- In front of a text, before the first move. -/
def start (source : SourceText) (options : ScanOptions) : Metered :=
  ⟨.start (.start source options), 0, nofun⟩

/-- After one more move, whether it succeeds or fails. -/
def advanced (m : Metered) : Metered where
  cursor := m.cursor.advance.2
  moves := m.moves + 1
  spells t ht := by
    rw [Cursor.source_advance]
    rcases hnext : m.cursor.scanner.next.1 with e | next
    · rw [Cursor.advance_of_error hnext] at ht
      exact m.spells t ht
    · rw [Cursor.advance_of_ok hnext] at ht
      obtain rfl : next = some t := ht
      exact (Scanner.gap_and_spells_of_next hnext).2.1

/-- How much there is still to read. -/
def left (m : Metered) : Nat := Reader.left ⟨m.cursor, .between [], []⟩

variable {m : Metered} {kind : TokenKind} {word : String}

theorem isSome_of_isAt (h : m.cursor.isAt kind word = true) : m.cursor.current.isSome := by
  obtain ⟨t, ht, -⟩ := Cursor.isAt_iff.1 h
  exact ht ▸ rfl

theorem isSome_of_isAtKind (h : m.cursor.isAtKind kind = true) : m.cursor.current.isSome := by
  obtain ⟨t, ht, -⟩ := (Option.any_eq_true _ _).1 h
  exact ht ▸ rfl

end Metered

/-- **A part of the descent**: it moves a cursor, and gives what it has found there or fails. -/
abbrev Descent (α : Type) : Type := EStateM ImportError Metered α

namespace Descent

variable {α β : Type} {n k : Nat} {m m' m'' : Metered} {t : Token} {ts us : List Token}
  {p p' : Descent α} {q : α → Descent β} {c : Descent Bool} {b : Bool} {a : α} {e : ImportError}
  {g : ImportGrammar} {kind : TokenKind} {word expected : String}

/-! ## Moving past tokens -/

/-- Moves past the current token, and gives it. -/
def move : Descent (Option Token) := fun m =>
  match m.cursor.advance.1 with
  | .ok t => .ok t m.advanced
  | .error e => .error (.lexical e) m.advanced

/-- **Past some tokens**, with one move for each. -/
inductive Past : Metered → List Token → Metered → Prop
  | nil (m : Metered) : Past m [] m
  | cons {m m' m'' : Metered} {t : Token} {ts : List Token} :
      move m = .ok (some t) m' → Past m' ts m'' → Past m (t :: ts) m''

theorem Past.append (h : Past m ts m') (h' : Past m' us m'') : Past m (ts ++ us) m'' := by
  induction h with
  | nil => exact h'
  | cons hmove _ ih => exact .cons hmove (ih h')

theorem Past.single (h : move m = .ok (some t) m') : Past m [t] m' := .cons h (.nil m')

theorem move_of_ok {next : Option Token} (h : m.cursor.scanner.next.1 = .ok next) :
    move m = .ok m.cursor.current m.advanced := by
  rw [move, Cursor.advance_of_ok h]

theorem move_of_error {e : LexicalError} (h : m.cursor.scanner.next.1 = .error e) :
    move m = .error (.lexical e) m.advanced := by
  rw [move, Cursor.advance_of_error h]

theorem move_eq_ok_iff {moved : Option Token} : move m = .ok moved m' ↔
    (∃ next, m.cursor.scanner.next.1 = .ok next) ∧ moved = m.cursor.current ∧
      m' = m.advanced := by
  rcases hnext : m.cursor.scanner.next.1 with e | next
  · simp [move_of_error hnext]
  · simp [move_of_ok hnext, eq_comm]

theorem eq_advanced_of_move_error (h : move m = .error e m') : m' = m.advanced := by
  rcases hnext : m.cursor.scanner.next.1 with e' | next
  · rw [move_of_error hnext] at h
    exact (EStateM.Result.error.inj h).2.symm
  · rw [move_of_ok hnext] at h
    cases h

/-- A move past a token leaves less to read. -/
theorem left_lt_of_move (h : move m = .ok (some t) m') : m'.left < m.left := by
  obtain ⟨⟨next, hnext⟩, ht, rfl⟩ := move_eq_ok_iff.1 h
  have hadvance : m.cursor.advance = (.ok m.cursor.current, m.advanced.cursor) := by
    rw [Cursor.advance_of_ok hnext, Metered.advanced]
    simp only [Cursor.advance_of_ok hnext]
  exact Reader.left_lt_of_advance ht.symm hadvance

theorem Past.left_le (h : Past m ts m') : m'.left + ts.length ≤ m.left := by
  induction h with
  | nil => exact Nat.le_refl _
  | cons hmove _ ih =>
    have := left_lt_of_move hmove
    rw [List.length_cons]
    omega

/-! ## Orderly parts -/

/-- **Orderly** from a cursor on: past `n` tokens at least, or to a failure, with no move after the
tokens before it but one that fails in front of another. -/
def Orderly (n : Nat) (m : Metered) : EStateM.Result ImportError Metered α → Prop
  | .ok _ m' => ∃ ts, n ≤ ts.length ∧ Past m ts m'
  | .error e m' => ∃ ts stop, Past m ts stop ∧
      (m' = stop ∨ stop.cursor.current.isSome ∧ move stop = .error e m')

/-- **A part takes `n` tokens** at least if it is there, and it is orderly. -/
def Takes (n : Nat) (p : Descent α) : Prop := ∀ m, Orderly n m (p m)

/-- A move in front of a token. -/
theorem orderly_move (h : m.cursor.current.isSome) : Orderly 1 m (move m) := by
  rcases hnext : m.cursor.scanner.next.1 with e | next
  · have hmove := move_of_error hnext
    exact hmove ▸ ⟨[], m, .nil m, .inr ⟨h, hmove⟩⟩
  · have hmove := move_of_ok hnext
    obtain ⟨t, ht⟩ := Option.isSome_iff_exists.1 h
    rw [ht] at hmove
    exact hmove ▸ ⟨[t], Nat.le_refl _, .single hmove⟩

section

variable {result : EStateM.Result ImportError Metered α}

theorem Orderly.mono (h : Orderly n m result) (hk : k ≤ n) : Orderly k m result := by
  cases result with
  | ok =>
    obtain ⟨ts, hn, hpast⟩ := h
    exact ⟨ts, hk.trans hn, hpast⟩
  | error => exact h

/-- What is orderly behind some tokens is orderly in front of them. -/
theorem Orderly.past (h : Orderly k m' result) (hpast : Past m ts m') (hn : n ≤ ts.length) :
    Orderly (n + k) m result := by
  cases result with
  | ok =>
    obtain ⟨us, hk, hpast'⟩ := h
    exact ⟨ts ++ us, List.length_append ▸ Nat.add_le_add hn hk, hpast.append hpast'⟩
  | error =>
    obtain ⟨us, stop, hpast', hstop⟩ := h
    exact ⟨ts ++ us, stop, hpast.append hpast', hstop⟩

end

/-- What takes a token has moved past one if it is there. -/
theorem exists_past (hp : Orderly 1 m (p m)) (h : p m = .ok a m') :
    ∃ t ts, Past m (t :: ts) m' := by
  rw [h] at hp
  obtain ⟨ts, hts, hpast⟩ := hp
  obtain ⟨t, us, rfl⟩ := List.exists_cons_of_length_pos hts
  exact ⟨t, us, hpast⟩

theorem left_lt_of_orderly (hp : Orderly 1 m (p m)) (h : p m = .ok a m') : m'.left < m.left := by
  obtain ⟨t, ts, hpast⟩ := exists_past hp h
  have := hpast.left_le
  rw [List.length_cons] at this
  omega

theorem bind_of_ok (h : p m = .ok a m') : (p >>= q) m = q a m' := by
  change EStateM.bind p q m = _
  rw [EStateM.bind, h]

theorem bind_of_error (h : p m = .error e m') : (p >>= q) m = .error e m' := by
  change EStateM.bind p q m = _
  rw [EStateM.bind, h]

/-- A question, and one part or another by its answer. -/
theorem ite_of_ok (h : c m = .ok b m') :
    (do if ← c then p else p' : Descent α) m = if b then p m' else p' m' := by
  rw [bind_of_ok h]
  split <;> rfl

theorem Orderly.bind (hp : Orderly n m (p m)) (hq : ∀ a, Takes k (q a)) :
    Orderly (n + k) m ((p >>= q) m) := by
  cases hresult : p m with
  | ok a m' =>
    rw [hresult] at hp
    obtain ⟨ts, hn, hpast⟩ := hp
    rw [bind_of_ok hresult]
    exact (hq a m').past hpast hn
  | error e m' =>
    rw [hresult] at hp
    rw [bind_of_error hresult]
    exact hp

theorem Takes.mono (hp : Takes n p) (hk : k ≤ n) : Takes k p := fun m => (hp m).mono hk

/-- A part that takes tokens is orderly at least. -/
theorem Takes.orderly (hp : Takes n p) : Takes 0 p := hp.mono (Nat.zero_le n)

/-- One part and then another. -/
theorem Takes.bind (hp : Takes n p) (hq : ∀ a, Takes k (q a)) : Takes (n + k) (p >>= q) :=
  fun m => (hp m).bind hq

/-- One part or another. -/
theorem Takes.ite (hc : Takes 0 c) (hp : Takes n p) (hp' : Takes n p') :
    Takes n (do if ← c then p else p') := by
  have h := hc.bind (q := fun b => if b then p else p') (k := n) fun b => by
    cases b
    · exact hp'
    · exact hp
  rwa [Nat.zero_add] at h

theorem takes_pure (a : α) : Takes 0 (pure a : Descent α) := fun m => ⟨[], Nat.le_refl _, .nil m⟩

/-! ## Single tokens -/

/-- Whether the current token is the one of that kind with that text. -/
def isAt (kind : TokenKind) (word : String) : Descent Bool := return (← get).cursor.isAt kind word

/-- Whether the current token has that kind. -/
def isAtKind (kind : TokenKind) : Descent Bool := return (← get).cursor.isAtKind kind

/-- Whether the current token is a word that is an operator. -/
def isAtWordOperator : Descent Bool :=
  return (← get).cursor.current.any fun t =>
    t.kind == .operator && t.text?.any Vocabulary.isWordOperator

/-- Refuses the current token, or the end of the text. -/
def refuse (expected : String) : Descent α := fun m =>
  let found := m.cursor.current.elim "end of input" Token.describe
  .error (.syntactic ⟨expected, found, m.cursor.span⟩) m

/-- A token that has to come. -/
def expect (kind : TokenKind) (word : String) : Descent Unit := do
  if ← isAt kind word then
    let _ ← move
  else refuse (kind.quoting word)

/-- A token that may come: whether it has. -/
def accept (kind : TokenKind) (word : String) : Descent Bool := do
  if ← isAt kind word then
    let _ ← move
    return true
  else return false

/-- A token of a kind that has to come: its text. -/
def text (kind : TokenKind) : Descent String := do
  if ← isAtKind kind then
    match (← move).bind Token.text? with
    | some content => return content
    | none => refuse kind.name
  else refuse kind.name

theorem isAt_eq : isAt kind word m = .ok (m.cursor.isAt kind word) m := rfl

theorem isAtKind_eq : isAtKind kind m = .ok (m.cursor.isAtKind kind) m := rfl

theorem takes_isAt : Takes 0 (isAt kind word) := fun m => ⟨[], Nat.le_refl _, .nil m⟩

theorem takes_isAtKind : Takes 0 (isAtKind kind) := fun m => ⟨[], Nat.le_refl _, .nil m⟩

theorem takes_isAtWordOperator : Takes 0 isAtWordOperator := fun m => ⟨[], Nat.le_refl _, .nil m⟩

theorem takes_refuse : Takes n (refuse expected : Descent α) := fun m => ⟨[], m, .nil m, .inl rfl⟩

theorem takes_expect : Takes 1 (expect kind word) := by
  intro m
  rw [expect, ite_of_ok isAt_eq]
  split
  · next h => exact (orderly_move (Metered.isSome_of_isAt h)).bind fun _ => takes_pure _
  · exact takes_refuse m

theorem takes_accept : Takes 0 (accept kind word) := by
  intro m
  rw [accept, ite_of_ok isAt_eq]
  split
  · next h =>
    have hmove := (orderly_move (Metered.isSome_of_isAt h)).bind fun _ => takes_pure true
    exact hmove.mono (Nat.zero_le _)
  · exact takes_pure _ m

theorem takes_text : Takes 1 (text kind) := by
  intro m
  rw [text, ite_of_ok isAtKind_eq]
  split
  · next h =>
    refine (orderly_move (Metered.isSome_of_isAtKind h)).bind (k := 0) fun moved => ?_
    cases moved.bind Token.text? with
    | some content => exact takes_pure _
    | none => exact takes_refuse
  · exact takes_refuse m

/-! ## Lists -/

/-- The name of an entry that needs an alias. -/
def reservedName : Descent String := do
  if ← isAtKind .keyword then text .keyword
  else if ← isAtWordOperator then text .operator
  else if ← isAtKind .stringLiteral then text .stringLiteral
  else refuse "identifier or string literal"

/-- An entry of a list. -/
def entry : ImportGrammar → Descent ImportSpecifier
  | .basic => return ⟨← text .identifier, none⟩
  | .full => do
    if ← isAtKind .identifier then
      let name ← text .identifier
      if ← accept .identifier "as" then return ⟨name, some (← text .identifier)⟩
      else return ⟨name, none⟩
    else
      let name ← reservedName
      expect .identifier "as"
      return ⟨name, some (← text .identifier)⟩

/-- **A round over a list**: an entry and what follows it, and whether that was the end. -/
def round (g : ImportGrammar) : Descent (ImportSpecifier × Bool) := do
  let e ← entry g
  if ← accept .delimiter "," then
    if g = .full then
      if ← accept .delimiter r"}" then return (e, true) else return (e, false)
    else return (e, false)
  else if ← accept .delimiter r"}" then return (e, true)
  else refuse r"',' or '}'"

theorem takes_reservedName : Takes 1 reservedName :=
  takes_isAtKind.ite takes_text <| takes_isAtWordOperator.ite takes_text <|
    takes_isAtKind.ite takes_text takes_refuse

theorem takes_entry (g : ImportGrammar) : Takes 1 (entry g) := by
  cases g with
  | basic => exact takes_text.bind fun _ => takes_pure _
  | full =>
    refine takes_isAtKind.ite ?_ ?_
    · refine takes_text.bind fun name => takes_accept.ite ?_ (takes_pure _)
      exact (takes_text.bind fun _ => takes_pure _).orderly
    · refine takes_reservedName.bind (k := 0) fun name => ?_
      exact (takes_expect.bind fun _ => takes_text.bind fun _ => takes_pure _).orderly

/-- **A round over a list takes a token** at least. -/
theorem takes_round (g : ImportGrammar) : Takes 1 (round g) := by
  refine (takes_entry g).bind (k := 0) fun e => takes_accept.ite ?_ ?_
  · split
    · exact takes_accept.ite (takes_pure _) (takes_pure _)
    · exact takes_pure _
  · exact takes_accept.ite (takes_pure _) takes_refuse

/-- **The rounds over a list** to its end, after the entries that have been found. -/
def entries (g : ImportGrammar) (found : List ImportSpecifier) : Descent (List ImportSpecifier) :=
  fun m =>
    match _hround : round g m with
    | .ok (e, true) m' => .ok (found ++ [e]) m'
    | .ok (e, false) m' => entries g (found ++ [e]) m'
    | .error e m' => .error e m'
termination_by m => m.left
decreasing_by exact left_lt_of_orderly (takes_round g _) _hround

/-- A list. -/
def list (g : ImportGrammar) : Descent (List ImportSpecifier) := do
  expect .delimiter r"{"
  if ← accept .delimiter r"}" then return [] else entries g []

theorem takes_entries (g : ImportGrammar) (found : List ImportSpecifier) :
    Takes 0 (entries g found) := by
  intro m
  induction hn : m.left using Nat.strongRecOn generalizing found m with
  | _ n ih =>
    have horderly := takes_round g m
    rw [entries]
    split
    · next e m' hround => exact (hround ▸ horderly).mono (Nat.zero_le _)
    · next e m' hround =>
      have hlt := left_lt_of_orderly (takes_round g m) hround
      rw [hround] at horderly
      obtain ⟨ts, -, hpast⟩ := horderly
      exact (ih _ (hn ▸ hlt) _ m' rfl).past hpast (Nat.zero_le _)
    · next e m' hround =>
      rw [hround] at horderly
      exact horderly

theorem takes_list (g : ImportGrammar) : Takes 1 (list g) :=
  takes_expect.bind fun _ => takes_accept.ite (takes_pure _) (takes_entries g [])

/-! ## Declarations -/

/-- `* as x` -/
def everything : Descent String := do
  expect .operator "*"
  expect .identifier "as"
  text .identifier

/-- `from "m"` -/
def source : Descent String := do
  expect .identifier "from"
  text .stringLiteral

/-- What follows a default binding and a comma. -/
def group (g : ImportGrammar) : Descent ImportGroup := do
  if ← isAt .delimiter r"{" then return .list (← list g)
  else if ← isAt .operator "*" then return .everything (← everything)
  else refuse r"'{' or '*'"

/-- A group, if there is a comma and the grammar takes one. -/
def group? : ImportGrammar → Descent (Option ImportGroup)
  | .basic => return none
  | .full => do
    if ← accept .delimiter "," then return some (← group .full) else return none

/-- What starts with a default binding. -/
def defaultFirst (g : ImportGrammar) : Descent (List ImportRecord) := do
  let binding ← text .identifier
  let group? ← group? g
  return ImportClause.records ⟨some binding, group?⟩ (← source)

/-- What follows `import` in the full grammar only: a source, or the continuation of an expression,
which is left where it is. -/
def bare : ImportGrammar → Descent (List ImportRecord)
  | .basic => refuse r"identifier, '{' or '*'"
  | .full => do
    if ← isAtKind .stringLiteral then return [.sideEffectImport (← text .stringLiteral)]
    else if ← isAt .delimiter "(" then return []
    else if ← isAt .operator "." then return []
    else refuse r"identifier, '{', '*' or string literal"

/-- What follows `import`. -/
def clause (g : ImportGrammar) : Descent (List ImportRecord) := do
  if ← isAtKind .identifier then defaultFirst g
  else if ← isAt .delimiter r"{" then
    let entries ← list g
    return [.namedImport entries (← source)]
  else if ← isAt .operator "*" then
    let binding ← everything
    return [.namespaceImport binding (← source)]
  else bare g

/-- **A declaration**: its records with the place where it starts. -/
def declaration (g : ImportGrammar) : Descent (List Recognized) := do
  let place := (← get).cursor.span.start
  expect .keyword "import"
  let records ← clause g
  return records.map (⟨place, ·⟩)

/-- **A round over a text**: a declaration, or one other token. -/
def item (g : ImportGrammar) : Descent (List Recognized) := do
  if ← isAt .keyword "import" then declaration g
  else
    let _ ← move
    return []

/-- The place of a declaration is where the cursor stands in front of it. -/
theorem declaration_eq : declaration g m = (do
    expect .keyword "import"
    let records ← clause g
    return records.map (⟨m.cursor.span.start, ·⟩) : Descent (List Recognized)) m := rfl

theorem takes_everything : Takes 3 everything :=
  takes_expect.bind fun _ => takes_expect.bind fun _ => takes_text

theorem takes_source : Takes 2 source := takes_expect.bind fun _ => takes_text

theorem takes_group (g : ImportGrammar) : Takes 1 (group g) := by
  refine takes_isAt.ite ((takes_list g).bind fun _ => takes_pure _) (takes_isAt.ite ?_ takes_refuse)
  exact (takes_everything.bind fun _ => takes_pure _).mono (by decide)

theorem takes_group? (g : ImportGrammar) : Takes 0 (group? g) := by
  cases g with
  | basic => exact takes_pure _
  | full =>
    refine takes_accept.ite ?_ (takes_pure _)
    exact ((takes_group .full).bind fun _ => takes_pure _).orderly

theorem takes_defaultFirst (g : ImportGrammar) : Takes 3 (defaultFirst g) :=
  takes_text.bind fun _ => (takes_group? g).bind fun _ => takes_source.bind fun _ => takes_pure _

theorem takes_bare (g : ImportGrammar) : Takes 0 (bare g) := by
  cases g with
  | basic => exact takes_refuse
  | full =>
    refine takes_isAtKind.ite ?_ (takes_isAt.ite (takes_pure _) ?_)
    · exact (takes_text.bind fun _ => takes_pure _).orderly
    · exact takes_isAt.ite (takes_pure _) takes_refuse

theorem takes_clause (g : ImportGrammar) : Takes 0 (clause g) := by
  refine takes_isAtKind.ite (takes_defaultFirst g).orderly (takes_isAt.ite ?_ ?_)
  · exact ((takes_list g).bind fun _ => takes_source.bind fun _ => takes_pure _).orderly
  · refine takes_isAt.ite ?_ (takes_bare g)
    exact (takes_everything.bind fun _ => takes_source.bind fun _ => takes_pure _).orderly

theorem takes_declaration (g : ImportGrammar) : Takes 1 (declaration g) := by
  intro m
  rw [declaration_eq]
  exact (takes_expect.bind fun _ => (takes_clause g).bind fun _ => takes_pure _) m

/-- **A round over a text takes a token** at least, if there is one. -/
theorem orderly_item (g : ImportGrammar) (h : m.cursor.current.isSome) :
    Orderly 1 m (item g m) := by
  rw [item, ite_of_ok isAt_eq]
  split
  · exact takes_declaration g m
  · exact (orderly_move h).bind fun _ => takes_pure _

/-- **The rounds over a text** to its end or a failure, after the records that have been found. -/
def items (g : ImportGrammar) (found : List Recognized) (m : Metered) : Recognition × Metered :=
  if _hm : m.cursor.current.isSome then
    match _hitem : item g m with
    | .ok rs m' => items g (found ++ rs) m'
    | .error e m' => (⟨found, some e⟩, m')
  else (⟨found, none⟩, m)
termination_by m.left
decreasing_by exact left_lt_of_orderly (orderly_item g _hm) _hitem

/-- **Reading a text by descent**: what is recognized, and where the cursor stops. -/
def read (options : ImportOptions) (source : SourceText) : Recognition × Metered :=
  match move (.start source options.scanOptions) with
  | .ok _ m => items options.grammar [] m
  | .error e m => (⟨[], some e⟩, m)

end Descent

end ModuleImports
