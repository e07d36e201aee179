import ModuleImports.Proofs.Import.Descent

/-!
# Proofs/Import/DescentReader — the descent reads what the one-pass reader reads

The reader in one pass (`Reader`) keeps in a state what the descent keeps in the functions it is in.
So a part of the descent goes from one state of the reader to another: `Descent.Simulates` says that
from the cursor where the part starts the reader comes to what it comes to from the cursor where the
part ends, or to the failure of the part.

A part that looks for a token that may come and finds another leaves the reader in a state that
takes more than the part behind it.  It need only take the same with that token
(`Follows.of_agree`).
-/

namespace ModuleImports

open Stage ReadingState

namespace Reader

variable {g : ImportGrammar} {c : Cursor} {place : Nat} {found rs : List Recognized}

theorem run_eq_of_step_eq {r r' : Reader} (h : r.step g = r'.step g) : r.run g = r'.run g := by
  rcases hstep : r.step g with further | outcome
  · rw [run_of_goOn hstep, run_of_goOn (h.symm.trans hstep)]
  · rw [run_of_over hstep, run_of_over (h.symm.trans hstep)]

/-- Stages that take the current token alike come to the same. -/
theorem run_within_congr {s s' : Stage}
    (hnext : ∀ t, c.current = some t → s.next g t = s'.next g t)
    (hexpected : s.expected g = s'.expected g) :
    run g ⟨c, .within place s, found⟩ = run g ⟨c, .within place s', found⟩ := by
  refine run_eq_of_step_eq ?_
  unfold step
  cases ht : c.current with
  | none => simp [ReadingState.finish, hexpected]
  | some t => simp [ReadingState.next, ReadingState.refusal, ReadingState.expected,
      ReadingState.ended, hnext t ht, hexpected]

/-- The records of a declaration count as soon as it is over. -/
theorem run_between :
    run g ⟨c, .between rs, found⟩ = run g ⟨c, .between [], rs.reverse ++ found⟩ := by
  refine run_eq_of_step_eq ?_
  unfold step
  cases ht : c.current with
  | none => simp [ReadingState.finish, Recognition.prepend]
  | some t =>
    simp only [ReadingState.next, ReadingState.ended, List.reverseAux_eq]
    cases t.is .keyword "import" <;> simp

end Reader

/-- The state that a move leads to, in the declaration that starts at a place. -/
def Move.state? (place : Nat) : Move → Option ReadingState
  | proceed s => some (within place s)
  | complete records => some (.between (records.map (⟨place, ·⟩)))
  | expression => some (.between [])
  | refuse => none

namespace Descent

variable {α β : Type} {g : ImportGrammar} {m m' : Metered} {t : Token} {place : Nat}
  {S S' : ReadingState} {T : α → ReadingState} {U : β → ReadingState} {s s' : Stage} {f : Move}
  {p p' : Descent α} {q : α → Descent β} {c : Descent Bool} {b : Bool} {kind : TokenKind}
  {word expected content : String}

theorem next_within : (within place s).next g t = (s.next g t).state? place := by
  rw [ReadingState.next]
  cases s.next g t <;> rfl

/-- **The reader follows** from a cursor and a state to where a part ends and the state for what the
part gives, or it fails as the part does. -/
def Follows (g : ImportGrammar) (S : ReadingState) (T : α → ReadingState) (m : Metered) :
    EStateM.Result ImportError Metered α → Prop
  | .ok a m' => ∀ found,
      Reader.run g ⟨m.cursor, S, found⟩ = Reader.run g ⟨m'.cursor, T a, found⟩
  | .error e _ => ∀ found, Reader.run g ⟨m.cursor, S, found⟩ = ⟨found.reverse, some e⟩

/-- **A part simulates** the reader between two states, wherever it starts. -/
def Simulates (g : ImportGrammar) (S : ReadingState) (p : Descent α) (T : α → ReadingState) :
    Prop :=
  ∀ m, Follows g S T m (p m)

theorem simulates_pure {a : α} (h : S = T a) : Simulates g S (pure a) T := fun _ _ => h ▸ rfl

/-- From where the reader comes to the same. -/
theorem Follows.trans {result : EStateM.Result ImportError Metered α}
    (h : ∀ found, Reader.run g ⟨m.cursor, S, found⟩ = Reader.run g ⟨m'.cursor, S', found⟩)
    (h' : Follows g S' T m' result) : Follows g S T m result := by
  cases result with
  | ok a m'' => exact fun found => (h found).trans (h' found)
  | error e m'' => exact fun found => (h found).trans (h' found)

/-- One part and then another. -/
theorem Follows.bind (hp : Follows g S T m (p m)) (hq : ∀ a, Simulates g (T a) (q a) U) :
    Follows g S U m ((p >>= q) m) := by
  cases hresult : p m with
  | error e m' =>
    rw [hresult] at hp
    rw [bind_of_error hresult]
    exact hp
  | ok a m' =>
    rw [hresult] at hp
    rw [bind_of_ok hresult]
    exact .trans hp (hq a m')

theorem Simulates.bind (hp : Simulates g S p T) (hq : ∀ a, Simulates g (T a) (q a) U) :
    Simulates g S (p >>= q) U := fun m => (hp m).bind hq

/-- A question, and one part or another by its answer. -/
theorem Follows.ite (hc : c m = .ok b m) (hyes : b = true → Follows g S T m (p m))
    (hno : b = false → Follows g S T m (p' m)) :
    Follows g S T m ((do if ← c then p else p' : Descent α) m) := by
  rw [ite_of_ok hc]
  cases b
  · exact hno rfl
  · exact hyes rfl

/-- A stage may be exchanged for one that takes the current token alike. -/
theorem Follows.of_agree {result : EStateM.Result ImportError Metered α}
    (h : Follows g (within place s') T m result)
    (hnext : ∀ t, m.cursor.current = some t → s.next g t = s'.next g t)
    (hexpected : s.expected g = s'.expected g) : Follows g (within place s) T m result :=
  .trans (fun _ => Reader.run_within_congr hnext hexpected) h

/-! ## Single tokens -/

/-- **A move** past a token that can come. -/
theorem follows_move (ht : m.cursor.current = some t) (hnext : S.next g t = some S')
    (hended : S.ended = []) : Follows g S (fun _ => S') m (move m) := by
  rcases hscanner : m.cursor.scanner.next.1 with e | next
  · rw [move_of_error hscanner]
    intro found
    rw [Reader.run_of_over]
    simp only [Reader.step, ht, hnext, Cursor.advance_of_error hscanner, hended]
    rfl
  · rw [move_of_ok hscanner]
    intro found
    rw [Reader.run_of_goOn]
    simp only [Reader.step, ht, hnext, Cursor.advance_of_ok hscanner, hended, Metered.advanced]
    rfl

/-- **A refusal** of a token that cannot come, or of the end of the text. -/
theorem follows_refuse (hnext : ∀ t, m.cursor.current = some t → s.next g t = .refuse)
    (hexpected : s.expected g = expected) :
    Follows g (within place s) T m (refuse expected m) := by
  intro found
  refine Reader.run_of_over ?_
  unfold Reader.step
  cases ht : m.cursor.current with
  | none =>
    simp [ReadingState.finish, Recognition.prepend, hexpected, Cursor.span, ht, Cursor.source]
  | some t =>
    simp [ReadingState.next, hnext t ht, ReadingState.refusal, ReadingState.expected,
      Recognition.prepend, hexpected, Cursor.span, ht]

/-- A token that may come, and what is done with the answer. -/
theorem bind_accept {q : Bool → Descent β} : (accept kind word >>= q) m =
    if m.cursor.isAt kind word then (move >>= fun _ => q true) m else q false m := by
  have haccept : accept kind word m =
      if m.cursor.isAt kind word then (move >>= fun _ => pure true) m else .ok false m :=
    ite_of_ok isAt_eq
  cases hat : m.cursor.isAt kind word with
  | false =>
    rw [hat] at haccept
    exact bind_of_ok haccept
  | true =>
    rw [hat, if_pos rfl] at haccept
    rw [if_pos rfl]
    cases hmove : move m with
    | ok t m' =>
      rw [bind_of_ok hmove] at haccept ⊢
      exact bind_of_ok haccept
    | error e m' =>
      rw [bind_of_error hmove] at haccept ⊢
      exact bind_of_error haccept

/-- A token that may come, and one part or another after it. -/
theorem Follows.accept
    (hyes : m.cursor.isAt kind word = true → Follows g S T m ((move >>= fun _ => p) m))
    (hno : m.cursor.isAt kind word = false → Follows g S T m (p' m)) :
    Follows g S T m ((do if ← accept kind word then p else p' : Descent α) m) := by
  rw [bind_accept]
  split
  · next hat => exact hyes hat
  · next hat => exact hno (by simpa using hat)

theorem is_of_isAt (hat : m.cursor.isAt kind word = b) (ht : m.cursor.current = some t) :
    t.is kind word = b := by
  rwa [Cursor.isAt, ht, Option.any_some] at hat

theorem kind_ne_of_isAtKind (hat : m.cursor.isAtKind kind = false)
    (ht : m.cursor.current = some t) : t.kind ≠ kind := by
  rw [Cursor.isAtKind, ht, Option.any_some] at hat
  exact beq_eq_false_iff_ne.1 hat

/-- **A token that is there**, in a stage where it can come. -/
theorem follows_move_of_isAt (hat : m.cursor.isAt kind word = true)
    (hnext : ∀ t, m.cursor.current = some t → t.is kind word = true → s.next g t = .proceed s') :
    Follows g (within place s) (fun _ => within place s') m (move m) := by
  obtain ⟨t, ht⟩ := Option.isSome_iff_exists.1 (Metered.isSome_of_isAt hat)
  refine follows_move ht ?_ rfl
  rw [next_within, hnext t ht (is_of_isAt hat ht), Move.state?]

theorem follows_expect (hat : m.cursor.isAt kind word = true)
    (hnext : ∀ t, m.cursor.current = some t → t.is kind word = true → s.next g t = .proceed s') :
    Follows g (within place s) (fun _ => within place s') m (expect kind word m) := by
  rw [expect, ite_of_ok isAt_eq, if_pos hat]
  exact (follows_move_of_isAt hat hnext).bind fun _ => simulates_pure rfl

/-- **A token that has to come**, in a stage where it alone can. -/
theorem simulates_expect (hnext : ∀ t, s.next g t = if t.is kind word then .proceed s' else .refuse)
    (hexpected : s.expected g = kind.quoting word) :
    Simulates g (within place s) (expect kind word) fun _ => within place s' := by
  intro m
  cases hat : m.cursor.isAt kind word with
  | true => exact follows_expect hat fun t _ ht => (hnext t).trans (if_pos ht)
  | false =>
    rw [expect, ite_of_ok isAt_eq, hat]
    refine follows_refuse (fun t ht => ?_) hexpected
    rw [hnext, is_of_isAt hat ht, if_neg Bool.false_ne_true]

/-- **The text of a token** that is there, in a stage where it can come. -/
theorem follows_text (f : String → Move) {T : String → ReadingState}
    (hkind : kind ≠ .numericLiteral) (hat : m.cursor.isAtKind kind = true)
    (hnext : ∀ t content, m.cursor.current = some t → t.kind = kind → t.text? = some content →
      s.next g t = f content)
    (hf : ∀ content, (f content).state? place = some (T content)) :
    Follows g (within place s) T m (text kind m) := by
  obtain ⟨t, ht, htkind⟩ := (Option.any_eq_true _ _).1 hat
  rw [beq_iff_eq] at htkind
  obtain ⟨content, hcontent⟩ := (m.spells t ht).faithfulTo.exists_text (htkind ▸ hkind)
  have hmove : Follows g (within place s) (fun _ => T content) m (move m) := by
    refine follows_move ht ?_ rfl
    rw [next_within, hnext t content ht htkind hcontent, hf]
  rw [text, ite_of_ok isAtKind_eq, if_pos hat]
  cases hresult : move m with
  | ok moved m' =>
    obtain ⟨-, hmoved, -⟩ := move_eq_ok_iff.1 hresult
    rw [hresult] at hmove
    rw [bind_of_ok hresult, hmoved, ht, Option.bind_some, hcontent]
    exact hmove
  | error e m' =>
    rw [hresult] at hmove
    rw [bind_of_error hresult]
    exact hmove

/-- **The text of a token that has to come**, in a stage where only tokens of its kind can. -/
theorem simulates_text (f : String → Move) {T : String → ReadingState}
    (hkind : kind ≠ .numericLiteral)
    (hnext : ∀ t, s.next g t = match t.ofKind? kind with
      | some content => f content
      | none => .refuse)
    (hf : ∀ content, (f content).state? place = some (T content))
    (hexpected : s.expected g = kind.name) : Simulates g (within place s) (text kind) T := by
  intro m
  cases hat : m.cursor.isAtKind kind with
  | true =>
    refine follows_text f hkind hat (fun t content _ htkind htext => ?_) hf
    rw [hnext, Token.ofKind?, if_pos htkind, htext]
  | false =>
    rw [text, ite_of_ok isAtKind_eq, hat]
    refine follows_refuse (fun t ht => ?_) hexpected
    rw [hnext, Token.ofKind?, if_neg (kind_ne_of_isAtKind hat ht)]

/-! ## Lists -/

/-- The name of an entry that needs an alias is asked for by three questions. -/
theorem reservedName?_eq (t : Token) : t.reservedName? =
    if t.kind = .keyword ∨ (t.kind == .operator && t.text?.any Vocabulary.isWordOperator) = true ∨
      t.kind = .stringLiteral then t.text? else none := by
  rw [Token.reservedName?]
  cases t.kind <;> cases t.text? <;> simp [Option.filter]

section

variable (b? : Option String) (es : List ImportSpecifier)

/-- **The name of an entry that needs an alias.** -/
theorem follows_reservedName (hat : m.cursor.isAtKind .identifier = false) :
    Follows .full (within place (.entry b? es false))
      (fun name => within place (.afterName b? es name false)) m (reservedName m) := by
  let f (name : String) : Move := .proceed (.afterName b? es name false)
  have hnext {t : Token} (ht : m.cursor.current = some t) :
      (Stage.entry b? es false).next .full t = t.reservedName?.elim .refuse f := by
    simp only [Stage.next, entryNext, Token.ofKind?, kind_ne_of_isAtKind hat ht]
    cases t.reservedName? <;> simp [f]
  refine Follows.ite isAtKind_eq (fun hkeyword => ?_) fun hkeyword => ?_
  · refine follows_text f nofun hkeyword (fun t name ht hkind htext => ?_) fun _ => rfl
    rw [hnext ht, reservedName?_eq, if_pos (.inl hkind), htext, Option.elim_some]
  refine Follows.ite rfl (fun hword => ?_) fun hword => ?_
  · obtain ⟨u, hu, hword⟩ := (Option.any_eq_true _ _).1 hword
    have hoperator : m.cursor.isAtKind .operator = true := by
      rw [Cursor.isAtKind, hu, Option.any_some, (Bool.and_eq_true_iff.1 hword).1]
    refine follows_text f nofun hoperator (fun t name ht _ htext => ?_) fun _ => rfl
    obtain rfl := Option.some.inj (ht.symm.trans hu)
    rw [hnext ht, reservedName?_eq, if_pos (.inr (.inl hword)), htext, Option.elim_some]
  refine Follows.ite isAtKind_eq (fun hstring => ?_) fun hstring => ?_
  · refine follows_text f nofun hstring (fun t name ht hkind htext => ?_) fun _ => rfl
    rw [hnext ht, reservedName?_eq, if_pos (.inr (.inr hkind)), htext, Option.elim_some]
  · refine follows_refuse (fun t ht => ?_) rfl
    rw [ht, Option.any_some, Bool.eq_false_iff] at hword
    rw [hnext ht, reservedName?_eq, if_neg, Option.elim_none]
    exact not_or.2 ⟨kind_ne_of_isAtKind hkeyword ht,
      not_or.2 ⟨hword, kind_ne_of_isAtKind hstring ht⟩⟩

/-- What an alias gives an entry with a name. -/
theorem simulates_alias (name : String) : Simulates g (within place (.afterAs b? es name))
    (do return ⟨name, some (← text .identifier)⟩)
    fun e => within place (.afterEntry b? (e :: es)) := by
  have htext : Simulates g (within place (.afterAs b? es name)) (text .identifier)
      fun localName => within place (.afterEntry b? (⟨name, some localName⟩ :: es)) :=
    simulates_text (fun localName => .proceed (.afterEntry b? (⟨name, some localName⟩ :: es)))
      nofun (fun _ => rfl) (fun _ => rfl) rfl
  exact htext.bind fun _ => simulates_pure rfl

/-- A name without an alias is an entry.  The reader would still take `as`, which is not there. -/
theorem follows_name (name : String) (hat : g = .full → m.cursor.isAt .identifier "as" = false) :
    Follows g (within place (.afterName b? es name true))
      (fun e => within place (.afterEntry b? (e :: es))) m
      ((pure ⟨name, none⟩ : Descent ImportSpecifier) m) := by
  have hpure : Simulates g (within place (.afterEntry b? (⟨name, none⟩ :: es)))
      (pure ⟨name, none⟩) fun e => within place (.afterEntry b? (e :: es)) := simulates_pure rfl
  refine (hpure m).of_agree (fun t ht => ?_) rfl
  have has : ¬(g = .full ∧ t.is .identifier "as" = true) := fun h =>
    Bool.false_ne_true ((is_of_isAt (hat h.1) ht).symm.trans h.2)
  simp only [Stage.next, has, if_false, if_true]

/-- **An entry.** -/
theorem simulates_entry (g : ImportGrammar) : Simulates g (within place (.entry b? es false))
    (entry g) fun e => within place (.afterEntry b? (e :: es)) := by
  let f (name : String) : Move := .proceed (.afterName b? es name true)
  cases g with
  | basic =>
    have htext : Simulates .basic (within place (.entry b? es false)) (text .identifier)
        fun name => within place (.afterName b? es name true) := by
      refine simulates_text f nofun (fun t => ?_) (fun _ => rfl) rfl
      simp only [Stage.next, entryNext]
      cases t.ofKind? .identifier <;> simp [f]
    have hbasic : ImportGrammar.basic ≠ .full := by decide
    exact htext.bind fun name m => follows_name b? es name fun hfull => absurd hfull hbasic
  | full =>
    intro m
    refine Follows.ite isAtKind_eq (fun hat => ?_) fun hat => ?_
    · have htext : Follows .full (within place (.entry b? es false))
          (fun name => within place (.afterName b? es name true)) m (text .identifier m) := by
        refine follows_text f nofun hat (fun t name _ hkind hname => ?_) fun _ => rfl
        simp [Stage.next, entryNext, Token.ofKind?, hkind, hname, f]
      refine htext.bind fun name m => Follows.accept (fun has => ?_) fun has => ?_
      · have hmove : Follows .full (within place (.afterName b? es name true))
            (fun _ => within place (.afterAs b? es name)) m (move m) := by
          refine follows_move_of_isAt has fun t _ ht => ?_
          simp only [Stage.next, ht, and_self, if_true]
        exact hmove.bind fun _ => simulates_alias b? es name
      · exact follows_name b? es name fun _ => has
    · refine (follows_reservedName b? es hat).bind fun name => ?_
      have hexpect : Simulates .full (within place (.afterName b? es name false))
          (expect .identifier "as") fun _ => within place (.afterAs b? es name) := by
        refine simulates_expect (fun t => ?_) rfl
        simp [Stage.next]
      exact hexpect.bind fun _ => simulates_alias b? es name

/-- Where a list could end but does not, an entry has to start. -/
theorem follows_of_closable {T : α → ReadingState} {result : EStateM.Result ImportError Metered α}
    (hclose : m.cursor.isAt .delimiter r"}" = false)
    (h : Follows g (within place (.entry b? es false)) T m result) :
    Follows g (within place (.entry b? es true)) T m result := by
  refine h.of_agree (fun t ht => ?_) rfl
  simp only [Stage.next, is_of_isAt hclose ht, Bool.false_eq_true, and_false, if_false]

/-- A list ends where it could. -/
theorem follows_close (hclose : m.cursor.isAt .delimiter r"}" = true) :
    Follows g (within place (.entry b? es true))
      (fun _ => within place (.afterClause ⟨b?, some (.list es.reverse)⟩)) m (move m) := by
  refine follows_move_of_isAt hclose fun t _ ht => ?_
  simp only [Stage.next, ht, and_self, if_true]

/-- **A round over a list** comes to the end of the list, or to the start of another entry. -/
theorem simulates_round (g : ImportGrammar) : Simulates g (within place (.entry b? es false))
    (round g) fun r => within place
      (if r.2 then .afterClause ⟨b?, some (.list (r.1 :: es).reverse)⟩
        else .entry b? (r.1 :: es) false) := by
  refine (simulates_entry b? es g).bind fun e m => ?_
  refine Follows.accept (fun hcomma => ?_) fun hcomma => ?_
  · have hmove : Follows g (within place (.afterEntry b? (e :: es)))
        (fun _ => within place (.entry b? (e :: es) (g = .full))) m (move m) := by
      refine follows_move_of_isAt hcomma fun t _ ht => ?_
      simp only [Stage.next, afterEntryNext, ht, if_true]
    refine hmove.bind fun _ m => ?_
    -- Behind a comma the stage lets the list end in the full grammar only, and so does the round.
    cases g with
    | basic => exact simulates_pure rfl m
    | full =>
      refine Follows.accept (fun hclose => ?_) fun hclose => ?_
      · exact (follows_close b? (e :: es) hclose).bind fun _ => simulates_pure rfl
      · exact follows_of_closable b? (e :: es) hclose (simulates_pure rfl m)
  · refine Follows.accept (fun hclose => ?_) fun hclose => ?_
    · have hmove : Follows g (within place (.afterEntry b? (e :: es)))
          (fun _ => within place (.afterClause ⟨b?, some (.list (e :: es).reverse)⟩)) m
          (move m) := by
        refine follows_move_of_isAt hclose fun t ht hat => ?_
        simp [Stage.next, afterEntryNext, hat, is_of_isAt hcomma ht]
      exact hmove.bind fun _ => simulates_pure rfl
    · refine follows_refuse (fun t ht => ?_) rfl
      simp [Stage.next, afterEntryNext, is_of_isAt hcomma ht, is_of_isAt hclose ht]

end

/-- **A list to its end**, after the entries that have been found. -/
theorem simulates_entries (g : ImportGrammar) (b? : Option String) (found : List ImportSpecifier) :
    Simulates g (within place (.entry b? found.reverse false)) (entries g found)
      fun es => within place (.afterClause ⟨b?, some (.list es)⟩) := by
  intro m
  induction hn : m.left using Nat.strongRecOn generalizing found m with
  | _ n ih =>
    have hround := @simulates_round place b? found.reverse g m
    rw [entries]
    split
    · next e m' hresult =>
      rw [hresult] at hround
      intro rs
      rw [hround rs]
      simp
    · next e m' hresult =>
      have hlt := left_lt_of_orderly (takes_round g m) hresult
      rw [hresult] at hround
      have hrest := ih _ (hn ▸ hlt) (found ++ [e]) m' rfl
      rw [List.reverse_append] at hrest
      exact .trans hround hrest
    · next e m' hresult =>
      rw [hresult] at hround
      exact hround

/-- **A list**, in a stage where it can come. -/
theorem follows_list (b? : Option String) (hat : m.cursor.isAt .delimiter r"{" = true)
    (hnext : ∀ t, m.cursor.current = some t → t.is .delimiter r"{" = true →
      s.next g t = .proceed (.entry b? [] true)) :
    Follows g (within place s) (fun es => within place (.afterClause ⟨b?, some (.list es)⟩)) m
      (list g m) := by
  refine (follows_expect hat hnext).bind fun _ m => ?_
  refine Follows.accept (fun hclose => ?_) fun hclose => ?_
  · exact (follows_close b? [] hclose).bind fun _ => simulates_pure rfl
  · exact follows_of_closable b? [] hclose (simulates_entries g b? [] m)

/-! ## Declarations -/

/-- **Everything under one name**, in a stage where it can come. -/
theorem follows_everything (b? : Option String) (hat : m.cursor.isAt .operator "*" = true)
    (hnext : ∀ t, m.cursor.current = some t → t.is .operator "*" = true →
      s.next g t = .proceed (.afterStar b?)) :
    Follows g (within place s)
      (fun name => within place (.afterClause ⟨b?, some (.everything name)⟩)) m (everything m) := by
  have has : Simulates g (within place (.afterStar b?)) (expect .identifier "as")
      fun _ => within place (.afterStarAs b?) := simulates_expect (fun _ => rfl) rfl
  have hname : Simulates g (within place (.afterStarAs b?)) (text .identifier)
      fun name => within place (.afterClause ⟨b?, some (.everything name)⟩) :=
    simulates_text (fun name => .proceed (.afterClause ⟨b?, some (.everything name)⟩))
      nofun (fun _ => rfl) (fun _ => rfl) rfl
  exact (follows_expect hat hnext).bind fun _ => has.bind fun _ => hname

/-- **The source** after a clause. -/
theorem simulates_source (g : ImportGrammar) (place : Nat) (c : ImportClause) :
    Simulates g (within place (.afterClause c)) source
      fun name => between ((c.records name).map (⟨place, ·⟩)) := by
  have hfrom : Simulates g (within place (.afterClause c)) (expect .identifier "from")
      fun _ => within place (.source c) := simulates_expect (fun _ => rfl) rfl
  have hname : Simulates g (within place (.source c)) (text .stringLiteral)
      fun name => between ((c.records name).map (⟨place, ·⟩)) :=
    simulates_text (fun name => .complete (c.records name)) nofun (fun _ => rfl)
      (fun _ => rfl) rfl
  exact hfrom.bind fun _ => hname

/-- **A group** after a default binding and a comma. -/
theorem simulates_group (g : ImportGrammar) (binding : String) :
    Simulates g (within place (.group binding)) (group g)
      fun x => within place (.afterClause ⟨some binding, some x⟩) := by
  intro m
  refine Follows.ite isAt_eq (fun hlist => ?_) fun hlist => ?_
  · refine (follows_list (some binding) hlist fun t _ hat => ?_).bind fun _ => simulates_pure rfl
    simp only [Stage.next, hat, if_true]
  refine Follows.ite isAt_eq (fun hstar => ?_) fun hstar => ?_
  · refine (follows_everything (some binding) hstar fun t ht hat => ?_).bind fun _ =>
      simulates_pure rfl
    simp [Stage.next, hat, is_of_isAt hlist ht]
  · refine follows_refuse (fun t ht => ?_) rfl
    simp [Stage.next, is_of_isAt hlist ht, is_of_isAt hstar ht]

/-- **A group, or none**, after a default binding. -/
theorem simulates_group? (g : ImportGrammar) (binding : String) :
    Simulates g (within place (.afterBinding binding)) (group? g)
      fun x => within place (.afterClause ⟨some binding, x⟩) := by
  have hnone (m : Metered) (hat : g = .full → m.cursor.isAt .delimiter "," = false) :
      Follows g (within place (.afterBinding binding))
        (fun x => within place (.afterClause ⟨some binding, x⟩)) m
        ((pure none : Descent (Option ImportGroup)) m) := by
    have hpure : Simulates g (within place (.afterClause ⟨some binding, none⟩)) (pure none)
      fun x => within place (.afterClause ⟨some binding, x⟩) := simulates_pure rfl
    refine (hpure m).of_agree (fun t ht => ?_) rfl
    have hcomma : ¬(g = .full ∧ t.is .delimiter "," = true) := fun h =>
      Bool.false_ne_true ((is_of_isAt (hat h.1) ht).symm.trans h.2)
    simp only [Stage.next, hcomma, if_false]
  intro m
  cases g with
  | basic => exact hnone m nofun
  | full =>
    refine Follows.accept (fun hcomma => ?_) fun hcomma => hnone m fun _ => hcomma
    have hmove : Follows .full (within place (.afterBinding binding))
        (fun _ => within place (.group binding)) m (move m) := by
      refine follows_move_of_isAt hcomma fun t _ ht => ?_
      simp only [Stage.next, ht, and_self, if_true]
    exact hmove.bind fun _ => (simulates_group .full binding).bind fun _ => simulates_pure rfl

section

variable (g : ImportGrammar) (place : Nat)

/-- **What starts with a default binding.** -/
theorem follows_defaultFirst (hat : m.cursor.isAtKind .identifier = true) :
    Follows g (within place .clause) (fun records => between (records.map (⟨place, ·⟩))) m
      (defaultFirst g m) := by
  have htext : Follows g (within place .clause) (fun name => within place (.afterBinding name)) m
      (text .identifier m) := by
    refine follows_text (fun name => .proceed (.afterBinding name)) nofun hat
      (fun t name _ hkind hname => ?_) fun _ => rfl
    simp [Stage.next, clauseNext, Token.ofKind?, hkind, hname]
  exact htext.bind fun _ => (simulates_group? g _).bind fun _ =>
    (simulates_source g place _).bind fun _ => simulates_pure rfl

/-- **The continuation of an expression** is left where it is.  Between declarations the reader
takes it like any other token. -/
theorem follows_continuation (hat : m.cursor.isAt kind word = true) (hkind : kind ≠ .keyword)
    (hnext : ∀ t, m.cursor.current = some t → t.is kind word = true →
      Stage.clause.next .full t = .expression) :
    Follows .full (within place .clause) (fun records => between (records.map (⟨place, ·⟩))) m
      ((pure [] : Descent (List ImportRecord)) m) := by
  obtain ⟨t, ht, htkind, -⟩ := Cursor.isAt_iff.1 hat
  have himport : t.is .keyword "import" = false := by
    rw [Token.is, htkind, beq_false_of_ne hkind, Bool.false_and]
  -- The cursor has not moved, so the two states have to make the same of one token.
  intro found
  refine Reader.run_eq_of_step_eq ?_
  simp only [Reader.step, ht, ReadingState.next, hnext t ht (is_of_isAt hat ht), himport,
    Bool.false_eq_true, if_false]
  rfl

/-- **What follows `import` in the full grammar only.** -/
theorem follows_bare (hname : m.cursor.isAtKind .identifier = false)
    (hlist : m.cursor.isAt .delimiter r"{" = false)
    (hstar : m.cursor.isAt .operator "*" = false) :
    Follows g (within place .clause) (fun records => between (records.map (⟨place, ·⟩))) m
      (bare g m) := by
  have hnext {t : Token} (ht : m.cursor.current = some t) : Stage.clause.next g t =
      if g = .full then
        (t.ofKind? .stringLiteral).elim
          (if t.is .delimiter "(" ∨ t.is .operator "." then .expression else .refuse)
          fun name => .complete [.sideEffectImport name]
      else .refuse := by
    have hnone : t.ofKind? .identifier = none := if_neg (kind_ne_of_isAtKind hname ht)
    simp only [Stage.next, clauseNext, hnone, is_of_isAt hlist ht, is_of_isAt hstar ht,
      Bool.false_eq_true, if_false]
    cases t.ofKind? .stringLiteral <;> rfl
  cases g with
  | basic => exact follows_refuse (fun t ht => hnext ht) rfl
  | full =>
    refine Follows.ite isAtKind_eq (fun hstring => ?_) fun hstring => ?_
    · have htext : Follows .full (within place .clause)
          (fun name => between ([.sideEffectImport name].map (⟨place, ·⟩))) m
          (text .stringLiteral m) := by
        refine follows_text (fun name => .complete [.sideEffectImport name]) nofun hstring
          (fun t name ht hkind hname => ?_) fun _ => rfl
        rw [hnext ht, if_pos rfl, Token.ofKind?, if_pos hkind, hname, Option.elim_some]
      exact htext.bind fun _ => simulates_pure rfl
    have hopen {t : Token} (ht : m.cursor.current = some t) : Stage.clause.next .full t =
        if t.is .delimiter "(" ∨ t.is .operator "." then .expression else .refuse := by
      rw [hnext ht, if_pos rfl, Token.ofKind?, if_neg (kind_ne_of_isAtKind hstring ht),
        Option.elim_none]
    refine Follows.ite isAt_eq (fun hcall => ?_) fun hcall => ?_
    · exact follows_continuation place hcall nofun fun t ht hat => by
        rw [hopen ht, if_pos (.inl hat)]
    refine Follows.ite isAt_eq (fun hdot => ?_) fun hdot => ?_
    · exact follows_continuation place hdot nofun fun t ht hat => by
        rw [hopen ht, if_pos (.inr hat)]
    · refine follows_refuse (fun t ht => ?_) rfl
      rw [hopen ht, is_of_isAt hcall ht, is_of_isAt hdot ht, if_neg (by simp)]

/-- **What follows `import`.** -/
theorem simulates_clause : Simulates g (within place .clause) (clause g)
    fun records => between (records.map (⟨place, ·⟩)) := by
  intro m
  refine Follows.ite isAtKind_eq (fun hname => follows_defaultFirst g place hname) fun hname => ?_
  refine Follows.ite isAt_eq (fun hlist => ?_) fun hlist => ?_
  · refine (follows_list none hlist fun t ht hat => ?_).bind fun _ =>
      (simulates_source g place _).bind fun _ => simulates_pure rfl
    simp [Stage.next, clauseNext, Token.ofKind?, kind_ne_of_isAtKind hname ht, hat]
  refine Follows.ite isAt_eq (fun hstar => ?_) fun hstar => follows_bare g place hname hlist hstar
  · refine (follows_everything none hstar fun t ht hat => ?_).bind fun _ =>
      (simulates_source g place _).bind fun _ => simulates_pure rfl
    simp [Stage.next, clauseNext, Token.ofKind?, kind_ne_of_isAtKind hname ht, hat,
      is_of_isAt hlist ht]

end

/-- **A declaration**, where it starts. -/
theorem follows_declaration (hat : m.cursor.isAt .keyword "import" = true) :
    Follows g (between []) between m (declaration g m) := by
  obtain ⟨t, ht⟩ := Option.isSome_iff_exists.1 (Metered.isSome_of_isAt hat)
  have hmove : Follows g (between []) (fun _ => within t.span.start .clause) m (move m) := by
    refine follows_move ht ?_ rfl
    rw [ReadingState.next, is_of_isAt hat ht, if_pos rfl]
  have hexpect : Follows g (between []) (fun _ => within t.span.start .clause) m
      (expect .keyword "import" m) := by
    rw [expect, ite_of_ok isAt_eq, if_pos hat]
    exact hmove.bind fun _ => simulates_pure rfl
  have hplace : m.cursor.span.start = t.span.start := by rw [Cursor.span, ht]
  rw [declaration_eq, hplace]
  exact hexpect.bind fun _ => (simulates_clause g t.span.start).bind fun _ => simulates_pure rfl

/-! ## Texts -/

/-- **A round over a text**, if it has not ended. -/
theorem follows_item (h : m.cursor.current.isSome) :
    Follows g (between []) between m (item g m) := by
  refine Follows.ite isAt_eq (fun hat => follows_declaration hat) fun hat => ?_
  obtain ⟨t, ht⟩ := Option.isSome_iff_exists.1 h
  have hmove : Follows g (between []) (fun _ => between []) m (move m) := by
    refine follows_move ht ?_ rfl
    rw [ReadingState.next, is_of_isAt hat ht, if_neg Bool.false_ne_true]
  exact hmove.bind fun _ => simulates_pure rfl

/-- **The rounds over a text** come to what the reader comes to. -/
theorem items_eq (g : ImportGrammar) (found : List Recognized) (m : Metered) :
    (items g found m).1 = Reader.run g ⟨m.cursor, between [], found.reverse⟩ := by
  induction hn : m.left using Nat.strongRecOn generalizing found m with
  | _ n ih =>
    rw [items]
    split
    · next hm =>
      have hitem := follows_item (g := g) hm
      split
      · next rs m' hresult =>
        -- The reader holds the records of this round back until its next step.
        have hlt := left_lt_of_orderly (orderly_item g hm) hresult
        rw [hresult] at hitem
        have hrest := ih _ (hn ▸ hlt) (found ++ rs) m' rfl
        rw [List.reverse_append, ← Reader.run_between] at hrest
        rw [hrest, hitem]
      · next e m' hresult =>
        rw [hresult] at hitem
        rw [hitem, List.reverse_reverse]
    · next hm =>
      rw [Reader.run_of_current_none (by simpa using hm)]
      simp [ReadingState.finish, Recognition.prepend]

/-- **The descent reads what the one-pass reader reads.** -/
theorem read_eq (options : ImportOptions) (source : SourceText) :
    (read options source).1 = Recognition.of options source := by
  rw [read, Recognition.of]
  rcases hnext : (Cursor.start (.start source options.scanOptions)).scanner.next.1 with e | next
  · rw [move_of_error (m := .start source options.scanOptions) hnext, Cursor.advance_of_error hnext]
  · rw [move_of_ok (m := .start source options.scanOptions) hnext, Cursor.advance_of_ok hnext]
    simp only [items_eq, Metered.advanced, Metered.start, Cursor.advance_of_ok hnext,
      List.reverse_nil]

end Descent

end ModuleImports
