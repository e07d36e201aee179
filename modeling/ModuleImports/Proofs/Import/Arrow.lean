import ModuleImports.Import.Recognition

/-!
# Proofs/Import/Arrow — the diagram of an import declaration

`Stage.next` decides by cases of a token.  The same decision is drawn here as a diagram: `Arrow` has
one arrow for each way a declaration goes on, and a token that labels no arrow is refused
(`Stage.next_eq_iff`).  The labels are **terminals**, what is left of a token without its place.

Stages from which the same arrows leave are taken together: those where a group may start, where an
entry may end, and where a clause may end.
-/

namespace ModuleImports

/-- What a grammar sees of a token: its kind and its text, if it has one. -/
structure Terminal where
  kind : TokenKind
  text? : Option String
deriving DecidableEq, Repr

/-- The terminal that a token is an occurrence of. -/
def Token.terminal (t : Token) : Terminal := ⟨t.kind, t.text?⟩

namespace Terminal

/-- An identifier. -/
def identifier (name : String) : Terminal := ⟨.identifier, some name⟩

/-- A string with its content. -/
def string (content : String) : Terminal := ⟨.stringLiteral, some content⟩

/-- The keyword that starts a declaration. -/
def importWord : Terminal := ⟨.keyword, some "import"⟩

/-- The word before an alias. -/
def asWord : Terminal := identifier "as"

/-- The word before a source. -/
def fromWord : Terminal := identifier "from"

/-- What a list starts with. -/
def opening : Terminal := ⟨.delimiter, some r"{"⟩

/-- What a list ends with. -/
def closing : Terminal := ⟨.delimiter, some r"}"⟩

/-- What separates the entries of a list. -/
def comma : Terminal := ⟨.delimiter, some ","⟩

/-- What stands for everything a module exports. -/
def star : Terminal := ⟨.operator, some "*"⟩

/-- The name of an entry that needs an alias: a reserved word, a word that is an operator, or a
string. -/
inductive ReservedName : Terminal → String → Prop
  | keyword (word : String) : ReservedName ⟨.keyword, some word⟩ word
  | wordOperator {word : String} :
      word ∈ Vocabulary.wordOperators → ReservedName ⟨.operator, some word⟩ word
  | string (content : String) : ReservedName (string content) content

/-- What makes an expression of an `import` before it. -/
inductive Continuation : Terminal → Prop
  | call : Continuation ⟨.delimiter, some "("⟩
  | property : Continuation ⟨.operator, some "."⟩

end Terminal

namespace Token

theorem is_iff {t : Token} {kind : TokenKind} {text : String} :
    t.is kind text = true ↔ t.terminal = ⟨kind, some text⟩ := by
  simp [Token.is, terminal]

theorem ofKind?_eq_some_iff {t : Token} {kind : TokenKind} {text : String} :
    t.ofKind? kind = some text ↔ t.terminal = ⟨kind, some text⟩ := by
  simp [ofKind?, terminal]

theorem reservedName?_eq_some_iff {t : Token} {name : String} :
    t.reservedName? = some name ↔ t.terminal.ReservedName name := by
  have hword : ∀ word : String, word ∈ Vocabulary.wordOperators ↔ Vocabulary.isWordOperator word :=
    fun word => by simp [Vocabulary.isWordOperator]
  refine ⟨fun h => ?_, fun h => ?_⟩
  · change Terminal.ReservedName ⟨t.kind, t.text?⟩ name
    rw [reservedName?] at h
    split at h
    · next hkind => rw [hkind, h]; exact .keyword name
    · next hkind => rw [hkind, h]; exact .string name
    · next hkind =>
      obtain ⟨htext, hop⟩ := Option.filter_eq_some_iff.1 h
      rw [hkind, htext]
      exact .wordOperator ((hword name).2 hop)
    · exact absurd h (Option.some_ne_none name).symm
  · generalize hx : t.terminal = x at h
    rw [reservedName?]
    rcases h with _ | hop | _ <;> obtain ⟨hkind, htext⟩ := Terminal.mk.inj hx
    · rw [hkind, htext]
    · simp [hkind, htext, (hword name).1 hop]
    · rw [hkind, htext]

end Token

namespace Stage

/-- The stages where a group may start, with the default binding in front of it. -/
inductive GroupStart : Stage → Option String → Prop
  | clause : GroupStart .clause none
  | group (binding : String) : GroupStart (.group binding) (some binding)

/-- The stages where an entry may end, with the entries up to it. -/
inductive EntryEnd : Stage → Option String → List ImportSpecifier → Prop
  | name (binding? : Option String) (entries : List ImportSpecifier) (name : String) :
      EntryEnd (.afterName binding? entries name true) binding? (⟨name, none⟩ :: entries)
  | entry (binding? : Option String) (entries : List ImportSpecifier) :
      EntryEnd (.afterEntry binding? entries) binding? entries

/-- The stages where a clause may end. -/
inductive ClauseEnd : Stage → ImportClause → Prop
  | binding (binding : String) : ClauseEnd (.afterBinding binding) ⟨some binding, none⟩
  | clause (c : ImportClause) : ClauseEnd (.afterClause c) c

open Terminal in
/-- **The diagram of a declaration**: what a terminal makes of a stage. -/
inductive Arrow (g : ImportGrammar) : Stage → Terminal → Move → Prop
  | binding (b : String) : Arrow g .clause (identifier b) (.proceed (.afterBinding b))
  | bindingComma (b : String) : g = .full → Arrow g (.afterBinding b) comma (.proceed (.group b))
  | opening {s : Stage} {b? : Option String} :
      GroupStart s b? → Arrow g s opening (.proceed (.entry b? [] true))
  | star {s : Stage} {b? : Option String} :
      GroupStart s b? → Arrow g s star (.proceed (.afterStar b?))
  | starAs (b? : Option String) : Arrow g (.afterStar b?) asWord (.proceed (.afterStarAs b?))
  | starName (b? : Option String) (name : String) :
      Arrow g (.afterStarAs b?) (identifier name)
        (.proceed (.afterClause ⟨b?, some (.everything name)⟩))
  | closeEmpty (b? : Option String) (es : List ImportSpecifier) :
      Arrow g (.entry b? es true) closing (.proceed (.afterClause ⟨b?, some (.list es.reverse)⟩))
  | name (b? : Option String) (es : List ImportSpecifier) (closable : Bool) (name : String) :
      Arrow g (.entry b? es closable) (identifier name) (.proceed (.afterName b? es name true))
  | reservedName {x : Terminal} {name : String} (b? : Option String) (es : List ImportSpecifier)
      (closable : Bool) : g = .full → x.ReservedName name →
      Arrow g (.entry b? es closable) x (.proceed (.afterName b? es name false))
  | nameAs (b? : Option String) (es : List ImportSpecifier) (name : String) (complete : Bool) :
      g = .full → Arrow g (.afterName b? es name complete) asWord (.proceed (.afterAs b? es name))
  | localName (b? : Option String) (es : List ImportSpecifier) (name localName : String) :
      Arrow g (.afterAs b? es name) (identifier localName)
        (.proceed (.afterEntry b? (⟨name, some localName⟩ :: es)))
  | entryComma {s : Stage} {b? : Option String} {es : List ImportSpecifier} :
      EntryEnd s b? es → Arrow g s comma (.proceed (.entry b? es (g = .full)))
  | close {s : Stage} {b? : Option String} {es : List ImportSpecifier} : EntryEnd s b? es →
      Arrow g s closing (.proceed (.afterClause ⟨b?, some (.list es.reverse)⟩))
  | fromWord {s : Stage} {c : ImportClause} :
      ClauseEnd s c → Arrow g s fromWord (.proceed (.source c))
  | source (c : ImportClause) (name : String) :
      Arrow g (.source c) (string name) (.complete (c.records name))
  | sideEffect (name : String) :
      g = .full → Arrow g .clause (string name) (.complete [.sideEffectImport name])
  | expression {x : Terminal} : g = .full → x.Continuation → Arrow g .clause x .expression

/-! ## The diagram is the decision -/

variable {g : ImportGrammar} {t : Token} {s : Stage} {m : Move}

theorem arrow_of_afterEntryNext {b? : Option String} {es : List ImportSpecifier}
    (he : EntryEnd s b? es) (h : afterEntryNext g b? es t = m) (hm : m ≠ .refuse) :
    Arrow g s t.terminal m := by
  rw [afterEntryNext] at h
  split at h
  · next hcomma => rw [Token.is_iff.1 hcomma, ← h]; exact .entryComma he
  · split at h
    · next hclose => rw [Token.is_iff.1 hclose, ← h]; exact .close he
    · exact absurd h.symm hm

theorem arrow_of_groupNext {b? : Option String} {m₀ : Move} (hs : GroupStart s b?)
    (h : (if t.is .delimiter r"{" then .proceed (.entry b? [] true)
      else if t.is .operator "*" then .proceed (.afterStar b?) else m₀) = m)
    (h₀ : m₀ = m → Arrow g s t.terminal m) : Arrow g s t.terminal m := by
  split at h
  · next hopen => rw [Token.is_iff.1 hopen, ← h]; exact .opening hs
  · split at h
    · next hstar => rw [Token.is_iff.1 hstar, ← h]; exact .star hs
    · exact h₀ h

theorem arrow_of_fromNext {c : ImportClause} (hs : ClauseEnd s c)
    (h : (if t.is .identifier "from" then .proceed (.source c) else .refuse) = m)
    (hm : m ≠ .refuse) : Arrow g s t.terminal m := by
  split at h
  · next hfrom => rw [Token.is_iff.1 hfrom, ← h]; exact .fromWord hs
  · exact absurd h.symm hm

theorem arrow_of_clauseNext (h : clauseNext g t = m) (hm : m ≠ .refuse) :
    Arrow g .clause t.terminal m := by
  have absurd_refuse : .refuse = m → Arrow g .clause t.terminal m := fun h => absurd h.symm hm
  rw [clauseNext] at h
  split at h
  · next hname => rw [Token.ofKind?_eq_some_iff.1 hname, ← h]; exact .binding _
  · refine arrow_of_groupNext .clause h fun h => ?_
    split at h
    · next hg =>
      split at h
      · next hname => rw [Token.ofKind?_eq_some_iff.1 hname, ← h]; exact .sideEffect _ hg
      · split at h
        · next hmark =>
          rw [← h]
          rcases hmark with hcall | hdot
          · rw [Token.is_iff.1 hcall]; exact .expression hg .call
          · rw [Token.is_iff.1 hdot]; exact .expression hg .property
        · exact absurd_refuse h
    · exact absurd_refuse h

theorem arrow_of_entryNext {b? : Option String} {es : List ImportSpecifier} (closable : Bool)
    (h : entryNext g b? es t = m) (hm : m ≠ .refuse) :
    Arrow g (.entry b? es closable) t.terminal m := by
  simp only [entryNext] at h
  split at h
  · next hname => rw [Token.ofKind?_eq_some_iff.1 hname, ← h]; exact .name ..
  · split at h
    · next hname =>
      rw [← h]
      exact .reservedName _ _ _ rfl (Token.reservedName?_eq_some_iff.1 hname)
    · exact absurd h.symm hm

theorem arrow_of_next (h : s.next g t = m) (hm : m ≠ .refuse) : Arrow g s t.terminal m := by
  have absurd_refuse : .refuse = m → Arrow g s t.terminal m := fun h => absurd h.symm hm
  cases s with
  | clause => exact arrow_of_clauseNext h hm
  | afterBinding binding =>
    simp only [next] at h
    split at h
    · next hcomma => rw [Token.is_iff.1 hcomma.2, ← h]; exact .bindingComma _ hcomma.1
    · exact arrow_of_fromNext (.binding binding) h hm
  | group binding =>
    simp only [next] at h
    exact arrow_of_groupNext (.group binding) h absurd_refuse
  | entry binding? entries closable =>
    simp only [next] at h
    split at h
    · next hclose =>
      obtain ⟨rfl, hclose⟩ := hclose
      rw [Token.is_iff.1 hclose, ← h]
      exact .closeEmpty _ _
    · exact arrow_of_entryNext closable h hm
  | afterName binding? entries name complete =>
    simp only [next] at h
    split at h
    · next has => rw [Token.is_iff.1 has.2, ← h]; exact .nameAs _ _ _ _ has.1
    · split at h
      · next hcomplete => exact arrow_of_afterEntryNext (hcomplete ▸ .name ..) h hm
      · exact absurd_refuse h
  | afterAs binding? entries name =>
    simp only [next] at h
    split at h
    · next hname => rw [Token.ofKind?_eq_some_iff.1 hname, ← h]; exact .localName ..
    · exact absurd_refuse h
  | afterEntry binding? entries =>
    exact arrow_of_afterEntryNext (.entry ..) h hm
  | afterStar binding? =>
    simp only [next] at h
    split at h
    · next has => rw [Token.is_iff.1 has, ← h]; exact .starAs _
    · exact absurd_refuse h
  | afterStarAs binding? =>
    simp only [next] at h
    split at h
    · next hname => rw [Token.ofKind?_eq_some_iff.1 hname, ← h]; exact .starName ..
    · exact absurd_refuse h
  | afterClause c => exact arrow_of_fromNext (.clause c) h hm
  | source c =>
    simp only [next] at h
    split at h
    · next hname => rw [Token.ofKind?_eq_some_iff.1 hname, ← h]; exact .source ..
    · exact absurd_refuse h

theorem next_of_arrow (h : Arrow g s t.terminal m) : s.next g t = m := by
  generalize hx : t.terminal = x at h
  have hkind : t.kind = x.kind := congrArg Terminal.kind hx
  have htext : t.text? = x.text? := congrArg Terminal.text? hx
  cases h with
  | binding | starName | name | localName | source | sideEffect =>
    simp_all [next, clauseNext, entryNext, Token.is, Token.ofKind?, Terminal.identifier,
      Terminal.string]
  | bindingComma | starAs | closeEmpty | nameAs =>
    simp_all [next, Token.is, Terminal.comma, Terminal.closing, Terminal.asWord,
      Terminal.identifier]
  | opening hs | star hs =>
    cases hs <;>
      simp_all [next, clauseNext, Token.is, Token.ofKind?, Terminal.opening, Terminal.star]
  | entryComma hs | close hs =>
    cases hs <;> simp_all [next, afterEntryNext, Token.is, Terminal.comma, Terminal.closing]
  | fromWord hs =>
    cases hs <;> simp_all [next, Token.is, Terminal.fromWord, Terminal.identifier]
  | expression hg hmark =>
    cases hmark <;> simp_all [next, clauseNext, Token.is, Token.ofKind?]
  | reservedName b? es closable hg hname =>
    have hreserved := Token.reservedName?_eq_some_iff.2 (hx ▸ hname)
    cases hname <;> simp_all [next, entryNext, Token.is, Token.ofKind?, Terminal.string]

/-- **The diagram is the decision.** -/
theorem next_eq_iff (hm : m ≠ .refuse) : s.next g t = m ↔ Arrow g s t.terminal m :=
  ⟨fun h => arrow_of_next h hm, next_of_arrow⟩

/-- A stage makes the same of two occurrences of one terminal. -/
theorem next_congr {t u : Token} (h : t.terminal = u.terminal) : s.next g t = s.next g u := by
  by_cases ht : s.next g t = .refuse
  · refine ht.trans (Classical.byContradiction fun hu => hu ?_)
    have harrow : Arrow g s u.terminal (s.next g u) := arrow_of_next rfl (Ne.symm hu)
    exact ht.symm.trans (next_of_arrow (h ▸ harrow))
  · exact (next_of_arrow (h ▸ arrow_of_next rfl ht)).symm

end Stage

end ModuleImports
