import Mathlib.Data.List.Forall2
import ModuleImports.Proofs.Import.Passage

/-!
# Proofs/Import/Grammar — reading accepts a grammar, and builds its records

The forms of an import are given here as a grammar over terminals that says nothing of how a text is
read: `Entry` and `NamedList` are the lists in braces, `Declaration` is what may follow `import`,
and a `Program` is a row of items, of which only declarations have records.

A walk from between declarations back to between declarations is a program, with the records that
the grammar gives it (`passes_iff_program`).  One way, `Stage.Reached` describes what has been read
at every stage; the other way, every form is led through the diagram by its arrows.
-/

namespace ModuleImports

open Terminal

namespace ImportGrammar

/-! ## The grammar -/

/-- An entry of a list. -/
inductive Entry (g : ImportGrammar) : List Terminal → ImportSpecifier → Prop
  | plain (name : String) : Entry g [identifier name] ⟨name, none⟩
  | renamed (name localName : String) : g = .full →
      Entry g [identifier name, asWord, identifier localName] ⟨name, some localName⟩
  | reserved {x : Terminal} {name : String} (localName : String) : g = .full →
      x.ReservedName name → Entry g [x, asWord, identifier localName] ⟨name, some localName⟩

/-- A list of entries in braces, with a comma between any two.  In the full grammar one more comma
may follow the last entry. -/
inductive NamedList (g : ImportGrammar) : List Terminal → List ImportSpecifier → Prop
  | plain {ws : List (List Terminal)} {es : List ImportSpecifier} : List.Forall₂ g.Entry ws es →
      NamedList g (opening :: ([comma].intercalate ws ++ [closing])) es
  | trailingComma {ws : List (List Terminal)} {es : List ImportSpecifier} : g = .full → ws ≠ [] →
      List.Forall₂ g.Entry ws es →
      NamedList g (opening :: ([comma].intercalate ws ++ [comma, closing])) es

/-- **What may follow `import`**, with the records it gives. -/
inductive Declaration (g : ImportGrammar) : List Terminal → List ImportRecord → Prop
  | binding (b s : String) : Declaration g [identifier b, fromWord, string s] [.defaultImport b s]
  | list {w : List Terminal} {es : List ImportSpecifier} (s : String) : g.NamedList w es →
      Declaration g (w ++ [fromWord, string s]) [.namedImport es s]
  | everything (b s : String) :
      Declaration g [star, asWord, identifier b, fromWord, string s] [.namespaceImport b s]
  | sideEffect (s : String) : g = .full → Declaration g [string s] [.sideEffectImport s]
  | bindingAndList {w : List Terminal} {es : List ImportSpecifier} (b s : String) : g = .full →
      g.NamedList w es → Declaration g (identifier b :: comma :: (w ++ [fromWord, string s]))
        [.defaultImport b s, .namedImport es s]
  | bindingAndEverything (b b' s : String) : g = .full →
      Declaration g [identifier b, comma, star, asWord, identifier b', fromWord, string s]
        [.defaultImport b s, .namespaceImport b' s]

/-- A piece of a program.  An `import` with a call or a property after it is an expression. -/
inductive Item (g : ImportGrammar) : List Terminal → List ImportRecord → Prop
  | other {x : Terminal} : x ≠ importWord → Item g [x] []
  | declaration {w : List Terminal} {rs : List ImportRecord} :
      g.Declaration w rs → Item g (importWord :: w) rs
  | expression {x : Terminal} : g = .full → x.Continuation → Item g [importWord, x] []

/-- **A whole text**: any number of items, with their records in order. -/
def Program (g : ImportGrammar) (w : List Terminal) (rs : List ImportRecord) : Prop :=
  ∃ ws rss, List.Forall₂ g.Item ws rss ∧ w = ws.flatten ∧ rs = rss.flatten

/-- **An item where it stands**: its tokens, and its records with the place of their `import`. -/
inductive PlacedItem (g : ImportGrammar) : List Token → List Recognized → Prop
  | other {t : Token} : t.terminal ≠ importWord → PlacedItem g [t] []
  | declaration {t : Token} {ts : List Token} {rs : List ImportRecord} :
      t.terminal = importWord → g.Declaration (ts.map Token.terminal) rs →
      PlacedItem g (t :: ts) (rs.map (⟨t.span.start, ·⟩))
  | expression {t u : Token} : g = .full → t.terminal = importWord →
      u.terminal.Continuation → PlacedItem g [t, u] []

variable {g : ImportGrammar} {w v : List Terminal} {rs ss : List ImportRecord}

theorem Program.nil : g.Program [] [] := ⟨[], [], .nil, rfl, rfl⟩

theorem Program.append_item (h : g.Program w rs) (hi : g.Item v ss) :
    g.Program (w ++ v) (rs ++ ss) := by
  obtain ⟨ws, rss, hws, rfl, rfl⟩ := h
  exact ⟨ws ++ [v], rss ++ [ss], List.rel_append hws (.cons hi .nil), by simp, by simp⟩

/-- Whatever tokens it stands for, an item stands somewhere. -/
theorem Item.exists_placed {ts : List Token} (h : g.Item w rs) (ht : ts.map Token.terminal = w) :
    ∃ placed, g.PlacedItem ts placed ∧ placed.map Recognized.record = rs := by
  rcases h with hx | hw | ⟨hg, hcont⟩
  · obtain ⟨t, rfl, rfl⟩ := List.map_eq_singleton_iff.1 ht
    exact ⟨[], .other hx, rfl⟩
  · obtain ⟨t, ts, rfl, himport, rfl⟩ := List.map_eq_cons_iff.1 ht
    exact ⟨_, .declaration himport hw, by simp [Function.comp_def]⟩
  · obtain ⟨t, ts, rfl, himport, hts⟩ := List.map_eq_cons_iff.1 ht
    obtain ⟨u, rfl, rfl⟩ := List.map_eq_singleton_iff.1 hts
    exact ⟨[], .expression hg himport hcont, rfl⟩

/-- The tokens of an item where it stands make up an item. -/
theorem PlacedItem.item {ts : List Token} {placed : List Recognized} (h : g.PlacedItem ts placed) :
    g.Item (ts.map Token.terminal) (placed.map Recognized.record) := by
  rcases h with hx | ⟨himport, hw⟩ | ⟨hg, himport, hcont⟩
  · exact .other hx
  · simpa [himport, Function.comp_def] using Item.declaration hw
  · simpa [himport] using Item.expression hg hcont

/-! ## Parts of a declaration -/

/-- What stands in front of a group. -/
inductive Lead (g : ImportGrammar) : List Terminal → Option String → Prop
  | none : Lead g [] none
  | binding (b : String) : g = .full → Lead g [identifier b, comma] (some b)

/-- A list as far as the comma after its last complete entry. -/
def Opened (g : ImportGrammar) (w : List Terminal) (es : List ImportSpecifier) : Prop :=
  ∃ ws, List.Forall₂ g.Entry ws es ∧ w = opening :: ws.flatMap (· ++ [comma])

/-- The name of an entry, and whether it is an entry already. -/
inductive EntryName (g : ImportGrammar) : Terminal → String → Bool → Prop
  | plain (name : String) : EntryName g (identifier name) name true
  | reserved {x : Terminal} {name : String} : g = .full → x.ReservedName name →
      EntryName g x name false

/-- A whole clause. -/
inductive Clause (g : ImportGrammar) : List Terminal → ImportClause → Prop
  | binding (b : String) : Clause g [identifier b] ⟨some b, none⟩
  | list {lead w : List Terminal} {b? : Option String} {es : List ImportSpecifier} :
      g.Lead lead b? → g.NamedList w es → Clause g (lead ++ w) ⟨b?, some (.list es)⟩
  | everything {lead : List Terminal} {b? : Option String} (b : String) : g.Lead lead b? →
      Clause g (lead ++ [star, asWord, identifier b]) ⟨b?, some (.everything b)⟩

/-- A clause and a source are a declaration. -/
theorem Clause.declaration {c : ImportClause} (h : g.Clause w c) (s : String) :
    g.Declaration (w ++ [fromWord, string s]) (c.records s) := by
  rcases h with b | ⟨_ | ⟨b, hg⟩, hw⟩ | ⟨b, _ | ⟨b', hg⟩⟩
  · exact .binding b s
  · exact .list s hw
  · exact .bindingAndList b s hg hw
  · exact .everything b s
  · exact .bindingAndEverything b' b s hg

/-- Entries with a comma after each, and one more entry: a comma between any two. -/
theorem intercalate_append_singleton (ws : List (List Terminal)) (w : List Terminal) :
    [comma].intercalate (ws ++ [w]) = ws.flatMap (· ++ [comma]) ++ w := by
  induction ws with
  | nil => simp
  | cons v ws ih => rw [List.cons_append, List.intercalate_cons_of_ne_nil (by simp), ih]; simp

theorem Opened.nil : g.Opened [opening] [] := ⟨[], .nil, rfl⟩

theorem Opened.append_entry {es : List ImportSpecifier} {e : ImportSpecifier}
    (h : g.Opened w es) (he : g.Entry v e) : g.Opened (w ++ (v ++ [comma])) (es ++ [e]) := by
  obtain ⟨ws, hws, rfl⟩ := h
  exact ⟨ws ++ [v], List.rel_append hws (.cons he .nil), by simp⟩

theorem Opened.namedList_of_entry {es : List ImportSpecifier} {e : ImportSpecifier}
    (h : g.Opened w es) (he : g.Entry v e) : g.NamedList (w ++ (v ++ [closing])) (es ++ [e]) := by
  obtain ⟨ws, hws, rfl⟩ := h
  have hlist := NamedList.plain (List.rel_append hws (.cons he .nil))
  rw [intercalate_append_singleton] at hlist
  simpa using hlist

/-- A list closes at once, or in the full grammar after a comma. -/
theorem Opened.namedList {es : List ImportSpecifier} (h : g.Opened w es)
    (hclosable : es = [] ∨ g = .full) : g.NamedList (w ++ [closing]) es := by
  obtain ⟨ws, hws, rfl⟩ := h
  rcases List.eq_nil_or_concat ws with rfl | ⟨ws, v, rfl⟩
  · obtain rfl := List.forall₂_nil_left_iff.1 hws
    exact .plain .nil
  · have hne : es ≠ [] := by
      rintro rfl
      simpa using hws.length_eq
    have hlist := NamedList.trailingComma (hclosable.resolve_left hne) (by simp) hws
    rw [List.concat_eq_append, intercalate_append_singleton] at hlist
    simpa using hlist

end ImportGrammar

/-! ## What has been read at a stage -/

namespace Stage

variable {g : ImportGrammar} {w : List Terminal} {x : Terminal} {s s' : Stage}
  {rs : List ImportRecord}

/-- **What stands between `import` and a stage.** -/
inductive Reached (g : ImportGrammar) : List Terminal → Stage → Prop
  | clause : Reached g [] .clause
  | afterBinding (b : String) : Reached g [identifier b] (.afterBinding b)
  | group (b : String) : g = .full → Reached g [identifier b, comma] (.group b)
  | entry {lead w : List Terminal} {b? : Option String} {es : List ImportSpecifier}
      {closable : Bool} : g.Lead lead b? → g.Opened w es.reverse →
      (closable = true → es.reverse = [] ∨ g = .full) →
      Reached g (lead ++ w) (.entry b? es closable)
  | afterName {lead w : List Terminal} {b? : Option String} {es : List ImportSpecifier}
      {x : Terminal} {name : String} {complete : Bool} : g.Lead lead b? →
      g.Opened w es.reverse → g.EntryName x name complete →
      Reached g (lead ++ (w ++ [x])) (.afterName b? es name complete)
  | afterAs {lead w : List Terminal} {b? : Option String} {es : List ImportSpecifier}
      {x : Terminal} {name : String} {complete : Bool} : g.Lead lead b? →
      g.Opened w es.reverse → g.EntryName x name complete → g = .full →
      Reached g (lead ++ (w ++ [x, asWord])) (.afterAs b? es name)
  | afterEntry {lead w v : List Terminal} {b? : Option String} {es : List ImportSpecifier}
      {e : ImportSpecifier} : g.Lead lead b? → g.Opened w es.reverse → g.Entry v e →
      Reached g (lead ++ (w ++ v)) (.afterEntry b? (e :: es))
  | afterStar {lead : List Terminal} {b? : Option String} : g.Lead lead b? →
      Reached g (lead ++ [star]) (.afterStar b?)
  | afterStarAs {lead : List Terminal} {b? : Option String} : g.Lead lead b? →
      Reached g (lead ++ [star, asWord]) (.afterStarAs b?)
  | afterClause {w : List Terminal} {c : ImportClause} : g.Clause w c →
      Reached g w (.afterClause c)
  | source {w : List Terminal} {c : ImportClause} : g.Clause w c →
      Reached g (w ++ [fromWord]) (.source c)

theorem Reached.lead {b? : Option String} (h : Reached g w s) (hs : GroupStart s b?) :
    g.Lead w b? := by
  rcases hs with _ | b
  · cases h with | clause => exact .none
  · cases h with | group _ hg => exact .binding b hg

theorem Reached.clauseEnd {c : ImportClause} (h : Reached g w s) (hs : ClauseEnd s c) :
    g.Clause w c := by
  rcases hs with b | c
  · cases h with | afterBinding => exact .binding b
  · cases h with | afterClause hc => exact hc

theorem Reached.entryEnd {b? : Option String} {es : List ImportSpecifier} (h : Reached g w s)
    (hs : EntryEnd s b? es) : ∃ lead u v e es', g.Lead lead b? ∧ g.Opened u es' ∧ g.Entry v e ∧
      w = lead ++ (u ++ v) ∧ es.reverse = es' ++ [e] := by
  rcases hs with ⟨_, es, name⟩ | _
  · cases h with
    | afterName hlead hopen hname =>
      cases hname with
      | plain => exact ⟨_, _, _, _, _, hlead, hopen, .plain name, rfl, List.reverse_cons⟩
  · cases h with
    | afterEntry hlead hopen he => exact ⟨_, _, _, _, _, hlead, hopen, he, rfl, List.reverse_cons⟩

/-- **One step**: an arrow adds its label to what has been read. -/
theorem Reached.proceed (h : Reached g w s) (ha : Arrow g s x (.proceed s')) :
    Reached g (w ++ [x]) s' := by
  cases ha with
  | binding b => cases h with | clause => exact .afterBinding b
  | bindingComma b hg => cases h with | afterBinding => exact .group b hg
  | opening hs => exact .entry (h.lead hs) .nil fun _ => .inl rfl
  | star hs => exact .afterStar (h.lead hs)
  | starAs b? =>
    cases h with | afterStar hlead => simpa using Reached.afterStarAs hlead
  | starName b? b =>
    cases h with | afterStarAs hlead => simpa using Reached.afterClause (.everything b hlead)
  | closeEmpty b? es =>
    cases h with
    | entry hlead hopen hclosable =>
      simpa using Reached.afterClause (.list hlead (hopen.namedList (hclosable rfl)))
  | name b? es closable name =>
    cases h with
    | entry hlead hopen _ => simpa using Reached.afterName hlead hopen (.plain name)
  | reservedName b? es closable hg hname =>
    cases h with
    | entry hlead hopen _ => simpa using Reached.afterName hlead hopen (.reserved hg hname)
  | nameAs b? es name complete hg =>
    cases h with
    | afterName hlead hopen hname => simpa using Reached.afterAs hlead hopen hname hg
  | localName b? es name localName =>
    cases h with
    | afterAs hlead hopen hname hg =>
      have he : ∀ {y complete}, g.EntryName y name complete →
          g.Entry [y, asWord, identifier localName] ⟨name, some localName⟩ := by
        rintro _ _ (_ | ⟨_, hy⟩)
        · exact .renamed name localName hg
        · exact .reserved localName hg hy
      simpa using Reached.afterEntry hlead hopen (he hname)
  | entryComma hs =>
    obtain ⟨lead, u, v, e, es', hlead, hopen, he, rfl, hes⟩ := h.entryEnd hs
    have hopen' := hes ▸ hopen.append_entry he
    simpa using Reached.entry hlead hopen' fun hg => .inr (of_decide_eq_true hg)
  | close hs =>
    obtain ⟨lead, u, v, e, es', hlead, hopen, he, rfl, hes⟩ := h.entryEnd hs
    have hlist := hes ▸ hopen.namedList_of_entry he
    simpa using Reached.afterClause (.list hlead hlist)
  | fromWord hs => exact .source (h.clauseEnd hs)

/-- The last terminal of a declaration completes it. -/
theorem Reached.complete (h : Reached g w s) (ha : Arrow g s x (.complete rs)) :
    g.Declaration (w ++ [x]) rs := by
  cases ha with
  | source c name => cases h with | source hc => simpa using hc.declaration name
  | sideEffect name hg => cases h with | clause => exact .sideEffect name hg

/-- An expression is told at its first terminal. -/
theorem Reached.expression (h : Reached g w s) (ha : Arrow g s x .expression) :
    g.Item (importWord :: (w ++ [x])) [] := by
  cases ha with
  | expression hg hcont => cases h with | clause => exact .expression hg hcont

/-! ## Every form is led through the diagram -/

/-- A row of arrows. -/
inductive Leads (g : ImportGrammar) : Stage → List Terminal → Stage → Prop
  | nil (s : Stage) : Leads g s [] s
  | cons {s s₁ s₂ : Stage} {x : Terminal} {w : List Terminal} :
      Arrow g s x (.proceed s₁) → Leads g s₁ w s₂ → Leads g s (x :: w) s₂

variable {s₁ s₂ : Stage} {v : List Terminal} {b? : Option String} {es es' : List ImportSpecifier}
  {e : ImportSpecifier} {closable : Bool}

theorem Leads.single (h : Arrow g s x (.proceed s₁)) : Leads g s [x] s₁ := .cons h (.nil s₁)

theorem Leads.append (h : Leads g s w s₁) (h' : Leads g s₁ v s₂) : Leads g s (w ++ v) s₂ := by
  induction h with
  | nil => exact h'
  | cons ha _ ih => exact .cons ha (ih h')

theorem leads_entry (b? : Option String) (es : List ImportSpecifier) (closable : Bool)
    (he : g.Entry w e) : ∃ s', Leads g (.entry b? es closable) w s' ∧
      EntryEnd s' b? (e :: es) := by
  rcases he with name | ⟨name, localName, hg⟩ | ⟨localName, hg, hname⟩
  · exact ⟨_, .single (.name _ _ _ name), .name _ _ name⟩
  · exact ⟨_, .cons (.name _ _ _ name) (.cons (.nameAs _ _ _ _ hg) (.single (.localName ..))),
      .entry ..⟩
  · exact ⟨_, .cons (.reservedName _ _ _ hg hname)
      (.cons (.nameAs _ _ _ _ hg) (.single (.localName ..))), .entry ..⟩

/-- Entries with commas between them, from where an entry starts. -/
theorem leads_entries {ws : List (List Terminal)} (b? : Option String)
    (es : List ImportSpecifier) (closable : Bool) (h : List.Forall₂ g.Entry ws es')
    (hne : ws ≠ []) : ∃ s', Leads g (.entry b? es closable) ([comma].intercalate ws) s' ∧
      EntryEnd s' b? (es'.reverse ++ es) := by
  induction h generalizing es closable with
  | nil => exact absurd rfl hne
  | @cons w e ws es' he hws ih =>
    obtain ⟨s₁, hs₁, hend⟩ := leads_entry b? es closable he
    rcases ws with _ | ⟨v, ws⟩
    · obtain rfl := List.forall₂_nil_left_iff.1 hws
      exact ⟨s₁, by simpa using hs₁, by simpa using hend⟩
    · obtain ⟨s₂, hs₂, hend₂⟩ := ih (e :: es) (g = .full) (by simp)
      refine ⟨s₂, ?_, by simpa using hend₂⟩
      rw [List.intercalate_cons_cons]
      simpa using hs₁.append (.cons (.entryComma hend) hs₂)

theorem leads_namedList (hs : GroupStart s b?) (h : g.NamedList w es) :
    Leads g s w (.afterClause ⟨b?, some (.list es)⟩) := by
  rcases h with @⟨ws, _, hws⟩ | ⟨hg, hne, hws⟩
  · rcases eq_or_ne ws [] with rfl | hne
    · obtain rfl := List.forall₂_nil_left_iff.1 hws
      exact .cons (.opening hs) (.single (.closeEmpty b? []))
    · obtain ⟨s', hs', hend⟩ := leads_entries b? [] true hws hne
      have hclose := Arrow.close (g := g) hend
      rw [List.append_nil, List.reverse_reverse] at hclose
      exact .cons (.opening hs) (hs'.append (.single hclose))
  · obtain ⟨s', hs', hend⟩ := leads_entries b? [] true hws hne
    have hcomma := Arrow.entryComma (g := g) hend
    have hclose := Arrow.closeEmpty (g := g) b? (es.reverse ++ [])
    rw [decide_eq_true hg] at hcomma
    rw [List.append_nil, List.reverse_reverse] at hclose
    rw [List.append_nil] at hcomma
    exact .cons (.opening hs) (hs'.append (.cons hcomma (.single hclose)))

theorem leads_declaration (h : g.Declaration w rs) : ∃ u x s, w = u ++ [x] ∧
    Leads g .clause u s ∧ Arrow g s x (.complete rs) := by
  have source : ∀ {c : ImportClause} {u : List Terminal} (name : String),
      Leads g .clause u (.afterClause c) → u ++ [fromWord, string name] = w →
      c.records name = rs → ∃ u x s, w = u ++ [x] ∧ Leads g .clause u s ∧
        Arrow g s x (.complete rs) := by
    rintro c u name hu rfl rfl
    exact ⟨u ++ [fromWord], string name, .source c, by simp,
      hu.append (.single (.fromWord (.clause c))), .source c name⟩
  rcases h with ⟨b, name⟩ | ⟨name, hlist⟩ | ⟨b, name⟩ | ⟨name, hg⟩ | ⟨b, name, hg, hlist⟩ |
    ⟨b, b', name, hg⟩
  · exact ⟨[identifier b, fromWord], string name, _, rfl,
      .cons (.binding b) (.single (.fromWord (.binding b))), .source _ name⟩
  · exact source name (leads_namedList .clause hlist) rfl rfl
  · exact source name (.cons (.star .clause) (.cons (.starAs none) (.single (.starName none b))))
      rfl rfl
  · exact ⟨[], string name, .clause, rfl, .nil _, .sideEffect name hg⟩
  · exact source name (.cons (.binding b) (.cons (.bindingComma b hg)
      (leads_namedList (.group b) hlist))) rfl rfl
  · exact source name (.cons (.binding b) (.cons (.bindingComma b hg) (.cons (.star (.group b))
      (.cons (.starAs _) (.single (.starName _ b')))))) rfl rfl

end Stage

/-! ## Walks are programs -/

namespace ReadingState

variable {g : ImportGrammar} {w : List Terminal} {R : List ImportRecord} {t : Token}
  {ts : List Token} {rs ended : List Recognized} {state after final : ReadingState}

/-- **What has been read at a state**, with the records that count already. -/
inductive Seen (g : ImportGrammar) : List Terminal → List ImportRecord → ReadingState → Prop
  | between {w : List Terminal} {R : List ImportRecord} {ended : List Recognized} :
      g.Program w (R ++ ended.map Recognized.record) → Seen g w R (.between ended)
  | within {w v : List Terminal} {R : List ImportRecord} {stage : Stage} (place : Nat) :
      g.Program w R → stage.Reached g v → Seen g (w ++ importWord :: v) R (.within place stage)

theorem Seen.program (h : Seen g w R (.between ended)) :
    g.Program w (R ++ ended.map Recognized.record) := by
  cases h with | between hprog => exact hprog

/-- **One step**: a token adds its terminal, and the records that end at the state now count. -/
theorem Seen.next (h : Seen g w R state) (hnext : state.next g t = some after) :
    Seen g (w ++ [t.terminal]) (R ++ state.ended.map Recognized.record) after := by
  rcases h with hprog | @⟨w, v, _, stage, place, hprog, hstage⟩
  · simp only [ReadingState.next] at hnext
    split at hnext
    · next himport =>
      obtain rfl := Option.some.inj hnext
      rw [Token.is_iff.1 himport]
      exact .within _ hprog .clause
    · next hother =>
      obtain rfl := Option.some.inj hnext
      have hitem : g.Item [t.terminal] [] := .other fun h => hother (Token.is_iff.2 h)
      exact .between (hprog.append_item hitem)
  · rcases hmove : stage.next g t with stage' | records | _ | _ <;>
      simp only [ReadingState.next, hmove, Option.some.injEq, reduceCtorEq] at hnext <;>
      obtain rfl := hnext <;> have harrow := Stage.arrow_of_next hmove (by simp)
    · simpa [ended] using Seen.within place hprog (hstage.proceed harrow)
    · have hitem := ImportGrammar.Item.declaration (hstage.complete harrow)
      exact .between (by simpa [ended, Function.comp_def] using hprog.append_item hitem)
    · exact .between (by simpa [ended] using hprog.append_item (hstage.expression harrow))

theorem Seen.passes (h : Seen g w R state) (hp : Passes g state ts rs final) :
    Seen g (w ++ ts.map Token.terminal) (R ++ rs.map Recognized.record) final := by
  induction hp generalizing w R with
  | nil => simpa using h
  | cons hnext _ ih => simpa using ih (h.next hnext)

/-- A row of arrows is a walk inside a declaration. -/
theorem passes_of_leads {s s' : Stage} {place : Nat} (h : Stage.Leads g s w s')
    (ht : ts.map Token.terminal = w) :
    Passes g (.within place s) ts [] (.within place s') := by
  induction h generalizing ts with
  | nil => exact List.map_eq_nil_iff.1 ht ▸ .nil _
  | cons harrow _ ih =>
    obtain ⟨t, ts, rfl, rfl, hts⟩ := List.map_eq_cons_iff.1 ht
    have hnext := Stage.next_of_arrow harrow
    exact .cons (by simp only [ReadingState.next, hnext]) (ih hts)

theorem next_of_importWord (ended : List Recognized) (h : t.terminal = importWord) :
    (between ended).next g t = some (.within t.span.start .clause) := by
  simp [ReadingState.next, Token.is_iff.2 h]

/-- **An item leads from between declarations back to there**, with its records. -/
theorem passes_of_placedItem (ended : List Recognized) (h : g.PlacedItem ts rs) :
    Passes g (.between ended) ts ended (.between rs) := by
  rcases h with @⟨t, hx⟩ | @⟨t, ts, R, himport, hw⟩ | @⟨t, u, hg, himport, hcont⟩
  · have his : ¬t.is .keyword "import" := fun h => hx (Token.is_iff.1 h)
    exact .single (by simp [ReadingState.next, his])
  · obtain ⟨w, x, s, hts, hleads, harrow⟩ := Stage.leads_declaration hw
    obtain ⟨ts, last, rfl, hinit, hlast⟩ := List.map_eq_append_iff.1 hts
    obtain ⟨u, rfl, rfl⟩ := List.map_eq_singleton_iff.1 hlast
    have hlast : (ReadingState.within t.span.start s).next g u =
        some (.between (R.map (⟨t.span.start, ·⟩))) := by
      simp only [ReadingState.next, Stage.next_of_arrow harrow]
    have hwalk := Passes.cons (next_of_importWord ended himport)
      ((passes_of_leads hleads hinit).append (.single hlast))
    simpa [ReadingState.ended] using hwalk
  · have hlast : (ReadingState.within t.span.start .clause).next g u = some (.between []) := by
      simp only [ReadingState.next, Stage.next_of_arrow (.expression hg hcont)]
    have hwalk := Passes.cons (next_of_importWord ended himport) (.single hlast)
    simpa [ReadingState.ended] using hwalk

/-- Items in a row lead from between declarations back to there. -/
theorem passes_of_items {ws : List (List Terminal)} {Rs : List (List ImportRecord)}
    (ended : List Recognized)
    (h : List.Forall₂ g.Item ws Rs) (ht : ts.map Token.terminal = ws.flatten) :
    ∃ rs ended', Passes g (.between ended) ts rs (.between ended') ∧
      (rs ++ ended').map Recognized.record = ended.map Recognized.record ++ Rs.flatten := by
  induction h generalizing ts ended with
  | nil =>
    obtain rfl := List.map_eq_nil_iff.1 ht
    exact ⟨[], ended, .nil _, by simp⟩
  | cons hitem _ ih =>
    obtain ⟨ts, us, rfl, hts, hus⟩ := List.map_eq_append_iff.1 (ht.trans List.flatten_cons)
    obtain ⟨rs, hplaced, rfl⟩ := hitem.exists_placed hts
    obtain ⟨rs', ended', hp', hrs'⟩ := ih rs hus
    refine ⟨_, ended', (passes_of_placedItem ended hplaced).append hp', ?_⟩
    rw [List.append_assoc, List.map_append, hrs', List.flatten_cons]

/-- **A walk back to between declarations is a program**, with the records of the program. -/
theorem passes_iff_program : (∃ rs ended, Passes g (.between []) ts rs (.between ended) ∧
    R = (rs ++ ended).map Recognized.record) ↔ g.Program (ts.map Token.terminal) R := by
  constructor
  · rintro ⟨rs, ended, hp, rfl⟩
    have hstart : Seen g [] [] (.between []) := .between .nil
    simpa using (hstart.passes hp).program
  · rintro ⟨ws, Rs, hitems, hts, rfl⟩
    obtain ⟨rs, ended, hp, hrs⟩ := passes_of_items [] hitems hts
    exact ⟨rs, ended, hp, by simpa using hrs.symm⟩

end ReadingState

/-- The records of a text without faults, by the terminals of its tokens. -/
theorem SourceText.imports_eq_ok_iff_terminals (source : SourceText) (options : ImportOptions)
    (records : List ImportRecord) :
    source.imports options = .ok records ↔ (source.scan options.scanOptions).failure = none ∧
      options.grammar.Program ((source.scan options.scanOptions).tokens.map Token.terminal)
        records := by
  rw [imports_eq_ok_iff, ReadingState.passes_iff_program]

/-- **Reading accepts exactly the grammar, and builds exactly its records.** -/
theorem SourceText.imports_eq_ok_iff_program (source : SourceText) (options : ImportOptions)
    (records : List ImportRecord) :
    source.imports options = .ok records ↔
      ∃ tokens, source.scan options.scanOptions = ⟨tokens, none⟩ ∧
        options.grammar.Program (tokens.map Token.terminal) records := by
  rw [imports_eq_ok_iff, ReadingState.passes_iff_program]
  constructor
  · rintro ⟨hfail, hprog⟩
    exact ⟨_, by rw [← hfail], hprog⟩
  · rintro ⟨tokens, hscan, hprog⟩
    rw [hscan]
    exact ⟨rfl, hprog⟩

end ModuleImports
