import ModuleImports.Proofs.Import.Grammar
import ModuleImports.Proofs.Token.Layout

/-!
# Proofs/Import/Viability — a fault is reported where it can first be told

Every stage of a declaration that reading can reach has a way to the end of it
(`Stage.Reached.completable`), so the tokens up to there are the front of a text without faults
(`viable_of_passes`).  A stage refuses a token whatever comes after it, so no text goes on from
there (`StartsWith.refused`).  `SourceText.imports_eq_error_earliest` says both of the place of
every error.
-/

namespace ModuleImports

open Terminal

/-! ## Terminals that can be written -/

/-- The terminal that a lexeme is an occurrence of. -/
def Lexeme.terminal (l : Lexeme) : Terminal := (l.toToken 0).terminal

namespace Terminal

/-- Some lexeme is an occurrence of the terminal. -/
def Occurs (x : Terminal) : Prop := ∃ w l, Lexeme.Written w l ∧ l.terminal = x

theorem occurs_identifier (c : Char) (cs : List Char) (hstart : Vocabulary.isWordStart c = true)
    (hpart : cs.all Vocabulary.isWordPart = true)
    (hkind : Word.kind (String.ofList (c :: cs)) = .identifier) :
    (identifier (String.ofList (c :: cs))).Occurs :=
  ⟨_, _, .word hstart (List.all_eq_true.1 hpart), by rw [hkind]; rfl⟩

theorem occurs_letter : (identifier "a").Occurs :=
  occurs_identifier 'a' [] (by decide) (by decide) (by decide)

theorem occurs_asWord : asWord.Occurs :=
  occurs_identifier 'a' ['s'] (by decide) (by decide) (by decide)

theorem occurs_fromWord : fromWord.Occurs :=
  occurs_identifier 'f' ['r', 'o', 'm'] (by decide) (by decide) (by decide)

theorem occurs_closing : closing.Occurs := ⟨_, _, .delimiter (c := '}') (by decide), rfl⟩

theorem occurs_star : star.Occurs :=
  have hop : "*" ∈ Vocabulary.operators := by decide
  ⟨_, _, .operator hop, rfl⟩

theorem occurs_string (content : String) : (string content).Occurs := by
  have hquote : Vocabulary.isQuote '"' = true := rfl
  obtain ⟨body, hbody⟩ := Literal.exists_content hquote content.toList
  exact ⟨_, _, .literal hquote hbody, by rw [String.ofList_toList]; rfl⟩

end Terminal

/-! ## Every stage has a way to the end -/

namespace Stage

variable {g : ImportGrammar} {s s' : Stage} {x : Terminal} {w : List Terminal}

/-- **Terminals that end a declaration** from a stage on. -/
inductive Ends (g : ImportGrammar) : Stage → List Terminal → Prop
  | last {s : Stage} {x : Terminal} {rs : List ImportRecord} :
      Arrow g s x (.complete rs) → Ends g s [x]
  | cons {s s' : Stage} {x : Terminal} {w : List Terminal} :
      Arrow g s x (.proceed s') → Ends g s' w → Ends g s (x :: w)

/-- A declaration can be ended from a stage on. -/
def Completable (g : ImportGrammar) (s : Stage) : Prop :=
  ∃ ls : List Lexeme, Ends g s (ls.map Lexeme.terminal) ∧ ∀ l ∈ ls, Writable l.content

theorem Completable.last {rs : List ImportRecord} (ha : Arrow g s x (.complete rs))
    (hx : x.Occurs) : Completable g s := by
  obtain ⟨w, l, hw, rfl⟩ := hx
  exact ⟨[l], .last ha, List.forall_mem_singleton.2 ⟨w, l, hw, rfl⟩⟩

theorem Completable.cons (ha : Arrow g s x (.proceed s')) (hx : x.Occurs)
    (h : Completable g s') : Completable g s := by
  obtain ⟨w, l, hw, rfl⟩ := hx
  obtain ⟨ls, hls, hwritable⟩ := h
  exact ⟨l :: ls, .cons ha hls, List.forall_mem_cons.2 ⟨⟨w, l, hw, rfl⟩, hwritable⟩⟩

theorem completable_source (c : ImportClause) : Completable g (.source c) :=
  .last (.source c "") (occurs_string "")

theorem ClauseEnd.completable {c : ImportClause} (h : ClauseEnd s c) : Completable g s :=
  .cons (.fromWord h) occurs_fromWord (completable_source c)

theorem EntryEnd.completable {b? : Option String} {es : List ImportSpecifier}
    (h : EntryEnd s b? es) : Completable g s :=
  .cons (.close h) occurs_closing (ClauseEnd.clause _).completable

theorem completable_afterAs (b? : Option String) (es : List ImportSpecifier) (name : String) :
    Completable g (.afterAs b? es name) :=
  .cons (.localName b? es name "a") occurs_letter (EntryEnd.entry _ _).completable

theorem completable_afterStarAs (b? : Option String) : Completable g (.afterStarAs b?) :=
  .cons (.starName b? "a") occurs_letter (ClauseEnd.clause _).completable

theorem completable_afterStar (b? : Option String) : Completable g (.afterStar b?) :=
  .cons (.starAs b?) occurs_asWord (completable_afterStarAs b?)

/-- **Whatever stage is reached**, the declaration can be ended from there.  A reserved name without
its alias could not in the basic grammar, but there it is not reached. -/
theorem Reached.completable (h : Reached g w s) : Completable g s := by
  cases h with
  | clause => exact .cons (.binding "a") occurs_letter (ClauseEnd.binding "a").completable
  | afterBinding b => exact (ClauseEnd.binding b).completable
  | group b => exact .cons (.star (.group b)) occurs_star (completable_afterStar _)
  | entry =>
    exact .cons (.name _ _ _ "a") occurs_letter (EntryEnd.name _ _ "a").completable
  | @afterName _ _ b? es _ name _ _ _ hname =>
    rcases hname with _ | ⟨hg, _⟩
    · exact (EntryEnd.name b? _ name).completable
    · exact .cons (.nameAs b? _ name _ hg) occurs_asWord (completable_afterAs b? _ name)
  | afterAs => exact completable_afterAs _ _ _
  | afterEntry => exact (EntryEnd.entry _ _).completable
  | afterStar => exact completable_afterStar _
  | afterStarAs => exact completable_afterStarAs _
  | afterClause => exact (ClauseEnd.clause _).completable
  | source => exact completable_source _

end Stage

namespace ReadingState

variable {g : ImportGrammar} {state final : ReadingState} {ts : List Token} {rs : List Recognized}

/-- Terminals that end a declaration lead back to between declarations. -/
theorem passes_of_ends {s : Stage} {w : List Terminal} (place : Nat) (h : Stage.Ends g s w)
    (ht : ts.map Token.terminal = w) :
    ∃ ended, Passes g (.within place s) ts [] (.between ended) := by
  induction h generalizing ts with
  | @last _ _ rs ha =>
    obtain ⟨t, rfl, rfl⟩ := List.map_eq_singleton_iff.1 ht
    have hnext := Stage.next_of_arrow ha
    exact ⟨rs.map (⟨place, ·⟩), .single (by simp only [ReadingState.next, hnext])⟩
  | cons ha _ ih =>
    obtain ⟨t, ts, rfl, rfl, hts⟩ := List.map_eq_cons_iff.1 ht
    have hnext := Stage.next_of_arrow ha
    obtain ⟨ended, hp⟩ := ih hts
    exact ⟨ended, .cons (by simp only [ReadingState.next, hnext]) hp⟩

theorem Seen.reached {w : List Terminal} {R : List ImportRecord} {place : Nat} {s : Stage}
    (h : Seen g w R (.within place s)) : ∃ v, s.Reached g v := by
  cases h with | within _ _ hstage => exact ⟨_, hstage⟩

/-- **From wherever reading leads**, some lexemes lead back to between declarations. -/
theorem Passes.exists_ending (h : Passes g (.between []) ts rs final) :
    ∃ ls : List Lexeme, (∀ l ∈ ls, Writable l.content) ∧
      ∃ ss ended, Passes g final (ls.map (Lexeme.toToken 0)) ss (.between ended) := by
  have hseen : Seen g [] [] (.between []) := .between .nil
  rcases final with ended | ⟨place, stage⟩
  · exact ⟨[], nofun, [], ended, .nil _⟩
  · obtain ⟨v, hstage⟩ := (hseen.passes h).reached
    obtain ⟨ls, hends, hls⟩ := hstage.completable
    obtain ⟨ended, hp⟩ := passes_of_ends place hends
      (List.map_map (f := Lexeme.toToken 0) (g := Token.terminal))
    exact ⟨ls, hls, [], ended, hp⟩

end ReadingState

/-! ## Fronts of texts -/

/-- The tokens of a text begin with these, as far as kinds and values go. -/
def SourceText.StartsWith (source : SourceText) (options : ScanOptions) (ts : List Token) : Prop :=
  ts.map Token.content <+: (source.scan options).tokens.map Token.content

/-- **Some text without faults** starts with these tokens. -/
def Viable (options : ImportOptions) (ts : List Token) : Prop :=
  ∃ (source : SourceText) (records : List ImportRecord),
    source.StartsWith options.scanOptions ts ∧ source.imports options = .ok records

theorem Token.describe_of_content {t u : Token} (h : t.content = u.content) :
    t.describe = u.describe := by
  have hdescribe : ∀ t : Token, t.describe = Token.describe ⟨t.content.1, t.content.2, .empty 0⟩ :=
    fun _ => rfl
  rw [hdescribe t, h, ← hdescribe u]

/-- The terminal with this kind and value. -/
def Terminal.ofContent (k : TokenKind × TokenValue) : Terminal :=
  Token.terminal ⟨k.1, k.2, .empty 0⟩

theorem Token.map_ofContent (ts : List Token) :
    (ts.map Token.content).map Terminal.ofContent = ts.map Token.terminal := List.map_map

theorem Lexeme.map_ofContent (ls : List Lexeme) :
    (ls.map Lexeme.content).map Terminal.ofContent = ls.map Lexeme.terminal := List.map_map

theorem Token.map_terminal_of_content {ts us : List Token}
    (h : ts.map Token.content = us.map Token.content) :
    ts.map Token.terminal = us.map Token.terminal := by
  rw [← map_ofContent, h, map_ofContent]

/-- **What reading passes is the front of a text without faults.** -/
theorem viable_of_passes {options : ImportOptions} {ts : List Token} {rs : List Recognized}
    {final : ReadingState} (hts : ∀ t ∈ ts, Writable t.content)
    (hp : ReadingState.Passes options.grammar (.between []) ts rs final) : Viable options ts := by
  obtain ⟨ls, hls, ss, ended, hend⟩ := hp.exists_ending
  have hks : ∀ k ∈ ts.map Token.content ++ ls.map Lexeme.content, Writable k :=
    List.forall_mem_append.2 ⟨List.forall_mem_map.2 hts, List.forall_mem_map.2 hls⟩
  obtain ⟨source, us, hscan, hus⟩ := exists_scan_eq hks options.scanOptions
  have hterminals : (ts ++ ls.map (Lexeme.toToken 0)).map Token.terminal = us.map Token.terminal :=
    Token.map_terminal_of_content (by rw [hus, List.map_append, List.map_map]; rfl)
  obtain ⟨rs', final', hp', hfinal, -⟩ := (hp.append hend).alike (.between rfl) hterminals
  obtain ⟨hrs⟩ := hfinal
  have htokens : (source.scan options.scanOptions).tokens = us := by rw [hscan]
  rw [← htokens] at hp' hus
  have hok := (source.imports_eq_ok_iff options _).2 ⟨by rw [hscan], rs', _, hp', rfl⟩
  exact ⟨source, _, ⟨_, hus.symm⟩, hok⟩

/-! ## Where an error is -/

namespace SourceText

variable {source : SourceText} {options : ImportOptions} {before after : List Token} {t : Token}
  {rs : List Recognized} {final : ReadingState}

/-- All tokens are passed: the end of the tokens decides. -/
theorem imports_eq_of_passes (hp : ReadingState.Passes options.grammar (.between [])
      (source.scan options.scanOptions).tokens rs final) :
    source.imports options = ((final.finishOr options.grammar
      (source.scan options.scanOptions).failure source.length).prepend rs).records := by
  rw [imports, Recognition.of_eq, Scan.recognition,
    ← (source.scan options.scanOptions).tokens.append_nil, ReadingState.read_of_passes hp]
  rfl

/-- **A token is refused**: that is the error, whatever follows. -/
theorem imports_eq_of_refused
    (htokens : (source.scan options.scanOptions).tokens = before ++ t :: after)
    (hp : ReadingState.Passes options.grammar (.between []) before rs final)
    (ht : final.next options.grammar t = none) : source.imports options =
      .error (.syntactic ⟨final.expected options.grammar, t.describe, t.span⟩) := by
  rw [imports, Recognition.of_eq, Scan.recognition, htokens, ReadingState.read_of_passes hp,
    ReadingState.read_of_refused ht]
  rfl

/-- A token of a text is known by its span. -/
theorem eq_of_span_eq {u : Token} {before' after' : List Token}
    (htokens : (source.scan options.scanOptions).tokens = before ++ t :: after)
    (htokens' : (source.scan options.scanOptions).tokens = before' ++ u :: after')
    (hspan : t.span = u.span) : before = before' ∧ t = u := by
  have hpair := (source.laid_scan options.scanOptions).pairwise
  rw [htokens] at hpair
  obtain ⟨-, htail, hcross⟩ := List.pairwise_append.1 hpair
  have hbefore : u ∉ before := by
    intro hu
    have hlt := (hcross u hu t List.mem_cons_self).1
    rw [hspan] at hlt
    exact hlt.false
  have hafter : u ∉ after := by
    intro hu
    have hlt := ((List.pairwise_cons.1 htail).1 u hu).1
    rw [hspan] at hlt
    exact hlt.false
  have hsplit := (List.append_cons_inj_of_notMem hbefore hafter).1 (htokens.symm.trans htokens')
  exact ⟨hsplit.1, hsplit.2.1⟩

/-- No token stands where the text ends. -/
theorem span_ne_empty (ht : t ∈ (source.scan options.scanOptions).tokens) :
    t.span ≠ .empty source.length := by
  intro hspan
  have hlt := ((source.laid_scan options.scanOptions).faithfulTo t ht).nonempty
  rw [hspan] at hlt
  exact absurd hlt (by simp [Span.empty, Span.stop])

/-- **What an error of reading can be**: the lexical error that ended the scan, the end of a text
within a declaration, or a token that is refused. -/
theorem imports_eq_error_cases {e : ImportError} (h : source.imports options = .error e) :
    (∃ rs final, ReadingState.Passes options.grammar (.between [])
        (source.scan options.scanOptions).tokens rs final ∧
      ((∃ e', (source.scan options.scanOptions).failure = some e' ∧ e = .lexical e') ∨
        (source.scan options.scanOptions).failure = none ∧ e = .syntactic
          ⟨final.expected options.grammar, "end of input", .empty source.length⟩)) ∨
    ∃ before t after rs final,
      (source.scan options.scanOptions).tokens = before ++ t :: after ∧
      ReadingState.Passes options.grammar (.between []) before rs final ∧
      final.next options.grammar t = none ∧
      e = .syntactic ⟨final.expected options.grammar, t.describe, t.span⟩ := by
  rcases ReadingState.passes_or_refused options.grammar (.between [])
    (source.scan options.scanOptions).tokens with ⟨rs, final, hp⟩ |
    ⟨before, t, after, rs, final, htokens, hp, ht⟩
  · refine .inl ⟨rs, final, hp, ?_⟩
    rw [imports_eq_of_passes hp] at h
    rcases hfailure : (source.scan options.scanOptions).failure with _ | e'
    · rw [hfailure] at h
      rcases final with ended | ⟨place, stage⟩
      · simp [ReadingState.finishOr, ReadingState.finish, Recognition.records,
          Recognition.prepend] at h
      · exact .inr ⟨rfl, (Except.error.inj h).symm⟩
    · rw [hfailure] at h
      exact .inl ⟨e', rfl, (Except.error.inj h).symm⟩
  · rw [imports_eq_of_refused htokens hp ht] at h
    exact .inr ⟨before, t, after, rs, final, htokens, hp, ht, (Except.error.inj h).symm⟩

/-! ## Errors come early -/

/-- A text that starts with a walk and a token that is refused after it has the same error. -/
theorem StartsWith.refused {other : SourceText}
    (h : other.StartsWith options.scanOptions (before ++ [t]))
    (hp : ReadingState.Passes options.grammar (.between []) before rs final)
    (ht : final.next options.grammar t = none) :
    ∃ e', other.imports options = .error (.syntactic e') ∧
      e'.expected = final.expected options.grammar ∧ e'.found = t.describe := by
  obtain ⟨ks, hks⟩ := h
  obtain ⟨us, after, htokens, hus, -⟩ := List.map_eq_append_iff.1 hks.symm
  rw [List.map_append] at hus
  obtain ⟨us, vs, rfl, hbefore, hvs⟩ := List.map_eq_append_iff.1 hus
  obtain ⟨v, rfl, hv⟩ := List.map_eq_singleton_iff.1 hvs
  rw [List.append_assoc] at htokens
  have hterminals := Token.map_terminal_of_content hbefore.symm
  obtain ⟨ss, final', hp', halike, -⟩ := hp.alike (.between rfl) hterminals
  have hcontent : [t].map Token.content = [v].map Token.content := by
    rw [List.map_singleton, List.map_singleton, hv]
  have hterminal := List.singleton_inj.1 (Token.map_terminal_of_content hcontent)
  have hrefused := halike.next_eq_none hterminal ht
  exact ⟨_, imports_eq_of_refused htokens hp' hrefused, (halike.expected _).symm,
    Token.describe_of_content hv⟩

/-- **An error at a token**: nothing can come after the tokens up to there that would make the text
right, and something can if that token is left away. -/
theorem refused_of_span_eq {e : SyntaxError} (h : source.imports options = .error (.syntactic e))
    (htokens : (source.scan options.scanOptions).tokens = before ++ t :: after)
    (hspan : e.span = t.span) :
    (∀ other : SourceText, other.StartsWith options.scanOptions (before ++ [t]) →
      ∃ e', other.imports options = .error (.syntactic e') ∧ e'.expected = e.expected ∧
        e'.found = e.found) ∧
    Viable options before := by
  rcases imports_eq_error_cases h with ⟨rs, final, hp, ⟨e', -, he⟩ | ⟨-, he⟩⟩ |
    ⟨before', u, after', rs, final, htokens', hp, hu, he⟩
  · simp at he
  · obtain rfl := ImportError.syntactic.inj he
    exact absurd hspan.symm (span_ne_empty (htokens ▸ List.mem_append_right _ List.mem_cons_self))
  · obtain rfl := ImportError.syntactic.inj he
    obtain ⟨rfl, rfl⟩ := eq_of_span_eq htokens htokens' hspan.symm
    refine ⟨fun other hother => ?_, viable_of_passes (fun t ht => ?_) hp⟩
    · exact hother.refused hp hu
    · exact Token.writable_of_mem_scan (htokens ▸ List.mem_append_left _ ht)

/-- **An error at the end of the text**: the text has no lexical fault, and something can come after
it that makes it right. -/
theorem viable_of_span_eq_empty {e : SyntaxError}
    (h : source.imports options = .error (.syntactic e)) (hspan : e.span = .empty source.length) :
    (source.scan options.scanOptions).failure = none ∧
      Viable options (source.scan options.scanOptions).tokens := by
  rcases imports_eq_error_cases h with ⟨rs, final, hp, ⟨e', -, he⟩ | ⟨hfailure, -⟩⟩ |
    ⟨before, u, after, rs, final, htokens, -, -, he⟩
  · simp at he
  · exact ⟨hfailure, viable_of_passes (fun t ht => Token.writable_of_mem_scan ht) hp⟩
  · obtain rfl := ImportError.syntactic.inj he
    exact absurd hspan (span_ne_empty (htokens ▸ List.mem_append_right _ List.mem_cons_self))

/-- **A lexical error** is the one of the scan, and all tokens before it are passed. -/
theorem viable_of_lexical {e : LexicalError} (h : source.imports options = .error (.lexical e)) :
    (source.scan options.scanOptions).failure = some e ∧
      Viable options (source.scan options.scanOptions).tokens := by
  rcases imports_eq_error_cases h with ⟨rs, final, hp, ⟨e', hfailure, he⟩ | ⟨-, he⟩⟩ |
    ⟨before, u, after, rs, final, -, -, -, he⟩
  · obtain rfl := ImportError.lexical.inj he
    exact ⟨hfailure, viable_of_passes (fun t ht => Token.writable_of_mem_scan ht) hp⟩
  · simp at he
  · simp at he

/-- There is no other place for a missing token than a token and the end of the text. -/
theorem span_of_syntactic {e : SyntaxError} (h : source.imports options = .error (.syntactic e)) :
    (∃ t ∈ (source.scan options.scanOptions).tokens, e.span = t.span ∧ e.found = t.describe) ∨
      e.span = .empty source.length ∧ e.found = "end of input" := by
  rcases imports_eq_error_cases h with ⟨rs, final, hp, ⟨e', -, he⟩ | ⟨-, he⟩⟩ |
    ⟨before, t, after, rs, final, htokens, -, -, he⟩
  · simp at he
  · obtain rfl := ImportError.syntactic.inj he
    exact .inr ⟨rfl, rfl⟩
  · obtain rfl := ImportError.syntactic.inj he
    exact .inl ⟨t, htokens ▸ List.mem_append_right _ List.mem_cons_self, rfl, rfl⟩

/-- **Errors are reported at the earliest place.**  A token that is missing is told by the first
token after which no text is right, or else at the end of the text; and a lexical error counts only
if no token before it is out of place. -/
theorem imports_eq_error_earliest (source : SourceText) (options : ImportOptions) :
    (∀ e, source.imports options = .error (.syntactic e) →
      (∃ t ∈ (source.scan options.scanOptions).tokens, e.span = t.span ∧ e.found = t.describe) ∨
        e.span = .empty source.length ∧ e.found = "end of input") ∧
    (∀ e before t after, source.imports options = .error (.syntactic e) →
      (source.scan options.scanOptions).tokens = before ++ t :: after → e.span = t.span →
      (∀ other : SourceText, other.StartsWith options.scanOptions (before ++ [t]) →
        ∃ e', other.imports options = .error (.syntactic e') ∧ e'.expected = e.expected ∧
          e'.found = e.found) ∧
      Viable options before) ∧
    (∀ e, source.imports options = .error (.syntactic e) → e.span = .empty source.length →
      (source.scan options.scanOptions).failure = none ∧
        Viable options (source.scan options.scanOptions).tokens) ∧
    ∀ e, source.imports options = .error (.lexical e) →
      (source.scan options.scanOptions).failure = some e ∧
        Viable options (source.scan options.scanOptions).tokens :=
  ⟨fun _ h => span_of_syntactic h,
    fun _ _ _ _ h htokens hspan => refused_of_span_eq h htokens hspan,
    fun _ h hspan => viable_of_span_eq_empty h hspan,
    fun _ h => viable_of_lexical h⟩

/-- In `import a b`, no text is right that starts like this, but one is that starts with
`import a`. -/
theorem imports_eq_error_of_missing_from :
    (∀ other : SourceText, other.StartsWith ⟨false⟩ [⟨.keyword, .text "import", ⟨0, 6⟩⟩,
        ⟨.identifier, .text "a", ⟨7, 1⟩⟩, ⟨.identifier, .text "b", ⟨9, 1⟩⟩] →
      ∃ e, other.imports ⟨.full, false⟩ = .error (.syntactic e) ∧
        e.expected = "identifier 'from'" ∧ e.found = "identifier 'b'") ∧
    Viable ⟨.full, false⟩ [⟨.keyword, .text "import", ⟨0, 6⟩⟩,
      ⟨.identifier, .text "a", ⟨7, 1⟩⟩] := by
  have herror : (SourceText.ofString "import a b").imports ⟨.full, false⟩ =
      .error (.syntactic ⟨"identifier 'from'", "identifier 'b'", ⟨9, 1⟩⟩) := by decide +kernel
  have htokens : ((SourceText.ofString "import a b").scan ⟨false⟩).tokens =
      [⟨.keyword, .text "import", ⟨0, 6⟩⟩, ⟨.identifier, .text "a", ⟨7, 1⟩⟩] ++
        [⟨.identifier, .text "b", ⟨9, 1⟩⟩] := by decide +kernel
  exact (imports_eq_error_earliest _ ⟨.full, false⟩).2.1 _ _ _ _ herror htokens rfl

end SourceText

end ModuleImports
