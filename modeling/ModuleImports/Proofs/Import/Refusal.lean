import ModuleImports.Proofs.Diagnostic.Wording
import ModuleImports.Proofs.Import.Viability

/-!
# Proofs/Import/Refusal — what a syntax error says is in the text

A syntax error is about a token of the text or about its end, and its message names that as it is
(`SourceText.imports_eq_syntactic_describes`).  Of all that a message names, only the requirement
comes first, and the requirements are few and fixed (`Stage.requirements`): none of them brings a
hole for what was found.

A stage looks at the kind of a token and then at its text.  Every kind that a stage can go on with
is one whose tokens have a text (`Stage.Takes.exists_text`), so no token is refused for want of one.
-/

namespace ModuleImports

namespace Stage

variable {g : ImportGrammar} {s : Stage} {x : Terminal} {m : Move} {kind : TokenKind}

/-! ## What can be required -/

/-- All that a message can say could have come next. -/
def requirements : List String :=
  [r"identifier, '{', '*' or string literal", r"identifier, '{' or '*'", r"'{' or '*'",
    "identifier or string literal", r"',' or '}'", "identifier", "string literal",
    "identifier 'as'", "identifier 'from'"]

theorem expected_mem_requirements (g : ImportGrammar) (s : Stage) :
    s.expected g ∈ requirements := by
  cases s with
  | clause | entry => cases g <;> rw [expected] <;> decide
  | afterName _ _ _ complete => cases complete <;> rw [expected] <;> decide
  | _ => rw [expected]; decide

/-- **No requirement brings a hole** into the message. -/
theorem not_hole_infix_expected (g : ImportGrammar) (s : Stage) :
    ¬Template.hole 1 <:+: (s.expected g).toList ++ " but found ".toList := by
  have hall : ∀ requirement ∈ requirements,
      ¬Template.hole 1 <:+: requirement.toList ++ " but found ".toList := by decide +kernel
  exact hall _ (expected_mem_requirements g s)

/-! ## Tokens that can come have a text -/

/-- **Some token of a kind can come** at a stage, by its text. -/
def Takes (g : ImportGrammar) (s : Stage) (kind : TokenKind) : Prop :=
  ∃ text, s.next g ⟨kind, .text text, .empty 0⟩ ≠ .refuse

/-- A declaration has no numbers in it. -/
theorem Arrow.kind_ne_numericLiteral (h : Arrow g s x m) : x.kind ≠ .numericLiteral := by
  cases h with
  | reservedName _ _ _ _ hname => cases hname <;> exact nofun
  | expression _ hmark => cases hmark <;> exact nofun
  | _ => exact nofun

/-- **A token of a text has a text of its own** if its kind can come at any stage. -/
theorem Takes.exists_text {source : SourceText} {options : ScanOptions} {t : Token}
    (h : s.Takes g kind) (ht : t ∈ (source.scan options).tokens) (hkind : t.kind = kind) :
    ∃ text, t.ofKind? kind = some text := by
  obtain ⟨text, hnext⟩ := h
  have hnumber : kind ≠ .numericLiteral := (arrow_of_next rfl hnext).kind_ne_numericLiteral
  subst hkind
  rw [Token.ofKind?, if_pos rfl]
  exact ((source.laid_scan options).faithfulTo t ht).exists_text hnumber

end Stage

theorem ReadingState.not_hole_infix_expected (g : ImportGrammar) (state : ReadingState) :
    ¬Template.hole 1 <:+: (state.expected g).toList ++ " but found ".toList := by
  have hnothing : ¬Template.hole 1 <:+: "".toList ++ " but found ".toList := by decide +kernel
  cases state with
  | between => exact hnothing
  | within _ stage => exact stage.not_hole_infix_expected g

namespace SourceText

/-- **Every syntax error describes what is in the text.**  What it has found is a token of the text
and stands under its span, or the text has no lexical fault and it has found the end.  The message
says what was required and what is found, as they are, whatever braces the token has in it.  And
where a kind of token can come, every token of that kind comes with a text. -/
theorem imports_eq_syntactic_describes (source : SourceText) (options : ImportOptions) :
    (∀ e, source.imports options = .error (.syntactic e) →
      ((source.scan options.scanOptions).failure = none ∧ e.found = "end of input" ∧
          e.span = .empty source.length ∨
        ∃ t ∈ (source.scan options.scanOptions).tokens, t.span = e.span ∧ t.describe = e.found) ∧
      e.text = "Expected " ++ e.expected ++ " but found " ++ e.found ++ ".") ∧
    ∀ (s : Stage) (kind : TokenKind), s.Takes options.grammar kind →
      ∀ t ∈ (source.scan options.scanOptions).tokens, t.kind = kind →
        ∃ text, t.ofKind? kind = some text := by
  refine ⟨fun e h => ?_, fun s kind htakes t ht hkind => htakes.exists_text ht hkind⟩
  rcases imports_eq_error_cases h with ⟨rs, final, hp, ⟨e', -, he⟩ | ⟨hfailure, he⟩⟩ |
    ⟨before, t, after, rs, final, htokens, -, -, he⟩
  · simp at he
  · obtain rfl := ImportError.syntactic.inj he
    exact ⟨.inl ⟨hfailure, rfl, rfl⟩, SyntaxError.text_eq _ (final.not_hole_infix_expected _)⟩
  · obtain rfl := ImportError.syntactic.inj he
    have ht : t ∈ (source.scan options.scanOptions).tokens :=
      htokens ▸ List.mem_append_right _ List.mem_cons_self
    exact ⟨.inr ⟨t, ht, rfl, rfl⟩, SyntaxError.text_eq _ (final.not_hole_infix_expected _)⟩

/-- The string that stands where `from` should has the spelling of both holes in it. -/
theorem imports_eq_syntactic_of_braces :
    (ofString "import a '{1}{0}'").imports ⟨.full, false⟩ = .error (.syntactic
      ⟨"identifier 'from'", "string literal '{1}{0}'", ⟨9, 8⟩⟩) ∧
    (⟨"identifier 'from'", "string literal '{1}{0}'", ⟨9, 8⟩⟩ : SyntaxError).text =
      "Expected identifier 'from' but found string literal '{1}{0}'." ∧
    ∃ text, (⟨.stringLiteral, .text "{1}{0}", ⟨9, 8⟩⟩ : Token).ofKind? .stringLiteral =
      some text := by
  have herror : (ofString "import a '{1}{0}'").imports ⟨.full, false⟩ =
      .error (.syntactic
        ⟨"identifier 'from'", "string literal '{1}{0}'", ⟨9, 8⟩⟩) := by decide +kernel
  have htoken : ⟨.stringLiteral, .text "{1}{0}", ⟨9, 8⟩⟩ ∈
      ((ofString "import a '{1}{0}'").scan ⟨false⟩).tokens := by decide +kernel
  have htakes : Stage.clause.Takes .full .stringLiteral := ⟨"", by decide⟩
  obtain ⟨hdescribes, htext⟩ :=
    imports_eq_syntactic_describes (ofString "import a '{1}{0}'") ⟨.full, false⟩
  exact ⟨herror, (hdescribes _ herror).2, htext _ _ htakes _ htoken rfl⟩

end SourceText

end ModuleImports
