import Mathlib.Data.List.Forall2
import ModuleImports.Proofs.Token.Account
import ModuleImports.Proofs.Token.Piecewise

/-!
# Proofs/Token/Layout — texts with given tokens

Lexemes that are written down with blanks between them are the tokens of the text they make,
whatever the blanks are and whether or not comments count as blanks (`scanFrom_layout`): a blank
after a lexeme ends it, and keeps it from starting a comment with the next one.

Every token of a text is such a lexeme (`SourceText.exists_written`).  So the words of a text keep
their tokens in any layout (`SourceText.scan_relaid`), and any of them in any order are the tokens
of some text (`exists_scan_eq`).
-/

namespace ModuleImports

/-- All of a token but its place. -/
def Token.content (t : Token) : TokenKind × TokenValue := (t.kind, t.value)

/-- All of a lexeme but its length. -/
def Lexeme.content (l : Lexeme) : TokenKind × TokenValue := (l.kind, l.value)

/-- Words with a gap after each, and something in front of the first. -/
def layout (lead : List Char) : List (List Char) → List (List Char) → List Char
  | w :: ws, gap :: gaps => lead ++ (w ++ layout gap ws gaps)
  | _, _ => lead

/-- **Blanks around words**: in front of the first and after each, at least one between any two. -/
structure Spacing (lead : List Char) (gaps : List (List Char)) (words : Nat) : Prop where
  length_eq : gaps.length = words
  blank_of_mem_lead : ∀ c ∈ lead, c ∈ Trivia.blanks
  blank_of_mem : ∀ gap ∈ gaps, ∀ c ∈ gap, c ∈ Trivia.blanks
  between : ∀ gap ∈ gaps.dropLast, gap ≠ []

/-- **Some lexeme** has this kind and value. -/
def Writable (k : TokenKind × TokenValue) : Prop := ∃ w l, Lexeme.Written w l ∧ l.content = k

/-- The words of a text: its tokens as they are written. -/
def SourceText.words (source : SourceText) (options : ScanOptions) : List (List Char) :=
  (source.scan options).tokens.map fun t => source.slice t.span.start t.span.stop

/-- **A text in another layout**: the same words with other gaps around them. -/
def SourceText.relaid (source : SourceText) (options : ScanOptions) (lead : List Char)
    (gaps : List (List Char)) : SourceText := ⟨layout lead (source.words options) gaps⟩

variable {comments : Bool} {lead gap : List Char} {gaps ws : List (List Char)} {ls : List Lexeme}
  {n : Nat}

/-! ## Spacings -/

namespace Spacing

/-- Behind the first word, the gap after it comes first. -/
theorem tail (h : Spacing lead (gap :: gaps) (n + 1)) : Spacing gap gaps n where
  length_eq := Nat.succ.inj h.length_eq
  blank_of_mem_lead := h.blank_of_mem gap List.mem_cons_self
  blank_of_mem g hg := h.blank_of_mem g (List.mem_cons_of_mem _ hg)
  between g hg := by
    have hne : gaps ≠ [] := by
      rintro rfl
      simp at hg
    exact h.between g (List.dropLast_cons_of_ne_nil hne ▸ List.mem_cons_of_mem _ hg)

/-- **A blank follows every word**, unless the text ends with it. -/
theorem separates (h : Spacing lead (gap :: gaps) (ws.length + 1)) :
    Separates (layout gap ws gaps) := by
  intro c hc
  rw [Trivia.isBlank_iff]
  rcases gap with _ | ⟨d, gap⟩
  · have hnil : gaps = [] := by
      by_contra hne
      exact h.between [] (List.dropLast_cons_of_ne_nil hne ▸ List.mem_cons_self) rfl
    have hlen := h.tail.length_eq
    subst hnil
    obtain rfl := List.eq_nil_of_length_eq_zero hlen.symm
    simp [layout] at hc
  · have hhead : (layout (d :: gap) ws gaps).head? = some d := by
      rw [layout.eq_def]
      split <;> rfl
    obtain rfl := Option.some.inj (hhead.symm.trans hc)
    exact h.blank_of_mem _ List.mem_cons_self d List.mem_cons_self

/-- One blank after every word. -/
theorem replicate (n : Nat) : Spacing [] (List.replicate n [' ']) n where
  length_eq := List.length_replicate
  blank_of_mem_lead := nofun
  blank_of_mem gap hgap := by
    rw [List.eq_of_mem_replicate hgap]
    exact List.forall_mem_singleton.2 List.mem_cons_self
  between gap hgap := by
    rw [List.eq_of_mem_replicate (List.dropLast_subset _ hgap)]
    exact List.cons_ne_nil _ _

end Spacing

/-! ## The tokens of a layout -/

/-- **A layout has the tokens that are laid out**, each where its word is, and no fault. -/
theorem scanFrom_layout (h : List.Forall₂ Lexeme.Written ws ls) (hs : Spacing lead gaps ws.length)
    (comments : Bool) (place : Nat) :
    ∃ us, scanFrom comments place (layout lead ws gaps) = ⟨us, none⟩ ∧
      us.map Token.content = ls.map Lexeme.content ∧ ∀ i w, ws[i]? = some w →
        us[i]?.map Token.span =
          some ⟨place + (layout lead (ws.take i) (gaps.take i)).length, w.length⟩ := by
  induction h generalizing lead gaps place with
  | nil =>
    obtain rfl := List.eq_nil_of_length_eq_zero hs.length_eq
    have hgap : Trivia.Gap comments [] lead := Trivia.gap_of_blanks hs.blank_of_mem_lead []
    have hscan := scanFrom_gap_append place hgap
    rw [List.append_nil, scanFrom_nil] at hscan
    exact ⟨[], hscan, rfl, by simp⟩
  | @cons w l ws ls hw _ ih =>
    obtain ⟨gap, gaps, rfl⟩ := List.exists_cons_of_length_eq_add_one hs.length_eq
    obtain ⟨us, hscan, hcontent, hspan⟩ := ih hs.tail (place + lead.length + l.length)
    have hgap : Trivia.Gap comments (w ++ layout gap ws gaps) lead :=
      Trivia.gap_of_blanks hs.blank_of_mem_lead _
    refine ⟨l.toToken (place + lead.length) :: us, ?_, congrArg (l.content :: ·) hcontent, ?_⟩
    · rw [layout, scanFrom_gap_append place hgap, scanFrom_written _ hw hs.separates, hscan]
      rfl
    · rintro (_ | i) v hv
      · obtain rfl := Option.some.inj hv
        rw [hw.length_eq]
        rfl
      · rw [List.getElem?_cons_succ, hspan i v hv]
        simp [layout, hw.length_eq, Nat.add_assoc]

/-! ## Tokens written again -/

/-- **The words of a text are written lexemes**, with the kinds and values of its tokens. -/
theorem SourceText.exists_written (source : SourceText) (options : ScanOptions) :
    ∃ ls, List.Forall₂ Lexeme.Written (source.words options) ls ∧
      ls.map Lexeme.content = (source.scan options).tokens.map Token.content := by
  refine ⟨(source.scan options).tokens.map fun t => ⟨t.kind, t.value, t.span.length⟩, ?_, ?_⟩
  · rw [words, List.forall₂_map_left_iff, List.forall₂_map_right_iff, List.forall₂_same]
    intro t ht
    obtain ⟨l, hw, hl⟩ := (source.laid_scan options).spells t ht
    rw [hl] at hw ⊢
    exact hw
  · rw [List.map_map]
    rfl

/-- **Tokens do not depend on layout**, nor on what counts as a comment. -/
theorem SourceText.scan_relaid {source : SourceText} {options : ScanOptions}
    (hs : Spacing lead gaps (source.scan options).tokens.length) (options' : ScanOptions) :
    ∃ us, (source.relaid options lead gaps).scan options' = ⟨us, none⟩ ∧
      us.map Token.content = (source.scan options).tokens.map Token.content ∧
      ∀ i w, (source.words options)[i]? = some w → us[i]?.map Token.span =
        some ⟨(layout lead ((source.words options).take i) (gaps.take i)).length, w.length⟩ := by
  obtain ⟨ls, hws, hls⟩ := source.exists_written options
  have hs' : Spacing lead gaps (source.words options).length := by rwa [words, List.length_map]
  obtain ⟨us, hscan, hcontent, hspan⟩ := scanFrom_layout hws hs' options'.skipComments 0
  exact ⟨us, hscan, hcontent.trans hls, by simpa using hspan⟩

/-- Every token of a text can be written again. -/
theorem Token.writable_of_mem_scan {source : SourceText} {options : ScanOptions} {t : Token}
    (h : t ∈ (source.scan options).tokens) : Writable t.content := by
  obtain ⟨l, hw, ht⟩ := (source.laid_scan options).spells t h
  exact ⟨_, l, hw, by rw [ht]; rfl⟩

/-- **Whatever can be written** is the tokens of some text without a lexical fault. -/
theorem exists_scan_eq {ks : List (TokenKind × TokenValue)} (h : ∀ k ∈ ks, Writable k)
    (options : ScanOptions) : ∃ (source : SourceText) (ts : List Token),
      source.scan options = ⟨ts, none⟩ ∧ ts.map Token.content = ks := by
  obtain ⟨ws, ls, hws, rfl⟩ : ∃ ws ls, List.Forall₂ Lexeme.Written ws ls ∧
      ls.map Lexeme.content = ks := by
    induction ks with
    | nil => exact ⟨[], [], .nil, rfl⟩
    | cons k ks ih =>
      obtain ⟨w, l, hw, hl⟩ := h k List.mem_cons_self
      obtain ⟨ws, ls, hws, hls⟩ := ih fun k hk => h k (List.mem_cons_of_mem _ hk)
      exact ⟨w :: ws, l :: ls, .cons hw hws, by rw [List.map_cons, hl, hls]⟩
  obtain ⟨ts, hscan, hcontent, -⟩ :=
    scanFrom_layout hws (.replicate ws.length) options.skipComments 0
  exact ⟨⟨layout [] ws (List.replicate ws.length [' '])⟩, ts, hscan, hcontent⟩

end ModuleImports
