import ModuleImports.Proofs.Lexeme.Upcoming
import ModuleImports.Proofs.Text.Slice
import ModuleImports.Token.Scanner

/-!
# Proofs/Token/Account — every character of a text is accounted for

The calls of a scanner lay tokens along its text: a gap, a token as it is written, the next gap, and
so on (`SourceText.Laid`).  One call adds at most one token to the row (`Accounted.succ`), so any
number of calls keeps it a row (`accounted`), and `Scanner.accounts_for` reads off what a row says
of the spans, the gaps between them and the texts of its tokens.
-/

namespace ModuleImports

variable {source : SourceText} {comments : Bool} {place : Nat} {ts : List Token} {t : Token}
  {c : Char} {cs : List Char}

/-! ## Rows of tokens -/

namespace SourceText

/-- **Only trivia stand between two places.** -/
def Gap (source : SourceText) (comments : Bool) (a b : Nat) : Prop :=
  a ≤ b ∧ b ≤ source.length ∧ Trivia.Gap comments (source.chars.drop b) (source.slice a b)

/-- **A token stands written under its span.** -/
def Spells (source : SourceText) (t : Token) : Prop :=
  ∃ l, Lexeme.Written (source.slice t.span.start t.span.stop) l ∧ t = l.toToken t.span.start

/-- **Tokens in a row** from the start of a text up to a place, with nothing but trivia between
them. -/
inductive Laid (source : SourceText) (comments : Bool) : List Token → Nat → Prop
  | nil : Laid source comments [] 0
  | snoc {ts : List Token} {t : Token} {a : Nat} : Laid source comments ts a →
      source.Gap comments a t.span.start → source.Spells t →
      Laid source comments (ts ++ [t]) t.span.stop

end SourceText

/-- What a token says of the text it is in. -/
structure Token.FaithfulTo (source : SourceText) (t : Token) : Prop where
  nonempty : t.span.start < t.span.stop
  inside : t.span.stop ≤ source.length
  carries : t.kind ∈ Lexeme.plainKinds →
    t.value = .text (String.ofList (source.slice t.span.start t.span.stop))
  number : (∃ x, t.value = .number x) ↔ t.kind = .numericLiteral

/-- Only a number has no text. -/
theorem Token.FaithfulTo.exists_text (h : t.FaithfulTo source) (hkind : t.kind ≠ .numericLiteral) :
    ∃ text, t.text? = some text := by
  rw [Token.text?]
  cases hvalue : t.value with
  | text text => exact ⟨text, rfl⟩
  | number x => exact absurd (h.number.1 ⟨x, hvalue⟩) hkind

/-- Where the last of some tokens ends, or the start of the text. -/
def lastStop (ts : List Token) : Nat := ts.getLast?.elim 0 (·.span.stop)

/-! ## What a row of tokens says -/

theorem lastStop_append_singleton (ts : List Token) (t : Token) :
    lastStop (ts ++ [t]) = t.span.stop := by
  simp [lastStop]

namespace SourceText

theorem Spells.faithfulTo (h : source.Spells t) : t.FaithfulTo source := by
  obtain ⟨l, hw, ht⟩ := h
  have hlen : (source.slice t.span.start t.span.stop).length = t.span.length := by
    rw [hw.length_eq, ht]
    rfl
  have hpos : 0 < t.span.length := hlen ▸ List.length_pos_iff.2 hw.ne_nil
  have hstop : t.span.stop = t.span.start + t.span.length := rfl
  rw [slice, List.length_drop, List.length_take] at hlen
  refine ⟨by omega, by rw [SourceText.length]; omega, fun hkind => ?_, ?_⟩
  · rw [ht] at hkind
    rw [← hw.value_eq hkind, ht]
    rfl
  · rw [ht]
    exact hw.number_iff

theorem Laid.lastStop_eq (h : source.Laid comments ts place) : lastStop ts = place := by
  rcases h with _ | ⟨_, _, _⟩
  · rfl
  · exact lastStop_append_singleton _ _

theorem Laid.spells (h : source.Laid comments ts place) : ∀ t ∈ ts, source.Spells t := by
  induction h with
  | nil => exact nofun
  | snoc _ _ hspells ih =>
    exact List.forall_mem_append.2 ⟨ih, List.forall_mem_singleton.2 hspells⟩

theorem Laid.faithfulTo (h : source.Laid comments ts place) : ∀ t ∈ ts, t.FaithfulTo source :=
  fun t ht => (h.spells t ht).faithfulTo

theorem Laid.stop_le (h : source.Laid comments ts place) : ∀ t ∈ ts, t.span.stop ≤ place := by
  induction h with
  | nil => exact nofun
  | snoc _ hgap hspells ih =>
    refine List.forall_mem_append.2 ⟨fun t ht => ?_, List.forall_mem_singleton.2 le_rfl⟩
    exact (ih t ht).trans (hgap.1.trans hspells.faithfulTo.nonempty.le)

theorem Laid.place_le (h : source.Laid comments ts place) : place ≤ source.length := by
  rcases h with _ | ⟨_, _, hspells⟩
  · exact Nat.zero_le _
  · exact hspells.faithfulTo.inside

/-- Tokens in a row follow each other without touching. -/
theorem Laid.pairwise (h : source.Laid comments ts place) :
    ts.Pairwise fun t u => t.span.start < u.span.start ∧ t.span.stop ≤ u.span.start := by
  induction h with
  | nil => exact .nil
  | snoc hlaid hgap _ ih =>
    refine List.pairwise_append.2 ⟨ih, List.pairwise_singleton _ _, fun t ht u hu => ?_⟩
    obtain rfl := List.mem_singleton.1 hu
    have hstop := (hlaid.stop_le t ht).trans hgap.1
    exact ⟨(hlaid.faithfulTo t ht).nonempty.trans_le hstop, hstop⟩

/-- **In front of every token of a row is a gap**, up to the token before it. -/
theorem Laid.gap (h : source.Laid comments ts place) {before after : List Token}
    (hts : ts = before ++ t :: after) :
    source.Gap comments (lastStop before) t.span.start := by
  induction h generalizing after with
  | nil => simp at hts
  | @snoc ts u a hlaid hgap hspells ih =>
    rcases List.eq_nil_or_concat' after with rfl | ⟨after, v, rfl⟩
    · obtain ⟨rfl, hu⟩ := List.append_inj' hts rfl
      obtain rfl := List.singleton_inj.1 hu
      rwa [hlaid.lastStop_eq]
    · rw [← List.cons_append, ← List.append_assoc] at hts
      exact ih (List.append_inj' hts rfl).1

end SourceText

/-! ## The calls of a scanner -/

namespace Scanner

/-- The scanner after a number of calls. -/
def after (s : Scanner) : Nat → Scanner
  | 0 => s
  | n + 1 => (s.after n).next.2

/-- The tokens that a number of calls give. -/
def given (s : Scanner) : Nat → List Token
  | 0 => []
  | n + 1 =>
    match (s.after n).next.1 with
    | .ok (some t) => s.given n ++ [t]
    | _ => s.given n

/-- What a call gives, if this is what is read at a place. -/
def resultAt (place : Nat) : Except Misread Lexeme → Except LexicalError (Option Token)
  | .ok l => .ok (some (l.toToken place))
  | .error m => .error (m.error.shift place)

theorem resultAt_eq_error_iff {result : Except Misread Lexeme} {e : LexicalError} :
    resultAt place result = .error e ↔ ∃ m, result = .error m ∧ m.error.shift place = e := by
  rcases result with m | l <;> simp [resultAt]

variable {s : Scanner}

/-- **A call that gives a token** moves over a gap and over the token. -/
theorem gap_and_spells_of_next (h : s.next.1 = .ok (some t)) :
    s.source.Gap s.options.skipComments s.place t.span.start ∧ s.source.Spells t ∧
      s.next.2.place = t.span.stop ∧ s.next.2.finished = false := by
  unfold next at h ⊢
  split at h
  · simp at h
  · next hf =>
    rw [if_neg hf]
    split at h
    · simp at h
    · simp at h
    · next n l hnext =>
      obtain rfl := Option.some.inj (Except.ok.inj h)
      simp only
      obtain ⟨gap, w, rest, hrest, rfl, hgap, hw⟩ := Next.exists_of_lexeme hnext
      rw [s.rest_eq] at hrest
      obtain ⟨hslice, hdrop⟩ := SourceText.slice_of_drop hrest
      have hword := (SourceText.slice_of_drop hdrop).1
      have hlt : s.place + gap.length < s.source.chars.length := by
        have hpos := List.length_pos_iff.2 hw.ne_nil
        have hlen := congrArg List.length hrest
        simp only [List.length_drop, List.length_append] at hlen
        omega
      rw [hw.length_eq] at hword
      refine ⟨⟨Nat.le_add_right _ _, hlt.le, ?_⟩, ⟨l, ?_, rfl⟩, ?_, rfl⟩
      · simp only [Lexeme.toToken]
        rwa [hdrop, hslice]
      · simp only [Lexeme.toToken, Span.stop]
        rwa [hword]
      · simp only [place_move, Lexeme.toToken, Span.stop, Nat.add_assoc]

/-- **Where skipping trivia stops** a call gives what is read. -/
theorem next_eq_of_skip {n : Nat} (hgoing : s.finished = false)
    (hskip : Trivia.length s.options.skipComments s.rest = .ok n)
    (hat : s.source.chars.drop (s.place + n) = c :: cs) :
    s.next.1 = resultAt (s.place + n) (Lexeme.read c cs) := by
  have hrest : s.rest.drop n = c :: cs := by rw [s.rest_eq, List.drop_drop, hat]
  unfold next Next.of
  simp only [hgoing, hskip, hrest, Bool.false_eq_true, if_false]
  rcases Lexeme.read c cs with m | l
  · simp [resultAt, Misread.shift, LexicalError.shift, Span.shift_shift]
  · simp [resultAt]

/-- **After a gap that is as long as can be** a call gives what is read there. -/
theorem next_eq_of_gap (hgoing : s.finished = false)
    (hgap : s.source.Gap s.options.skipComments s.place place)
    (hat : s.source.chars.drop place = c :: cs)
    (hno : Trivia.NoTrivia s.options.skipComments (c :: cs)) :
    s.next.1 = resultAt place (Lexeme.read c cs) := by
  obtain ⟨hle, hinside, hgap⟩ := hgap
  have hrest : s.rest = s.source.slice s.place place ++ c :: cs := by
    rw [s.rest_eq, s.source.drop_eq_slice_append hle, hat]
  have hlen : s.place + (s.source.slice s.place place).length = place := by
    rw [SourceText.length_slice hinside, Nat.add_sub_of_le hle]
  have hskip := Trivia.length_eq_ok_iff.2 ⟨_, _, hrest, rfl, hat ▸ hgap, hno⟩
  have hnext := next_eq_of_skip hgoing hskip (hlen.symm ▸ hat)
  rwa [hlen] at hnext

theorem place_add_length_rest (hplace : s.place ≤ s.source.length) :
    s.place + s.rest.length = s.source.length := by
  rw [s.rest_eq, List.length_drop]
  exact Nat.add_sub_of_le hplace

/-- **A call that finds the end** moves over a gap, and the text ends there. -/
theorem gap_of_next (h : s.next.1 = .ok none) (hf : s.finished = false)
    (hplace : s.place ≤ s.source.length) :
    s.source.Gap s.options.skipComments s.place s.source.length ∧
      s.next.2.place = s.source.length := by
  unfold next at h ⊢
  rw [hf, if_neg Bool.false_ne_true] at h ⊢
  split at h
  · next n hnext =>
    obtain ⟨hgap, rfl⟩ := Next.gap_of_done hnext
    have hend := place_add_length_rest hplace
    refine ⟨⟨hplace, le_rfl, ?_⟩, hend⟩
    rw [← hend, SourceText.slice_eq, ← s.rest_eq, List.take_length, hend, SourceText.length,
      List.drop_length]
    exact hgap
  · simp at h
  · simp at h

theorem options_next (s : Scanner) : s.next.2.options = s.options := by
  unfold next
  split
  · rfl
  · split <;> rfl

theorem place_le_next (s : Scanner) : s.place ≤ s.next.2.place := by
  unfold next
  split
  · exact le_rfl
  · split <;> exact Nat.le_add_right _ _

/-- A scanner goes on just as long as it gives tokens. -/
theorem finished_next (s : Scanner) (h : ∀ t, s.next.1 ≠ .ok (some t)) :
    s.next.2.finished = true := by
  unfold next at h ⊢
  split
  · next hf => exact hf
  · next hf =>
    rw [if_neg hf] at h
    split
    · rfl
    · rfl
    · next hnext =>
      rw [hnext] at h
      exact absurd rfl (h _)

@[simp] theorem source_after (s : Scanner) (n : Nat) : (s.after n).source = s.source := by
  induction n with
  | zero => rfl
  | succ n ih => rw [after, source_next, ih]

@[simp] theorem options_after (s : Scanner) (n : Nat) : (s.after n).options = s.options := by
  induction n with
  | zero => rfl
  | succ n ih => rw [after, options_next, ih]

/-- **What a number of calls come to**: the tokens given lie in a row, up to where the scanner
stands unless it has finished; and if it has finished without an error, a gap ends the text. -/
structure Accounted (s : Scanner) (n : Nat) : Prop where
  laid : s.source.Laid s.options.skipComments (s.given n) (lastStop (s.given n))
  place : (s.after n).finished = false → (s.after n).place = lastStop (s.given n)
  ending : (s.after n).finished = true → (∀ m < n, ∀ e, (s.after m).next.1 ≠ .error e) →
    s.source.Gap s.options.skipComments (lastStop (s.given n)) s.source.length ∧
      (s.after n).place = s.source.length

theorem accounted_zero (source : SourceText) (options : ScanOptions) :
    (start source options).Accounted 0 :=
  ⟨.nil, fun _ => rfl, fun hf => absurd hf Bool.false_ne_true⟩

/-- **One more call** keeps the account. -/
theorem Accounted.succ {n : Nat} (h : s.Accounted n) : s.Accounted (n + 1) := by
  rcases hf : (s.after n).finished
  · have hplace := h.place hf
    have hinside : (s.after n).place ≤ (s.after n).source.length := by
      rw [hplace, source_after]
      exact h.laid.place_le
    rcases hnext : (s.after n).next.1 with e | _ | t
    · have hover := finished_next (s.after n) (by simp [hnext])
      have hgiven : s.given (n + 1) = s.given n := by rw [given, hnext]
      refine ⟨hgiven ▸ h.laid, fun hgoing => ?_, fun _ hclean => ?_⟩
      · exact absurd (hgoing.symm.trans hover) Bool.false_ne_true
      · exact absurd hnext (hclean n n.lt_succ_self e)
    · have hover := finished_next (s.after n) (by simp [hnext])
      have hgiven : s.given (n + 1) = s.given n := by rw [given, hnext]
      obtain ⟨hgap, hend⟩ := gap_of_next hnext hf hinside
      rw [source_after, options_after, hplace] at hgap
      rw [source_after] at hend
      refine ⟨hgiven ▸ h.laid, fun hgoing => ?_, fun _ _ => ⟨hgiven ▸ hgap, hend⟩⟩
      exact absurd (hgoing.symm.trans hover) Bool.false_ne_true
    · have hgiven : s.given (n + 1) = s.given n ++ [t] := by rw [given, hnext]
      obtain ⟨hgap, hspells, hstop, hgoing⟩ := gap_and_spells_of_next hnext
      rw [source_after, options_after, hplace] at hgap
      rw [source_after] at hspells
      rw [← lastStop_append_singleton (s.given n) t] at hstop
      refine ⟨?_, fun _ => hgiven ▸ hstop, fun hover => ?_⟩
      · rw [hgiven, lastStop_append_singleton]
        exact .snoc h.laid hgap hspells
      · exact absurd (hgoing.symm.trans hover) Bool.false_ne_true
  · have hstay : s.after (n + 1) = s.after n := by rw [after, next_of_finished hf]
    have hgiven : s.given (n + 1) = s.given n := by rw [given, next_of_finished hf]
    refine ⟨hgiven ▸ h.laid, hgiven ▸ hstay ▸ h.place, fun hf hclean => ?_⟩
    rw [hgiven, hstay]
    exact h.ending (hstay ▸ hf) fun m hm => hclean m (hm.trans n.lt_succ_self)

/-- Any number of calls are accounted for. -/
theorem accounted (source : SourceText) (options : ScanOptions) (n : Nat) :
    (start source options).Accounted n := by
  induction n with
  | zero => exact accounted_zero source options
  | succ n ih => exact ih.succ

/-! ## All tokens of a text -/

/-- While tokens remain, every call gives one. -/
theorem remaining_tokens_after {n : Nat} (hn : n ≤ s.remaining.tokens.length) :
    s.remaining.tokens = s.given n ++ (s.after n).remaining.tokens ∧ (s.given n).length = n := by
  induction n with
  | zero => exact ⟨rfl, rfl⟩
  | succ n ih =>
    obtain ⟨htokens, hlen⟩ := ih (n.le_succ.trans hn)
    have hpos : 0 < (s.after n).remaining.tokens.length := by
      have htotal := congrArg List.length htokens
      rw [List.length_append] at htotal
      omega
    rcases hnext : (s.after n).next with ⟨e | _ | t, s'⟩
    · simp [(remaining_of_next_error hnext).1] at hpos
    · simp [(remaining_of_next_none hnext).1] at hpos
    · rw [remaining_of_next_token hnext] at htokens
      simp [given, after, hnext, htokens, hlen, Scan.prepend]

/-- **As many calls as there are tokens give them all.** -/
theorem given_length_tokens (s : Scanner) :
    s.given s.remaining.tokens.length = s.remaining.tokens := by
  obtain ⟨htokens, hlen⟩ := remaining_tokens_after (s := s) le_rfl
  have hrest := congrArg List.length htokens
  rw [List.length_append, hlen, Nat.left_eq_add] at hrest
  rw [htokens, List.eq_nil_of_length_eq_zero hrest, List.append_nil, hlen]

end Scanner

/-- The tokens of a text lie in a row. -/
theorem SourceText.laid_scan (source : SourceText) (options : ScanOptions) :
    source.Laid options.skipComments (source.scan options).tokens
      (lastStop (source.scan options).tokens) := by
  have hlaid := (Scanner.accounted source options (source.scan options).tokens.length).laid
  rw [← Scanner.remaining_start, Scanner.given_length_tokens] at hlaid
  exact hlaid

namespace Scanner

/-- **Every character is accounted for once.**  However often a scanner is called, the tokens it has
given are faithful to the text and follow each other; only trivia stand in front of each and, if the
calls have reached the end of the text without an error, after the last; and the scanner stands at
the end of the token it has just given, and at the end of the text once that is reached. -/
theorem accounts_for (source : SourceText) (options : ScanOptions) (n : Nat) :
    (∀ t ∈ ((start source options).given n), t.FaithfulTo source) ∧
    ((start source options).given n).Pairwise
      (fun t u => t.span.start < u.span.start ∧ t.span.stop ≤ u.span.start) ∧
    (∀ before t after, (start source options).given n = before ++ t :: after →
      source.Gap options.skipComments (lastStop before) t.span.start) ∧
    (∀ t, ((start source options).after n).next.1 = .ok (some t) →
      ((start source options).after (n + 1)).place = t.span.stop) ∧
    (((start source options).after n).next.1 = .ok none →
      (∀ m < n, ∀ e, ((start source options).after m).next.1 ≠ .error e) →
      source.Gap options.skipComments (lastStop ((start source options).given n)) source.length ∧
        ((start source options).after (n + 1)).place = source.length) := by
  have h := accounted source options n
  refine ⟨h.laid.faithfulTo, h.laid.pairwise, fun before t after hts => h.laid.gap hts,
    fun t hnext => (gap_and_spells_of_next hnext).2.2.1, fun hnext hclean => ?_⟩
  have hover := finished_next ((start source options).after n) (by simp [hnext])
  have hclean' : ∀ m < n + 1, ∀ e, ((start source options).after m).next.1 ≠ .error e := by
    intro m hm e he
    rcases Nat.lt_succ_iff_lt_or_eq.1 hm with hm | rfl
    · exact hclean m hm e he
    · simp [hnext] at he
  have hending := (accounted source options (n + 1)).ending hover hclean'
  rwa [given, hnext] at hending

/-- Two calls on `a /*b*/+` lead over a comment, blanks around it, and an operator. -/
theorem gap_of_comment_between_tokens :
    (SourceText.ofString "a /*b*/+").Gap true 1 7 ∧
      ((start (.ofString "a /*b*/+") ⟨true⟩).after 2).place = 8 := by
  have hgiven : (start (.ofString "a /*b*/+") ⟨true⟩).given 2 =
      [⟨.identifier, .text "a", ⟨0, 1⟩⟩, ⟨.operator, .text "+", ⟨7, 1⟩⟩] := by decide +kernel
  have hnext : ((start (.ofString "a /*b*/+") ⟨true⟩).after 1).next.1 =
      .ok (some ⟨.operator, .text "+", ⟨7, 1⟩⟩) := by decide +kernel
  exact ⟨(accounts_for _ ⟨true⟩ 2).2.2.1 [_] _ [] hgiven, (accounts_for _ ⟨true⟩ 1).2.2.2.1 _ hnext⟩

end Scanner

end ModuleImports
