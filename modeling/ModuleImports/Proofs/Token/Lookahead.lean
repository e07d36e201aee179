import Mathlib.Data.List.Induction
import ModuleImports.Token.Cursor

/-!
# Proofs/Token/Lookahead — a cursor delivers the tokens of its text

A cursor holds one token that it has taken from the scanner and not given yet.  `Cursor.Delivered`
relates it to the scan of the whole text: which token it holds, what the scanner has left, and what
has been given so far.  Only moves change it, and one move keeps it (`Delivered.advance`), so it
holds after any row of calls.  An error takes up one move, and the token that is held then comes out
with the next.
-/

namespace ModuleImports

/-! ## Tokens by their number -/

namespace Scan

/-- The token with a number, in a count from one.  Number zero stands for the place before the first
token and has none. -/
def numbered? (s : Scan) : Nat → Option Token
  | 0 => none
  | k + 1 => s.tokens[k]?

/-- The number of the token that a cursor holds after some moves.  A move that meets the error stays
with the last token. -/
def reached (s : Scan) (moves : Nat) : Nat :=
  if s.failure = none ∨ moves ≤ s.tokens.length then moves else moves - 1

variable {s : Scan} {moves k : Nat}

theorem numbered?_of_length_lt (h : s.tokens.length < k) : s.numbered? k = none := by
  cases k with
  | zero => rfl
  | succ k => exact List.getElem?_eq_none (Nat.le_of_lt_succ h)

/-- With the token of the next number there are as many tokens as that. -/
theorem take_append_numbered? (s : Scan) (k : Nat) :
    s.tokens.take (k - 1) ++ (s.numbered? k).toList = s.tokens.take k := by
  cases k with
  | zero => rfl
  | succ k => exact List.take_add_one.symm

theorem reached_of_le (h : moves ≤ s.tokens.length) : s.reached moves = moves := if_pos (.inr h)

theorem reached_of_failure_none (h : s.failure = none) : s.reached moves = moves := if_pos (.inl h)

theorem reached_of_lt (hfailure : s.failure ≠ none) (h : s.tokens.length < moves) :
    s.reached moves = moves - 1 :=
  if_neg (not_or.2 ⟨hfailure, Nat.not_le.2 h⟩)

/-- **A move reaches the next token**, unless it meets the error. -/
theorem reached_succ (h : s.failure = none ∨ moves ≠ s.tokens.length) :
    s.reached (moves + 1) = s.reached moves + 1 := by
  unfold reached
  by_cases hfailure : s.failure = none
  · simp [hfailure]
  · have hne := h.resolve_left hfailure
    simp only [hfailure, false_or]
    split <;> split <;> omega

end Scan

/-! ## What a scanner gives, by what remains -/

namespace Scanner

variable {s : Scanner} {t : Token} {ts : List Token} {failure : Option LexicalError}
  {e : LexicalError}

theorem next_of_remaining_cons (h : s.remaining = ⟨t :: ts, failure⟩) :
    s.next.1 = .ok (some t) ∧ s.next.2.remaining = ⟨ts, failure⟩ := by
  rcases hnext : s.next with ⟨e | _ | u, s'⟩
  · simp [(remaining_of_next_error hnext).1] at h
  · simp [(remaining_of_next_none hnext).1] at h
  · rw [remaining_of_next_token hnext] at h
    obtain ⟨htokens, hfailure⟩ := Scan.mk.inj h
    obtain ⟨rfl, hrest⟩ := List.cons.inj htokens
    exact ⟨rfl, Scan.mk.injEq .. ▸ ⟨hrest, hfailure⟩⟩

theorem next_of_remaining_error (h : s.remaining = ⟨[], some e⟩) :
    s.next.1 = .error e ∧ s.next.2.remaining = ⟨[], none⟩ := by
  rcases hnext : s.next with ⟨e' | _ | u, s'⟩
  · obtain ⟨hremaining, hafter⟩ := remaining_of_next_error hnext
    obtain rfl := Option.some.inj (Scan.mk.inj (hremaining.symm.trans h)).2
    exact ⟨rfl, hafter⟩
  · simp [(remaining_of_next_none hnext).1] at h
  · simp [remaining_of_next_token hnext, Scan.prepend] at h

theorem next_of_remaining_nil (h : s.remaining = ⟨[], none⟩) :
    s.next.1 = .ok none ∧ s.next.2.remaining = ⟨[], none⟩ := by
  rcases hnext : s.next with ⟨e | _ | u, s'⟩
  · simp [(remaining_of_next_error hnext).1] at h
  · exact ⟨rfl, (remaining_of_next_none hnext).2⟩
  · simp [remaining_of_next_token hnext, Scan.prepend] at h

end Scanner

namespace Cursor

/-! ## Rows of calls -/

/-- What a cursor can be asked, and how it is moved. -/
inductive Call where
  | advance
  | current
  | isAt (kind : TokenKind) (text : String)
  | isAtKind (kind : TokenKind)
  | span
  | source
deriving DecidableEq, Repr

/-- What a call comes to. -/
inductive Answer where
  /-- A move gives the token moved past, or fails. -/
  | moved (result : Except LexicalError (Option Token))
  | held (t : Option Token)
  | truth (b : Bool)
  | span (s : Span)
  | source (text : SourceText)
deriving DecidableEq, Repr

namespace Answer

/-- The token that a move has given, if it has given one. -/
def token? : Answer → Option Token
  | moved (.ok t) => t
  | _ => none

/-- The error that a move has met, if it has met one. -/
def failure? : Answer → Option LexicalError
  | moved (.error e) => some e
  | _ => none

end Answer

/-- **A call**: what it comes to, and the cursor after it.  Only a move changes the cursor. -/
def call (c : Cursor) : Call → Answer × Cursor
  | .advance => (.moved c.advance.1, c.advance.2)
  | .current => (.held c.current, c)
  | .isAt kind text => (.truth (c.isAt kind text), c)
  | .isAtKind kind => (.truth (c.isAtKind kind), c)
  | .span => (.span c.span, c)
  | .source => (.source c.source, c)

/-- **A row of calls**: what each comes to, and the cursor after them. -/
def run (c : Cursor) : List Call → List Answer × Cursor
  | [] => ([], c)
  | q :: calls => ((c.call q).1 :: ((c.call q).2.run calls).1, ((c.call q).2.run calls).2)

/-- How many of some calls are moves. -/
def moves (calls : List Call) : Nat := calls.count .advance

variable {scan : Scan} {answers : List Answer} {k : Nat} {c : Cursor} {e : LexicalError}

theorem run_append_singleton (c : Cursor) (calls : List Call) (q : Call) : c.run (calls ++ [q]) =
    ((c.run calls).1 ++ [((c.run calls).2.call q).1], ((c.run calls).2.call q).2) := by
  induction calls generalizing c with
  | nil => rfl
  | cons q' calls ih => simp only [List.cons_append, run, ih]

/-! ## One move -/

theorem advance_of_ok {next : Option Token} (h : c.scanner.next.1 = .ok next) :
    c.advance = (.ok c.current, ⟨c.scanner.next.2, next⟩) := by
  rcases hnext : c.scanner.next with ⟨result, scanner⟩
  obtain rfl : result = .ok next := by rwa [hnext] at h
  simp only [advance, hnext]

theorem advance_of_error (h : c.scanner.next.1 = .error e) :
    c.advance = (.error e, ⟨c.scanner.next.2, c.current⟩) := by
  rcases hnext : c.scanner.next with ⟨result, scanner⟩
  obtain rfl : result = .error e := by rwa [hnext] at h
  simp only [advance, hnext]

theorem source_advance (c : Cursor) : c.advance.2.source = c.source := by
  rcases hnext : c.scanner.next.1 with e | next
  · rw [advance_of_error hnext]
    exact c.scanner.source_next
  · rw [advance_of_ok hnext]
    exact c.scanner.source_next

/-- **What a cursor has delivered** of a scan after some moves: it holds the token that they have
reached, its scanner has left what is behind that, and the answers have given, each once and in
order, the tokens before that and the error if a move has met it. -/
structure Delivered (scan : Scan) (answers : List Answer) (k : Nat) (c : Cursor) : Prop where
  current : c.current = scan.numbered? (scan.reached k)
  remaining : c.scanner.remaining =
    if k ≤ scan.tokens.length then ⟨scan.tokens.drop k, scan.failure⟩ else ⟨[], none⟩
  tokens : answers.filterMap Answer.token? = scan.tokens.take (scan.reached k - 1)
  failures : answers.filterMap Answer.failure? =
    if k ≤ scan.tokens.length then [] else scan.failure.toList

/-- While tokens remain, the next one takes the place of the one that is held. -/
theorem Delivered.scanner_of_lt (h : Delivered scan answers k c) (hk : k < scan.tokens.length) :
    c.scanner.next.1 = .ok (scan.numbered? (k + 1)) ∧
      c.scanner.next.2.remaining = ⟨scan.tokens.drop (k + 1), scan.failure⟩ := by
  have hremaining := h.remaining
  rw [if_pos (Nat.le_of_lt hk), List.drop_eq_getElem_cons hk] at hremaining
  obtain ⟨hnext, hafter⟩ := Scanner.next_of_remaining_cons hremaining
  exact ⟨hnext.trans (congrArg Except.ok (List.getElem?_eq_getElem hk).symm), hafter⟩

/-- Behind the tokens, and behind the error if there is one, nothing takes the place of the one that
is held. -/
theorem Delivered.scanner_of_le (h : Delivered scan answers k c) (hk : scan.tokens.length ≤ k)
    (hfailure : scan.failure = none ∨ k ≠ scan.tokens.length) :
    c.scanner.next.1 = .ok none ∧ c.scanner.next.2.remaining = ⟨[], none⟩ := by
  refine Scanner.next_of_remaining_nil ?_
  rw [h.remaining]
  split
  · next hle =>
    rw [List.drop_eq_nil_of_le hk, hfailure.resolve_right (not_not.2 (Nat.le_antisymm hle hk))]
  · rfl

/-- **A move that does not meet the error** gives the token that was held and holds the next. -/
theorem Delivered.advance_of_ok (h : Delivered scan answers k c)
    (hfailure : scan.failure = none ∨ k ≠ scan.tokens.length) :
    c.advance.1 = .ok (scan.numbered? (scan.reached k)) ∧
      Delivered scan (answers ++ [.moved c.advance.1]) (k + 1) c.advance.2 := by
  have hreached := Scan.reached_succ hfailure
  obtain ⟨hnext, hafter⟩ : c.scanner.next.1 = .ok (scan.numbered? (scan.reached (k + 1))) ∧
      c.scanner.next.2.remaining = if k + 1 ≤ scan.tokens.length then
        ⟨scan.tokens.drop (k + 1), scan.failure⟩ else ⟨[], none⟩ := by
    rcases Nat.lt_or_ge k scan.tokens.length with hk | hk
    · have hin : k + 1 ≤ scan.tokens.length := hk
      rw [if_pos hin, Scan.reached_of_le hin]
      exact h.scanner_of_lt hk
    · have hout : scan.tokens.length < scan.reached (k + 1) := by
        rw [hreached, Scan.reached]
        split <;> omega
      rw [if_neg (by omega), Scan.numbered?_of_length_lt hout]
      exact h.scanner_of_le hk hfailure
  rw [Cursor.advance_of_ok hnext]
  refine ⟨congrArg Except.ok h.current, rfl, hafter, ?_, ?_⟩
  · rw [hreached, Nat.add_sub_cancel, ← scan.take_append_numbered?, ← h.current, ← h.tokens,
      List.filterMap_append]
    cases c.current <;> rfl
  · have hsame : (if k + 1 ≤ scan.tokens.length then [] else scan.failure.toList) =
        if k ≤ scan.tokens.length then [] else scan.failure.toList := by
      rcases hfailure with hnone | hne
      · simp [hnone]
      · split <;> split <;> first | rfl | omega
    rw [List.filterMap_append, h.failures, hsame]
    exact List.append_nil _

/-- **A move that meets the error** leaves what is held. -/
theorem Delivered.advance_of_error (h : Delivered scan answers scan.tokens.length c)
    (he : scan.failure = some e) :
    c.advance = (.error e, ⟨c.scanner.next.2, c.current⟩) ∧
      Delivered scan (answers ++ [.moved c.advance.1]) (scan.tokens.length + 1) c.advance.2 := by
  have hremaining := h.remaining
  rw [if_pos (Nat.le_refl _), List.drop_length, he] at hremaining
  obtain ⟨hnext, hafter⟩ := Scanner.next_of_remaining_error hremaining
  have hstays : scan.reached (scan.tokens.length + 1) = scan.reached scan.tokens.length := by
    rw [Scan.reached_of_lt (by simp [he]) (Nat.lt_add_one _), Scan.reached_of_le (Nat.le_refl _),
      Nat.add_sub_cancel]
  have hbehind : ¬scan.tokens.length + 1 ≤ scan.tokens.length := by omega
  rw [Cursor.advance_of_error hnext]
  refine ⟨rfl, hstays ▸ h.current, (if_neg hbehind).symm ▸ hafter, ?_, ?_⟩
  · rw [List.filterMap_append, h.tokens, hstays]
    exact List.append_nil _
  · rw [List.filterMap_append, h.failures, if_pos (Nat.le_refl _), if_neg hbehind, he]
    rfl

/-- **One more move** keeps what is delivered. -/
theorem Delivered.advance (h : Delivered scan answers k c) :
    Delivered scan (answers ++ [.moved c.advance.1]) (k + 1) c.advance.2 := by
  by_cases hmeets : scan.failure = none ∨ k ≠ scan.tokens.length
  · exact (h.advance_of_ok hmeets).2
  · obtain ⟨hfailure, hk⟩ := not_or.1 hmeets
    obtain rfl := not_not.1 hk
    obtain ⟨e, he⟩ := Option.ne_none_iff_exists'.1 hfailure
    exact (h.advance_of_error he).2

/-- An answer that is none of a move changes nothing. -/
theorem Delivered.snoc (h : Delivered scan answers k c) {a : Answer} (ht : a.token? = none)
    (hf : a.failure? = none) : Delivered scan (answers ++ [a]) k c :=
  ⟨h.current, h.remaining, by simp [h.tokens, ht], by simp [h.failures, hf]⟩

/-! ## Any calls -/

/-- **Whatever is called**, what is delivered depends on the number of moves alone. -/
theorem delivered_run (source : SourceText) (options : ScanOptions) (calls : List Call) :
    Delivered (source.scan options) ((start (.start source options)).run calls).1 (moves calls)
        ((start (.start source options)).run calls).2 ∧
      ((start (.start source options)).run calls).2.source = source := by
  induction calls using List.reverseRecOn with
  | nil =>
    have hreached : (source.scan options).reached 0 = 0 := Scan.reached_of_le (Nat.zero_le _)
    refine ⟨⟨?_, ?_, ?_, ?_⟩, rfl⟩
    · rw [moves, List.count_nil, hreached]
      rfl
    · rw [moves, List.count_nil, if_pos (Nat.zero_le _)]
      rfl
    · rw [moves, List.count_nil, hreached]
      rfl
    · rw [moves, List.count_nil, if_pos (Nat.zero_le _)]
      rfl
  | append_singleton calls q ih =>
    obtain ⟨ih, hsource⟩ := ih
    rw [run_append_singleton, moves, List.count_append]
    cases q with
    | advance => exact ⟨ih.advance, (source_advance _).trans hsource⟩
    | current | isAt | isAtKind | span | source => exact ⟨ih.snoc rfl rfl, hsource⟩

/-- What the current token is asked for holds if there is one and it is that. -/
theorem isAt_iff {kind : TokenKind} {text : String} : c.isAt kind text = true ↔
    ∃ t, c.current = some t ∧ t.kind = kind ∧ t.text? = some text := by
  simp [isAt, Option.any_eq_true, Token.is]

/-- **A cursor delivers the tokens of its text without loss and without repetition.**  After any row
of calls the next move gives the token of the last one and holds the next token; behind the tokens it
holds none.  If the scan ends with an error, one move meets that and leaves the cursor as it is, and
the token that is held comes out with the move after.  Then there is nothing more. -/
theorem delivers (source : SourceText) (options : ScanOptions) (calls : List Call) :
    let scan := source.scan options
    let n := scan.tokens.length
    let answers := ((start (.start source options)).run calls).1
    let c := ((start (.start source options)).run calls).2
    let k := moves calls
    c.current = scan.numbered? (scan.reached k) ∧
    (k < n → c.advance.1 = .ok (scan.numbered? k) ∧
      c.advance.2.current = scan.numbered? (k + 1)) ∧
    (scan.failure = none → k = n →
      c.advance.1 = .ok (scan.numbered? n) ∧ c.advance.2.current = none) ∧
    (∀ e, scan.failure = some e →
      (k = n → c.advance.1 = .error e ∧ c.advance.2.current = c.current ∧
        c.advance.2.span = c.span) ∧
      (k = n + 1 → c.advance.1 = .ok (scan.numbered? n) ∧ c.advance.2.current = none)) ∧
    (n + scan.failure.toList.length < k → c.advance.1 = .ok none ∧ c.advance.2.current = none) ∧
    c.source = source ∧ c.span = c.current.elim (.empty source.length) Token.span ∧
    (∀ kind text, c.isAt kind text = true ↔
      ∃ t, c.current = some t ∧ t.kind = kind ∧ t.text? = some text) ∧
    answers.filterMap Answer.token? <+: scan.tokens ∧
    answers.filterMap Answer.failure? <+: scan.failure.toList := by
  intro scan n answers c k
  obtain ⟨h, hsource⟩ : Delivered scan answers k c ∧ c.source = source :=
    delivered_run source options calls
  have hmoves (hmeets : scan.failure = none ∨ k ≠ n) :
      c.advance.1 = .ok (scan.numbered? (scan.reached k)) ∧
        c.advance.2.current = scan.numbered? (scan.reached k + 1) := by
    obtain ⟨hgiven, hafter⟩ := h.advance_of_ok hmeets
    exact ⟨hgiven, Scan.reached_succ hmeets ▸ hafter.current⟩
  have hbehind {j : Nat} (hj : n < j) : scan.numbered? j = none := Scan.numbered?_of_length_lt hj
  refine ⟨h.current, fun hk => ?_, fun hfailure hk => ?_, fun e he => ⟨fun hk => ?_, fun hk => ?_⟩,
    fun hk => ?_, hsource, ?_, fun kind text => isAt_iff, ?_, ?_⟩
  · rw [← Scan.reached_of_le (Nat.le_of_lt hk)]
    exact hmoves (.inr (Nat.ne_of_lt hk))
  · obtain ⟨hgiven, hheld⟩ := hmoves (.inl hfailure)
    rw [Scan.reached_of_failure_none hfailure, hk] at hgiven hheld
    exact ⟨hgiven, hheld.trans (hbehind n.lt_succ_self)⟩
  · rw [hk] at h
    obtain ⟨hadvance, -⟩ := h.advance_of_error he
    refine ⟨by rw [hadvance], by rw [hadvance], ?_⟩
    rw [span, span, source_advance, hadvance]
  · have hfailure : scan.failure ≠ none := by simp [he]
    obtain ⟨hgiven, hheld⟩ := hmoves (.inr (by omega))
    rw [Scan.reached_of_lt hfailure (by omega), hk, Nat.add_sub_cancel] at hgiven hheld
    exact ⟨hgiven, hheld.trans (hbehind n.lt_succ_self)⟩
  · obtain ⟨hgiven, hheld⟩ := hmoves (.inr (by omega))
    have hout : n < scan.reached k := by
      rw [Scan.reached]
      rcases hfailure : scan.failure with _ | e
      · simpa [hfailure] using hk
      · rw [hfailure] at hk
        split <;> simp at * <;> omega
    rw [hbehind hout] at hgiven
    exact ⟨hgiven, hheld.trans (hbehind (Nat.lt_succ_of_lt hout))⟩
  · rw [span, hsource]
    cases c.current <;> rfl
  · exact h.tokens ▸ List.take_prefix _ _
  · rw [h.failures]
    split
    · exact List.nil_prefix
    · exact List.prefix_rfl

/-- The string in `a 'b` has no end.  The move that meets that leaves `a`, the next one gives it. -/
theorem delivers_of_open_string :
    ((start (.start (.ofString "a 'b") ⟨false⟩)).run [.advance, .isAt .identifier "a"]).2.advance.1 =
        .error ⟨.unterminatedString, [], ⟨2, 2⟩⟩ ∧
      ((start (.start (.ofString "a 'b") ⟨false⟩)).run
          [.advance, .advance, .span]).2.advance.1 =
        .ok (some ⟨.identifier, .text "a", ⟨0, 1⟩⟩) := by
  have hscan : (SourceText.ofString "a 'b").scan ⟨false⟩ =
      ⟨[⟨.identifier, .text "a", ⟨0, 1⟩⟩], some ⟨.unterminatedString, [], ⟨2, 2⟩⟩⟩ := by
    decide +kernel
  have hmeets := delivers (.ofString "a 'b") ⟨false⟩ [.advance, .isAt .identifier "a"]
  have hgives := delivers (.ofString "a 'b") ⟨false⟩ [.advance, .advance, .span]
  simp only [hscan] at hmeets hgives
  exact ⟨((hmeets.2.2.2.1 _ rfl).1 (by decide)).1, ((hgives.2.2.2.1 _ rfl).2 (by decide)).1⟩

end Cursor

end ModuleImports
