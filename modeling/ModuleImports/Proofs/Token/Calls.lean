import Mathlib.Data.List.Induction
import ModuleImports.Proofs.Lexeme.Bounds
import ModuleImports.Proofs.Token.Account

/-!
# Proofs/Token/Calls — any calls of a scanner, in any order

A scanner can be asked for its next token and for the next item of its stream.  Both come to the
same step, and `Scanner.Kept` is what a step preserves, so it holds after any row of calls.  An
error lies where the last token ends or behind it, and inside the text (`Scanner.located_of_next`).
-/

namespace ModuleImports

namespace Scanner

/-! ## Rows of calls -/

/-- The ways to ask a scanner for more. -/
inductive Call where
  /-- For the next token. -/
  | token
  /-- For the next item of the stream. -/
  | item
deriving DecidableEq, Repr

/-- What a call comes to. -/
inductive Answer where
  | token (t : Token)
  | failure (e : LexicalError)
  /-- There is nothing more. -/
  | exhausted
deriving DecidableEq, Repr

namespace Answer

/-- What the call for a token gives. -/
def ofNext : Except LexicalError (Option Token) → Answer
  | .ok (some t) => token t
  | .ok none => exhausted
  | .error e => failure e

/-- What the call for an item gives. -/
def ofItem : Option (Except LexicalError Token) → Answer
  | some (.ok t) => token t
  | some (.error e) => failure e
  | none => exhausted

/-- The token that is given, if one is. -/
def token? : Answer → Option Token
  | token t => some t
  | _ => none

/-- The error that is given, if one is. -/
def failure? : Answer → Option LexicalError
  | failure e => some e
  | _ => none

theorem ofItem_item? (result : Except LexicalError (Option Token)) :
    ofItem (item? result) = ofNext result := by
  rcases result with e | _ | t <;> rfl

theorem ofNext_eq_failure_iff {result : Except LexicalError (Option Token)} {e : LexicalError} :
    ofNext result = failure e ↔ result = .error e := by
  rcases result with e | _ | t <;> simp [ofNext]

theorem ofNext_eq_token_iff {result : Except LexicalError (Option Token)} {t : Token} :
    ofNext result = token t ↔ result = .ok (some t) := by
  rcases result with e | _ | t <;> simp [ofNext]

end Answer

/-- **A call**: what it comes to, and the scanner after it. -/
def call (s : Scanner) : Call → Answer × Scanner
  | .token => (.ofNext s.next.1, s.next.2)
  | .item => (.ofItem s.pull.1, s.pull.2)

/-- **A row of calls**: what each comes to, and the scanner after them. -/
def run (s : Scanner) : List Call → List Answer × Scanner
  | [] => ([], s)
  | c :: calls => ((s.call c).1 :: ((s.call c).2.run calls).1, ((s.call c).2.run calls).2)

variable {s : Scanner} {answers : List Answer} {e : LexicalError} {c : Call}

/-- Both ways to ask come to the same. -/
theorem call_eq (s : Scanner) (c : Call) : s.call c = (.ofNext s.next.1, s.next.2) := by
  rcases c
  · rfl
  · rw [call, pull, Answer.ofItem_item?]

theorem run_append_singleton (s : Scanner) (calls : List Call) (c : Call) : s.run (calls ++ [c]) =
    ((s.run calls).1 ++ [((s.run calls).2.call c).1], ((s.run calls).2.call c).2) := by
  induction calls generalizing s with
  | nil => rfl
  | cons c' calls ih => simp only [List.cons_append, run, ih]

/-- The tokens that a row of calls gives are those of as many calls for a token. -/
theorem run_eq (s : Scanner) (calls : List Call) : (s.run calls).2 = s.after calls.length ∧
    (s.run calls).1.filterMap Answer.token? = s.given calls.length := by
  induction calls using List.reverseRecOn with
  | nil => exact ⟨rfl, rfl⟩
  | append_singleton calls c ih =>
    rw [run_append_singleton, call_eq, List.length_append, List.length_singleton, after, given,
      ih.1, List.filterMap_append, ih.2]
    refine ⟨rfl, ?_⟩
    rcases (s.after calls.length).next.1 with e | _ | t <;> simp [Answer.ofNext, Answer.token?]

/-! ## One call -/

/-- **A call that gives an error** stops inside the text. -/
theorem exists_misread_of_next (h : s.next.1 = .error e) : s.finished = false ∧
    ∃ m : Misread, m.Within s.rest.length ∧ e = m.error.shift s.place ∧
      s.next.2 = s.move m.stop true := by
  unfold next at h ⊢
  split at h
  · simp at h
  · next hf =>
    rw [if_neg hf]
    split at h
    · simp at h
    · next m hnext =>
      exact ⟨by simpa using hf, m, Next.within_of_misread hnext, (Except.error.inj h).symm, rfl⟩
    · simp at h

/-- **A call stays inside the text.** -/
theorem place_next_le (hplace : s.place ≤ s.source.length) :
    s.next.2.place ≤ s.source.length := by
  rcases hnext : s.next.1 with e | _ | t
  · obtain ⟨-, m, hm, -, hmove⟩ := exists_misread_of_next hnext
    rw [hmove, place_move, ← place_add_length_rest hplace]
    exact Nat.add_le_add_left hm.stop_le _
  · rcases hf : s.finished
    · exact (gap_of_next hnext hf hplace).2.le
    · rwa [next_of_finished hf]
  · obtain ⟨-, hspells, hstop, -⟩ := gap_and_spells_of_next hnext
    exact hstop ▸ hspells.faithfulTo.inside

/-- **An error lies behind the place** where the scanner stands, and inside the text. -/
theorem located_of_next (hplace : s.place ≤ s.source.length) (h : s.next.1 = .error e) :
    s.place ≤ e.span.start ∧ e.span.start ≤ s.source.length ∧
      (e.span.stop ≤ s.source.length ∨
        e.kind = .digitExpected ∧ e.span = ⟨s.source.length, 1⟩) := by
  obtain ⟨-, m, hm, rfl, -⟩ := exists_misread_of_next h
  have hwithin := hm.shift s.place
  rw [place_add_length_rest hplace] at hwithin
  exact ⟨Nat.le_add_right _ _, hwithin.start_le, hwithin.span⟩

/-! ## Any calls -/

/-- **What a row of calls keeps**: the scanner stands in the text, it has given tokens only while it
has not finished, and no more than one error. -/
structure Kept (answers : List Answer) (s : Scanner) : Prop where
  place_le : s.place ≤ s.source.length
  tokens : s.finished = false → ∀ a ∈ answers, ∃ t, a = .token t
  once : (answers.filterMap Answer.failure?).length ≤ 1

/-- **One more call** keeps it. -/
theorem Kept.call (h : Kept answers s) (c : Call) :
    Kept (answers ++ [(s.call c).1]) (s.call c).2 := by
  rw [call_eq]
  rcases hf : s.finished
  · have hclean : answers.filterMap Answer.failure? = [] := by
      refine List.filterMap_eq_nil_iff.2 fun a ha => ?_
      obtain ⟨t, rfl⟩ := h.tokens hf a ha
      rfl
    refine ⟨(source_next s).symm ▸ place_next_le h.place_le, fun hgoing => ?_, ?_⟩
    · refine List.forall_mem_append.2 ⟨h.tokens hf, List.forall_mem_singleton.2 ?_⟩
      rcases hnext : s.next.1 with e | _ | t
      · simp [finished_next s (by simp [hnext])] at hgoing
      · simp [finished_next s (by simp [hnext])] at hgoing
      · exact ⟨t, rfl⟩
    · rw [List.filterMap_append, hclean, List.nil_append]
      exact List.length_filterMap_le _ _
  · rw [next_of_finished hf]
    refine ⟨h.place_le, fun hgoing => ?_, ?_⟩
    · exact absurd (hgoing.symm.trans hf) Bool.false_ne_true
    · rw [List.filterMap_append]
      exact (List.append_nil _).symm ▸ h.once

/-- Any row of calls keeps it. -/
theorem kept_run (source : SourceText) (options : ScanOptions) (calls : List Call) :
    Kept ((start source options).run calls).1 ((start source options).run calls).2 := by
  induction calls using List.reverseRecOn with
  | nil => exact ⟨Nat.zero_le _, fun _ => List.forall_mem_nil _, Nat.zero_le _⟩
  | append_singleton calls c ih =>
    rw [run_append_singleton]
    exact ih.call c

/-- A finished scanner stays as it is. -/
theorem run_of_finished (h : s.finished = true) (calls : List Call) :
    s.run calls = (calls.map fun _ => .exhausted, s) := by
  induction calls with
  | nil => rfl
  | cons c calls ih =>
    rw [run, call_eq, next_of_finished h, ih]
    rfl

/-- **Lexical errors are located and final.**  After any row of calls a scanner stands in the text
and has given one error at most.  Once it has given that or has found the end, it gives nothing more
and stays where it is.  The next call never goes back, and an error that it gives starts where the
last token ends or behind that, and lies in the text or, if a digit is missing there, at its end. -/
theorem run_located_and_final (source : SourceText) (options : ScanOptions) (calls : List Call) :
    let answers := ((start source options).run calls).1
    let s := ((start source options).run calls).2
    s.place ≤ source.length ∧
    (answers.filterMap Answer.failure?).length ≤ 1 ∧
    ((∃ a ∈ answers, a.token? = none) → ∀ more, s.run more = (more.map fun _ => .exhausted, s)) ∧
    ∀ c, s.place ≤ (s.call c).2.place ∧ ∀ e, (s.call c).1 = .failure e →
      lastStop (answers.filterMap Answer.token?) ≤ e.span.start ∧ e.span.start ≤ source.length ∧
        (e.span.stop ≤ source.length ∨ e.kind = .digitExpected ∧ e.span = ⟨source.length, 1⟩) := by
  intro answers s
  have hkept : Kept answers s := kept_run source options calls
  obtain ⟨hafter, htokens⟩ := run_eq (start source options) calls
  have hsource : s.source = source := by
    rw [show s = _ from hafter, source_after]
    rfl
  refine ⟨hsource ▸ hkept.place_le, hkept.once, fun ⟨a, ha, hnone⟩ => run_of_finished ?_,
    fun c => ?_⟩
  · by_contra hgoing
    obtain ⟨t, rfl⟩ := hkept.tokens (Bool.not_eq_true _ ▸ hgoing) a ha
    exact absurd hnone (Option.some_ne_none t)
  · rw [call_eq]
    refine ⟨place_le_next s, fun e he => ?_⟩
    have herror : s.next.1 = .error e := Answer.ofNext_eq_failure_iff.1 he
    have hplace := (accounted source options calls.length).place
    rw [← hafter, ← htokens] at hplace
    have hlocated := located_of_next hkept.place_le herror
    rw [hsource] at hlocated
    rwa [← hplace (exists_misread_of_next herror).1]

/-- A digit is missing behind the end of `a 1.`, and then nothing more is given. -/
theorem run_of_open_fraction :
    ((start (.ofString "a 1.") ⟨true⟩).run [.token, .item, .token]).1 =
        [.token ⟨.identifier, .text "a", ⟨0, 1⟩⟩, .failure ⟨.digitExpected, [], ⟨4, 1⟩⟩, .exhausted] ∧
      ∀ more, (((start (.ofString "a 1.") ⟨true⟩).run [.token, .item]).2.run more).1 =
        more.map fun _ => .exhausted := by
  refine ⟨by decide +kernel, fun more => ?_⟩
  have hrun := (run_located_and_final (.ofString "a 1.") ⟨true⟩ [.token, .item]).2.2.1
  rw [hrun ⟨.failure ⟨.digitExpected, [], ⟨4, 1⟩⟩, by decide +kernel, rfl⟩]

/-! ## Progress -/

/-- **A token moves the scanner on**, by a character at least. -/
theorem place_lt_next {t : Token} (h : s.next.1 = .ok (some t)) : s.place < s.next.2.place := by
  obtain ⟨hgap, hspells, hstop, -⟩ := gap_and_spells_of_next h
  exact hstop ▸ hgap.1.trans_lt hspells.faithfulTo.nonempty

/-- Each token that calls have given has taken a character. -/
theorem place_add_length_given_le (s : Scanner) (n : Nat) :
    s.place + (s.given n).length ≤ (s.after n).place := by
  induction n with
  | zero => exact Nat.le_refl _
  | succ n ih =>
    rw [given, after]
    split
    · next t hnext =>
      rw [List.length_append, List.length_singleton]
      exact Nat.succ_le_of_lt (ih.trans_lt (place_lt_next hnext))
    · exact ih.trans (place_le_next _)

theorem length_run (s : Scanner) (calls : List Call) : (s.run calls).1.length = calls.length := by
  induction calls generalizing s with
  | nil => rfl
  | cons c calls ih => rw [run, List.length_cons, ih, List.length_cons]

/-- **There are no more tokens than characters**, so a row of more calls than that finishes. -/
theorem run_progresses (source : SourceText) (options : ScanOptions) (calls : List Call) :
    let answers := ((start source options).run calls).1
    let s := ((start source options).run calls).2
    (∀ c t, (s.call c).1 = .token t → s.place < (s.call c).2.place) ∧
    (answers.filterMap Answer.token?).length ≤ source.length ∧
    (source.length < calls.length → s.finished = true) := by
  intro answers s
  have hkept : Kept answers s := kept_run source options calls
  obtain ⟨hafter, htokens⟩ := run_eq (start source options) calls
  have hsource : s.source = source := by
    rw [show s = _ from hafter, source_after]
    rfl
  have hle : (answers.filterMap Answer.token?).length ≤ source.length := by
    have hgiven := place_add_length_given_le (start source options) calls.length
    rw [← hafter, ← htokens] at hgiven
    exact hsource ▸ (Nat.le_add_left _ _).trans (hgiven.trans hkept.place_le)
  refine ⟨fun c t ht => ?_, hle, fun hlt => ?_⟩
  · rw [call_eq] at ht ⊢
    exact place_lt_next (Answer.ofNext_eq_token_iff.1 ht)
  · by_contra hgoing
    have hall : ∀ a ∈ answers, (Answer.token? a).isSome := by
      intro a ha
      obtain ⟨t, rfl⟩ := hkept.tokens (Bool.not_eq_true _ ▸ hgoing) a ha
      rfl
    rw [List.filterMap_length_eq_length.2 hall, length_run] at hle
    exact absurd hlt (Nat.not_lt.2 hle)

end Scanner

end ModuleImports
