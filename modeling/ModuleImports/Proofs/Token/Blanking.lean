import ModuleImports.Proofs.Token.Account
import ModuleImports.Proofs.Token.Piecewise

/-!
# Proofs/Token/Blanking — comments blanked out

`SourceText.blanked` puts a space in place of every character that a scan skips as trivia, if
comments count as trivia.  A scan of that text for which comments are none gives just the same
(`Blanking.scanFrom_eq`): where the two texts differ, both have broken off what can be read
(`Blanking.exists_common_front`), so every lexeme is found again.

The blanked text is defined by the calls of a scanner.  `Blanking` sets the two texts side by side,
piece by piece, and `blankedFrom` computes the second (`SourceText.blanked_eq`).
-/

namespace ModuleImports

/-! ## What is blanked out -/

namespace Scanner

/-- **A call of a scanner passes over a place as trivia.** -/
def Skips (s : Scanner) (place : Nat) : Prop :=
  ∃ k n, (s.after k).finished = false ∧
    Trivia.length s.options.skipComments (s.after k).rest = .ok n ∧
    (s.after k).place ≤ place ∧ place < (s.after k).place + n

end Scanner

open Classical in
/-- Some characters, with a space in place of each at a place of a kind. -/
noncomputable def blankedAt (P : Nat → Prop) (cs : List Char) : List Char :=
  cs.mapIdx fun i c => if P i then ' ' else c

/-- **A text with its trivia blanked out**, comments included, and all else as it is. -/
noncomputable def SourceText.blanked (source : SourceText) : SourceText :=
  ⟨blankedAt (Scanner.start source ⟨true⟩).Skips source.chars⟩

variable {c : Char} {cs bs gap w rest : List Char} {l : Lexeme} {place : Nat}

section blankedAt

variable {P : Nat → Prop}

theorem blankedAt_append (cs rest : List Char) :
    blankedAt P (cs ++ rest) = blankedAt P cs ++ blankedAt (fun i => P (i + cs.length)) rest := by
  rw [blankedAt, List.mapIdx_append]
  rfl

theorem blankedAt_of_forall (h : ∀ i < cs.length, P i) :
    blankedAt P cs = List.replicate cs.length ' ' :=
  List.mapIdx_eq_replicate_iff.2 fun i hi => if_pos (h i hi)

theorem blankedAt_of_forall_not (h : ∀ i < cs.length, ¬P i) : blankedAt P cs = cs := by
  refine List.ext_getElem (by simp [blankedAt]) fun i _ hi => ?_
  simp only [blankedAt, List.getElem_mapIdx, if_neg (h i hi)]

end blankedAt

namespace Scanner

variable {s : Scanner}

theorem after_succ (s : Scanner) (n : Nat) : s.after (n + 1) = s.next.2.after n := by
  induction n with
  | zero => rfl
  | succ n ih => rw [after, ih, after]

theorem after_of_finished (h : s.finished = true) (n : Nat) : s.after n = s := by
  induction n with
  | zero => rfl
  | succ n ih => rw [after, ih, next_of_finished h]

theorem place_le_after (s : Scanner) (n : Nat) : s.place ≤ (s.after n).place := by
  induction n with
  | zero => exact le_rfl
  | succ n ih => exact ih.trans (place_le_next _)

theorem Skips.place_le (h : s.Skips place) : s.place ≤ place := by
  obtain ⟨k, n, -, -, hle, -⟩ := h
  exact (s.place_le_after k).trans hle

theorem not_skips_of_finished (h : s.finished = true) : ¬s.Skips place := by
  rintro ⟨k, n, hgoing, -⟩
  rw [after_of_finished h, h] at hgoing
  exact absurd hgoing (by decide)

/-- **What a scanner skips** is skipped by the next call or by a later one. -/
theorem skips_iff (hgoing : s.finished = false) : s.Skips place ↔
    (∃ n, Trivia.length s.options.skipComments s.rest = .ok n ∧ s.place ≤ place ∧
      place < s.place + n) ∨ s.next.2.Skips place := by
  constructor
  · rintro ⟨k, n, hk, hlength, hle, hlt⟩
    rcases k with _ | k
    · exact .inl ⟨n, hlength, hle, hlt⟩
    · rw [after_succ] at hk hlength hle hlt
      exact .inr ⟨k, n, hk, by rwa [options_next], hle, hlt⟩
  · rintro (⟨n, hlength, hle, hlt⟩ | ⟨k, n, hk, hlength, hle, hlt⟩)
    · exact ⟨0, n, hgoing, hlength, hle, hlt⟩
    · rw [← after_succ] at hk hlength hle hlt
      rw [options_next] at hlength
      exact ⟨k + 1, n, hk, hlength, hle, hlt⟩

/-- Counted from where the scanner stands: the trivia there, and what it skips later. -/
theorem skips_add_iff {n i : Nat} (hgoing : s.finished = false)
    (hlength : Trivia.length s.options.skipComments s.rest = .ok n) :
    s.Skips (s.place + i) ↔ i < n ∨ s.next.2.Skips (s.place + i) := by
  rw [skips_iff hgoing, hlength]
  simp

end Scanner

/-! ## Side by side -/

/-- **A text and its blanked form**, side by side. -/
inductive Blanking : List Char → List Char → Prop
  | done {gap : List Char} : Trivia.Gap true [] gap →
      Blanking gap (List.replicate gap.length ' ')
  | lexeme {gap w rest rest' : List Char} {c : Char} {l : Lexeme} :
      Trivia.Gap true (c :: (w ++ rest)) gap → Trivia.NoTrivia true (c :: (w ++ rest)) →
      Lexeme.read c (w ++ rest) = .ok l → l.length = w.length + 1 → Blanking rest rest' →
      Blanking (gap ++ c :: (w ++ rest)) (List.replicate gap.length ' ' ++ c :: (w ++ rest'))
  | misread {gap t : List Char} {c : Char} {m : Misread} : Trivia.Gap true (c :: t) gap →
      Trivia.NoTrivia true (c :: t) → Lexeme.read c t = .error m →
      Blanking (gap ++ c :: t) (List.replicate gap.length ' ' ++ c :: t)
  | unclosed {cs : List Char} {m : Misread} : Trivia.length true cs = .error m → Blanking cs cs

/-- The blanked form of the rest of a text. -/
def blankedFrom (cs : List Char) : List Char :=
  match _hnext : Next.of true cs with
  | .done n => List.replicate n ' '
  | .lexeme n l =>
    List.replicate n ' ' ++ ((cs.drop n).take l.length ++ blankedFrom (cs.drop (n + l.length)))
  | .misread _ =>
    match Trivia.length true cs with
    | .ok n => List.replicate n ' ' ++ cs.drop n
    | .error _ => cs
termination_by cs.length
decreasing_by exact Next.length_drop_lt _hnext

theorem blanking_blankedFrom (cs : List Char) : Blanking cs (blankedFrom cs) := by
  induction hlen : cs.length using Nat.strongRecOn generalizing cs with
  | _ k ih =>
    have hfound := Next.found_of true cs
    rw [blankedFrom]
    split
    · next n hnext =>
      rw [hnext] at hfound
      cases hfound with | done hgap => exact .done hgap
    · next n l hnext =>
      have ih := ih _ (hlen ▸ Next.length_drop_lt hnext) _ rfl
      rw [hnext] at hfound
      cases hfound with
      | @lexeme gap t c _ hgap hno hread =>
        obtain ⟨w, rest, hcs, hw⟩ := Lexeme.exists_written_of_read hread
        obtain ⟨d, w, rfl⟩ := List.exists_cons_of_ne_nil hw.ne_nil
        rw [List.cons_append] at hcs
        obtain ⟨rfl, rfl⟩ := List.cons.inj hcs
        have hlen := hw.length_eq.symm
        rw [← List.drop_drop, List.drop_left, ← List.cons_append, hlen, List.drop_left] at ih
        rw [← List.drop_drop, List.drop_left, ← List.cons_append, hlen, List.drop_left,
          List.take_left]
        exact .lexeme hgap hno hread hlen ih
    · next m hnext =>
      rw [hnext] at hfound
      cases hfound with
      | @misread gap t c m hgap hno hread =>
        rw [Trivia.length_eq_ok_iff.2 ⟨gap, c :: t, rfl, rfl, hgap, hno⟩]
        simp only [List.drop_left]
        exact .misread hgap hno hread
      | unclosed hlength =>
        rw [hlength]
        exact .unclosed hlength

namespace Blanking

variable {s : Scanner}

/-- The gap in front of a scanner is blanked, and then what it skips later. -/
theorem blankedAt_gap (hgoing : s.finished = false) (hcomments : s.options.skipComments = true)
    (hrest : s.rest = gap ++ rest) (hgap : Trivia.Gap true rest gap)
    (hno : Trivia.NoTrivia true rest) :
    blankedAt (fun i => s.Skips (s.place + i)) (gap ++ rest) = List.replicate gap.length ' ' ++
      blankedAt (fun i => s.next.2.Skips (s.place + (i + gap.length))) rest := by
  have hlength : Trivia.length s.options.skipComments s.rest = .ok gap.length := by
    rw [hcomments]
    exact Trivia.length_eq_ok_iff.2 ⟨gap, rest, hrest, rfl, hgap, hno⟩
  simp only [Scanner.skips_add_iff hgoing hlength]
  rw [blankedAt_append, blankedAt_of_forall fun i hi => .inl hi]
  simp only [Nat.not_lt.2 (Nat.le_add_left _ _), false_or]

/-- **Just what a scanner skips is blanked out.** -/
theorem eq_blankedAt (h : Blanking s.rest bs) (hgoing : s.finished = false)
    (hcomments : s.options.skipComments = true) :
    bs = blankedAt (fun i => s.Skips (s.place + i)) s.rest := by
  generalize hrest : s.rest = cs at h
  induction h generalizing s with
  | @done gap hgap =>
    have hno : Trivia.NoTrivia true [] := by simp [Trivia.NoTrivia, Trivia.comment]
    rw [← List.append_nil gap] at hrest
    have hblanked := blankedAt_gap hgoing hcomments hrest hgap hno
    simpa [blankedAt] using hblanked.symm
  | @lexeme gap w rest rest' c l hgap hno hread hlen _ ih =>
    have hnext := Next.of_append hgap hno
    rw [← hrest, ← hcomments, hread] at hnext
    have hmove : s.next.2 = s.move (gap.length + l.length) false := by
      simp [Scanner.next, hgoing, hnext]
    have hplace : s.next.2.place = s.place + (gap.length + (w.length + 1)) := by
      rw [hmove, Scanner.place_move, hlen]
    have hdrop : s.next.2.rest = rest := by
      have hmoved : s.next.2.rest = s.rest.drop (gap.length + l.length) := by rw [hmove]; rfl
      rw [hmoved, hrest, ← List.drop_drop, List.drop_left, hlen, List.drop_succ_cons,
        List.drop_left]
    have hlater := ih (by rw [hmove]; rfl) (by rwa [Scanner.options_next]) hdrop
    have hsplit : c :: (w ++ rest) = (c :: w) ++ rest := rfl
    rw [blankedAt_gap hgoing hcomments hrest hgap hno, hsplit, blankedAt_append,
      blankedAt_of_forall_not, hlater, hplace]
    · simp [Nat.add_comm, Nat.add_left_comm]
    · intro i hi hskips
      have hle := hskips.place_le
      rw [hplace] at hle
      rw [List.length_cons] at hi
      omega
  | @misread gap t c m hgap hno hread =>
    have hover : s.next.2.finished = true := by
      refine Scanner.finished_next s fun t => ?_
      simp [Scanner.next, hgoing, hrest, hcomments, Next.of_append hgap hno, hread]
    rw [blankedAt_gap hgoing hcomments hrest hgap hno,
      blankedAt_of_forall_not fun i _ => Scanner.not_skips_of_finished hover]
  | @unclosed cs m hlength =>
    have hover : s.next.2.finished = true := by
      refine Scanner.finished_next s fun t => ?_
      simp [Scanner.next, hgoing, hrest, hcomments, Next.of, hlength]
    refine (blankedAt_of_forall_not fun i _ => ?_).symm
    rw [Scanner.skips_iff hgoing, hrest, hcomments, hlength]
    simp [Scanner.not_skips_of_finished hover]

end Blanking

/-- **The blanked form can be computed.** -/
theorem SourceText.blanked_eq (source : SourceText) :
    source.blanked = ⟨blankedFrom source.chars⟩ := by
  have hblanking : Blanking (Scanner.start source ⟨true⟩).rest (blankedFrom source.chars) :=
    blanking_blankedFrom source.chars
  rw [hblanking.eq_blankedAt rfl rfl, SourceText.blanked]
  simp only [Scanner.start, Nat.zero_add]

namespace Blanking

/-! ## Where the two forms differ -/

theorem breaks_gap (hgap : Trivia.Gap true rest gap) (hne : gap ≠ []) : Breaks (gap ++ rest) := by
  cases hgap with
  | nil => exact absurd rfl hne
  | blank hc =>
    rintro d ⟨⟩
    exact List.mem_cons_of_mem _ hc
  | line | block =>
    rintro d ⟨⟩
    exact List.mem_cons_self

theorem breaks_spaces {n : Nat} (hn : n ≠ 0) (rest : List Char) :
    Breaks (List.replicate n ' ' ++ rest) := by
  obtain ⟨n, rfl⟩ := Nat.exists_eq_succ_of_ne_zero hn
  rintro d ⟨⟩
  decide

/-- Either the forms differ at once, or there is no gap in front. -/
theorem common_front_of_gap {rest' : List Char} (hgap : Trivia.Gap true rest gap)
    (h : gap = [] → ∃ u v v', rest = u ++ v ∧ rest' = u ++ v' ∧ Breaks v ∧ Breaks v') :
    ∃ u v v', gap ++ rest = u ++ v ∧ List.replicate gap.length ' ' ++ rest' = u ++ v' ∧
      Breaks v ∧ Breaks v' := by
  rcases eq_or_ne gap [] with rfl | hne
  · simpa using h rfl
  · exact ⟨[], _, _, rfl, rfl, breaks_gap hgap hne,
      breaks_spaces (List.length_pos_iff.2 hne).ne' rest'⟩

/-- **Up to a break on both sides the two forms are the same.** -/
theorem exists_common_front (h : Blanking cs bs) :
    ∃ u v v', cs = u ++ v ∧ bs = u ++ v' ∧ Breaks v ∧ Breaks v' := by
  have hnil : Breaks [] := nofun
  induction h with
  | @done gap hgap =>
    have hfront := common_front_of_gap hgap fun _ => ⟨[], [], [], rfl, rfl, hnil, hnil⟩
    simpa using hfront
  | @lexeme gap w rest rest' c l hgap _ _ _ _ ih =>
    refine common_front_of_gap hgap fun _ => ?_
    obtain ⟨u, v, v', rfl, rfl, hv, hv'⟩ := ih
    exact ⟨c :: (w ++ u), v, v', by simp, by simp, hv, hv'⟩
  | @misread gap t c m hgap _ _ =>
    exact common_front_of_gap hgap fun _ => ⟨c :: t, [], [], by simp, by simp, hnil, hnil⟩
  | @unclosed cs m _ => exact ⟨cs, [], [], by simp, by simp, hnil, hnil⟩

/-- A lexeme is found again in front of the blanked form of what follows it. -/
theorem read_eq (h : Blanking rest bs) (hread : Lexeme.read c (w ++ rest) = .ok l)
    (hlen : l.length = w.length + 1) : Lexeme.read c (w ++ bs) = .ok l := by
  obtain ⟨u, v, v', rfl, rfl, hv, hv'⟩ := h.exists_common_front
  rw [← List.append_assoc] at hread ⊢
  have hlen : l.length ≤ (w ++ u).length + 1 := by
    rw [List.length_append]
    omega
  exact ((Lexeme.read_append_iff hv').2 ((Lexeme.read_append_iff hv).1 ⟨hread, hlen⟩)).1

/-! ## The scans of both forms -/

theorem scanFrom_spaces (place n : Nat) (rest : List Char) :
    scanFrom false place (List.replicate n ' ' ++ rest) = scanFrom false (place + n) rest := by
  have hblank : ∀ c ∈ List.replicate n ' ', c ∈ Trivia.blanks := by
    intro c hc
    rw [List.eq_of_mem_replicate hc]
    decide
  rw [scanFrom_gap_append place (Trivia.gap_of_blanks hblank rest), List.length_replicate]

/-- What is no blank starts no trivia if comments are none. -/
theorem noTrivia_false (h : Trivia.NoTrivia true (c :: cs)) (rest : List Char) :
    Trivia.NoTrivia false (c :: rest) :=
  ⟨by simpa using h.1, nofun⟩

/-- **The blanked form scans to the same**, if no comment is without an end. -/
theorem scanFrom_eq (h : Blanking cs bs)
    (hclosed : ∀ e ∈ (scanFrom true place cs).failure, e.kind ≠ .unterminatedComment) :
    scanFrom false place bs = scanFrom true place cs := by
  induction h generalizing place with
  | @done gap hgap =>
    have hspaces := scanFrom_spaces place gap.length []
    have hgaps := scanFrom_gap_append place hgap
    rw [List.append_nil] at hspaces hgaps
    rw [hspaces, hgaps, scanFrom_nil, scanFrom_nil]
  | lexeme hgap hno hread hlen hrest ih =>
    rw [scanFrom_gap_append place hgap, scanFrom_read _ hno hread hlen] at hclosed ⊢
    rw [scanFrom_spaces, scanFrom_read _ (noTrivia_false hno _) (hrest.read_eq hread hlen) hlen,
      ih hclosed]
  | misread hgap hno hread =>
    rw [scanFrom_gap_append place hgap, scanFrom_unread _ hno hread, scanFrom_spaces,
      scanFrom_unread _ (noTrivia_false hno _) hread]
  | @unclosed cs m hlength =>
    have hnext : Next.of true cs = .misread m := by rw [Next.of, hlength]
    rw [scanFrom_misread hnext] at hclosed
    exact absurd (Trivia.kind_of_lengthFrom_eq_error hlength) (hclosed (m.error.shift place) rfl)

end Blanking

/-- Blanking a text out does not change its length. -/
theorem SourceText.length_blanked (source : SourceText) :
    source.blanked.length = source.length := by
  simp [blanked, blankedAt, SourceText.length]

/-- **The blanked text scans without comments to the same.** -/
theorem SourceText.scan_blanked {source : SourceText}
    (hclosed : ∀ e ∈ (source.scan ⟨true⟩).failure, e.kind ≠ .unterminatedComment) :
    source.blanked.scan ⟨false⟩ = source.scan ⟨true⟩ := by
  rw [source.blanked_eq]
  exact (blanking_blankedFrom source.chars).scanFrom_eq hclosed

end ModuleImports
