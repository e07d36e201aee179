import Mathlib.Data.List.TakeWhile

/-!
# Proofs/Text/Run — classes of characters and their runs

Whether some characters are in a class can be looked up (`eq_false_of_mem`), and for the first
characters of all, one code after the other (`of_forall_ofNat`).

`takeWhile` and `dropWhile` split a text after its longest run of a class.  Conversely a run, and a
rest that does not go on with it, are what the two give (`takeWhile_append_of_stops`,
`dropWhile_append_of_stops`).  A text that no run goes on with changes nothing in front of it
(`stops_append_iff`, `takeWhile_append_stops`).
-/

namespace ModuleImports

/-! ## Classes -/

/-- What holds of the characters of the first codes holds of every character among them. -/
theorem of_forall_ofNat {P : Char → Prop} {bound : Nat} (h : ∀ n < bound, P (Char.ofNat n))
    {c : Char} (hc : c.toNat < bound) : P c := by
  have hP := h c.toNat hc
  rwa [Char.ofNat_toNat] at hP

/-- Characters of which none is in a class. -/
theorem eq_false_of_mem {p : Char → Bool} {c : Char} {cs : List Char} (hc : c ∈ cs)
    (hp : cs.any p = false) : p c = false := by
  rw [List.any_eq_false] at hp
  exact Bool.eq_false_iff.2 (hp c hc)

/-! ## Runs -/

/-- A text does not start with a character of the class. -/
def Stops (p : Char → Bool) (cs : List Char) : Prop := ∀ c ∈ cs.head?, p c = false

variable {p : Char → Bool} {run rest cs : List Char}

@[simp] theorem stops_nil : Stops p [] := by simp [Stops]

@[simp] theorem stops_cons {c : Char} : Stops p (c :: cs) ↔ p c = false := by simp [Stops]

theorem stops_dropWhile (p : Char → Bool) (cs : List Char) : Stops p (cs.dropWhile p) := by
  intro c hc
  have h := List.head?_dropWhile_not p cs
  rw [Option.mem_def.1 hc] at h
  exact h

theorem takeWhile_append_of_stops (hrun : ∀ c ∈ run, p c = true) (hrest : Stops p rest) :
    (run ++ rest).takeWhile p = run := by
  rw [List.takeWhile_append_of_pos hrun]
  rcases rest with _ | ⟨c, rest⟩
  · simp
  · simp [List.takeWhile_cons_of_neg (by simpa using hrest : ¬p c = true)]

theorem stops_append_iff (hrest : Stops p rest) (cs : List Char) :
    Stops p (cs ++ rest) ↔ Stops p cs := by
  rcases cs with _ | ⟨c, cs⟩
  · simpa using hrest
  · simp

theorem takeWhile_append_stops (hrest : Stops p rest) (cs : List Char) :
    (cs ++ rest).takeWhile p = cs.takeWhile p := by
  induction cs with
  | nil =>
    have hnil : ∀ c ∈ ([] : List Char), p c = true := nofun
    exact takeWhile_append_of_stops hnil hrest
  | cons c cs ih => simp only [List.cons_append, List.takeWhile_cons, ih]

theorem dropWhile_append_of_stops (hrun : ∀ c ∈ run, p c = true) (hrest : Stops p rest) :
    (run ++ rest).dropWhile p = rest := by
  rw [List.dropWhile_append_of_pos hrun]
  rcases rest with _ | ⟨c, rest⟩
  · simp
  · simp [List.dropWhile_cons_of_neg (by simpa using hrest : ¬p c = true)]

/-- **Two runs of a class** that do not go on are told apart by the texts they start. -/
theorem append_inj_of_stops {run' rest' : List Char} (hrun : ∀ c ∈ run, p c = true)
    (hrest : Stops p rest) (hrun' : ∀ c ∈ run', p c = true) (hrest' : Stops p rest')
    (h : run ++ rest = run' ++ rest') : run = run' ∧ rest = rest' := by
  constructor
  · rw [← takeWhile_append_of_stops hrun hrest, h, takeWhile_append_of_stops hrun' hrest']
  · rw [← dropWhile_append_of_stops hrun hrest, h, dropWhile_append_of_stops hrun' hrest']

theorem bne_of_notMem {mark : Char} (h : mark ∉ cs) : ∀ c ∈ cs, (c != mark) = true := by
  intro c hc
  rw [bne_iff_ne]
  rintro rfl
  exact h hc

/-- Texts up to the first occurrence of a mark are told apart. -/
theorem append_cons_inj_of_notMem {front front' rest' : List Char} {mark : Char}
    (hfront : mark ∉ front) (hfront' : mark ∉ front')
    (h : front ++ mark :: rest = front' ++ mark :: rest') : front = front' ∧ rest = rest' := by
  have hstops (behind : List Char) : Stops (· != mark) (mark :: behind) :=
    stops_cons.2 (bne_self_eq_false mark)
  obtain ⟨hsame, hrest⟩ := append_inj_of_stops (bne_of_notMem hfront) (hstops rest)
    (bne_of_notMem hfront') (hstops rest') h
  exact ⟨hsame, (List.cons.inj hrest).2⟩

/-- A text is its longest run and a rest that does not go on with it. -/
theorem exists_run (p : Char → Bool) (cs : List Char) : ∃ run rest, cs = run ++ rest ∧
    (∀ c ∈ run, p c = true) ∧ Stops p rest ∧ cs.takeWhile p = run ∧ cs.dropWhile p = rest :=
  ⟨cs.takeWhile p, cs.dropWhile p, List.takeWhile_append_dropWhile.symm,
    fun _ hc => List.mem_takeWhile_imp hc, stops_dropWhile p cs, rfl, rfl⟩

/-! ## Pieces -/

/-- Of two pieces at the front of a text, the one that is no longer lies in the other. -/
theorem exists_append_of_length_le {piece other behind : List Char}
    (h : other ++ behind = piece ++ rest) (hlen : piece.length ≤ other.length) :
    ∃ between, other = piece ++ between ∧ rest = between ++ behind := by
  rcases List.append_eq_append_iff.1 h with ⟨between, rfl, rfl⟩ | ⟨between, rfl, rfl⟩
  · rw [List.length_append] at hlen
    obtain rfl : between = [] := List.eq_nil_of_length_eq_zero (by omega)
    exact ⟨[], by simp, rfl⟩
  · exact ⟨between, rfl, rfl⟩

end ModuleImports
