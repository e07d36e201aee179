import ModuleImports.Proofs.Text.Slice

/-!
# Proofs/Text/ContextWindow — a context window has its place over the caret

A window is one line of the text and one line with a caret.  `Shows` says of any two lines that they
show a place, and `eq_contextWindow_iff_shows` that the context window of a place is the one text
that does.

Line breaks of the text show as spaces, so the window has no more lines than two
(`splitOn_contextWindow`).  Whatever opens the first line pushes the caret as far as the characters
(`getElem?_contextLine`), and nothing of the text stands behind the place's own character
(`length_contextLine`).
-/

namespace ModuleImports.SourceText

variable {source : SourceText} {place column : Nat} {c d : Char} {window above : List Char}

/-- **A window shows a place** of a text: `above` is its first line, and in the second is a caret in
the column `column`. -/
structure Shows (source : SourceText) (place : Nat) (window above : List Char) (column : Nat) :
    Prop where
  /-- There are two lines, and so one line feed; the second line is spaces and the caret. -/
  splitOn_eq : window.splitOn '\n' = [above, List.replicate column ' ' ++ ['^']]
  return_notMem : '\r' ∉ window
  /-- The first line has the last ten characters before the place, or all of them, and the one at
  it.  It opens with an ellipsis just if there are more before. -/
  above_eq : ∃ before, before <:+ source.chars.take place ∧ before.length = min place 10 ∧
    above = (if 10 < place then ['.', '.', '.'] else []) ++
      (before ++ (source.charAt? place).toList).map showOnLine
  /-- The character at the place is over the caret, and each shown before it is as many columns to
  the left as it is places before. -/
  aligned : ∀ i ≤ place, place ≤ i + 10 →
    above[column - (place - i)]? = (source.charAt? i).map showOnLine
  /-- Inside the text the caret is under the last character of the first line. -/
  of_inside : place < source.length → above.length = column + 1
  /-- At the end of the text it is one past the end of that line. -/
  of_end : source.length ≤ place → above.length = column

/-- **At most one text shows a place.** -/
theorem Shows.unique {window' above' : List Char} {column' : Nat}
    (h : source.Shows place window above column) (h' : source.Shows place window' above' column') :
    window = window' := by
  obtain ⟨before, hsuffix, hlength, habove⟩ := h.above_eq
  obtain ⟨before', hsuffix', hlength', habove'⟩ := h'.above_eq
  -- Two ends of one text are the same if they are as long, and then so are the lines.
  have hsame : before.length = before'.length := hlength.trans hlength'.symm
  obtain rfl : before = before' :=
    (List.suffix_of_suffix_length_le hsuffix hsuffix' (Nat.le_of_eq hsame)).eq_of_length hsame
  obtain rfl : above = above' := habove.trans habove'.symm
  -- The length of the line gives the column away.
  obtain rfl : column = column' := by
    rcases Nat.lt_or_ge place source.length with hin | hend
    · exact Nat.add_right_cancel ((h.of_inside hin).symm.trans (h'.of_inside hin))
    · exact (h.of_end hend).symm.trans (h'.of_end hend)
  calc window = ['\n'].intercalate (window.splitOn '\n') := (List.intercalate_splitOn '\n').symm
    _ = ['\n'].intercalate (window'.splitOn '\n') := by rw [h.splitOn_eq, h'.splitOn_eq]
    _ = window' := List.intercalate_splitOn '\n'

/-! ## The two lines -/

/-- The first line of the window of a place inside the text or at its end. -/
def contextLine (source : SourceText) (place : Nat) : List Char :=
  contextEllipsis (place - contextReach) ++
    (source.slice (place - contextReach) (place + 1)).map showOnLine

/-- The column of the caret under it. -/
def caretColumn (place : Nat) : Nat :=
  (contextEllipsis (place - contextReach)).length + (place - (place - contextReach))

theorem contextWindow_eq_append (source : SourceText) (place : Nat) :
    source.contextWindow place = source.contextLine (min place source.length) ++
      '\n' :: (List.replicate (caretColumn (min place source.length)) ' ' ++ ['^']) := by
  simp [contextWindow, contextLine, caretColumn]

theorem contextEllipsis_eq (place : Nat) :
    contextEllipsis (place - contextReach) = if 10 < place then ['.', '.', '.'] else [] := by
  simp only [contextEllipsis, contextReach, gt_iff_lt, Nat.sub_pos_iff_lt]

theorem showOnLine_ne (hd : d = '\n' ∨ d = '\r') : showOnLine c ≠ d := by
  unfold showOnLine
  split
  · rcases hd with rfl | rfl <;> decide
  · next hc => exact fun hcd => hc (hcd ▸ hd)

theorem notMem_contextLine (hd : d = '\n' ∨ d = '\r') : d ∉ source.contextLine place := by
  rw [contextLine, List.mem_append, not_or, contextEllipsis_eq]
  constructor
  · split <;> rcases hd with rfl | rfl <;> decide
  · intro hmem
    obtain ⟨c, -, hc⟩ := List.mem_map.1 hmem
    exact showOnLine_ne hd hc

theorem notMem_caretLine (hd : d = '\n' ∨ d = '\r') :
    d ∉ List.replicate column ' ' ++ ['^'] := by
  rw [List.mem_append, List.mem_replicate, List.mem_singleton]
  rcases hd with rfl | rfl <;> simp

/-- **A window is cut at its line feed** into its two lines. -/
theorem splitOn_contextWindow (source : SourceText) (place : Nat) :
    (source.contextWindow place).splitOn '\n' = [source.contextLine (min place source.length),
      List.replicate (caretColumn (min place source.length)) ' ' ++ ['^']] := by
  rw [contextWindow_eq_append,
    List.splitOn_append_cons_self_of_not_mem (notMem_contextLine (.inl rfl)),
    List.splitOn_eq_singleton (notMem_caretLine (.inl rfl))]

theorem return_notMem_contextWindow (source : SourceText) (place : Nat) :
    '\r' ∉ source.contextWindow place := by
  rw [contextWindow_eq_append, List.mem_append, List.mem_cons, not_or, not_or]
  exact ⟨notMem_contextLine (.inr rfl), by decide, notMem_caretLine (.inr rfl)⟩

/-! ## What stands over the caret -/

/-- **A character shown is as far from the caret** as it is from the place. -/
theorem getElem?_contextLine {i : Nat} (source : SourceText) (hle : i ≤ place)
    (hreach : place ≤ i + contextReach) :
    (source.contextLine place)[caretColumn place - (place - i)]? =
      (source.charAt? i).map showOnLine := by
  have hcolumn : caretColumn place - (place - i) =
      (contextEllipsis (place - contextReach)).length + (i - (place - contextReach)) := by
    rw [caretColumn]
    omega
  have hplace : place - contextReach + (i - (place - contextReach)) = i := by omega
  rw [hcolumn, contextLine, List.getElem?_append_right (Nat.le_add_right _ _),
    Nat.add_sub_cancel_left, List.getElem?_map, getElem?_slice source (by omega), hplace]

/-- The line has one character at most from the caret on: the one at the place. -/
theorem length_contextLine (hplace : place ≤ source.length) : (source.contextLine place).length =
    caretColumn place + (source.charAt? place).toList.length := by
  rw [contextLine, caretColumn, List.length_append, List.length_map,
    slice_add_one (Nat.sub_le _ _) hplace, List.length_append, length_slice hplace, Nat.add_assoc]

theorem contextLine_eq_append (hplace : place ≤ source.length) : source.contextLine place =
    (if 10 < place then ['.', '.', '.'] else []) ++
      (source.slice (place - contextReach) place ++ (source.charAt? place).toList).map
        showOnLine := by
  rw [contextLine, contextEllipsis_eq, slice_add_one (Nat.sub_le _ _) hplace]

/-- The context window of a place shows it, or the end of the text if the place is past that. -/
theorem shows_contextWindow (source : SourceText) (place : Nat) :
    source.Shows (min place source.length) (source.contextWindow place)
      (source.contextLine (min place source.length)) (caretColumn (min place source.length)) := by
  have hshown : min place source.length ≤ source.length := Nat.min_le_right _ _
  constructor
  case splitOn_eq => exact source.splitOn_contextWindow place
  case return_notMem => exact source.return_notMem_contextWindow place
  case aligned => exact fun _ hle hreach => source.getElem?_contextLine hle hreach
  case above_eq =>
    refine ⟨_, source.slice_isSuffix _ _, ?_, contextLine_eq_append hshown⟩
    rw [length_slice hshown, contextReach]
    omega
  case of_inside =>
    intro hin
    rw [length_contextLine hshown, charAt?, List.getElem?_eq_getElem hin]
    rfl
  case of_end =>
    intro hend
    rw [length_contextLine hshown, charAt?, List.getElem?_eq_none hend]
    rfl

/-- **The context window of a place** is the text that shows it over the caret. -/
theorem eq_contextWindow_iff_shows (source : SourceText) (place : Nat) (window : List Char) :
    window = source.contextWindow place ↔
      ∃ above column, source.Shows (min place source.length) window above column := by
  constructor
  · rintro rfl
    exact ⟨_, _, source.shows_contextWindow place⟩
  · rintro ⟨above, column, h⟩
    exact h.unique (source.shows_contextWindow place)

/-- Of eleven characters before the place one is left out, and one of the others is a line feed. -/
example : (ofString "import a\nfrom b").contextWindow 11 =
    "...mport a fro\n             ^".toList := by decide

end ModuleImports.SourceText
