import ModuleImports.Text.Source

/-!
# Proofs/Text/Slice — the text at a place, piece by piece

What a text goes on with at a place is a slice and the text behind it.  `slice_of_drop` reads the
slice off a text that is known to go on with some characters, and `drop_eq_slice_append` cuts a text
at two places.
-/

namespace ModuleImports.SourceText

variable {source : SourceText} {a b place : Nat} {c : Char}

theorem slice_eq (source : SourceText) (a k : Nat) :
    source.slice a (a + k) = (source.chars.drop a).take k := by
  rw [slice, List.drop_take, Nat.add_sub_cancel_left]

/-- The text from a place on, the places of a piece in front of it and of the rest. -/
theorem slice_of_drop {w rest : List Char} (h : source.chars.drop a = w ++ rest) :
    source.slice a (a + w.length) = w ∧ source.chars.drop (a + w.length) = rest := by
  rw [slice_eq, h, ← List.drop_drop, h]
  exact ⟨List.take_left, List.drop_left⟩

/-- The text from a place on is a slice and the text behind it. -/
theorem drop_eq_slice_append (source : SourceText) (hle : a ≤ b) :
    source.chars.drop a = source.slice a b ++ source.chars.drop b := by
  obtain ⟨k, rfl⟩ := Nat.exists_eq_add_of_le hle
  rw [slice_eq, ← List.drop_drop, List.take_append_drop]

theorem length_slice (hb : b ≤ source.length) : (source.slice a b).length = b - a := by
  rw [slice, List.length_drop, List.length_take, ← SourceText.length, Nat.min_eq_left hb]

/-- A slice is the end of the text up to where it stops. -/
theorem slice_isSuffix (source : SourceText) (a b : Nat) :
    source.slice a b <:+ source.chars.take b :=
  List.drop_suffix a _

/-- A slice has the characters of the text, from its start on. -/
theorem getElem?_slice {k : Nat} (source : SourceText) (h : a + k < b) :
    (source.slice a b)[k]? = source.charAt? (a + k) := by
  rw [slice, List.getElem?_drop, List.getElem?_take_of_lt h, charAt?]

/-- A slice goes on with the character behind it, if there is one. -/
theorem slice_add_one (hle : a ≤ b) (hb : b ≤ source.length) :
    source.slice a (b + 1) = source.slice a b ++ (source.charAt? b).toList := by
  have hlength : a ≤ (source.chars.take b).length := by
    rwa [List.length_take, ← SourceText.length, Nat.min_eq_left hb]
  rw [slice, List.take_add_one, List.drop_append_of_le_length hlength, slice, charAt?]

theorem drop_of_charAt? (h : source.charAt? place = some c) :
    source.chars.drop place = c :: source.chars.drop (place + 1) := by
  obtain ⟨hlt, rfl⟩ := List.getElem?_eq_some_iff.1 h
  exact List.drop_eq_getElem_cons hlt

theorem charAt?_eq_head? (source : SourceText) (place : Nat) :
    source.charAt? place = (source.chars.drop place).head? :=
  List.head?_drop.symm

theorem charAt?_of_drop {cs : List Char} (h : source.chars.drop place = c :: cs) :
    source.charAt? place = some c := by
  rw [charAt?_eq_head?, h, List.head?_cons]

/-- The characters behind a piece of a text. -/
theorem charAt?_add_length {w rest : List Char} (h : source.chars.drop a = w ++ rest) (k : Nat) :
    source.charAt? (a + w.length + k) = (rest.drop k).head? := by
  rw [charAt?_eq_head?, ← List.drop_drop, (slice_of_drop h).2]

end ModuleImports.SourceText
