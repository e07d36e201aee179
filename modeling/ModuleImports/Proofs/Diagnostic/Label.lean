import ModuleImports.Diagnostic.Fault
import ModuleImports.Proofs.Text.Slice

/-!
# Proofs/Diagnostic/Label — labels point at the right bytes

A span counts characters and a label counts bytes.  The two ends of a span cut a text into the piece
in front of it, the piece under it and the piece behind it, and the offsets of the ends are the
lengths of pieces in the text's UTF-8 form.  A span that leaves the text has shorter pieces or empty
ones, so whatever the span, its label points at what the text has there (`Label.pointsAt_on`).
-/

namespace ModuleImports

/-! ## The pieces of a text -/

namespace SourceText

variable {a b : Nat}

/-- The text up to a place is the text up to an earlier one and the slice between them. -/
theorem take_append_slice (source : SourceText) (h : a ≤ b) :
    source.chars.take a ++ source.slice a b = source.chars.take b := by
  have hfront : (source.chars.take b).take a = source.chars.take a := by
    rw [List.take_take, Nat.min_eq_left h]
  rw [slice, ← hfront, List.take_append_drop]

/-- **Between the offsets of two places** are the bytes of the slice. -/
theorem byteOffset_eq_add (source : SourceText) (h : a ≤ b) : source.byteOffset b =
    source.byteOffset a + (String.ofList (source.slice a b)).utf8ByteSize := by
  rw [byteOffset, byteOffset, ← String.utf8ByteSize_append, ← String.ofList_append,
    source.take_append_slice h]

/-- A text is the piece in front of a span, the piece under it and the piece behind it. -/
theorem eq_pieces (text : String) (h : a ≤ b) : text = String.ofList (text.toList.take a) ++
    String.ofList ((ofString text).slice a b) ++ String.ofList (text.toList.drop b) := by
  rw [← String.ofList_append, ← String.ofList_append,
    show text.toList.take a ++ _ = _ from (ofString text).take_append_slice h]
  exact (String.ofList_toList.symm.trans (congrArg String.ofList (List.take_append_drop b _).symm))

end SourceText

namespace Label

section Pieces

variable {text front piece behind : String} (h : text = front ++ piece ++ behind)
include h

/-- Up to the length of the first piece are its bytes. -/
theorem extract_front : text.toByteArray.extract 0 front.utf8ByteSize = front.toByteArray := by
  rw [h, String.append_assoc, String.toByteArray_append]
  exact ByteArray.extract_append_eq_left rfl

/-- From there on, for the length of the second piece, are the bytes of that. -/
theorem extract_piece : text.toByteArray.extract front.utf8ByteSize
    (front.utf8ByteSize + piece.utf8ByteSize) = piece.toByteArray := by
  have hbehind : (front.toByteArray ++ (piece ++ behind).toByteArray).extract
      (front.utf8ByteSize + 0) (front.utf8ByteSize + piece.utf8ByteSize) =
      (piece ++ behind).toByteArray.extract 0 piece.utf8ByteSize :=
    ByteArray.extract_append_size_add' rfl
  rw [h, String.append_assoc, String.toByteArray_append]
  rw [Nat.add_zero] at hbehind
  rw [hbehind, String.toByteArray_append]
  exact ByteArray.extract_append_eq_left rfl

theorem add_le_utf8ByteSize : front.utf8ByteSize + piece.utf8ByteSize ≤ text.utf8ByteSize := by
  rw [h, String.utf8ByteSize_append, String.utf8ByteSize_append]
  exact Nat.le_add_right _ _

/-- Pieces end between characters. -/
theorem isValid_pieces : String.Pos.Raw.IsValid text ⟨front.utf8ByteSize⟩ ∧
    String.Pos.Raw.IsValid text ⟨front.utf8ByteSize + piece.utf8ByteSize⟩ := by
  refine ⟨String.Pos.Raw.isValid_iff_exists_append.2 ⟨front, piece ++ behind, ?_, rfl⟩,
    String.Pos.Raw.isValid_iff_exists_append.2 ⟨front ++ piece, behind, h, ?_⟩⟩
  · rw [h, String.append_assoc]
  · rw [← String.utf8ByteSize_append]
    rfl

end Pieces

/-! ## Labels -/

/-- **A label points at what a text has under a span**: behind the bytes of the characters in front
of it, at the bytes of the characters under it. -/
structure PointsAt (text : String) (s : Span) (l : Label) : Prop where
  /-- The offsets of both ends come in this order, so that their difference is a length. -/
  ordered :
    (SourceText.ofString text).byteOffset s.start ≤ (SourceText.ofString text).byteOffset s.stop
  inside : l.offset + l.length ≤ text.utf8ByteSize
  front : text.toByteArray.extract 0 l.offset =
    (String.ofList (text.toList.take s.start)).toByteArray
  covered : text.toByteArray.extract l.offset (l.offset + l.length) =
    (String.ofList ((SourceText.ofString text).slice s.start s.stop)).toByteArray
  /-- No character is cut at the start. -/
  isValid_start : String.Pos.Raw.IsValid text ⟨l.offset⟩
  /-- No character is cut at the end. -/
  isValid_stop : String.Pos.Raw.IsValid text ⟨l.offset + l.length⟩

/-- **The label on a span** points at it. -/
theorem pointsAt_on (text : String) (s : Span) (note : String) :
    (on (.ofString text) s note).PointsAt text s := by
  have hle : s.start ≤ s.stop := Nat.le_add_right _ _
  have hadd := (SourceText.ofString text).byteOffset_eq_add hle
  -- Both places of the label are lengths of pieces, after which the pieces themselves decide.
  have hlength : (on (.ofString text) s note).length =
      (String.ofList ((SourceText.ofString text).slice s.start s.stop)).utf8ByteSize := by
    simp only [on, SourceText.byteRange, hadd, Nat.add_sub_cancel_left]
  have hoffset : (on (.ofString text) s note).offset =
      (String.ofList (text.toList.take s.start)).utf8ByteSize := rfl
  have htext := SourceText.eq_pieces text hle
  obtain ⟨hstart, hstop⟩ := isValid_pieces htext
  constructor
  case ordered => exact hadd ▸ Nat.le_add_right _ _
  all_goals rw [hoffset]
  case front => exact extract_front htext
  case isValid_start => exact hstart
  all_goals rw [hlength]
  case inside => exact add_le_utf8ByteSize htext
  case covered => exact extract_piece htext
  case isValid_stop => exact hstop

end Label

/-- **The labels of errors point at the right bytes**, wherever their spans are. -/
theorem labels_pointAt_spans (text : String) :
    (∀ e : LexicalError, (e.label (.ofString text)).PointsAt text e.span) ∧
      ∀ e : SyntaxError, (e.label (.ofString text)).PointsAt text e.span :=
  ⟨fun e => Label.pointsAt_on text e.span _, fun e => Label.pointsAt_on text e.span _⟩

/-- A span that starts inside a text and leaves it covers the rest, here one character of two
bytes. -/
example : Label.on (.ofString "é#é") ⟨2, 9⟩ "here" = ⟨"here", 3, 2⟩ := by decide +kernel

end ModuleImports
