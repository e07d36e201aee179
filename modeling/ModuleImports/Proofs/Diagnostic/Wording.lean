import ModuleImports.Diagnostic.Fault
import ModuleImports.Proofs.Text.Run

/-!
# Proofs/Diagnostic/Wording — what the messages say

A template is filled piece by piece: text in which a hole does not stand stays as it is, and a hole
gives way to its argument.  So a message with one hole names its argument as it is, whatever braces
are in it, and a message about a character says which.  Of two arguments the second is named as it
is, and the first too if it brings no hole for the second.
-/

namespace ModuleImports

namespace Template

variable {before new text : List Char} {i j : Nat}

/-! ## Where a hole stands -/

/-- Only its first character opens a hole. -/
theorem not_mem_tail_hole (i : Nat) : '{' ∉ (hole i).tail := by
  simp only [hole, List.cons_append, List.tail_cons, List.mem_append, List.mem_singleton, not_or]
  exact ⟨fun hc => absurd (Nat.isDigit_of_mem_toDigits (by decide) (by decide) hc) (by decide),
    by decide⟩

/-- Holes with different numbers do not start alike. -/
theorem eq_of_hole_isPrefix (h : hole i <+: hole j ++ text) : i = j := by
  have hrun (n : Nat) (rest : List Char) :
      (Nat.toDigits 10 n ++ '}' :: rest).takeWhile Char.isDigit = Nat.toDigits 10 n :=
    takeWhile_append_of_stops
      (fun _ hc => Nat.isDigit_of_mem_toDigits (by decide) (by decide) hc) (stops_cons.2 rfl)
  obtain ⟨rest, hrest⟩ := h
  have hsame : Nat.toDigits 10 i ++ '}' :: rest = Nat.toDigits 10 j ++ '}' :: text := by
    simpa [hole] using hrest
  have hdigits : Nat.toDigits 10 i = Nat.toDigits 10 j := by rw [← hrun i, hsame, hrun]
  rw [← Nat.ofDigitChars_toDigits (b := 10) (n := i) (by decide) (by decide), hdigits,
    Nat.ofDigitChars_toDigits (by decide) (by decide)]

/-- A hole that starts in a text ends in it too, if what follows cannot go on with a hole. -/
theorem infix_of_isPrefix_append (h : hole i <+: before ++ text) (hne : before ≠ [])
    (htext : ∀ c ∈ text.head?, c ∉ (hole i).tail) : hole i <:+: before := by
  obtain ⟨rest, hrest⟩ := h
  rcases List.append_eq_append_iff.1 hrest with ⟨more, rfl, -⟩ | ⟨excess, hexcess, rfl⟩
  · exact (List.prefix_append _ _).isInfix
  · rcases excess with _ | ⟨c, excess⟩
    · have hbefore : hole i = before := hexcess.trans (List.append_nil before)
      exact hbefore ▸ List.infix_rfl
    · obtain ⟨d, before, rfl⟩ := List.exists_cons_of_ne_nil hne
      have hc : c ∈ (hole i).tail := by simp [hexcess]
      exact absurd hc (htext c rfl)

/-! ## Filling piece by piece -/

/-- Text without an opening brace stays as it is. -/
theorem replaceAll_hole_append_of_not_mem (h : '{' ∉ before) (text : List Char) :
    replaceAll (hole i) new (before ++ text) = before ++ replaceAll (hole i) new text := by
  induction before with
  | nil => rfl
  | cons c before ih =>
    rw [List.mem_cons, not_or] at h
    have hno : (hole i).isPrefixOf (c :: (before ++ text)) = false := by
      simp [hole, List.isPrefixOf, h.1]
    rw [List.cons_append, replaceAll_cons, hno, if_neg Bool.false_ne_true, ih h.2,
      List.cons_append]

/-- **Text in which a hole does not stand** stays as it is, if what follows cannot go on with the
hole either. -/
theorem replaceAll_hole_append_of_not_infix (h : ¬hole i <:+: before)
    (htext : ∀ c ∈ text.head?, c ∉ (hole i).tail) :
    replaceAll (hole i) new (before ++ text) = before ++ replaceAll (hole i) new text := by
  induction before with
  | nil => rfl
  | cons c before ih =>
    have hno : (hole i).isPrefixOf (c :: before ++ text) = false := by
      rw [Bool.eq_false_iff, ne_eq, List.isPrefixOf_iff_prefix]
      exact fun hfront => h (infix_of_isPrefix_append hfront (List.cons_ne_nil _ _) htext)
    have hbefore : ¬hole i <:+: before := fun hin => h (hin.trans (List.suffix_cons _ _).isInfix)
    rw [List.cons_append] at hno ⊢
    rw [replaceAll_cons, hno, if_neg Bool.false_ne_true, ih hbefore, List.cons_append]

/-- A hole for another argument stays. -/
theorem replaceAll_hole_append_of_ne (h : i ≠ j) (new text : List Char) :
    replaceAll (hole i) new (hole j ++ text) = hole j ++ replaceAll (hole i) new text := by
  have hno : (hole i).isPrefixOf (hole j ++ text) = false := by
    rw [Bool.eq_false_iff, ne_eq, List.isPrefixOf_iff_prefix]
    exact fun hfront => h (eq_of_hole_isPrefix hfront)
  have htail : replaceAll (hole i) new ((hole j).tail ++ text) =
      (hole j).tail ++ replaceAll (hole i) new text :=
    replaceAll_hole_append_of_not_mem (not_mem_tail_hole j) text
  simp only [hole, List.cons_append, List.tail_cons] at hno htail ⊢
  rw [replaceAll_cons, hno, if_neg Bool.false_ne_true, htail]

/-- A hole gives way to its argument. -/
theorem replaceAll_hole_append (i : Nat) (new text : List Char) :
    replaceAll (hole i) new (hole i ++ text) = new ++ replaceAll (hole i) new text := by
  have hfront : (hole i).isPrefixOf (hole i ++ text) = true :=
    List.isPrefixOf_iff_prefix.2 (List.prefix_append _ _)
  have hdrop : (hole i ++ text).drop (hole i).length = text := List.drop_left
  rw [hole, List.cons_append, List.cons_append] at hfront hdrop ⊢
  rw [replaceAll_cons, hfront, if_pos rfl]
  exact congrArg (fun rest => new ++ replaceAll _ new rest) hdrop

/-- **A template with one hole** names its argument in place of it. -/
theorem fill_of_one_hole {template before after : String}
    (h : template.toList = before.toList ++ (hole 0 ++ after.toList))
    (hbefore : '{' ∉ before.toList) (hafter : '{' ∉ after.toList) (arg : String) :
    fill template [arg] = before ++ arg ++ after := by
  have hrest : replaceAll (hole 0) arg.toList after.toList = after.toList := by
    simpa using replaceAll_hole_append_of_not_mem hafter []
  rw [fill, h, List.map_singleton, fillFrom, fillFrom,
    replaceAll_hole_append_of_not_mem hbefore, replaceAll_hole_append, hrest]
  simp [String.ofList_append, String.append_assoc]

/-- **A template with two holes** names its arguments in place of them, if the first brings no hole
for the second. -/
theorem fill_of_two_holes {template before between after : String}
    (h : template.toList =
      before.toList ++ (hole 0 ++ (between.toList ++ (hole 1 ++ after.toList))))
    (hbefore : '{' ∉ before.toList) (hbetween : '{' ∉ between.toList) (hafter : '{' ∉ after.toList)
    {first : String} (hfirst : ¬hole 1 <:+: first.toList ++ between.toList) (second : String) :
    fill template [first, second] = before ++ first ++ between ++ second ++ after := by
  have hrest (i : Nat) (new : List Char) : replaceAll (hole i) new after.toList = after.toList := by
    simpa using replaceAll_hole_append_of_not_mem hafter []
  have hopens : ∀ c ∈ (hole 1 ++ after.toList).head?, c ∉ (hole 1).tail := by
    simpa [hole] using not_mem_tail_hole 1
  have hzero : replaceAll (hole 0) first.toList template.toList = before.toList ++
      ((first.toList ++ between.toList) ++ (hole 1 ++ after.toList)) := by
    rw [h, replaceAll_hole_append_of_not_mem hbefore, replaceAll_hole_append,
      replaceAll_hole_append_of_not_mem hbetween, replaceAll_hole_append_of_ne (by decide), hrest,
      List.append_assoc]
  rw [fill, List.map_cons, List.map_singleton, fillFrom, fillFrom, fillFrom, hzero,
    replaceAll_hole_append_of_not_mem hbefore, replaceAll_hole_append_of_not_infix hfirst hopens,
    replaceAll_hole_append, hrest]
  simp [String.ofList_append, String.append_assoc]

end Template

namespace LexicalError

/-- The message about a character that is no token says which it is. -/
theorem text_of_unexpectedCharacter (name : String) (s : Span) :
    (⟨.unexpectedCharacter, [name], s⟩ : LexicalError).text =
      "Unexpected character '" ++ name ++ "'." := by
  have htemplate : LexicalErrorKind.unexpectedCharacter.message.template.toList =
      "Unexpected character '".toList ++ (Template.hole 0 ++ "'.".toList) := by decide
  exact Template.fill_of_one_hole htemplate (by decide) (by decide) name

/-- The message about a character that starts no escape says which it is. -/
theorem text_of_invalidEscape (name : String) (s : Span) :
    (⟨.invalidEscape, [name], s⟩ : LexicalError).text =
      "Invalid escape sequence '\\" ++ name ++ "'." := by
  have htemplate : LexicalErrorKind.invalidEscape.message.template.toList =
      "Invalid escape sequence '\\".toList ++ (Template.hole 0 ++ "'.".toList) := by decide
  exact Template.fill_of_one_hole htemplate (by decide) (by decide) name

end LexicalError

namespace SyntaxError

/-- The message about a missing token says what was required and what stood there instead, as they
are.  Only a requirement with a hole in it would be mistaken. -/
theorem text_eq (e : SyntaxError)
    (h : ¬Template.hole 1 <:+: e.expected.toList ++ " but found ".toList) :
    e.text = "Expected " ++ e.expected ++ " but found " ++ e.found ++ "." := by
  have htemplate : message.template.toList = "Expected ".toList ++ (Template.hole 0 ++
      (" but found ".toList ++ (Template.hole 1 ++ ".".toList))) := by decide
  exact Template.fill_of_two_holes htemplate (by decide) (by decide) (by decide) h e.found

end SyntaxError

end ModuleImports
