/-!
# Diagnostic/Template — message templates and their holes

A template is a text with **holes** `{0}`, `{1}`, ….  `fill` fills them one argument after another:
argument 0 goes into every hole `{0}`, then argument 1 into every hole `{1}` of the result, and so
on.  A hole that an earlier argument brings in is therefore filled by a later one, and a hole whose
number no argument has stays as it is.
-/

namespace ModuleImports.Template

/-- How the hole of argument `i` is written. -/
def hole (i : Nat) : List Char := '{' :: Nat.toDigits 10 i ++ ['}']

/-- `text` with `new` in the place of each occurrence of `pattern`.  Occurrences are found from left
to right and do not overlap; `done` is the finished part, last character first. -/
def replaceFrom (pattern new : List Char) (done : List Char) : List Char → List Char
  | [] => done.reverse
  | c :: cs =>
    if pattern.isPrefixOf (c :: cs) then
      replaceFrom pattern new (new.reverseAux done) (cs.drop (pattern.length - 1))
    else
      replaceFrom pattern new (c :: done) cs
termination_by cs => cs.length
decreasing_by all_goals simp only [List.length_cons, List.length_drop]; omega

/-- Every occurrence of `pattern` in `text` replaced by `new`. -/
def replaceAll (pattern new text : List Char) : List Char := replaceFrom pattern new [] text

/-- The template after arguments `i`, `i + 1`, … have gone into their holes, in that order. -/
def fillFrom (i : Nat) (template : List Char) : List (List Char) → List Char
  | [] => template
  | arg :: args => fillFrom (i + 1) (replaceAll (hole i) arg template) args

/-- **The filled template.** -/
def fill (template : String) (args : List String) : String :=
  String.ofList (fillFrom 0 template.toList (args.map String.toList))

/-! ## The finished part is only carried along -/

theorem replaceFrom_eq_append (pattern new : List Char) (done text : List Char) :
    replaceFrom pattern new done text = done.reverse ++ replaceAll pattern new text := by
  induction h : text.length using Nat.strongRecOn generalizing done text with
  | _ n ih =>
    cases text with
    | nil => simp [replaceAll, replaceFrom]
    | cons c cs =>
      have hd : (cs.drop (pattern.length - 1)).length < n := by
        simp only [List.length_cons] at h
        simp only [List.length_drop]
        omega
      have hc : cs.length < n := by simp only [List.length_cons] at h; omega
      unfold replaceAll replaceFrom
      split
      · rw [ih _ hd _ _ rfl, ih _ hd (new.reverseAux []) _ rfl]
        simp [List.reverseAux_eq]
      · rw [ih _ hc _ _ rfl, ih _ hc [c] _ rfl]
        simp

@[simp] theorem replaceAll_nil (pattern new : List Char) : replaceAll pattern new [] = [] := by
  simp [replaceAll, replaceFrom]

/-- One step of replacing, at the front of the text. -/
theorem replaceAll_cons (pattern new : List Char) (c : Char) (cs : List Char) :
    replaceAll pattern new (c :: cs) =
      if pattern.isPrefixOf (c :: cs) then
        new ++ replaceAll pattern new (cs.drop (pattern.length - 1))
      else c :: replaceAll pattern new cs := by
  rw [replaceAll, replaceFrom]
  split
  · rw [replaceFrom_eq_append]; simp [List.reverseAux_eq]
  · rw [replaceFrom_eq_append]; simp

end ModuleImports.Template
