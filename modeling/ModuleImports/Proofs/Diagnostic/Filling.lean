import ModuleImports.Proofs.Diagnostic.Wording

/-!
# Proofs/Diagnostic/Filling — all holes of a template at once

A template is a row of **parts**: text that opens no hole, and holes of any number, in any order and
as often as one likes.  Its arguments go in one after the other, and each goes through all that the
ones before it have made.  As long as no argument has an opening brace in it, that makes no
difference: `Part.filled` says what has become of a part when some arguments are in, one more
argument keeps that (`replaceAll_flatMap_filled`), and so the filled template is its parts, each hole
with its own argument in its place (`fill_eq_join_filled`).
-/

namespace ModuleImports.Template

/-- **A part of a template**: text that opens no hole, or a hole. -/
inductive Part where
  | text (s : String) (plain : '{' ∉ s.toList)
  | hole (i : Nat)

/-- How a part is written. -/
def Part.written : Part → String
  | .text s _ => s
  | .hole i => String.ofList (Template.hole i)

/-- A part when arguments are in.  A hole whose number none of them has is still there. -/
def Part.filled (args : List String) : Part → String
  | .text s _ => s
  | .hole i => args[i]?.getD (String.ofList (Template.hole i))

/-- The template of some parts. -/
def ofParts (ps : List Part) : String := String.join (ps.map Part.written)

variable {args : List String}

theorem filled_nil : Part.filled [] = Part.written := by
  funext p
  cases p <;> rfl

/-! ## One more argument -/

/-- **One more argument** goes into its own hole and leaves every other part as it is: the text, the
holes that are filled, as the arguments in them open no hole, and the holes of other numbers. -/
theorem replaceAll_filled_append (hargs : ∀ a ∈ args, '{' ∉ a.toList) (arg : String) (p : Part)
    (rest : List Char) :
    replaceAll (hole args.length) arg.toList ((p.filled args).toList ++ rest) =
      (p.filled (args ++ [arg])).toList ++ replaceAll (hole args.length) arg.toList rest := by
  cases p with
  | text s plain => exact replaceAll_hole_append_of_not_mem plain rest
  | hole i =>
    rcases Nat.lt_trichotomy i args.length with hlt | rfl | hgt
    · have hold : args[i]? = some args[i] := List.getElem?_eq_getElem hlt
      have hplain : '{' ∉ args[i].toList := hargs _ (List.getElem_mem hlt)
      rw [Part.filled, Part.filled, List.getElem?_append_left hlt, hold, Option.getD_some]
      exact replaceAll_hole_append_of_not_mem hplain rest
    · have hnone : args[args.length]? = none := List.getElem?_eq_none (Nat.le_refl _)
      have hnew : (args ++ [arg])[args.length]? = some arg := List.getElem?_concat_length
      rw [Part.filled, Part.filled, hnone, hnew, Option.getD_none, Option.getD_some,
        String.toList_ofList]
      exact replaceAll_hole_append _ _ _
    · have hnone : args[i]? = none := List.getElem?_eq_none (Nat.le_of_lt hgt)
      have hnone' : (args ++ [arg])[i]? = none := by
        rw [List.getElem?_eq_none_iff, List.length_append, List.length_singleton]
        exact hgt
      rw [Part.filled, Part.filled, hnone, hnone', Option.getD_none, String.toList_ofList]
      exact replaceAll_hole_append_of_ne (Nat.ne_of_lt hgt) _ _

/-- One more argument goes into all its holes. -/
theorem replaceAll_flatMap_filled (hargs : ∀ a ∈ args, '{' ∉ a.toList) (arg : String)
    (ps : List Part) :
    replaceAll (hole args.length) arg.toList (ps.flatMap fun p => (p.filled args).toList) =
      ps.flatMap fun p => (p.filled (args ++ [arg])).toList := by
  induction ps with
  | nil => exact replaceAll_nil _ _
  | cons p ps ih =>
    rw [List.flatMap_cons, List.flatMap_cons, replaceAll_filled_append hargs, ih]

/-! ## All arguments -/

/-- The arguments that are still to come go into their holes too. -/
theorem fillFrom_flatMap_filled (ps : List Part) (more : List String)
    (hargs : ∀ a ∈ args, '{' ∉ a.toList) (hmore : ∀ a ∈ more, '{' ∉ a.toList) :
    fillFrom args.length (ps.flatMap fun p => (p.filled args).toList) (more.map String.toList) =
      ps.flatMap fun p => (p.filled (args ++ more)).toList := by
  induction more generalizing args with
  | nil => rw [List.map_nil, fillFrom, List.append_nil]
  | cons arg more ih =>
    obtain ⟨harg, hmore⟩ := List.forall_mem_cons.1 hmore
    have hnext : ∀ a ∈ args ++ [arg], '{' ∉ a.toList :=
      List.forall_mem_append.2 ⟨hargs, List.forall_mem_singleton.2 harg⟩
    have hrest := ih hnext hmore
    rw [List.length_append, List.length_singleton, List.append_assoc] at hrest
    rw [List.map_cons, fillFrom, replaceAll_flatMap_filled hargs, hrest]
    rfl

/-- **Filling one hole after the other fills all of them at once**, if no argument has an opening
brace in it: every hole has given way to its argument, a hole that has none is left, and the text
between them is as it was. -/
theorem fill_eq_join_filled (ps : List Part) (hargs : ∀ a ∈ args, '{' ∉ a.toList) :
    fill (ofParts ps) args = String.join (ps.map (Part.filled args)) := by
  have hall := fillFrom_flatMap_filled ps args (List.forall_mem_nil _) hargs
  rw [filled_nil, List.nil_append, List.length_nil] at hall
  rw [← String.toList_inj]
  simpa [fill, ofParts, List.flatMap_map] using hall

/-- Holes in any order, one of them twice and one without an argument, between loose braces. -/
theorem fill_of_holes_in_disorder :
    fill r"1}{1}}{10}{0}0}{1}" [r"1}", "0"] =
      r"1}0}{10}1}0}0" :=
  fill_eq_join_filled
    [.text r"1}" (by decide), .hole 1, .text r"}" (by decide), .hole 10, .hole 0,
      .text r"0}" (by decide), .hole 1] (by decide)

end ModuleImports.Template
