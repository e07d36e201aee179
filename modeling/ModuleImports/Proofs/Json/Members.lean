import Mathlib.Data.List.Perm.Basic
import ModuleImports.Json.Library

/-!
# Proofs/Json/Members — the members of an object, in any order and with others among them

What fields are in an object depends on its members of certain names only, and not on where these
stand.  `Fields.Find` says which values some members hold for fields, and `Rearranged` that the
members of an object are some in another order, and others of foreign names; then both hold the same
values (`Rearranged.find_iff`).
-/

namespace ModuleImports.Json

/-! ## Fields among members -/

/-- **What a field is among members**: what its one member holds, or what it is if there is none. -/
inductive Field.Finds {α : Type} (f : Field α) (key : String) (ms : List (Option String × Json)) :
    α → Prop where
  | there {v : Json} {a : α} (hmember : membersNamed key ms = [v])
      (hread : f.codec.read? v = some a) : Finds f key ms a
  | absent {a : α} (hnone : membersNamed key ms = []) (habsent : f.absent? = some a) :
      Finds f key ms a

/-- **The values that members hold for fields.** -/
def Fields.Find (rename : String → String) (ms : List (Option String × Json)) {β : Type} :
    Fields β → β → Prop
  | .nil, _ => True
  | .cons f fs, (a, b) => f.Finds (rename f.name) ms a ∧ fs.Find rename ms b

/-! ## Members in another order, and others among them -/

/-- **The members of an object are some in any order**, and extra ones whose names are no fields. -/
structure Rearranged (fields : List String) (ms extra ms' : List (Option String × Json)) :
    Prop where
  perm : ms'.Perm (ms ++ extra)
  foreign : ∀ m ∈ extra, ∃ name, m.1 = some name ∧ name ∉ fields

variable {α β : Type} {key : String} {fields : List String} {rename : String → String}
  {ms ms' extra : List (Option String × Json)}

theorem Field.Finds.of_perm {f : Field α} {a : α} (h : f.Finds key ms a)
    (hperm : (membersNamed key ms').Perm (membersNamed key ms)) : f.Finds key ms' a := by
  rcases h with ⟨hmember, hread⟩ | ⟨hnone, habsent⟩
  · exact .there (List.perm_singleton.1 (hmember ▸ hperm)) hread
  · exact .absent (List.perm_nil.1 (hnone ▸ hperm)) habsent

theorem Fields.Find.of_perm {fs : Fields β} {b : β} (h : fs.Find rename ms b)
    (hperm : ∀ name ∈ fs.names,
      (membersNamed (rename name) ms').Perm (membersNamed (rename name) ms)) :
    fs.Find rename ms' b := by
  induction fs with
  | nil => trivial
  | cons f fs ih =>
    obtain ⟨hfirst, hrest⟩ := List.forall_mem_cons.1 hperm
    exact ⟨h.1.of_perm hfirst, ih h.2 hrest⟩

namespace Rearranged

theorem refl (fields : List String) (ms : List (Option String × Json)) :
    Rearranged fields ms [] ms := ⟨by simp, nofun⟩

/-- A field has the members that it had before. -/
theorem membersNamed_perm (h : Rearranged fields ms extra ms') (hkey : key ∈ fields) :
    (membersNamed key ms').Perm (membersNamed key ms) := by
  have hextra : membersNamed key extra = [] := by
    rw [membersNamed, List.map_eq_nil_iff, List.filter_eq_nil_iff]
    intro m hm heq
    obtain ⟨other, hother, hforeign⟩ := h.foreign m hm
    rw [hother, beq_iff_eq, Option.some.injEq] at heq
    exact hforeign (heq ▸ hkey)
  have hboth := (h.perm.filter fun m => m.1 == some key).map Prod.snd
  rw [List.filter_append, List.map_append] at hboth
  rw [membersNamed] at hextra
  rwa [hextra, List.append_nil] at hboth

/-- **The same values are held**, whatever the order and whatever else is there. -/
theorem find_iff (h : Rearranged fields ms extra ms') {fs : Fields β} {b : β}
    (hfs : ∀ name ∈ fs.names, rename name ∈ fields) :
    fs.Find rename ms' b ↔ fs.Find rename ms b :=
  ⟨fun hfind => hfind.of_perm fun name hname => (h.membersNamed_perm (hfs name hname)).symm,
    fun hfind => hfind.of_perm fun name hname => h.membersNamed_perm (hfs name hname)⟩

/-- What holds of the members before and of the extra ones holds of all. -/
theorem forall_mem (h : Rearranged fields ms extra ms') {P : Option String × Json → Prop}
    (hms : ∀ m ∈ ms, P m) (hextra : ∀ m ∈ extra, P m) : ∀ m ∈ ms', P m := by
  intro m hm
  exact (List.mem_append.1 (h.perm.mem_iff.1 hm)).elim (hms m) (hextra m)

/-- Extra members have names that are texts. -/
theorem namesAreText_eq (h : Rearranged fields ms extra ms') :
    namesAreText ms' = namesAreText ms := by
  have hextra : extra.all (·.1.isSome) = true := by
    rw [List.all_eq_true]
    intro m hm
    obtain ⟨name, hname, -⟩ := h.foreign m hm
    exact Option.isSome_iff_exists.2 ⟨name, hname⟩
  rw [namesAreText, h.perm.all_eq, List.all_append, hextra, Bool.and_true, namesAreText]

end Rearranged

end ModuleImports.Json
