import ModuleImports.Import.RecordJson
import ModuleImports.Proofs.Json.Library

/-!
# Proofs/Import/RecordJson — records from JSON, however they are written

`ImportRecord.document` is the document of a record, and `ImportRecord.WrittenAs` says which others
stand for it: objects with a member for its form and one for each of its parts, in any order and
with texts under other names among them; a name that is not given may be left out or be null.  A
library that keeps its promises writes the document of a record (`ImportRecord.codec_write`) and
takes all of these documents for it (`ImportRecord.codec_read?_of_writtenAs`).
-/

namespace ModuleImports

open Json

/-! ## Which documents are a record -/

/-- **The document of an entry.** -/
def ImportSpecifier.document (s : ImportSpecifier) : Json :=
  .object ((some "name", .ofString s.name) ::
    (s.alias?.map fun a => (some "alias", Json.ofString a)).toList)

namespace ImportRecord

/-- The name of the form in a document. -/
def typeName : ImportRecord → String
  | defaultImport .. => "defaultImport"
  | namedImport .. => "namedImport"
  | namespaceImport .. => "namespaceImport"
  | sideEffectImport .. => "sideEffectImport"

/-- The parts of a record, each with its name. -/
def parts : ImportRecord → List (Option String × Json)
  | defaultImport b s | namespaceImport b s =>
    [(some "binding", .ofString b), (some "source", .ofString s)]
  | namedImport is s =>
    [(some "imports", .array (is.map ImportSpecifier.document)), (some "source", .ofString s)]
  | sideEffectImport s => [(some "source", .ofString s)]

/-- **The document of a record** starts with its form. -/
def document (r : ImportRecord) : Json :=
  .object ((some "type", .ofString r.typeName) :: r.parts)

end ImportRecord

/-- The extra members of an object are texts. -/
def Json.AreTexts (ms : List (Option String × Json)) : Prop :=
  ∀ m ∈ ms, ∃ text, m.2 = .ofString text

/-- How the alias of an entry may be written. -/
inductive ImportSpecifier.AliasAs (s : ImportSpecifier) : List (Option String × Json) → Prop where
  | given {a : String} (h : s.alias? = some a) : AliasAs s [(some "alias", .ofString a)]
  | leftOut (h : s.alias? = none) : AliasAs s []
  | null (h : s.alias? = none) : AliasAs s [(some "alias", .null)]

/-- **The documents that are an entry.** -/
inductive ImportSpecifier.WrittenAs (s : ImportSpecifier) : Json → Prop where
  | object {aliases extra ms : List (Option String × Json)} (haliases : s.AliasAs aliases)
      (hextra : AreTexts extra)
      (hms : Rearranged ["name", "alias"] ((some "name", .ofString s.name) :: aliases) extra ms) :
      WrittenAs s (.object ms)

namespace ImportRecord

/-- The names of the members that a record has. -/
def fields : ImportRecord → List String
  | defaultImport .. | namespaceImport .. => ["type", "binding", "source"]
  | namedImport .. => ["type", "imports", "source"]
  | sideEffectImport _ => ["type", "source"]

/-- How the parts of a record may be written. -/
def PartsAs : ImportRecord → List (Option String × Json) → Prop
  | namedImport is source, parts => ∃ vs, List.Forall₂ ImportSpecifier.WrittenAs is vs ∧
      parts = [(some "imports", .array vs), (some "source", .ofString source)]
  | r, parts => parts = r.parts

/-- **The documents that are a record.** -/
inductive WrittenAs (r : ImportRecord) : Json → Prop where
  | object {parts extra ms : List (Option String × Json)} (hparts : r.PartsAs parts)
      (hextra : AreTexts extra)
      (hms : Rearranged r.fields ((some "type", .ofString r.typeName) :: parts) extra ms) :
      WrittenAs r (.object ms)

end ImportRecord

/-! ## They are documents of texts -/

section Textual

variable {fields : List String} {ms extra ms' : List (Option String × Json)} {depth : Nat}
  {s : ImportSpecifier} {r : ImportRecord} {v : Json} {parts : List (Option String × Json)}

/-- Extra texts need no depth. -/
theorem Json.Rearranged.isTextual (hms : Rearranged fields ms extra ms') (hextra : AreTexts extra)
    (hnames : ∀ m ∈ ms, m.1.isSome = true) (h : ∀ m ∈ ms, m.2.IsTextual depth) :
    (object ms').IsTextual (depth + 1) := by
  refine .object (hms.forall_mem hnames fun m hm => ?_) (hms.forall_mem h fun m hm => ?_)
  · obtain ⟨name, hname, -⟩ := hms.foreign m hm
    exact Option.isSome_iff_exists.2 ⟨name, hname⟩
  · obtain ⟨text, htext⟩ := hextra m hm
    exact htext ▸ .string text

/-- Each item of a list of counterparts is one. -/
theorem exists_mem_of_forall₂ {α β : Type} {R : α → β → Prop} {xs : List α} {ys : List β}
    (h : List.Forall₂ R xs ys) : ∀ y ∈ ys, ∃ x ∈ xs, R x y := by
  induction h with
  | nil => exact List.forall_mem_nil _
  | cons hxy _ ih =>
    refine List.forall_mem_cons.2 ⟨⟨_, List.mem_cons_self, hxy⟩, fun y hy => ?_⟩
    obtain ⟨x, hx, hxy⟩ := ih y hy
    exact ⟨x, List.mem_cons_of_mem _ hx, hxy⟩

/-- An entry needs one level. -/
theorem ImportSpecifier.WrittenAs.isTextual (h : s.WrittenAs v) (depth : Nat) :
    v.IsTextual (depth + 1) := by
  obtain ⟨haliases, hextra, hms⟩ := h
  refine hms.isTextual hextra ?_ ?_
  · rcases haliases with _ | _ | _ <;> simp
  · refine List.forall_mem_cons.2 ⟨.string _, ?_⟩
    rcases haliases with _ | _ | _
    · exact List.forall_mem_singleton.2 (.string _)
    · exact List.forall_mem_nil _
    · exact List.forall_mem_singleton.2 .null

/-- A list of entries needs two levels. -/
theorem isTextual_entries {is : List ImportSpecifier} {vs : List Json}
    (hvs : List.Forall₂ ImportSpecifier.WrittenAs is vs) (depth : Nat) :
    (array vs).IsTextual (depth + 2) := by
  refine .array fun v hv => ?_
  obtain ⟨s, -, hs⟩ := exists_mem_of_forall₂ hvs v hv
  exact hs.isTextual depth

/-- The parts of a record need two levels. -/
theorem ImportRecord.PartsAs.isTextual (h : r.PartsAs parts) (depth : Nat) :
    ∀ m ∈ parts, m.1.isSome = true ∧ m.2.IsTextual (depth + 2) := by
  have htext (name text : String) :
      (some name).isSome = true ∧ (ofString text).IsTextual (depth + 2) := ⟨rfl, .string text⟩
  cases r with
  | namedImport is source =>
    obtain ⟨vs, hvs, rfl⟩ := h
    exact List.forall_mem_cons.2
      ⟨⟨rfl, isTextual_entries hvs depth⟩, List.forall_mem_singleton.2 (htext _ source)⟩
  | defaultImport binding source | namespaceImport binding source =>
    obtain rfl := h
    exact List.forall_mem_cons.2 ⟨htext _ binding, List.forall_mem_singleton.2 (htext _ source)⟩
  | sideEffectImport source =>
    obtain rfl := h
    exact List.forall_mem_singleton.2 (htext _ source)

/-- A record needs three levels. -/
theorem ImportRecord.WrittenAs.isTextual (h : r.WrittenAs v) (depth : Nat) :
    v.IsTextual (depth + 3) := by
  obtain ⟨hparts, hextra, hms⟩ := h
  refine hms.isTextual hextra ?_ ?_
  · exact List.forall_mem_cons.2 ⟨rfl, fun m hm => (hparts.isTextual depth m hm).1⟩
  · exact List.forall_mem_cons.2 ⟨.string _, fun m hm => (hparts.isTextual depth m hm).2⟩

end Textual

/-! ## The document of a record stands for it -/

theorem ImportSpecifier.writtenAs_document (s : ImportSpecifier) : s.WrittenAs s.document := by
  have haliases : s.AliasAs (s.alias?.map fun a => (some "alias", Json.ofString a)).toList := by
    rcases h : s.alias? with _ | a
    · exact .leftOut h
    · exact .given h
  exact .object haliases (List.forall_mem_nil _) (.refl _ _)

theorem ImportRecord.partsAs_parts (r : ImportRecord) : r.PartsAs r.parts := by
  cases r with
  | namedImport is source =>
    exact ⟨_, List.forall₂_map_right_iff.2 (List.forall₂_same.2 fun s _ => s.writtenAs_document),
      rfl⟩
  | _ => rfl

theorem ImportRecord.writtenAs_document (r : ImportRecord) : r.WrittenAs r.document :=
  .object r.partsAs_parts (List.forall_mem_nil _) (.refl _ _)

/-! ## What a library makes of them -/

/-- No part has the name of the tag. -/
theorem ImportRecord.PartsAs.membersNamed_type {r : ImportRecord}
    {parts : List (Option String × Json)} (h : r.PartsAs parts) (type : Json) :
    membersNamed "type" ((some "type", type) :: parts) = [type] := by
  cases r with
  | namedImport is source =>
    obtain ⟨vs, -, rfl⟩ := h
    simp [membersNamed]
  | _ =>
    obtain rfl := h
    simp [membersNamed, ImportRecord.parts]

section Library

variable {lib : JsonLibrary} (hlib : lib.Documented)
include hlib

section Members

variable {ms : List (Option String × Json)} {name text : String}

/-- A field that keeps its name is found under it. -/
theorem Json.Field.finds_asDeclared {α : Type} {f : Field α} {a : α} (h : f.Finds f.name ms a) :
    f.Finds (lib.fieldName .asDeclared f.name) ms a := by
  rwa [hlib.fieldName_asDeclared]

theorem Json.Field.finds_text (h : membersNamed name ms = [.ofString text]) :
    Field.Finds { name := name, codec := lib.string } (lib.fieldName .asDeclared name) ms text :=
  Field.finds_asDeclared hlib (.there h (hlib.string_read text))

end Members

/-! ### Entries -/

section Entries

variable {s : ImportSpecifier} {v : Json} {aliases : List (Option String × Json)}

theorem ImportSpecifier.keys_shape : (shape lib).keys lib = ["name", "alias"] := by
  simp [RecordShape.keys, shape, Fields.names, hlib.fieldName_asDeclared]

/-- **An entry is written as its document.** -/
theorem ImportSpecifier.codec_write (s : ImportSpecifier) : (codec lib).write s = s.document := by
  rw [codec, hlib.record_write]
  obtain ⟨name, _ | a⟩ := s <;>
    simp [shape, document, Fields.members, hlib.fieldName_asDeclared, hlib.string_write,
      hlib.option_write_some]

/-- The name and the alias of an entry are found, however the alias is written. -/
theorem ImportSpecifier.AliasAs.find (h : s.AliasAs aliases) :
    (shape lib).fields.Find (lib.fieldName (shape lib).rule)
      ((some "name", .ofString s.name) :: aliases) (s.name, s.alias?, ()) := by
  refine ⟨Field.finds_text hlib ?_, Field.finds_asDeclared hlib ?_, trivial⟩
  · rcases h with _ | _ | _ <;> simp [membersNamed]
  · rcases h with halias | halias | halias
    all_goals rw [halias]
    · refine .there (by simp [membersNamed]; rfl) ?_
      rw [hlib.option_read_string, hlib.string_read]
      rfl
    · exact .absent (by simp [membersNamed]) rfl
    · exact .there (by simp [membersNamed]) (hlib.option_read_null _)

/-- **Every document of an entry is taken for it.** -/
theorem ImportSpecifier.codec_read?_of_writtenAs (h : s.WrittenAs v) :
    (codec lib).read? v = some s := by
  have htextual : v.IsTextual depthLimit := h.isTextual 126
  obtain ⟨haliases, -, hms⟩ := h
  have hkeys := keys_shape hlib
  have hfields : ∀ name ∈ (shape lib).fields.names,
      lib.fieldName (shape lib).rule name ∈ ["name", "alias"] := fun name hname =>
    hkeys ▸ List.mem_map_of_mem hname
  exact hlib.record_read_textual (shape lib) (hkeys ▸ by decide) htextual
    ((hms.find_iff hfields).2 (haliases.find hlib))

end Entries

/-! ### Records -/

namespace ImportRecord

variable {r : ImportRecord} {v : Json} {parts : List (Option String × Json)}

/-- Forms have the names that documents give them. -/
theorem key_split (r : ImportRecord) :
    (shape lib).key lib ((shape lib).split r).1 = r.typeName := by
  cases r with
  | defaultImport => exact hlib.formName_camelCase 'D' "efaultImport".toList rfl
  | namedImport => exact hlib.formName_camelCase 'N' "amedImport".toList rfl
  | namespaceImport => exact hlib.formName_camelCase 'N' "amespaceImport".toList rfl
  | sideEffectImport => exact hlib.formName_camelCase 'S' "ideEffectImport".toList rfl

theorem nodup_keys : ((shape lib).forms.map ((shape lib).key lib)).Nodup := by
  have hforms : (shape lib).forms = [defaultImport "" "", namedImport [] "", namespaceImport "" "",
      sideEffectImport ""].map fun r => ((shape lib).split r).1 := rfl
  have hkeys : (shape lib).forms.map ((shape lib).key lib) =
      ["defaultImport", "namedImport", "namespaceImport", "sideEffectImport"] := by
    rw [hforms, List.map_map]
    exact List.map_congr_left fun r _ => key_split hlib r
  rw [hkeys]
  decide

theorem tag_keys_split (r : ImportRecord) :
    (shape lib).tag :: ((shape lib).split r).1.keys lib = r.fields := by
  cases r <;> simp [UnionForm.keys, shape, split, defaultForm, namedForm, namespaceForm,
    sideEffectForm, Fields.names, hlib.fieldName_asDeclared, fields]

/-- **A record is written as its document.** -/
theorem codec_write (r : ImportRecord) : (codec lib).write r = r.document := by
  rw [codec, hlib.union_write, key_split hlib]
  have hentries : (ImportSpecifier.codec lib).write = ImportSpecifier.document :=
    funext (ImportSpecifier.codec_write hlib)
  cases r <;> simp [shape, split, defaultForm, namedForm, namespaceForm, sideEffectForm,
    Fields.members, hlib.fieldName_asDeclared, hlib.string_write, hlib.list_write, hentries,
    document, parts]

/-- The parts of a record are found beside its form. -/
theorem PartsAs.find (h : r.PartsAs parts) (type : Json) :
    ((shape lib).split r).1.fields.Find (lib.fieldName .asDeclared) ((some "type", type) :: parts)
      ((shape lib).split r).2 := by
  cases r with
  | namedImport is source =>
    obtain ⟨vs, hvs, rfl⟩ := h
    have hread := hlib.list_read (ImportSpecifier.codec lib) (isTextual_entries hvs 125)
      (hvs.imp fun _ _ hs => ImportSpecifier.codec_read?_of_writtenAs hlib hs)
    exact ⟨Field.finds_asDeclared hlib (.there (by simp [membersNamed]) hread),
      Field.finds_text hlib (by simp [membersNamed]), trivial⟩
  | defaultImport binding source | namespaceImport binding source =>
    obtain rfl := h
    exact ⟨Field.finds_text hlib (by simp [membersNamed, ImportRecord.parts]),
      Field.finds_text hlib (by simp [membersNamed, ImportRecord.parts]), trivial⟩
  | sideEffectImport source =>
    obtain rfl := h
    exact ⟨Field.finds_text hlib (by simp [membersNamed, ImportRecord.parts]), trivial⟩

/-- **Every document of a record is taken for it.** -/
theorem codec_read?_of_writtenAs (h : r.WrittenAs v) : (codec lib).read? v = some r := by
  have htextual : v.IsTextual depthLimit := h.isTextual 124
  obtain ⟨hparts, -, hms⟩ := h
  have hfields := tag_keys_split hlib r
  have hnodup : r.fields.Nodup := by cases r <;> simp [fields]
  have htag := hms.membersNamed_perm (hfields ▸ List.mem_cons_self : "type" ∈ r.fields)
  rw [hparts.membersNamed_type] at htag
  have hkeys : ∀ name ∈ ((shape lib).split r).1.fields.names,
      lib.fieldName .asDeclared name ∈ r.fields := fun name hname =>
    hfields ▸ List.mem_cons_of_mem _ (List.mem_map_of_mem hname)
  have hfind := (hms.find_iff hkeys).2 (hparts.find hlib (.ofString r.typeName))
  rw [codec, hlib.union_read (shape lib) (nodup_keys hlib) ((shape lib).split_mem r)
    (hfields ▸ hnodup) htextual (key_split hlib r ▸ List.perm_singleton.1 htag) hfind,
    (shape lib).make_split]

end ImportRecord

end Library

end ModuleImports
