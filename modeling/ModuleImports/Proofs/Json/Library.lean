import ModuleImports.Proofs.Json.Members

/-!
# Proofs/Json/Library — what is known of a library for JSON

`JsonLibrary.Documented` is what can be relied on: a document that has been written is read again,
names are spelled by their rule, and shapes are written and read member by member.  Nothing more is
known of a library.

Reading is promised only for documents of texts (`IsTextual`), without numbers and with a bound on
how deeply they are nested, which are all that records and listings need.  What is passed over may be
anything.
-/

namespace ModuleImports

namespace Json

/-- How deeply a document may be nested if it is to be read. -/
def depthLimit : Nat := 127

/-- **A document of texts**: no numbers, every string a text, and nested no deeper than `depth`. -/
inductive IsTextual : Nat → Json → Prop where
  | null {depth : Nat} : IsTextual depth null
  | bool {depth : Nat} (b : Bool) : IsTextual depth (bool b)
  | string {depth : Nat} (s : String) : IsTextual depth (ofString s)
  | array {depth : Nat} {vs : List Json} (h : ∀ v ∈ vs, IsTextual depth v) :
    IsTextual (depth + 1) (array vs)
  | object {depth : Nat} {ms : List (Option String × Json)}
      (hnames : ∀ m ∈ ms, m.1.isSome = true) (h : ∀ m ∈ ms, IsTextual depth m.2) :
    IsTextual (depth + 1) (object ms)

/-- What members hold is part of their object. -/
theorem IsTextual.of_mem_membersNamed {depth : Nat} {ms : List (Option String × Json)}
    (h : (Json.object ms).IsTextual (depth + 1)) {key : String} {v : Json}
    (hv : v ∈ membersNamed key ms) : v.IsTextual depth := by
  obtain ⟨m, hm, rfl⟩ := List.mem_map.1 hv
  cases h with
  | object _ hms => exact hms m (List.mem_of_mem_filter hm)

theorem IsTextual.namesAreText {depth : Nat} {ms : List (Option String × Json)}
    (h : (Json.object ms).IsTextual depth) : namesAreText ms = true := by
  cases h with
  | object hnames _ => exact List.all_eq_true.2 hnames

/-- Only documents of texts are read as values of the fields. -/
def Fields.ReadsTextual (depth : Nat) {β : Type} : Fields β → Prop
  | .nil => True
  | .cons f fs => (∀ v a, f.codec.read? v = some a → v.IsTextual depth) ∧ fs.ReadsTextual depth

theorem Fields.Find.isTextual {depth : Nat} {rename : String → String}
    {ms : List (Option String × Json)} {β : Type} {fs : Fields β} {b : β}
    (h : fs.Find rename ms b) (hfs : fs.ReadsTextual depth) :
    ∀ name ∈ fs.names, ∀ v ∈ membersNamed (rename name) ms, v.IsTextual depth := by
  induction fs with
  | nil => exact List.forall_mem_nil _
  | cons f fs ih =>
    refine List.forall_mem_cons.2 ⟨?_, ih h.2 hfs.2⟩
    rcases h.1 with ⟨hmember, hread⟩ | ⟨hnone, -⟩
    · rw [hmember]
      exact List.forall_mem_singleton.2 (hfs.1 _ _ hread)
    · rw [hnone]
      exact List.forall_mem_nil _

variable {α : Type}

/-- The names of the members that a record has. -/
def RecordShape.keys (lib : JsonLibrary) (shape : RecordShape α) : List String :=
  shape.fields.names.map (lib.fieldName shape.rule)

/-- The names of the members that a form has besides the tag. -/
def UnionForm.keys (lib : JsonLibrary) (form : UnionForm α) : List String :=
  form.fields.names.map (lib.fieldName .asDeclared)

/-- The name of a form in documents. -/
def UnionShape.key (lib : JsonLibrary) (shape : UnionShape α) (form : UnionForm α) : String :=
  lib.formName shape.rule form.name

end Json

open Json

/-- **What a library for JSON promises.** -/
structure JsonLibrary.Documented (lib : JsonLibrary) : Prop where
  /-- A document can be written without blanks, and is read again. -/
  parse_compact {v : Json} (h : v.IsTextual depthLimit) :
    ∃ text, lib.compact? v = some text ∧ lib.parse? text = some v
  /-- A document can be written with lines and indents, and is read again, also if the last line is
  ended. -/
  parse_pretty {v : Json} (h : v.IsTextual depthLimit) :
    ∃ text, lib.pretty? v = some text ∧ lib.parse? (text ++ "\n") = some v
  fieldName_asDeclared (name : String) : lib.fieldName .asDeclared name = name
  /-- In camel case a first word stays as it is. -/
  fieldName_word (c : Char) (cs : List Char) (h : (c :: cs).all Char.isLower = true) :
    lib.fieldName .camelCase (String.ofList (c :: cs)) = String.ofList (c :: cs)
  /-- In camel case each further word starts with a capital, and the mark in front of it is gone. -/
  fieldName_words (words : String) (c : Char) (cs : List Char)
      (hwords : words.toList.head?.any Char.isLower = true)
      (h : (c :: cs).all Char.isLower = true) :
    lib.fieldName .camelCase (words ++ String.ofList ('_' :: c :: cs)) =
      lib.fieldName .camelCase words ++ String.ofList (c.toUpper :: cs)
  /-- Forms are declared with a capital, which is not kept in camel case. -/
  formName_camelCase (c : Char) (cs : List Char) (hc : c.isUpper = true) :
    lib.formName .camelCase (String.ofList (c :: cs)) = String.ofList (c.toLower :: cs)
  bool_read {v : Json} {b : Bool} (h : lib.bool.read? v = some b) : v = .bool b
  string_write (s : String) : lib.string.write s = .ofString s
  string_read (s : String) : lib.string.read? (.ofString s) = some s
  option_write_some {α : Type} (c : Codec α) (a : α) : (lib.option c).write (some a) = c.write a
  option_read_null {α : Type} (c : Codec α) : (lib.option c).read? .null = some none
  option_read_string {α : Type} (c : Codec α) (s : String) :
    (lib.option c).read? (.ofString s) = (c.read? (.ofString s)).map some
  list_write {α : Type} (c : Codec α) (as : List α) :
    (lib.list c).write as = .array (as.map c.write)
  list_read {α : Type} (c : Codec α) {as : List α} {vs : List Json}
      (hvs : (array vs).IsTextual depthLimit)
      (h : List.Forall₂ (fun a v => c.read? v = some a) as vs) :
    (lib.list c).read? (.array vs) = some as
  /-- A record is written as its fields, in order. -/
  record_write {α : Type} (shape : RecordShape α) (a : α) :
    (lib.record shape).write a =
      .object (shape.fields.members (lib.fieldName shape.rule) (shape.values a))
  /-- An object is read as a record if its members hold values for the fields.  Members of other
  names are passed over. -/
  record_read {α : Type} (shape : RecordShape α) (hkeys : (shape.keys lib).Nodup)
      {ms : List (Option String × Json)} (hnames : namesAreText ms = true)
      (hms : ∀ key ∈ shape.keys lib, ∀ v ∈ membersNamed key ms, v.IsTextual (depthLimit - 1))
      {values : shape.Values} (hfind : shape.fields.Find (lib.fieldName shape.rule) ms values) :
    (lib.record shape).read? (.object ms) = some (shape.make values)
  /-- No other object is read as a record: a field with two members, or with none if it needs one,
  is an error. -/
  find_of_record_read {α : Type} (shape : RecordShape α) (hkeys : (shape.keys lib).Nodup)
      {ms : List (Option String × Json)} {a : α}
      (h : (lib.record shape).read? (.object ms) = some a) : namesAreText ms = true ∧
    ∃ values, shape.fields.Find (lib.fieldName shape.rule) ms values ∧ shape.make values = a
  /-- An alternative is its name, or an object with that name for its only member. -/
  choice_read {α : Type} (shape : ChoiceShape α) {v : Json} {a : α}
      (h : (lib.choice shape).read? v = some a) :
    ∃ name, v = .ofString name ∨ v = .object [(some name, .null)]
  /-- A union is written as a tag with the name of the form, and the fields of the form. -/
  union_write {α : Type} (shape : UnionShape α) (a : α) :
    (lib.union shape).write a =
      .object ((some shape.tag, .ofString (shape.key lib (shape.split a).1)) ::
        (shape.split a).1.fields.members (lib.fieldName .asDeclared) (shape.split a).2)
  /-- An object with one tag that names a form is read as the fields of that form. -/
  union_read {α : Type} (shape : UnionShape α) (hnames : (shape.forms.map (shape.key lib)).Nodup)
      {form : UnionForm α} (hform : form ∈ shape.forms)
      (hkeys : (shape.tag :: form.keys lib).Nodup) {ms : List (Option String × Json)}
      (hms : (object ms).IsTextual depthLimit)
      (htag : membersNamed shape.tag ms = [.ofString (shape.key lib form)])
      {values : form.Values} (hfind : form.fields.Find (lib.fieldName .asDeclared) ms values) :
    (lib.union shape).read? (.object ms) = some (form.make values)

namespace JsonLibrary.Documented

variable {lib : JsonLibrary} (hlib : lib.Documented) {α : Type}
include hlib

/-- An object of texts is read as a record if it holds values for the fields. -/
theorem record_read_textual (shape : RecordShape α) (hkeys : (shape.keys lib).Nodup)
    {ms : List (Option String × Json)} (hms : (object ms).IsTextual depthLimit)
    {values : shape.Values} (hfind : shape.fields.Find (lib.fieldName shape.rule) ms values) :
    (lib.record shape).read? (.object ms) = some (shape.make values) :=
  hlib.record_read shape hkeys hms.namesAreText
    (fun _ _ _ hv => IsTextual.of_mem_membersNamed hms hv) hfind

/-- What is read of an object is read of every other that holds the same values. -/
theorem record_read_of_find {shape : RecordShape α} (hkeys : (shape.keys lib).Nodup)
    (hfields : shape.fields.ReadsTextual (depthLimit - 1)) {ms ms' : List (Option String × Json)}
    {a : α} (h : (lib.record shape).read? (.object ms) = some a)
    (hnames : namesAreText ms' = namesAreText ms)
    (hfind : ∀ values, shape.fields.Find (lib.fieldName shape.rule) ms values →
      shape.fields.Find (lib.fieldName shape.rule) ms' values) :
    (lib.record shape).read? (.object ms') = some a := by
  obtain ⟨htext, values, hvalues, rfl⟩ := hlib.find_of_record_read shape hkeys h
  have hvalues' := hfind values hvalues
  exact hlib.record_read shape hkeys (hnames.trans htext)
    (List.forall_mem_map.2 (hvalues'.isTextual hfields)) hvalues'

/-- **What is read of an object as a record**: no order counts, and no members of other names. -/
theorem record_read_congr {shape : RecordShape α} (hkeys : (shape.keys lib).Nodup)
    (hfields : shape.fields.ReadsTextual (depthLimit - 1))
    {ms ms' extra : List (Option String × Json)} (h : Rearranged (shape.keys lib) ms extra ms') :
    (lib.record shape).read? (.object ms') = (lib.record shape).read? (.object ms) := by
  have hfind (values : shape.Values) : shape.fields.Find (lib.fieldName shape.rule) ms' values ↔
      shape.fields.Find (lib.fieldName shape.rule) ms values :=
    h.find_iff fun name hname => List.mem_map_of_mem hname
  refine Option.ext fun a => ⟨fun ha => ?_, fun ha => ?_⟩
  · exact hlib.record_read_of_find hkeys hfields ha h.namesAreText_eq.symm fun v => (hfind v).1
  · exact hlib.record_read_of_find hkeys hfields ha h.namesAreText_eq fun v => (hfind v).2

end JsonLibrary.Documented

end ModuleImports
