import ModuleImports.Command.Listing
import ModuleImports.Proofs.Import.RecordJson
import ModuleImports.Proofs.Import.Records
import ModuleImports.Proofs.Json.Standard

/-!
# Proofs/Command/Listing — what is printed of the imports of some inputs

`Prints` says what a listing is, form by form.  As text, every record has a line by its form
(`ImportRecord.line`); several inputs have their names in front, and the lines are further in.  As
JSON, one input is the array of the documents of its records, and otherwise every input is an object
with its name and that array (`listingDocument`).  What is printed is just this (`listing?_eq_some_iff`),
and as JSON all of it comes back (`reads_back`).
-/

namespace ModuleImports

open Json

/-! ## What a listing is -/

/-- An entry of a named import in its line. -/
def ImportSpecifier.line (s : ImportSpecifier) : String :=
  s.alias?.elim s.name fun localName => s.name ++ " as " ++ localName

/-- **The line of a record**, by its form. -/
def ImportRecord.line : ImportRecord → String
  | defaultImport binding source => "default     " ++ binding ++ " from " ++ Quoted.quote source
  | namedImport imports source =>
    r"named       { " ++ ", ".intercalate (imports.map ImportSpecifier.line) ++ r" } from " ++
      Quoted.quote source
  | namespaceImport binding source => "namespace   " ++ binding ++ " from " ++ Quoted.quote source
  | sideEffectImport source => "side-effect " ++ Quoted.quote source

namespace Command

/-- The lines of a listing: those of one input, or of several with their names. -/
def printedLines : List FileImports → List String
  | [one] => one.imports.map ImportRecord.line
  | several => several.flatMap fun f => (f.file ++ ":") :: f.imports.map ("  " ++ ·.line)

/-- The imports of an input as an array. -/
def importsDocument (rs : List ImportRecord) : Json := .array (rs.map ImportRecord.document)

/-- An input and its imports as an object. -/
def FileImports.document (f : FileImports) : Json :=
  .object [(some "file", .ofString f.file), (some "imports", importsDocument f.imports)]

/-- **The document of a listing.** -/
def listingDocument : List FileImports → Json
  | [one] => importsDocument one.imports
  | several => .array (several.map FileImports.document)

/-- **What is printed** of the imports of some inputs, with JSON asked for or not. -/
inductive Prints (lib : JsonLibrary) (fs : List FileImports) : Bool → String → Prop where
  /-- Lines, with a line feed after each. -/
  | lines : Prints lib fs false (String.join ((printedLines fs).map (· ++ "\n")))
  /-- The document on several lines, with a line feed after the last. -/
  | json {text : String} (h : lib.pretty? (listingDocument fs) = some text) :
    Prints lib fs true (text ++ "\n")

/-! ## As text -/

section Text

variable {r : ImportRecord} {names : String} {rs : List ImportRecord} {fs : List FileImports}

theorem specifierText_eq_line (s : ImportSpecifier) : specifierText s = s.line := by
  obtain ⟨name, _ | localName⟩ := s <;> rfl

theorem ne_empty_of_isIdentifier {name : String} (h : IsIdentifier name) : name ≠ "" := by
  obtain ⟨c, cs, rfl, -⟩ := h.isWord
  simp

/-- The line of a record that binds names, given the column of its kind. -/
theorem recordText_of_names (r : ImportRecord) {column : String}
    (hcolumn : padded kindWidth r.kindName ++ " " = column) (hnames : namesText r = names)
    (hne : names ≠ "") :
    recordText r = column ++ (names ++ (" from " ++ Quoted.quote r.source)) := by
  have hempty : names.isEmpty = false := by simpa using hne
  rw [recordText, hcolumn, hnames, hempty, if_neg Bool.false_ne_true]
  simp only [String.append_assoc]

/-- **The line of a record is that of its form.** -/
theorem recordText_eq_line (h : r.WellFormed) : recordText r = r.line := by
  have hdefault : padded kindWidth "default" ++ " " = "default     " := by decide +kernel
  have hnamed : padded kindWidth "named" ++ " " = "named       " := by decide +kernel
  have hnamespace : padded kindWidth "namespace" ++ " " = "namespace   " := by decide +kernel
  have hsideEffect : padded kindWidth "side-effect" ++ " " = "side-effect " := by decide +kernel
  cases r with
  | defaultImport binding source =>
    have hnames : namesText (.defaultImport binding source) = binding := by
      simp [namesText, ImportRecord.localNames]
    change _ = "default     " ++ binding ++ " from " ++ Quoted.quote source
    rw [recordText_of_names (.defaultImport binding source) hdefault hnames
      (ne_empty_of_isIdentifier h), String.append_assoc, String.append_assoc]
    rfl
  | namespaceImport binding source =>
    have hnames : namesText (.namespaceImport binding source) = binding := by
      simp [namesText, ImportRecord.localNames]
    change _ = "namespace   " ++ binding ++ " from " ++ Quoted.quote source
    rw [recordText_of_names (.namespaceImport binding source) hnamespace hnames
      (ne_empty_of_isIdentifier h), String.append_assoc, String.append_assoc]
    rfl
  | namedImport imports source =>
    have hlines : imports.map specifierText = imports.map ImportSpecifier.line :=
      List.map_congr_left fun s _ => specifierText_eq_line s
    have hopening : "named       " ++ r"{ " = r"named       { " := by decide +kernel
    have hclosing : r" }" ++ " from " = r" } from " := by decide +kernel
    change _ = r"named       { " ++ ", ".intercalate (imports.map ImportSpecifier.line) ++
      r" } from " ++ Quoted.quote source
    rw [recordText_of_names (.namedImport imports source) hnamed rfl (by simp [namesText]),
      namesText, hlines, ← hopening, ← hclosing]
    simp only [String.append_assoc]
    rfl
  | sideEffectImport source =>
    have hnames : namesText (.sideEffectImport source) = "" := by
      simp [namesText, ImportRecord.localNames]
    change padded kindWidth "side-effect" ++ " " ++ _ ++ Quoted.quote source = _
    rw [hsideEffect, hnames]
    exact congrArg (· ++ Quoted.quote source) (String.append_empty)

end Text

/-! ## What is printed is that -/

section Print

variable {lib : JsonLibrary} {fs : List FileImports} {json : Bool} {out : String}

/-- The lines of an input: its name, if that is asked for, and its records. -/
def FileImports.lines (headed : Bool) (f : FileImports) : List String :=
  if headed then (f.file ++ ":") :: f.imports.map ("  " ++ recordText ·)
  else f.imports.map recordText

/-- **The lines that a listing should have.**  Of several inputs, each has its name in front. -/
def listingLines (fs : List FileImports) : List String := fs.flatMap (·.lines (1 < fs.length))

/-- A listing is its lines, with a line feed after each. -/
theorem listingText_eq_join (fs : List FileImports) :
    listingText fs = String.join ((listingLines fs).map (· ++ "\n")) := by
  rcases fs with _ | ⟨f, _ | ⟨g, fs⟩⟩
  · rfl
  · simp [listingText, listingLines, FileImports.lines, recordLines, Function.comp_def]
  · rw [← String.toList_inj]
    simp [listingText, listingLines, FileImports.lines, recordLines, List.flatMap_map,
      List.map_flatMap, List.flatMap_assoc]

/-- **The lines of a listing are those that are printed.** -/
theorem listingLines_eq (hfs : ∀ f ∈ fs, ∀ r ∈ f.imports, r.WellFormed) :
    listingLines fs = printedLines fs := by
  have hlines (f : FileImports) (hf : f ∈ fs) (indent : String) :
      f.imports.map (indent ++ recordText ·) = f.imports.map (indent ++ ·.line) :=
    List.map_congr_left fun r hr => by rw [recordText_eq_line (hfs f hf r hr)]
  rcases fs with _ | ⟨f, _ | ⟨g, fs⟩⟩
  · rfl
  · have hone := hlines f List.mem_cons_self ""
    simpa [listingLines, FileImports.lines, printedLines] using hone
  · have hseveral : 1 < (f :: g :: fs).length := by simp
    rw [listingLines, printedLines]
    · refine List.flatMap_congr fun h hh => ?_
      rw [FileImports.lines, if_pos (by simp), hlines h hh]
    · simp

/-- Imports are written as an array of documents. -/
theorem list_write_imports (hlib : lib.Documented) (rs : List ImportRecord) :
    (lib.list (ImportRecord.codec lib)).write rs = importsDocument rs := by
  rw [hlib.list_write, importsDocument, funext (ImportRecord.codec_write hlib)]

theorem FileImports.codec_write (hlib : lib.Documented) (f : FileImports) :
    (codec lib).write f = f.document := by
  rw [codec, hlib.record_write]
  simp [shape, Fields.members, hlib.fieldName_asDeclared, hlib.string_write,
    list_write_imports hlib, document]

/-- **A listing as JSON is its document.** -/
theorem listingJson_eq (hlib : lib.Documented) (fs : List FileImports) :
    listingJson lib fs = listingDocument fs := by
  rcases fs with _ | ⟨f, _ | ⟨g, fs⟩⟩
  · exact hlib.list_write _ _
  · exact list_write_imports hlib f.imports
  · rw [listingJson, hlib.list_write, funext (FileImports.codec_write hlib)]
    · rfl
    · simp

/-- The imports of an input need four levels. -/
theorem isTextual_importsDocument (rs : List ImportRecord) (depth : Nat) :
    (importsDocument rs).IsTextual (depth + 4) :=
  .array (List.forall_mem_map.2 fun r _ => r.writtenAs_document.isTextual depth)

/-- An input with its imports needs one level more. -/
theorem FileImports.isTextual_document (f : FileImports) (depth : Nat) :
    f.document.IsTextual (depth + 5) :=
  .object (by simp) <| List.forall_mem_cons.2
    ⟨.string _, List.forall_mem_singleton.2 (isTextual_importsDocument f.imports depth)⟩

theorem isTextual_listingDocument (fs : List FileImports) (depth : Nat) :
    (listingDocument fs).IsTextual (depth + 6) := by
  unfold listingDocument
  split
  · exact isTextual_importsDocument _ (depth + 2)
  · exact .array (List.forall_mem_map.2 fun f _ => f.isTextual_document depth)

/-- Something can always be printed. -/
theorem exists_prints (hlib : lib.Documented) (fs : List FileImports) (json : Bool) :
    ∃ out, Prints lib fs json out := by
  cases json with
  | false => exact ⟨_, .lines⟩
  | true =>
    obtain ⟨text, htext, -⟩ := hlib.parse_pretty (isTextual_listingDocument fs 121)
    exact ⟨_, .json htext⟩

/-- **What is printed of records that texts have.** -/
theorem listing?_eq_some_iff (hlib : lib.Documented)
    (hfs : ∀ f ∈ fs, ∀ r ∈ f.imports, r.WellFormed) :
    listing? lib json fs = some out ↔ Prints lib fs json out := by
  have htext : listingText fs = String.join ((printedLines fs).map (· ++ "\n")) := by
    rw [listingText_eq_join, listingLines_eq hfs]
  cases json with
  | false =>
    rw [listing?, if_neg Bool.false_ne_true, htext, Option.some.injEq]
    exact ⟨fun h => h ▸ .lines, fun h => by cases h; rfl⟩
  | true =>
    rw [listing?, if_pos rfl, listingJson_eq hlib, Option.map_eq_some_iff]
    exact ⟨fun ⟨_, h, hout⟩ => hout ▸ .json h, fun h => by cases h with | json h => exact ⟨_, h, rfl⟩⟩

end Print

/-! ## As JSON it all comes back -/

section ReadBack

variable {lib : JsonLibrary} (hlib : lib.Documented)
include hlib

/-- The imports of an input come back from their array. -/
theorem list_read?_importsDocument (rs : List ImportRecord) :
    (lib.list (ImportRecord.codec lib)).read? (importsDocument rs) = some rs :=
  hlib.list_read _ (isTextual_importsDocument rs 123) <| List.forall₂_map_right_iff.2 <|
    List.forall₂_same.2 fun r _ => ImportRecord.codec_read?_of_writtenAs hlib r.writtenAs_document

theorem FileImports.codec_read?_document (f : FileImports) :
    (codec lib).read? f.document = some f := by
  have hkeys : (shape lib).keys lib = ["file", "imports"] := by
    simp [RecordShape.keys, shape, Fields.names, hlib.fieldName_asDeclared]
  have hfind : (shape lib).fields.Find (lib.fieldName (shape lib).rule)
      [(some "file", .ofString f.file), (some "imports", importsDocument f.imports)]
      (f.file, f.imports, ()) :=
    ⟨Field.finds_text hlib (by simp [membersNamed]), Field.finds_asDeclared hlib
      (.there (by simp [membersNamed]) (list_read?_importsDocument hlib f.imports)), trivial⟩
  exact hlib.record_read_textual (shape lib) (hkeys ▸ by decide) (f.isTextual_document 122) hfind

/-- What is printed as JSON is read as the document of the listing. -/
theorem exists_listing?_json (fs : List FileImports) :
    ∃ text, listing? lib true fs = some text ∧ lib.parse? text = some (listingDocument fs) := by
  obtain ⟨text, htext, hparse⟩ := hlib.parse_pretty (isTextual_listingDocument fs 121)
  refine ⟨text ++ "\n", ?_, hparse⟩
  rw [listing?, if_pos rfl, listingJson_eq hlib, htext]
  rfl

/-- **Records come back from what is written and from what is printed.**  A record is read from its
compact form, and from every other document that is the record.  The listing of one input gives its
imports, and any other gives the inputs with their imports. -/
theorem reads_back :
    (∀ r : ImportRecord, (ImportRecord.codec lib).write r = r.document ∧
      ∃ text, lib.write? (ImportRecord.codec lib) r = some text ∧
        lib.read? (ImportRecord.codec lib) text = some r) ∧
    (∀ (r : ImportRecord) (v : Json), r.WrittenAs v →
      (∃ text, lib.compact? v = some text ∧ lib.read? (ImportRecord.codec lib) text = some r) ∧
        ∀ text, lib.parse? text = some v → lib.read? (ImportRecord.codec lib) text = some r) ∧
    (∀ f : FileImports, ∃ text, listing? lib true [f] = some text ∧
      lib.read? (lib.list (ImportRecord.codec lib)) text = some f.imports) ∧
    ∀ fs : List FileImports, fs.length ≠ 1 → ∃ text, listing? lib true fs = some text ∧
      lib.read? (lib.list (FileImports.codec lib)) text = some fs := by
  have hread (r : ImportRecord) (v : Json) (h : r.WrittenAs v) (text : String)
      (htext : lib.parse? text = some v) : lib.read? (ImportRecord.codec lib) text = some r := by
    rw [JsonLibrary.read?, htext]
    exact ImportRecord.codec_read?_of_writtenAs hlib h
  have hcompact (r : ImportRecord) (v : Json) (h : r.WrittenAs v) :
      ∃ text, lib.compact? v = some text ∧ lib.read? (ImportRecord.codec lib) text = some r := by
    obtain ⟨text, htext, hparse⟩ := hlib.parse_compact (h.isTextual 124)
    exact ⟨text, htext, hread r v h text hparse⟩
  refine ⟨fun r => ?_, fun r v h => ⟨hcompact r v h, hread r v h⟩, fun f => ?_, fun fs hfs => ?_⟩
  · have hwrite := ImportRecord.codec_write hlib r
    refine ⟨hwrite, ?_⟩
    rw [JsonLibrary.write?, hwrite]
    exact hcompact r _ r.writtenAs_document
  · obtain ⟨text, htext, hparse⟩ := exists_listing?_json hlib [f]
    refine ⟨text, htext, ?_⟩
    rw [JsonLibrary.read?, hparse]
    exact list_read?_importsDocument hlib f.imports
  · obtain ⟨text, htext, hparse⟩ := exists_listing?_json hlib fs
    have hdocument : listingDocument fs = .array (fs.map FileImports.document) := by
      unfold listingDocument
      split
      · exact absurd rfl hfs
      · rfl
    refine ⟨text, htext, ?_⟩
    rw [JsonLibrary.read?, hparse, hdocument]
    exact hlib.list_read _ (hdocument ▸ isTextual_listingDocument fs 121) <|
      List.forall₂_map_right_iff.2 <| List.forall₂_same.2 fun f _ =>
        FileImports.codec_read?_document hlib f

end ReadBack

/-- Members from the last to the first, a null for no alias, and one member more. -/
theorem read?_of_reversed_members :
    ImportRecord.read? (Json.object [(some "note", .ofString "x"), (some "source", .ofString "m"),
      (some "imports", .array [.object [(some "alias", .null), (some "name", .ofString "a")]]),
      (some "type", .ofString "namedImport")]).toCompactString =
        some (.namedImport [⟨"a", none⟩] "m") := by
  have hentry : ImportSpecifier.WrittenAs ⟨"a", none⟩
      (.object [(some "alias", .null), (some "name", .ofString "a")]) :=
    .object (.null rfl) (List.forall_mem_nil _) ⟨.swap _ _ [], List.forall_mem_nil _⟩
  have hnote : AreTexts [(some "note", .ofString "x")] :=
    List.forall_mem_singleton.2 ⟨"x", rfl⟩
  have hforeign : "note" ∉ ["type", "imports", "source"] := by decide
  have hperm := List.reverse_perm [(some "type", Json.ofString "namedImport"),
    (some "imports", .array [.object [(some "alias", .null), (some "name", .ofString "a")]]),
    (some "source", .ofString "m"), (some "note", .ofString "x")]
  obtain ⟨⟨text, htext, hread⟩, -⟩ := (reads_back JsonLibrary.standard_documented).2.1
    (.namedImport [⟨"a", none⟩] "m") _ (.object ⟨_, .cons hentry .nil, rfl⟩ hnote
      ⟨hperm, List.forall_mem_singleton.2 ⟨"note", rfl, hforeign⟩⟩)
  exact Option.some.inj htext ▸ hread

end Command

end ModuleImports
