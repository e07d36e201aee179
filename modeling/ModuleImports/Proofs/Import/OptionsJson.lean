import ModuleImports.Import.OptionsJson
import ModuleImports.Proofs.Json.Standard

/-!
# Proofs/Import/OptionsJson — both kinds of settings in one document

Settings for reading a text and settings for splitting it are declared apart, and may stand in the
same document.  Both have a field for comments; its declared name is spelled by the same rule, and it
is off where it is missing, so what one kind finds the other finds too (`settings_agree`).  Neither
where a member stands nor what is there under other names makes a difference.
-/

namespace ModuleImports

open Json

/-- The names of the members that settings for splitting a text have. -/
def ScanOptions.fields : List String := ["skipComments"]

/-- The names of the members that settings for reading a text have. -/
def ImportOptions.fields : List String := ["grammar", "skipComments"]

section Library

variable {lib : JsonLibrary} (hlib : lib.Documented) {ms ms' extra : List (Option String × Json)}
  {text : String}
include hlib

/-! ## The names of the members -/

theorem fieldName_skip_comments : lib.fieldName .camelCase "skip_comments" = "skipComments" := by
  have hwords := hlib.fieldName_words "skip" 'c' "omments".toList rfl rfl
  rw [show lib.fieldName .camelCase "skip" = "skip" from
    hlib.fieldName_word 's' "kip".toList rfl] at hwords
  exact hwords

theorem ScanOptions.keys_shape : (shape lib).keys lib = fields :=
  congrArg (· :: []) (fieldName_skip_comments hlib)

theorem ImportOptions.keys_shape : (shape lib).keys lib = fields := by
  have hgrammar : lib.fieldName .camelCase "grammar" = "grammar" :=
    hlib.fieldName_word 'g' "rammar".toList rfl
  exact congrArg₂ (fun first second => [first, second]) hgrammar (fieldName_skip_comments hlib)

/-! ## Members in another order, and others among them -/

theorem ScanOptions.readsTextual (depth : Nat) : (shape lib).fields.ReadsTextual depth :=
  ⟨fun _ b hv => hlib.bool_read hv ▸ .bool b, trivial⟩

theorem ImportGrammar.isTextual_of_codec_read? {v : Json} {g : ImportGrammar}
    (h : (codec lib).read? v = some g) (depth : Nat) : v.IsTextual (depth + 1) := by
  obtain ⟨name, rfl | rfl⟩ := hlib.choice_read _ h
  · exact .string name
  · exact .object (by simp) (List.forall_mem_singleton.2 .null)

theorem ImportOptions.readsTextual (depth : Nat) :
    (shape lib).fields.ReadsTextual (depth + 1) :=
  ⟨fun _ _ hv => ImportGrammar.isTextual_of_codec_read? hlib hv depth,
    fun _ b hv => hlib.bool_read hv ▸ .bool b, trivial⟩

/-- **Settings for splitting** are read by name. -/
theorem ScanOptions.codec_read?_congr (h : Rearranged fields ms extra ms') :
    (codec lib).read? (.object ms') = (codec lib).read? (.object ms) := by
  have hkeys := keys_shape hlib
  exact hlib.record_read_congr (hkeys ▸ by decide) (readsTextual hlib _) (hkeys ▸ h)

/-- **Settings for reading** are read by name. -/
theorem ImportOptions.codec_read?_congr (h : Rearranged fields ms extra ms') :
    (codec lib).read? (.object ms') = (codec lib).read? (.object ms) := by
  have hkeys := keys_shape hlib
  exact hlib.record_read_congr (hkeys ▸ by decide) (readsTextual hlib 125) (hkeys ▸ h)

/-! ## One document for both -/

/-- **What settings for reading find, settings for splitting find too.** -/
theorem ScanOptions.codec_read?_of_importOptions {o : ImportOptions}
    (h : (ImportOptions.codec lib).read? (.object ms) = some o) :
    (codec lib).read? (.object ms) = some o.scanOptions := by
  obtain ⟨hnames, ⟨grammar, skip, _⟩, ⟨-, hskip, -⟩, rfl⟩ :=
    hlib.find_of_record_read _ (ImportOptions.keys_shape hlib ▸ by decide) h
  -- The two declarations give the field for comments the same name and the same default.
  have hfind : (shape lib).fields.Find (lib.fieldName (shape lib).rule) ms (skip, ()) :=
    ⟨hskip, trivial⟩
  exact hlib.record_read _ (keys_shape hlib ▸ by decide) hnames
    (List.forall_mem_map.2 (hfind.isTextual (readsTextual hlib _))) hfind

/-- **Both kinds of settings agree on every text that is an object.**  If it holds settings for
reading, it holds those for splitting that they mean.  For either kind, any text whose object has
the same members in another order, and others of names that are no settings, holds the same. -/
theorem settings_agree (htext : lib.parse? text = some (.object ms)) :
    (∀ o, lib.read? (ImportOptions.codec lib) text = some o →
      lib.read? (ScanOptions.codec lib) text = some o.scanOptions) ∧
    ∀ text' extra ms', lib.parse? text' = some (.object ms') →
      (Rearranged ImportOptions.fields ms extra ms' →
        lib.read? (ImportOptions.codec lib) text' = lib.read? (ImportOptions.codec lib) text) ∧
      (Rearranged ScanOptions.fields ms extra ms' →
        lib.read? (ScanOptions.codec lib) text' = lib.read? (ScanOptions.codec lib) text) := by
  simp only [JsonLibrary.read?, htext, Option.bind_some]
  refine ⟨fun o ho => ScanOptions.codec_read?_of_importOptions hlib ho, ?_⟩
  intro text' extra ms' htext'
  simp only [htext', Option.bind_some]
  exact ⟨ImportOptions.codec_read?_congr hlib, ScanOptions.codec_read?_congr hlib⟩

end Library

/-- A member named with an escape is the one without, and a foreign one may come first and hold
anything. -/
theorem settings_agree_of_foreign_member :
    ImportOptions.read? r#"{"x":[{},"\ud800"],"grammar":"basic","skip\u0043omments":true}"# =
      some ⟨.basic, true⟩ ∧
    ScanOptions.read? r#"{"x":[{},"\ud800"],"grammar":"basic","skip\u0043omments":true}"# =
      some ⟨true⟩ := by
  have htext : JsonLibrary.standard.parse? r#"{"skipComments":true,"grammar":"basic"}"# =
      some (.object [(some "skipComments", .bool true), (some "grammar", .ofString "basic")]) := by
    with_unfolding_all rfl
  have htext' : JsonLibrary.standard.parse?
      r#"{"x":[{},"\ud800"],"grammar":"basic","skip\u0043omments":true}"# =
      some (.object [(some "x", .array [.object [], .string none]),
        (some "grammar", .ofString "basic"), (some "skipComments", .bool true)]) := by
    with_unfolding_all rfl
  have hread : ImportOptions.read? r#"{"skipComments":true,"grammar":"basic"}"# =
      some ⟨.basic, true⟩ := by
    rw [ImportOptions.read?, JsonLibrary.read?, htext]
    rfl
  have hmembers (fields : List String) (hx : "x" ∉ fields) : Rearranged fields
      [(some "skipComments", .bool true), (some "grammar", .ofString "basic")]
      [(some "x", .array [.object [], .string none])]
      [(some "x", .array [.object [], .string none]), (some "grammar", .ofString "basic"),
        (some "skipComments", .bool true)] :=
    ⟨(List.reverse_perm _).symm, by simpa using hx⟩
  obtain ⟨hagree, hsame⟩ := settings_agree JsonLibrary.standard_documented htext
  have hmeant := hagree _ hread
  have hboth := hsame _ [(some "x", .array [.object [], .string none])] _ htext'
  refine ⟨?_, ?_⟩
  · exact (hboth.1 (hmembers _ (by decide))).trans hread
  · exact (hboth.2 (hmembers _ (by decide))).trans hmeant

end ModuleImports
