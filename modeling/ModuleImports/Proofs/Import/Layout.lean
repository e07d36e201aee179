import ModuleImports.Proofs.Import.Viability
import ModuleImports.Proofs.Token.Blanking

/-!
# Proofs/Import/Layout — the imports of a text in another layout

What stands between its tokens is of no account for the imports of a text.  Comments that count as
blanks can be blanked out (`SourceText.blanked_equivalent`), and the words of a text can be laid out
anew with any blanks between them (`SourceText.relaid_equivalent`).
-/

namespace ModuleImports.SourceText

variable {source : SourceText} {lead : List Char} {gaps : List (List Char)}

/-! ## Comments blanked out -/

/-- The blanked text has the same imports without comments, or fails alike. -/
theorem imports_blanked
    (hclosed : ∀ e ∈ (source.scan ⟨true⟩).failure, e.kind ≠ .unterminatedComment)
    (g : ImportGrammar) : source.blanked.imports ⟨g, false⟩ = source.imports ⟨g, true⟩ := by
  have hscan : source.blanked.scan (ImportOptions.scanOptions ⟨g, false⟩) =
      source.scan (ImportOptions.scanOptions ⟨g, true⟩) := scan_blanked hclosed
  rw [imports, imports, Recognition.of_eq, Recognition.of_eq, hscan, length_blanked]

/-- **Skipping comments is blanking them out**, for the tokens of a text and for its imports. -/
theorem blanked_equivalent (source : SourceText)
    (hclosed : ∀ e ∈ (source.scan ⟨true⟩).failure, e.kind ≠ .unterminatedComment) :
    source.blanked.scan ⟨false⟩ = source.scan ⟨true⟩ ∧
      ∀ g, source.blanked.imports ⟨g, false⟩ = source.imports ⟨g, true⟩ :=
  ⟨scan_blanked hclosed, imports_blanked hclosed⟩

/-- In `a/*b*//c` the comment leaves five spaces, and the slash stays what it is. -/
theorem blanked_of_comment_before_slash :
    (ofString "a/*b*//c").blanked = ofString "a     /c" ∧
      ((ofString "a/*b*//c").scan ⟨true⟩).failure = none ∧
      (ofString "a     /c").scan ⟨false⟩ = (ofString "a/*b*//c").scan ⟨true⟩ := by
  have hblanked : (ofString "a/*b*//c").blanked = ofString "a     /c" := by
    rw [blanked_eq]
    decide +kernel
  have hfailure : ((ofString "a/*b*//c").scan ⟨true⟩).failure = none := by decide +kernel
  have hclosed : ∀ e ∈ ((ofString "a/*b*//c").scan ⟨true⟩).failure,
      e.kind ≠ .unterminatedComment := by
    rw [hfailure]
    exact nofun
  have hscan := (blanked_equivalent _ hclosed).1
  rw [hblanked] at hscan
  exact ⟨hblanked, hfailure, hscan⟩

/-! ## Words laid out anew -/

/-- Texts with the same terminals have the same imports. -/
theorem imports_eq_ok_congr {other : SourceText} {g : ImportGrammar} {skip skip' : Bool}
    (hfailure : (source.scan ⟨skip⟩).failure = none)
    (hfailure' : (other.scan ⟨skip'⟩).failure = none)
    (h : (source.scan ⟨skip⟩).tokens.map Token.terminal =
      (other.scan ⟨skip'⟩).tokens.map Token.terminal) (records : List ImportRecord) :
    source.imports ⟨g, skip⟩ = .ok records ↔ other.imports ⟨g, skip'⟩ = .ok records := by
  simp only [imports_eq_ok_iff_terminals, ImportOptions.scanOptions, hfailure, hfailure', h]

/-- **Layout does not matter.**  The words of a text without lexical fault have the same tokens with
any blanks between them, whether or not comments are skipped, and so the same imports. -/
theorem relaid_equivalent (source : SourceText) (skip skip' : Bool)
    (hfailure : (source.scan ⟨skip⟩).failure = none)
    (hs : Spacing lead gaps (source.scan ⟨skip⟩).tokens.length) :
    (∃ us, (source.relaid ⟨skip⟩ lead gaps).scan ⟨skip'⟩ = ⟨us, none⟩ ∧
      us.map Token.content = (source.scan ⟨skip⟩).tokens.map Token.content ∧
      ∀ i w, (source.words ⟨skip⟩)[i]? = some w → us[i]?.map Token.span =
        some ⟨(layout lead ((source.words ⟨skip⟩).take i) (gaps.take i)).length, w.length⟩) ∧
    ∀ g records, (source.relaid ⟨skip⟩ lead gaps).imports ⟨g, skip'⟩ = .ok records ↔
      source.imports ⟨g, skip⟩ = .ok records := by
  obtain ⟨us, hscan, hcontent, hspan⟩ := scan_relaid hs ⟨skip'⟩
  refine ⟨⟨us, hscan, hcontent, hspan⟩, fun g records => ?_⟩
  refine imports_eq_ok_congr (by rw [hscan]) hfailure ?_ records
  rw [hscan]
  exact Token.map_terminal_of_content hcontent

/-- The two slashes of `a/ /b` stay two operators between line feeds, and start no comment. -/
theorem relaid_of_slashes : ∃ us,
    ((ofString "a/ /b").relaid ⟨true⟩ [] [['\n'], [' '], ['\n'], []]).scan ⟨true⟩ = ⟨us, none⟩ ∧
      us.map Token.content = ((ofString "a/ /b").scan ⟨true⟩).tokens.map Token.content := by
  have hfailure : ((ofString "a/ /b").scan ⟨true⟩).failure = none := by decide +kernel
  have hlength : ((ofString "a/ /b").scan ⟨true⟩).tokens.length = 4 := by decide +kernel
  have hs : Spacing [] [['\n'], [' '], ['\n'], []]
      ((ofString "a/ /b").scan ⟨true⟩).tokens.length :=
    ⟨hlength.symm, nofun, by simp [Trivia.blanks], by simp⟩
  obtain ⟨us, hscan, hcontent, -⟩ := (relaid_equivalent _ true true hfailure hs).1
  exact ⟨us, hscan, hcontent⟩

end ModuleImports.SourceText
