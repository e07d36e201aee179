import ModuleImports.Proofs.Command.Run
import ModuleImports.Proofs.Import.Records
import ModuleImports.Proofs.Text.Quoted

/-!
# Proofs/Command/Lines — the lines of a listing

A listing as text is a row of lines with a line feed after each (`listingText_eq_join`): one for
every record, and one in front of the records of an input if there are several inputs.  Splitting it
at line feeds gives those lines back just if none of them has a line feed in it (`splitOn_join_iff`).

The line of a record has only the exported names as they are: its source is quoted, and what it
binds are identifiers.  In the full grammar an exported name may be any string, so the line breaks
of such names, and no others, are in the line (`mem_recordText_iff`).  In the basic grammar there are
none (`onOneLine_recordText_of_basic`).
-/

namespace ModuleImports

open Vocabulary

/-- No line break is in a text. -/
def OnOneLine (s : String) : Prop := ∀ c ∈ s.toList, isLineBreak c = false

/-- The entries of a record, if it has a list of them. -/
def ImportRecord.entries : ImportRecord → List ImportSpecifier
  | namedImport es _ => es
  | _ => []

/-- The short names of the forms. -/
def ImportRecord.kindNames : List String := ["default", "named", "namespace", "side-effect"]

theorem ImportRecord.kindName_mem (r : ImportRecord) : r.kindName ∈ kindNames := by
  cases r <;> simp [kindName, kindNames]

/-! ## Line breaks -/

section LineBreak

variable {c : Char} {s separator : String} {ss : List String}

instance : Decidable (OnOneLine s) := List.decidableBAll (isLineBreak · = false) s.toList

theorem OnOneLine.notMem (h : OnOneLine s) (hc : isLineBreak c = true) : c ∉ s.toList :=
  fun hmem => absurd hc (by simp [h c hmem])

theorem onOneLine_iff_notMem : OnOneLine s ↔ ∀ c, isLineBreak c = true → c ∉ s.toList := by
  refine ⟨fun h c hc => h.notMem hc, fun h c hmem => ?_⟩
  rw [← Bool.not_eq_true]
  exact fun hc => h c hc hmem

theorem onOneLine_quote (s : String) : OnOneLine (Quoted.quote s) :=
  fun _ hc => Quoted.isLineBreak_of_mem_quote hc

theorem IsIdentifier.onOneLine (h : IsIdentifier s) : OnOneLine s := by
  have hbreak {c : Char} (hc : c.isAlphanum = true ∨ c = '_' ∨ c = '$') :
      isLineBreak c = false := by
    rw [Quoted.isLineBreak_eq_false_iff]
    constructor <;> (rintro rfl; exact absurd hc (by decide))
  obtain ⟨c, cs, rfl, hstart, hcs⟩ := h.isWord
  rw [OnOneLine, String.toList_ofList, List.forall_mem_cons]
  exact ⟨hbreak (hstart.imp_left fun hc => by simp [Char.isAlphanum, hc]),
    fun d hd => hbreak (hcs d hd)⟩

theorem mem_intercalate_iff (hc : c ∉ separator.toList) :
    c ∈ (separator.intercalate ss).toList ↔ ∃ s ∈ ss, c ∈ s.toList := by
  induction ss with
  | nil => simp
  | cons s ss ih =>
    rcases ss with _ | ⟨t, ss⟩
    · simp
    · rw [String.intercalate_cons_cons, String.toList_append, String.toList_append,
        List.mem_append, List.mem_append, ih]
      simp [hc]

end LineBreak

namespace Command

/-! ## The line of a record -/

section Record

variable {c : Char} {e : ImportSpecifier} {r : ImportRecord}

theorem mem_specifierText_iff (h : e.WellFormed) (hc : isLineBreak c = true) :
    c ∈ (specifierText e).toList ↔ c ∈ e.name.toList := by
  rcases e with ⟨name, _ | localName⟩
  · rfl
  · have hlocal : IsIdentifier localName := ImportSpecifier.wellFormed_iff.1 h
    have has : OnOneLine " as " := by decide
    rw [specifierText, String.toList_append, String.toList_append, List.mem_append, List.mem_append,
      or_iff_left (hlocal.onOneLine.notMem hc), or_iff_left (has.notMem hc)]

theorem mem_namesText_iff (h : r.WellFormed) (hc : isLineBreak c = true) :
    c ∈ (namesText r).toList ↔ ∃ e ∈ r.entries, c ∈ e.name.toList := by
  have hcomma : OnOneLine ", " := by decide
  cases r with
  | defaultImport b _ | namespaceImport b _ =>
    have hb : IsIdentifier b := h
    simp [namesText, ImportRecord.localNames, ImportRecord.entries, hb.onOneLine.notMem hc]
  | sideEffectImport _ => simp [namesText, ImportRecord.localNames, ImportRecord.entries]
  | namedImport es _ =>
    have hopening : OnOneLine r"{ " := by decide
    have hclosing : OnOneLine r" }" := by decide
    rw [namesText, String.toList_append, String.toList_append, List.mem_append, List.mem_append,
      or_iff_left (hclosing.notMem hc), or_iff_right (hopening.notMem hc),
      mem_intercalate_iff (hcomma.notMem hc)]
    simp only [List.mem_map, exists_exists_and_eq_and]
    exact exists_congr fun e => and_congr_right fun he => mem_specifierText_iff (h e he) hc

theorem onOneLine_padded_kindName (r : ImportRecord) :
    OnOneLine (padded kindWidth r.kindName) := by
  have hkinds : ∀ kind ∈ ImportRecord.kindNames, OnOneLine (padded kindWidth kind) := by decide
  exact hkinds r.kindName r.kindName_mem

/-- **The line breaks in the line of a record** are those of the names that it imports. -/
theorem mem_recordText_iff (h : r.WellFormed) (hc : isLineBreak c = true) :
    c ∈ (recordText r).toList ↔ ∃ e ∈ r.entries, c ∈ e.name.toList := by
  have hblank : OnOneLine " " := by decide
  have hfrom : OnOneLine " from " := by decide
  have hbinding : c ∈ (if (namesText r).isEmpty then "" else namesText r ++ " from ").toList ↔
      c ∈ (namesText r).toList := by
    split
    · next hempty => rw [String.isEmpty_iff.1 hempty]
    · rw [String.toList_append, List.mem_append, or_iff_left (hfrom.notMem hc)]
  simp only [recordText, String.toList_append, List.mem_append,
    (onOneLine_padded_kindName r).notMem hc, hblank.notMem hc, (onOneLine_quote r.source).notMem hc,
    hbinding, mem_namesText_iff h hc, false_or, or_false]

theorem onOneLine_recordText_iff (h : r.WellFormed) :
    OnOneLine (recordText r) ↔ ∀ e ∈ r.entries, OnOneLine e.name := by
  simp only [onOneLine_iff_notMem]
  constructor
  · intro hline e he c hc hmem
    exact hline c hc ((mem_recordText_iff h hc).2 ⟨e, he, hmem⟩)
  · intro hnames c hc hmem
    obtain ⟨e, he, hmem⟩ := (mem_recordText_iff h hc).1 hmem
    exact hnames e he c hc hmem

/-- **In the basic grammar** the line of every record is one: what a plain entry imports it binds. -/
theorem onOneLine_recordText_of_basic {source : SourceText} {skip : Bool} {rs : List ImportRecord}
    (h : source.imports ⟨.basic, skip⟩ = .ok rs) : ∀ r ∈ rs, OnOneLine (recordText r) := by
  intro r hr
  obtain ⟨hwell, hplain⟩ := SourceText.exists_imports_iff_admits.1 ⟨source, h⟩ r hr
  have hplain : r.Plain := hplain.resolve_left (by simp)
  rw [onOneLine_recordText_iff hwell]
  cases r with
  | namedImport es _ =>
    intro e he
    have hlocal : IsIdentifier e.localName := ImportSpecifier.wellFormed_iff.1 (hwell e he)
    rw [ImportSpecifier.localName, hplain e he] at hlocal
    exact hlocal.onOneLine
  | _ => exact List.forall_mem_nil _

end Record

/-! ## Splitting at line feeds -/

/-- No piece has the separator in it. -/
theorem notMem_of_mem_splitOn {a : Char} {cs : List Char} :
    ∀ piece ∈ cs.splitOn a, a ∉ piece := by
  induction cs with
  | nil => simp [List.splitOn_nil]
  | cons c cs ih =>
    rw [List.splitOn_cons_eq_if_modifyHead]
    split
    · simpa using ih
    · next hc =>
      obtain ⟨piece, pieces, hpieces⟩ := List.exists_cons_of_ne_nil (List.splitOn_ne_nil a cs)
      rw [hpieces, List.forall_mem_cons] at ih
      rw [hpieces, List.modifyHead_cons, List.forall_mem_cons]
      have hca : a ≠ c := fun hac => hc (beq_iff_eq.2 hac.symm)
      exact ⟨List.not_mem_cons_of_ne_of_not_mem hca ih.1, ih.2⟩

/-- **Lines are got back** from a text of them just if none has a line feed in it. -/
theorem splitOn_join_iff {ss : List String} :
    (String.join (ss.map (· ++ "\n"))).toList.splitOn '\n' = ss.map String.toList ++ [[]] ↔
      ∀ s ∈ ss, '\n' ∉ s.toList := by
  constructor
  · intro h s hs
    exact notMem_of_mem_splitOn s.toList (h ▸ List.mem_append_left _ (List.mem_map_of_mem hs))
  · intro h
    induction ss with
    | nil => rfl
    | cons s ss ih =>
      rw [List.forall_mem_cons] at h
      have hjoin : (String.join ((s :: ss).map (· ++ "\n"))).toList =
          s.toList ++ '\n' :: (String.join (ss.map (· ++ "\n"))).toList := by simp
      rw [hjoin, List.splitOn_append_cons_self_of_not_mem h.1, ih h.2, List.map_cons,
        List.cons_append]

/-! ## The lines of a listing -/

/-- **A listing splits into its lines** just if no exported name has a line feed in it. -/
theorem splitOn_listingText_iff {fs : List FileImports} (hfiles : ∀ f ∈ fs, OnOneLine f.file)
    (hrecords : ∀ f ∈ fs, ∀ r ∈ f.imports, r.WellFormed) :
    (listingText fs).toList.splitOn '\n' = (listingLines fs).map String.toList ++ [[]] ↔
      ∀ f ∈ fs, ∀ r ∈ f.imports, ∀ e ∈ r.entries, '\n' ∉ e.name.toList := by
  rw [listingText_eq_join, splitOn_join_iff, listingLines, List.forall_mem_flatMap]
  refine forall₂_congr fun f hf => ?_
  have hfile : '\n' ∉ f.file.toList := (hfiles f hf).notMem rfl
  have hlines : (∀ s ∈ f.lines (1 < fs.length), '\n' ∉ s.toList) ↔
      ∀ r ∈ f.imports, '\n' ∉ (recordText r).toList := by
    rw [FileImports.lines]
    split <;> simp [hfile]
  rw [hlines]
  refine forall₂_congr fun r hr => ?_
  rw [mem_recordText_iff (hrecords f hf r hr) rfl]
  push Not
  rfl

/-! ## What a command prints -/

section Print

variable {tools : Tools} {w : Surroundings} {args : List String} {i : Invocation}
  {o : ImportOptions} {texts : List (String × String)} {fs : List FileImports}

/-- The inputs of a run have the names of its files, or the one of standard input. -/
theorem Surroundings.Holds.onOneLine (htexts : w.Holds i.files texts)
    (hfiles : ∀ file ∈ i.files, OnOneLine file) : ∀ x ∈ texts, OnOneLine x.1 := by
  have hinputs : ∀ x ∈ w.inputs i.files, OnOneLine x.1 := by
    rcases hi : i.files with _ | ⟨file, files⟩
    · exact List.forall_mem_singleton.2 (by decide : OnOneLine stdinName)
    · rw [hi] at hfiles
      exact List.forall_mem_map.2 hfiles
  rw [htexts, List.forall_mem_map] at hinputs
  exact hinputs

/-- **A command prints the lines of its listing** just if no exported name has a line feed in it,
and the lines of its records have no line break just if no exported name has one. -/
theorem execute_out_lines_iff (hargs : tools.readArguments args = .ok i) (hjson : i.json = false)
    (hsettings : Settings tools.json w i o) (htexts : w.Holds i.files texts)
    (himports : List.Forall₂ (ImportsOf o) texts fs) (hfiles : ∀ file ∈ i.files, OnOneLine file) :
    (tools.execute w args).outcome.status = 0 ∧
      ((tools.execute w args).outcome.out.toList.splitOn '\n' =
          (listingLines fs).map String.toList ++ [[]] ↔
        ∀ f ∈ fs, ∀ r ∈ f.imports, ∀ e ∈ r.entries, '\n' ∉ e.name.toList) ∧
      ((∀ f ∈ fs, ∀ r ∈ f.imports, OnOneLine (recordText r)) ↔
        ∀ f ∈ fs, ∀ r ∈ f.imports, ∀ e ∈ r.entries, OnOneLine e.name) := by
  have houtcome : (tools.execute w args).outcome = .listed (listingText fs) := by
    rw [Tools.execute_outcome hargs, run_outcome_of_importsOf hsettings htexts himports, hjson]
    rfl
  have hnames : ∀ f ∈ fs, OnOneLine f.file := by
    intro f hf
    obtain ⟨x, hx, hfile, -⟩ := exists_mem_of_forall₂ himports f hf
    exact hfile ▸ htexts.onOneLine hfiles x hx
  have hrecords := wellFormed_of_importsOf himports
  rw [houtcome]
  refine ⟨rfl, splitOn_listingText_iff hnames hrecords, ?_⟩
  exact forall₂_congr fun f hf => forall₂_congr fun r hr =>
    onOneLine_recordText_iff (hrecords f hf r hr)

/-- Two inputs have their names in front, and a line feed in a source is written as an escape. -/
theorem execute_out_lines_of_two_files :
    (execute ⟨fun path => if path = "a.js" then some "import 'm\\n'" else some "", none⟩
        ["a.js", "b.js"]).outcome.out.toList.splitOn '\n' =
      ["a.js:", "  side-effect \"m\\n\"", "b.js:"].map String.toList ++ [[]] := by
  have hargs : Tools.standard.readArguments ["a.js", "b.js"] =
      .ok { files := ["a.js", "b.js"] } := by decide +kernel
  have htexts : Surroundings.Holds
      ⟨fun path => if path = "a.js" then some "import 'm\\n'" else some "", none⟩
      ["a.js", "b.js"] [("a.js", "import 'm\\n'"), ("b.js", "")] := rfl
  have hfirst : ImportsOf ⟨.full, false⟩ ("a.js", "import 'm\\n'")
      ⟨"a.js", [.sideEffectImport "m\n"]⟩ := ⟨rfl, by decide +kernel⟩
  have hsecond : ImportsOf ⟨.full, false⟩ ("b.js", "") ⟨"b.js", []⟩ := ⟨rfl, by decide +kernel⟩
  obtain ⟨-, hlines, -⟩ := execute_out_lines_iff hargs rfl (.default rfl) htexts
    (.cons hfirst (.cons hsecond .nil)) (by decide)
  have hlisting : listingLines [⟨"a.js", [.sideEffectImport "m\n"]⟩, ⟨"b.js", []⟩] =
      ["a.js:", "  side-effect \"m\\n\"", "b.js:"] := by decide +kernel
  exact hlisting ▸ hlines.2 (by simp [ImportRecord.entries])

/-- A name may have a line feed in it, written as an escape; then its record has two lines. -/
theorem execute_out_of_line_feed_in_name :
    (SourceText.ofString r"import { 'a\nb' as c } from 'm'").imports ⟨.full, false⟩ =
        .ok [.namedImport [⟨"a\nb", some "c"⟩] "m"] ∧
      (execute ⟨fun _ => none, some r"import { 'a\nb' as c } from 'm'"⟩
          []).outcome.out.toList.splitOn '\n' =
        [r"named       { a", r#"b as c } from "m""#].map String.toList ++ [[]] := by
  decide +kernel

end Print

end Command

end ModuleImports
