import Mathlib.Data.List.Induction
import ModuleImports.Proofs.Import.Viability

/-!
# Proofs/Import/Records — the records that texts have

A text has some records just if every name they bind is an identifier, and in the basic grammar if
moreover none of them needs a form that only the full grammar has (`SourceText.exists_imports_iff`).

What texts say comes down to the grammar: its programs, written with terminals that occur
(`exists_imports_iff_program`).  One way, `ImportGrammar.Admits` is kept by every form of the grammar;
the other way, a form is found for every record, with its source and its exported names as strings.
-/

namespace ModuleImports

open Terminal

/-! ## Well-formed records -/

/-- **The names that an import can bind**: words that are neither reserved nor operators. -/
structure IsIdentifier (name : String) : Prop where
  isWord : ∃ c cs, name = String.ofList (c :: cs) ∧ (c.isAlpha = true ∨ c = '_' ∨ c = '$') ∧
    ∀ d ∈ cs, d.isAlphanum = true ∨ d = '_' ∨ d = '$'
  notMem_keywords : name ∉ Vocabulary.keywords
  notMem_wordOperators : name ∉ Vocabulary.wordOperators

/-- An entry binds an identifier: its alias if it has one, and else its name. -/
def ImportSpecifier.WellFormed (e : ImportSpecifier) : Prop :=
  e.alias? = none ∧ IsIdentifier e.name ∨ ∃ localName, e.alias? = some localName ∧
    IsIdentifier localName

namespace ImportRecord

/-- **All that a record binds** are identifiers. -/
def WellFormed : ImportRecord → Prop
  | defaultImport b _ | namespaceImport b _ => IsIdentifier b
  | namedImport es _ => ∀ e ∈ es, e.WellFormed
  | sideEffectImport _ => True

/-- The record is of a form that the basic grammar has. -/
def Plain : ImportRecord → Prop
  | defaultImport .. | namespaceImport .. => True
  | namedImport es _ => ∀ e ∈ es, e.alias? = none
  | sideEffectImport _ => False

end ImportRecord

theorem ImportSpecifier.wellFormed_iff {e : ImportSpecifier} :
    e.WellFormed ↔ IsIdentifier e.localName := by
  rcases e with ⟨name, _ | other⟩
  · simp [WellFormed, ImportSpecifier.localName]
  · simp [WellFormed, ImportSpecifier.localName]

/-- A record is well-formed by its local names alone. -/
theorem ImportRecord.wellFormed_iff {r : ImportRecord} :
    r.WellFormed ↔ ∀ name ∈ r.localNames, IsIdentifier name := by
  cases r <;> simp [WellFormed, localNames, ImportSpecifier.wellFormed_iff]

namespace ImportGrammar

variable {g : ImportGrammar} {es : List ImportSpecifier} {s : String}

/-- An entry that the grammar has a form for. -/
def AdmitsEntry (g : ImportGrammar) (e : ImportSpecifier) : Prop :=
  e.WellFormed ∧ (g = .full ∨ e.alias? = none)

/-- **A record that the grammar has a form for.** -/
def Admits (g : ImportGrammar) (r : ImportRecord) : Prop := r.WellFormed ∧ (g = .full ∨ r.Plain)

theorem admits_namedImport_iff :
    g.Admits (.namedImport es s) ↔ ∀ e ∈ es, g.AdmitsEntry e := by
  simp only [Admits, AdmitsEntry, ImportRecord.WellFormed, ImportRecord.Plain]
  grind

end ImportGrammar

/-! ## Identifiers are the words that occur -/

theorem Word.kind_eq_identifier_iff {word : String} : Word.kind word = .identifier ↔
    word ∉ Vocabulary.keywords ∧ word ∉ Vocabulary.wordOperators := by
  simp only [Word.kind, Vocabulary.isKeyword, Vocabulary.isWordOperator, List.contains_iff_mem]
  grind

/-- **An identifier token has an identifier for its text**, and every identifier is one. -/
theorem Terminal.occurs_identifier_iff {name : String} :
    (identifier name).Occurs ↔ IsIdentifier name := by
  constructor
  · rintro ⟨w, l, hw, hl⟩
    obtain ⟨hkind, htext⟩ := Terminal.mk.inj hl
    rcases hw with @⟨c, cs, hstart, hcs⟩ | _ | _ | _ | @⟨quote, _, _, _, _⟩
    · obtain rfl := Option.some.inj htext
      obtain ⟨hkeyword, hoperator⟩ := Word.kind_eq_identifier_iff.1 hkind
      exact ⟨⟨c, cs, rfl, Vocabulary.isWordStart_iff.1 hstart,
        fun d hd => Vocabulary.isWordPart_iff.1 (hcs d hd)⟩, hkeyword, hoperator⟩
    · cases hkind
    · cases hkind
    · cases hkind
    · rcases Literal.kind_eq_or quote with hq | hq <;> cases hq.symm.trans hkind
  · rintro ⟨⟨c, cs, rfl, hstart, hcs⟩, hkeyword, hoperator⟩
    exact occurs_identifier c cs (Vocabulary.isWordStart_iff.2 hstart)
      (List.all_eq_true.2 fun d hd => Vocabulary.isWordPart_iff.2 (hcs d hd))
      (Word.kind_eq_identifier_iff.2 ⟨hkeyword, hoperator⟩)

namespace Terminal

theorem occurs_importWord : importWord.Occurs :=
  have hword : Lexeme.Written ('i' :: "mport".toList) _ :=
    .word (by decide) (List.all_eq_true.1 (by decide))
  ⟨_, _, hword, by decide⟩

theorem occurs_opening : opening.Occurs := ⟨_, _, .delimiter (c := '{') (by decide), rfl⟩

theorem occurs_comma : comma.Occurs := ⟨_, _, .delimiter (c := ',') (by decide), rfl⟩

end Terminal

/-! ## What the forms of the grammar admit -/

namespace ImportGrammar

variable {g : ImportGrammar} {w : List Terminal} {ws : List (List Terminal)}
  {e : ImportSpecifier} {es : List ImportSpecifier} {r : ImportRecord} {R : List ImportRecord}

/-- Entries occur with the commas between them as they do without. -/
theorem occurs_intercalate_iff :
    (∀ x ∈ [comma].intercalate ws, x.Occurs) ↔ ∀ v ∈ ws, ∀ x ∈ v, x.Occurs := by
  induction ws with
  | nil => simp
  | cons v ws ih =>
    rcases ws with _ | ⟨u, ws⟩
    · simp
    · rw [List.intercalate_cons_cons, List.forall_mem_append, List.forall_mem_append, ih,
        List.forall_mem_cons]
      simp [occurs_comma]

theorem Entry.admits (h : g.Entry w e) (hw : ∀ x ∈ w, x.Occurs) : g.AdmitsEntry e := by
  rcases h with name | ⟨name, localName, hg⟩ | ⟨localName, hg, _⟩
  · exact ⟨.inl ⟨rfl, occurs_identifier_iff.1 (hw _ List.mem_cons_self)⟩, .inr rfl⟩
  · exact ⟨.inr ⟨localName, rfl, occurs_identifier_iff.1 (hw _ (by simp))⟩, .inl hg⟩
  · exact ⟨.inr ⟨localName, rfl, occurs_identifier_iff.1 (hw _ (by simp))⟩, .inl hg⟩

theorem NamedList.admits (h : g.NamedList w es) (hw : ∀ x ∈ w, x.Occurs) :
    ∀ e ∈ es, g.AdmitsEntry e := by
  obtain ⟨ws, hws, hentries⟩ :
      ∃ ws, (∀ v ∈ ws, ∀ x ∈ v, x.Occurs) ∧ List.Forall₂ g.Entry ws es := by
    rcases h with hes | ⟨-, -, hes⟩
    · exact ⟨_, occurs_intercalate_iff.1 fun x hx => hw x (by simp [hx]), hes⟩
    · exact ⟨_, occurs_intercalate_iff.1 fun x hx => hw x (by simp [hx]), hes⟩
  clear h
  induction hentries with
  | nil => exact nofun
  | cons he _ ih =>
    obtain ⟨hv, hws⟩ := List.forall_mem_cons.1 hws
    exact List.forall_mem_cons.2 ⟨he.admits hv, ih hws⟩

/-- **Every record of a declaration is one that the grammar admits.** -/
theorem Declaration.admits (h : g.Declaration w R) (hw : ∀ x ∈ w, x.Occurs) :
    ∀ r ∈ R, g.Admits r := by
  rcases h with ⟨b, s⟩ | ⟨s, hlist⟩ | ⟨b, s⟩ | ⟨s, hg⟩ | ⟨b, s, hg, hlist⟩ | ⟨b, b', s, hg⟩
  · have hb := occurs_identifier_iff.1 (hw (identifier b) (by simp))
    exact List.forall_mem_singleton.2 ⟨hb, .inr trivial⟩
  · have hes := hlist.admits fun x hx => hw x (by simp [hx])
    exact List.forall_mem_singleton.2 (admits_namedImport_iff.2 hes)
  · have hb := occurs_identifier_iff.1 (hw (identifier b) (by simp))
    exact List.forall_mem_singleton.2 ⟨hb, .inr trivial⟩
  · exact List.forall_mem_singleton.2 ⟨trivial, .inl hg⟩
  · have hb := occurs_identifier_iff.1 (hw (identifier b) (by simp))
    have hes := hlist.admits fun x hx => hw x (by simp [hx])
    exact List.forall_mem_cons.2
      ⟨⟨hb, .inl hg⟩, List.forall_mem_singleton.2 (admits_namedImport_iff.2 hes)⟩
  · have hb := occurs_identifier_iff.1 (hw (identifier b) (by simp))
    have hb' := occurs_identifier_iff.1 (hw (identifier b') (by simp))
    exact List.forall_mem_cons.2 ⟨⟨hb, .inl hg⟩, List.forall_mem_singleton.2 ⟨hb', .inl hg⟩⟩

theorem Item.admits (h : g.Item w R) (hw : ∀ x ∈ w, x.Occurs) : ∀ r ∈ R, g.Admits r := by
  rcases h with _ | hdecl | _
  · exact nofun
  · exact hdecl.admits (List.forall_mem_cons.1 hw).2
  · exact nofun

theorem Program.admits (h : g.Program w R) (hw : ∀ x ∈ w, x.Occurs) : ∀ r ∈ R, g.Admits r := by
  obtain ⟨ws, Rs, hitems, rfl, rfl⟩ := h
  induction hitems with
  | nil => exact nofun
  | cons hitem _ ih =>
    rw [List.flatten_cons, List.forall_mem_append] at hw ⊢
    exact ⟨hitem.admits hw.1, ih hw.2⟩

/-! ## A form for every record -/

theorem exists_entry (h : g.AdmitsEntry e) : ∃ w, g.Entry w e ∧ ∀ x ∈ w, x.Occurs := by
  rcases e with ⟨name, _ | localName⟩
  · have hname : IsIdentifier name := ImportSpecifier.wellFormed_iff.1 h.1
    exact ⟨_, .plain name, by simpa using occurs_identifier_iff.2 hname⟩
  · have hlocal : IsIdentifier localName := ImportSpecifier.wellFormed_iff.1 h.1
    have hg : g = .full := h.2.resolve_right (by simp)
    refine ⟨_, .reserved localName hg (.string name), ?_⟩
    simpa using ⟨occurs_string name, occurs_asWord, occurs_identifier_iff.2 hlocal⟩

theorem exists_namedList (h : ∀ e ∈ es, g.AdmitsEntry e) :
    ∃ w, g.NamedList w es ∧ ∀ x ∈ w, x.Occurs := by
  obtain ⟨ws, hes, hws⟩ : ∃ ws, List.Forall₂ g.Entry ws es ∧ ∀ v ∈ ws, ∀ x ∈ v, x.Occurs := by
    induction es with
    | nil => exact ⟨[], .nil, nofun⟩
    | cons e es ih =>
      obtain ⟨he, hes⟩ := List.forall_mem_cons.1 h
      obtain ⟨w, hw, hoccurs⟩ := exists_entry he
      obtain ⟨ws, hws, hall⟩ := ih hes
      exact ⟨w :: ws, .cons hw hws, List.forall_mem_cons.2 ⟨hoccurs, hall⟩⟩
  have hentries := occurs_intercalate_iff.2 hws
  refine ⟨_, .plain hes, List.forall_mem_cons.2 ⟨occurs_opening, ?_⟩⟩
  exact List.forall_mem_append.2 ⟨hentries, List.forall_mem_singleton.2 occurs_closing⟩

/-- **Every record that the grammar admits** has a declaration of its own. -/
theorem exists_declaration (h : g.Admits r) : ∃ w, g.Declaration w [r] ∧ ∀ x ∈ w, x.Occurs := by
  rcases r with ⟨b, s⟩ | ⟨es, s⟩ | ⟨b, s⟩ | s
  · have hb : IsIdentifier b := h.1
    refine ⟨_, .binding b s, ?_⟩
    simpa using ⟨occurs_identifier_iff.2 hb, occurs_fromWord, occurs_string s⟩
  · obtain ⟨w, hw, hoccurs⟩ := exists_namedList (admits_namedImport_iff.1 h)
    refine ⟨_, .list s hw, List.forall_mem_append.2 ⟨hoccurs, ?_⟩⟩
    simpa using ⟨occurs_fromWord, occurs_string s⟩
  · have hb : IsIdentifier b := h.1
    refine ⟨_, .everything b s, ?_⟩
    simpa using
      ⟨occurs_star, occurs_asWord, occurs_identifier_iff.2 hb, occurs_fromWord, occurs_string s⟩
  · have hg : g = .full := h.2.resolve_right id
    exact ⟨_, .sideEffect s hg, by simpa using occurs_string s⟩

theorem exists_program (h : ∀ r ∈ R, g.Admits r) : ∃ w, g.Program w R ∧ ∀ x ∈ w, x.Occurs := by
  induction R using List.reverseRecOn with
  | nil => exact ⟨[], .nil, nofun⟩
  | append_singleton R r ih =>
    obtain ⟨hR, hr⟩ := List.forall_mem_append.1 h
    obtain ⟨w, hw, hoccurs⟩ := ih hR
    obtain ⟨v, hv, hdecl⟩ := exists_declaration (List.forall_mem_singleton.1 hr)
    refine ⟨_, hw.append_item (.declaration hv), List.forall_mem_append.2 ⟨hoccurs, ?_⟩⟩
    exact List.forall_mem_cons.2 ⟨occurs_importWord, hdecl⟩

end ImportGrammar

/-! ## Texts are programs whose terminals occur -/

/-- **Terminals that occur** are those of some text. -/
theorem exists_scan_of_occurs {w : List Terminal} (h : ∀ x ∈ w, x.Occurs) (options : ScanOptions) :
    ∃ (source : SourceText) (ts : List Token), source.scan options = ⟨ts, none⟩ ∧
      ts.map Token.terminal = w := by
  obtain ⟨ls, rfl, hls⟩ :
      ∃ ls : List Lexeme, ls.map Lexeme.terminal = w ∧ ∀ l ∈ ls, Writable l.content := by
    induction w with
    | nil => exact ⟨[], rfl, nofun⟩
    | cons x w ih =>
      obtain ⟨⟨v, l, hv, rfl⟩, hw⟩ := List.forall_mem_cons.1 h
      obtain ⟨ls, rfl, hls⟩ := ih hw
      exact ⟨l :: ls, rfl, List.forall_mem_cons.2 ⟨⟨v, l, hv, rfl⟩, hls⟩⟩
  obtain ⟨source, ts, hscan, hts⟩ := exists_scan_eq (List.forall_mem_map.2 hls) options
  exact ⟨source, ts, hscan, by rw [← Token.map_ofContent, hts, Lexeme.map_ofContent]⟩

namespace SourceText

variable {g : ImportGrammar} {skip : Bool} {R : List ImportRecord}

/-- **What texts say** is what programs say whose terminals occur. -/
theorem exists_imports_iff_program : (∃ source : SourceText, source.imports ⟨g, skip⟩ = .ok R) ↔
    ∃ w, g.Program w R ∧ ∀ x ∈ w, x.Occurs := by
  constructor
  · rintro ⟨source, h⟩
    obtain ⟨-, hprogram⟩ := (source.imports_eq_ok_iff_terminals _ _).1 h
    refine ⟨_, hprogram, List.forall_mem_map.2 fun t ht => ?_⟩
    obtain ⟨v, l, hv, hl⟩ := Token.writable_of_mem_scan ht
    exact ⟨v, l, hv, congrArg Terminal.ofContent hl⟩
  · rintro ⟨w, hprogram, hw⟩
    obtain ⟨source, ts, hscan, rfl⟩ := exists_scan_of_occurs hw ⟨skip⟩
    refine ⟨source, (source.imports_eq_ok_iff_terminals _ _).2 ?_⟩
    rw [ImportOptions.scanOptions, hscan]
    exact ⟨rfl, hprogram⟩

theorem exists_imports_iff_admits :
    (∃ source : SourceText, source.imports ⟨g, skip⟩ = .ok R) ↔ ∀ r ∈ R, g.Admits r := by
  rw [exists_imports_iff_program]
  constructor
  · rintro ⟨w, hprogram, hw⟩
    exact hprogram.admits hw
  · exact ImportGrammar.exists_program

/-- **The records that texts have.**  In the full grammar they are the well-formed ones, in the basic
grammar the plain ones among them; so whatever an import binds is an identifier. -/
theorem exists_imports_iff (skip : Bool) (R : List ImportRecord) :
    ((∃ source : SourceText, source.imports ⟨.full, skip⟩ = .ok R) ↔ ∀ r ∈ R, r.WellFormed) ∧
    ((∃ source : SourceText, source.imports ⟨.basic, skip⟩ = .ok R) ↔
      ∀ r ∈ R, r.WellFormed ∧ r.Plain) ∧
    ∀ (source : SourceText) (g : ImportGrammar), source.imports ⟨g, skip⟩ = .ok R →
      ∀ r ∈ R, ∀ name ∈ r.localNames, IsIdentifier name := by
  refine ⟨?_, ?_, fun source g h r hr => ?_⟩
  · simp [exists_imports_iff_admits, ImportGrammar.Admits]
  · simp [exists_imports_iff_admits, ImportGrammar.Admits]
  · exact ImportRecord.wellFormed_iff.1 (exists_imports_iff_admits.1 ⟨source, h⟩ r hr).1

/-- A reserved word is imported under an identifier, and no text does so in the basic grammar. -/
theorem imports_of_reserved_word :
    (ofString r"import {in as a} from 'm'").imports ⟨.full, false⟩ =
      .ok [.namedImport [⟨"in", some "a"⟩] "m"] ∧ IsIdentifier "a" ∧
    ¬∃ source : SourceText,
      source.imports ⟨.basic, false⟩ = .ok [.namedImport [⟨"in", some "a"⟩] "m"] := by
  have himports : (ofString r"import {in as a} from 'm'").imports ⟨.full, false⟩ =
      .ok [.namedImport [⟨"in", some "a"⟩] "m"] := by decide +kernel
  obtain ⟨-, hbasic, hnames⟩ := exists_imports_iff false [.namedImport [⟨"in", some "a"⟩] "m"]
  have ha : IsIdentifier "a" := hnames _ .full himports _ List.mem_cons_self "a" List.mem_cons_self
  refine ⟨himports, ha, fun h => ?_⟩
  have hplain := (hbasic.1 h _ List.mem_cons_self).2 _ List.mem_cons_self
  exact absurd hplain (by simp)

end SourceText

end ModuleImports
