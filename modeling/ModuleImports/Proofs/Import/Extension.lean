import ModuleImports.Proofs.Import.Grammar

/-!
# Proofs/Import/Extension — the full grammar extends the basic one

The full grammar has more forms than the basic one, and some of them start alike: after a binding it
looks for a comma, after a name for `as`, after a comma for a brace.  None of that takes anything
away: every form of a grammar is a form of the full one with the same records
(`ImportGrammar.Program.full`), so what the basic grammar accepts keeps its meaning
(`SourceText.imports_full_of_basic`).
-/

namespace ModuleImports

open Terminal

namespace ImportGrammar

variable {g : ImportGrammar} {w : List Terminal} {e : ImportSpecifier} {es : List ImportSpecifier}
  {R : List ImportRecord}

/-! ## Form by form -/

theorem Entry.full (h : g.Entry w e) : Entry .full w e := by
  rcases h with name | ⟨name, localName, _⟩ | ⟨localName, _, hname⟩
  · exact .plain name
  · exact .renamed name localName rfl
  · exact .reserved localName rfl hname

theorem NamedList.full (h : g.NamedList w es) : NamedList .full w es := by
  rcases h with hws | ⟨_, hne, hws⟩
  · exact .plain (hws.imp fun _ _ he => he.full)
  · exact .trailingComma rfl hne (hws.imp fun _ _ he => he.full)

theorem Declaration.full (h : g.Declaration w R) : Declaration .full w R := by
  rcases h with ⟨b, s⟩ | ⟨s, hlist⟩ | ⟨b, s⟩ | ⟨s, _⟩ | ⟨b, s, _, hlist⟩ | ⟨b, b', s, _⟩
  · exact .binding b s
  · exact .list s hlist.full
  · exact .everything b s
  · exact .sideEffect s rfl
  · exact .bindingAndList b s rfl hlist.full
  · exact .bindingAndEverything b b' s rfl

theorem Item.full (h : g.Item w R) : Item .full w R := by
  rcases h with hx | hdecl | ⟨_, hcont⟩
  · exact .other hx
  · exact .declaration hdecl.full
  · exact .expression rfl hcont

/-- **Every program is one of the full grammar**, with the same records. -/
theorem Program.full (h : g.Program w R) : Program .full w R := by
  obtain ⟨ws, Rs, hitems, hw, hR⟩ := h
  exact ⟨ws, Rs, hitems.imp fun _ _ hitem => hitem.full, hw, hR⟩

end ImportGrammar

/-! ## Texts -/

namespace SourceText

/-- **What the basic grammar accepts keeps its meaning** in the full one. -/
theorem imports_full_of_basic (source : SourceText) (skip : Bool) (R : List ImportRecord)
    (h : source.imports ⟨.basic, skip⟩ = .ok R) : source.imports ⟨.full, skip⟩ = .ok R := by
  obtain ⟨hfailure, hprogram⟩ := (source.imports_eq_ok_iff_terminals _ _).1 h
  exact (source.imports_eq_ok_iff_terminals _ _).2 ⟨hfailure, hprogram.full⟩

/-- The words `as` and `from` stay names where the full grammar could take them for more. -/
theorem imports_full_of_contextual_names :
    (ofString r"import from from 'a'; import {as, from} from 'b'").imports ⟨.basic, false⟩ =
      .ok [.defaultImport "from" "a", .namedImport [⟨"as", none⟩, ⟨"from", none⟩] "b"] ∧
    (ofString r"import from from 'a'; import {as, from} from 'b'").imports ⟨.full, false⟩ =
      .ok [.defaultImport "from" "a", .namedImport [⟨"as", none⟩, ⟨"from", none⟩] "b"] := by
  have hbasic : (ofString r"import from from 'a'; import {as, from} from 'b'").imports
      ⟨.basic, false⟩ =
      .ok [.defaultImport "from" "a", .namedImport [⟨"as", none⟩, ⟨"from", none⟩] "b"] := by
    decide +kernel
  exact ⟨hbasic, imports_full_of_basic _ false _ hbasic⟩

end SourceText

end ModuleImports
