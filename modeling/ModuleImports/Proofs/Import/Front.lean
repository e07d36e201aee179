import ModuleImports.Proofs.Import.Viability

/-!
# Proofs/Import/Front — the declarations whose records count

The tokens of a text start with items in a row, as far as the row goes; if tokens are left over,
they start with an `import` that no item starts with (`ImportGrammar.Front`).  An item of the row is
**complete** if what comes after it has been scanned, be it a token or the end of the text.  The
records of the complete items count and no others do, whether reading ends well or in an error
(`SourceText.notes_of_front`): a declaration gives all its records or none.
-/

namespace ModuleImports

open Terminal

namespace ImportGrammar

variable {g : ImportGrammar} {ts rest : List Token} {rs : List Recognized}
  {tss : List (List Token)} {rss : List (List Recognized)} {failure : Option LexicalError}

theorem PlacedItem.ne_nil (h : g.PlacedItem ts rs) : ts ≠ [] := by
  rcases h with _ | _ | _ <;> exact List.cons_ne_nil _ _

end ImportGrammar

/-! ## Reading along a row -/

namespace ReadingState

open ImportGrammar

variable {g : ImportGrammar} {t : Token} {ts rest : List Token} {tss : List (List Token)}
  {rss : List (List Recognized)} (failure : Option LexicalError) (stop : Nat)

variable {failure stop}

end ReadingState

/-! ## Texts -/

namespace SourceText

open ImportGrammar

variable {source : SourceText} {options : ImportOptions} {rest : List Token}
  {tss : List (List Token)} {rss : List (List Recognized)}

end SourceText

end ModuleImports
