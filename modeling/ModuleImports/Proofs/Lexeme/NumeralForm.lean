import ModuleImports.Lexeme.Numeral
import ModuleImports.Proofs.Text.Run

/-!
# Proofs/Lexeme/NumeralForm — numerals as they may be written

A numeral is well formed if each of its parts is: a whole part that starts with no needless zero, a
fraction and an exponent that have digits.  `Numeral.read_eq_ok_iff` says that reading finds just
the well-formed numeral that the text starts with and that cannot be longer there.  Every one of
them is a decimal (`Numeral.WellFormed.ofDecimal?_spelling`), so it always has a number.
-/

namespace ModuleImports

/-- Some decimal digits, at least one. -/
def Digits (ds : List Char) : Prop := ds ≠ [] ∧ ∀ d ∈ ds, d.isDigit = true

/-- Whether a character announces an exponent. -/
def isExponentMark (c : Char) : Bool := c == 'e' || c == 'E'

/-- Parts that an exponent may have. -/
structure Exponent.WellFormed (e : Exponent) : Prop where
  mark : isExponentMark e.mark = true
  sign : ∀ s ∈ e.sign, s = '+' ∨ s = '-'
  digits : Digits e.digits

theorem Except.map_eq_ok_iff {ε α β : Type} {f : α → β} {x : Except ε α} {b : β} :
    x.map f = .ok b ↔ ∃ a, x = .ok a ∧ f a = b := by
  rcases x with e | a <;> simp [Except.map]

theorem Except.bind_eq_ok_iff {ε α β : Type} {f : α → Except ε β} {x : Except ε α} {b : β} :
    x.bind f = .ok b ↔ ∃ a, x = .ok a ∧ f a = .ok b := by
  rcases x with e | a <;> simp [Except.bind]

namespace Numeral

/-- Parts that a numeral may have. -/
structure WellFormed (n : Numeral) : Prop where
  whole : Digits n.whole
  leading : n.whole.head? = some '0' → n.whole = ['0']
  fraction : ∀ ds ∈ n.fraction, Digits ds
  exponent : ∀ e ∈ n.exponent, e.WellFormed

/-- A rest that the numeral cannot go on with. -/
structure EndsBefore (n : Numeral) (rest : List Char) : Prop where
  digit : Stops Char.isDigit rest
  exponent : n.exponent = none → Stops isExponentMark rest
  fraction : n.exponent = none → n.fraction = none → Stops (· == '.') rest

variable {cs ds rest : List Char} {place : Nat} {n : Numeral}

/-! ## Part by part -/

theorem head?_any_iff {p : Char → Bool} : (cs.head?).any p = true ↔ ¬Stops p cs := by
  rcases cs with _ | ⟨c, cs⟩ <;> simp

theorem readDigits_eq_ok_iff : readDigits place cs = .ok (ds, rest) ↔
    Digits ds ∧ cs = ds ++ rest ∧ Stops Char.isDigit rest := by
  constructor
  · intro h
    rw [readDigits] at h
    split at h
    · next hhead =>
      obtain ⟨run, after, rfl, hrun, hafter, htake, hdrop⟩ := exists_run Char.isDigit cs
      rw [htake, hdrop] at h
      obtain ⟨rfl, rfl⟩ := Prod.mk.inj (Except.ok.inj h)
      refine ⟨⟨?_, hrun⟩, rfl, hafter⟩
      rintro rfl
      exact head?_any_iff.1 hhead hafter
    · simp at h
  · rintro ⟨⟨hne, hds⟩, rfl, hrest⟩
    have hhead : ((ds ++ rest).head?).any Char.isDigit = true := by
      rcases ds with _ | ⟨d, ds⟩
      · exact absurd rfl hne
      · simpa using hds d List.mem_cons_self
    rw [readDigits, if_pos hhead, takeWhile_append_of_stops hds hrest,
      dropWhile_append_of_stops hds hrest]

theorem readWhole_eq_ok_iff (hcs : ¬Stops Char.isDigit cs) : readWhole place cs = .ok (ds, rest) ↔
    Digits ds ∧ (ds.head? = some '0' → ds = ['0']) ∧ cs = ds ++ rest ∧
      Stops Char.isDigit rest := by
  constructor
  · intro h
    unfold readWhole at h
    split at h
    · split at h
      · simp at h
      · next hhead =>
        obtain ⟨rfl, rfl⟩ := Prod.mk.inj (Except.ok.inj h)
        refine ⟨⟨by simp, List.forall_mem_singleton.2 rfl⟩, fun _ => rfl, rfl, ?_⟩
        rwa [head?_any_iff, not_not] at hhead
    · next hzero =>
      obtain ⟨run, after, rfl, hrun, hafter, htake, hdrop⟩ := exists_run Char.isDigit cs
      rw [htake, hdrop] at h
      obtain ⟨rfl, rfl⟩ := Prod.mk.inj (Except.ok.inj h)
      refine ⟨⟨?_, hrun⟩, fun hhead => ?_, rfl, hafter⟩
      · rintro rfl
        exact hcs hafter
      · obtain ⟨tail, rfl⟩ := List.head?_eq_some_iff.1 hhead
        exact absurd rfl (hzero (tail ++ after))
  · rintro ⟨⟨hne, hds⟩, hleading, rfl, hrest⟩
    obtain ⟨d, ds, rfl⟩ := List.exists_cons_of_ne_nil hne
    unfold readWhole
    split
    · next tail heq =>
      obtain ⟨rfl, rfl⟩ := List.cons.inj heq
      obtain rfl := (List.cons.inj (hleading rfl)).2
      rw [if_neg]
      · rfl
      · rwa [head?_any_iff, not_not]
    · rw [takeWhile_append_of_stops hds hrest, dropWhile_append_of_stops hds hrest]

theorem readFraction_eq_ok_iff {fraction : Option (List Char)} :
    readFraction place cs = .ok (fraction, rest) ↔
      (fraction = none ∧ cs = rest ∧ Stops (· == '.') rest) ∨
      ∃ ds, fraction = some ds ∧ Digits ds ∧ cs = '.' :: (ds ++ rest) ∧
        Stops Char.isDigit rest := by
  constructor
  · intro h
    rw [readFraction.eq_def] at h
    split at h
    · obtain ⟨⟨ds, after⟩, hread, heq⟩ := Except.map_eq_ok_iff.1 h
      obtain ⟨rfl, rfl⟩ := Prod.mk.inj heq
      obtain ⟨hds, rfl, hrest⟩ := readDigits_eq_ok_iff.1 hread
      exact .inr ⟨ds, rfl, hds, rfl, hrest⟩
    · next hdot =>
      obtain ⟨rfl, rfl⟩ := Prod.mk.inj (Except.ok.inj h)
      refine .inl ⟨rfl, rfl, fun c hc => ?_⟩
      obtain ⟨tail, rfl⟩ := List.head?_eq_some_iff.1 hc
      exact beq_eq_false_iff_ne.2 fun hc => hdot tail (by rw [hc])
  · rintro (⟨rfl, rfl, hdot⟩ | ⟨ds, rfl, hds, rfl, hrest⟩)
    · rw [readFraction.eq_def]
      split
      · simp at hdot
      · rfl
    · rw [readFraction, readDigits_eq_ok_iff.2 ⟨hds, rfl, hrest⟩]
      rfl

/-- A sign is taken off in front of digits, and what has no sign in front starts with them. -/
theorem readSign_eq {sign : Option Char} (hsign : ∀ s ∈ sign, s = '+' ∨ s = '-')
    (hds : Digits ds) (rest : List Char) :
    readSign (sign.toList ++ (ds ++ rest)) = (sign, ds ++ rest) := by
  rcases sign with _ | s
  · obtain ⟨d, ds, rfl⟩ := List.exists_cons_of_ne_nil hds.1
    have hd := hds.2 d List.mem_cons_self
    have hplus : ¬(d = '+' ∨ d = '-') := by
      rintro (rfl | rfl) <;> revert hd <;> decide
    simp [readSign, hplus]
  · simp [readSign, hsign s rfl]

theorem append_of_readSign {sign : Option Char} (h : readSign cs = (sign, rest)) :
    cs = sign.toList ++ rest ∧ ∀ s ∈ sign, s = '+' ∨ s = '-' := by
  rcases cs with _ | ⟨c, cs⟩
  · obtain ⟨rfl, rfl⟩ := Prod.mk.inj h
    exact ⟨rfl, by simp⟩
  · rw [readSign] at h
    split at h
    · next hc =>
      obtain ⟨rfl, rfl⟩ := Prod.mk.inj h
      exact ⟨rfl, by simpa using hc⟩
    · obtain ⟨rfl, rfl⟩ := Prod.mk.inj h
      exact ⟨rfl, by simp⟩

theorem readExponent_eq_ok_iff {exponent : Option Exponent} :
    readExponent place cs = .ok exponent ↔ (exponent = none ∧ Stops isExponentMark cs) ∨
      ∃ e rest, exponent = some e ∧ e.WellFormed ∧ cs = e.spelling ++ rest ∧
        Stops Char.isDigit rest := by
  constructor
  · intro h
    rw [readExponent.eq_def] at h
    split at h
    · exact .inl ⟨(Except.ok.inj h).symm, stops_nil⟩
    · next c cs =>
      split at h
      · next hmark =>
        rcases hsign : readSign cs with ⟨sign, after⟩
        simp only [hsign] at h
        obtain ⟨rfl, hsigns⟩ := append_of_readSign hsign
        obtain ⟨⟨ds, rest⟩, hread, rfl⟩ := Except.map_eq_ok_iff.1 h
        obtain ⟨hds, rfl, hrest⟩ := readDigits_eq_ok_iff.1 hread
        refine .inr ⟨_, rest, rfl, ⟨by simpa [isExponentMark] using hmark, hsigns, hds⟩, ?_, hrest⟩
        simp [Exponent.spelling]
      · next hmark =>
        refine .inl ⟨(Except.ok.inj h).symm, ?_⟩
        simpa [isExponentMark] using hmark
  · rintro (⟨rfl, hcs⟩ | ⟨⟨mark, sign, ds⟩, rest, rfl, ⟨hmark, hsign, hds⟩, rfl, hrest⟩)
    · rcases cs with _ | ⟨c, cs⟩
      · rfl
      · have hmark : ¬(c = 'e' ∨ c = 'E') := by simpa [isExponentMark] using hcs
        rw [readExponent, if_neg hmark]
    · have hmark : mark = 'e' ∨ mark = 'E' := by simpa [isExponentMark] using hmark
      have hspelling : (⟨mark, sign, ds⟩ : Exponent).spelling ++ rest =
          mark :: (sign.toList ++ (ds ++ rest)) := by simp [Exponent.spelling]
      rw [hspelling, readExponent, if_pos hmark, readSign_eq hsign hds]
      simp only [readDigits_eq_ok_iff.2 ⟨hds, rfl, hrest⟩]
      rfl

/-! ## A whole numeral -/

/-- The parts of a numeral without its sign, written down. -/
theorem spelling_eq (n : Numeral) (rest : List Char) : n.spelling ++ rest =
    (if n.negative then ['-'] else []) ++ (n.whole ++ (n.fraction.elim [] ('.' :: ·) ++
      (n.exponent.elim [] Exponent.spelling ++ rest))) := by
  simp [spelling]

/-- An unsigned numeral is its three parts, each read where the one before it ends. -/
theorem readUnsigned_eq_ok_iff_parts {negative : Bool} : readUnsigned negative place cs = .ok n ↔
    n.negative = negative ∧ ∃ afterWhole afterFraction,
      readWhole place cs = .ok (n.whole, afterWhole) ∧
      readFraction (place + n.whole.length) afterWhole = .ok (n.fraction, afterFraction) ∧
      readExponent (place + n.whole.length + n.fraction.elim 0 (·.length + 1)) afterFraction =
        .ok n.exponent := by
  obtain ⟨negative', whole, fraction, exponent⟩ := n
  simp only [readUnsigned, bind, Except.bind, pure, Except.pure]
  rcases readWhole place cs with m | ⟨whole', afterWhole⟩
  · simp
  rcases hfraction : readFraction (place + whole'.length) afterWhole with m | ⟨fraction', after⟩
  · simp only [hfraction, Except.ok.injEq, Prod.mk.injEq]
    grind
  generalize place + whole'.length + fraction'.elim 0 (·.length + 1) = place' at *
  rcases hexponent : readExponent place' after with m | exponent'
  · grind
  · grind

theorem WellFormed.stops_exponent {p : Char → Bool} (h : n.WellFormed)
    (he : p 'e' = false) (hE : p 'E' = false) (hrest : n.exponent = none → Stops p rest) :
    Stops p (n.exponent.elim [] Exponent.spelling ++ rest) := by
  rcases hexp : n.exponent with _ | e
  · exact hrest hexp
  · have hmark : e.mark = 'e' ∨ e.mark = 'E' := by
      simpa [isExponentMark] using (h.exponent e hexp).mark
    rcases hmark with hmark | hmark <;> simpa [Exponent.spelling, hmark]

theorem readUnsigned_eq_ok_iff {negative : Bool} (hcs : ¬Stops Char.isDigit cs) :
    readUnsigned negative place cs = .ok n ↔ n.negative = negative ∧ n.WellFormed ∧
      ∃ rest, cs = n.whole ++ (n.fraction.elim [] ('.' :: ·) ++
        (n.exponent.elim [] Exponent.spelling ++ rest)) ∧ n.EndsBefore rest := by
  rw [readUnsigned_eq_ok_iff_parts]
  refine and_congr_right fun _ => ?_
  constructor
  · rintro ⟨afterWhole, afterFraction, hread, hfraction, hexponent⟩
    obtain ⟨hwhole, hleading, rfl, hafter⟩ := (readWhole_eq_ok_iff hcs).1 hread
    obtain ⟨hf, rfl, hdot, hdigit⟩ : (∀ ds ∈ n.fraction, Digits ds) ∧
        afterWhole = n.fraction.elim [] ('.' :: ·) ++ afterFraction ∧
        (n.fraction = none → Stops (· == '.') afterFraction) ∧
        Stops Char.isDigit afterFraction := by
      rcases readFraction_eq_ok_iff.1 hfraction with ⟨hnone, rfl, hdot⟩ |
        ⟨ds, hsome, hds, rfl, hrest⟩
      · simp [hnone, hdot, hafter]
      · simp [hsome, hds, hrest]
    rcases readExponent_eq_ok_iff.1 hexponent with ⟨hnone, hmark⟩ | ⟨e, rest, hsome, he, rfl, hrest⟩
    · exact ⟨⟨hwhole, hleading, hf, by simp [hnone]⟩, afterFraction, by simp [hnone],
        hdigit, fun _ => hmark, fun _ => hdot⟩
    · exact ⟨⟨hwhole, hleading, hf, by simpa [hsome] using he⟩, rest, by simp [hsome],
        hrest, by simp [hsome], by simp [hsome]⟩
  · rintro ⟨hn, rest, rfl, hend⟩
    have hdigit := hn.stops_exponent (by decide) (by decide) fun _ => hend.digit
    refine ⟨_, n.exponent.elim [] Exponent.spelling ++ rest, (readWhole_eq_ok_iff hcs).2
      ⟨hn.whole, hn.leading, rfl, ?_⟩, readFraction_eq_ok_iff.2 ?_, readExponent_eq_ok_iff.2 ?_⟩
    · rcases n.fraction with _ | ds
      · exact hdigit
      · simp
    · rcases hf : n.fraction with _ | ds
      · exact .inl ⟨rfl, rfl, hn.stops_exponent (by decide) (by decide) fun h => hend.fraction h hf⟩
      · exact .inr ⟨ds, rfl, hn.fraction ds hf, rfl, hdigit⟩
    · rcases he : n.exponent with _ | e
      · exact .inl ⟨rfl, hend.exponent he⟩
      · exact .inr ⟨e, rest, rfl, hn.exponent e he, rfl, hend.digit⟩

/-- What follows the minus of a numeral is the rest of its parts. -/
theorem minus_cons_eq_iff (hn : n.WellFormed) : '-' :: cs = n.spelling ++ rest ↔
    n.negative = true ∧ cs = n.whole ++ (n.fraction.elim [] ('.' :: ·) ++
      (n.exponent.elim [] Exponent.spelling ++ rest)) := by
  obtain ⟨d, ds, hd⟩ := List.exists_cons_of_ne_nil hn.whole.1
  have hne : d ≠ '-' := by
    rintro rfl
    exact absurd (hn.whole.2 '-' (hd ▸ List.mem_cons_self)) (by decide)
  rw [spelling_eq]
  rcases n.negative
  · simp [hd, hne.symm]
  · simp

/-- A numeral that starts otherwise has no minus. -/
theorem eq_spelling_iff (hminus : ∀ tail, cs ≠ '-' :: tail) : cs = n.spelling ++ rest ↔
    n.negative = false ∧ cs = n.whole ++ (n.fraction.elim [] ('.' :: ·) ++
      (n.exponent.elim [] Exponent.spelling ++ rest)) := by
  rw [spelling_eq]
  rcases n.negative
  · simp
  · simp [hminus]

/-- The first character of a numeral is a digit, or a minus before one. -/
theorem WellFormed.start {c : Char} (hn : n.WellFormed) (h : n.spelling ++ rest = c :: cs) :
    c = '-' ∧ ¬Stops Char.isDigit cs ∨ c.isDigit = true := by
  obtain ⟨d, ds, hd⟩ := List.exists_cons_of_ne_nil hn.whole.1
  have hdigit : d.isDigit = true := hn.whole.2 d (hd ▸ List.mem_cons_self)
  rw [spelling_eq, hd] at h
  rcases hneg : n.negative
  · rw [hneg] at h
    obtain ⟨rfl, -⟩ := List.cons.inj h
    exact .inr hdigit
  · rw [hneg] at h
    obtain ⟨rfl, rfl⟩ := List.cons.inj h
    exact .inl ⟨rfl, by simpa using hdigit⟩

/-- **A numeral is read just if the text starts with it** and it cannot be longer there. -/
theorem read_eq_ok_iff {c : Char} (hc : c = '-' ∧ ¬Stops Char.isDigit cs ∨ c.isDigit = true) :
    read (c :: cs) = .ok n ↔ n.WellFormed ∧
      ∃ rest, c :: cs = n.spelling ++ rest ∧ n.EndsBefore rest := by
  rw [read.eq_def]
  split
  · next heq =>
    obtain ⟨rfl, rfl⟩ := List.cons.inj heq
    have hcs : ¬Stops Char.isDigit cs := by
      rcases hc with ⟨-, hcs⟩ | hd
      · exact hcs
      · exact absurd hd (by decide)
    rw [readUnsigned_eq_ok_iff hcs, and_left_comm]
    refine and_congr_right fun hn => ?_
    simp only [minus_cons_eq_iff hn, and_assoc, exists_and_left]
  · next hminus =>
    have hd := hc.resolve_left fun h => hminus cs (by rw [h.1])
    rw [readUnsigned_eq_ok_iff (by simpa using hd), and_left_comm]
    simp only [eq_spelling_iff hminus, and_assoc, exists_and_left]

/-! ## The number of a numeral -/

/-- Digits have no sign in front. -/
theorem splitSign_digits (hds : Digits ds) (rest : List Char) :
    Binary64.splitSign (ds ++ rest) = (false, ds ++ rest) := by
  obtain ⟨d, ds, rfl⟩ := List.exists_cons_of_ne_nil hds.1
  have hd := hds.2 d List.mem_cons_self
  rw [List.cons_append, Binary64.splitSign.eq_def]
  split
  · next heq => exact absurd ((List.cons.inj heq).1 ▸ hd) (by decide)
  · next heq => exact absurd ((List.cons.inj heq).1 ▸ hd) (by decide)
  · rfl

theorem splitFraction_eq {fraction : Option (List Char)} (hf : ∀ ds ∈ fraction, Digits ds)
    (hdigit : Stops Char.isDigit rest) (hpoint : Stops (· == '.') rest) :
    Binary64.splitFraction (fraction.elim [] ('.' :: ·) ++ rest) = (fraction.getD [], rest) := by
  rcases fraction with _ | ds
  · rw [Option.elim_none, List.nil_append, Binary64.splitFraction.eq_def]
    split
    · simp at hpoint
    · rfl
  · have hds := (hf ds rfl).2
    simp only [Option.elim_some, List.cons_append, Binary64.splitFraction, Option.getD_some,
      takeWhile_append_of_stops hds hdigit, dropWhile_append_of_stops hds hdigit]

theorem exponent?_spelling {e : Exponent} (he : e.WellFormed) :
    Binary64.exponent? e.spelling = some e.value := by
  obtain ⟨mark, sign, ds⟩ := e
  obtain ⟨hmark, hsign, hds⟩ := he
  have hsplit : Binary64.splitSign (sign.toList ++ ds) = (sign == some '-', ds) := by
    rcases sign with _ | s
    · simpa using splitSign_digits hds []
    · rcases hsign s rfl with rfl | rfl <;> rfl
  have hmark : mark = 'e' ∨ mark = 'E' := by simpa [isExponentMark] using hmark
  have hdigits : (mark = 'e' ∨ mark = 'E') ∧ ds ≠ [] ∧ ds.all Char.isDigit = true :=
    ⟨hmark, hds.1, List.all_eq_true.2 hds.2⟩
  rw [Exponent.spelling, List.cons_append, Binary64.exponent?, hsplit]
  simp only [if_pos hdigits, Exponent.value, beq_iff_eq]

/-- **A well-formed numeral is a decimal**, and the number it stands for is what it is read as. -/
theorem WellFormed.ofDecimal?_spelling (hn : n.WellFormed) :
    Binary64.ofDecimal? n.spelling = some n.value := by
  have hsign : Binary64.splitSign n.spelling = (n.negative, n.whole ++
      (n.fraction.elim [] ('.' :: ·) ++ n.exponent.elim [] Exponent.spelling)) := by
    have hspelling := spelling_eq n []
    simp only [List.append_nil] at hspelling
    rw [hspelling]
    rcases n.negative
    · exact splitSign_digits hn.whole _
    · rfl
  have hexponent : Binary64.exponent? (n.exponent.elim [] Exponent.spelling) =
      some (n.exponent.elim 0 Exponent.value) := by
    rcases he : n.exponent with _ | e
    · rfl
    · exact exponent?_spelling (hn.exponent e he)
  have hstops : ∀ {p : Char → Bool}, p 'e' = false → p 'E' = false →
      Stops p (n.exponent.elim [] Exponent.spelling) := fun he hE => by
    simpa using hn.stops_exponent he hE fun _ => stops_nil
  have hdigit : Stops Char.isDigit (n.exponent.elim [] Exponent.spelling) :=
    hstops (by decide) (by decide)
  have hpoint : Stops (· == '.') (n.exponent.elim [] Exponent.spelling) :=
    hstops (by decide) (by decide)
  have hwhole : Stops Char.isDigit
      (n.fraction.elim [] ('.' :: ·) ++ n.exponent.elim [] Exponent.spelling) := by
    rcases n.fraction with _ | ds
    · exact hdigit
    · exact stops_cons.2 (by decide)
  rw [Binary64.ofDecimal?, hsign]
  simp only [takeWhile_append_of_stops hn.whole.2 hwhole,
    dropWhile_append_of_stops hn.whole.2 hwhole, splitFraction_eq hn.fraction hdigit hpoint,
    hn.whole.1, false_and, if_false, hexponent]
  rfl

end Numeral

end ModuleImports
