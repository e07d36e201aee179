import Mathlib.Data.Nat.SuccPred
import ModuleImports.Proofs.Lexeme.NumeralForm

/-!
# Proofs/Lexeme/LongestNumeral — the longest numeral at the front of a text

A text that starts with a digit, or with a minus and a digit, has a longest numeral in front
(`Numeral.exists_longestIn`).  Reading gives it, unless the text goes on as only a longer numeral
could: with a digit after a zero, with a point, or with the mark of an exponent.
`Numeral.Outcome` lists the ways, each with what reading gives, and `Numeral.LongestIn.outcome` says
that these are all.
-/

namespace ModuleImports.Numeral

/-- **The longest numeral that a text starts with.** -/
structure LongestIn (n : Numeral) (cs : List Char) : Prop where
  wellFormed : n.WellFormed
  front : n.spelling <+: cs
  longest : ∀ m : Numeral, m.WellFormed → m.spelling <+: cs →
    m.spelling.length ≤ n.spelling.length

/-- **What reading gives** where a text goes on in some way behind its longest numeral. -/
inductive Outcome (n : Numeral) : List Char → Except Misread Numeral → Prop
  | ends {rest : List Char} : n.EndsBefore rest → Outcome n rest (.ok n)
  | zero {d : Char} {rest : List Char} : n.whole = ['0'] → n.fraction = none → n.exponent = none →
      d.isDigit = true → Outcome n (d :: rest)
        (.error (.of .leadingZero [] ⟨n.spelling.length - 1, 2⟩ n.spelling.length))
  | point {rest : List Char} : n.fraction = none → n.exponent = none → Stops Char.isDigit rest →
      Outcome n ('.' :: rest)
        (.error (.of .digitExpected [] ⟨n.spelling.length + 1, 1⟩ (n.spelling.length + 1)))
  | mark {c : Char} {cs rest : List Char} {sign : Option Char} : n.exponent = none →
      isExponentMark c = true → readSign cs = (sign, rest) → Stops Char.isDigit rest →
      Outcome n (c :: cs)
        (.error (.of .digitExpected [] ⟨n.spelling.length + 1 + sign.toList.length, 1⟩
          (n.spelling.length + 1 + sign.toList.length)))

variable {n m : Numeral} {cs ds extra rest : List Char} {c d : Char}

/-! ## Longer numerals -/

theorem digits_append_singleton (hds : Digits ds) (hd : d.isDigit = true) : Digits (ds ++ [d]) :=
  ⟨by simp, List.forall_mem_append.2 ⟨hds.2, List.forall_mem_singleton.2 hd⟩⟩

theorem digits_singleton (hd : d.isDigit = true) : Digits [d] :=
  ⟨List.cons_ne_nil _ _, List.forall_mem_singleton.2 hd⟩

/-- No numeral goes on where the longest one ends. -/
theorem LongestIn.eq_nil (h : n.LongestIn (n.spelling ++ rest)) (hm : m.WellFormed)
    (hspelling : m.spelling = n.spelling ++ extra) (hextra : extra <+: rest) : extra = [] := by
  have hle := h.longest m hm (hspelling ▸ (List.prefix_append_right_inj _).2 hextra)
  rw [hspelling, List.length_append] at hle
  exact List.eq_nil_of_length_eq_zero (by omega)

/-- A digit goes on with a numeral, unless that is zero. -/
theorem exists_spelling_append_digit (hn : n.WellFormed) (hd : d.isDigit = true) :
    (∃ m : Numeral, m.WellFormed ∧ m.spelling = n.spelling ++ [d]) ∨
      n.whole = ['0'] ∧ n.fraction = none ∧ n.exponent = none := by
  obtain ⟨negative, whole, fraction, exponent⟩ := n
  obtain ⟨hwhole, hleading, hfraction, hexponent⟩ := hn
  rcases exponent with _ | ⟨mark, sign, ds⟩
  · rcases fraction with _ | ds
    · by_cases hzero : whole = ['0']
      · exact .inr ⟨hzero, rfl, rfl⟩
      · refine .inl ⟨⟨negative, whole ++ [d], none, none⟩, ⟨digits_append_singleton hwhole hd,
          fun hhead => ?_, hfraction, hexponent⟩, by simp [spelling]⟩
        obtain ⟨d', ds, rfl⟩ := List.exists_cons_of_ne_nil hwhole.1
        exact absurd (hleading hhead) hzero
    · refine .inl ⟨⟨negative, whole, some (ds ++ [d]), none⟩, ⟨hwhole, hleading, ?_, hexponent⟩,
        by simp [spelling]⟩
      rintro _ ⟨⟩
      exact digits_append_singleton (hfraction ds rfl) hd
  · refine .inl ⟨⟨negative, whole, fraction, some ⟨mark, sign, ds ++ [d]⟩⟩,
      ⟨hwhole, hleading, hfraction, ?_⟩, by simp [spelling, Exponent.spelling]⟩
    rintro _ ⟨⟩
    obtain ⟨hmark, hsign, hds⟩ := hexponent _ rfl
    exact ⟨hmark, hsign, digits_append_singleton hds hd⟩

/-- A point and a digit go on with a whole numeral. -/
theorem exists_spelling_append_point (hn : n.WellFormed) (hf : n.fraction = none)
    (he : n.exponent = none) (hd : d.isDigit = true) :
    ∃ m : Numeral, m.WellFormed ∧ m.spelling = n.spelling ++ ['.', d] := by
  obtain ⟨negative, whole, fraction, exponent⟩ := n
  obtain rfl : fraction = none := hf
  obtain rfl : exponent = none := he
  refine ⟨⟨negative, whole, some [d], none⟩, ⟨hn.whole, hn.leading, ?_, hn.exponent⟩,
    by simp [spelling]⟩
  rintro _ ⟨⟩
  exact digits_singleton hd

/-- A mark, maybe a sign, and a digit go on with a numeral without an exponent. -/
theorem exists_spelling_append_mark {sign : Option Char} (hn : n.WellFormed)
    (he : n.exponent = none) (hc : isExponentMark c = true)
    (hsign : ∀ s ∈ sign, s = '+' ∨ s = '-') (hd : d.isDigit = true) :
    ∃ m : Numeral, m.WellFormed ∧ m.spelling = n.spelling ++ c :: (sign.toList ++ [d]) := by
  obtain ⟨negative, whole, fraction, exponent⟩ := n
  obtain rfl : exponent = none := he
  refine ⟨⟨negative, whole, fraction, some ⟨c, sign, [d]⟩⟩, ⟨hn.whole, hn.leading, hn.fraction, ?_⟩,
    by simp [spelling, Exponent.spelling]⟩
  rintro _ ⟨⟩
  exact ⟨hc, hsign, digits_singleton hd⟩

/-! ## Reading in front of what goes on -/

/-- The place where the sign of a numeral ends. -/
def signLength (n : Numeral) : Nat := if n.negative then 1 else 0

theorem read_append (hn : n.WellFormed) (rest : List Char) : read (n.spelling ++ rest) =
    readUnsigned n.negative n.signLength (n.whole ++ (n.fraction.elim [] ('.' :: ·) ++
      (n.exponent.elim [] Exponent.spelling ++ rest))) := by
  rw [spelling_eq, signLength]
  rcases n.negative
  · obtain ⟨d, ds, hd⟩ := List.exists_cons_of_ne_nil hn.whole.1
    have hdigit : d.isDigit = true := hn.whole.2 d (hd ▸ List.mem_cons_self)
    rw [hd, if_neg Bool.false_ne_true, List.nil_append, List.cons_append, read.eq_def]
    split
    · next heq => exact absurd ((List.cons.inj heq).1 ▸ hdigit) (by decide)
    · rfl
  · rfl

theorem length_spelling (n : Numeral) : n.spelling.length = n.signLength + n.whole.length +
    n.fraction.elim 0 (·.length + 1) + (n.exponent.elim [] Exponent.spelling).length := by
  rw [spelling, signLength]
  rcases n.negative <;> rcases n.fraction with _ | ds <;> simp <;> omega

theorem not_stops_digits_append (hds : Digits ds) (rest : List Char) :
    ¬Stops Char.isDigit (ds ++ rest) := by
  obtain ⟨d, ds, rfl⟩ := List.exists_cons_of_ne_nil hds.1
  simpa using hds.2 d List.mem_cons_self

theorem readDigits_of_stops {place : Nat} (h : Stops Char.isDigit cs) :
    readDigits place cs = .error (.of .digitExpected [] ⟨place, 1⟩ place) := by
  rw [readDigits, if_neg fun hhead => head?_any_iff.1 hhead h]

theorem WellFormed.readWhole_append {place : Nat} (hn : n.WellFormed)
    (hrest : Stops Char.isDigit rest) :
    readWhole place (n.whole ++ rest) = .ok (n.whole, rest) :=
  (readWhole_eq_ok_iff (not_stops_digits_append hn.whole rest)).2
    ⟨hn.whole, hn.leading, rfl, hrest⟩

/-- A zero in front of a digit is an error. -/
theorem read_zero_append (hn : n.WellFormed) (hwhole : n.whole = ['0']) (hf : n.fraction = none)
    (he : n.exponent = none) (hd : d.isDigit = true) (rest : List Char) :
    read (n.spelling ++ d :: rest) =
      .error (.of .leadingZero [] ⟨n.spelling.length - 1, 2⟩ n.spelling.length) := by
  have hlen : n.spelling.length = n.signLength + 1 := by
    simp [length_spelling, hwhole, hf, he]
  have hread : readWhole n.signLength ('0' :: d :: rest) =
      .error (.of .leadingZero [] ⟨n.signLength, 2⟩ (n.signLength + 1)) := by
    simp [readWhole, hd]
  rw [read_append hn, hwhole, hf, he, hlen, Nat.add_sub_cancel]
  simp only [Option.elim_none, List.nil_append, List.singleton_append, readUnsigned, hread, bind,
    Except.bind]

/-- A point without a digit is an error. -/
theorem read_point_append (hn : n.WellFormed) (hf : n.fraction = none) (he : n.exponent = none)
    (hrest : Stops Char.isDigit rest) : read (n.spelling ++ '.' :: rest) =
      .error (.of .digitExpected [] ⟨n.spelling.length + 1, 1⟩ (n.spelling.length + 1)) := by
  have hlen : n.spelling.length = n.signLength + n.whole.length := by
    simp [length_spelling, hf, he]
  have hwhole : readWhole n.signLength (n.whole ++ '.' :: rest) = .ok (n.whole, '.' :: rest) :=
    hn.readWhole_append (stops_cons.2 (by decide))
  have hfraction : ∀ place, readFraction place ('.' :: rest) =
      .error (.of .digitExpected [] ⟨place + 1, 1⟩ (place + 1)) := fun place => by
    rw [readFraction, readDigits_of_stops hrest]
    rfl
  rw [read_append hn, hf, he, hlen]
  simp only [Option.elim_none, List.nil_append, readUnsigned, hwhole, hfraction, bind, Except.bind]

/-- The mark of an exponent without a digit is an error. -/
theorem read_mark_append {sign : Option Char} (hn : n.WellFormed) (he : n.exponent = none)
    (hc : isExponentMark c = true) (hsign : readSign cs = (sign, rest))
    (hrest : Stops Char.isDigit rest) : read (n.spelling ++ c :: cs) =
      .error (.of .digitExpected [] ⟨n.spelling.length + 1 + sign.toList.length, 1⟩
        (n.spelling.length + 1 + sign.toList.length)) := by
  have hlen : n.spelling.length =
      n.signLength + n.whole.length + n.fraction.elim 0 (·.length + 1) := by
    simp [length_spelling, he]
  have hmark : c = 'e' ∨ c = 'E' := by simpa [isExponentMark] using hc
  have hdigit : Stops Char.isDigit (c :: cs) := by rcases hmark with rfl | rfl <;> simp
  have hpoint : Stops (· == '.') (c :: cs) := by rcases hmark with rfl | rfl <;> simp
  have hwhole : readWhole n.signLength (n.whole ++ (n.fraction.elim [] ('.' :: ·) ++ c :: cs)) =
      .ok (n.whole, n.fraction.elim [] ('.' :: ·) ++ c :: cs) := by
    refine hn.readWhole_append ?_
    rcases n.fraction with _ | ds
    · exact hdigit
    · exact stops_cons.2 (by decide)
  have hfraction : ∀ place, readFraction place (n.fraction.elim [] ('.' :: ·) ++ c :: cs) =
      .ok (n.fraction, c :: cs) := fun place => by
    refine readFraction_eq_ok_iff.2 ?_
    rcases hf : n.fraction with _ | ds
    · exact .inl ⟨rfl, rfl, hpoint⟩
    · exact .inr ⟨ds, rfl, hn.fraction ds hf, rfl, hdigit⟩
  have hexponent : ∀ place, readExponent place (c :: cs) =
      .error (.of .digitExpected [] ⟨place + 1 + sign.toList.length, 1⟩
        (place + 1 + sign.toList.length)) := fun place => by
    rw [readExponent, if_pos hmark, hsign]
    simp only [readDigits_of_stops hrest]
    rfl
  rw [read_append hn, he, hlen]
  simp only [Option.elim_none, List.nil_append, readUnsigned, hwhole, hfraction, hexponent, bind,
    Except.bind]

/-! ## The longest numeral -/

theorem WellFormed.spelling_ne_nil (hn : n.WellFormed) : n.spelling ≠ [] := by
  simp [spelling, hn.whole.1]

theorem read_append_of_endsBefore (hn : n.WellFormed) (hend : n.EndsBefore rest) :
    read (n.spelling ++ rest) = .ok n := by
  obtain ⟨c, cs, hcs⟩ :=
    List.exists_cons_of_ne_nil (List.append_ne_nil_of_left_ne_nil hn.spelling_ne_nil rest)
  rw [hcs]
  exact (read_eq_ok_iff (hn.start hcs)).2 ⟨hn, rest, hcs.symm, hend⟩

theorem WellFormed.read_spelling (hn : n.WellFormed) : read n.spelling = .ok n := by
  have hend : n.EndsBefore [] := ⟨stops_nil, fun _ => stops_nil, fun _ _ => stops_nil⟩
  simpa using read_append_of_endsBefore hn hend

/-- Only zero is followed by a digit. -/
theorem LongestIn.zero_of_digit (h : n.LongestIn (n.spelling ++ d :: rest))
    (hd : d.isDigit = true) : n.whole = ['0'] ∧ n.fraction = none ∧ n.exponent = none := by
  rcases exists_spelling_append_digit h.wellFormed hd with ⟨m, hm, hspelling⟩ | hzero
  · simpa using h.eq_nil hm hspelling ⟨rest, rfl⟩
  · exact hzero

/-- No digit follows a point that is no part of the longest numeral. -/
theorem LongestIn.stops_of_point (h : n.LongestIn (n.spelling ++ '.' :: rest))
    (hf : n.fraction = none) (he : n.exponent = none) : Stops Char.isDigit rest := by
  intro d hd
  obtain ⟨tail, rfl⟩ := List.head?_eq_some_iff.1 hd
  by_contra hdigit
  obtain ⟨m, hm, hspelling⟩ :=
    exists_spelling_append_point h.wellFormed hf he (Bool.not_eq_false _ ▸ hdigit)
  simpa using h.eq_nil hm hspelling ⟨tail, rfl⟩

/-- No digit follows the mark of an exponent that is no part of the longest numeral, nor the sign
behind the mark. -/
theorem LongestIn.stops_of_mark {sign : Option Char} (h : n.LongestIn (n.spelling ++ c :: cs))
    (he : n.exponent = none) (hc : isExponentMark c = true) (hsign : readSign cs = (sign, rest)) :
    Stops Char.isDigit rest := by
  obtain ⟨rfl, hsigns⟩ := append_of_readSign hsign
  intro d hd
  obtain ⟨tail, rfl⟩ := List.head?_eq_some_iff.1 hd
  by_contra hdigit
  obtain ⟨m, hm, hspelling⟩ := exists_spelling_append_mark h.wellFormed he hc hsigns
    (Bool.not_eq_false _ ▸ hdigit)
  simpa using h.eq_nil hm hspelling ⟨tail, by simp⟩

/-- **Reading in front of what goes on behind the longest numeral** has one of the outcomes. -/
theorem LongestIn.outcome (h : n.LongestIn (n.spelling ++ rest)) :
    n.Outcome rest (read (n.spelling ++ rest)) := by
  have hn := h.wellFormed
  have hends : n.EndsBefore rest → n.Outcome rest (read (n.spelling ++ rest)) := fun hend => by
    rw [read_append_of_endsBefore hn hend]
    exact .ends hend
  rcases rest with _ | ⟨d, rest⟩
  · exact hends ⟨stops_nil, fun _ => stops_nil, fun _ _ => stops_nil⟩
  rcases hdigit : d.isDigit
  · by_cases he : n.exponent = none
    · rcases hmark : isExponentMark d
      · by_cases hpoint : d = '.' ∧ n.fraction = none
        · obtain ⟨rfl, hf⟩ := hpoint
          have hstop := h.stops_of_point hf he
          rw [read_point_append hn hf he hstop]
          exact .point hf he hstop
        · refine hends ⟨stops_cons.2 hdigit, fun _ => stops_cons.2 hmark, fun _ hf => ?_⟩
          exact stops_cons.2 (beq_eq_false_iff_ne.2 fun hd => hpoint ⟨hd, hf⟩)
      · rcases hsign : readSign rest with ⟨sign, after⟩
        have hstop := h.stops_of_mark he hmark hsign
        rw [read_mark_append hn he hmark hsign hstop]
        exact .mark he hmark hsign hstop
    · exact hends ⟨stops_cons.2 hdigit, fun h => absurd h he, fun h => absurd h he⟩
  · obtain ⟨hwhole, hf, he⟩ := h.zero_of_digit hdigit
    rw [read_zero_append hn hwhole hf he hdigit]
    exact .zero hwhole hf he hdigit

/-- There is one longest numeral at most. -/
theorem LongestIn.eq (h : n.LongestIn cs) (h' : m.LongestIn cs) : m = n := by
  have hlen := le_antisymm (h.longest m h'.wellFormed h'.front) (h'.longest n h.wellFormed h.front)
  have hspelling : m.spelling = n.spelling :=
    (List.prefix_of_prefix_length_le h'.front h.front hlen.le).eq_of_length hlen
  have hsame := h'.wellFormed.read_spelling.symm.trans (hspelling ▸ h.wellFormed.read_spelling)
  exact Except.ok.inj hsame

/-- A text that starts with a digit, or with a minus before one, has a longest numeral in front. -/
theorem exists_longestIn (hc : c = '-' ∧ ¬Stops Char.isDigit cs ∨ c.isDigit = true) :
    ∃ n : Numeral, n.LongestIn (c :: cs) := by
  have hone : ∀ {negative : Bool} {d : Char}, d.isDigit = true →
      (⟨negative, [d], none, none⟩ : Numeral).WellFormed := fun {negative d} hd =>
    ⟨digits_singleton hd, fun hhead => by rw [Option.some.inj hhead], nofun, nofun⟩
  obtain ⟨n, hn, hfront⟩ : ∃ n : Numeral, n.WellFormed ∧ n.spelling <+: c :: cs := by
    rcases hc with ⟨rfl, hdigit⟩ | hdigit
    · rcases cs with _ | ⟨d, cs⟩
      · exact absurd stops_nil hdigit
      · exact ⟨⟨true, [d], none, none⟩, hone (by simpa using hdigit), cs, rfl⟩
    · exact ⟨⟨false, [c], none, none⟩, hone hdigit, cs, rfl⟩
  obtain ⟨k, ⟨m, hm, hmfront, rfl⟩, hgreatest⟩ := BddAbove.exists_isGreatest_of_nonempty
    (S := {k | ∃ n : Numeral, n.WellFormed ∧ n.spelling <+: c :: cs ∧ n.spelling.length = k})
    ⟨(c :: cs).length, by rintro _ ⟨m, -, hm, rfl⟩; exact hm.length_le⟩ ⟨_, n, hn, hfront, rfl⟩
  exact ⟨m, hm, hmfront, fun m' hm' hfront' => hgreatest ⟨m', hm', hfront', rfl⟩⟩

end ModuleImports.Numeral
