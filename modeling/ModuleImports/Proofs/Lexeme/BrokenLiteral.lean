import ModuleImports.Proofs.Lexeme.Spelling

/-!
# Proofs/Lexeme/BrokenLiteral — literals that break off

The spellings of a literal go on until its quote comes.  If they end before that, either the text is
over or a backslash comes that is no complete escape.  `Literal.Broken` lists the ways, each with
the error that it is.  These are all (`Literal.exists_broken_of_readFrom`), and the spellings in
front of the break are as many as there can be (`Literal.Content.length_le`).
-/

namespace ModuleImports

open Vocabulary CodePoint

/-! ## Escapes that are none -/

namespace Escape

/-- Some escape starts with a backslash and this character. -/
def Starts (c : Char) : Prop := ∃ w d, Spelling ('\\' :: c :: w) d

/-- What an escape by code turns out to be: a character, or no character after a number of
characters in some bounds. -/
def CodeWithin (least most : Nat) : Escape → Prop
  | decoded _ _ => True
  | malformed k => least ≤ k ∧ k ≤ most
  | unknown _ => False
  | cut => False

variable {cs w : List Char} {c d : Char} {k n : Nat}

theorem le_length_of_codeUnit_eq_error (h : codeUnit cs = .error k) : k ≤ cs.length := by
  simp only [codeUnit] at h
  split at h
  · simp at h
  · obtain rfl := Except.error.inj h
    exact (List.takeWhile_prefix _).length_le.trans (List.length_take_le' 4 cs)

theorem four_le_length_of_codeUnit_eq_ok (h : codeUnit cs = .ok n) : 4 ≤ cs.length := by
  obtain ⟨ds, rest, rfl, hlen, -⟩ := codeUnit_eq_ok_iff.1 h
  rw [List.length_append]
  omega

theorem codeWithin_readLow (high : Nat) (cs : List Char) :
    (readLow high cs).CodeWithin 6 (cs.length + 6) := by
  rw [readLow.eq_def]
  split
  · next cs =>
    rw [List.length_cons, List.length_cons]
    split
    · next k hunit =>
      have hle := le_length_of_codeUnit_eq_error hunit
      simp only [CodeWithin]
      omega
    · next low hunit =>
      have hle := four_le_length_of_codeUnit_eq_ok hunit
      have hbounds : (malformed 12).CodeWithin 6 (cs.length + 1 + 1 + 6) := by
        simp only [CodeWithin]
        omega
      split
      · split
        · trivial
        · exact hbounds
      · exact hbounds
  · exact ⟨le_rfl, Nat.le_add_left _ _⟩

theorem codeWithin_readBraced (opening : Nat) (cs : List Char) :
    (readBraced opening cs).CodeWithin opening (cs.length + opening) := by
  rw [readBraced]
  split
  · exact ⟨Nat.le_add_right _ _, (Nat.add_comm _ _).le⟩
  · next n hn =>
    obtain ⟨-, hclose⟩ := getElem?_of_beforeClose? hn
    have hlt := (List.getElem?_eq_some_iff.1 hclose).1
    split
    · trivial
    · simp only [CodeWithin]
      omega

theorem codeWithin_readCode (cs : List Char) : (readCode cs).CodeWithin 2 (cs.length + 2) := by
  have hweaken : ∀ {e : Escape} {least most : Nat}, 2 ≤ least → most ≤ cs.length + 2 →
      e.CodeWithin least most → e.CodeWithin 2 (cs.length + 2) := by
    intro e least most hleast hmost he
    cases e with
    | decoded c k => trivial
    | malformed k => exact ⟨hleast.trans he.1, he.2.trans hmost⟩
    | unknown c => exact he
    | cut => exact he
  rw [readCode.eq_def]
  split
  · next cs =>
    refine hweaken (by decide) ?_ (codeWithin_readBraced 3 cs)
    rw [List.length_cons]
  · split
    · next k hunit =>
      have hle := le_length_of_codeUnit_eq_error hunit
      exact ⟨Nat.le_add_right _ _, by omega⟩
    · next unit hunit =>
      have hle := four_le_length_of_codeUnit_eq_ok hunit
      split
      · refine hweaken (by decide) ?_ (codeWithin_readLow unit (cs.drop 4))
        rw [List.length_drop]
        omega
      · split
        · trivial
        · exact ⟨by decide, by omega⟩

theorem read_cons_of_ne (hu : c ≠ 'u') (hbrace : c ≠ '{') (cs : List Char) : read (c :: cs) =
    match short? c with
    | some d => .decoded d 2
    | none => .unknown c := by
  rw [read.eq_def]
  split
  · next heq => simp at heq
  · next heq => exact absurd (List.cons.inj heq).1 hu
  · next heq => exact absurd (List.cons.inj heq).1 hbrace
  · next heq =>
    obtain ⟨rfl, rfl⟩ := List.cons.inj heq
    rfl

/-- Where no escape is read after a character, none starts with it. -/
theorem not_starts_of_read (h : ∀ cs, read (c :: cs) = .unknown c) : ¬Starts c := by
  rintro ⟨w, d, hw⟩
  obtain ⟨v, hv, hread⟩ := hw.read_append
  obtain rfl := (List.cons.inj hv).2
  have hdecoded := hread []
  rw [List.cons_append, h] at hdecoded
  exact Escape.noConfusion hdecoded

/-- **What a backslash turns out to be** when a character follows: after `u` and an opening brace an
escape by code, after a character with an escape of its own that escape, after any other none. -/
theorem read_cons_cases (c : Char) (cs : List Char) :
    (c = 'u' ∨ c = '{') ∧ (read (c :: cs)).CodeWithin 2 (cs.length + 2) ∨
      (∃ d, read (c :: cs) = .decoded d 2) ∨ read (c :: cs) = .unknown c ∧ ¬Starts c := by
  by_cases hu : c = 'u'
  · subst hu
    exact .inl ⟨.inl rfl, codeWithin_readCode cs⟩
  by_cases hbrace : c = '{'
  · subst hbrace
    exact .inl ⟨.inr rfl, codeWithin_readBraced 2 cs⟩
  have hread := read_cons_of_ne hu hbrace
  rcases hshort : short? c with _ | d <;> simp only [hshort] at hread
  · exact .inr (.inr ⟨hread cs, not_starts_of_read hread⟩)
  · exact .inr (.inl ⟨d, hread cs⟩)

/-- A complete escape at the front of a text is read. -/
theorem Spelling.read_of_isPrefix (h : Spelling w c) (hw : w <+: '\\' :: cs) :
    read cs = .decoded c w.length := by
  obtain ⟨v, rfl, hread⟩ := h.read_append
  obtain ⟨rest, hrest⟩ := hw
  obtain rfl := (List.cons.inj hrest).2
  exact hread rest

end Escape

/-! ## Runs of spellings -/

namespace Literal

variable {quote c c' : Char} {cs body content body' content' rest w w' decoded : List Char}
  {m : Misread} {n : Nat}

theorem Spelling.ne_nil (h : Spelling quote w c) : w ≠ [] := by
  rcases h with ⟨hquote, hslash⟩ | hescape
  · exact List.cons_ne_nil _ _
  · obtain ⟨v, rfl, -⟩ := hescape.read_append
    exact List.cons_ne_nil _ _

/-- A spelling at the front of a text starts with a character for itself, or is an escape there. -/
theorem Spelling.of_isPrefix_cons (h : Spelling quote w c) (hw : w <+: d :: cs) :
    d ≠ quote ∧ d ≠ '\\' ∧ w = [d] ∨ d = '\\' ∧ Escape.read cs = .decoded c w.length := by
  rcases h with ⟨hquote, hslash⟩ | hescape
  · obtain rfl := (List.cons_prefix_cons.1 hw).1
    exact .inl ⟨hquote, hslash, rfl⟩
  · obtain ⟨v, rfl, -⟩ := hescape.read_append
    obtain rfl := (List.cons_prefix_cons.1 hw).1
    exact .inr ⟨rfl, hescape.read_of_isPrefix hw⟩

/-- Of two spellings at the front of one text neither is longer. -/
theorem Spelling.length_eq_of_isPrefix (h : Spelling quote w c) (h' : Spelling quote w' c')
    (hw : w <+: cs) (hw' : w' <+: cs) : w.length = w'.length := by
  rcases cs with _ | ⟨d, cs⟩
  · exact absurd (List.prefix_nil.1 hw) h.ne_nil
  rcases h.of_isPrefix_cons hw with ⟨-, hslash, rfl⟩ | ⟨rfl, hread⟩
  · rcases h'.of_isPrefix_cons hw' with ⟨-, -, rfl⟩ | ⟨rfl, -⟩
    · rfl
    · exact absurd rfl hslash
  · rcases h'.of_isPrefix_cons hw' with ⟨-, hslash, -⟩ | ⟨-, hread'⟩
    · exact absurd rfl hslash
    · exact (Escape.decoded.inj (hread.symm.trans hread')).2

/-- **What breaks a literal off** after `n` characters, and the error that it is. -/
inductive Broken (quote : Char) (n : Nat) : List Char → Misread → Prop
  | ended : Broken quote n [] (unterminated quote n)
  | cut : Broken quote n ['\\'] (unterminated quote (n + 1))
  | unknown {c : Char} {cs : List Char} : Escape.read (c :: cs) = .unknown c → ¬Escape.Starts c →
      Broken quote n ('\\' :: c :: cs) (.of .invalidEscape [c.toString] ⟨n, 2⟩ (n + 1))
  | malformed {c : Char} {cs : List Char} {k : Nat} : c = 'u' ∨ c = '{' →
      Escape.read (c :: cs) = .malformed k → 2 ≤ k → k ≤ cs.length + 2 →
      Broken quote n ('\\' :: c :: cs) (.of .invalidUnicodeEscape [] ⟨n, k⟩ (n + k))

/-- A backslash that is no complete escape breaks a literal off. -/
theorem broken_of_slash (quote : Char) (n : Nat) (cs : List Char) :
    match Escape.read cs with
    | .decoded _ _ => True
    | .unknown c => Broken quote n ('\\' :: cs) (.of .invalidEscape [c.toString] ⟨n, 2⟩ (n + 1))
    | .malformed k =>
      Broken quote n ('\\' :: cs) (.of .invalidUnicodeEscape [] ⟨n, k⟩ (n + k))
    | .cut => Broken quote n ('\\' :: cs) (unterminated quote (n + 1)) := by
  rcases cs with _ | ⟨c, cs⟩
  · exact .cut
  rcases Escape.read_cons_cases c cs with ⟨hc, hcode⟩ | ⟨d, hread⟩ | ⟨hread, hstarts⟩
  · rcases hread : Escape.read (c :: cs) with _ | _ | k | _ <;> rw [hread] at hcode
    · trivial
    · exact hcode.elim
    · exact .malformed hc hread hcode.1 hcode.2
    · exact hcode.elim
  · rw [hread]
    trivial
  · rw [hread]
    exact .unknown hread hstarts

/-- **A literal that is not read breaks off** after some spellings. -/
theorem exists_broken_of_readFrom (h : readFrom quote decoded n cs = .error m) :
    ∃ body content rest, cs = body ++ rest ∧ Content quote body content ∧
      Broken quote (n + body.length) rest m := by
  fun_induction readFrom quote decoded n cs with
  | case1 decoded n => exact ⟨[], [], [], rfl, .nil, Except.error.inj h ▸ .ended⟩
  | case2 => simp at h
  | case3 decoded n cs d k hread hne ih =>
    obtain ⟨w, rest, rfl, rfl, hw⟩ := Escape.spelling_of_read hread
    obtain ⟨body, content, rest', hrest, hbody, hbroken⟩ := ih h
    rw [Nat.add_sub_cancel, List.drop_left] at hrest
    refine ⟨'\\' :: w ++ body, d :: content, rest', by simp [hrest], .cons (.escape hw) hbody, ?_⟩
    have hlen : n + ('\\' :: w ++ body).length = n + (w.length + 1) + body.length := by
      simp only [List.length_cons, List.length_append]
      omega
    rwa [hlen]
  | case4 decoded n cs d hread hne =>
    have hbroken := broken_of_slash quote n cs
    rw [hread] at hbroken
    exact ⟨[], [], _, rfl, .nil, Except.error.inj h ▸ hbroken⟩
  | case5 decoded n cs k hread hne =>
    have hbroken := broken_of_slash quote n cs
    rw [hread] at hbroken
    exact ⟨[], [], _, rfl, .nil, Except.error.inj h ▸ hbroken⟩
  | case6 decoded n cs hread hne =>
    have hbroken := broken_of_slash quote n cs
    rw [hread] at hbroken
    exact ⟨[], [], _, rfl, .nil, Except.error.inj h ▸ hbroken⟩
  | case7 decoded n c cs hquote hslash ih =>
    obtain ⟨body, content, rest, rfl, hbody, hbroken⟩ := ih h
    refine ⟨c :: body, c :: content, rest, rfl, .cons (.raw hquote hslash) hbody, ?_⟩
    rw [List.length_cons, Nat.add_comm body.length 1, ← Nat.add_assoc]
    exact hbroken

theorem exists_broken_of_read (h : read quote cs = .error m) :
    ∃ body content rest, cs = body ++ rest ∧ Content quote body content ∧
      Broken quote (1 + body.length) rest m := by
  rw [read] at h
  rcases hr : readFrom quote [] 1 cs with m' | r <;> rw [hr] at h
  · obtain rfl := Except.error.inj h
    exact exists_broken_of_readFrom hr
  · simp [Except.map] at h

/-- Where a literal breaks off there is no spelling. -/
theorem Broken.not_isPrefix (h : Broken quote n rest m) (hw : Spelling quote w c) :
    ¬w <+: rest := by
  have hslash : ∀ {cs}, (∀ c k, Escape.read cs ≠ .decoded c k) → ¬w <+: '\\' :: cs := by
    intro cs hread hfront
    rcases hw.of_isPrefix_cons hfront with ⟨-, hslash, -⟩ | ⟨-, hdecoded⟩
    · exact hslash rfl
    · exact hread _ _ hdecoded
  rcases h with _ | _ | ⟨hread, -⟩ | ⟨-, hread, -, -⟩
  · exact fun hfront => hw.ne_nil (List.prefix_nil.1 hfront)
  · exact hslash fun _ _ => Escape.noConfusion
  · exact hslash fun c k => by simp [hread]
  · exact hslash fun c k => by simp [hread]

/-- Spellings up to where there is none are as many as there can be. -/
theorem Content.length_le (hbody : Content quote body content)
    (hrest : ∀ w c, Spelling quote w c → ¬w <+: rest) (hbody' : Content quote body' content')
    (hfront : body' <+: body ++ rest) : body'.length ≤ body.length := by
  induction hbody generalizing body' content' with
  | nil =>
    rcases hbody' with _ | ⟨hw, -⟩
    · exact le_rfl
    · exact absurd ((List.prefix_append _ _).trans hfront) (hrest _ _ hw)
  | @cons w body content c hw _ ih =>
    rcases hbody' with _ | @⟨w', body', content', c', hw', hbody'⟩
    · exact Nat.zero_le _
    rw [List.append_assoc] at hfront
    have hlen := hw.length_eq_of_isPrefix hw' (List.prefix_append _ _)
      ((List.prefix_append _ _).trans hfront)
    obtain ⟨tail, htail⟩ := hfront
    rw [List.append_assoc] at htail
    have hsame := ih hbody' ⟨tail, List.append_inj_right htail hlen.symm⟩
    rw [List.length_append, List.length_append]
    omega

end Literal

end ModuleImports
