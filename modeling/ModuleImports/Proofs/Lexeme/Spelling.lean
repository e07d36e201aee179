import Mathlib.Data.List.Forall2
import Mathlib.Data.Nat.Digits.Defs
import ModuleImports.Lexeme.Literal
import ModuleImports.Proofs.Text.Run

/-!
# Proofs/Lexeme/Spelling — how the characters of a literal are spelled

A character of a literal stands for itself, or is spelled by one of the escapes.  `Escape.Spelling`
and `Literal.Spelling` list the ways, and `Literal.Content` strings spellings together.

Reading is exact in both directions: for one escape by `Escape.spelling_of_read` and
`Escape.Spelling.read_append`, and for a whole literal by `Literal.read_eq_ok_iff`.
-/

namespace ModuleImports

open Vocabulary CodePoint

/-! ## Hexadecimal numerals -/

/-- A digit of either case, and its value. -/
def HexDigit (c : Char) (v : Nat) : Prop :=
  "0123456789abcdef".toList[v]? = some c ∨ "0123456789ABCDEF".toList[v]? = some c

/-- A run of digits, and its value. -/
def HexNumeral (ds : List Char) (n : Nat) : Prop :=
  ∃ vs, List.Forall₂ HexDigit ds vs ∧ n = Nat.ofDigits 16 vs.reverse

instance (c : Char) (v : Nat) : Decidable (HexDigit c v) := inferInstanceAs (Decidable (_ ∨ _))

theorem HexDigit.hexDigit? {c : Char} {v : Nat} (h : HexDigit c v) : hexDigit? c = some v := by
  have hlower : ∀ v (hv : v < 16), Vocabulary.hexDigit? "0123456789abcdef".toList[v] = some v := by
    decide
  have hupper : ∀ v (hv : v < 16), Vocabulary.hexDigit? "0123456789ABCDEF".toList[v] = some v := by
    decide
  rcases h with h | h
  · obtain ⟨hv, rfl⟩ := List.getElem?_eq_some_iff.1 h
    exact hlower v hv
  · obtain ⟨hv, rfl⟩ := List.getElem?_eq_some_iff.1 h
    exact hupper v hv

theorem lt_of_hexDigit? {c : Char} {v : Nat} (h : hexDigit? c = some v) :
    c.toNat < 103 ∧ v < 16 := by
  have hdigit : '0' ≤ c ∧ c ≤ '9' ↔ 48 ≤ c.toNat ∧ c.toNat ≤ 57 := Iff.rfl
  have hlower : 'a' ≤ c ∧ c ≤ 'f' ↔ 97 ≤ c.toNat ∧ c.toNat ≤ 102 := Iff.rfl
  have hupper : 'A' ≤ c ∧ c ≤ 'F' ↔ 65 ≤ c.toNat ∧ c.toNat ≤ 70 := Iff.rfl
  simp only [hexDigit?, hdigit, hlower, hupper, show '0'.toNat = 48 from rfl,
    show 'a'.toNat = 97 from rfl, show 'A'.toNat = 65 from rfl] at h
  grind

theorem hexDigit?_eq_some_iff {c : Char} {v : Nat} : hexDigit? c = some v ↔ HexDigit c v := by
  refine ⟨fun h => ?_, HexDigit.hexDigit?⟩
  have hsmall : ∀ n < 103, ∀ v < 16, hexDigit? (Char.ofNat n) = some v →
      HexDigit (Char.ofNat n) v := by decide +kernel
  obtain ⟨hc, hv⟩ := lt_of_hexDigit? h
  exact of_forall_ofNat (P := fun c => ∀ v < 16, hexDigit? c = some v → HexDigit c v) hsmall hc
    v hv h

/-- Digits after a number shift it to the left. -/
theorem foldl_hexDigits {ds : List Char} {vs : List Nat} (h : List.Forall₂ HexDigit ds vs)
    (n : Nat) : ds.foldl (fun n d => 16 * n + (hexDigit? d).getD 0) n =
      Nat.ofDigits 16 (vs.reverse ++ [n]) := by
  induction h generalizing n with
  | nil => simp
  | cons hd _ ih =>
    rw [List.foldl_cons, ih, hd.hexDigit?, Option.getD_some, List.reverse_cons, List.append_assoc,
      Nat.ofDigits_append, Nat.ofDigits_append]
    simp [Nat.ofDigits_cons, Nat.add_comm]

theorem hexNumeral_iff {ds : List Char} {n : Nat} :
    HexNumeral ds n ↔ (∀ d ∈ ds, isHexDigit d = true) ∧ hexValue ds = n := by
  have hvalue : ∀ {vs}, List.Forall₂ HexDigit ds vs → hexValue ds = Nat.ofDigits 16 vs.reverse :=
    fun h => (foldl_hexDigits h 0).trans (Nat.ofDigits_append_zero _)
  constructor
  · rintro ⟨vs, hvs, rfl⟩
    refine ⟨?_, hvalue hvs⟩
    clear hvalue
    induction hvs with
    | nil => simp
    | cons hd _ ih => exact List.forall_mem_cons.2 ⟨by rw [isHexDigit, hd.hexDigit?]; rfl, ih⟩
  · rintro ⟨hds, rfl⟩
    have hvs : List.Forall₂ HexDigit ds (ds.map fun d => (hexDigit? d).getD 0) := by
      rw [List.forall₂_map_right_iff, List.forall₂_same]
      intro d hd
      obtain ⟨v, hv⟩ := Option.isSome_iff_exists.1 (hds d hd)
      rw [hv]
      exact hexDigit?_eq_some_iff.1 hv
    exact ⟨_, hvs, hvalue hvs⟩

theorem CodePoint.char?_eq_some_iff {code : Nat} {c : Char} :
    char? code = some c ↔ code = c.toNat := by
  constructor
  · intro h
    rw [char?] at h
    split at h
    · next hvalid =>
      obtain rfl := Option.some.inj h
      rw [Char.ofNat, dif_pos hvalid]
      rfl
    · simp at h
  · rintro rfl
    exact char?_toNat c

/-! ## Escapes -/

namespace Escape

/-- The letters that are short for a character, each with the character. -/
def letters : List (Char × Char) :=
  [('n', '\n'), ('r', '\r'), ('t', '\t'), ('b', '\x08'), ('f', '\x0c')]

/-- **The escapes**, each with the character it spells. -/
inductive Spelling : List Char → Char → Prop
  | mark {c : Char} : c ∈ ['"', '\'', '\x60', '\\'] → Spelling ['\\', c] c
  | letter {l c : Char} : (l, c) ∈ letters → Spelling ['\\', l] c
  | unit {ds : List Char} {c : Char} : ds.length = 4 → HexNumeral ds c.toNat →
      Spelling ('\\' :: 'u' :: ds) c
  | pair {high low : List Char} {h l : Nat} {c : Char} : high.length = 4 → low.length = 4 →
      HexNumeral high h → HexNumeral low l → 0xd800 ≤ h ∧ h ≤ 0xdbff → 0xdc00 ≤ l ∧ l ≤ 0xdfff →
      c.toNat = 0x10000 + (h - 0xd800) * 0x400 + (l - 0xdc00) →
      Spelling ('\\' :: 'u' :: (high ++ '\\' :: 'u' :: low)) c
  | braced {ds : List Char} {c : Char} : ds ≠ [] → HexNumeral ds c.toNat →
      Spelling ('\\' :: '{' :: (ds ++ ['}'])) c
  | bracedUnit {ds : List Char} {c : Char} : ds ≠ [] → HexNumeral ds c.toNat →
      Spelling ('\\' :: 'u' :: '{' :: (ds ++ ['}'])) c

variable {cs : List Char} {c : Char} {k n : Nat}

theorem codeUnit_eq_ok_iff : codeUnit cs = .ok n ↔
    ∃ ds rest, cs = ds ++ rest ∧ ds.length = 4 ∧ HexNumeral ds n := by
  constructor
  · intro h
    simp only [codeUnit] at h
    split at h
    · next hlen =>
      obtain ⟨ds, rest, hcs, hds, -, htake, -⟩ := exists_run isHexDigit (cs.take 4)
      rw [htake] at h hlen
      have hrest : rest = [] := by
        have := congrArg List.length hcs
        rw [List.length_append, List.length_take] at this
        exact List.eq_nil_of_length_eq_zero (by omega)
      rw [hrest, List.append_nil] at hcs
      refine ⟨ds, cs.drop 4, ?_, hlen, hexNumeral_iff.2 ⟨hds, Except.ok.inj h⟩⟩
      rw [← hcs, List.take_append_drop]
    · simp at h
  · rintro ⟨ds, rest, rfl, hlen, hds⟩
    obtain ⟨hdigits, rfl⟩ := hexNumeral_iff.1 hds
    have htake : ((ds ++ rest).take 4).takeWhile isHexDigit = ds := by
      rw [List.take_left' hlen]
      exact List.takeWhile_eq_self_iff.2 hdigits
    rw [codeUnit, htake, if_pos hlen]

/-- Wherever the count of braces ends, there is a closing one. -/
theorem getElem?_of_beforeClose? {depth : Nat} (h : beforeClose? depth n cs = some k) :
    n ≤ k ∧ cs[k - n]? = some '}' := by
  have step : ∀ {c : Char} {cs : List Char} {n : Nat},
      n + 1 ≤ k ∧ cs[k - (n + 1)]? = some '}' → n ≤ k ∧ (c :: cs)[k - n]? = some '}' := by
    rintro c cs n ⟨hn, hclose⟩
    refine ⟨by omega, ?_⟩
    rw [show k - n = k - (n + 1) + 1 by omega, List.getElem?_cons_succ, hclose]
  fun_induction beforeClose? depth n cs with
  | case1 => simp at h
  | case2 _ _ _ ih => exact step (ih h)
  | case3 => simp_all
  | case4 _ _ _ _ ih => exact step (ih h)
  | case5 _ _ _ _ _ _ ih => exact step (ih h)

theorem beforeClose?_append {ds : List Char} (rest : List Char) (n : Nat)
    (h : ∀ d ∈ ds, isHexDigit d = true) :
    beforeClose? 0 n (ds ++ '}' :: rest) = some (n + ds.length) := by
  induction ds generalizing n with
  | nil => rfl
  | cons d ds ih =>
    obtain ⟨hd, hds⟩ := List.forall_mem_cons.1 h
    have hopen : d ≠ '{' := by rintro rfl; exact absurd hd (by decide)
    have hclose : d ≠ '}' := by rintro rfl; exact absurd hd (by decide)
    rw [List.cons_append, beforeClose?, if_neg hopen, if_neg hclose, ih _ hds, List.length_cons]
    congr 1
    omega

theorem braced?_eq_some_iff {ds : List Char} :
    braced? ds = some c ↔ ds ≠ [] ∧ HexNumeral ds c.toNat := by
  rw [hexNumeral_iff, ← CodePoint.char?_eq_some_iff, ← and_assoc, ← List.all_eq_true, braced?]
  split
  · next h => exact (and_iff_right h).symm
  · next h => simp only [h, false_and, reduceCtorEq]

theorem readBraced_eq_decoded_iff {opening : Nat} : readBraced opening cs = .decoded c k ↔
    ∃ ds rest, cs = ds ++ '}' :: rest ∧ ds ≠ [] ∧ HexNumeral ds c.toNat ∧
      k = opening + ds.length + 1 := by
  constructor
  · intro h
    rw [readBraced] at h
    split at h
    · simp at h
    · next n hn =>
      split at h
      · next c' hc =>
        obtain ⟨rfl, rfl⟩ := Escape.decoded.inj h
        obtain ⟨-, hclose⟩ := getElem?_of_beforeClose? hn
        rw [Nat.sub_zero] at hclose
        obtain ⟨hlt, hclose⟩ := List.getElem?_eq_some_iff.1 hclose
        obtain ⟨hne, hds⟩ := braced?_eq_some_iff.1 hc
        refine ⟨cs.take n, cs.drop (n + 1), ?_, hne, hds, ?_⟩
        · rw [← hclose, List.getElem_cons_drop, List.take_append_drop]
        · rw [List.length_take, Nat.min_eq_left (by omega)]
      · simp at h
  · rintro ⟨ds, rest, rfl, hne, hds, rfl⟩
    have hclose := beforeClose?_append rest 0 (hexNumeral_iff.1 hds).1
    rw [Nat.zero_add] at hclose
    rw [readBraced, hclose]
    simp only
    rw [List.take_left, braced?_eq_some_iff.2 ⟨hne, hds⟩]

theorem readLow_eq_decoded_iff {high : Nat} : readLow high cs = .decoded c k ↔
    ∃ ds rest l, cs = '\\' :: 'u' :: (ds ++ rest) ∧ ds.length = 4 ∧ HexNumeral ds l ∧
      (0xdc00 ≤ l ∧ l ≤ 0xdfff) ∧ c.toNat = combine high l ∧ k = 12 := by
  constructor
  · intro h
    rw [readLow.eq_def] at h
    split at h
    · split at h
      · simp at h
      · next l hl =>
        split at h
        · next hlow =>
          split at h
          · next c' hc =>
            obtain ⟨rfl, rfl⟩ := Escape.decoded.inj h
            obtain ⟨ds, rest, rfl, hlen, hds⟩ := codeUnit_eq_ok_iff.1 hl
            exact ⟨ds, rest, l, rfl, hlen, hds, by simpa [isLowSurrogate] using hlow,
              (CodePoint.char?_eq_some_iff.1 hc).symm, rfl⟩
          · simp at h
        · simp at h
    · simp at h
  · rintro ⟨ds, rest, l, rfl, hlen, hds, hlow, hc, rfl⟩
    have hlow : isLowSurrogate l = true := by simpa [isLowSurrogate] using hlow
    rw [readLow, codeUnit_eq_ok_iff.2 ⟨ds, rest, rfl, hlen, hds⟩]
    simp only [hlow, if_true, CodePoint.char?_eq_some_iff.2 hc.symm]

theorem spelling_of_readCode (h : readCode cs = .decoded c k) :
    ∃ w rest, cs = w ++ rest ∧ w.length + 2 = k ∧ Spelling ('\\' :: 'u' :: w) c := by
  rw [readCode.eq_def] at h
  split at h
  · obtain ⟨ds, rest, rfl, hne, hds, rfl⟩ := readBraced_eq_decoded_iff.1 h
    refine ⟨'{' :: (ds ++ ['}']), rest, by simp, ?_, .bracedUnit hne hds⟩
    simp only [List.length_cons, List.length_append, List.length_nil]
    omega
  · split at h
    · simp at h
    · next unit hunit =>
      obtain ⟨ds, rest, rfl, hlen, hds⟩ := codeUnit_eq_ok_iff.1 hunit
      split at h
      · next hhigh =>
        rw [List.drop_left' hlen] at h
        obtain ⟨ds', rest, l, rfl, hlen', hds', hlow, hc, rfl⟩ := readLow_eq_decoded_iff.1 h
        have hhigh : 0xd800 ≤ unit ∧ unit ≤ 0xdbff := by simpa [isHighSurrogate] using hhigh
        exact ⟨ds ++ '\\' :: 'u' :: ds', rest, by simp, by simp [hlen, hlen'],
          .pair hlen hlen' hds hds' hhigh hlow hc⟩
      · split at h
        · next c' hc =>
          obtain ⟨rfl, rfl⟩ := Escape.decoded.inj h
          exact ⟨ds, rest, rfl, by rw [hlen],
            .unit hlen (CodePoint.char?_eq_some_iff.1 hc ▸ hds)⟩
        · simp at h

theorem spelling_of_short? {d : Char} (h : short? d = some c) : Spelling ['\\', d] c := by
  unfold short? at h
  split at h
  · next hd =>
    obtain rfl := Option.some.inj h
    exact .mark (by simpa [isQuote, templateQuote, or_assoc] using hd)
  · refine .letter ?_
    split at h
    iterate 5 · rw [← Option.some.inj h]; decide
    · simp at h

/-- What is read as an escape is one. -/
theorem spelling_of_read (h : read cs = .decoded c k) :
    ∃ w rest, cs = w ++ rest ∧ w.length + 1 = k ∧ Spelling ('\\' :: w) c := by
  rw [read.eq_def] at h
  split at h
  · simp at h
  · obtain ⟨w, rest, rfl, rfl, hw⟩ := spelling_of_readCode h
    exact ⟨'u' :: w, rest, rfl, rfl, hw⟩
  · obtain ⟨ds, rest, rfl, hne, hds, rfl⟩ := readBraced_eq_decoded_iff.1 h
    refine ⟨'{' :: (ds ++ ['}']), rest, by simp, ?_, .braced hne hds⟩
    simp only [List.length_cons, List.length_append, List.length_nil]
    omega
  · next d cs _ _ =>
    split at h
    · next hd =>
      obtain ⟨rfl, rfl⟩ := Escape.decoded.inj h
      exact ⟨[d], cs, rfl, rfl, spelling_of_short? hd⟩
    · simp at h

/-- Four digits after `\u` are a code unit. -/
theorem readCode_append {ds : List Char} {unit : Nat} (hlen : ds.length = 4)
    (hds : HexNumeral ds unit) (rest : List Char) : readCode (ds ++ rest) =
      if isHighSurrogate unit then readLow unit rest
      else match char? unit with
        | some c => .decoded c 6
        | none => .malformed 6 := by
  have hunit := codeUnit_eq_ok_iff.2 ⟨ds, rest, rfl, hlen, hds⟩
  have hopen : ∀ tail, ds ++ rest ≠ '{' :: tail := by
    rcases ds with _ | ⟨d, ds⟩
    · simp at hlen
    · rintro tail htail
      obtain rfl := (List.cons.inj htail).1
      exact absurd ((hexNumeral_iff.1 hds).1 '{' List.mem_cons_self) (by decide)
  rw [readCode.eq_def]
  split
  · next heq => exact absurd heq (hopen _)
  · rcases hchar : char? unit with _ | c <;> simp only [hunit, List.drop_left' hlen, hchar]

/-- An escape is read as what it spells, whatever follows it. -/
theorem Spelling.read_append {w : List Char} (h : Spelling w c) :
    ∃ v, w = '\\' :: v ∧ ∀ rest, read (v ++ rest) = .decoded c w.length := by
  cases h with
  | mark hc =>
    refine ⟨[c], rfl, fun rest => ?_⟩
    simp only [List.mem_cons, List.not_mem_nil, or_false] at hc
    rcases hc with rfl | rfl | rfl | rfl <;> rfl
  | @letter l _ hc =>
    refine ⟨[l], rfl, fun rest => ?_⟩
    simp only [letters, List.mem_cons, List.not_mem_nil, or_false, Prod.mk.injEq] at hc
    rcases hc with ⟨rfl, rfl⟩ | ⟨rfl, rfl⟩ | ⟨rfl, rfl⟩ | ⟨rfl, rfl⟩ | ⟨rfl, rfl⟩ <;> rfl
  | @unit ds _ hlen hds =>
    refine ⟨'u' :: ds, rfl, fun rest => ?_⟩
    rw [List.cons_append, read, readCode_append hlen hds, isHighSurrogate_toNat,
      CodePoint.char?_toNat]
    simp [hlen]
  | @pair high low h l _ hhigh hlow hds hds' hh hl hc =>
    refine ⟨'u' :: (high ++ '\\' :: 'u' :: low), rfl, fun rest => ?_⟩
    have hsurrogate : isHighSurrogate h = true := by simpa [isHighSurrogate] using hh
    have hread := readLow_eq_decoded_iff.2 ⟨low, rest, l, rfl, hlow, hds', hl, hc, rfl⟩
    rw [List.cons_append, List.append_assoc, read, readCode_append hhigh hds, if_pos hsurrogate]
    simpa [hhigh, hlow] using hread
  | @braced ds _ hne hds =>
    refine ⟨'{' :: (ds ++ ['}']), rfl, fun rest => ?_⟩
    rw [List.cons_append, List.append_assoc, read]
    refine readBraced_eq_decoded_iff.2 ⟨ds, rest, rfl, hne, hds, ?_⟩
    simp only [List.length_cons, List.length_append, List.length_nil]
    omega
  | @bracedUnit ds _ hne hds =>
    refine ⟨'u' :: '{' :: (ds ++ ['}']), rfl, fun rest => ?_⟩
    rw [List.cons_append, List.cons_append, List.append_assoc, read, readCode]
    refine readBraced_eq_decoded_iff.2 ⟨ds, rest, rfl, hne, hds, ?_⟩
    simp only [List.length_cons, List.length_append, List.length_nil]
    omega

end Escape

namespace Literal

variable {quote : Char} {cs body content : List Char} {n : Nat}

/-- **How a character of a literal is spelled**: as itself, or by an escape. -/
inductive Spelling (quote : Char) : List Char → Char → Prop
  | raw {c : Char} : c ≠ quote → c ≠ '\\' → Spelling quote [c] c
  | escape {w : List Char} {c : Char} : Escape.Spelling w c → Spelling quote w c

/-- **What stands between the quotes**: spellings in a row, with the characters they spell. -/
inductive Content (quote : Char) : List Char → List Char → Prop
  | nil : Content quote [] []
  | cons {w body content : List Char} {c : Char} : Spelling quote w c →
      Content quote body content → Content quote (w ++ body) (c :: content)

/-- What is read as the rest of a literal is spellings up to a quote. -/
theorem content_of_readFrom {decoded decoded' : List Char} {m : Nat}
    (h : readFrom quote decoded n cs = .ok (decoded', m)) :
    ∃ body rest content, cs = body ++ quote :: rest ∧ Content quote body content ∧
      decoded' = decoded.reverse ++ content ∧ m = n + (body.length + 1) := by
  fun_induction readFrom quote decoded n cs with
  | case1 => simp at h
  | case2 decoded n cs =>
    obtain ⟨rfl, rfl⟩ := Prod.mk.inj (Except.ok.inj h)
    exact ⟨[], cs, [], rfl, .nil, by simp, rfl⟩
  | case3 decoded n cs d k hread hne ih =>
    obtain ⟨w, rest, rfl, rfl, hw⟩ := Escape.spelling_of_read hread
    obtain ⟨body, rest, content, hrest, hbody, rfl, rfl⟩ := ih h
    rw [Nat.add_sub_cancel, List.drop_left] at hrest
    refine ⟨'\\' :: w ++ body, rest, d :: content, by simp [hrest], .cons (.escape hw) hbody,
      by simp, ?_⟩
    simp only [List.length_cons, List.length_append]
    omega
  | case4 => simp at h
  | case5 => simp at h
  | case6 => simp at h
  | case7 decoded n c cs hquote hslash ih =>
    obtain ⟨body, rest, content, rfl, hbody, rfl, rfl⟩ := ih h
    refine ⟨c :: body, rest, c :: content, rfl, .cons (.raw hquote hslash) hbody, by simp, ?_⟩
    simp only [List.length_cons]
    omega

/-- Spellings up to a quote are read, whatever follows. -/
theorem readFrom_append (hquote : quote ≠ '\\') (h : Content quote body content)
    (decoded : List Char) (n : Nat) (rest : List Char) :
    readFrom quote decoded n (body ++ quote :: rest) =
      .ok (decoded.reverse ++ content, n + (body.length + 1)) := by
  induction h generalizing decoded n with
  | nil => rw [List.nil_append, readFrom, if_pos rfl, List.append_nil]; rfl
  | @cons w body content c hw _ ih =>
    rcases hw with ⟨hne, hslash⟩ | hw
    · rw [List.append_assoc, List.singleton_append, readFrom, if_neg hne, if_neg hslash, ih]
      simp only [List.reverse_cons, List.append_assoc, List.singleton_append, List.length_cons]
      congr 2
      omega
    · obtain ⟨v, rfl, hread⟩ := hw.read_append
      rw [List.append_assoc, List.cons_append, readFrom, if_neg hquote.symm, if_pos rfl, hread]
      simp only [List.length_cons, Nat.add_sub_cancel, List.drop_left, ih]
      simp only [List.reverse_cons, List.append_assoc, List.singleton_append, List.length_append,
        List.length_cons]
      congr 2
      omega

/-- **A literal is read just if its body is spellings up to a quote**, and it is what they spell. -/
theorem read_eq_ok_iff {l : Lexeme} (hquote : quote ≠ '\\') : read quote cs = .ok l ↔
    ∃ body content rest, cs = body ++ quote :: rest ∧ Content quote body content ∧
      l = ⟨kind quote, .text (String.ofList content), body.length + 2⟩ := by
  constructor
  · intro h
    rw [read] at h
    rcases hr : readFrom quote [] 1 cs with m | ⟨decoded, n⟩
    · rw [hr] at h
      simp [Except.map] at h
    · rw [hr] at h
      obtain ⟨body, rest, content, rfl, hbody, hdecoded, rfl⟩ := content_of_readFrom hr
      obtain rfl : decoded = content := hdecoded
      refine ⟨body, decoded, rest, rfl, hbody, (Except.ok.inj h).symm.trans ?_⟩
      rw [Nat.add_comm 1]
  · rintro ⟨body, content, rest, rfl, hbody, rfl⟩
    rw [read, readFrom_append hquote hbody, List.reverse_nil, List.nil_append, Nat.add_comm 1]
    rfl

end Literal

end ModuleImports
