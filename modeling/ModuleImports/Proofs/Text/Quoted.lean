import ModuleImports.Lexeme.Vocabulary
import ModuleImports.Proofs.Text.Run
import ModuleImports.Text.Quoted

/-!
# Proofs/Text/Quoted — the quoted form stays on one line and can be read back

A line break is written as an escape, an escape by code has nothing but hexadecimal digits in its
braces, and a character that stands for itself is no line break.

Whatever comes after a written character, `readChar` finds the character again
(`readChar_writeChar_append`), so no two texts have the same quoted form (`quote_injective`).
-/

namespace ModuleImports.Quoted

open Vocabulary

variable {c d : Char} {n : Nat}

/-- The digits of a number in base sixteen. -/
theorem isHexDigit_of_mem_toDigits (h : c ∈ Nat.toDigits 16 n) : isHexDigit c = true := by
  have hdigit : ∀ k < 16, isHexDigit k.digitChar = true := by decide
  induction n using Nat.strongRecOn with
  | ind n ih =>
    rw [Nat.toDigits_eq_if (by decide)] at h
    split at h
    · next hlt =>
      obtain rfl := List.mem_singleton.1 h
      exact hdigit n hlt
    · next hge =>
      rcases List.mem_append.1 h with hfront | hlast
      · exact ih (n / 16) (by omega) hfront
      · obtain rfl := List.mem_singleton.1 hlast
        exact hdigit (n % 16) (Nat.mod_lt n (by decide))

theorem isLineBreak_eq_false_iff : isLineBreak c = false ↔ c ≠ '\n' ∧ c ≠ '\r' := by
  simp [isLineBreak]

theorem isLineBreak_of_isHexDigit (h : isHexDigit c = true) : isLineBreak c = false := by
  rw [isLineBreak_eq_false_iff]
  constructor <;> (rintro rfl; exact absurd h (by decide))

theorem isLineBreak_of_mem_codeEscape (h : d ∈ codeEscape c) : isLineBreak d = false := by
  simp only [codeEscape, List.cons_append, List.mem_cons, List.mem_append, List.not_mem_nil,
    or_false] at h
  rcases h with rfl | rfl | rfl | hdigit | rfl
  case inr.inr.inr.inl => exact isLineBreak_of_isHexDigit (isHexDigit_of_mem_toDigits hdigit)
  all_goals decide

/-- No character is written with a line break in it. -/
theorem isLineBreak_of_mem_writeChar (h : d ∈ writeChar c) : isLineBreak d = false := by
  unfold writeChar at h
  split at h
  case h_7 hfeed hreturn _ _ =>
    split at h
    · obtain rfl := List.mem_singleton.1 h
      exact isLineBreak_eq_false_iff.2 ⟨hfeed, hreturn⟩
    · exact isLineBreak_of_mem_codeEscape h
  -- The marks with an escape of their own.
  all_goals
    simp only [List.mem_cons, List.not_mem_nil, or_false] at h
    rcases h with rfl | rfl <;> decide

/-- **A quoted text stays on one line.** -/
theorem isLineBreak_of_mem_quote {s : String} (h : c ∈ (quote s).toList) :
    isLineBreak c = false := by
  simp only [quote, String.toList_ofList, List.cons_append, List.mem_cons, List.mem_append,
    List.mem_flatMap, List.not_mem_nil, or_false] at h
  rcases h with rfl | ⟨d, -, hd⟩ | rfl
  · rfl
  · exact isLineBreak_of_mem_writeChar hd
  · rfl

/-! ## Reading back -/

/-- The value of the digits that a number has in base sixteen. -/
theorem hexValue_toDigits (n : Nat) : hexValue (Nat.toDigits 16 n) = n := by
  have hdigit : ∀ k < 16, (hexDigit? k.digitChar).getD 0 = k := by decide
  have happend (ds : List Char) (d : Char) :
      hexValue (ds ++ [d]) = 16 * hexValue ds + (hexDigit? d).getD 0 := by
    rw [hexValue, List.foldl_append]
    rfl
  induction n using Nat.strongRecOn with
  | ind n ih =>
    rw [Nat.toDigits_eq_if (by decide)]
    split
    · next hlt => exact (Nat.zero_add _).trans (hdigit n hlt)
    · next hge =>
      rw [happend, ih (n / 16) (by omega), hdigit (n % 16) (Nat.mod_lt n (by decide))]
      exact Nat.div_add_mod n 16

/-- The character that a backslash and this one stand for. -/
def escaped? : Char → Option Char
  | '"' => some '"'
  | '\\' => some '\\'
  | 'n' => some '\n'
  | 'r' => some '\r'
  | 't' => some '\t'
  | '0' => some '\x00'
  | _ => none

/-- The character that stands between quotes at the front of a text, and what follows it. -/
def readChar : List Char → Option (Char × List Char)
  | '\\' :: 'u' :: '{' :: cs =>
    some (Char.ofNat (hexValue (cs.takeWhile isHexDigit)), (cs.dropWhile isHexDigit).tail)
  | '\\' :: c :: cs => (escaped? c).map (·, cs)
  | c :: cs => some (c, cs)
  | [] => none

@[simp] theorem readChar_nil : readChar [] = none := rfl

theorem readChar_cons_of_ne {cs : List Char} (hc : c ≠ '\\') :
    readChar (c :: cs) = some (c, cs) := by
  unfold readChar
  split <;> simp_all

theorem readChar_codeEscape_append (c : Char) (rest : List Char) :
    readChar (codeEscape c ++ rest) = some (c, rest) := by
  have hdigits : ∀ d ∈ Nat.toDigits 16 c.toNat, isHexDigit d = true :=
    fun _ hd => isHexDigit_of_mem_toDigits hd
  have hclose : Stops isHexDigit ('}' :: rest) := stops_cons.2 (by decide)
  simp only [codeEscape, List.cons_append, List.append_assoc, List.nil_append, readChar]
  rw [takeWhile_append_of_stops hdigits hclose, dropWhile_append_of_stops hdigits hclose,
    hexValue_toDigits, Char.ofNat_toNat, List.tail_cons]

/-- **A written character is read back**, whatever comes after it. -/
@[simp] theorem readChar_writeChar_append (c : Char) (rest : List Char) :
    readChar (writeChar c ++ rest) = some (c, rest) := by
  unfold writeChar
  split
  case h_7 hslash _ _ _ _ =>
    split
    · exact readChar_cons_of_ne hslash
    · exact readChar_codeEscape_append c rest
  -- The marks with an escape of their own.
  all_goals rfl

theorem eq_of_flatMap_writeChar_eq {cs ds : List Char}
    (h : cs.flatMap writeChar = ds.flatMap writeChar) : cs = ds := by
  induction cs generalizing ds with
  | nil =>
    cases ds with
    | nil => rfl
    | cons d ds => simpa using congrArg readChar h
  | cons c cs ih =>
    cases ds with
    | nil => simpa using congrArg readChar h
    | cons d ds =>
      have hread := congrArg readChar h
      simp only [List.flatMap_cons, readChar_writeChar_append, Option.some_inj,
        Prod.mk.injEq] at hread
      rw [hread.1, ih hread.2]

/-- **A text is known by its quoted form.** -/
theorem quote_injective : Function.Injective quote := by
  intro s t h
  have hchars := List.append_cancel_right (List.cons.inj (String.ofList_injective h)).2
  exact String.toList_inj.1 (eq_of_flatMap_writeChar_eq hchars)

end ModuleImports.Quoted
