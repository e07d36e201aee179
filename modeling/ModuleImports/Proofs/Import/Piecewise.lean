import ModuleImports.Proofs.Import.Passage
import ModuleImports.Proofs.Token.Piecewise

/-!
# Proofs/Import/Piecewise — the imports of a text, line by line

Reading does not depend on where a text starts: what it gives only moves with the tokens
(`ReadingState.read_shift`, from one step by `ReadingState.next_shift`).  A text without faults leads
back to between declarations, so what follows it in the next line is read as if it stood alone, and
its records, or its error, come after the records of the first (`SourceText.thenLine_compositional`).
-/

namespace ModuleImports

variable {g : ImportGrammar}

/-! ## The same further on -/

/-- The same record in a text with `n` more characters in front. -/
def Recognized.shift (n : Nat) (r : Recognized) : Recognized := { r with place := n + r.place }

/-- The same fault in a text with `n` more characters in front. -/
def SyntaxError.shift (n : Nat) (e : SyntaxError) : SyntaxError := { e with span := e.span.shift n }

@[simp] theorem SyntaxError.text_shift (n : Nat) (e : SyntaxError) : (e.shift n).text = e.text :=
  rfl

namespace ImportError

/-- The same fault in a text with `n` more characters in front. -/
def shift (n : Nat) : ImportError → ImportError
  | lexical e => lexical (e.shift n)
  | syntactic e => syntactic (e.shift n)

end ImportError

namespace Recognition

/-- The same recognition in a text with `n` more characters in front. -/
def shift (n : Nat) (r : Recognition) : Recognition :=
  ⟨r.recognized.map (Recognized.shift n), r.failure.map (ImportError.shift n)⟩

theorem prepend_shift (n : Nat) (rs : List Recognized) (r : Recognition) :
    (r.prepend rs).shift n = (r.shift n).prepend (rs.map (Recognized.shift n)) := by
  simp [shift, prepend]

/-- The imports stay what they are, and an error moves. -/
theorem records_shift (n : Nat) (r : Recognition) :
    (r.shift n).records = r.records.mapError (ImportError.shift n) := by
  rcases r with ⟨rs, _ | e⟩
  · simp [records, shift, Except.mapError, Function.comp_def, Recognized.shift]
  · rfl

/-- Records in front come first, and do not keep an error from being one. -/
theorem records_prepend (rs : List Recognized) (r : Recognition) :
    (r.prepend rs).records = (rs.map Recognized.record ++ ·) <$> r.records := by
  rcases r with ⟨ss, _ | e⟩
  · simp [records, prepend, Functor.map, Except.map]
  · rfl

end Recognition

/-! ## Reading further on -/

namespace ReadingState

/-- The same state in a text with `n` more characters in front. -/
def shift (n : Nat) : ReadingState → ReadingState
  | between ended => between (ended.map (Recognized.shift n))
  | within place stage => within (n + place) stage

theorem ended_shift (n : Nat) (state : ReadingState) :
    (state.shift n).ended = state.ended.map (Recognized.shift n) := by
  cases state <;> rfl

/-- **One step further on** is the same step. -/
theorem next_shift (n : Nat) (t : Token) (state : ReadingState) :
    (state.shift n).next g (t.shift n) = (state.next g t).map (ReadingState.shift n) := by
  cases state with
  | between ended =>
    rcases himport : t.is .keyword "import"
    · simp [shift, next, himport]
    · have hplace : (t.shift n).span.start = n + t.span.start := rfl
      simp [shift, next, himport, hplace]
  | within place stage =>
    have hstage : stage.next g (t.shift n) = stage.next g t := Stage.next_congr rfl
    simp only [shift, next, hstage]
    split <;> simp [shift, Recognized.shift]

theorem finishOr_shift (n stop : Nat) (failure : Option LexicalError) (state : ReadingState) :
    (state.shift n).finishOr g (failure.map (LexicalError.shift n)) (n + stop) =
      (state.finishOr g failure stop).shift n := by
  rcases failure with _ | e
  · cases state <;> rfl
  · rfl

/-- **Reading further on** gives the same further on. -/
theorem read_shift (n stop : Nat) (failure : Option LexicalError) (state : ReadingState)
    (ts : List Token) :
    (state.shift n).read g (failure.map (LexicalError.shift n)) (n + stop)
      (ts.map (Token.shift n)) = (state.read g failure stop ts).shift n := by
  induction ts generalizing state with
  | nil => exact finishOr_shift n stop failure state
  | cons t ts ih =>
    rw [List.map_cons, read, read, next_shift]
    rcases state.next g t with _ | after
    · cases state <;> rfl
    · simp only [Option.map_some, ih, ended_shift, Recognition.prepend_shift]

/-- Records that have ended come first, and do not matter otherwise. -/
theorem records_read_between (ended : List Recognized) (failure : Option LexicalError) (stop : Nat)
    (ts : List Token) : ((between ended).read g failure stop ts).records =
      (ended.map Recognized.record ++ ·) <$> ((between []).read g failure stop ts).records := by
  rcases ts with _ | ⟨t, ts⟩
  · rcases failure with _ | e
    · exact congrArg Except.ok (List.append_nil _).symm
    · rfl
  · obtain ⟨after, hafter⟩ : ∃ after, ∀ rs, (between rs).next g t = some after := by
      rcases himport : t.is .keyword "import"
      · exact ⟨between [], fun rs => by simp [next, himport]⟩
      · exact ⟨within t.span.start .clause, fun rs => by simp [next, himport]⟩
    simp only [read, hafter, Recognition.records_prepend]
    rcases (after.read g failure stop ts).records <;> rfl

end ReadingState

/-! ## Going on in the next line -/

namespace SourceText

/-- A text, and another one in the line after it. -/
def thenLine (a b : SourceText) : SourceText := ⟨a.chars ++ '\n' :: b.chars⟩

variable {a b : SourceText} {options : ImportOptions} {R : List ImportRecord}

theorem length_thenLine (a b : SourceText) :
    (a.thenLine b).length = a.length + 1 + b.length := by
  rw [thenLine, length, List.length_append, List.length_cons, Nat.add_assoc, Nat.add_comm 1]
  rfl

/-- **What is in the next line** is scanned as if it stood alone. -/
theorem scan_thenLine (b : SourceText) {options : ScanOptions}
    (h : (a.scan options).failure = none) : (a.thenLine b).scan options =
      ((b.scan options).shift (a.length + 1)).prepend (a.scan options).tokens := by
  have hscan := scanFrom_append_lineFeed h b.chars
  rw [Nat.zero_add, ← Nat.add_zero (a.chars.length + 1), scanFrom_add] at hscan
  exact hscan

/-- **What is in the next line** is read as if it stood alone, after a text without faults. -/
theorem imports_thenLine (b : SourceText) (h : a.imports options = .ok R) :
    (a.thenLine b).imports options =
      (R ++ ·) <$> (b.imports options).mapError (ImportError.shift (a.length + 1)) := by
  obtain ⟨hfailure, passed, ended, hp, rfl⟩ := (a.imports_eq_ok_iff options R).1 h
  have hstart : ReadingState.between [] = (ReadingState.between []).shift (a.length + 1) := rfl
  rw [imports, Recognition.of_eq, Scan.recognition, scan_thenLine b hfailure, length_thenLine,
    Scan.prepend, Scan.shift, ReadingState.read_of_passes hp, Recognition.records_prepend,
    ReadingState.records_read_between, hstart, ReadingState.read_shift, Recognition.records_shift,
    imports, Recognition.of_eq, Scan.recognition]
  generalize Except.mapError _ _ = outcome
  rcases outcome with e | Rb
  · rfl
  · rw [List.map_append]
    exact congrArg Except.ok (List.append_assoc ..).symm

/-- **Texts are scanned and read line by line.**  After a text without lexical fault, what is in the
next line has the tokens and the lexical error that it has alone, and after a text without faults it
has the same records after those in front, or the same error. -/
theorem thenLine_compositional (a b : SourceText) (skip : Bool) :
    ((a.scan ⟨skip⟩).failure = none →
      ((a.thenLine b).scan ⟨skip⟩).tokens =
        (a.scan ⟨skip⟩).tokens ++ (b.scan ⟨skip⟩).tokens.map (Token.shift (a.length + 1)) ∧
      ((a.thenLine b).scan ⟨skip⟩).failure =
        (b.scan ⟨skip⟩).failure.map (LexicalError.shift (a.length + 1))) ∧
    ∀ g Ra, a.imports ⟨g, skip⟩ = .ok Ra →
      (∀ Rb, b.imports ⟨g, skip⟩ = .ok Rb → (a.thenLine b).imports ⟨g, skip⟩ = .ok (Ra ++ Rb)) ∧
      ∀ e, b.imports ⟨g, skip⟩ = .error e →
        (a.thenLine b).imports ⟨g, skip⟩ = .error (e.shift (a.length + 1)) := by
  refine ⟨fun h => ?_, fun g Ra ha => ⟨fun Rb hb => ?_, fun e hb => ?_⟩⟩
  · rw [scan_thenLine b h]
    exact ⟨rfl, rfl⟩
  · rw [imports_thenLine b ha, hb]
    rfl
  · rw [imports_thenLine b ha, hb]
    rfl

/-- A comment at the end of a line leaves the import in the next one alone. -/
theorem thenLine_of_comment :
    ((ofString "import 'm'; // a").thenLine (ofString "import b from 'n'")).imports ⟨.full, true⟩ =
      .ok ([.sideEffectImport "m"] ++ [.defaultImport "b" "n"]) := by
  have ha : (ofString "import 'm'; // a").imports ⟨.full, true⟩ = .ok [.sideEffectImport "m"] := by
    decide +kernel
  have hb : (ofString "import b from 'n'").imports ⟨.full, true⟩ =
      .ok [.defaultImport "b" "n"] := by decide +kernel
  exact ((thenLine_compositional _ _ true).2 .full _ ha).1 _ hb

end SourceText

end ModuleImports
