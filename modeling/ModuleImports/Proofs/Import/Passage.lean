import ModuleImports.Import.Reader
import ModuleImports.Proofs.Import.Arrow

/-!
# Proofs/Import/Passage — reading as a walk through states

Reading tokens one by one passes from state to state.  `Passes` is that walk, with the records that
start to count on the way, and reading comes to one of two ends: it passes all tokens
(`read_of_passes`), or it stops at the first one that its state refuses (`read_of_refused`).

Two walks along the same terminals go side by side, wherever their tokens stand (`Passes.alike`).
-/

namespace ModuleImports

namespace ReadingState

variable {g : ImportGrammar} {failure : Option LexicalError} {stop : Nat}
  {a b state mid final : ReadingState} {t u : Token} {ts us : List Token}
  {rs ss : List Recognized}

/-- **Tokens take one state to another**, and these records start to count on the way. -/
inductive Passes (g : ImportGrammar) :
    ReadingState → List Token → List Recognized → ReadingState → Prop
  | nil (state : ReadingState) : Passes g state [] [] state
  | cons {state after final : ReadingState} {t : Token} {ts : List Token}
      {rs : List Recognized} : state.next g t = some after → Passes g after ts rs final →
      Passes g state (t :: ts) (state.ended ++ rs) final

theorem Passes.single (h : a.next g t = some b) : Passes g a [t] a.ended b :=
  a.ended.append_nil ▸ .cons h (.nil b)

theorem Passes.append (h : Passes g state ts rs mid) (h' : Passes g mid us ss final) :
    Passes g state (ts ++ us) (rs ++ ss) final := by
  induction h with
  | nil => exact h'
  | cons hnext _ ih => exact (List.append_assoc ..).symm ▸ .cons hnext (ih h')

/-- **Reading goes on from where a walk has led.** -/
theorem read_of_passes (h : Passes g state ts rs mid) (us : List Token) :
    state.read g failure stop (ts ++ us) = (mid.read g failure stop us).prepend rs := by
  induction h with
  | nil => rfl
  | cons hnext _ ih => simp only [List.cons_append, read, hnext, ih, Recognition.prepend_prepend]

theorem read_of_refused (ht : state.next g t = none) (us : List Token) :
    state.read g failure stop (t :: us) = state.refusal g t := by
  simp only [read, ht]

/-- **A walk ends with the tokens, or at a token that cannot come.** -/
theorem passes_or_refused (g : ImportGrammar) (state : ReadingState) (ts : List Token) :
    (∃ rs final, Passes g state ts rs final) ∨
      ∃ before t after rs mid, ts = before ++ t :: after ∧ Passes g state before rs mid ∧
        mid.next g t = none := by
  induction ts generalizing state with
  | nil => exact .inl ⟨[], state, .nil state⟩
  | cons t ts ih =>
    rcases hnext : state.next g t with _ | after
    · exact .inr ⟨[], t, ts, [], state, rfl, .nil state, hnext⟩
    · rcases ih after with ⟨rs, final, hp⟩ | ⟨before, u, rest, rs, mid, rfl, hp, hu⟩
      · exact .inl ⟨_, final, .cons hnext hp⟩
      · exact .inr ⟨t :: before, u, rest, _, mid, rfl, .cons hnext hp, hu⟩

/-! ## What a text has for imports, as a walk -/

/-- **Reading finds no fault** just if the tokens lead between declarations and nothing cut them
short. -/
theorem read_eq_none_iff :
    state.read g failure stop ts = ⟨rs, none⟩ ↔ failure = none ∧
      ∃ passed ended, Passes g state ts passed (.between ended) ∧ rs = passed ++ ended := by
  constructor
  · intro h
    rcases passes_or_refused g state ts with ⟨passed, final, hp⟩ | ⟨before, t, after, passed, mid,
      rfl, hp, ht⟩
    · rw [← ts.append_nil, read_of_passes hp] at h
      rcases failure with _ | e
      · rcases final with ended | ⟨place, stage⟩
        · exact ⟨rfl, passed, ended, hp, (congrArg Recognition.recognized h).symm⟩
        · exact absurd (congrArg Recognition.failure h) (Option.some_ne_none _)
      · exact absurd (congrArg Recognition.failure h) (Option.some_ne_none _)
    · rw [read_of_passes hp, read_of_refused ht] at h
      exact absurd (congrArg Recognition.failure h) (Option.some_ne_none _)
  · rintro ⟨rfl, passed, ended, hp, rfl⟩
    rw [← ts.append_nil, read_of_passes hp]
    rfl

end ReadingState

/-- The records of a text without faults. -/
theorem SourceText.imports_eq_ok_iff (source : SourceText) (options : ImportOptions)
    (records : List ImportRecord) :
    source.imports options = .ok records ↔ (source.scan options.scanOptions).failure = none ∧
      ∃ passed ended, ReadingState.Passes options.grammar (.between [])
        (source.scan options.scanOptions).tokens passed (.between ended) ∧
        records = (passed ++ ended).map Recognized.record := by
  rw [imports, Recognition.of_eq, Scan.recognition]
  constructor
  · intro h
    generalize hr : ReadingState.read _ _ _ _ _ = r at h
    rcases r with ⟨rs, _ | e⟩
    · obtain ⟨hfail, passed, ended, hp, rfl⟩ := ReadingState.read_eq_none_iff.1 hr
      exact ⟨hfail, passed, ended, hp, (Except.ok.inj h).symm⟩
    · simp [Recognition.records] at h
  · rintro ⟨hfail, passed, ended, hp, rfl⟩
    rw [ReadingState.read_eq_none_iff.2 ⟨hfail, passed, ended, hp, rfl⟩]
    rfl

namespace ReadingState

variable {g : ImportGrammar} {a b state mid final : ReadingState} {t u : Token}
  {ts us : List Token} {rs ss : List Recognized}

/-! ## Walks side by side -/

/-- The same state, but for places. -/
inductive Alike : ReadingState → ReadingState → Prop
  | between {rs ss : List Recognized} : rs.map Recognized.record = ss.map Recognized.record →
      Alike (.between rs) (.between ss)
  | within (p q : Nat) (stage : Stage) : Alike (.within p stage) (.within q stage)

theorem Alike.map_ended (h : Alike a b) :
    a.ended.map Recognized.record = b.ended.map Recognized.record := by
  rcases h with h | _
  · exact h
  · rfl

theorem Alike.expected (h : Alike a b) (g : ImportGrammar) : a.expected g = b.expected g := by
  rcases h with _ | _ <;> rfl

/-- Alike states make alike of two occurrences of one terminal. -/
theorem Alike.next (h : Alike a b) (ht : t.terminal = u.terminal) (g : ImportGrammar) :
    Option.Rel Alike (a.next g t) (b.next g u) := by
  rcases h with _ | ⟨p, q, stage⟩
  · have his : t.is .keyword "import" = u.is .keyword "import" := by
      rw [Bool.eq_iff_iff, Token.is_iff, Token.is_iff, ht]
    simp only [ReadingState.next, his]
    split
    · exact .some (.within _ _ _)
    · exact .some (.between rfl)
  · simp only [ReadingState.next, Stage.next_congr ht]
    split
    · exact .some (.within _ _ _)
    · exact .some (.between (by simp))
    · exact .some (.between rfl)
    · exact .none

/-- **Alike states walk side by side** along the same terminals. -/
theorem Passes.alike (hp : Passes g a ts rs final) (h : Alike a b)
    (ht : ts.map Token.terminal = us.map Token.terminal) :
    ∃ ss final', Passes g b us ss final' ∧ Alike final final' ∧
      rs.map Recognized.record = ss.map Recognized.record := by
  induction hp generalizing b us with
  | nil =>
    obtain rfl := List.map_eq_nil_iff.1 ht.symm
    exact ⟨[], b, .nil b, h, rfl⟩
  | cons hnext _ ih =>
    obtain ⟨u, us, rfl, hu, hus⟩ := List.map_eq_cons_iff.1 ht.symm
    have hrel := h.next hu.symm g
    rw [hnext] at hrel
    generalize hb : b.next g u = after at hrel
    obtain ⟨hafter⟩ := hrel
    obtain ⟨ss, final', hp', hfinal, hrs⟩ := ih hafter hus.symm
    refine ⟨_, final', .cons hb hp', hfinal, ?_⟩
    rw [List.map_append, List.map_append, h.map_ended, hrs]

/-- Alike states refuse the same terminals. -/
theorem Alike.next_eq_none (h : Alike a b) (ht : t.terminal = u.terminal)
    (ha : a.next g t = none) : b.next g u = none := by
  have hrel := h.next ht g
  rw [ha] at hrel
  generalize b.next g u = after at hrel ⊢
  rcases hrel with _ | _
  rfl

end ReadingState

end ModuleImports
