import ModuleImports.Json.Standard
import ModuleImports.Proofs.Json.Library
import ModuleImports.Proofs.Json.ReadBack

/-!
# Proofs/Json/Standard — the library that runs keeps what is promised

Each promise of `JsonLibrary.Documented` is one lemma here about the codec, the naming rule or the
layout that it is about; `JsonLibrary.standard_documented` puts them together.
-/

namespace ModuleImports

namespace Json

/-! ## Documents of texts -/

section Documents

variable {v : Json} {vs : List Json} {ms : List (Option String × Json)} {depth : Nat}

theorem fitsIn_array_iff :
    (array vs).fitsIn (depth + 1) = true ↔ ∀ v ∈ vs, v.fitsIn depth = true := by
  have hitems : itemsFitIn depth vs = true ↔ ∀ v ∈ vs, v.fitsIn depth = true := by
    induction vs with
    | nil => simp [itemsFitIn]
    | cons v vs ih => simp [itemsFitIn, ih]
  simp [fitsIn, hitems]

theorem fitsIn_object_iff : (object ms).fitsIn (depth + 1) = true ↔
    ∀ m ∈ ms, m.1.isSome = true ∧ m.2.fitsIn depth = true := by
  have hmembers : membersFitIn depth ms = true ↔
      ∀ m ∈ ms, m.1.isSome = true ∧ m.2.fitsIn depth = true := by
    induction ms with
    | nil => simp [membersFitIn]
    | cons m ms ih => simp [membersFitIn, ih, and_assoc]
  simp [fitsIn, hmembers]

theorem IsTextual.wellFormed (h : v.IsTextual depth) : v.WellFormed := by
  induction h with
  | null => exact .null
  | bool b => exact .bool b
  | string s => exact .string _
  | array _ ih => exact .array ih
  | object _ _ ih => exact .object ih

theorem IsTextual.fitsIn (h : v.IsTextual depth) : v.fitsIn depth = true := by
  induction h with
  | null | bool | string => rfl
  | array _ ih => exact fitsIn_array_iff.2 ih
  | object hnames _ ih => exact fitsIn_object_iff.2 fun m hm => ⟨hnames m hm, ih m hm⟩

end Documents

/-! ## Names -/

section Names

variable {c : Char} {cs : List Char}

theorem ne_mark_of_isLower (h : c.isLower = true) : c ≠ '_' := by
  rintro rfl
  exact absurd h (by decide)

theorem joinWords_cons (hc : c ≠ '_') (startsWord : Bool) (cs : List Char) :
    joinWords startsWord (c :: cs) =
      (if startsWord then c.toUpper else c) :: joinWords false cs := by
  rw [joinWords]
  exact hc

theorem joinWords_eq_self (h : ∀ c ∈ cs, c.isLower = true) : joinWords false cs = cs := by
  induction cs with
  | nil => rfl
  | cons c cs ih =>
    obtain ⟨hc, hcs⟩ := List.forall_mem_cons.1 h
    rw [joinWords_cons (ne_mark_of_isLower hc), ih hcs]
    rfl

theorem joinWords_append (startsWord : Bool) (cs ds : List Char) :
    joinWords startsWord (cs ++ '_' :: ds) = joinWords startsWord cs ++ joinWords true ds := by
  induction cs generalizing startsWord with
  | nil => rfl
  | cons c cs ih =>
    by_cases hc : c = '_'
    · subst hc
      exact ih true
    · rw [List.cons_append, joinWords_cons hc, joinWords_cons hc, ih, List.cons_append]

theorem fieldName_camelCase_words (words : String) (c : Char) (cs : List Char)
    (h : ∀ d ∈ c :: cs, d.isLower = true) :
    NameRule.camelCase.fieldName (words ++ String.ofList ('_' :: c :: cs)) =
      NameRule.camelCase.fieldName words ++ String.ofList (c.toUpper :: cs) := by
  obtain ⟨hc, hcs⟩ := List.forall_mem_cons.1 h
  simp only [NameRule.fieldName, String.toList_append, String.toList_ofList]
  rw [joinWords_append, joinWords_cons (ne_mark_of_isLower hc), if_pos rfl, joinWords_eq_self hcs,
    String.ofList_append]

end Names

/-! ## Fields and lists -/

section Fields

variable {α β : Type} {key : String} {rename : String → String}
  {ms : List (Option String × Json)}

theorem Field.ofMembers?_eq_some_iff {f : Field α} {a : α} :
    f.ofMembers? key ms = some a ↔ f.Finds key ms a := by
  rw [Field.ofMembers?]
  constructor
  · intro h
    split at h
    · next hnone => exact .absent hnone h
    · next hmember => exact .there hmember h
    · exact absurd h (by simp)
  · rintro (⟨hmember, hread⟩ | ⟨hnone, habsent⟩)
    · rw [hmember]
      exact hread
    · rw [hnone]
      exact habsent

theorem Fields.ofMembers?_eq_some_iff {fs : Fields β} {b : β} :
    fs.ofMembers? rename ms = some b ↔ fs.Find rename ms b := by
  induction fs with
  | nil => simp [ofMembers?, Find]
  | cons f fs ih =>
    obtain ⟨a, b⟩ := b
    simp only [ofMembers?, Find, ← ih, ← Field.ofMembers?_eq_some_iff]
    rcases f.ofMembers? (rename f.name) ms with _ | _ <;>
      rcases fs.ofMembers? rename ms with _ | _ <;> simp

theorem bool?_eq_some {v : Json} {b : Bool} (h : v.bool? = some b) : v = .bool b := by
  cases v with
  | bool b' => exact congrArg Json.bool (Option.some.inj h)
  | _ => cases h

theorem listCodec_read?_array {c : Codec α} {as : List α} {vs : List Json}
    (h : List.Forall₂ (fun a v => c.read? v = some a) as vs) :
    (listCodec c).read? (.array vs) = some as := by
  change vs.mapM c.read? = some as
  induction h with
  | nil => rfl
  | cons hv _ ih => simp [List.mapM_cons, hv, ih]

end Fields

/-! ## Records and unions -/

section Shapes

variable {α : Type} {ms : List (Option String × Json)}

theorem RecordShape.codec_read?_object_iff {shape : RecordShape α} {a : α} :
    shape.codec.read? (.object ms) = some a ↔ namesAreText ms = true ∧
      ∃ values, shape.fields.Find shape.rule.fieldName ms values ∧ shape.make values = a := by
  simp only [RecordShape.codec, Option.ite_none_right_eq_some, Option.map_eq_some_iff,
    Fields.ofMembers?_eq_some_iff]

theorem ChoiceShape.eq_of_codec_read? {shape : ChoiceShape α} {v : Json} {a : α}
    (h : shape.codec.read? v = some a) :
    ∃ name, v = .ofString name ∨ v = .object [(some name, .null)] := by
  simp only [ChoiceShape.codec] at h
  split at h
  · obtain ⟨name, rfl, -⟩ := Option.bind_eq_some_iff.1 h
    exact ⟨name, .inl rfl⟩
  · obtain ⟨name, rfl, -⟩ := Option.bind_eq_some_iff.1 h
    exact ⟨name, .inr rfl⟩
  · exact absurd h (by simp)

/-- Names without repetition tell what they name. -/
theorem find?_eq_some_of_nodup {ι : Type 1} {name : ι → String} {x : ι} {xs : List ι}
    (hnames : (xs.map name).Nodup) (hx : x ∈ xs) : xs.find? (name · == name x) = some x := by
  induction xs with
  | nil => exact absurd hx List.not_mem_nil
  | cons y ys ih =>
    obtain ⟨hy, hys⟩ := List.nodup_cons.1 hnames
    rcases List.mem_cons.1 hx with rfl | hx
    · exact List.find?_cons_of_pos (beq_self_eq_true _)
    · have hne : name y ≠ name x := fun heq => hy (heq ▸ List.mem_map_of_mem hx)
      rw [List.find?_cons_of_neg (by simpa using hne), ih hys hx]

theorem UnionShape.codec_read?_object {shape : UnionShape α}
    (hnames : (shape.forms.map shape.nameOf).Nodup) {form : UnionForm α}
    (hform : form ∈ shape.forms) (hheld : (object ms).canBeHeld = true)
    (htag : membersNamed shape.tag ms = [.ofString (shape.nameOf form)]) {values : form.Values}
    (hfind : form.fields.Find NameRule.asDeclared.fieldName ms values) :
    shape.codec.read? (.object ms) = some (form.make values) := by
  have hformOf : shape.formOf? ms = some form := by
    rw [formOf?, htag]
    exact find?_eq_some_of_nodup hnames hform
  simp only [UnionShape.codec, if_pos hheld, hformOf, Option.bind_some,
    Fields.ofMembers?_eq_some_iff.2 hfind, Option.map_some]

end Shapes

end Json

open Json

/-- **The library that runs keeps what is promised.** -/
theorem JsonLibrary.standard_documented : JsonLibrary.standard.Documented where
  parse_compact h := ⟨_, rfl, read?_toCompactString h.wellFormed⟩
  parse_pretty h := ⟨_, rfl, read?_toSpreadString_lineFeed h.wellFormed⟩
  fieldName_asDeclared _ := rfl
  fieldName_word c cs h := by
    simp only [standard, NameRule.fieldName, String.toList_ofList,
      joinWords_eq_self (List.all_eq_true.1 h)]
  fieldName_words words c cs _ h := fieldName_camelCase_words words c cs (List.all_eq_true.1 h)
  formName_camelCase c cs _ := by
    simp only [standard, NameRule.formName, String.toList_ofList, lowerFirst]
  bool_read h := bool?_eq_some h
  string_write _ := rfl
  string_read _ := rfl
  option_write_some _ _ := rfl
  option_read_null _ := rfl
  option_read_string _ _ := rfl
  list_write _ _ := rfl
  list_read _ _ _ _ h := listCodec_read?_array h
  record_write _ _ := rfl
  record_read _ _ _ hnames _ _ hfind :=
    RecordShape.codec_read?_object_iff.2 ⟨hnames, _, hfind, rfl⟩
  find_of_record_read _ _ _ _ h := RecordShape.codec_read?_object_iff.1 h
  choice_read _ _ _ h := ChoiceShape.eq_of_codec_read? h
  union_write _ _ := rfl
  union_read _ hnames _ hform _ _ hms htag _ hfind :=
    UnionShape.codec_read?_object hnames hform hms.fitsIn htag hfind

end ModuleImports
