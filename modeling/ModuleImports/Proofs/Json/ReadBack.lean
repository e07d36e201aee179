import ModuleImports.Json.Reader
import ModuleImports.Json.Writer
import ModuleImports.Proofs.Lexeme.NumeralForm

/-!
# Proofs/Json/ReadBack — a written document is read back

A document is its **pieces** in a row, and both layouts write just these, with blanks between them:
`writes_compact` and `writes_spreadAt` say that cutting the written form gives them back, whatever
comes after it.  `run?_pieces` says that the machine makes the document of its pieces again, in the
middle of other documents too.  Hence `read?_toCompactString` and `read?_toSpreadString_append`.

The numbers of the document have to be well formed (`WellFormed`).  Every string can be written.
-/

namespace ModuleImports.Json

open Vocabulary

/-- All numbers in a document are as they may be written. -/
inductive WellFormed : Json → Prop where
  | null : WellFormed null
  | bool (b : Bool) : WellFormed (bool b)
  | number {n : Numeral} (h : n.WellFormed) : WellFormed (number n)
  | string (s : Option String) : WellFormed (string s)
  | array {vs : List Json} (h : ∀ v ∈ vs, WellFormed v) : WellFormed (array vs)
  | object {ms : List (Option String × Json)} (h : ∀ m ∈ ms, WellFormed m.2) :
    WellFormed (object ms)

/-! ## The pieces of a document -/

mutual

/-- **The pieces of a document.** -/
def pieces : Json → List Piece
  | .array items => .openArray :: piecesOfItems items ++ [.closeArray]
  | .object members => .openObject :: piecesOfMembers members ++ [.closeObject]
  | .null => [.scalar .null]
  | .bool b => [.scalar (.bool b)]
  | .number n => [.scalar (.number n)]
  | .string s => [.scalar (.string s)]
termination_by structural v => v

/-- The pieces of items with commas between them. -/
def piecesOfItems : List Json → List Piece
  | [] => []
  | [v] => v.pieces
  | v :: w :: vs => v.pieces ++ .comma :: piecesOfItems (w :: vs)
termination_by structural vs => vs

/-- The pieces of members with commas between them. -/
def piecesOfMembers : List (Option String × Json) → List Piece
  | [] => []
  | [(k, v)] => .scalar (.string k) :: .colon :: v.pieces
  | (k, v) :: m :: ms =>
    .scalar (.string k) :: .colon :: v.pieces ++ .comma :: piecesOfMembers (m :: ms)
termination_by structural ms => ms

end

/-! ## Cutting a text into pieces -/

section Pieces

variable {found : List Piece} {c : Char} {cs cs' rest : List Char} {p : Piece} {ps ps' : List Piece}

theorem piecesOnto?_eq_map (found : List Piece) (cs : List Char) :
    piecesOnto? found cs = (pieces? cs).map (found.reverse ++ ·) := by
  induction hn : cs.length using Nat.strongRecOn generalizing cs found with
  | _ n ih =>
    rcases cs with _ | ⟨c, cs⟩
    · simp [pieces?, piecesOnto?]
    · rw [pieces?, piecesOnto?, piecesOnto?]
      split
      · rw [ih _ (by simp [← hn]) found cs rfl, ih _ (by simp [← hn]) [] cs rfl]
        simp
      · split
        · next p k _ =>
          have hlt : (cs.drop (k - 1)).length < n := by
            rw [← hn, List.length_drop, List.length_cons]
            omega
          rw [ih _ hlt (p :: found) _ rfl, ih _ hlt [p] _ rfl]
          simp [Function.comp_def]
        · rfl

theorem pieces?_cons_of_isSpace (hc : isSpace c = true) : pieces? (c :: cs) = pieces? cs := by
  rw [pieces?, piecesOnto?, if_pos hc, pieces?]

theorem pieces?_cons_of_piece? (hc : isSpace c = false)
    (hp : piece? c (cs ++ rest) = some (p, cs.length + 1)) :
    pieces? (c :: (cs ++ rest)) = (pieces? rest).map (p :: ·) := by
  rw [pieces?, piecesOnto?, if_neg (by simp [hc]), hp]
  dsimp only
  rw [piecesOnto?_eq_map, Nat.add_sub_cancel, List.drop_left]
  rfl

/-- Whether a numeral can go on with a character. -/
def continuesNumeral (c : Char) : Bool := c.isDigit || c == '.' || isExponentMark c

theorem continuesNumeral_of_isSpace (hc : isSpace c = true) : continuesNumeral c = false := by
  simp only [isSpace, Bool.or_eq_true, beq_iff_eq] at hc
  rcases hc with ((rfl | rfl) | rfl) | rfl <;> rfl

/-- **The text gives the pieces**, whatever comes after it, unless a numeral could go on there. -/
def Writes (cs : List Char) (ps : List Piece) : Prop :=
  ∀ rest, Stops continuesNumeral rest → pieces? (cs ++ rest) = (pieces? rest).map (ps ++ ·)

namespace Writes

theorem nil : Writes [] [] := by
  intro rest _
  simp

theorem append (h : Writes cs ps) (h' : Writes cs' ps') (hstop : Stops continuesNumeral cs') :
    Writes (cs ++ cs') (ps ++ ps') := by
  intro rest hrest
  rw [List.append_assoc, h _ ((stops_append_iff hrest cs').2 hstop), h' _ hrest, Option.map_map]
  simp [Function.comp_def]

/-- Blanks are no pieces. -/
theorem blanks_append (hcs : ∀ c ∈ cs, isSpace c = true) (h : Writes cs' ps) :
    Writes (cs ++ cs') ps := by
  induction cs with
  | nil => exact h
  | cons c cs ih =>
    obtain ⟨hc, hcs⟩ := List.forall_mem_cons.1 hcs
    intro rest hrest
    rw [List.cons_append, List.cons_append, pieces?_cons_of_isSpace hc]
    exact ih hcs rest hrest

theorem append_blanks (h : Writes cs ps) (hcs' : ∀ c ∈ cs', isSpace c = true) :
    Writes (cs ++ cs') ps := by
  have hstops : Stops continuesNumeral cs' := fun c hc =>
    continuesNumeral_of_isSpace (hcs' c (List.mem_of_mem_head? hc))
  have hnothing := nil.blanks_append hcs'
  rw [List.append_nil] at hnothing
  simpa using h.append hnothing hstops

/-- A structural character is a piece in front of anything. -/
theorem mark_cons (hc : isSpace c = false) (hp : ∀ cs, piece? c cs = some (p, 1))
    (h : Writes cs ps) : Writes (c :: cs) (p :: ps) := by
  intro rest hrest
  have hcut : pieces? (c :: ([] ++ (cs ++ rest))) = (pieces? (cs ++ rest)).map (p :: ·) :=
    pieces?_cons_of_piece? hc (hp _)
  rw [List.nil_append] at hcut
  rw [List.cons_append, hcut, h rest hrest, Option.map_map]
  rfl

/-- Structural characters around what they enclose. -/
theorem enclosed {d : Char} {q : Piece} (hc : isSpace c = false)
    (hp : ∀ cs, piece? c cs = some (p, 1)) (hd : isSpace d = false)
    (hq : ∀ cs, piece? d cs = some (q, 1)) (hstops : continuesNumeral d = false)
    (h : Writes cs ps) : Writes (c :: cs ++ [d]) (p :: ps ++ [q]) :=
  (h.mark_cons hc hp).append (nil.mark_cons hd hq) (stops_cons.2 hstops)

theorem comma (h : Writes cs ps) (h' : Writes cs' ps') :
    Writes (cs ++ ',' :: cs') (ps ++ .comma :: ps') :=
  h.append (h'.mark_cons rfl fun _ => rfl) (stops_cons.2 rfl)

theorem colon (h : Writes cs ps) (h' : Writes cs' ps') :
    Writes (cs ++ ':' :: cs') (ps ++ .colon :: ps') :=
  h.append (h'.mark_cons rfl fun _ => rfl) (stops_cons.2 rfl)

theorem inBrackets (h : Writes cs ps) :
    Writes ('[' :: cs ++ [']']) (.openArray :: ps ++ [.closeArray]) :=
  h.enclosed rfl (fun _ => rfl) rfl (fun _ => rfl) rfl

theorem inBraces (h : Writes cs ps) :
    Writes ('{' :: cs ++ ['}']) (.openObject :: ps ++ [.closeObject]) :=
  h.enclosed rfl (fun _ => rfl) rfl (fun _ => rfl) rfl

/-- A piece by itself. -/
theorem single (hc : isSpace c = false)
    (hp : ∀ rest, Stops continuesNumeral rest → piece? c (cs ++ rest) = some (p, cs.length + 1)) :
    Writes (c :: cs) [p] := fun rest hrest => pieces?_cons_of_piece? hc (hp rest hrest)

end Writes

end Pieces

/-! ## Scalars -/

section Scalars

variable {c : Char} {cs rest : List Char} {n : Numeral}

theorem hexDigits_of_lt : ∀ code < 0x20,
    ['0', '0', hexDigit (code / 16), hexDigit (code % 16)].all isHexDigit = true ∧
      hexValue ['0', '0', hexDigit (code / 16), hexDigit (code % 16)] = code := by decide

theorem readUnits_writeChar (units : List Nat) (n : Nat) (c : Char) (cs : List Char) :
    readUnits units n (writeChar c ++ cs) =
      readUnits (c.toNat :: units) (n + (writeChar c).length) cs := by
  unfold writeChar
  split
  iterate 7 rfl
  next hquote hbackslash _ _ _ _ _ =>
    split
    · next hlow =>
      obtain ⟨hall, hvalue⟩ := hexDigits_of_lt c.toNat hlow
      simp only [List.cons_append, List.nil_append]
      rw [readUnits, if_pos hall, hvalue]
      rfl
    · next hlow =>
      rw [List.singleton_append, readUnits, if_neg (not_or.2 ⟨hbackslash, hlow⟩)]
      · rfl
      · exact hquote
      · exact fun _ _ _ _ _ hc _ => hbackslash hc
      · exact fun _ _ hc _ => hbackslash hc

/-- **A written text is read as its code points.** -/
theorem readUnits_flatMap_writeChar (units : List Nat) (n : Nat) (cs rest : List Char) :
    readUnits units n (cs.flatMap writeChar ++ '"' :: rest) =
      some (units.reverse ++ cs.map Char.toNat, n + (cs.flatMap writeChar).length + 1) := by
  induction cs generalizing units n with
  | nil => simp [readUnits]
  | cons c cs ih =>
    rw [List.flatMap_cons, List.append_assoc, readUnits_writeChar, ih]
    simp [Nat.add_assoc]

theorem piece?_quote (cs : List Char) : piece? '"' cs = (readUnits [] 1 cs).map fun (units, n) =>
    (.scalar (.string ((CodePoint.decode? units).map String.ofList)), n) := by
  rw [piece?]

theorem writes_writeString (s : Option String) : Writes (writeString s) [.scalar (.string s)] := by
  rcases s with _ | s
  · exact .single rfl fun rest _ => rfl
  · have hwritten : writeString (some s) = '"' :: (s.toList.flatMap writeChar ++ ['"']) := rfl
    rw [hwritten]
    refine .single rfl fun rest _ => ?_
    rw [List.append_assoc, List.singleton_append, piece?_quote, readUnits_flatMap_writeChar]
    simp [CodePoint.decode?_map_toNat, Nat.add_comm]

theorem Stops.endsBefore (h : Stops continuesNumeral cs) (n : Numeral) : n.EndsBefore cs := by
  rcases cs with _ | ⟨c, cs⟩
  · exact ⟨by simp, by simp, by simp⟩
  · simp only [stops_cons, continuesNumeral, Bool.or_eq_false_iff] at h
    exact ⟨by simp [h], by simp [h], by simp [h]⟩

/-- What starts as a numeral is one or nothing. -/
theorem piece?_of_numeral (hc : c.isDigit = true ∨ c = '-' ∧ (cs.head?).any Char.isDigit = true)
    (h : Numeral.read (c :: cs) = .ok n) :
    piece? c cs = some (.scalar (.number n), n.spelling.length) := by
  unfold piece?
  split
  case h_11 => rw [if_pos hc, h]
  all_goals exact absurd hc (by simp)

theorem isSpace_of_isDigit (hc : c.isDigit = true) : isSpace c = false := by
  rw [Bool.eq_false_iff]
  intro hspace
  simpa [continuesNumeral, hc] using continuesNumeral_of_isSpace hspace

theorem writes_spelling (hn : n.WellFormed) : Writes n.spelling [.scalar (.number n)] := by
  rcases hspelling : n.spelling with _ | ⟨c, cs⟩
  · exact absurd hspelling (by simp [Numeral.spelling, hn.whole.1])
  have hstart (rest : List Char) := hn.start (congrArg (· ++ rest) hspelling)
  have hc : isSpace c = false := by
    rcases hstart [] with ⟨rfl, -⟩ | hdigit
    · rfl
    · exact isSpace_of_isDigit hdigit
  refine .single hc fun rest hrest => ?_
  have hread : Numeral.read (c :: (cs ++ rest)) = .ok n :=
    (Numeral.read_eq_ok_iff (hstart rest)).2
      ⟨hn, rest, (congrArg (· ++ rest) hspelling).symm, Stops.endsBefore hrest n⟩
  rw [piece?_of_numeral _ hread, hspelling, List.length_cons]
  rcases hstart rest with ⟨rfl, hdigit⟩ | hdigit
  · exact .inr ⟨rfl, Numeral.head?_any_iff.2 hdigit⟩
  · exact .inl hdigit

theorem writes_writeBool (b : Bool) : Writes (writeBool b) [.scalar (.bool b)] := by
  cases b <;> exact .single rfl fun _ _ => rfl

theorem writes_null : Writes "null".toList [.scalar .null] := .single rfl fun _ _ => rfl

end Scalars

/-! ## The two layouts -/

section Layouts

variable {v : Json} {vs : List Json} {ms : List (Option String × Json)}

theorem writes_compactItems (h : ∀ v ∈ vs, Writes v.compact v.pieces) :
    Writes (compactItems vs) (piecesOfItems vs) := by
  induction vs with
  | nil => exact .nil
  | cons v vs ih =>
    obtain ⟨hv, hvs⟩ := List.forall_mem_cons.1 h
    rcases vs with _ | ⟨w, vs⟩
    · exact hv
    · exact hv.comma (ih hvs)

theorem writes_compactMembers (h : ∀ m ∈ ms, Writes m.2.compact m.2.pieces) :
    Writes (compactMembers ms) (piecesOfMembers ms) := by
  induction ms with
  | nil => exact .nil
  | cons m ms ih =>
    obtain ⟨hm, hms⟩ := List.forall_mem_cons.1 h
    obtain ⟨k, v⟩ := m
    have hmember : Writes (writeString k ++ ':' :: v.compact)
        (.scalar (.string k) :: .colon :: v.pieces) :=
      (writes_writeString k).colon hm
    rcases ms with _ | ⟨m, ms⟩
    · exact hmember
    · exact hmember.comma (ih hms)

/-- **The compact form is the pieces of the document.** -/
theorem writes_compact (h : v.WellFormed) : Writes v.compact v.pieces := by
  induction h with
  | null => exact writes_null
  | bool b => exact writes_writeBool b
  | number hn => exact writes_spelling hn
  | string s => exact writes_writeString s
  | array _ ih => exact (writes_compactItems ih).inBrackets
  | object _ ih => exact (writes_compactMembers ih).inBraces

theorem isSpace_of_mem_newLine {depth : Nat} {c : Char} (h : c ∈ newLine depth) :
    isSpace c = true := by
  rcases List.mem_cons.1 h with rfl | h
  · rfl
  · rw [List.eq_of_mem_replicate h]
    rfl

/-- A new line is not seen. -/
theorem Writes.newLine_append (depth : Nat) {cs : List Char} {ps : List Piece} (h : Writes cs ps) :
    Writes (newLine depth ++ cs) ps := h.blanks_append fun _ => isSpace_of_mem_newLine

theorem writes_spreadItems {depth : Nat} (h : ∀ v ∈ vs, Writes (v.spreadAt depth) v.pieces) :
    Writes (spreadItems depth vs) (piecesOfItems vs) := by
  induction vs with
  | nil => exact .nil
  | cons v vs ih =>
    obtain ⟨hv, hvs⟩ := List.forall_mem_cons.1 h
    rcases vs with _ | ⟨w, vs⟩
    · exact hv.newLine_append depth
    · exact (hv.newLine_append depth).comma (ih hvs)

theorem writes_spreadMembers {depth : Nat}
    (h : ∀ m ∈ ms, Writes (m.2.spreadAt depth) m.2.pieces) :
    Writes (spreadMembers depth ms) (piecesOfMembers ms) := by
  induction ms with
  | nil => exact .nil
  | cons m ms ih =>
    obtain ⟨hm, hms⟩ := List.forall_mem_cons.1 h
    obtain ⟨k, v⟩ := m
    have hvalue : Writes ([' '] ++ v.spreadAt depth) v.pieces :=
      hm.blanks_append (by simp [isSpace])
    have hmember : Writes (newLine depth ++ writeString k ++ ':' :: ' ' :: v.spreadAt depth)
        (.scalar (.string k) :: .colon :: v.pieces) :=
      ((writes_writeString k).newLine_append depth).colon hvalue
    rcases ms with _ | ⟨m, ms⟩
    · exact hmember
    · exact hmember.comma (ih hms)

/-- **The spread form is the pieces of the document**, however far in it starts. -/
theorem writes_spreadAt (h : v.WellFormed) (depth : Nat) : Writes (v.spreadAt depth) v.pieces := by
  induction h generalizing depth with
  | null => exact writes_null
  | bool b => exact writes_writeBool b
  | number hn => exact writes_spelling hn
  | string s => exact writes_writeString s
  | @array vs _ ih =>
    rcases vs with _ | ⟨v, vs⟩
    · exact Writes.nil.inBrackets
    · have hitems := writes_spreadItems fun v hv => ih v hv (depth + 1)
      exact (hitems.append_blanks fun _ => isSpace_of_mem_newLine).inBrackets
  | @object ms _ ih =>
    rcases ms with _ | ⟨m, ms⟩
    · exact Writes.nil.inBraces
    · have hmembers := writes_spreadMembers fun m hm => ih m hm (depth + 1)
      exact (hmembers.append_blanks fun _ => isSpace_of_mem_newLine).inBraces

end Layouts

/-! ## The machine makes the document again -/

section Machine

open ReadState

variable {frames : List Frame} {v : Json} {vs : List Json} {ms : List (Option String × Json)}
  {ps : List Piece}

/-- In front of a document, an array that has just been opened is like one that goes on. -/
theorem run?_firstItem (v : Json) (frames : List Frame) (ps : List Piece) :
    (firstItem frames).run? (v.pieces ++ ps) =
      (value (.items [] :: frames)).run? (v.pieces ++ ps) := by
  cases v <;> rfl

theorem run?_piecesOfItems (done : List Json)
    (h : ∀ w ∈ v :: vs, ∀ frames ps, (value frames).run? (w.pieces ++ ps) =
      (after frames w).run? ps) :
    (value (.items done :: frames)).run? (piecesOfItems (v :: vs) ++ .closeArray :: ps) =
      (after frames (.array (done.reverse ++ v :: vs))).run? ps := by
  induction vs generalizing done v with
  | nil =>
    rw [piecesOfItems, h v List.mem_cons_self, run?, next?]
    simp
  | cons w vs ih =>
    obtain ⟨hv, hvs⟩ := List.forall_mem_cons.1 h
    rw [piecesOfItems, List.append_assoc, hv, List.cons_append, run?, next?]
    dsimp only
    rw [ih (v :: done) hvs]
    simp

theorem run?_piecesOfMembers {m : Option String × Json} (done : List (Option String × Json))
    (h : ∀ m' ∈ m :: ms, ∀ frames ps, (value frames).run? (m'.2.pieces ++ ps) =
      (after frames m'.2).run? ps) :
    (nextName frames done).run? (piecesOfMembers (m :: ms) ++ .closeObject :: ps) =
      (after frames (.object (done.reverse ++ m :: ms))).run? ps := by
  induction ms generalizing done m with
  | nil =>
    obtain ⟨k, v⟩ := m
    simp only [piecesOfMembers, List.cons_append, run?, next?]
    rw [h (k, v) List.mem_cons_self, run?, next?]
    simp
  | cons m' ms ih =>
    obtain ⟨hm, hms⟩ := List.forall_mem_cons.1 h
    obtain ⟨k, v⟩ := m
    simp only [piecesOfMembers, List.cons_append, List.append_assoc, run?, next?]
    rw [hm, run?, next?]
    dsimp only
    rw [ih ((k, v) :: done) hms]
    simp

/-- **The pieces of a document take the machine past it**, whatever is open. -/
theorem run?_pieces (h : v.WellFormed) (frames : List Frame) (ps : List Piece) :
    (value frames).run? (v.pieces ++ ps) = (after frames v).run? ps := by
  induction h generalizing frames ps with
  | null | bool | number | string => rfl
  | @array vs _ ih =>
    simp only [pieces, List.cons_append, List.append_assoc, List.nil_append, run?, next?, start?]
    rcases vs with _ | ⟨v, vs⟩
    · rfl
    · have hfirst : (firstItem frames).run? (piecesOfItems (v :: vs) ++ .closeArray :: ps) =
          (value (.items [] :: frames)).run? (piecesOfItems (v :: vs) ++ .closeArray :: ps) := by
        rcases vs with _ | ⟨w, vs⟩
        · exact run?_firstItem v frames _
        · rw [piecesOfItems, List.append_assoc]
          exact run?_firstItem v frames _
      exact hfirst.trans (run?_piecesOfItems [] ih)
  | @object ms _ ih =>
    simp only [pieces, List.cons_append, List.append_assoc, List.nil_append, run?, next?, start?]
    rcases ms with _ | ⟨⟨k, v⟩, ms⟩
    · rfl
    · have hfirst : (firstName frames).run? (piecesOfMembers ((k, v) :: ms) ++ .closeObject :: ps) =
          (nextName frames []).run? (piecesOfMembers ((k, v) :: ms) ++ .closeObject :: ps) := by
        cases ms <;> rfl
      exact hfirst.trans (run?_piecesOfMembers [] ih)

end Machine

/-! ## The whole way -/

section ReadBack

variable {v : Json}

/-- A text that gives the pieces of a document is read as it. -/
theorem read?_of_writes {cs : List Char} (h : v.WellFormed) (hcs : Writes cs v.pieces) :
    read? (String.ofList cs) = some v := by
  have hcut := hcs [] stops_nil
  have hrun := run?_pieces h [] []
  rw [List.append_nil] at hcut hrun
  rw [read?, String.toList_ofList, hcut]
  simp [pieces?, piecesOnto?, hrun, ReadState.run?, ReadState.result?]

/-- **The compact form of a document is read as it.** -/
theorem read?_toCompactString (h : v.WellFormed) : read? v.toCompactString = some v :=
  read?_of_writes h (writes_compact h)

/-- **The spread form of a document is read as it**, also if the line is ended. -/
theorem read?_toSpreadString_lineFeed (h : v.WellFormed) :
    read? (v.toSpreadString ++ "\n") = some v := by
  have hline : ∀ c ∈ ['\n'], isSpace c = true := by simp [isSpace]
  have hread := read?_of_writes h ((writes_spreadAt h 0).append_blanks hline)
  rwa [String.ofList_append] at hread

end ReadBack

end ModuleImports.Json
