import ModuleImports.Proofs.Command.Lines

/-!
# Proofs/Command/Legibility — a listing of one input shows what it imports

A line starts with a kind in a column of fixed width, which tells the forms of import apart.  Behind
that it is read up to marks that cannot stand in what comes before them: the name that is bound up to
a space, a list up to its closing brace, an entry of it up to a comma, and the name of an entry up to
the end of the word.  The quoted source is the rest, and a quoted text is known by its form.

So two inputs with the same listing have the same records (`listingText_eq_iff`), as long as the
names of all entries are words.  Strings can be exported names too, and what is in them may look like
anything else.
-/

namespace ModuleImports

open Vocabulary

/-! ## Words -/

/-- **A word**: one character or more, each of which a word can have. -/
structure IsWord (s : String) : Prop where
  ne_empty : s ≠ ""
  parts : ∀ c ∈ s.toList, isWordPart c = true

/-- The names that words can be: identifiers, reserved words and operators. -/
def IsWordName (name : String) : Prop :=
  IsIdentifier name ∨ name ∈ keywords ∨ name ∈ wordOperators

theorem IsIdentifier.word {name : String} (h : IsIdentifier name) : IsWord name := by
  obtain ⟨c, cs, rfl, hstart, hcs⟩ := h.isWord
  refine ⟨by simp, ?_⟩
  rw [String.toList_ofList, List.forall_mem_cons]
  exact ⟨isWordPart_iff.2 (hstart.imp_left fun hc => by simp [Char.isAlphanum, hc]),
    fun d hd => isWordPart_iff.2 (hcs d hd)⟩

theorem IsWordName.word {name : String} (h : IsWordName name) : IsWord name := by
  have htables : ∀ s ∈ keywords ++ wordOperators, s ≠ "" ∧ s.toList.all isWordPart = true := by
    decide +kernel
  rcases h with hidentifier | hreserved
  · exact hidentifier.word
  · obtain ⟨hne, hall⟩ := htables name (List.mem_append.2 hreserved)
    exact ⟨hne, List.all_eq_true.1 hall⟩

theorem IsWord.notMem {c : Char} {s : String} (h : IsWord s) (hc : isWordPart c = false) :
    c ∉ s.toList := fun hmem => Bool.false_ne_true (hc.symm.trans (h.parts c hmem))

/-- An entry of words. -/
structure ImportSpecifier.Legible (e : ImportSpecifier) : Prop where
  name : IsWord e.name
  localName : IsWord e.localName

/-- **A record of words**: what it binds are identifiers, and what its entries import are words. -/
structure ImportRecord.Legible (r : ImportRecord) : Prop where
  wellFormed : r.WellFormed
  names : ∀ e ∈ r.entries, IsWord e.name

theorem ImportRecord.Legible.entry {es : List ImportSpecifier} {s : String}
    (h : (ImportRecord.namedImport es s).Legible) : ∀ e ∈ es, e.Legible := fun e he =>
  ⟨h.names e he, (ImportSpecifier.wellFormed_iff.1 (h.wellFormed e he)).word⟩

/-- Lists are the same if their items are known by what they are mapped to. -/
theorem eq_of_map_eq {α β : Type} {f : α → β} {xs ys : List α}
    (hf : ∀ x ∈ xs, ∀ y ∈ ys, f x = f y → x = y) (h : xs.map f = ys.map f) : xs = ys := by
  induction xs generalizing ys with
  | nil => exact (List.map_eq_nil_iff.1 h.symm).symm
  | cons x xs ih =>
    cases ys with
    | nil => exact absurd h (List.cons_ne_nil _ _)
    | cons y ys =>
      obtain ⟨hfirst, hrest⟩ := List.cons.inj h
      have hxs : ∀ x ∈ xs, ∀ y ∈ ys, f x = f y → x = y := fun x hx y hy =>
        hf x (List.mem_cons_of_mem _ hx) y (List.mem_cons_of_mem _ hy)
      rw [hf x List.mem_cons_self y List.mem_cons_self hfirst, ih hxs hrest]

namespace Command

/-! ## The entries of a list -/

section Entries

variable {e e' : ImportSpecifier} {ss ts : List String}

/-- What an entry has behind its name. -/
def aliasText (e : ImportSpecifier) : List Char := e.alias?.elim [] fun a => " as ".toList ++ a.toList

theorem toList_specifierText (e : ImportSpecifier) :
    (specifierText e).toList = e.name.toList ++ aliasText e := by
  rcases e with ⟨name, _ | localName⟩
  · exact (List.append_nil _).symm
  · simp [specifierText, aliasText]

theorem stops_aliasText (e : ImportSpecifier) : Stops isWordPart (aliasText e) := by
  rcases e with ⟨name, _ | localName⟩
  · exact stops_nil
  · exact stops_cons.2 rfl

theorem aliasText_inj (h : aliasText e = aliasText e') : e.alias? = e'.alias? := by
  rcases e with ⟨name, _ | localName⟩ <;> rcases e' with ⟨name', _ | localName'⟩
  · rfl
  · cases h
  · cases h
  · exact congrArg some (String.toList_inj.1 (List.append_cancel_left h))

/-- **An entry is known by its text**, if its name is a word. -/
theorem specifierText_inj (hname : IsWord e.name) (hname' : IsWord e'.name)
    (h : specifierText e = specifierText e') : e = e' := by
  have htext := congrArg String.toList h
  rw [toList_specifierText, toList_specifierText] at htext
  obtain ⟨hnames, haliases⟩ := append_inj_of_stops hname.parts (stops_aliasText e)
    hname'.parts (stops_aliasText e') htext
  obtain ⟨name, alias?⟩ := e
  obtain ⟨name', alias?'⟩ := e'
  exact congrArg₂ ImportSpecifier.mk (String.toList_inj.1 hnames) (aliasText_inj haliases)

theorem specifierText_ne_empty (hname : IsWord e.name) : specifierText e ≠ "" := by
  rw [ne_eq, ← String.toList_eq_nil_iff, toList_specifierText]
  exact fun hnil => hname.ne_empty (String.toList_eq_nil_iff.1 (List.append_eq_nil_iff.1 hnil).1)

/-- Only words and spaces are in the text of an entry. -/
theorem notMem_specifierText {c : Char} (he : e.Legible) (hc : isWordPart c = false)
    (hspace : c ≠ ' ') : c ∉ (specifierText e).toList := by
  have has : " as ".toList.all (fun d => d == ' ' || isWordPart d) = true := by decide +kernel
  rw [toList_specifierText, List.mem_append, not_or]
  refine ⟨he.name.notMem hc, ?_⟩
  rcases e with ⟨name, _ | localName⟩
  · exact List.not_mem_nil
  · intro hmem
    rcases List.mem_append.1 hmem with hmark | hmem
    · simpa [hspace, hc] using List.all_eq_true.1 has c hmark
    · exact he.localName.notMem hc hmem

/-- What a row of texts with commas between them has behind its first. -/
def furtherText (ss : List String) : List Char :=
  if ss = [] then [] else ", ".toList ++ (", ".intercalate ss).toList

theorem toList_intercalate_cons (s : String) (ss : List String) :
    (", ".intercalate (s :: ss)).toList = s.toList ++ furtherText ss := by
  rcases ss with _ | ⟨t, ss⟩
  · simp [furtherText]
  · rw [String.intercalate_cons_cons, furtherText, if_neg (List.cons_ne_nil _ _)]
    simp

theorem stops_furtherText (ss : List String) : Stops (· != ',') (furtherText ss) := by
  rw [furtherText]
  split
  · exact stops_nil
  · exact stops_cons.2 rfl

theorem furtherText_inj (h : furtherText ss = furtherText ts) :
    ", ".intercalate ss = ", ".intercalate ts := by
  rcases ss with _ | ⟨s, ss⟩ <;> rcases ts with _ | ⟨t, ts⟩
  · rfl
  · cases h
  · cases h
  · exact String.toList_inj.1 (List.append_cancel_left h)

/-- **A row of texts is known by the text with commas between them**, if none is empty and there is
no comma in any of them. -/
theorem intercalate_comma_inj (hs : ∀ s ∈ ss, s ≠ "" ∧ ',' ∉ s.toList)
    (ht : ∀ t ∈ ts, t ≠ "" ∧ ',' ∉ t.toList) (h : ", ".intercalate ss = ", ".intercalate ts) :
    ss = ts := by
  have hne {s : String} (hs : s ≠ "") (ss : List String) : ", ".intercalate (s :: ss) ≠ "" := by
    rw [ne_eq, ← String.toList_eq_nil_iff, toList_intercalate_cons]
    exact fun hnil => hs (String.toList_eq_nil_iff.1 (List.append_eq_nil_iff.1 hnil).1)
  induction ss generalizing ts with
  | nil =>
    cases ts with
    | nil => rfl
    | cons t ts => exact absurd h.symm (hne (ht t List.mem_cons_self).1 ts)
  | cons s ss ih =>
    obtain ⟨⟨hempty, hcomma⟩, hss⟩ := List.forall_mem_cons.1 hs
    cases ts with
    | nil => exact absurd h (hne hempty ss)
    | cons t ts =>
      obtain ⟨⟨-, hcomma'⟩, hts⟩ := List.forall_mem_cons.1 ht
      have hrow := congrArg String.toList h
      rw [toList_intercalate_cons, toList_intercalate_cons] at hrow
      obtain ⟨hfirst, hfurther⟩ := append_inj_of_stops (bne_of_notMem hcomma)
        (stops_furtherText ss) (bne_of_notMem hcomma') (stops_furtherText ts) hrow
      rw [String.toList_inj.1 hfirst, ih hss hts (furtherText_inj hfurther)]

end Entries

/-! ## The line of a record -/

section Record

variable {r r' : ImportRecord} {es es' : List ImportSpecifier} {b b' s s' : String}

/-- What the line of a record has behind the column of kinds. -/
def contentText (r : ImportRecord) : String :=
  (if (namesText r).isEmpty then "" else namesText r ++ " from ") ++ Quoted.quote r.source

theorem recordText_eq (r : ImportRecord) :
    recordText r = padded kindWidth r.kindName ++ (" " ++ contentText r) := by
  simp only [recordText, contentText, String.append_assoc]

theorem contentText_sideEffectImport (s : String) :
    contentText (.sideEffectImport s) = Quoted.quote s := by
  have hnames : namesText (.sideEffectImport s) = "" := rfl
  rw [contentText, hnames, if_pos (by decide), String.empty_append, ImportRecord.source]

/-- **The line of a record tells its form**, and what is behind the column of kinds. -/
theorem kindName_eq_and_contentText_eq (h : recordText r = recordText r') :
    r.kindName = r'.kindName ∧ contentText r = contentText r' := by
  have hkinds : ∀ kind ∈ ImportRecord.kindNames, ∀ kind' ∈ ImportRecord.kindNames,
      (padded kindWidth kind).toList.length = (padded kindWidth kind').toList.length ∧
        (padded kindWidth kind = padded kindWidth kind' → kind = kind') := by decide
  obtain ⟨hwidth, hcolumn⟩ := hkinds _ r.kindName_mem _ r'.kindName_mem
  have htext := congrArg String.toList h
  simp only [recordText_eq, String.toList_append] at htext
  obtain ⟨hfront, hback⟩ := List.append_inj htext hwidth
  exact ⟨hcolumn (String.toList_inj.1 hfront),
    String.toList_inj.1 (List.append_cancel_left hback)⟩

theorem contentText_of_ne_empty (h : namesText r ≠ "") :
    contentText r = namesText r ++ " from " ++ Quoted.quote r.source := by
  rw [contentText, if_neg (by rwa [String.isEmpty_iff])]

theorem namesText_defaultImport (b s : String) : namesText (.defaultImport b s) = b := by
  simp [namesText, ImportRecord.localNames]

theorem namesText_namespaceImport (b s : String) : namesText (.namespaceImport b s) = b := by
  simp [namesText, ImportRecord.localNames]

/-- A name that is bound, and the source behind it. -/
theorem binding_inj (hb : IsWord b) (hb' : IsWord b') (hr : namesText r = b) (hr' : namesText r' = b')
    (h : contentText r = contentText r') : b = b' ∧ r.source = r'.source := by
  have htext := congrArg String.toList h
  rw [contentText_of_ne_empty (hr ▸ hb.ne_empty), contentText_of_ne_empty (hr' ▸ hb'.ne_empty), hr,
    hr'] at htext
  simp only [String.toList_append, List.append_assoc] at htext
  obtain ⟨hname, hrest⟩ := append_cons_inj_of_notMem (hb.notMem rfl) (hb'.notMem rfl) htext
  exact ⟨String.toList_inj.1 hname,
    Quoted.quote_injective (String.toList_inj.1 (List.append_cancel_left hrest))⟩

theorem toList_contentText_namedImport (es : List ImportSpecifier) (s : String) :
    (contentText (.namedImport es s)).toList = r"{ ".toList ++
      (((", ".intercalate (es.map specifierText)).toList ++ [' ']) ++
        '}' :: (" from ".toList ++ (Quoted.quote s).toList)) := by
  rw [contentText_of_ne_empty (by simp [namesText])]
  simp [namesText, ImportRecord.source]

theorem closing_notMem_intercalate (hes : ∀ e ∈ es, e.Legible) :
    '}' ∉ (", ".intercalate (es.map specifierText)).toList ++ [' '] := by
  rw [List.mem_append, mem_intercalate_iff (by decide), not_or]
  refine ⟨?_, by decide⟩
  rintro ⟨text, htext, hmem⟩
  obtain ⟨e, he, rfl⟩ := List.mem_map.1 htext
  exact notMem_specifierText (hes e he) rfl (by decide) hmem

/-- The entries of a list, and the source behind it. -/
theorem list_inj (hes : ∀ e ∈ es, e.Legible) (hes' : ∀ e ∈ es', e.Legible)
    (h : contentText (.namedImport es s) = contentText (.namedImport es' s')) :
    es = es' ∧ s = s' := by
  have hitems {es : List ImportSpecifier} (hes : ∀ e ∈ es, e.Legible) :
      ∀ text ∈ es.map specifierText, text ≠ "" ∧ ',' ∉ text.toList := by
    rw [List.forall_mem_map]
    intro e he
    exact ⟨specifierText_ne_empty (hes e he).name, notMem_specifierText (hes e he) rfl (by decide)⟩
  have htext := congrArg String.toList h
  rw [toList_contentText_namedImport, toList_contentText_namedImport] at htext
  obtain ⟨hrow, hrest⟩ := append_cons_inj_of_notMem (closing_notMem_intercalate hes)
    (closing_notMem_intercalate hes') (List.append_cancel_left htext)
  have hmap := intercalate_comma_inj (hitems hes) (hitems hes')
    (String.toList_inj.1 (List.append_cancel_right hrow))
  constructor
  · exact eq_of_map_eq (fun e he e' he' => specifierText_inj (hes e he).name (hes' e' he').name) hmap
  · exact Quoted.quote_injective (String.toList_inj.1 (List.append_cancel_left hrest))

/-- **A record is known by its line**, if all names in it are words. -/
theorem recordText_inj (hr : r.Legible) (hr' : r'.Legible) (h : recordText r = recordText r') :
    r = r' := by
  obtain ⟨hkind, hcontent⟩ := kindName_eq_and_contentText_eq h
  cases r with
  | defaultImport b s =>
    cases r' with
    | defaultImport b' s' =>
      obtain ⟨rfl, rfl⟩ := binding_inj (IsIdentifier.word hr.wellFormed)
        (IsIdentifier.word hr'.wellFormed) (namesText_defaultImport b s)
        (namesText_defaultImport b' s') hcontent
      rfl
    | _ => simp [ImportRecord.kindName] at hkind
  | namedImport es s =>
    cases r' with
    | namedImport es' s' =>
      obtain ⟨rfl, rfl⟩ := list_inj hr.entry hr'.entry hcontent
      rfl
    | _ => simp [ImportRecord.kindName] at hkind
  | namespaceImport b s =>
    cases r' with
    | namespaceImport b' s' =>
      obtain ⟨rfl, rfl⟩ := binding_inj (IsIdentifier.word hr.wellFormed)
        (IsIdentifier.word hr'.wellFormed) (namesText_namespaceImport b s)
        (namesText_namespaceImport b' s') hcontent
      rfl
    | _ => simp [ImportRecord.kindName] at hkind
  | sideEffectImport s =>
    cases r' with
    | sideEffectImport s' =>
      rw [contentText_sideEffectImport, contentText_sideEffectImport] at hcontent
      rw [Quoted.quote_injective hcontent]
    | _ => simp [ImportRecord.kindName] at hkind

/-- The line of a record is one. -/
theorem lineFeed_notMem_recordText (hr : r.Legible) : '\n' ∉ (recordText r).toList := by
  rw [mem_recordText_iff hr.wellFormed rfl]
  rintro ⟨e, he, hmem⟩
  exact (hr.names e he).notMem rfl hmem

end Record

/-! ## The listing of one input -/

section Listing

variable {source source' : SourceText} {o o' : ImportOptions} {rs rs' : List ImportRecord}

/-- Lines are known by the text with a line feed after each. -/
theorem join_lines_inj {ss ts : List String} (hs : ∀ s ∈ ss, '\n' ∉ s.toList)
    (ht : ∀ t ∈ ts, '\n' ∉ t.toList)
    (h : String.join (ss.map (· ++ "\n")) = String.join (ts.map (· ++ "\n"))) : ss = ts := by
  have hpieces := splitOn_join_iff.2 hs
  rw [h, splitOn_join_iff.2 ht] at hpieces
  have hlines := List.append_cancel_right hpieces
  exact (eq_of_map_eq (fun _ _ _ _ => String.toList_inj.1) hlines).symm

theorem listingText_single (file : String) (rs : List ImportRecord) :
    listingText [⟨file, rs⟩] = String.join ((rs.map recordText).map (· ++ "\n")) := by
  rw [listingText_eq_join]
  simp [listingLines, FileImports.lines]

theorem forall_legible (h : source.imports o = .ok rs)
    (hnames : ∀ r ∈ rs, ∀ e ∈ r.entries, IsWordName e.name) : ∀ r ∈ rs, r.Legible := by
  intro r hr
  exact ⟨(SourceText.exists_imports_iff_admits.1 ⟨source, h⟩ r hr).1,
    fun e he => (hnames r hr e he).word⟩

/-- **The listing of one input determines its records**, if the names of all entries are words: two
inputs, read with any settings, have the same listing just if they have the same records. -/
theorem listingText_eq_iff (h : source.imports o = .ok rs) (h' : source'.imports o' = .ok rs')
    (hnames : ∀ r ∈ rs, ∀ e ∈ r.entries, IsWordName e.name)
    (hnames' : ∀ r ∈ rs', ∀ e ∈ r.entries, IsWordName e.name) (file file' : String) :
    listingText [⟨file, rs⟩] = listingText [⟨file', rs'⟩] ↔ rs = rs' := by
  have hrs := forall_legible h hnames
  have hrs' := forall_legible h' hnames'
  rw [listingText_single, listingText_single]
  constructor
  · intro htext
    have hmap := join_lines_inj
      (List.forall_mem_map.2 fun r hr => lineFeed_notMem_recordText (hrs r hr))
      (List.forall_mem_map.2 fun r hr => lineFeed_notMem_recordText (hrs' r hr)) htext
    exact eq_of_map_eq (fun r hr r' hr' => recordText_inj (hrs r hr) (hrs' r' hr')) hmap
  · rintro rfl
    rfl

/-- A binding that looks like a keyword of its declaration, and a list of the same words. -/
theorem listingText_ne_of_contextual_names :
    listingText [⟨"a.js", [.defaultImport "from" " from "]⟩] ≠
      listingText [⟨"a.js", [.namedImport [⟨"in", some "from"⟩, ⟨"default", some "as"⟩] " from "]⟩] := by
  have hdefault : (SourceText.ofString "import from from ' from '").imports ⟨.basic, false⟩ =
      .ok [.defaultImport "from" " from "] := by decide +kernel
  have hlist : (SourceText.ofString r"import {in as from,default as as}from' from '").imports
      ⟨.full, true⟩ =
        .ok [.namedImport [⟨"in", some "from"⟩, ⟨"default", some "as"⟩] " from "] := by
    decide +kernel
  have hin : IsWordName "in" := .inr (.inr (by decide))
  have hreserved : IsWordName "default" := .inr (.inl (by decide))
  intro htext
  have hsame := (listingText_eq_iff hdefault hlist (by simp [ImportRecord.entries])
    (by simp [ImportRecord.entries, hin, hreserved]) "a.js" "a.js").1 htext
  cases hsame

/-- The name of an entry may be a string, and look like an entry and a comma. -/
example : listingText [⟨"a.js", [.namedImport [⟨"a, b", some "c"⟩] "m"]⟩] =
    listingText [⟨"a.js", [.namedImport [⟨"a", none⟩, ⟨"b", some "c"⟩] "m"]⟩] := by
  decide +kernel

end Listing

end Command

end ModuleImports
