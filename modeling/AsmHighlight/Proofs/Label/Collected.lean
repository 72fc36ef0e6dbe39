-- SUMMARY: What the label table holds, and which declarations are reported as repeated.
import AsmHighlight.Label.Table
import AsmHighlight.Proofs.Enumeration
import AsmHighlight.Proofs.Token.Pass

/-!
# Collecting labels

Collecting goes through the tokens once and decides about each declaration by
what is known when it comes to it (`known`). A name that is new goes into the
table, so the table lists the first declaration of each name in order
(`enumerates_labels`); any other is reported (`enumerates_duplicates`). What the
table answers at the end is what was declared first (`lookup_eq_some_iff`).

The last section says the same in terms of lexemes.
-/

namespace AsmHighlight.Label

/-- A table has an answer for its names. -/
theorem Table.isSome_lookup_iff {table : Table} {name : String} :
    (table.lookup name).isSome = true ↔ name ∈ table.names := by
  simp [lookup, names]

def declaredName? (t : Token) : Option String :=
  if t.category = .labelDeclaration then t.name? else none

def ofToken? (t : Token) : Option Label :=
  (declaredName? t).map fun name => ⟨name, t.range⟩

/-- The label that the token at place `i` declares. -/
def declaredAt? (tokens : List Token) (i : Nat) : Option Label :=
  tokens[i]?.bind ofToken?

theorem exists_of_declaredAt? {tokens : List Token} {i : Nat} {label : Label}
    (h : declaredAt? tokens i = some label) :
    ∃ t, tokens[i]? = some t ∧ declaredName? t = some label.name ∧ t.range = label.range := by
  obtain ⟨t, ht, hlabel⟩ := Option.bind_eq_some_iff.mp h
  obtain ⟨name, hname, rfl⟩ := Option.map_eq_some_iff.mp hlabel
  exact ⟨t, ht, hname, rfl⟩

theorem lt_length_of_declaredAt? {tokens : List Token} {i : Nat} {label : Label}
    (h : declaredAt? tokens i = some label) : i < tokens.length := by
  obtain ⟨t, ht, _⟩ := exists_of_declaredAt? h
  exact (List.getElem?_eq_some_iff.mp ht).1

theorem exists_declaredAt?_iff {tokens : List Token} {name : String} :
    (∃ i label, declaredAt? tokens i = some label ∧ label.name = name) ↔
      ∃ t ∈ tokens, declaredName? t = some name := by
  constructor
  · rintro ⟨i, label, hlabel, rfl⟩
    obtain ⟨t, ht, hname, _⟩ := exists_of_declaredAt? hlabel
    exact ⟨t, List.mem_of_getElem? ht, hname⟩
  · rintro ⟨t, ht, hname⟩
    obtain ⟨i, hi⟩ := List.mem_iff_getElem?.mp ht
    exact ⟨i, ⟨name, t.range⟩, by simp [declaredAt?, hi, ofToken?, hname], rfl⟩

/-- What is known at place `i`: the labels of a table and all that was declared since. -/
def known (table : Table) (tokens : List Token) (i : Nat) : Table :=
  table ++ (tokens.take i).filterMap ofToken?

-- ---------------------------------------------------------------------------
-- One step
-- ---------------------------------------------------------------------------

/-- Collecting succeeds when every declaration carries its name. -/
theorem exists_collectFrom_eq_ok {tokens : List Token} (table : Table)
    (h : ∀ t ∈ tokens, t.category = .labelDeclaration → ∃ name, t.name? = some name) :
    ∃ found, collectFrom table tokens = .ok found := by
  induction tokens generalizing table with
  | nil => exact ⟨_, rfl⟩
  | cons t rest ih =>
    have hrest := fun table => ih table fun u hu => h u (List.mem_cons_of_mem _ hu)
    unfold collectFrom
    split
    next hcat =>
      obtain ⟨name, hname⟩ := h t (List.mem_cons_self ..) hcat
      rw [hname]
      cases hdeclare : table.declare name t.range with
      | mk table' existing =>
        obtain ⟨found, hfound⟩ := hrest table'
        cases existing with
        | none => exact ⟨found, by simpa [Token.require, bind, Except.bind, hdeclare] using hfound⟩
        | some first =>
          refine ⟨(found.1, duplicate name t.range first :: found.2), ?_⟩
          simp [Token.require, bind, Except.bind, hdeclare, hfound, pure, Except.pure]
    next => exact hrest table

/-- What collecting does with one token: it passes over it, adds its label to the
    table, or reports that the name is there already. -/
theorem collectFrom_cons {t : Token} {rest : List Token} {table labels : Table}
    {duplicates : List Diagnostic} (h : collectFrom table (t :: rest) = .ok (labels, duplicates)) :
    (ofToken? t = none ∧ collectFrom table rest = .ok (labels, duplicates)) ∨
    (∃ label, ofToken? t = some label ∧ table.lookup label.name = none ∧
      collectFrom (table ++ [label]) rest = .ok (labels, duplicates)) ∨
    (∃ label first more, ofToken? t = some label ∧ table.lookup label.name = some first ∧
      collectFrom table rest = .ok (labels, more) ∧
      duplicates = duplicate label.name label.range first :: more) := by
  unfold collectFrom at h
  split at h
  next hcat =>
    obtain ⟨name, hname, h⟩ := Except.bind_eq_ok_iff.mp h
    have hlabel : ofToken? t = some ⟨name, t.range⟩ := by
      rw [ofToken?, declaredName?, if_pos hcat]
      cases hn : t.name? with
      | none => rw [hn] at hname; cases hname
      | some n => rw [hn] at hname; cases hname; rfl
    right
    unfold Table.declare at h
    cases hlookup : table.lookup name with
    | none =>
      simp only [hlookup] at h
      exact .inl ⟨_, hlabel, hlookup, h⟩
    | some first =>
      simp only [hlookup] at h
      obtain ⟨⟨labels', more⟩, hmore, h⟩ := Except.bind_eq_ok_iff.mp h
      cases h
      exact .inr ⟨_, first, more, hlabel, hlookup, hmore, rfl⟩
  next hcat => exact .inl ⟨by rw [ofToken?, declaredName?, if_neg hcat]; rfl, h⟩

section Known

variable {t : Token} {rest : List Token} {table : Table} {label : Label}

theorem known_zero (table : Table) (tokens : List Token) : known table tokens 0 = table := by
  simp [known]

theorem known_succ_of_none (h : ofToken? t = none) (i : Nat) :
    known table (t :: rest) (i + 1) = known table rest i := by
  simp [known, h]

theorem known_succ_of_some (h : ofToken? t = some label) (i : Nat) :
    known table (t :: rest) (i + 1) = known (table ++ [label]) rest i := by
  simp [known, h]

/-- Declaring a name again does not change what is known of it. -/
theorem lookup_known_append_singleton {first : Label} (h : table.lookup label.name = some first)
    (tokens : List Token) (i : Nat) (name : String) :
    (known (table ++ [label]) tokens i).lookup name = (known table tokens i).lookup name := by
  simp only [known, Table.lookup, List.find?_append] at h ⊢
  by_cases hname : label.name = name
  · subst hname
    simp [h]
  · simp [hname]

end Known

-- ---------------------------------------------------------------------------
-- Whole documents
-- ---------------------------------------------------------------------------

/-- The table answers for all that is known at the end. -/
theorem lookup_collectFrom {tokens : List Token} {table labels : Table}
    {duplicates : List Diagnostic} (h : collectFrom table tokens = .ok (labels, duplicates))
    (name : String) :
    labels.lookup name = (known table tokens tokens.length).lookup name := by
  induction tokens generalizing table labels duplicates with
  | nil =>
    cases h
    rw [List.length_nil, known_zero]
  | cons t rest ih =>
    rw [List.length_cons]
    rcases collectFrom_cons h with
      ⟨hnone, h⟩ | ⟨label, hlabel, _, h⟩ | ⟨label, first, more, hlabel, hlookup, h, _⟩
    · rw [ih h, known_succ_of_none hnone]
    · rw [ih h, known_succ_of_some hlabel]
    · rw [ih h, known_succ_of_some hlabel, lookup_known_append_singleton hlookup]

/-- Collecting adds the labels whose names are not known where they are declared. -/
theorem exists_enumerates_labels {tokens : List Token} {table labels : Table}
    {duplicates : List Diagnostic} (h : collectFrom table tokens = .ok (labels, duplicates)) :
    ∃ new, labels = table ++ new ∧
      Enumerates (fun i label => declaredAt? tokens i = some label ∧
        (known table tokens i).lookup label.name = none) new := by
  induction tokens generalizing table labels duplicates with
  | nil =>
    cases h
    exact ⟨[], by simp, .nil (by simp [declaredAt?])⟩
  | cons t rest ih =>
    rcases collectFrom_cons h with
      ⟨hnone, h⟩ | ⟨label, hlabel, hlookup, h⟩ | ⟨label, first, more, hlabel, hlookup, h, _⟩
    · obtain ⟨new, hlabels, hnew⟩ := ih h
      refine ⟨new, hlabels, .of_succ (by simp [declaredAt?, hnone]) (hnew.congr fun i a => ?_)⟩
      rw [known_succ_of_none hnone]
      rfl
    · obtain ⟨new, hlabels, hnew⟩ := ih h
      refine ⟨label :: new, by simp [hlabels], .cons ⟨hlabel, ?_⟩ (hnew.congr fun i a => ?_)⟩
      · rw [known_zero, hlookup]
      · rw [known_succ_of_some hlabel]
        rfl
    · obtain ⟨new, hlabels, hnew⟩ := ih h
      refine ⟨new, hlabels, .of_succ ?_ (hnew.congr fun i a => ?_)⟩
      · rintro a ⟨ha, hfree⟩
        obtain rfl : label = a := Option.some.inj (hlabel.symm.trans ha)
        rw [known_zero, hlookup] at hfree
        cases hfree
      · rw [known_succ_of_some hlabel, lookup_known_append_singleton hlookup]
        rfl

/-- Collecting reports the labels whose names are known where they are declared. -/
theorem enumerates_duplicates {tokens : List Token} {table labels : Table}
    {duplicates : List Diagnostic} (h : collectFrom table tokens = .ok (labels, duplicates)) :
    Enumerates (fun i d => ∃ label first, declaredAt? tokens i = some label ∧
      (known table tokens i).lookup label.name = some first ∧
      d = duplicate label.name label.range first) duplicates := by
  induction tokens generalizing table labels duplicates with
  | nil =>
    cases h
    exact .nil (by simp [declaredAt?])
  | cons t rest ih =>
    rcases collectFrom_cons h with
      ⟨hnone, h⟩ | ⟨label, hlabel, hlookup, h⟩ | ⟨label, first, more, hlabel, hlookup, h, hdup⟩
    · refine .of_succ (by simp [declaredAt?, hnone]) ((ih h).congr fun i d => ?_)
      rw [known_succ_of_none hnone]
      rfl
    · refine .of_succ ?_ ((ih h).congr fun i d => ?_)
      · rintro d ⟨a, first, ha, hfirst, _⟩
        obtain rfl : label = a := Option.some.inj (hlabel.symm.trans ha)
        rw [known_zero, hlookup] at hfirst
        cases hfirst
      · rw [known_succ_of_some hlabel]
        rfl
    · rw [hdup]
      refine .cons ⟨label, first, hlabel, ?_, rfl⟩ ((ih h).congr fun i d => ?_)
      · rw [known_zero, hlookup]
      · simp only [known_succ_of_some hlabel, lookup_known_append_singleton hlookup]
        rfl

-- ---------------------------------------------------------------------------
-- First declarations
-- ---------------------------------------------------------------------------

/-- Place `i` declares the label, and no place before it declares one of that name. -/
def FirstAt (tokens : List Token) (i : Nat) (label : Label) : Prop :=
  declaredAt? tokens i = some label ∧
    ∀ j < i, ∀ other, declaredAt? tokens j = some other → other.name ≠ label.name

theorem lookup_known_succ (tokens : List Token) (i : Nat) (name : String) :
    (known [] tokens (i + 1)).lookup name =
      ((known [] tokens i).lookup name).or
        ((declaredAt? tokens i).filter fun label => label.name = name) := by
  simp only [known, List.nil_append, List.take_add_one, List.filterMap_append, Table.lookup,
    List.find?_append, declaredAt?]
  congr 1
  cases tokens[i]? with
  | none => rfl
  | some t =>
    simp only [Option.toList_some, Option.bind_some]
    cases hlabel : ofToken? t with
    | none => simp [hlabel]
    | some label => simp [hlabel, Option.filter]

/-- A name is unknown as long as no place declares it. -/
theorem lookup_known_eq_none_iff {tokens : List Token} {i : Nat} {name : String} :
    (known [] tokens i).lookup name = none ↔
      ∀ j < i, ∀ label, declaredAt? tokens j = some label → label.name ≠ name := by
  induction i with
  | zero => simp [known_zero, Table.lookup]
  | succ i ih =>
    rw [lookup_known_succ, Option.or_eq_none_iff, ih, Option.filter_eq_none_iff]
    constructor
    · rintro ⟨hbefore, hlast⟩ j hj label hlabel
      rcases Nat.lt_succ_iff_lt_or_eq.mp hj with hj | rfl
      · exact hbefore j hj label hlabel
      · simpa using hlast label hlabel
    · intro h
      refine ⟨fun j hj => h j (Nat.lt_succ_of_lt hj), fun label hlabel => ?_⟩
      simpa using h i (Nat.lt_succ_self i) label hlabel

/-- What is known of a name is its first declaration. -/
theorem lookup_known_eq_some_iff {tokens : List Token} {i : Nat} {name : String} {label : Label} :
    (known [] tokens i).lookup name = some label ↔
      label.name = name ∧ ∃ j < i, FirstAt tokens j label := by
  induction i with
  | zero => simp [known_zero, Table.lookup]
  | succ i ih =>
    rw [lookup_known_succ, Option.or_eq_some_iff, ih, lookup_known_eq_none_iff,
      Option.filter_eq_some_iff, decide_eq_true_eq]
    constructor
    · rintro (⟨hname, j, hj, hfirst⟩ | ⟨hnone, hlabel, hname⟩)
      · exact ⟨hname, j, Nat.lt_succ_of_lt hj, hfirst⟩
      · exact ⟨hname, i, Nat.lt_succ_self i, hlabel, hname ▸ hnone⟩
    · rintro ⟨hname, j, hj, hfirst⟩
      rcases Nat.lt_succ_iff_lt_or_eq.mp hj with hj | rfl
      · exact .inl ⟨hname, j, hj, hfirst⟩
      · exact .inr ⟨hname ▸ hfirst.2, hfirst.1, hname⟩

section Collect

variable {tokens : List Token} {labels : Table} {duplicates : List Diagnostic}
  (h : collect tokens = .ok (labels, duplicates))

include h

/-- The table has no answer exactly when no place declares the name. -/
theorem lookup_eq_none_iff {name : String} :
    labels.lookup name = none ↔
      ∀ i label, declaredAt? tokens i = some label → label.name ≠ name := by
  rw [lookup_collectFrom h, lookup_known_eq_none_iff]
  exact ⟨fun hall i label hi => hall i (lt_length_of_declaredAt? hi) label hi,
    fun hall i _ => hall i⟩

/-- The table answers with the first declaration of a name. -/
theorem lookup_eq_some_iff {name : String} {label : Label} :
    labels.lookup name = some label ↔ label.name = name ∧ ∃ i, FirstAt tokens i label := by
  rw [lookup_collectFrom h, lookup_known_eq_some_iff]
  refine and_congr_right fun _ => exists_congr fun i => ?_
  exact ⟨fun hi => hi.2, fun hi => ⟨lt_length_of_declaredAt? hi.1, hi⟩⟩

/-- The table lists the first declaration of each name, in the order of the document. -/
theorem enumerates_labels : Enumerates (FirstAt tokens) labels := by
  obtain ⟨new, rfl, hnew⟩ := exists_enumerates_labels h
  refine hnew.congr fun i label => and_congr_right fun _ => ?_
  exact lookup_known_eq_none_iff

/-- The table lists each name once. -/
theorem nodup_names : labels.names.Nodup := by
  refine List.pairwise_map.mpr ((enumerates_labels h).pairwise ?_)
  rintro i j first later hij ⟨hfirst, _⟩ ⟨_, hlater⟩
  exact hlater i hij first hfirst

end Collect

-- ---------------------------------------------------------------------------
-- In terms of lexemes
-- ---------------------------------------------------------------------------

/-- The lexeme at place `i` declares the label. -/
def Declares (lexemes : List Lexeme) (i : Nat) (name : String) : Prop :=
  ∃ l, lexemes[i]? = some l ∧ l.kind = .word ∧ Lexeme.FirstOnLine lexemes i l.line ∧
    IsDeclaration l.text name

/-- Place `i` is the first to declare the name of the label, which has its range. -/
structure DeclaredFirst (lexemes : List Lexeme) (i : Nat) (label : Label) : Prop where
  declares : Declares lexemes i label.name
  first : ∀ j < i, ¬ Declares lexemes j label.name
  range_eq : lexemes[i]?.map Lexeme.range = some label.range

/-- Place `i` declares the name of `first` again, and the diagnostic says so. -/
structure Repeats (lexemes : List Lexeme) (i : Nat) (first : Label) (d : Diagnostic) : Prop where
  declares : Declares lexemes i first.name
  earlier : ∃ j < i, DeclaredFirst lexemes j first
  range_eq : lexemes[i]?.map Lexeme.range = some d.range
  hint_eq : d.hint = some
    s!"'{first.name}' was first declared at {first.range.start.line}:{first.range.start.column}"

theorem hint_duplicate (name : String) (range : Range) (first : Label) :
    (duplicate name range first).hint = some
      s!"'{name}' was first declared at {first.range.start.line}:{first.range.start.column}" := by
  simp [duplicate, Position.text, String.append_assoc, toString]

theorem Declares.exists_range {lexemes : List Lexeme} {i : Nat} {name : String}
    (h : Declares lexemes i name) : ∃ range, lexemes[i]?.map Lexeme.range = some range := by
  obtain ⟨l, hl, _⟩ := h
  exact ⟨l.range, by rw [hl]; rfl⟩

/-- A name that is declared is declared somewhere first. -/
theorem Declares.exists_declaredFirst {lexemes : List Lexeme} {i : Nat} {name : String}
    (h : Declares lexemes i name) :
    ∃ j ≤ i, ∃ label : Label, label.name = name ∧ DeclaredFirst lexemes j label := by
  induction i using Nat.strongRecOn with
  | ind i ih =>
    by_cases hearlier : ∃ j < i, Declares lexemes j name
    · obtain ⟨j, hj, hdecl⟩ := hearlier
      obtain ⟨k, hk, hfirst⟩ := ih j hj hdecl
      exact ⟨k, Nat.le_trans hk (Nat.le_of_lt hj), hfirst⟩
    · obtain ⟨range, hrange⟩ := h.exists_range
      refine ⟨i, Nat.le_refl i, ⟨name, range⟩, rfl, h, ?_, hrange⟩
      exact fun j hj hdecl => hearlier ⟨j, hj, hdecl⟩

/-- A diagnostic can be given at every place that declares a name again. -/
theorem exists_repeats_iff {lexemes : List Lexeme} {i : Nat} :
    (∃ first d, Repeats lexemes i first d) ↔
      ∃ name, Declares lexemes i name ∧ ∃ j < i, Declares lexemes j name := by
  constructor
  · rintro ⟨first, _, hrepeats⟩
    obtain ⟨j, hj, hfirst⟩ := hrepeats.earlier
    exact ⟨first.name, hrepeats.declares, j, hj, hfirst.declares⟩
  · rintro ⟨name, hdecl, j, hj, hearlier⟩
    obtain ⟨k, hk, first, rfl, hfirst⟩ := hearlier.exists_declaredFirst
    obtain ⟨range, hrange⟩ := hdecl.exists_range
    exact ⟨first, duplicate first.name range first, hdecl,
      ⟨k, Nat.lt_of_le_of_lt hk hj, hfirst⟩, hrange, hint_duplicate ..⟩

theorem declaredName?_eq_some_iff {g : Grammar} {caseSensitive : Bool} {previous : Option Token}
    {l : Lexeme} {t : Token} (hbreak : ∀ c ∈ l.text.toList, c ≠ '\n')
    (h : Token.classify g caseSensitive previous l = .ok t) {name : String} :
    declaredName? t = some name ↔ l.kind = .word ∧ previous = none ∧ IsDeclaration l.text name := by
  constructor
  · intro hname
    obtain ⟨hcat, hname⟩ : t.category = .labelDeclaration ∧ t.name? = some name := by
      simpa [declaredName?] using hname
    obtain ⟨hkind, hfirst, _, hdecl, rfl⟩ := Token.eq_declaration_of_category hbreak h hcat
    cases hname
    exact ⟨hkind, hfirst, hdecl⟩
  · rintro ⟨hkind, rfl, hdecl⟩
    rw [Token.eq_declaration_of_isDeclaration hbreak h hkind hdecl]
    rfl

section Lexemes

variable {g : Grammar} {caseSensitive : Bool} {lexemes : List Lexeme} {tokens : List Token}
  (hpass : Token.Pass g caseSensitive lexemes tokens)

include hpass

theorem declares_iff {i : Nat} {name : String} :
    Declares lexemes i name ↔ ∃ t, tokens[i]? = some t ∧ declaredName? t = some name := by
  have hbreak {l : Lexeme} (hl : lexemes[i]? = some l) := hpass.unbroken l (List.mem_of_getElem? hl)
  constructor
  · rintro ⟨l, hl, hkind, hfirst, hdecl⟩
    obtain ⟨t, ht, hclass⟩ := hpass.exists_token hl
    refine ⟨t, ht, (declaredName?_eq_some_iff (hbreak hl) hclass).mpr ⟨hkind, ?_, hdecl⟩⟩
    exact (hpass.contextAt_eq_none_iff hl).mpr hfirst
  · rintro ⟨t, ht, hname⟩
    obtain ⟨l, hl, hclass⟩ := hpass.exists_lexeme ht
    obtain ⟨hkind, hcontext, hdecl⟩ := (declaredName?_eq_some_iff (hbreak hl) hclass).mp hname
    exact ⟨l, hl, hkind, (hpass.contextAt_eq_none_iff hl).mp hcontext, hdecl⟩

/-- The label declarations are the tokens of the places that declare a label. -/
theorem category_eq_labelDeclaration_iff {i : Nat} {t : Token} (ht : tokens[i]? = some t) :
    t.category = .labelDeclaration ↔ ∃ name, Declares lexemes i name := by
  constructor
  · intro hcat
    obtain ⟨l, hl, hclass⟩ := hpass.exists_lexeme ht
    have hbreak := hpass.unbroken l (List.mem_of_getElem? hl)
    obtain ⟨_, _, name, _, rfl⟩ := Token.eq_declaration_of_category hbreak hclass hcat
    exact ⟨name, (declares_iff hpass).mpr ⟨_, ht, rfl⟩⟩
  · rintro ⟨name, hdecl⟩
    obtain ⟨u, hu, hname⟩ := (declares_iff hpass).mp hdecl
    obtain rfl : t = u := Option.some.inj (ht.symm.trans hu)
    by_contra hcat
    rw [declaredName?, if_neg hcat] at hname
    cases hname

theorem declaredAt?_eq_some_iff {i : Nat} {label : Label} :
    declaredAt? tokens i = some label ↔
      Declares lexemes i label.name ∧ lexemes[i]?.map Lexeme.range = some label.range := by
  have hrange : lexemes[i]?.map Lexeme.range = tokens[i]?.map Token.range := by
    have hi := congrArg (fun spans => spans[i]?.map Span.range) hpass.map_span
    simp only [List.getElem?_map, Option.map_map] at hi
    exact hi.symm
  rw [declares_iff hpass, hrange, declaredAt?]
  cases tokens[i]? with
  | none => simp
  | some t =>
    simp only [Option.bind_some, Option.map_some, Option.some.injEq, exists_eq_left', ofToken?]
    cases declaredName? t with
    | none => simp
    | some name =>
      simp only [Option.map_some, Option.some.injEq]
      constructor
      · rintro rfl
        exact ⟨rfl, rfl⟩
      · rintro ⟨rfl, hrange⟩
        rw [hrange]

theorem declares_iff_declaredAt? {i : Nat} {name : String} :
    Declares lexemes i name ↔ ∃ label, declaredAt? tokens i = some label ∧ label.name = name := by
  constructor
  · intro hdecl
    obtain ⟨range, hrange⟩ := hdecl.exists_range
    exact ⟨⟨name, range⟩, (declaredAt?_eq_some_iff hpass).mpr ⟨hdecl, hrange⟩, rfl⟩
  · rintro ⟨label, hlabel, rfl⟩
    exact ((declaredAt?_eq_some_iff hpass).mp hlabel).1

theorem firstAt_iff {i : Nat} {label : Label} :
    FirstAt tokens i label ↔ DeclaredFirst lexemes i label := by
  constructor
  · rintro ⟨hlabel, hfirst⟩
    obtain ⟨hdecl, hrange⟩ := (declaredAt?_eq_some_iff hpass).mp hlabel
    refine ⟨hdecl, fun j hj hearlier => ?_, hrange⟩
    obtain ⟨other, hother, hname⟩ := (declares_iff_declaredAt? hpass).mp hearlier
    exact hfirst j hj other hother hname
  · rintro ⟨hdecl, hfirst, hrange⟩
    refine ⟨(declaredAt?_eq_some_iff hpass).mpr ⟨hdecl, hrange⟩, fun j hj other hother hname => ?_⟩
    exact hfirst j hj ((declares_iff_declaredAt? hpass).mpr ⟨other, hother, hname⟩)

variable {labels : Table} {duplicates : List Diagnostic}
  (h : collect tokens = .ok (labels, duplicates))

include h

/-- The reports are on the declarations of names that were declared before. -/
theorem enumerates_repeats :
    Enumerates (fun i d => ∃ first, Repeats lexemes i first d) duplicates := by
  refine (enumerates_duplicates h).imp ?_ ?_
  · rintro i _ ⟨label, first, hlabel, hlookup, rfl⟩
    obtain ⟨hname, j, hj, hfirst⟩ := lookup_known_eq_some_iff.mp hlookup
    obtain ⟨hdecl, hrange⟩ := (declaredAt?_eq_some_iff hpass).mp hlabel
    rw [← hname] at hdecl ⊢
    exact ⟨first, hdecl, ⟨j, hj, (firstAt_iff hpass).mp hfirst⟩, hrange, hint_duplicate ..⟩
  · rintro i d ⟨first, hdecl, ⟨j, hj, hfirst⟩, hrange, _⟩
    refine ⟨_, ⟨first.name, d.range⟩, first, ?_, ?_, rfl⟩
    · exact (declaredAt?_eq_some_iff hpass).mpr ⟨hdecl, hrange⟩
    · exact lookup_known_eq_some_iff.mpr ⟨rfl, j, hj, (firstAt_iff hpass).mpr hfirst⟩

/-- The table knows exactly the names that the document declares. -/
theorem isSome_lookup_iff {name : String} :
    (labels.lookup name).isSome = true ↔ ∃ i, Declares lexemes i name := by
  rw [Option.isSome_iff_ne_none, ne_eq, lookup_eq_none_iff h]
  simp only [declares_iff_declaredAt? hpass, not_forall, not_not, exists_prop]

end Lexemes

end AsmHighlight.Label
