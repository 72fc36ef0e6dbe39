-- SUMMARY: Collecting and resolving labels in a relocated document, and in one that is put together.
import AsmHighlight.Proofs.Label.Resolved
import AsmHighlight.Proofs.Relocation

/-!
# Labels after a relocation

The labels of a relocated document are the relocated labels
(`collectFrom_relocate`), and its references are resolved to them
(`resolveFrom_relocate`). One trace of the old places can be left: a repeated
declaration is reported with a hint that says where the first one stands, so
the reports are compared through a view of their hints under which these are the
same (`SameDuplicateHints`).

Of a document that is put together from two parts, the table holds the labels of
the first part and the new names of the second (`declareAll_eq_append`), and each
part has the references that it has on its own (`resolveFrom_append`), with other
attributes perhaps, since each part sees the labels of both
(`map_bare_resolveFrom`).
-/

namespace AsmHighlight.Label

-- ---------------------------------------------------------------------------
-- Collecting
-- ---------------------------------------------------------------------------

section Collect

variable {ρ : Relocation} {f : Option String → Option String}

theorem Table.lookup_relocate (table : Table) (name : String) :
    Table.lookup (table.map (relocate ρ)) name = (table.lookup name).map (relocate ρ) := by
  rw [lookup, List.find?_map]
  rfl

theorem Table.names_relocate (table : Table) :
    Table.names (table.map (relocate ρ)) = table.names := by
  rw [names, List.map_map]
  rfl

/-- Through the view, the hint on a repeated declaration is the same when the first one
    is moved. -/
def SameDuplicateHints (f : Option String → Option String) (ρ : Relocation) : Prop :=
  ∀ name range first, f (duplicate name range (relocate ρ first)).hint =
    f (duplicate name range first).hint

theorem sameDuplicateHints_none (ρ : Relocation) : SameDuplicateHints (fun _ => none) ρ :=
  fun _ _ _ => rfl

theorem sameDuplicateHints_id (h : ∀ p, (ρ.start p).text = p.text) : SameDuplicateHints id ρ := by
  intro name range first
  simp only [duplicate, relocate, Range.relocate, h]

theorem mapHint_duplicate (hf : SameDuplicateHints f ρ) (name : String) (range : Range)
    (first : Label) :
    (duplicate name (range.relocate ρ) (first.relocate ρ)).mapHint f =
      ((duplicate name range first).relocate ρ).mapHint f := by
  simp only [Diagnostic.mapHint, hf name _ first]
  rfl

/-- Collecting from a relocated document gives the relocated labels and reports. -/
theorem collectFrom_relocate (hf : SameDuplicateHints f ρ) (table : Table) (tokens : List Token) :
    (collectFrom (table.map (relocate ρ)) (tokens.map (Token.relocate ρ))).map
        (Prod.map id (List.map (Diagnostic.mapHint f))) =
      (collectFrom table tokens).map
        (Prod.map (List.map (relocate ρ)) (List.map fun d => (d.relocate ρ).mapHint f)) := by
  induction tokens generalizing table with
  | nil => rfl
  | cons t rest ih =>
    rw [List.map_cons, collectFrom, collectFrom, Token.category_relocate, Token.name?_relocate]
    split
    next =>
      cases t.name? with
      | none => rfl
      | some name =>
        simp only [Token.require, bind, Except.bind, Table.declare, Table.lookup_relocate]
        cases table.lookup name with
        | none =>
          have hadd := ih (table ++ [⟨name, t.range⟩])
          rw [List.map_append] at hadd
          exact hadd
        | some first =>
          have hrest := ih table
          simp only [Option.map_some]
          cases hc : collectFrom table rest with
          | error fault =>
            rw [hc] at hrest
            rw [Except.map_eq_error_iff.mp hrest]
            rfl
          | ok found =>
            rw [hc] at hrest
            obtain ⟨found', hc', hfound⟩ := Except.map_eq_ok_iff.mp hrest
            obtain ⟨hlabels, hduplicates⟩ := Prod.ext_iff.mp hfound
            rw [hc']
            refine congrArg Except.ok (Prod.ext hlabels ?_)
            exact congrArg₂ List.cons (mapHint_duplicate hf name t.range first) hduplicates
    next => exact ih table

end Collect

/-- The table with labels declared one after the other. -/
def Table.declareAll (table : Table) (labels : List Label) : Table :=
  labels.foldl (fun table label => (table.declare label.name label.range).1) table

/-- The labels of a table that another table does not know. -/
def Table.newTo (table labels : Table) : Table :=
  labels.filter fun label => (table.lookup label.name).isNone

section Declare

variable {table labels : Table} {label : Label}

theorem Table.declare_fst_of_none (h : table.lookup label.name = none) :
    (table.declare label.name label.range).1 = table ++ [label] := by
  rw [declare, h]

theorem Table.declare_fst_of_some {first : Label} (h : table.lookup label.name = some first) :
    (table.declare label.name label.range).1 = table := by
  rw [declare, h]

/-- Collecting declares the labels of the tokens one after the other. -/
theorem eq_declareAll_of_collectFrom {tokens : List Token} {duplicates : List Diagnostic}
    (h : collectFrom table tokens = .ok (labels, duplicates)) :
    labels = table.declareAll (tokens.filterMap ofToken?) := by
  induction tokens generalizing table duplicates with
  | nil =>
    cases h
    rfl
  | cons t rest ih =>
    rcases collectFrom_cons h with
      ⟨hnone, h⟩ | ⟨label, hlabel, hlookup, h⟩ | ⟨label, first, more, hlabel, hlookup, h, _⟩
    · rw [List.filterMap_cons_none hnone, ih h]
    · rw [List.filterMap_cons_some hlabel, ih h, Table.declareAll, Table.declareAll, List.foldl_cons,
        Table.declare_fst_of_none hlookup]
    · rw [List.filterMap_cons_some hlabel, ih h, Table.declareAll, Table.declareAll, List.foldl_cons,
        Table.declare_fst_of_some hlookup]

theorem Table.lookup_append (name : String) :
    Table.lookup (table ++ labels) name = (table.lookup name).or (labels.lookup name) :=
  List.find?_append

theorem Table.lookup_newTo {name : String} (h : table.lookup name = none) :
    (table.newTo labels).lookup name = labels.lookup name := by
  rw [lookup, lookup, newTo, List.find?_filter]
  congr 1
  funext label
  by_cases hname : label.name = name
  · simp [hname, h]
  · simp [hname]

/-- Declaring a label keeps a table apart from what it adds to another one. -/
theorem Table.declare_append_newTo (table labels : Table) (label : Label) :
    (Table.declare (table ++ table.newTo labels) label.name label.range).1 =
      table ++ table.newTo (labels.declare label.name label.range).1 := by
  cases htable : table.lookup label.name with
  | some first =>
    have hlookup : Table.lookup (table ++ table.newTo labels) label.name = some first := by
      rw [lookup_append, htable, Option.some_or]
    rw [declare_fst_of_some hlookup]
    -- The name is known, so it is not new whether the other table has it or not.
    cases hlabels : labels.lookup label.name with
    | some other => rw [declare_fst_of_some hlabels]
    | none => simp [declare_fst_of_none hlabels, newTo, htable]
  | none =>
    have hlookup : Table.lookup (table ++ table.newTo labels) label.name =
        labels.lookup label.name := by
      rw [lookup_append, htable, Option.none_or, lookup_newTo htable]
    cases hlabels : labels.lookup label.name with
    | some other =>
      rw [hlabels] at hlookup
      rw [declare_fst_of_some hlookup, declare_fst_of_some hlabels]
    | none =>
      rw [hlabels] at hlookup
      rw [declare_fst_of_none hlookup, declare_fst_of_none hlabels]
      simp [newTo, htable]

theorem Table.declareAll_append_newTo (table labels : Table) (more : List Label) :
    Table.declareAll (table ++ table.newTo labels) more =
      table ++ table.newTo (labels.declareAll more) := by
  induction more generalizing labels with
  | nil => rfl
  | cons label more ih => exact (congrArg (declareAll · more) (declare_append_newTo ..)).trans (ih _)

/-- Labels that are declared after those of a table add the names that are new to it. -/
theorem Table.declareAll_eq_append (table : Table) (more : List Label) :
    table.declareAll more = table ++ table.newTo (Table.declareAll [] more) := by
  rw [← declareAll_append_newTo, newTo, List.filter_nil, List.append_nil]

end Declare

-- ---------------------------------------------------------------------------
-- Resolving
-- ---------------------------------------------------------------------------

section Resolve

variable {g : Grammar} {caseSensitive : Bool} {severity : Severity}

section Relocate

variable (ρ : Relocation)

theorem isJumpOperand_relocate (previous : Option Token) (t : Token) :
    isJumpOperand g caseSensitive (previous.map (Token.relocate ρ)) (t.relocate ρ) =
      isJumpOperand g caseSensitive previous t := by
  cases previous with
  | none => rfl
  | some p =>
    have hline : ((p.relocate ρ).line == (t.relocate ρ).line) = (p.line == t.line) := by
      rw [Bool.eq_iff_iff, beq_iff_eq, beq_iff_eq]
      exact ρ.line_start _ _
    simp only [isJumpOperand, Option.map_some, Option.any_some, hline]
    rfl

theorem unresolved_relocate (table : Table) (t : Token) :
    unresolved severity (table.map (relocate ρ)) (t.relocate ρ) =
      (unresolved severity table t).relocate ρ := by
  simp only [unresolved, suggestion?, Table.names_relocate]
  rfl

theorem reference_relocate (table : Table) (t : Token) :
    reference (table.map (relocate ρ)) (t.relocate ρ) = (reference table t).relocate ρ := by
  simp only [reference, Token.text_relocate, Table.lookup_relocate]
  cases table.lookup t.text with
  | none => rfl
  | some label => rfl

/-- The references of a relocated document are the relocated references. -/
theorem resolveFrom_relocate (table : Table) (previous : Option Token) (tokens : List Token) :
    resolveFrom g caseSensitive severity (table.map (relocate ρ))
        (previous.map (Token.relocate ρ)) (tokens.map (Token.relocate ρ)) =
      Prod.map (List.map (Token.relocate ρ)) (List.map (Diagnostic.relocate ρ))
        (resolveFrom g caseSensitive severity table previous tokens) := by
  induction tokens generalizing previous with
  | nil => rfl
  | cons t rest ih =>
    have hrest := ih (some t)
    rw [Option.map_some] at hrest
    simp only [List.map_cons, resolveFrom, hrest, isJumpOperand_relocate, Token.text_relocate,
      Table.lookup_relocate, Option.isNone_map, reference_relocate, unresolved_relocate,
      apply_ite (Prod.map (List.map (Token.relocate ρ)) (List.map (Diagnostic.relocate ρ)))]
    split
    next =>
      split
      next => rfl
      next => rfl
    next => rfl

end Relocate

/-- What comes before, on other lines, is no jump to the tokens. -/
theorem resolveFrom_of_lines_ne {table : Table} {previous : Option Token} {tokens : List Token}
    (h : ∀ p ∈ previous, ∀ t ∈ tokens, p.line ≠ t.line) :
    resolveFrom g caseSensitive severity table previous tokens =
      resolveFrom g caseSensitive severity table none tokens := by
  cases tokens with
  | nil => rfl
  | cons t rest =>
    have hnone : isJumpOperand g caseSensitive previous t =
        isJumpOperand g caseSensitive none t := by
      cases previous with
      | none => rfl
      | some p =>
        have hne := h p rfl t (List.mem_cons_self ..)
        simp [isJumpOperand, hne]
    rw [resolveFrom, resolveFrom, hnone]

/-- Parts that share no line have the references that they have on their own. -/
theorem resolveFrom_append {table : Table} {previous : Option Token} {tokens more : List Token}
    (hprevious : ∀ p ∈ previous, ∀ u ∈ more, p.line ≠ u.line)
    (h : ∀ t ∈ tokens, ∀ u ∈ more, t.line ≠ u.line) :
    (resolveFrom g caseSensitive severity table previous (tokens ++ more)).1 =
      (resolveFrom g caseSensitive severity table previous tokens).1 ++
        (resolveFrom g caseSensitive severity table none more).1 := by
  induction tokens generalizing previous with
  | nil => rw [List.nil_append, resolveFrom_of_lines_ne hprevious, resolveFrom, List.nil_append]
  | cons t rest ih =>
    have hrest := @ih (some t) (by rintro _ ⟨⟩; exact h t (List.mem_cons_self ..))
      fun u hu => h u (List.mem_cons_of_mem t hu)
    simp only [List.cons_append, resolveFrom]
    split
    next => exact congrArg (List.cons _) hrest
    next => exact congrArg (List.cons _) hrest

end Resolve

end AsmHighlight.Label

namespace AsmHighlight

/-- The token without what is known of the label that it refers to. -/
def Token.bare (t : Token) : Token :=
  if t.category = .labelReference then { t with attributes := [] } else t

theorem Token.map_span_bare (tokens : List Token) :
    (tokens.map bare).map span = tokens.map span := by
  rw [List.map_map]
  refine List.map_congr_left fun t _ => ?_
  unfold Function.comp bare
  split
  next => rfl
  next => rfl

theorem Label.bare_reference (table : Table) (t : Token) :
    (reference table t).bare = { t with category := .labelReference, attributes := [] } := by
  unfold reference
  split
  next => rfl
  next => rfl

/-- The table matters for the attributes of references only. -/
theorem Label.map_bare_resolveFrom {g : Grammar} {caseSensitive : Bool} {severity : Severity}
    (table table' : Table) (previous : Option Token) (tokens : List Token) :
    (resolveFrom g caseSensitive severity table previous tokens).1.map Token.bare =
      (resolveFrom g caseSensitive severity table' previous tokens).1.map Token.bare := by
  apply List.ext_getElem?
  intro i
  simp only [List.getElem?_map, resolveFrom_getElem?, Option.map_map]
  congr 1
  funext t
  simp only [Function.comp_apply, apply_ite Token.bare, bare_reference]

end AsmHighlight
