-- SUMMARY: The numbers of references that the list of labels shows.
import AsmHighlight.Proofs.Command.Session
import AsmHighlight.Proofs.Highlighter.References
import AsmHighlight.Proofs.Keyed

/-!
# Counted references

References are counted by the attributes that resolution has left on them: one
that is resolved counts for the name that it carries. On a highlighted document
these attributes tell the same as the text of the reference, the label table and
the diagnostics. So the count of a label is the number of references to it, only
labels are counted, and a reference that is not counted is one that a diagnostic
is about (`references_counted`).
-/

namespace AsmHighlight

/-- No token has both a new name and one of the others as its text. -/
theorem Token.countP_text_mem_cons {name : String} {names : List String} (h : name ∉ names)
    (tokens : List Token) :
    tokens.countP (fun t => t.text ∈ name :: names) =
      tokens.countP (fun t => t.text = name) + tokens.countP fun t => t.text ∈ names := by
  induction tokens with
  | nil => rfl
  | cons t rest ih =>
    simp only [List.countP_cons, List.mem_cons, decide_eq_true_eq] at ih ⊢
    by_cases hfirst : t.text = name
    · simp only [hfirst, h, true_or, if_true, if_false]
      omega
    · simp only [hfirst, false_or, if_false]
      omega

/-- Tokens are counted name by name without counting one twice. -/
theorem Token.sum_countP_text {names : List String} (h : names.Nodup) (tokens : List Token) :
    (names.map fun name => tokens.countP fun t => t.text = name).sum =
      tokens.countP fun t => t.text ∈ names := by
  induction names with
  | nil => simp
  | cons name names ih =>
    obtain ⟨hnew, hrest⟩ := List.nodup_cons.mp h
    rw [List.map_cons, List.sum_cons, ih hrest, countP_text_mem_cons hnew]

-- ---------------------------------------------------------------------------
-- Counting
-- ---------------------------------------------------------------------------

namespace Command.Session

theorem countOf_put (counts : List (String × Nat)) (name other : String) (n : Nat) :
    countOf (Keyed.put counts name n) other = if name = other then n else countOf counts other := by
  unfold countOf
  split
  next heq => rw [← heq, Keyed.get?_put_self, Option.getD_some]
  next hne => rw [Keyed.get?_put_of_ne counts n hne]

/-- The table counts the resolved tokens, by their texts, on top of another table. -/
structure Counted (before : List (String × Nat)) (tokens : List Token)
    (after : List (String × Nat)) : Prop where
  countOf_eq : ∀ name, countOf after name =
    countOf before name + tokens.countP fun t => t.isResolved && t.text = name
  known : ∀ name ∈ Keyed.names after,
    name ∈ Keyed.names before ∨ ∃ t ∈ tokens, t.isResolved = true ∧ t.text = name

theorem Counted.of_not_isResolved {before after : List (String × Nat)} {t : Token}
    {rest : List Token} (h : Counted before rest after) (ht : ¬ t.isResolved = true) :
    Counted before (t :: rest) after where
  countOf_eq name := by simp [h.countOf_eq, ht]
  known name hname := by simpa [ht] using h.known name hname

theorem Counted.of_isResolved {before after : List (String × Nat)} {t : Token}
    {rest : List Token} (ht : t.isResolved = true)
    (h : Counted (Keyed.put before t.text (countOf before t.text + 1)) rest after) :
    Counted before (t :: rest) after where
  countOf_eq name := by
    rw [h.countOf_eq, countOf_put, List.countP_cons]
    by_cases hname : t.text = name
    · simp only [hname, ht, if_true, decide_true, Bool.and_true]
      omega
    · simp [hname]
  known name hname := by
    rcases h.known name hname with hbefore | ⟨u, hu, hresolved, hname⟩
    · rw [Keyed.names_put, Keyed.mem_addName] at hbefore
      refine hbefore.imp_right fun hname => ?_
      exact ⟨t, List.mem_cons_self .., ht, hname.symm⟩
    · exact .inr ⟨u, List.mem_cons_of_mem t hu, hresolved, hname⟩

/-- Tokens that carry their text as a name are all counted. -/
theorem exists_countFrom_eq_ok {tokens : List Token}
    (hnamed : ∀ t ∈ tokens, t.name? = some t.text) (before : List (String × Nat)) :
    ∃ after, countFrom before tokens = .ok after ∧ Counted before tokens after := by
  induction tokens generalizing before with
  | nil => exact ⟨before, rfl, by simp, by simp⟩
  | cons t rest ih =>
    obtain ⟨hname, hrest⟩ := List.forall_mem_cons.mp hnamed
    unfold countFrom
    split
    next ht =>
      obtain ⟨after, hafter, hcounted⟩ :=
        ih hrest (Keyed.put before t.text (countOf before t.text + 1))
      rw [hname]
      exact ⟨after, hafter, hcounted.of_isResolved ht⟩
    next ht =>
      obtain ⟨after, hafter, hcounted⟩ := ih hrest before
      exact ⟨after, hafter, hcounted.of_not_isResolved ht⟩

end Command.Session

-- ---------------------------------------------------------------------------
-- Highlighted documents
-- ---------------------------------------------------------------------------

namespace Highlighter.Steps

variable {h : Highlighter} {source : String} (steps : Steps h source)

/-- A reference carries its text as a name, and is resolved if that is the name of a label. -/
theorem reference_of_mem {t : Token} (ht : t ∈ steps.checked)
    (hcat : t.category = .labelReference) :
    t.name? = some t.text ∧ (t.isResolved = true ↔ t.text ∈ steps.labels.names) := by
  obtain ⟨i, hi⟩ := List.mem_iff_getElem?.mp ht
  obtain ⟨c, _, _, rfl⟩ := steps.exists_operand_of_category hi hcat
  rw [Label.name?_reference, Label.text_reference, Label.isResolved_reference,
    Label.Table.isSome_lookup_iff]
  exact ⟨rfl, Iff.rfl⟩

/-- The unknown references of a document are those that resolution reports. -/
theorem countP_isUnknownReference :
    steps.checked.countP Label.isUnknownReference =
      (h.resolution steps.labels steps.tokens).2.length := by
  have hclassified : ∀ t ∈ steps.tokens, t.category ≠ .labelReference := by
    intro t ht
    obtain ⟨i, hi⟩ := List.mem_iff_getElem?.mp ht
    obtain ⟨l, _, hclass⟩ := steps.pass.exists_lexeme hi
    exact Token.category_ne_labelReference hclass
  have hmark (t : Token) :
      Label.isUnknownReference (Directive.mark h.grammar t) = Label.isUnknownReference t := by
    by_cases hcat : t.category = .directiveKeyword
    · simp [Label.isUnknownReference, Directive.category_mark, hcat]
    · rw [Directive.mark_of_category_ne hcat]
  rw [Directive.eq_map_mark_of_check steps.check_eq, List.countP_map]
  simp only [Function.comp_def, hmark]
  exact Label.countP_isUnknownReference_resolveFrom hclassified none

end Highlighter.Steps

namespace Command

/-- The number of references to a name, whether there is a label of that name or not. -/
def referencesTo (s : Stream) (name : String) : Nat :=
  (s.tokensOf .labelReference).countP fun t => t.text = name

/-- The table counts the references to each label of the stream. -/
structure ReferencesCounted (s : Stream) (counts : List (String × Nat)) : Prop where
  countOf_eq : ∀ label ∈ s.labels, Session.countOf counts label.name = referencesTo s label.name
  /-- Only labels of the stream are counted. -/
  known : ∀ name ∈ Keyed.names counts, name ∈ s.labels.names

variable {h : Highlighter} {source : String} (steps : Highlighter.Steps h source)

theorem mem_references {version : Json} {t : Token}
    (ht : t ∈ (steps.stream version).tokensOf .labelReference) :
    t ∈ steps.checked ∧ t.category = .labelReference := by
  rw [Stream.tokensOf, steps.tokens_stream] at ht
  simpa using ht

theorem exists_referencesCounted (version : Json) :
    ∃ counts, Session.countReferences (steps.stream version) = .ok counts ∧
      ReferencesCounted (steps.stream version) counts := by
  have htold {t : Token} (ht : t ∈ (steps.stream version).tokensOf .labelReference) :=
    steps.reference_of_mem (mem_references steps ht).1 (mem_references steps ht).2
  obtain ⟨counts, hcounts, hcounted⟩ :=
    Session.exists_countFrom_eq_ok (fun t ht => (htold ht).1) []
  refine ⟨counts, hcounts, fun label hlabel => ?_, fun name hname => ?_⟩
  · rw [hcounted.countOf_eq]
    have hzero : Session.countOf [] label.name = 0 := rfl
    rw [hzero, Nat.zero_add, referencesTo]
    refine List.countP_congr fun t ht => ?_
    rw [Bool.and_eq_true, decide_eq_true_eq, and_iff_right_iff_imp]
    intro htext
    rw [(htold ht).2, htext]
    exact List.mem_map_of_mem hlabel
  · rcases hcounted.known name hname with hnone | ⟨t, ht, hresolved, rfl⟩
    · cases hnone
    · exact (htold ht).2.mp hresolved

/-- Each reference is to one label, or unknown and reported. -/
theorem sum_referencesTo (hcap : h.policy.cap = none) (version : Json) :
    (steps.labels.map fun label => referencesTo (steps.stream version) label.name).sum +
        (steps.stream version).diagnostics.countP (fun d => d.code = .unresolvedReference) =
      ((steps.stream version).tokensOf .labelReference).length := by
  have hsum : (steps.labels.map fun label =>
      referencesTo (steps.stream version) label.name).sum =
        ((steps.stream version).tokensOf .labelReference).countP fun t => t.isResolved := by
    calc (steps.labels.map fun label => referencesTo (steps.stream version) label.name).sum
        = (steps.labels.names.map (referencesTo (steps.stream version))).sum := by
          rw [Label.Table.names, List.map_map]
          rfl
      _ = ((steps.stream version).tokensOf .labelReference).countP
            fun t => t.text ∈ steps.labels.names :=
          Token.sum_countP_text (Label.nodup_names steps.collect_eq) _
      _ = ((steps.stream version).tokensOf .labelReference).countP fun t => t.isResolved := by
          refine List.countP_congr fun t ht => ?_
          obtain ⟨hmem, hcat⟩ := mem_references steps ht
          rw [decide_eq_true_eq, (steps.reference_of_mem hmem hcat).2]
  have hunknown : (steps.stream version).diagnostics.countP
      (fun d => d.code = .unresolvedReference) =
        ((steps.stream version).tokensOf .labelReference).countP fun t => !t.isResolved := by
    rw [List.countP_eq_length_filter, steps.filter_unresolvedReference hcap,
      ← steps.countP_isUnknownReference, Stream.tokensOf, steps.tokens_stream, List.countP_filter]
    refine List.countP_congr fun t _ => ?_
    rw [Label.isUnknownReference, Bool.and_comm]
  rw [hsum, hunknown, List.length_eq_countP_add_countP (fun t : Token => t.isResolved)]
  simp only [Bool.not_eq_true, Bool.decide_eq_false]

/-- What the list of labels shows of a stream with labels. -/
theorem listLabels_of_counted {s : Stream} {counts : List (String × Nat)}
    (hcounts : Session.countReferences s = .ok counts) (hcounted : ReferencesCounted s counts)
    (hlabels : s.labels ≠ []) (t : Transcript) :
    Session.listLabels t s =
      ⟨(s.labels.map fun label => Session.labelLine label (referencesTo s label.name)).foldl
        Transcript.echo t, .exit success⟩ := by
  have hlines : (s.labels.map fun label =>
      Session.labelLine label (Session.countOf counts label.name)) =
        s.labels.map fun label => Session.labelLine label (referencesTo s label.name) :=
    List.map_congr_left fun label hlabel => by rw [hcounted.countOf_eq label hlabel]
  have hnonempty : s.labels.isEmpty = false := by simpa using hlabels
  simp only [Session.listLabels, hnonempty, hcounts, hlines, Bool.false_eq_true, if_false]

/-- On a highlighted document counting does not fail. The count of each label is the number of
    references to it, which the list of labels shows, and with the unknown references that is
    all of them. -/
theorem references_counted (h : Highlighter) {source : String} {version : Json} {s : Stream}
    (hok : h.highlight source version = .ok s) :
    ∃ counts, Session.countReferences s = .ok counts ∧ ReferencesCounted s counts ∧
      (h.policy.cap = none →
        (s.labels.map fun label => Session.countOf counts label.name).sum +
            s.diagnostics.countP (fun d => d.code = .unresolvedReference) =
          (s.tokensOf .labelReference).length) ∧
      ∀ (session : Session) (file : String), session.streamOf file = .ok s → s.labels ≠ [] →
        ∃ t : Transcript, t.output = "" ∧ session.labels file =
          ⟨(s.labels.map fun label => Session.labelLine label (referencesTo s label.name)).foldl
            Transcript.echo t, .exit success⟩ := by
  obtain ⟨steps, rfl⟩ := Highlighter.highlight_eq_ok_iff.mp hok
  obtain ⟨counts, hcounts, hcounted⟩ := exists_referencesCounted steps version
  refine ⟨counts, hcounts, hcounted, fun hcap => ?_, fun session file hstream hlabels => ?_⟩
  · rw [← sum_referencesTo steps hcap version]
    congr 2
    exact List.map_congr_left hcounted.countOf_eq
  · obtain ⟨t, hempty, hprints⟩ := Session.onFile_of_ok hstream
    refine ⟨t, hempty, ?_⟩
    rw [Session.labels, hprints]
    exact listLabels_of_counted hcounts hcounted hlabels t

/-- A document with jumps in both directions, and one to a name in another case. -/
def bothWays : File.Tree :=
  documents [("a.lasm", "jp a\n.a: jp A\n.b jp a".toList)]

/-- References before and behind the declaration are counted, the one in another case is not. -/
theorem references_counted_both_ways :
    ∃ s, (Session.mk bothWays [] false none).streamOf "a.lasm" = .ok s ∧
      s.labels.names = ["a", "b"] ∧ s.diagnostics.map Diagnostic.code = [.unresolvedReference] ∧
      (∃ counts, Session.countReferences s = .ok counts ∧ ReferencesCounted s counts ∧
        (s.labels.map fun label => Session.countOf counts label.name).sum + 1 =
          (s.tokensOf .labelReference).length) ∧
      ∃ t : Transcript, t.output = "" ∧
        (Session.mk bothWays [] false none).labels "a.lasm" =
          ⟨(s.labels.map fun label => Session.labelLine label (referencesTo s label.name)).foldl
            Transcript.echo t, .exit success⟩ := by
  have hready : (Session.mk bothWays [] false none).prepare.result =
      .ok Highlighter.standard := by
    with_unfolding_all rfl
  have hsource : Highlighter.readSource bothWays .utf8 (File.normalize "a.lasm") =
      .ok "jp a\n.a: jp A\n.b jp a" := by
    with_unfolding_all rfl
  have hfound : (Highlighter.standard.highlight "jp a\n.a: jp A\n.b jp a"
      (.str (File.normalize "a.lasm"))).toOption.map
        (fun s => (s.labels.names, s.diagnostics.map Diagnostic.code)) =
          some (["a", "b"], [.unresolvedReference]) := by with_unfolding_all decide
  cases hok : Highlighter.standard.highlight "jp a\n.a: jp A\n.b jp a"
      (.str (File.normalize "a.lasm")) with
  | error fault => rw [hok] at hfound; cases hfound
  | ok s =>
    rw [hok] at hfound
    obtain ⟨hnames, hcodes⟩ := Prod.mk.inj (Option.some.inj hfound)
    have hstream : (Session.mk bothWays [] false none).streamOf "a.lasm" = .ok s :=
      Session.streamOf_eq_ok_iff.mpr ⟨_, _, hready, hsource, hok⟩
    have hlabels : s.labels ≠ [] := by
      intro hnil
      rw [hnil] at hnames
      cases hnames
    obtain ⟨counts, hcounts, hcounted, htotal, hshown⟩ := references_counted .standard hok
    have hone : s.diagnostics.countP (fun d => d.code = .unresolvedReference) = 1 := by
      have hcount := congrArg (List.countP fun code => code = Diagnostic.Code.unresolvedReference)
        hcodes
      rw [List.countP_map] at hcount
      exact hcount
    rw [hone] at htotal
    exact ⟨s, hstream, hnames, hcodes, ⟨counts, hcounts, hcounted, htotal rfl⟩,
      hshown _ _ hstream hlabels⟩

end Command

end AsmHighlight
