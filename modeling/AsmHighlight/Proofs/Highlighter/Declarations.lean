-- SUMMARY: The labels that a document declares, as its stream lists and reports them.
import AsmHighlight.Proofs.Highlighter.Places

/-!
# Declarations

Which lexemes declare a label can be said without classification: the first of
a line, if it is a word that consists of a point, a name and perhaps a colon
(`Label.Declares`). The stream gives exactly these as label declarations, lists
the first of each name in its table, and reports every other
(`declarations_reported`).
-/

namespace AsmHighlight.Highlighter

/-- What a stream reports of the labels that the lexemes of its document declare. -/
structure DeclarationsReported (lexemes : List Lexeme) (s : Stream) : Prop where
  /-- Each token stands where the lexeme at its place stands. -/
  map_span : s.tokens.map Token.span = lexemes.map Lexeme.span
  /-- The table lists the first declaration of each name, in the order of the document. -/
  listed : Enumerates (Label.DeclaredFirst lexemes) s.labels
  mem_names_iff : ∀ name, name ∈ s.labels.names ↔ ∃ i, Label.Declares lexemes i name
  category_iff : ∀ (i : Nat) (t : Token), s.tokens[i]? = some t →
    (t.category = .labelDeclaration ↔ ∃ name, Label.Declares lexemes i name)
  /-- There is one report for each repeated declaration, in the order of the document. -/
  reported : Enumerates (fun i d => ∃ first, Label.Repeats lexemes i first d)
    (s.diagnostics.filter fun d => d.code = .duplicateLabel)
  repeated_iff : ∀ i, (∃ first d, Label.Repeats lexemes i first d) ↔
    ∃ name, Label.Declares lexemes i name ∧ ∃ j < i, Label.Declares lexemes j name

namespace Steps

variable {h : Highlighter} {source : String} (steps : Steps h source)

theorem category_eq_labelDeclaration_iff {i : Nat} {t : Token} (ht : steps.checked[i]? = some t) :
    t.category = .labelDeclaration ↔ ∃ name, Label.Declares (h.lexemes source) i name := by
  obtain ⟨c, hc, _, hbecomes⟩ := steps.exists_classified ht
  rw [← Label.category_eq_labelDeclaration_iff steps.pass hc]
  rcases hbecomes with ⟨hop, rfl⟩ | ⟨_, rfl⟩
  · rw [Label.category_reference, steps.category_of_isOperandAt hop]
    simp
  · rw [Directive.category_mark]

theorem mem_names_iff {name : String} :
    name ∈ steps.labels.names ↔ ∃ i, Label.Declares (h.lexemes source) i name := by
  rw [← Label.Table.isSome_lookup_iff, Label.isSome_lookup_iff steps.pass steps.collect_eq]

end Steps

/-- With no cap on diagnostics, a stream reports all that the lexemes declare. -/
theorem declarations_reported (h : Highlighter) (hcap : h.policy.cap = none) {source : String}
    {version : Json} {s : Stream} (hok : h.highlight source version = .ok s) :
    DeclarationsReported (h.lexemes source) s := by
  obtain ⟨steps, rfl⟩ := highlight_eq_ok_iff.mp hok
  constructor
  case map_span =>
    rw [steps.tokens_stream]
    exact steps.map_span
  case listed =>
    refine (Label.enumerates_labels steps.collect_eq).congr fun i label => ?_
    exact Label.firstAt_iff steps.pass
  case mem_names_iff =>
    intro name
    exact steps.mem_names_iff
  case category_iff =>
    rw [steps.tokens_stream]
    intro i t ht
    exact steps.category_eq_labelDeclaration_iff ht
  case reported =>
    rw [steps.filter_duplicateLabel hcap]
    exact Label.enumerates_repeats steps.pass steps.collect_eq
  case repeated_iff =>
    intro i
    exact Label.exists_repeats_iff

/-- Two names in either spelling, of which one is declared again. -/
theorem declarations_reported_repeated :
    ∃ s, standard.highlight ".b: nop\n.a\n .b ;.b" = .ok s ∧ s.labels.names = ["b", "a"] ∧
      s.diagnostics.map Diagnostic.hint = [some "'b' was first declared at 1:1"] ∧
      DeclarationsReported (standard.lexemes ".b: nop\n.a\n .b ;.b") s := by
  have hfound : (standard.highlight ".b: nop\n.a\n .b ;.b").toOption.map
      (fun s => (s.labels.names, s.diagnostics.map Diagnostic.hint)) =
        some (["b", "a"], [some "'b' was first declared at 1:1"]) := by with_unfolding_all decide
  cases hok : standard.highlight ".b: nop\n.a\n .b ;.b" with
  | error fault => rw [hok] at hfound; cases hfound
  | ok s =>
    rw [hok] at hfound
    obtain ⟨hnames, hhints⟩ := Prod.mk.inj (Option.some.inj hfound)
    exact ⟨s, rfl, hnames, hhints, declarations_reported standard rfl hok⟩

end AsmHighlight.Highlighter
