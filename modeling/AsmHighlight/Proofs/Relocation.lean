-- SUMMARY: Moving what stands in a document to other places.
import AsmHighlight.Lexeme.Basic
import AsmHighlight.Stream.Basic
import Mathlib.Data.List.Forall2
import Mathlib.Logic.Function.Basic
import Mathlib.Tactic.Ext

/-!
# Relocations

A relocation says where the starts and the ends in a document go. Two places are
on one line after it exactly when they were before, which is all that the
analysis of a document knows of places. Starts and ends are moved apart from
each other, because pieces that touch in one document need not touch in another.

A relocation can also forget (`forgetOffsets`, `forgetColumns`): streams that
are equal after it agree on all but what was forgotten.

Lexemes that stand on the same lines in two documents give a relocation from the
one to the other (`exists_relocation`).
-/

namespace AsmHighlight

/-- Where the starts and the ends in a document go. -/
@[ext] structure Relocation where
  start : Position → Position
  stop : Position → Position
  line_start : ∀ p q, (start p).line = (start q).line ↔ p.line = q.line

namespace Relocation

/-- Everything stays. -/
def refl : Relocation :=
  ⟨id, id, fun _ _ => Iff.rfl⟩

/-- One relocation after the other. -/
def trans (ρ τ : Relocation) : Relocation where
  start p := τ.start (ρ.start p)
  stop p := τ.stop (ρ.stop p)
  line_start p q := (τ.line_start _ _).trans (ρ.line_start p q)

/-- Everything goes down by a number of lines and on by a number of characters. -/
def move (lines chars : Int) : Relocation where
  start p := ⟨p.line + lines, p.column, p.offset + chars⟩
  stop p := ⟨p.line + lines, p.column, p.offset + chars⟩
  line_start p q := by simp

/-- Lines and columns stay, and offsets are forgotten. -/
def forgetOffsets : Relocation where
  start p := ⟨p.line, p.column, 0⟩
  stop p := ⟨p.line, p.column, 0⟩
  line_start _ _ := Iff.rfl

/-- Lines stay, and columns and offsets are forgotten. -/
def forgetColumns : Relocation where
  start p := ⟨p.line, 0, 0⟩
  stop p := ⟨p.line, 0, 0⟩
  line_start _ _ := Iff.rfl

end Relocation

-- ---------------------------------------------------------------------------
-- What is moved
-- ---------------------------------------------------------------------------

/-- The range after a relocation. -/
def Range.relocate (ρ : Relocation) (r : Range) : Range :=
  ⟨ρ.start r.start, ρ.stop r.stop⟩

/-- The lexeme after a relocation. -/
def Lexeme.relocate (ρ : Relocation) (l : Lexeme) : Lexeme :=
  { l with range := l.range.relocate ρ }

/-- The attribute after a relocation; only the place of a declaration moves. -/
def Token.Attribute.relocate (ρ : Relocation) : Attribute → Attribute
  | .declaration r => .declaration (r.relocate ρ)
  | a => a

/-- The token after a relocation. -/
def Token.relocate (ρ : Relocation) (t : Token) : Token :=
  { t with range := t.range.relocate ρ, attributes := t.attributes.map (Attribute.relocate ρ) }

/-- The label after a relocation. -/
def Label.relocate (ρ : Relocation) (label : Label) : Label :=
  { label with range := label.range.relocate ρ }

/-- The diagnostic after a relocation. A place in its hint is text and stays. -/
def Diagnostic.relocate (ρ : Relocation) (d : Diagnostic) : Diagnostic :=
  { d with range := d.range.relocate ρ }

/-- The stream after a relocation. -/
def Stream.relocate (ρ : Relocation) (s : Stream) : Stream where
  version := s.version
  tokens := s.tokens.map (Token.relocate ρ)
  diagnostics := s.diagnostics.map (Diagnostic.relocate ρ)
  labels := s.labels.map (Label.relocate ρ)
  dropped := s.dropped

/-- The diagnostic with another hint. -/
def Diagnostic.mapHint (f : Option String → Option String) (d : Diagnostic) : Diagnostic :=
  { d with hint := f d.hint }

/-- The stream with other hints on its diagnostics. -/
def Stream.mapHints (f : Option String → Option String) (s : Stream) : Stream :=
  { s with diagnostics := s.diagnostics.map (Diagnostic.mapHint f) }

theorem Stream.mapHints_id (s : Stream) : s.mapHints id = s := by
  have hid : Diagnostic.mapHint id = id := rfl
  rw [mapHints, hid, List.map_id]

section Moved

variable {ρ τ : Relocation}

@[simp] theorem Lexeme.kind_relocate (l : Lexeme) : (l.relocate ρ).kind = l.kind := rfl
@[simp] theorem Lexeme.text_relocate (l : Lexeme) : (l.relocate ρ).text = l.text := rfl
@[simp] theorem Lexeme.error_relocate (l : Lexeme) : (l.relocate ρ).error = l.error := rfl
@[simp] theorem Token.category_relocate (t : Token) : (t.relocate ρ).category = t.category := rfl
@[simp] theorem Token.text_relocate (t : Token) : (t.relocate ρ).text = t.text := rfl

/-- What reads no place from an attribute finds the same after a relocation. -/
theorem Token.findSome?_relocate {α : Type} {f : Attribute → Option α}
    (hf : ∀ a, f (a.relocate ρ) = f a) (t : Token) :
    (t.relocate ρ).attributes.findSome? f = t.attributes.findSome? f := by
  rw [relocate, List.findSome?_map]
  exact congrArg (fun f => t.attributes.findSome? f) (funext hf)

theorem Token.name?_relocate (t : Token) : (t.relocate ρ).name? = t.name? :=
  findSome?_relocate (fun a => by cases a <;> rfl) t

theorem Token.integerValue?_relocate (t : Token) : (t.relocate ρ).integerValue? = t.integerValue? :=
  findSome?_relocate (fun a => by cases a <;> rfl) t

theorem Token.directiveName?_relocate (t : Token) :
    (t.relocate ρ).directiveName? = t.directiveName? :=
  findSome?_relocate (fun a => by cases a <;> rfl) t

theorem Token.reason?_relocate (t : Token) : (t.relocate ρ).reason? = t.reason? :=
  findSome?_relocate (fun a => by cases a <;> rfl) t

theorem Token.hint?_relocate (t : Token) : (t.relocate ρ).hint? = t.hint? :=
  findSome?_relocate (fun a => by cases a <;> rfl) t

theorem Token.isResolved_relocate (t : Token) : (t.relocate ρ).isResolved = t.isResolved := by
  rw [isResolved, relocate, List.any_map]
  exact congrArg t.attributes.any (funext fun a => by cases a <;> rfl)

-- ---------------------------------------------------------------------------
-- Two relocations
-- ---------------------------------------------------------------------------

theorem Token.relocate_trans (t : Token) : (t.relocate ρ).relocate τ = t.relocate (ρ.trans τ) := by
  have hattribute (a : Attribute) : (a.relocate ρ).relocate τ = a.relocate (ρ.trans τ) := by
    cases a <;> rfl
  simp only [relocate, List.map_map]
  congr 1
  exact List.map_congr_left fun a _ => hattribute a

theorem Stream.relocate_trans (s : Stream) :
    (s.relocate ρ).relocate τ = s.relocate (ρ.trans τ) := by
  simp only [relocate, List.map_map]
  congr 1
  exact List.map_congr_left fun t _ => t.relocate_trans

theorem Relocation.trans_forgetOffsets (hstart : ∀ p, (ρ.start p).line = p.line ∧
      (ρ.start p).column = p.column)
    (hstop : ∀ p, (ρ.stop p).line = p.line ∧ (ρ.stop p).column = p.column) :
    ρ.trans forgetOffsets = forgetOffsets := by
  ext p
  all_goals simp [trans, forgetOffsets, hstart, hstop]

theorem Relocation.trans_forgetColumns (hstart : ∀ p, (ρ.start p).line = p.line)
    (hstop : ∀ p, (ρ.stop p).line = p.line) : ρ.trans forgetColumns = forgetColumns := by
  ext p
  all_goals simp [trans, forgetColumns, hstart, hstop]

end Moved

-- ---------------------------------------------------------------------------
-- From one document to another
-- ---------------------------------------------------------------------------

/-- The lexemes differ in their places only, and these are related. -/
structure Lexeme.Alike (R : Position → Position → Prop) (l q : Lexeme) : Prop where
  kind : q.kind = l.kind
  text : q.text = l.text
  error : q.error = l.error
  start : R l.range.start q.range.start
  stop : R l.range.stop q.range.stop

section Alike

variable {R : Position → Position → Prop} (hrefl : ∀ p, R p p)

include hrefl

/-- Places that are moved one at a time are moved by one function, if no place is met
    twice. -/
theorem exists_moves {lexemes moved : List Lexeme}
    (h : List.Forall₂ (Lexeme.Alike R) lexemes moved)
    (hapart : lexemes.Pairwise fun l q =>
      l.range.start ≠ q.range.start ∧ l.range.stop ≠ q.range.stop) :
    ∃ start stop : Position → Position, (∀ p, R p (start p)) ∧ (∀ p, R p (stop p)) ∧
      moved = lexemes.map fun l => { l with range := ⟨start l.range.start, stop l.range.stop⟩ } := by
  induction h with
  | nil => exact ⟨id, id, hrefl, hrefl, rfl⟩
  | @cons l q lexemes moved hlq _ ih =>
    obtain ⟨hl, hapart⟩ := List.pairwise_cons.mp hapart
    obtain ⟨start, stop, hstart, hstop, rfl⟩ := ih hapart
    refine ⟨Function.update start l.range.start q.range.start,
      Function.update stop l.range.stop q.range.stop, ?_, ?_, ?_⟩
    · exact (Function.forall_update_iff start R).mpr ⟨hlq.start, fun p _ => hstart p⟩
    · exact (Function.forall_update_iff stop R).mpr ⟨hlq.stop, fun p _ => hstop p⟩
    · obtain ⟨kind, text, range, error⟩ := q
      obtain ⟨rfl, rfl, rfl, _, _⟩ := hlq
      rw [List.map_cons, Function.update_self, Function.update_self]
      congr 1
      refine List.map_congr_left fun m hm => ?_
      obtain ⟨hstart, hstop⟩ := hl m hm
      rw [Function.update_of_ne hstart.symm, Function.update_of_ne hstop.symm]

/-- Lexemes that stand on the same lines in two documents give a relocation. -/
theorem exists_relocation (hline : ∀ p q, R p q → q.line = p.line)
    {lexemes moved : List Lexeme} (h : List.Forall₂ (Lexeme.Alike R) lexemes moved)
    (hapart : lexemes.Pairwise fun l q =>
      l.range.start ≠ q.range.start ∧ l.range.stop ≠ q.range.stop) :
    ∃ ρ : Relocation, (∀ p, R p (ρ.start p)) ∧ (∀ p, R p (ρ.stop p)) ∧
      moved = lexemes.map (Lexeme.relocate ρ) := by
  obtain ⟨start, stop, hstart, hstop, hmoved⟩ := exists_moves hrefl h hapart
  refine ⟨⟨start, stop, fun p q => ?_⟩, hstart, hstop, hmoved⟩
  rw [hline _ _ (hstart p), hline _ _ (hstart q)]

end Alike

end AsmHighlight
