-- SUMMARY: What each remark on a directive is about, and where it stands.
import AsmHighlight.Proofs.Directive.Checked

/-!
# Remarks on directives

Checking remarks on a directive without operands, on the first operand, or on
all operands after the first (`Remark`). The range of the last kind of remark
goes from one token to another; both are operands, so they stand on the line of
the directive (`line_of_mem_operands`).
-/

namespace AsmHighlight.Directive

/-- The remark is about a directive with these operands. -/
inductive Remark (keyword : Token) : List Token → Diagnostic → Prop where
  | missing {r : Diagnostic} (hcode : r.code = .operandMissing)
      (hrange : r.range = keyword.range) : Remark keyword [] r
  | first {o : Token} {more : List Token} {r : Diagnostic}
      (hcode : r.code = .operandKind ∨ r.code = .operandRange) (hrange : r.range = o.range) :
      Remark keyword (o :: more) r
  | surplus {o first : Token} {more : List Token} {r : Diagnostic}
      (hcode : r.code = .operandSurplus)
      (hrange : r.range = ⟨first.range.start, (more.getLastD first).range.stop⟩) :
      Remark keyword (o :: first :: more) r

/-- The code of a remark says that it is about a directive. -/
def isRemarkCode (code : Diagnostic.Code) : Bool :=
  code ∈ [.operandMissing, .operandKind, .operandRange, .operandSurplus]

theorem Remark.isRemarkCode {keyword : Token} {ops : List Token} {r : Diagnostic}
    (h : Remark keyword ops r) : isRemarkCode r.code = true := by
  cases h with
  | missing hcode => rw [hcode]; rfl
  | first hcode => rcases hcode with hcode | hcode <;> rw [hcode] <;> rfl
  | surplus hcode => rw [hcode]; rfl

section

variable {g : Grammar} {d : Directive} {keyword : Token}

/-- There is at most one remark on the first operand, and it has the operand's range. -/
theorem checkFirst_eq_ok {o : Token} {found : List Diagnostic}
    (h : checkFirst d keyword o = .ok found) :
    found = [] ∨ ∃ r, found = [r] ∧ (r.code = .operandKind ∨ r.code = .operandRange) ∧
      r.range = o.range := by
  unfold checkFirst at h
  split at h
  next => cases h; exact .inl rfl
  next =>
    split at h
    next => cases h; exact .inr ⟨_, rfl, .inl rfl, rfl⟩
    next =>
      split at h
      next => cases h; exact .inl rfl
      next bits _ =>
        obtain ⟨value, _, h⟩ := Except.bind_eq_ok_iff.mp h
        split at h
        next => cases h; exact .inl rfl
        next =>
          split at h
          next => cases h
          next => cases h; exact .inr ⟨_, rfl, .inr rfl, rfl⟩

theorem remark_of_mem_checkOperands {ops : List Token} {found : List Diagnostic}
    (h : checkOperands d keyword ops = .ok found) : ∀ r ∈ found, Remark keyword ops r := by
  intro r hr
  cases ops with
  | nil =>
    cases h
    rw [List.mem_singleton.mp hr]
    exact .missing rfl rfl
  | cons o surplus =>
    obtain ⟨onFirst, hfirst, rfl⟩ := Except.map_eq_ok_iff.mp h
    rcases List.mem_append.mp hr with hr | hr
    · rcases checkFirst_eq_ok hfirst with rfl | ⟨_, rfl, hcode, hrange⟩
      · cases hr
      · cases List.mem_singleton.mp hr
        exact .first hcode hrange
    · cases surplus with
      | nil => cases hr
      | cons first more =>
        rw [List.mem_singleton.mp hr]
        exact .surplus rfl rfl

/-- Every remark is about a directive of the document and the operands on its line. -/
theorem exists_remark_of_mem_check {tokens checked : List Token} {found : List Diagnostic}
    (h : check g tokens = .ok (checked, found)) : ∀ r ∈ found, ∃ t after,
      (t :: after) <:+ tokens ∧ Remark t (operands t.line after) r := by
  induction tokens generalizing checked found with
  | nil =>
    cases h
    simp
  | cons t rest ih =>
    obtain ⟨_, first, more, hrest, _, rfl, hfirst⟩ := check_cons_eq_ok h
    intro r hr
    rcases List.mem_append.mp hr with hr | hr
    · rcases hfirst with ⟨_, rfl⟩ | ⟨d, _, hcheck⟩
      · cases hr
      · exact ⟨t, rest, List.suffix_refl _, remark_of_mem_checkOperands hcheck r hr⟩
    · obtain ⟨u, after, hsuffix, hremark⟩ := ih hrest r hr
      exact ⟨u, after, hsuffix.trans (List.suffix_cons t rest), hremark⟩

/-- There are at most two remarks on a directive: on the first operand, and on the rest. -/
theorem length_checkOperands_le {ops : List Token} {found : List Diagnostic}
    (h : checkOperands d keyword ops = .ok found) : found.length ≤ 2 := by
  cases ops with
  | nil => cases h; exact Nat.le_succ 1
  | cons o surplus =>
    obtain ⟨onFirst, hfirst, rfl⟩ := Except.map_eq_ok_iff.mp h
    have hone : onFirst.length ≤ 1 := by
      rcases checkFirst_eq_ok hfirst with rfl | ⟨r, rfl, _⟩
      · exact Nat.zero_le 1
      · exact Nat.le_refl 1
    have hsurplus : (checkSurplus keyword surplus).length ≤ 1 := by
      cases surplus with
      | nil => exact Nat.zero_le 1
      | cons first more => exact Nat.le_refl 1
    rw [List.length_append]
    omega

/-- There are at most two remarks for each token. -/
theorem length_found_le {tokens checked : List Token} {found : List Diagnostic}
    (h : check g tokens = .ok (checked, found)) : found.length ≤ 2 * tokens.length := by
  induction tokens generalizing checked found with
  | nil => cases h; exact Nat.le_refl 0
  | cons t rest ih =>
    obtain ⟨_, first, more, hrest, _, rfl, hfirst⟩ := check_cons_eq_ok h
    have hmore := ih hrest
    have htwo : first.length ≤ 2 := by
      rcases hfirst with ⟨_, rfl⟩ | ⟨d, _, hcheck⟩
      · exact Nat.zero_le 2
      · exact length_checkOperands_le hcheck
    rw [List.length_append, List.length_cons]
    omega

theorem line_of_mem_operands {line : Int} {after : List Token} {o : Token}
    (ho : o ∈ operands line after) : o.line = line := by
  simpa using List.mem_takeWhile_imp (List.mem_of_mem_filter ho)

theorem operands_sublist (line : Int) (after : List Token) :
    (operands line after).Sublist after :=
  List.filter_sublist.trans (List.takeWhile_sublist _)

end

end AsmHighlight.Directive
