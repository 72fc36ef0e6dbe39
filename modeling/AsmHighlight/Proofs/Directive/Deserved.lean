-- SUMMARY: Which remarks the operands of a directive deserve, and that checking makes each of them once.
import AsmHighlight.Proofs.Directive.Remarks

/-!
# Deserved remarks

`Deserves` lists the remarks that the operands of a directive ask for: there is
none, the first is of the wrong kind or out of range, or there are too many.
Checking makes exactly these remarks on a directive (`exactly_checkOperands`)
and on a document (`exactly_check`).

Several directives may stand on a line. The operands of one then go on through
those of the next, so an operand can belong to both; but it is never the first
operand of both, nor the second. A remark therefore tells which directive it is
about (`eq_of_deservesAt`).
-/

namespace AsmHighlight.Directive

-- ---------------------------------------------------------------------------
-- Remarks of a code on a range
-- ---------------------------------------------------------------------------

/-- There is exactly one remark for each code and range that `P` asks for, and no other. -/
structure Exactly (P : Diagnostic.Code → Range → Prop) (found : List Diagnostic) : Prop where
  nodup : (found.map fun r => (r.code, r.range)).Nodup
  exists_iff : ∀ code range, (∃ r ∈ found, r.code = code ∧ r.range = range) ↔ P code range

namespace Exactly

variable {P Q : Diagnostic.Code → Range → Prop} {found more : List Diagnostic}

theorem nil (h : ∀ code range, ¬ P code range) : Exactly P [] where
  nodup := .nil
  exists_iff := by simp [h]

theorem singleton {r : Diagnostic} (h : ∀ code range, P code range ↔ r.code = code ∧ r.range = range) :
    Exactly P [r] where
  nodup := by simp
  exists_iff := by simp [h]

theorem congr (h : Exactly P found) (hPQ : ∀ code range, P code range ↔ Q code range) :
    Exactly Q found where
  nodup := h.nodup
  exists_iff := fun code range => (h.exists_iff code range).trans (hPQ code range)

/-- Remarks of two sorts can be put together if none is of both. -/
theorem append (h : Exactly P found) (h' : Exactly Q more)
    (hdisjoint : ∀ code range, P code range → ¬ Q code range) :
    Exactly (fun code range => P code range ∨ Q code range) (found ++ more) where
  nodup := by
    rw [List.map_append]
    refine List.nodup_append.mpr ⟨h.nodup, h'.nodup, ?_⟩
    rintro _ hfound _ hmore rfl
    obtain ⟨r, hr, rfl⟩ := List.mem_map.mp hfound
    obtain ⟨r', hr', heq⟩ := List.mem_map.mp hmore
    obtain ⟨hcode, hrange⟩ := Prod.mk.inj heq
    refine hdisjoint r.code r.range ?_ ?_
    · exact (h.exists_iff _ _).mp ⟨r, hr, rfl, rfl⟩
    · exact (h'.exists_iff _ _).mp ⟨r', hr', hcode, hrange⟩
  exists_iff := by
    intro code range
    simp only [List.mem_append, or_and_right, exists_or, h.exists_iff, h'.exists_iff]

/-- The order of the remarks does not matter. -/
theorem perm (h : Exactly P found) (hperm : more.Perm found) : Exactly P more where
  nodup := (hperm.map _).nodup_iff.mpr h.nodup
  exists_iff := by
    intro code range
    rw [← h.exists_iff]
    simp only [hperm.mem_iff]

end Exactly

-- ---------------------------------------------------------------------------
-- One directive
-- ---------------------------------------------------------------------------

/-- Operands of a directive deserve a remark of this code on this range. -/
inductive Deserves (d : Directive) (keyword : Token) :
    (ops : List Token) → Diagnostic.Code → Range → Prop where
  | missing : Deserves d keyword [] .operandMissing keyword.range
  | kind {o : Token} {more : List Token} (hvalid : o.category ≠ .invalid)
      (hkind : o.category ≠ d.expectedCategory) :
      Deserves d keyword (o :: more) .operandKind o.range
  | range {o : Token} {more : List Token} {bits : Nat} {v : Int}
      (hbits : d.operand = .unsigned bits) (ho : o.category = .integerLiteral)
      (hv : o.integerValue? = some v) (hout : v < 0 ∨ 2 ^ bits ≤ v) :
      Deserves d keyword (o :: more) .operandRange o.range
  | surplus {o first : Token} {more : List Token} :
      Deserves d keyword (o :: first :: more) .operandSurplus
        ⟨first.range.start, (more.getLastD first).range.stop⟩

section One

variable {d : Directive} {keyword o : Token}

theorem fits_eq_false_iff {bits : Nat} (hbits : d.operand = .unsigned bits) {v : Int} :
    d.fits v = false ↔ v < 0 ∨ 2 ^ bits ≤ v := by
  rw [← Bool.not_eq_true, fits_iff hbits]
  omega

/-- The first operand gets the remark that it deserves on its own. -/
theorem exactly_checkFirst {found : List Diagnostic} (h : checkFirst d keyword o = .ok found) :
    Exactly (Deserves d keyword [o]) found := by
  unfold checkFirst at h
  split at h
  next hinvalid =>
    cases h
    refine .nil fun code range hdeserves => ?_
    cases hdeserves with
    | kind hvalid => exact hvalid hinvalid
    | range _ ho => rw [hinvalid] at ho; cases ho
  next hvalid =>
    split at h
    next hkind =>
      cases h
      refine .singleton fun code range => ⟨fun hdeserves => ?_, ?_⟩
      · cases hdeserves with
        | kind => exact ⟨rfl, rfl⟩
        | range hbits ho => exact absurd (by rw [ho, expectedCategory, hbits]) hkind
      · rintro ⟨rfl, rfl⟩
        exact .kind hvalid hkind
    next hkind =>
      have hkind := Decidable.not_not.mp hkind
      split at h
      next htext =>
        cases h
        refine .nil fun code range hdeserves => ?_
        cases hdeserves with
        | kind _ hne => exact hne hkind
        | range hbits => rw [htext] at hbits; cases hbits
      next bits hbits =>
        have hcategory : o.category = .integerLiteral := by rw [hkind, expectedCategory, hbits]
        obtain ⟨value, hvalue, h⟩ := Except.bind_eq_ok_iff.mp h
        have hvalue : o.integerValue? = some value := by
          cases hv : o.integerValue? with
          | none => rw [hv] at hvalue; cases hvalue
          | some v => rw [hv] at hvalue; cases hvalue; rfl
        split at h
        next hfits =>
          cases h
          refine .nil fun code range hdeserves => ?_
          cases hdeserves with
          | kind _ hne => exact hne hkind
          | range hbits _ hv hout =>
            cases hvalue.symm.trans hv
            rw [(fits_eq_false_iff hbits).mpr hout] at hfits
            cases hfits
        next hfits =>
          split at h
          next => cases h
          next =>
            cases h
            refine .singleton fun code range => ⟨fun hdeserves => ?_, ?_⟩
            · cases hdeserves with
              | kind _ hne => exact absurd hkind hne
              | range => exact ⟨rfl, rfl⟩
            · rintro ⟨rfl, rfl⟩
              exact .range hbits hcategory hvalue
                ((fits_eq_false_iff hbits).mp (eq_false_of_ne_true hfits))

/-- What operands deserve, they deserve for the first of them or for being too many. -/
theorem deserves_cons_iff {surplus : List Token} {code : Diagnostic.Code} {range : Range} :
    Deserves d keyword (o :: surplus) code range ↔ Deserves d keyword [o] code range ∨
      ∃ first more, surplus = first :: more ∧ code = .operandSurplus ∧
        range = ⟨first.range.start, (more.getLastD first).range.stop⟩ := by
  constructor
  · intro h
    cases h with
    | kind hvalid hkind => exact .inl (.kind hvalid hkind)
    | range hbits ho hv hout => exact .inl (.range hbits ho hv hout)
    | surplus => exact .inr ⟨_, _, rfl, rfl, rfl⟩
  · rintro (h | ⟨first, more, rfl, rfl, rfl⟩)
    · cases h with
      | kind hvalid hkind => exact .kind hvalid hkind
      | range hbits ho hv hout => exact .range hbits ho hv hout
    · exact .surplus

/-- Checking makes the remarks on a directive that its operands deserve. -/
theorem exactly_checkOperands {ops : List Token} {found : List Diagnostic}
    (h : checkOperands d keyword ops = .ok found) : Exactly (Deserves d keyword ops) found := by
  cases ops with
  | nil =>
    cases h
    refine .singleton fun code range => ⟨fun hdeserves => ?_, ?_⟩
    · cases hdeserves
      exact ⟨rfl, rfl⟩
    · rintro ⟨rfl, rfl⟩
      exact .missing
  | cons o surplus =>
    obtain ⟨onFirst, hfirst, rfl⟩ := Except.map_eq_ok_iff.mp h
    have hsurplus : Exactly (fun code range => ∃ first more, surplus = first :: more ∧
        code = .operandSurplus ∧ range = ⟨first.range.start, (more.getLastD first).range.stop⟩)
        (checkSurplus keyword surplus) := by
      cases surplus with
      | nil => exact .nil (by simp)
      | cons first more =>
        refine .singleton fun code range => ⟨?_, ?_⟩
        · rintro ⟨_, _, heq, rfl, rfl⟩
          cases heq
          exact ⟨rfl, rfl⟩
        · rintro ⟨rfl, rfl⟩
          exact ⟨_, _, rfl, rfl, rfl⟩
    refine ((exactly_checkFirst hfirst).append hsurplus ?_).congr fun code range =>
      deserves_cons_iff.symm
    rintro code range hdeserves ⟨_, _, _, rfl, _⟩
    cases hdeserves

end One

-- ---------------------------------------------------------------------------
-- Several directives on a line
-- ---------------------------------------------------------------------------

/-- The token at which a remark of this code starts. -/
def anchor? (keyword : Token) (ops : List Token) : Diagnostic.Code → Option Token
  | .operandMissing => some keyword
  | .operandSurplus => ops[1]?
  | _ => ops[0]?

theorem Deserves.exists_anchor {d : Directive} {keyword : Token} {ops : List Token}
    {code : Diagnostic.Code} {range : Range} (h : Deserves d keyword ops code range) :
    ∃ o, anchor? keyword ops code = some o ∧ range.start = o.range.start := by
  cases h with
  | missing => exact ⟨keyword, rfl, rfl⟩
  | @kind o => exact ⟨o, rfl, rfl⟩
  | @range o => exact ⟨o, rfl, rfl⟩
  | @surplus o first => exact ⟨first, rfl, rfl⟩

/-- The tokens come in the order of their places and lines. -/
structure InOrder (tokens : List Token) : Prop where
  starts : tokens.Pairwise fun t u => t.range.start.offset < u.range.start.offset
  lines : tokens.Pairwise fun t u => t.line ≤ u.line

namespace InOrder

theorem tail {t : Token} {rest : List Token} (h : InOrder (t :: rest)) : InOrder rest :=
  ⟨(List.pairwise_cons.mp h.starts).2, (List.pairwise_cons.mp h.lines).2⟩

variable {tokens : List Token} (h : InOrder tokens) {i j : Nat} {t u : Token}

include h

/-- The operands of a directive are all operands after it on its line. -/
theorem operands_eq (ht : tokens[i]? = some t) :
    operands t.line (tokens.drop (i + 1)) =
      (tokens.drop (i + 1)).filter fun u => isOperand u && u.line == t.line := by
  obtain ⟨hi, rfl⟩ := List.getElem?_eq_some_iff.mp ht
  apply operands_eq_filter
  rw [← List.map_cons, ← List.drop_eq_getElem_cons hi, List.pairwise_map]
  exact h.lines.sublist (List.drop_sublist i tokens)

/-- The operands of a directive go on with those of a later directive on its line. -/
theorem exists_operands_eq (hij : i < j) (ht : tokens[i]? = some t) (hu : tokens[j]? = some u)
    (hline : u.line = t.line) (hoperand : isOperand u = true) :
    ∃ between, operands t.line (tokens.drop (i + 1)) =
      between ++ u :: operands u.line (tokens.drop (j + 1)) := by
  obtain ⟨hj, hget⟩ := List.getElem?_eq_some_iff.mp hu
  have hdrop : tokens.drop (i + 1) =
      (tokens.drop (i + 1)).take (j - (i + 1)) ++ u :: tokens.drop (j + 1) := by
    conv => lhs; rw [← List.take_append_drop (j - (i + 1)) (tokens.drop (i + 1)), List.drop_drop,
      Nat.add_sub_cancel' hij, List.drop_eq_getElem_cons hj, hget]
  rw [h.operands_eq ht, h.operands_eq hu, hdrop, List.filter_append,
    List.filter_cons_of_pos (by simp [hoperand, hline]), hline]
  exact ⟨_, rfl⟩

/-- An operand of a directive comes before the operand of the same number of a later
    directive on its line. -/
theorem start_lt_of_operands (hij : i < j) (ht : tokens[i]? = some t) (hu : tokens[j]? = some u)
    (hline : u.line = t.line) (hoperand : isOperand u = true) {k : Nat} {o o' : Token}
    (ho : (operands t.line (tokens.drop (i + 1)))[k]? = some o)
    (ho' : (operands u.line (tokens.drop (j + 1)))[k]? = some o') :
    o.range.start.offset < o'.range.start.offset := by
  have hstarts : (operands t.line (tokens.drop (i + 1))).Pairwise
      fun t u => t.range.start.offset < u.range.start.offset :=
    h.starts.sublist ((operands_sublist ..).trans (List.drop_sublist ..))
  obtain ⟨between, heq⟩ := h.exists_operands_eq hij ht hu hline hoperand
  have hlater : (operands t.line (tokens.drop (i + 1)))[between.length + 1 + k]? = some o' := by
    rw [heq, List.getElem?_append_right (by omega),
      show between.length + 1 + k - between.length = k + 1 by omega, List.getElem?_cons_succ, ho']
  obtain ⟨hk, rfl⟩ := List.getElem?_eq_some_iff.mp ho
  obtain ⟨hk', rfl⟩ := List.getElem?_eq_some_iff.mp hlater
  exact List.pairwise_iff_getElem.mp hstarts k _ hk hk' (by omega)

theorem anchor_start_ne (hij : i < j) (ht : tokens[i]? = some t) (hu : tokens[j]? = some u)
    (hoperand : isOperand u = true) {code : Diagnostic.Code} {o o' : Token}
    (ho : anchor? t (operands t.line (tokens.drop (i + 1))) code = some o)
    (ho' : anchor? u (operands u.line (tokens.drop (j + 1))) code = some o') :
    o.range.start ≠ o'.range.start := by
  intro hstart
  have hnumber {k : Nat} (ho : (operands t.line (tokens.drop (i + 1)))[k]? = some o)
      (ho' : (operands u.line (tokens.drop (j + 1)))[k]? = some o') : False := by
    have hline : u.line = t.line := by
      rw [← line_of_mem_operands (List.mem_of_getElem? ho),
        ← line_of_mem_operands (List.mem_of_getElem? ho')]
      exact congrArg Position.line hstart.symm
    have hlt := h.start_lt_of_operands hij ht hu hline hoperand ho ho'
    rw [hstart] at hlt
    exact Int.lt_irrefl _ hlt
  cases code with
  | operandMissing =>
    cases ho
    cases ho'
    obtain ⟨hi, rfl⟩ := List.getElem?_eq_some_iff.mp ht
    obtain ⟨hj, rfl⟩ := List.getElem?_eq_some_iff.mp hu
    have hlt := List.pairwise_iff_getElem.mp h.starts i j hi hj hij
    rw [hstart] at hlt
    exact Int.lt_irrefl _ hlt
  | operandSurplus => exact hnumber ho ho'
  | malformedLexeme | duplicateLabel | unresolvedReference | operandKind | operandRange =>
    exact hnumber ho ho'

end InOrder

-- ---------------------------------------------------------------------------
-- Documents
-- ---------------------------------------------------------------------------

/-- The directive at place `i` deserves a remark of this code on this range. -/
def DeservesAt (g : Grammar) (tokens : List Token) (i : Nat) (code : Diagnostic.Code)
    (range : Range) : Prop :=
  ∃ t d, tokens[i]? = some t ∧ ofToken? g t = some d ∧
    Deserves d t (operands t.line (tokens.drop (i + 1))) code range

section Run

variable {g : Grammar} {tokens : List Token}

theorem isOperand_of_ofToken? {t : Token} {d : Directive} (h : ofToken? g t = some d) :
    isOperand t = true := by
  rw [isOperand, (category_of_ofToken? h).1]
  rfl

/-- No two directives deserve the same remark. -/
theorem eq_of_deservesAt (horder : InOrder tokens) {i j : Nat} {code : Diagnostic.Code}
    {range : Range} (hi : DeservesAt g tokens i code range)
    (hj : DeservesAt g tokens j code range) : i = j := by
  have hlt {i j : Nat} (hij : i < j) (hi : DeservesAt g tokens i code range)
      (hj : DeservesAt g tokens j code range) : False := by
    obtain ⟨t, d, ht, _, hdeserves⟩ := hi
    obtain ⟨u, e, hu, he, hdeserves'⟩ := hj
    obtain ⟨o, ho, hstart⟩ := hdeserves.exists_anchor
    obtain ⟨o', ho', hstart'⟩ := hdeserves'.exists_anchor
    exact horder.anchor_start_ne hij ht hu (isOperand_of_ofToken? he) ho ho'
      (hstart.symm.trans hstart')
  rcases Nat.lt_trichotomy i j with hij | hij | hij
  · exact (hlt hij hi hj).elim
  · exact hij
  · exact (hlt hij hj hi).elim

/-- Checking makes the remarks on a document that its directives deserve. -/
theorem exactly_check (horder : InOrder tokens) {checked : List Token} {found : List Diagnostic}
    (h : check g tokens = .ok (checked, found)) :
    Exactly (fun code range => ∃ i, DeservesAt g tokens i code range) found := by
  induction tokens generalizing checked found with
  | nil =>
    cases h
    exact .nil (by simp [DeservesAt])
  | cons t rest ih =>
    obtain ⟨_, first, more, hrest, _, rfl, hfirst⟩ := check_cons_eq_ok h
    have hmore := ih horder.tail hrest
    have hzero : Exactly (DeservesAt g (t :: rest) 0) first := by
      rcases hfirst with ⟨hnone, rfl⟩ | ⟨d, hd, hcheck⟩
      · refine .nil ?_
        rintro code range ⟨u, e, hu, he, _⟩
        cases hu
        rw [hnone] at he
        cases he
      · refine (exactly_checkOperands hcheck).congr fun code range => ⟨?_, ?_⟩
        · exact fun hdeserves => ⟨t, d, rfl, hd, hdeserves⟩
        · rintro ⟨u, e, hu, he, hdeserves⟩
          cases hu
          cases hd.symm.trans he
          exact hdeserves
    refine (hzero.append hmore ?_).congr fun code range => ?_
    · rintro code range hi ⟨j, hj⟩
      exact absurd (eq_of_deservesAt horder (j := j + 1) hi hj) (Nat.succ_ne_zero j).symm
    · exact Nat.or_exists_add_one (p := fun i => DeservesAt g (t :: rest) i code range)

end Run

end AsmHighlight.Directive
