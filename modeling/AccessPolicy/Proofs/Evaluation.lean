import AccessPolicy.Expr.Eval
import AccessPolicy.Proofs.Results

/-!
# Truth values of expressions

What the operands of a connective or a comparison are where it has a truth value.
The right operand of a connective counts only where the left one does not decide. An
evaluation that misses an attribute misses one that stands in the expression.
-/

namespace AccessPolicy

/-- An operator either is cut short by a decisive left operand or compares both operands. -/
theorem BinaryOp.connective_or_comparison (op : BinaryOp) :
    (∃ decisive, op = .and ∧ decisive = false ∨ op = .or ∧ decisive = true) ∨
      (op ≠ .and ∧ op ≠ .or) := by
  by_cases hand : op = .and
  · exact Or.inl ⟨false, Or.inl ⟨hand, rfl⟩⟩
  · by_cases hor : op = .or
    · exact Or.inl ⟨true, Or.inr ⟨hor, rfl⟩⟩
    · exact Or.inr ⟨hand, hor⟩

namespace Expr
variable {env : Environment} {left right operand : Expr} {line : Nat} {b : Bool}

theorem truth_eq_ok {v : Value} {b : Bool} : v.truth = .ok b ↔ v = .bool b := by
  cases v <;> simp [Value.truth]

theorem test_eq_ok {e : Expr} : e.test env = .ok b ↔ e.eval env = .ok (.bool b) := by
  unfold test
  rw [bind_eq_ok]
  simp only [truth_eq_ok, exists_eq_right]

theorem holds_iff {e : Expr} : e.holds env = true ↔ e.eval env = .ok (.bool true) := by
  rw [← test_eq_ok]
  unfold holds
  cases e.test env with
  | error u => simp
  | ok b => simp

/-! ## Connectives -/

theorem eval_not :
    (Expr.not operand line).eval env = (operand.test env).map fun b => .bool (!b) := by
  unfold test
  rw [eval]
  cases operand.eval env with
  | error u => rfl
  | ok v => cases v <;> rfl

theorem eval_not_eq_bool :
    (Expr.not operand line).eval env = .ok (.bool b) ↔ operand.eval env = .ok (.bool !b) := by
  rw [eval_not, map_eq_ok, ← test_eq_ok]
  constructor
  · rintro ⟨c, hc, hb⟩
    cases hb
    rw [hc, Bool.not_not]
  · intro h
    exact ⟨!b, h, by rw [Bool.not_not]⟩

theorem eval_connective {op : BinaryOp} {decisive : Bool}
    (hop : op = .and ∧ decisive = false ∨ op = .or ∧ decisive = true) :
    (Expr.binary op left right line).eval env = left.test env >>= fun b =>
      if b = decisive then .ok (.bool b) else (right.test env).map .bool := by
  have hright : (right.eval env >>= fun v => v.truth >>= fun b => .ok (.bool b)) =
      (right.test env).map Value.bool := by
    unfold test
    cases right.eval env with
    | error u => rfl
    | ok v => cases v <;> rfl
  rw [← hright]
  unfold test
  rcases hop with ⟨rfl, rfl⟩ | ⟨rfl, rfl⟩
  all_goals
    rw [eval]
    cases left.eval env with
    | error u => rfl
    | ok v => cases v with
      | bool b => cases b <;> rfl
      | _ => rfl

theorem eval_connective_eq_bool {op : BinaryOp} {decisive : Bool}
    (hop : op = .and ∧ decisive = false ∨ op = .or ∧ decisive = true) :
    (Expr.binary op left right line).eval env = .ok (.bool b) ↔
      left.eval env = .ok (.bool decisive) ∧ b = decisive ∨
        left.eval env = .ok (.bool !decisive) ∧ right.eval env = .ok (.bool b) := by
  rw [eval_connective hop, bind_eq_ok]
  simp only [test_eq_ok]
  constructor
  · rintro ⟨c, hc, h⟩
    split_ifs at h with hdecisive
    · cases h
      exact Or.inl ⟨hdecisive ▸ hc, hdecisive⟩
    · obtain ⟨d, hd, h⟩ := map_eq_ok.mp h
      cases h
      rw [← Bool.eq_not_of_ne hdecisive]
      exact Or.inr ⟨hc, test_eq_ok.mp hd⟩
  · rintro (⟨hleft, rfl⟩ | ⟨hleft, hright⟩)
    · exact ⟨b, hleft, if_pos rfl⟩
    · have hne : (!decisive) ≠ decisive := by simp
      refine ⟨_, hleft, ?_⟩
      rw [if_neg hne, test_eq_ok.mpr hright]
      rfl

theorem eval_and_eq_bool :
    (Expr.binary .and left right line).eval env = .ok (.bool b) ↔
      left.eval env = .ok (.bool false) ∧ b = false ∨
        left.eval env = .ok (.bool true) ∧ right.eval env = .ok (.bool b) :=
  eval_connective_eq_bool (Or.inl ⟨rfl, rfl⟩)

theorem eval_or_eq_bool :
    (Expr.binary .or left right line).eval env = .ok (.bool b) ↔
      left.eval env = .ok (.bool true) ∧ b = true ∨
        left.eval env = .ok (.bool false) ∧ right.eval env = .ok (.bool b) :=
  eval_connective_eq_bool (Or.inr ⟨rfl, rfl⟩)

/-! ## Comparisons -/

theorem eval_comparison {op : BinaryOp} (hand : op ≠ .and) (hor : op ≠ .or) :
    (Expr.binary op left right line).eval env = left.eval env >>= fun v =>
      right.eval env >>= fun w => (op.compare v w).map .bool := by
  rw [eval]
  · rfl
  · exact hand
  · exact hor

theorem eval_comparison_eq_bool {op : BinaryOp} (hand : op ≠ .and) (hor : op ≠ .or) :
    (Expr.binary op left right line).eval env = .ok (.bool b) ↔
      ∃ v w, left.eval env = .ok v ∧ right.eval env = .ok w ∧ op.compare v w = .ok b := by
  rw [eval_comparison hand hor]
  constructor
  · intro h
    obtain ⟨v, hv, h⟩ := bind_eq_ok.mp h
    obtain ⟨w, hw, h⟩ := bind_eq_ok.mp h
    obtain ⟨c, hc, h⟩ := map_eq_ok.mp h
    cases h
    exact ⟨v, w, hv, hw, hc⟩
  · rintro ⟨v, w, hv, hw, hc⟩
    exact bind_eq_ok.mpr ⟨v, hv, bind_eq_ok.mpr ⟨w, hw, map_eq_ok.mpr ⟨b, hc, rfl⟩⟩⟩

theorem eval_equal_eq_bool :
    (Expr.binary .equal left right line).eval env = .ok (.bool b) ↔
      ∃ v w, left.eval env = .ok v ∧ right.eval env = .ok w ∧ v.equal w = b := by
  rw [eval_comparison_eq_bool (by simp) (by simp)]
  simp only [BinaryOp.compare, Except.ok.injEq]

theorem eval_notEqual_eq_bool :
    (Expr.binary .notEqual left right line).eval env = .ok (.bool b) ↔
      ∃ v w, left.eval env = .ok v ∧ right.eval env = .ok w ∧ v.equal w = !b := by
  rw [eval_comparison_eq_bool (by simp) (by simp)]
  simp only [BinaryOp.compare, Except.ok.injEq, Bool.not_eq_eq_eq_not]

theorem eval_attribute_eq_ok {object field : String} {v : Value} :
    (Expr.attribute object field line).eval env = .ok v ↔ env.get? object field = some v := by
  rw [eval]
  cases env.get? object field with
  | none => simp
  | some w => simp

/-! ## Missing attributes -/

variable {object field : String}

theorem test_eq_unknownAttribute {e : Expr} :
    e.test env = .error (.unknownAttribute object field) ↔
      e.eval env = .error (.unknownAttribute object field) := by
  have htruth : ∀ v : Value, v.truth ≠ .error (.unknownAttribute object field) := by
    intro v
    cases v <;> simp [Value.truth]
  unfold test
  rw [bind_eq_error]
  simp [htruth]

theorem compare_ne_unknownAttribute (op : BinaryOp) (v w : Value) :
    op.compare v w ≠ .error (.unknownAttribute object field) := by
  unfold BinaryOp.compare Value.order
  cases v.order? w <;> cases op <;> simp [Except.map]

theorem eval_binary_eq_unknownAttribute {op : BinaryOp}
    (h : (Expr.binary op left right line).eval env = .error (.unknownAttribute object field)) :
    left.eval env = .error (.unknownAttribute object field) ∨
      right.eval env = .error (.unknownAttribute object field) := by
  rcases op.connective_or_comparison with ⟨decisive, hop⟩ | ⟨hand, hor⟩
  · rw [eval_connective hop] at h
    rcases bind_eq_error.mp h with h | ⟨b, _, h⟩
    · exact Or.inl (test_eq_unknownAttribute.mp h)
    · split_ifs at h
      exact Or.inr (test_eq_unknownAttribute.mp (map_eq_error.mp h))
  · rw [eval_comparison hand hor] at h
    rcases bind_eq_error.mp h with h | ⟨v, _, h⟩
    · exact Or.inl h
    · rcases bind_eq_error.mp h with h | ⟨w, _, h⟩
      · exact Or.inr h
      · exact absurd (map_eq_error.mp h) (compare_ne_unknownAttribute op v w)

/-- **What an evaluation lacks.** An attribute that an evaluation misses stands in the
expression and is not in the environment. -/
theorem exists_attribute_of_eval {e : Expr}
    (h : e.eval env = .error (.unknownAttribute object field)) :
    env.get? object field = none ∧ ∃ line, .attribute object field line ∈ e.nodes := by
  induction e with
  | binary op left right line ihLeft ihRight =>
      rcases eval_binary_eq_unknownAttribute h with h | h
      · obtain ⟨hnone, n, hmem⟩ := ihLeft h
        exact ⟨hnone, n, List.mem_cons_of_mem _ (List.mem_append_left _ hmem)⟩
      · obtain ⟨hnone, n, hmem⟩ := ihRight h
        exact ⟨hnone, n, List.mem_cons_of_mem _ (List.mem_append_right _ hmem)⟩
  | not operand line ih =>
      rw [eval_not] at h
      have htest := map_eq_error.mp h
      obtain ⟨hnone, n, hmem⟩ := ih (test_eq_unknownAttribute.mp htest)
      exact ⟨hnone, n, List.mem_cons_of_mem _ hmem⟩
  | «attribute» o f line =>
      rw [eval] at h
      cases hget : env.get? o f with
      | none =>
          rw [hget] at h
          cases h
          exact ⟨hget, line, List.mem_singleton_self _⟩
      | some v =>
          rw [hget] at h
          cases h
  | literal value line =>
      rw [eval] at h
      cases value with
      | decimal spelling =>
          unfold Literal.eval at h
          dsimp only at h
          split at h <;> cases h
      | _ => cases h

end Expr
end AccessPolicy
