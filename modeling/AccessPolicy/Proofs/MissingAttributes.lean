import AccessPolicy.Proofs.AttributeReads

/-!
# Environments with attributes taken out

An expression that is evaluated without some of the attributes either does not notice, or ends in
the error that names one of those. No operator turns this error into a value, so a condition that
holds without the attributes holds with them: whoever keeps an attribute back gains nothing by it.
-/

namespace AccessPolicy

namespace Environment

/-- `small` is `large` with a set of attributes taken out. -/
structure IsWithout (small large : Environment) (removed : String → String → Prop) : Prop where
  gone : ∀ object field, removed object field → small.get? object field = none
  kept : ∀ object field, ¬removed object field →
    small.get? object field = large.get? object field

def without (env : Environment) (removed : String → String → Bool) : Environment :=
  ⟨env.groups.map fun g => (g.1, g.2.filter fun f => !removed g.1 f.1)⟩

theorem get?_without (env : Environment) (removed : String → String → Bool)
    (object field : String) :
    (env.without removed).get? object field =
      if removed object field then none else env.get? object field := by
  have hgroup : (env.without removed).group object =
      (env.group object).filter fun f => !removed object f.1 := by
    unfold group without
    dsimp only
    rw [NameMap.get?_map fun o (g : NameMap Value) => g.filter fun f => !removed o f.1]
    cases NameMap.get? env.groups object with
    | none => rfl
    | some g => rfl
  unfold get?
  rw [hgroup, NameMap.get?_filter fun f => !removed object f]
  by_cases hremoved : removed object field
  · simp [hremoved]
  · simp [hremoved]

theorem isWithout_without (env : Environment) (removed : String → String → Bool) :
    (env.without removed).IsWithout env fun object field => removed object field = true := by
  constructor
  · intro object field hremoved
    rw [get?_without, if_pos hremoved]
  · intro object field hkept
    rw [get?_without, if_neg hkept]

/-- The attribute has a value in `large` only. -/
def Lacks (small large : Environment) (object field : String) : Prop :=
  small.get? object field = none ∧ large.get? object field ≠ none

variable {small large : Environment} {removed : String → String → Prop} {object field : String}

theorem IsWithout.removed_of_lacks (h : small.IsWithout large removed)
    (hlacks : small.Lacks large object field) : removed object field := by
  obtain ⟨hnone, hsome⟩ := hlacks
  by_contra hkept
  rw [h.kept object field hkept] at hnone
  exact hsome hnone

theorem IsWithout.same_or_lacks (h : small.IsWithout large removed) (object field : String) :
    small.get? object field = large.get? object field ∨ small.Lacks large object field := by
  by_cases hremoved : removed object field
  · have hnone := h.gone object field hremoved
    by_cases hlarge : large.get? object field = none
    · left
      rw [hnone, hlarge]
    · right
      exact ⟨hnone, hlarge⟩
  · left
    exact h.kept object field hremoved

end Environment

/-! ## Two evaluations side by side -/

/-- The one run ends as the other does, or for want of one of these attributes. -/
def SameOrWanting {α : Type} (attributes : String → String → Prop)
    (run full : Except EvalError α) : Prop :=
  run = full ∨
    ∃ object field, attributes object field ∧ run = .error (.unknownAttribute object field)

namespace SameOrWanting
variable {α β : Type} {attributes more : String → String → Prop} {run full : Except EvalError α}

theorem mono (h : SameOrWanting attributes run full)
    (hmore : ∀ object field, attributes object field → more object field) :
    SameOrWanting more run full := by
  rcases h with hsame | ⟨object, field, hattribute, herror⟩
  · left
    exact hsame
  · right
    exact ⟨object, field, hmore object field hattribute, herror⟩

/-- Two runs that go on side by side are side by side at the end: what the first part wants is
wanting, however the second would go on. -/
theorem bind {f g : α → Except EvalError β} (h : SameOrWanting attributes run full)
    (hrest : ∀ a, SameOrWanting attributes (f a) (g a)) :
    SameOrWanting attributes (run >>= f) (full >>= g) := by
  rcases h with rfl | ⟨object, field, hattribute, rfl⟩
  · cases run with
    | error u =>
        left
        rfl
    | ok a => exact hrest a
  · right
    exact ⟨object, field, hattribute, rfl⟩

theorem map (f : α → β) (h : SameOrWanting attributes run full) :
    SameOrWanting attributes (run.map f) (full.map f) := by
  rcases h with rfl | ⟨object, field, hattribute, rfl⟩
  · left
    rfl
  · right
    exact ⟨object, field, hattribute, rfl⟩

end SameOrWanting

namespace Expr
variable {small large : Environment} {removed : String → String → Prop} {e : Expr}

/-- The attribute stands in the expression and has a value in `large` only. -/
def Wants (e : Expr) (small large : Environment) (object field : String) : Prop :=
  e.Reads object field ∧ small.Lacks large object field

/-- One case for each operator: every operand that is evaluated is evaluated in both runs, up to
the first that wants an attribute. -/
theorem eval_sameOrWanting (h : small.IsWithout large removed) (e : Expr) :
    SameOrWanting (e.Wants small large) (e.eval small) (e.eval large) := by
  induction e with
  | binary op left right line ihLeft ihRight =>
      have hleft : SameOrWanting ((Expr.binary op left right line).Wants small large)
          (left.eval small) (left.eval large) := by
        apply ihLeft.mono
        rintro object field ⟨hreads, hlacks⟩
        exact ⟨reads_left hreads, hlacks⟩
      have hright : SameOrWanting ((Expr.binary op left right line).Wants small large)
          (right.eval small) (right.eval large) := by
        apply ihRight.mono
        rintro object field ⟨hreads, hlacks⟩
        exact ⟨reads_right hreads, hlacks⟩
      rcases op.connective_or_comparison with ⟨decisive, hop⟩ | ⟨hand, hor⟩
      · rw [eval_connective hop, eval_connective hop]
        apply (hleft.bind fun v => Or.inl rfl).bind
        intro b
        by_cases hdecisive : b = decisive
        · rw [if_pos hdecisive, if_pos hdecisive]
          exact Or.inl rfl
        · rw [if_neg hdecisive, if_neg hdecisive]
          exact (hright.bind fun v => Or.inl rfl).map Value.bool
      · rw [eval_comparison hand hor, eval_comparison hand hor]
        apply hleft.bind
        intro v
        apply hright.bind
        intro w
        exact Or.inl rfl
  | not operand line ih =>
      have hoperand : SameOrWanting ((Expr.not operand line).Wants small large)
          (operand.eval small) (operand.eval large) := by
        apply ih.mono
        rintro object field ⟨hreads, hlacks⟩
        exact ⟨reads_operand hreads, hlacks⟩
      rw [eval_not, eval_not]
      exact (hoperand.bind fun v => Or.inl rfl).map _
  | «attribute» object field line =>
      rcases h.same_or_lacks object field with hsame | hlacks
      · left
        rw [eval, eval, hsame]
      · right
        refine ⟨object, field, ⟨⟨line, List.mem_singleton_self _⟩, hlacks⟩, ?_⟩
        rw [eval, hlacks.1]
  | literal value line =>
      left
      rfl

theorem holds_of_isWithout (h : small.IsWithout large removed) (hholds : e.holds small = true) :
    e.holds large = true := by
  rw [holds_iff] at hholds ⊢
  rcases eval_sameOrWanting h e with hsame | ⟨object, field, _, herror⟩
  · rw [← hsame]
    exact hholds
  · rw [hholds] at herror
    cases herror

/-- **Missing attributes make nothing true.** Without some of its attributes an environment gives
an expression the same value or the same error, or the error of an attribute that the expression
reads and that was there before it was taken out. So a condition that holds without them holds
with them. -/
theorem eval_of_isWithout (h : small.IsWithout large removed) (e : Expr) :
    (e.eval small = e.eval large ∨
      ∃ object field, removed object field ∧ large.get? object field ≠ none ∧
        e.Reads object field ∧ e.eval small = .error (.unknownAttribute object field)) ∧
    (e.holds small = true → e.holds large = true) := by
  constructor
  · rcases eval_sameOrWanting h e with hsame | ⟨object, field, ⟨hreads, hlacks⟩, herror⟩
    · left
      exact hsame
    · right
      exact ⟨object, field, h.removed_of_lacks hlacks, hlacks.2, hreads, herror⟩
  · exact holds_of_isWithout h

def annKnown : Environment :=
  (Environment.empty.set "user" "role" (.text "auditor")).set "user" "clearance" (.ofInt 2)

def isClearance (_ field : String) : Bool := field = "clearance"

/-- `user.role == "auditor" OR user.clearance >= 3` -/
def auditorOrHigh : Expr :=
  .binary .or (.binary .equal (.attribute "user" "role" 1) (.literal (.string "auditor") 1) 1)
    (.binary .greaterEqual (.attribute "user" "clearance" 1) (.literal (.int 3) 1) 1) 1

/-- `NOT user.clearance >= 3` -/
def notHigh : Expr :=
  .not (.binary .greaterEqual (.attribute "user" "clearance" 1) (.literal (.int 3) 1) 1) 1

/-- Ann passes as an auditor without her clearance, and without it she does not pass for somebody
whose clearance is low, although that is what she is. -/
theorem eval_of_isWithout_clearance :
    (annKnown.without isClearance).IsWithout annKnown
      (fun object field => isClearance object field = true) ∧
    (auditorOrHigh.holds (annKnown.without isClearance) = true ∧
      auditorOrHigh.holds annKnown = true) ∧
    ∃ object field, isClearance object field = true ∧ annKnown.get? object field ≠ none ∧
      notHigh.Reads object field ∧ notHigh.eval (annKnown.without isClearance) =
        .error (.unknownAttribute object field) := by
  have hwithout := annKnown.isWithout_without isClearance
  refine ⟨hwithout, ?_, ?_⟩
  · have hsmall : auditorOrHigh.holds (annKnown.without isClearance) = true := by decide +kernel
    exact ⟨hsmall, (eval_of_isWithout hwithout auditorOrHigh).2 hsmall⟩
  · have hdiffer : notHigh.eval (annKnown.without isClearance) ≠ notHigh.eval annKnown := by
      decide +kernel
    exact (eval_of_isWithout hwithout notHigh).1.resolve_left hdiffer

end Expr
end AccessPolicy
