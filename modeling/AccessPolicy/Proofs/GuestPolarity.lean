import AccessPolicy.Proofs.AttributeReads
import AccessPolicy.Proofs.GuestDeletion
import AccessPolicy.Proofs.Scopes
import Mathlib.Algebra.Group.Nat.Even

/-!
# Where a guest's name counts

The search for rules that let guests delete turns its polarity around at every `NOT` and `!=`. So
it finds a guest's name just if this stands under an even number of them, and it finds it as well
after a condition was rewritten by a double negation, De Morgan's laws or the negation of an
equality (`Program.guestDelete_remarks_analyze`).
-/

namespace AccessPolicy

theorem Text.hasRun_iff {run cs : List Char} : hasRun run cs = true ↔ run <:+: cs := by
  induction cs with
  | nil => simp [hasRun, List.isEmpty_iff]
  | cons c cs ih =>
      rw [hasRun, Bool.or_eq_true, ih, List.isPrefixOf_iff_prefix, List.infix_cons_iff]

def NamesGuest (name : String) : Prop := "guest".toList <:+: (Text.lower name).toList

theorem isGuestName_iff {name : String} : isGuestName name = true ↔ NamesGuest name :=
  Text.hasRun_iff

/-! ## Negations above a text -/

/-- The operator turns the truth of its operands around once, or not at all. -/
def BinaryOp.flips : BinaryOp → Nat
  | .notEqual => 1
  | _ => 0

namespace Expr

/-- The text stands as a literal in the expression, under so many `NOT` and `!=`. -/
inductive TextUnder (s : String) : Nat → Expr → Prop
  | here {line : Nat} : TextUnder s 0 (.literal (.string s) line)
  | left {op : BinaryOp} {left right : Expr} {line n : Nat} :
      TextUnder s n left → TextUnder s (n + op.flips) (.binary op left right line)
  | right {op : BinaryOp} {left right : Expr} {line n : Nat} :
      TextUnder s n right → TextUnder s (n + op.flips) (.binary op left right line)
  | operand {operand : Expr} {line n : Nat} :
      TextUnder s n operand → TextUnder s (n + 1) (.not operand line)

section
variable {op : BinaryOp} {left right operand : Expr} {line : Nat} {positive : Bool}

theorem even_add_flips {n : Nat} :
    (Even (n + op.flips) ↔ positive = true) ↔
      (Even n ↔ (if op = .notEqual then !positive else positive) = true) := by
  by_cases hop : op = .notEqual
  · subst hop
    show (Even (n + 1) ↔ positive = true) ↔ (Even n ↔ (!positive) = true)
    rw [Nat.even_add_one]
    cases positive <;> simp
  · have hflips : op.flips = 0 := by cases op <;> first | rfl | exact absurd rfl hop
    rw [hflips, if_neg hop, Nat.add_zero]

theorem admitsGuest_binary :
    (Expr.binary op left right line).admitsGuest positive =
      (left.admitsGuest (if op = .notEqual then !positive else positive) ||
        right.admitsGuest (if op = .notEqual then !positive else positive)) := by
  cases op <;> rfl

end

/-- What the search finds: the polarity that it asks for at the top is that of the negations above
the name. -/
theorem admitsGuest_iff {positive : Bool} {e : Expr} :
    e.admitsGuest positive = true ↔
      ∃ s n, NamesGuest s ∧ TextUnder s n e ∧ (Even n ↔ positive = true) := by
  induction e generalizing positive with
  | binary op left right line ihLeft ihRight =>
      rw [admitsGuest_binary, Bool.or_eq_true, ihLeft, ihRight]
      constructor
      · rintro (⟨s, n, hguest, hunder, hparity⟩ | ⟨s, n, hguest, hunder, hparity⟩)
        · exact ⟨s, n + op.flips, hguest, .left hunder, even_add_flips.mpr hparity⟩
        · exact ⟨s, n + op.flips, hguest, .right hunder, even_add_flips.mpr hparity⟩
      · rintro ⟨s, n, hguest, hunder, hparity⟩
        cases hunder with
        | left hunder => exact Or.inl ⟨s, _, hguest, hunder, even_add_flips.mp hparity⟩
        | right hunder => exact Or.inr ⟨s, _, hguest, hunder, even_add_flips.mp hparity⟩
  | not operand line ih =>
      have hparity : ∀ n, (Even (n + 1) ↔ positive = true) ↔ (Even n ↔ (!positive) = true) :=
        fun n => @even_add_flips .notEqual positive n
      rw [show (Expr.not operand line).admitsGuest positive = operand.admitsGuest (!positive)
        from rfl, ih]
      constructor
      · rintro ⟨s, n, hguest, hunder, heven⟩
        exact ⟨s, n + 1, hguest, .operand hunder, (hparity n).mpr heven⟩
      · rintro ⟨s, n, hguest, hunder, heven⟩
        cases hunder with
        | operand hunder => exact ⟨s, _, hguest, hunder, (hparity _).mp heven⟩
  | «attribute» object field line =>
      constructor
      · intro h
        cases h
      · rintro ⟨s, n, _, hunder, _⟩
        cases hunder
  | literal value line =>
      constructor
      · intro h
        cases value with
        | string s =>
            rw [admitsGuest, Bool.and_eq_true] at h
            exact ⟨s, 0, isGuestName_iff.mp h.2, .here, by simp [h.1]⟩
        | _ => cases h
      · rintro ⟨s, n, hguest, hunder, heven⟩
        cases hunder with
        | here =>
            have hpositive := heven.mp Even.zero
            rw [admitsGuest, hpositive, isGuestName_iff.mpr hguest]
            rfl

theorem readsUserRole_iff {e : Expr} : e.readsUserRole = true ↔ e.Reads "user" "role" := by
  unfold readsUserRole Reads
  rw [List.any_eq_true]
  constructor
  · rintro ⟨node, hnode, huser⟩
    cases node with
    | «attribute» object field line =>
        obtain ⟨hobject, hfield⟩ := Bool.and_eq_true_iff.mp huser
        rw [decide_eq_true_eq] at hobject hfield
        subst hobject hfield
        exact ⟨line, hnode⟩
    | _ => cases huser
  · rintro ⟨line, hnode⟩
    exact ⟨_, hnode, rfl⟩

/-! ## Rewriting -/

/-- A step of rewriting at some place of a condition, from left to right: a double negation goes,
a negation goes into a connective or an equality. Lines are not kept. -/
inductive Rewrites : Expr → Expr → Prop
  | notNot {e : Expr} {outer inner : Nat} : Rewrites (.not (.not e inner) outer) e
  | notAnd {left right : Expr} {outer inner line line' line'' : Nat} :
      Rewrites (.not (.binary .and left right inner) outer)
        (.binary .or (.not left line) (.not right line') line'')
  | notOr {left right : Expr} {outer inner line line' line'' : Nat} :
      Rewrites (.not (.binary .or left right inner) outer)
        (.binary .and (.not left line) (.not right line') line'')
  | notEqual {left right : Expr} {outer inner line : Nat} :
      Rewrites (.not (.binary .equal left right inner) outer) (.binary .notEqual left right line)
  | left {op : BinaryOp} {left left' right : Expr} {line : Nat} :
      Rewrites left left' → Rewrites (.binary op left right line) (.binary op left' right line)
  | right {op : BinaryOp} {left right right' : Expr} {line : Nat} :
      Rewrites right right' → Rewrites (.binary op left right line) (.binary op left right' line)
  | operand {operand operand' : Expr} {line : Nat} :
      Rewrites operand operand' → Rewrites (.not operand line) (.not operand' line)

section
variable {op : BinaryOp} {left right operand e e' : Expr} {line : Nat}

theorem readsUserRole_binary :
    (Expr.binary op left right line).readsUserRole =
      (left.readsUserRole || right.readsUserRole) := by
  unfold readsUserRole
  rw [nodes, List.any_cons, List.any_append]
  rfl

theorem readsUserRole_not : (Expr.not operand line).readsUserRole = operand.readsUserRole := rfl

/-- No step changes what the search finds, of either polarity: the negations that a step takes
away, or moves below another operator, are in pairs with those that it leaves or adds. -/
theorem Rewrites.admitsGuest_eq (h : e.Rewrites e') (positive : Bool) :
    e.admitsGuest positive = e'.admitsGuest positive := by
  induction h generalizing positive with
  | notNot =>
      show admitsGuest (!(!positive)) _ = _
      rw [Bool.not_not]
  | notAnd => rfl
  | notOr => rfl
  | notEqual => rfl
  | left _ ih => rw [admitsGuest_binary, admitsGuest_binary, ih]
  | right _ ih => rw [admitsGuest_binary, admitsGuest_binary, ih]
  | operand _ ih => exact ih (!positive)

theorem Rewrites.readsUserRole_eq (h : e.Rewrites e') : e.readsUserRole = e'.readsUserRole := by
  induction h with
  | notNot => rfl
  | notAnd | notOr | notEqual => simp only [readsUserRole_binary, readsUserRole_not]
  | left _ ih => rw [readsUserRole_binary, readsUserRole_binary, ih]
  | right _ ih => rw [readsUserRole_binary, readsUserRole_binary, ih]
  | operand _ ih => exact ih

theorem eq_of_eqvGen_rewrites {α : Type} {f : Expr → α}
    (hstep : ∀ {e e' : Expr}, e.Rewrites e' → f e = f e') (h : Relation.EqvGen Rewrites e e') :
    f e = f e' := by
  induction h with
  | rel _ _ h => exact hstep h
  | refl _ => rfl
  | symm _ _ _ ih => exact ih.symm
  | trans _ _ _ _ _ ih ih' => exact ih.trans ih'

end
end Expr

/-! ## Rules -/

/-- The rule does not look at the role of the user: it has no condition, or one that never reads
`user.role`. -/
def Rule.IgnoresRole (r : Rule) : Prop := ∀ e, r.condition = some e → ¬e.Reads "user" "role"

/-- A rule of a program by which a guest can delete, as the analysis sees it: a guest's name
stands under an even number of negations in its condition, or it ignores roles and some role is
that of a guest. -/
structure Program.LetsGuestDelete (p : Program) (r : Rule) : Prop where
  effect : r.effect = .allow
  action : coversAction r.actions "delete" = true
  condition : (∃ e s n, r.condition = some e ∧ NamesGuest s ∧ e.TextUnder s n ∧ Even n) ∨
    (∃ role ∈ p.roles, NamesGuest role.name) ∧ r.IgnoresRole

theorem Rule.grantsGuestDelete_iff {guestDefined : Bool} {r : Rule} :
    r.grantsGuestDelete guestDefined = true ↔
      coversAction r.actions "delete" = true ∧
        ((∃ e s n, r.condition = some e ∧ NamesGuest s ∧ Expr.TextUnder s n e ∧ Even n) ∨
          guestDefined = true ∧ r.IgnoresRole) := by
  unfold grantsGuestDelete IgnoresRole
  rw [Bool.and_eq_true]
  apply and_congr_right
  intro _
  cases hcondition : r.condition with
  | none => simp
  | some e =>
      have hadmits : e.admitsGuest true = true ↔
          ∃ s n, NamesGuest s ∧ Expr.TextUnder s n e ∧ Even n := by
        simp [Expr.admitsGuest_iff]
      simp [hadmits, ← Expr.readsUserRole_iff]

/-! ## The analysis of a program -/

theorem exists_mem_firstNamed_iff {ds : List Definition} {q : String → Prop} :
    (∃ d ∈ firstNamed ds, q d.name) ↔ ∃ d ∈ ds, q d.name := by
  have hname : ∀ name, (∃ d ∈ firstNamed ds, d.name = name) ↔ ∃ d ∈ ds, d.name = name := by
    intro name
    have h := congrArg Option.isSome (find?_firstNamed ds name)
    rw [Bool.eq_iff_iff, List.find?_isSome, List.find?_isSome] at h
    simpa using h
  constructor
  · rintro ⟨d, hd, hq⟩
    obtain ⟨d', hd', hsame⟩ := (hname d.name).mp ⟨d, hd, rfl⟩
    exact ⟨d', hd', hsame ▸ hq⟩
  · rintro ⟨d, hd, hq⟩
    obtain ⟨d', hd', hsame⟩ := (hname d.name).mpr ⟨d, hd, rfl⟩
    exact ⟨d', hd', hsame ▸ hq⟩

def Program.definesGuest (p : Program) : Bool := p.roles.any fun d => isGuestName d.name

theorem Program.any_roles_ofProgram (p : Program) :
    ((Declarations.ofProgram p).roles.any fun d => isGuestName d.name) = p.definesGuest := by
  rw [show (Declarations.ofProgram p).roles = firstNamed p.roles from
    (Declarations.records_ofProgram p).declared .role]
  unfold definesGuest
  rw [Bool.eq_iff_iff, List.any_eq_true, List.any_eq_true]
  exact exists_mem_firstNamed_iff (q := fun name => isGuestName name = true)

theorem Program.letsGuestDelete_iff {p : Program} {r : Rule} :
    p.LetsGuestDelete r ↔ r.effect = .allow ∧ r.grantsGuestDelete p.definesGuest = true := by
  have hdefined : p.definesGuest = true ↔ ∃ role ∈ p.roles, NamesGuest role.name := by
    unfold definesGuest
    simp only [List.any_eq_true, isGuestName_iff]
  rw [Rule.grantsGuestDelete_iff, hdefined]
  constructor
  · rintro ⟨heffect, haction, hcondition⟩
    exact ⟨heffect, haction, hcondition⟩
  · rintro ⟨heffect, haction, hcondition⟩
    exact ⟨heffect, haction, hcondition⟩

instance (p : Program) (r : Rule) : Decidable (p.LetsGuestDelete r) :=
  decidable_of_iff _ Program.letsGuestDelete_iff.symm

theorem Program.not_isGuestDelete_of_mem_checkReferences {p : Program} {m : Remark}
    (hm : m ∈ (checkReferences (.ofProgram p)).2) : m.finding.isGuestDelete = false := by
  have hreference := isReference_of_mem_checkReferences hm
  cases hfinding : m.finding <;> rw [hfinding] at hreference
  all_goals first | rfl | cases hreference

section
variable {q : Finding → Bool}

theorem filter_flatMap_ruleRisks (hq : ∀ f, q f = true → f.isGuestDelete = true)
    (hguest : q .guestDelete = true) (guestDefined : Bool) (rules : List Rule) :
    ((rules.flatMap (ruleRisks guestDefined)).filter fun m => q m.finding) =
      (rules.filter fun r => r.effect = .allow ∧ r.grantsGuestDelete guestDefined = true).map
        fun r => ⟨r.line, .guestDelete⟩ := by
  have hunguarded : ∀ actions, q (.unguarded actions) = false := by
    intro actions
    rw [Bool.eq_false_iff]
    intro h
    cases hq _ h
  have hadmin : q .noAdminContext = false := by
    rw [Bool.eq_false_iff]
    intro h
    cases hq _ h
  induction rules with
  | nil => rfl
  | cons r rules ih =>
      have hrule : ((ruleRisks guestDefined r).filter fun m => q m.finding) =
          if r.effect = .allow ∧ r.grantsGuestDelete guestDefined = true then
            [⟨r.line, .guestDelete⟩]
          else [] := by
        unfold ruleRisks
        dsimp only
        rw [List.filter_append, List.filter_append]
        split_ifs <;> simp [hunguarded, hadmin, hguest]
      rw [List.flatMap_cons, List.filter_append, ih, hrule]
      by_cases hfound : r.effect = .allow ∧ r.grantsGuestDelete guestDefined = true
      · rw [if_pos hfound, List.filter_cons_of_pos (by simpa using hfound)]
        rfl
      · rw [if_neg hfound, List.filter_cons_of_neg (by simpa using hfound)]
        rfl

/-- Only the search for risks finds that a guest may delete. -/
theorem Program.filter_remarks_analyze (hq : ∀ f, q f = true → f.isGuestDelete = true)
    (hguest : q .guestDelete = true) (o : Options) (p : Program) :
    ((p.analyze o).remarks.filter fun m => q m.finding) =
      ((p.rules.filter fun r => p.LetsGuestDelete r).map fun r => ⟨r.line, .guestDelete⟩) ++
        (roleRisks o (.ofProgram p)).filter fun m => q m.finding := by
  have hnone : ∀ ms : List Remark, (∀ m ∈ ms, m.finding.isGuestDelete = false) →
      (ms.filter fun m => q m.finding) = [] := by
    intro ms hms
    rw [List.filter_eq_nil_iff]
    intro m hm hfound
    have hother := hms m hm
    rw [hq _ hfound] at hother
    cases hother
  have hduplicates : ((Declarations.ofProgram p).duplicates.filter fun m => q m.finding) = [] := by
    apply hnone
    intro m hm
    obtain ⟨kind, name, line, hfinding⟩ := (Declarations.records_ofProgram p).duplicates m hm
    rw [hfinding]
    rfl
  have hreferences : ((checkReferences (.ofProgram p)).2.filter fun m => q m.finding) = [] := by
    apply hnone
    intro m hm
    exact not_isGuestDelete_of_mem_checkReferences hm
  have hwildcards : ((checkWildcards (.ofProgram p)).filter fun m => q m.finding) = [] := by
    apply hnone
    intro m hm
    obtain ⟨d, _, rfl⟩ := List.mem_map.mp hm
    rfl
  show ((Declarations.ofProgram p).duplicates ++ (checkReferences (.ofProgram p)).2 ++
    checkRisks o (.ofProgram p)).filter _ = _
  unfold checkRisks
  dsimp only
  rw [List.filter_append, List.filter_append, hduplicates, hreferences, List.filter_append,
    List.filter_append, hwildcards, any_roles_ofProgram, filter_flatMap_ruleRisks hq hguest,
    (Declarations.records_ofProgram p).rules]
  simp only [letsGuestDelete_iff]
  rfl

end

namespace Program
variable {p : Program}

theorem filter_guestDelete_analyze (o : Options) (p : Program) :
    ((p.analyze o).remarks.filter fun m => m.finding = .guestDelete) =
      (p.rules.filter fun r => p.LetsGuestDelete r).map fun r => ⟨r.line, .guestDelete⟩ := by
  have hroles : ((roleRisks o (.ofProgram p)).filter fun m => m.finding = .guestDelete) = [] := by
    rw [List.filter_eq_nil_iff]
    intro m hm
    unfold roleRisks at hm
    split_ifs at hm
    · obtain ⟨d, _, rfl⟩ := List.mem_map.mp hm
      simp
    · cases hm
  have hq : ∀ f : Finding, decide (f = .guestDelete) = true → f.isGuestDelete = true := by
    intro f hf
    rw [of_decide_eq_true hf]
    rfl
  have h := filter_remarks_analyze hq rfl o p
  rw [hroles, List.append_nil] at h
  exact h

theorem guestDeletes_analyze (hrules : p.rules ≠ []) (o : Options) :
    (p.analyze o).guestDeletes = p.rules.countP fun r => p.LetsGuestDelete r := by
  have hroles : roleRisks o (.ofProgram p) = [] := by
    unfold roleRisks
    rw [(Declarations.records_ofProgram p).rules, if_neg fun h => hrules h.1]
  have h := filter_remarks_analyze (fun f hf => hf) rfl o p (q := Finding.isGuestDelete)
  unfold Report.guestDeletes
  rw [List.countP_eq_length_filter, h, hroles, List.filter_nil, List.append_nil, List.length_map,
    List.countP_eq_length_filter]

end Program

/-! ## Rewritten conditions -/

def Rule.Rewritten (r r' : Rule) : Prop :=
  ∃ e e', r.condition = some e ∧ Relation.EqvGen Expr.Rewrites e e' ∧
    r' = { r with condition := some e' }

theorem Rule.Rewritten.grantsGuestDelete_eq {r r' : Rule} (h : r.Rewritten r')
    (guestDefined : Bool) : r'.grantsGuestDelete guestDefined = r.grantsGuestDelete guestDefined := by
  obtain ⟨e, e', hcondition, hrewrites, rfl⟩ := h
  have hadmits : e.admitsGuest true = e'.admitsGuest true :=
    Expr.eq_of_eqvGen_rewrites (fun hstep => hstep.admitsGuest_eq true) hrewrites
  have hreads : e.readsUserRole = e'.readsUserRole :=
    Expr.eq_of_eqvGen_rewrites Expr.Rewrites.readsUserRole_eq hrewrites
  unfold grantsGuestDelete
  rw [hcondition]
  dsimp only
  rw [hadmits, hreads]

namespace Program
variable {p : Program} {before after : List Statement} {r r' : Rule}

theorem definesGuest_of_replaced (hp : p.statements = before ++ .rule r :: after) (r' : Rule) :
    definesGuest ⟨before ++ .rule r' :: after⟩ = p.definesGuest := by
  have hroles : roles ⟨before ++ .rule r' :: after⟩ = p.roles := by
    unfold roles definitions
    rw [hp, List.filterMap_append, List.filterMap_append]
    rfl
  unfold definesGuest
  rw [hroles]

theorem letsGuestDelete_of_rewritten (hp : p.statements = before ++ .rule r :: after)
    (h : r.Rewritten r') :
    LetsGuestDelete ⟨before ++ .rule r' :: after⟩ r' ↔ p.LetsGuestDelete r := by
  rw [letsGuestDelete_iff, letsGuestDelete_iff, definesGuest_of_replaced hp,
    h.grantsGuestDelete_eq]
  obtain ⟨_, _, _, _, rfl⟩ := h
  exact Iff.rfl

/-- The report says of the rewritten rule what it says of the rule, and of the others as well. -/
theorem filter_guestDelete_analyze_of_rewritten (o : Options)
    (hp : p.statements = before ++ .rule r :: after) (h : r.Rewritten r') :
    ((analyze o ⟨before ++ .rule r' :: after⟩).remarks.filter fun m => m.finding = .guestDelete) =
      (p.analyze o).remarks.filter fun m => m.finding = .guestDelete := by
  have hsame : ∀ q, LetsGuestDelete ⟨before ++ .rule r' :: after⟩ q ↔ p.LetsGuestDelete q := by
    intro q
    rw [letsGuestDelete_iff, letsGuestDelete_iff, definesGuest_of_replaced hp]
  have hverdict := letsGuestDelete_of_rewritten hp h
  rw [hsame] at hverdict
  have hline : r'.line = r.line := by
    obtain ⟨_, _, _, _, rfl⟩ := h
    rfl
  have hrules : ∀ q, rules ⟨before ++ .rule q :: after⟩ = rules ⟨before⟩ ++ q :: rules ⟨after⟩ :=
    fun q => List.filterMap_append
  have hprules : p.rules = rules ⟨before⟩ ++ r :: rules ⟨after⟩ := by
    rw [← hrules, ← hp]
  rw [filter_guestDelete_analyze, filter_guestDelete_analyze]
  simp only [hsame]
  rw [hrules, hprules, List.filter_append, List.filter_append, List.map_append, List.map_append]
  congr 1
  by_cases hfound : p.LetsGuestDelete r
  · rw [List.filter_cons_of_pos (by simpa using hverdict.mpr hfound),
      List.filter_cons_of_pos (by simpa using hfound), List.map_cons, List.map_cons, hline]
  · rw [List.filter_cons_of_neg (by simpa using mt hverdict.mp hfound),
      List.filter_cons_of_neg (by simpa using hfound)]

/-- **Guests are found by even polarity.** The report says of just those rules that they let
guests delete that allow it and whose condition has a guest's name under an even number of `NOT`
and `!=`, or ignores roles while some role is that of a guest. It says the same after the
condition of a rule was rewritten. -/
theorem guestDelete_remarks_analyze (o : Options) (p : Program) :
    ((p.analyze o).remarks.filter fun m => m.finding = .guestDelete) =
      ((p.rules.filter fun r => p.LetsGuestDelete r).map fun r => ⟨r.line, .guestDelete⟩) ∧
    ((p.analyze o).remarks.countP fun m => m.finding = .guestDelete) =
      (p.rules.countP fun r => p.LetsGuestDelete r) ∧
    (p.rules ≠ [] →
      (p.analyze o).guestDeletes = p.rules.countP fun r => p.LetsGuestDelete r) ∧
    ∀ before after r r', p.statements = before ++ .rule r :: after → r.Rewritten r' →
      (LetsGuestDelete ⟨before ++ .rule r' :: after⟩ r' ↔ p.LetsGuestDelete r) ∧
      ((analyze o ⟨before ++ .rule r' :: after⟩).remarks.filter
          fun m => m.finding = .guestDelete) =
        (p.analyze o).remarks.filter fun m => m.finding = .guestDelete := by
  have hremarks := filter_guestDelete_analyze o p
  refine ⟨hremarks, ?_, fun hrules => guestDeletes_analyze hrules o, ?_⟩
  · rw [List.countP_eq_length_filter, hremarks, List.length_map, List.countP_eq_length_filter]
  · intro before after r r' hp h
    exact ⟨letsGuestDelete_of_rewritten hp h, filter_guestDelete_analyze_of_rewritten o hp h⟩

/-- `user.role == "Guest"` -/
def isGuest : Expr :=
  .binary .equal (.attribute "user" "role" 1) (.literal (.string "Guest") 1) 1

/-- `NOT (user.role != "Guest")` -/
def isNoOther : Expr :=
  .not (.binary .notEqual (.attribute "user" "role" 1) (.literal (.string "Guest") 1) 1) 1

def guestsOnly (condition : Expr) : Program := ⟨[
  .definition .role ⟨"Guest", [], 1⟩,
  .rule ⟨.allow, ["delete"], "doc", some condition, 2⟩]⟩

/-- It is found with a double exclusion as well as with the plain comparison. -/
theorem guestDelete_remarks_analyze_guestsOnly :
    (guestsOnly isNoOther).rules ≠ [] ∧ ((guestsOnly isNoOther).analyze {}).guestDeletes = 1 ∧
    ((guestsOnly isGuest).analyze {}).remarks.filter (fun m => m.finding = .guestDelete) =
      ((guestsOnly isNoOther).analyze {}).remarks.filter fun m => m.finding = .guestDelete := by
  have hrules : (guestsOnly isNoOther).rules ≠ [] := List.cons_ne_nil _ _
  have hcount : ((guestsOnly isNoOther).rules.countP fun r =>
      (guestsOnly isNoOther).LetsGuestDelete r) = 1 := by decide +kernel
  have hrewrites : Relation.EqvGen Expr.Rewrites isNoOther isGuest := by
    apply Relation.EqvGen.trans _ (.not (.not isGuest 1) 1)
    · exact .symm _ _ (.rel _ _ (.operand .notEqual))
    · exact .rel _ _ .notNot
  obtain ⟨_, _, hfigure, hrewritten⟩ := guestDelete_remarks_analyze {} (guestsOnly isNoOther)
  refine ⟨hrules, (hfigure hrules).trans hcount, ?_⟩
  exact (hrewritten [.definition .role ⟨"Guest", [], 1⟩] [] _ _ rfl
    ⟨_, _, rfl, hrewrites, rfl⟩).2

end Program
end AccessPolicy
