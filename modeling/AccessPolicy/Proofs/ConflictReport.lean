import AccessPolicy.Proofs.RedundantRules

/-!
# Which rules are reported as conflicts

Two rules clash if they are on one resource, some action is covered by both and their conditions
do not exclude each other by what they pin. The report of a program lists the rules that clash and
no others, each pair by the places of its rules, and calls a clash what it is
(`Program.conflicts_iff_clash`). Whether some action is covered by both, and whether `delete` is,
it reads off a list that is not made alike for the two rules: beside a wildcard it is all that the
other one lists.
-/

namespace AccessPolicy

/-! ## Rules that clash -/

/-- The literals are of one kind, text, integer or truth value, and not the same. -/
inductive Literal.Differs : Literal → Literal → Prop
  | string {s t : String} : s ≠ t → Differs (.string s) (.string t)
  | int {n m : Nat} : n ≠ m → Differs (.int n) (.int m)
  | bool {b c : Bool} : b ≠ c → Differs (.bool b) (.bool c)

/-- The expression compares the attribute with the literal by `==`, on either side. -/
inductive Expr.Compares (object field : String) (value : Literal) : Expr → Prop
  | attributeFirst (m n k : Nat) : Compares object field value
      (.binary .equal (.attribute object field m) (.literal value n) k)
  | literalFirst (m n k : Nat) : Compares object field value
      (.binary .equal (.literal value n) (.attribute object field m) k)

/-- One operand of the outermost conjunction compares the attribute with the literal. -/
def Expr.Pins (e : Expr) (object field : String) (value : Literal) : Prop :=
  ∃ c : Expr, c.IsConjunct e ∧ c.Compares object field value

/-- Two conditions pin one attribute to literals that differ. -/
def Excludes (a b : Option Expr) : Prop :=
  ∃ e f object field v w, a = some e ∧ b = some f ∧
    e.Pins object field v ∧ f.Pins object field w ∧ v.Differs w

namespace Rule

/-- Two rules on one resource that are about one action at least, with conditions that do not
exclude each other. -/
structure Clash (p q : Rule) : Prop where
  resource : p.resource = q.resource
  action : ∃ action, coversAction p.actions action = true ∧ coversAction q.actions action = true
  conditions : ¬Excludes p.condition q.condition

def BothDelete (p q : Rule) : Prop :=
  coversAction p.actions "delete" = true ∧ coversAction q.actions "delete" = true

def SameCondition (p q : Rule) : Prop :=
  Option.Rel Expr.SameButLines p.condition q.condition

inductive ClashKind (p q : Rule) : ConflictKind → Prop
  | privilegeEscalation : p.effect ≠ q.effect → p.BothDelete q → ClashKind p q .privilegeEscalation
  | allowDeny : p.effect ≠ q.effect → ¬p.BothDelete q → ClashKind p q .allowDeny
  | redundant : p.effect = q.effect → p.SameCondition q → ClashKind p q .redundant
  | contradiction : p.effect = q.effect → ¬p.SameCondition q → ClashKind p q .contradiction

end Rule

/-! ## Clashes from the other side -/

section
variable {p q : Rule} {kind kind' : ConflictKind}

theorem Literal.Differs.symm {v w : Literal} (h : v.Differs w) : w.Differs v := by
  cases h with
  | string hne => exact .string hne.symm
  | int hne => exact .int hne.symm
  | bool hne => exact .bool hne.symm

theorem Excludes.symm {a b : Option Expr} (h : Excludes a b) : Excludes b a := by
  obtain ⟨e, f, object, field, v, w, he, hf, hv, hw, hdiffer⟩ := h
  exact ⟨f, e, object, field, w, v, hf, he, hw, hv, hdiffer.symm⟩

theorem Rule.Clash.symm (h : p.Clash q) : q.Clash p := by
  obtain ⟨hresource, ⟨action, hp, hq⟩, hconditions⟩ := h
  exact ⟨hresource.symm, ⟨action, hq, hp⟩, mt Excludes.symm hconditions⟩

theorem Rule.SameCondition.symm (h : p.SameCondition q) : q.SameCondition p := by
  unfold SameCondition at h ⊢
  generalize p.condition = a at h ⊢
  generalize q.condition = b at h ⊢
  cases h with
  | some hsame => exact .some hsame.symm
  | none => exact .none

theorem Rule.ClashKind.symm (h : p.ClashKind q kind) : q.ClashKind p kind := by
  cases h with
  | privilegeEscalation heffect hdelete => exact .privilegeEscalation heffect.symm hdelete.symm
  | allowDeny heffect hdelete => exact .allowDeny heffect.symm (mt And.symm hdelete)
  | redundant heffect hsame => exact .redundant heffect.symm hsame.symm
  | contradiction heffect hsame => exact .contradiction heffect.symm (mt SameCondition.symm hsame)

theorem Rule.ClashKind.eq (h : p.ClashKind q kind) (h' : p.ClashKind q kind') : kind = kind' := by
  cases h with
  | privilegeEscalation heffect hdelete =>
      cases h' with
      | privilegeEscalation => rfl
      | allowDeny _ hnot => exact absurd hdelete hnot
      | redundant hsame | contradiction hsame => exact absurd hsame heffect
  | allowDeny heffect hnot =>
      cases h' with
      | privilegeEscalation _ hdelete => exact absurd hdelete hnot
      | allowDeny => rfl
      | redundant hsame | contradiction hsame => exact absurd hsame heffect
  | redundant heffect hsame =>
      cases h' with
      | privilegeEscalation hne | allowDeny hne => exact absurd heffect hne
      | redundant => rfl
      | contradiction _ hnot => exact absurd hsame hnot
  | contradiction heffect hnot =>
      cases h' with
      | privilegeEscalation hne | allowDeny hne => exact absurd heffect hne
      | redundant _ hsame => exact absurd hsame hnot
      | contradiction => rfl

end

/-! ## What the report compares -/

section
variable {p q : Rule}

theorem coversAction_of_mem_overlappingActions {action : String}
    (h : action ∈ overlappingActions p q) :
    coversAction p.actions action = true ∧ coversAction q.actions action = true := by
  simp only [coversAction_iff]
  unfold overlappingActions at h
  split_ifs at h with hp hq
  · exact ⟨Or.inl hp, Or.inr h⟩
  · exact ⟨Or.inr h, Or.inl hq⟩
  · obtain ⟨haction, hother⟩ := List.mem_filter.mp h
    exact ⟨Or.inr haction, Or.inr (of_decide_eq_true hother)⟩

theorem overlappingActions_ne_nil_iff :
    overlappingActions p q ≠ [] ↔
      ∃ action, coversAction p.actions action = true ∧ coversAction q.actions action = true := by
  constructor
  · intro hne
    obtain ⟨action, haction⟩ := List.exists_mem_of_ne_nil _ hne
    exact ⟨action, coversAction_of_mem_overlappingActions haction⟩
  · rintro ⟨action, hp, hq⟩
    exact overlappingActions_ne_nil hp hq

/-- Whichever side the list is taken from, the deletion or a wildcard is on it just if both rules
cover the deletion. -/
theorem bothDelete_iff :
    p.BothDelete q ↔ "delete" ∈ overlappingActions p q ∨ "*" ∈ overlappingActions p q := by
  constructor
  · rintro ⟨hp, hq⟩
    rw [coversAction_iff] at hp hq
    unfold overlappingActions
    split_ifs with hpAny hqAny
    · exact hq.symm
    · exact hp.symm
    · left
      have hpDelete := hp.resolve_left hpAny
      have hqDelete := hq.resolve_left hqAny
      exact List.mem_filter.mpr ⟨hpDelete, decide_eq_true hqDelete⟩
  · rintro (hdelete | hany)
    · exact coversAction_of_mem_overlappingActions hdelete
    · obtain ⟨hp, hq⟩ := coversAction_of_mem_overlappingActions hany
      rw [coversAction_iff, or_self] at hp hq
      exact ⟨coversAction_iff.mpr (Or.inl hp), coversAction_iff.mpr (Or.inl hq)⟩

theorem Literal.distinct_iff {v w : Literal} : v.distinct w = true ↔ v.Differs w := by
  constructor
  · intro h
    cases v <;> cases w <;> simp only [distinct, bne_iff_ne, Bool.false_eq_true] at h
    · exact .string h
    · exact .int h
    · exact .bool h
  · intro h
    cases h with
    | string hne => exact bne_iff_ne.mpr hne
    | int hne => exact bne_iff_ne.mpr hne
    | bool hne => exact bne_iff_ne.mpr hne

theorem Expr.pin?_eq_some {e : Expr} {object field : String} {value : Literal} :
    e.pin? = some ((object, field), value) ↔ e.Compares object field value := by
  constructor
  · intro h
    unfold pin? at h
    split at h
    · cases h
      exact .attributeFirst _ _ _
    · cases h
      exact .literalFirst _ _ _
    · cases h
  · intro h
    cases h with
    | attributeFirst => rfl
    | literalFirst => rfl

theorem Expr.mem_pins {e : Expr} {object field : String} {value : Literal} :
    ((object, field), value) ∈ e.pins ↔ e.Pins object field value := by
  unfold pins Pins
  rw [List.mem_filterMap]
  simp only [pin?_eq_some, isConjunct_iff]

theorem provablyDisjoint_iff {a b : Option Expr} : provablyDisjoint a b = true ↔ Excludes a b := by
  constructor
  · intro h
    cases a with
    | none => cases h
    | some e =>
        cases b with
        | none => cases h
        | some f =>
            obtain ⟨⟨⟨object, field⟩, v⟩, hv, h⟩ := List.any_eq_true.mp h
            obtain ⟨⟨attr, w⟩, hw, h⟩ := List.any_eq_true.mp h
            rw [Bool.and_eq_true, decide_eq_true_eq] at h
            obtain ⟨hsame, hdistinct⟩ := h
            dsimp only at hsame hdistinct
            subst hsame
            exact ⟨e, f, object, field, v, w, rfl, rfl, Expr.mem_pins.mp hv, Expr.mem_pins.mp hw,
              Literal.distinct_iff.mp hdistinct⟩
  · rintro ⟨e, f, object, field, v, w, rfl, rfl, hv, hw, hdiffer⟩
    apply List.any_eq_true.mpr
    refine ⟨_, Expr.mem_pins.mpr hv, List.any_eq_true.mpr ⟨_, Expr.mem_pins.mpr hw, ?_⟩⟩
    rw [Bool.and_eq_true, decide_eq_true_eq]
    exact ⟨rfl, Literal.distinct_iff.mpr hdiffer⟩

/-- The texts of conditions tell these apart, as the condition of a rule can be written. -/
theorem sameCondition_iff (hp : p.Writable) (hq : q.Writable) :
    sameCondition p.condition q.condition = true ↔ p.SameCondition q := by
  unfold sameCondition Rule.SameCondition
  rw [decide_eq_true_eq]
  cases hpCondition : p.condition with
  | none =>
      cases hqCondition : q.condition with
      | none => exact ⟨fun _ => .none, fun _ => rfl⟩
      | some f => exact ⟨nofun, nofun⟩
  | some e =>
      cases hqCondition : q.condition with
      | none => exact ⟨nofun, nofun⟩
      | some f =>
          constructor
          · intro h
            have htext : e.conditionText = f.conditionText := Option.some.inj h
            have hsame := Expr.sameButLines_of_conditionText (hp e hpCondition)
              (hq f hqCondition) htext
            exact .some hsame
          · intro h
            cases h with
            | some hsame =>
                have htext : e.conditionText = f.conditionText := by
                  rw [← e.conditionText_onLine 1, ← f.conditionText_onLine 1, hsame]
                exact congrArg some htext

theorem isSome_conflict?_iff : (conflict? p q).isSome = true ↔ p.Clash q := by
  have hclash : p.Clash q ↔ ¬(p.resource ≠ q.resource ∨ overlappingActions p q = [] ∨
      provablyDisjoint p.condition q.condition = true) := by
    rw [provablyDisjoint_iff, not_or, not_or, not_not]
    constructor
    · rintro ⟨hresource, haction, hconditions⟩
      exact ⟨hresource, overlappingActions_ne_nil_iff.mpr haction, hconditions⟩
    · rintro ⟨hresource, hactions, hconditions⟩
      exact ⟨hresource, overlappingActions_ne_nil_iff.mp hactions, hconditions⟩
  rw [hclash]
  unfold conflict?
  dsimp only
  split_ifs with hnone
  · simp [hnone]
  · simp [hnone]

theorem clashKind_of_conflict? (hp : p.Writable) (hq : q.Writable) {c : Conflict}
    (h : conflict? p q = some c) : p.ClashKind q c.kind := by
  have hkind : c.kind = conflictKind p q (overlappingActions p q) := by
    unfold conflict? at h
    dsimp only at h
    split_ifs at h
    cases h
    rfl
  rw [hkind]
  unfold conflictKind
  split_ifs with heffect hdelete hsame
  · exact .privilegeEscalation heffect (bothDelete_iff.mpr hdelete)
  · exact .allowDeny heffect (mt bothDelete_iff.mp hdelete)
  · exact .redundant (not_not.mp heffect) ((sameCondition_iff hp hq).mp hsame)
  · exact .contradiction (not_not.mp heffect) (mt (sameCondition_iff hp hq).mpr hsame)

theorem kind_conflict?_comm (hp : p.Writable) (hq : q.Writable) :
    (conflict? p q).map Conflict.kind = (conflict? q p).map Conflict.kind := by
  by_cases hclash : p.Clash q
  · obtain ⟨c, hc⟩ := Option.isSome_iff_exists.mp (isSome_conflict?_iff.mpr hclash)
    obtain ⟨c', hc'⟩ := Option.isSome_iff_exists.mp (isSome_conflict?_iff.mpr hclash.symm)
    have hkind := clashKind_of_conflict? hp hq hc
    have hkind' := clashKind_of_conflict? hq hp hc'
    rw [hc, hc']
    exact congrArg some (hkind.eq hkind'.symm)
  · have hother : ¬q.Clash p := fun h => hclash h.symm
    rw [← isSome_conflict?_iff, Option.not_isSome_iff_eq_none] at hclash hother
    rw [hclash, hother]

end

/-! ## The list of conflicts -/

theorem exists_places_filterMap {α β : Type} (f : α → Option β) (xs : List α) :
    ∃ places : List Nat, places.Pairwise (· < ·) ∧
      (∀ i, i ∈ places ↔ ∃ x, xs[i]? = some x ∧ (f x).isSome = true) ∧
      List.Forall₂ (fun i y => ∃ x, xs[i]? = some x ∧ f x = some y) places (xs.filterMap f) := by
  induction xs with
  | nil => exact ⟨[], .nil, by simp, .nil⟩
  | cons x xs ih =>
      obtain ⟨places, hsorted, hmem, heach⟩ := ih
      have hsorted' : (places.map (· + 1)).Pairwise (· < ·) := by
        rw [List.pairwise_map]
        exact hsorted.imp Nat.succ_lt_succ
      have heach' : List.Forall₂ (fun i y => ∃ x', (x :: xs)[i]? = some x' ∧ f x' = some y)
          (places.map (· + 1)) (xs.filterMap f) := by
        rw [List.forall₂_map_left_iff]
        simpa using heach
      cases hx : f x with
      | none =>
          refine ⟨places.map (· + 1), hsorted', ?_, ?_⟩
          · intro i
            cases i with
            | zero => simp [hx]
            | succ i => simp [hmem]
          · rw [List.filterMap_cons_none hx]
            exact heach'
      | some y =>
          refine ⟨0 :: places.map (· + 1), ?_, ?_, ?_⟩
          · refine List.pairwise_cons.mpr ⟨?_, hsorted'⟩
            intro i hi
            obtain ⟨j, _, rfl⟩ := List.mem_map.mp hi
            exact Nat.succ_pos j
          · intro i
            cases i with
            | zero => simp [hx]
            | succ i => simp [hmem]
          · rw [List.filterMap_cons_some hx]
            exact .cons ⟨x, rfl, hx⟩ heach'

/-- The conflicts of rules come from pairs of places in the order of reading. -/
theorem exists_places_conflicts (rules : List Rule) :
    ∃ places : List (Nat × Nat), places.Pairwise (Prod.Lex (· < ·) (· < ·)) ∧
      (∀ i j, (i, j) ∈ places ↔ i < j ∧
        ∃ p q, rules[i]? = some p ∧ rules[j]? = some q ∧ (conflict? p q).isSome = true) ∧
      List.Forall₂ (fun place c => ∃ p q, rules[place.1]? = some p ∧ rules[place.2]? = some q ∧
        conflict? p q = some c) places (conflicts rules) := by
  induction rules with
  | nil => exact ⟨[], .nil, by simp, .nil⟩
  | cons p rest ih =>
      obtain ⟨places, hsorted, hmem, heach⟩ := ih
      obtain ⟨firsts, hfirstsSorted, hfirstsMem, hfirstsEach⟩ :=
        exists_places_filterMap (conflict? p) rest
      refine ⟨firsts.map (fun j => (0, j + 1)) ++ places.map fun place =>
        (place.1 + 1, place.2 + 1), ?_, ?_, ?_⟩
      · rw [List.pairwise_append]
        refine ⟨?_, ?_, ?_⟩
        · rw [List.pairwise_map]
          exact hfirstsSorted.imp fun hlt => .right _ (Nat.succ_lt_succ hlt)
        · rw [List.pairwise_map]
          refine hsorted.imp fun {a b} hlt => ?_
          cases hlt with
          | left _ _ hlt => exact .left _ _ (Nat.succ_lt_succ hlt)
          | right _ hlt => exact .right _ (Nat.succ_lt_succ hlt)
        · intro a ha b hb
          obtain ⟨j, _, rfl⟩ := List.mem_map.mp ha
          obtain ⟨place, _, rfl⟩ := List.mem_map.mp hb
          exact .left _ _ (Nat.succ_pos _)
      · intro i j
        cases j with
        | zero => simp
        | succ j =>
            cases i with
            | zero => simp [hfirstsMem]
            | succ i => simp [hmem]
      · apply List.rel_append
        · rw [List.forall₂_map_left_iff]
          simpa using hfirstsEach
        · rw [List.forall₂_map_left_iff]
          simpa using heach

namespace Program
variable {maxErrors : Nat} {source : String} {p : Program}

/-- **The report lists what clashes.** Of a program read from a text the conflicts are, in the
order of the places of their rules, the pairs of a rule with a later one that clash, and each is
called what the clash is. It is called the same if the rules change places. -/
theorem conflicts_iff_clash (h : ofTokens maxErrors (TokenStream.scan source).1 = .ok p)
    (o : Options) :
    (∃ places : List (Nat × Nat), places.Pairwise (Prod.Lex (· < ·) (· < ·)) ∧
      (∀ i j, (i, j) ∈ places ↔
        i < j ∧ ∃ q r, p.rules[i]? = some q ∧ p.rules[j]? = some r ∧ q.Clash r) ∧
      List.Forall₂ (fun place c => p.rules[place.1]? = some c.first ∧
        p.rules[place.2]? = some c.second ∧ c.first.ClashKind c.second c.kind)
        places (p.analyze o).conflicts) ∧
    ∀ q ∈ p.rules, ∀ r ∈ p.rules,
      (conflict? q r).map Conflict.kind = (conflict? r q).map Conflict.kind := by
  have hwritable := writable_rules h
  rw [conflicts_analyze]
  constructor
  · obtain ⟨places, hsorted, hmem, heach⟩ := exists_places_conflicts p.rules
    refine ⟨places, hsorted, ?_, ?_⟩
    · intro i j
      rw [hmem]
      simp only [isSome_conflict?_iff]
    · refine heach.imp ?_
      rintro place c ⟨q, r, hq, hr, hc⟩
      obtain ⟨rfl, rfl, _, _⟩ := conflict?_eq_some hc
      have hfirst := hwritable _ (List.mem_of_getElem? hq)
      have hsecond := hwritable _ (List.mem_of_getElem? hr)
      exact ⟨hq, hr, clashKind_of_conflict? hfirst hsecond hc⟩
  · intro q hq r hr
    exact kind_conflict?_comm (hwritable q hq) (hwritable r hr)

/-- A text that denies everything and lets two users delete, each of them at some times only. -/
def deletersSource : String :=
  "DENY action: read, * ON RESOURCE: d " ++
    "ALLOW action: delete ON RESOURCE: d IF (user.name == \"u\" AND time.hour < 9) " ++
    "ALLOW action: delete ON RESOURCE: d " ++
      "IF (NOT user.away AND (time.hour < 9 AND \"v\" == user.name))"

def earlyCondition : Expr :=
  .binary .and
    (.binary .equal (.attribute "user" "name" 1) (.literal (.string "u") 1) 1)
    (.binary .less (.attribute "time" "hour" 1) (.literal (.int 9) 1) 1) 1

def presentCondition : Expr :=
  .binary .and (.not (.attribute "user" "away" 1) 1)
    (.binary .and
      (.binary .less (.attribute "time" "hour" 1) (.literal (.int 9) 1) 1)
      (.binary .equal (.literal (.string "v") 1) (.attribute "user" "name" 1) 1) 1) 1

def deletersProgram : Program := ⟨[
  .rule ⟨.deny, ["read", "*"], "d", none, 1⟩,
  .rule ⟨.allow, ["delete"], "d", some earlyCondition, 1⟩,
  .rule ⟨.allow, ["delete"], "d", some presentCondition, 1⟩]⟩

/-- Both rules for the users clash with the denial. They do not clash with each other, as one
conjunct of each pins the name. -/
theorem conflicts_iff_clash_deleters :
    ofTokens 10 (TokenStream.scan deletersSource).1 = .ok deletersProgram ∧
    ∃ places : List (Nat × Nat), (0, 1) ∈ places ∧ (0, 2) ∈ places ∧ (1, 2) ∉ places ∧
      List.Forall₂ (fun place c => deletersProgram.rules[place.1]? = some c.first ∧
        deletersProgram.rules[place.2]? = some c.second ∧ c.first.ClashKind c.second c.kind)
        places (deletersProgram.analyze {}).conflicts := by
  have hread : ofTokens 10 (TokenStream.scan deletersSource).1 = .ok deletersProgram :=
    eq_ok_of_toOption (by decide +kernel)
  obtain ⟨⟨places, _, hmem, heach⟩, _⟩ := conflicts_iff_clash hread {}
  simp only [← isSome_conflict?_iff] at hmem
  refine ⟨hread, places, ?_, ?_, ?_, heach⟩
  · exact (hmem 0 1).mpr ⟨by decide, _, _, rfl, rfl, by decide +kernel⟩
  · exact (hmem 0 2).mpr ⟨by decide, _, _, rfl, rfl, by decide +kernel⟩
  · intro hlisted
    obtain ⟨_, q, r, hq, hr, hconflict⟩ := (hmem 1 2).mp hlisted
    cases hq
    cases hr
    revert hconflict
    decide +kernel

end Program
end AccessPolicy
