import AccessPolicy.SymbolTable
import Mathlib.Tactic.Common

/-!
# Symbol tables as stacks of maps

A symbol table keeps all scopes that were ever opened and a link from each to its parent. What can
be looked up in it is a stack of maps: one for each scope that was opened and not left again, the
innermost on top (`SymbolTable.WellFormed.stack_run`). A scope that was left stays in the table as
it was, and nothing finds it any more (`SymbolTable.WellFormed.exists_run`).
-/

namespace AccessPolicy

/-! ## Stacks of maps -/

abbrev Bindings := SymbolKind → String → Option Symbol

namespace Bindings

def empty : Bindings := fun _ _ => none

def add (b : Bindings) (x : Symbol) : Bindings := fun kind name =>
  if x.kind = kind ∧ x.name = name then some x else b kind name

end Bindings

/-- What is bound in the open scopes, from the inside out. -/
abbrev ScopeStack := List Bindings

inductive TableStep where
  | enter (name : String)
  | exit
  | define (x : Symbol)

namespace ScopeStack

/-- The outermost scope alone, with the built-in namespaces. -/
def initial : ScopeStack := [fun kind name =>
  if kind = .variable then
    (namespaces.find? fun n => n.1 = name).map fun n => SymbolTable.builtin n.1 n.2
  else none]

def enter (st : ScopeStack) : ScopeStack := Bindings.empty :: st

/-- Leave the innermost scope, but never the last. -/
def exit : ScopeStack → ScopeStack
  | _ :: outer :: rest => outer :: rest
  | st => st

/-- Bind a symbol in the innermost scope, at the number of scopes around it. One that is bound
already is the failure. -/
def define (x : Symbol) : ScopeStack → Except Symbol ScopeStack
  | [] => .ok []
  | b :: outer =>
    match b x.kind x.name with
    | some first => .error first
    | none => .ok (b.add { x with scopeLevel := outer.length } :: outer)

def lookup (st : ScopeStack) (kind : SymbolKind) (name : String) : Option Symbol :=
  st.findSome? fun b => b kind name

def after (st : ScopeStack) : TableStep → ScopeStack
  | .enter _ => st.enter
  | .exit => st.exit
  | .define x => (st.define x).toOption.getD st

def run (st : ScopeStack) (steps : List TableStep) : ScopeStack := steps.foldl after st

end ScopeStack

/-! ## Scopes -/

namespace Scope

/-- No two symbols of the scope have one kind and name, and the index has the places of all. -/
structure Keyed (s : Scope) : Prop where
  unique : s.symbols.Pairwise fun x y => ¬(x.kind = y.kind ∧ x.name = y.name)
  index : ∀ kind name i, s.index.lookup (kind, name) = some i ↔
    ∃ x, s.symbols[i]? = some x ∧ x.kind = kind ∧ x.name = name

/-- An index that leads to the first symbols leads to all if none is repeated. -/
theorem keyed_of_unique {s : Scope}
    (h : s.symbols.Pairwise fun x y => ¬(x.kind = y.kind ∧ x.name = y.name)) : s.Keyed := by
  refine ⟨h, fun kind name i => ?_⟩
  rw [s.indexed kind name, List.findIdx?_eq_some_iff_getElem]
  constructor
  · rintro ⟨hi, hkey, _⟩
    exact ⟨_, List.getElem?_eq_getElem hi, by simpa using hkey⟩
  · rintro ⟨x, hx, rfl, rfl⟩
    obtain ⟨hi, rfl⟩ := List.getElem?_eq_some_iff.mp hx
    refine ⟨hi, by simp, fun j hj => ?_⟩
    have := List.pairwise_iff_getElem.mp h j i (Nat.lt_trans hj hi) hi hj
    simpa using this

theorem keyed_opened (name : String) (level : Nat) (parent : Option Nat) :
    (opened name level parent).Keyed :=
  keyed_of_unique List.Pairwise.nil

theorem keyed_global : SymbolTable.global.Keyed := by
  apply keyed_of_unique
  rw [SymbolTable.symbols_global, List.pairwise_map]
  exact List.Pairwise.imp (fun hne hkey => hne hkey.2)
    (show namespaces.Pairwise fun m n => m.1 ≠ n.1 by decide)

theorem Keyed.extend {s : Scope} (h : s.Keyed) {x : Symbol}
    (hnew : s.find? x.kind x.name = none) : (s.extend x).Keyed := by
  apply keyed_of_unique
  refine List.pairwise_append.mpr ⟨h.unique, List.pairwise_singleton _ _, fun y hy z hz => ?_⟩
  cases List.mem_singleton.mp hz
  rw [find?_eq, List.find?_eq_none] at hnew
  simpa using hnew y hy

/-- The scope may have got more symbols, and is the same otherwise. -/
structure GrowsTo (s s' : Scope) : Prop where
  name : s'.name = s.name
  level : s'.level = s.level
  parent : s'.parent = s.parent
  symbols : s.symbols <+: s'.symbols

theorem GrowsTo.refl (s : Scope) : s.GrowsTo s := ⟨rfl, rfl, rfl, List.prefix_rfl⟩

theorem GrowsTo.trans {s s' s'' : Scope} (h : s.GrowsTo s') (h' : s'.GrowsTo s'') :
    s.GrowsTo s'' :=
  ⟨h'.name.trans h.name, h'.level.trans h.level, h'.parent.trans h.parent,
    h.symbols.trans h'.symbols⟩

theorem growsTo_extend (s : Scope) (x : Symbol) : s.GrowsTo (s.extend x) :=
  ⟨rfl, rfl, rfl, List.prefix_append _ _⟩

theorem find?_extend_of_new {s : Scope} {x : Symbol} (hnew : s.find? x.kind x.name = none) :
    (s.extend x).find? = Bindings.add s.find? { x with scopeLevel := s.level } := by
  funext kind name
  rw [find?_extend]
  unfold Bindings.add
  dsimp only
  split_ifs with hkey
  · obtain ⟨rfl, rfl⟩ := hkey
    rw [hnew]
    rfl
  · exact Option.or_none

end Scope

namespace SymbolTable

/-! ## Links between scopes -/

/-- Every scope but the outermost has a parent, which was opened before it and is one level further
out. -/
def Linked (scopes : List Scope) : Prop :=
  ∀ i s, scopes[i]? = some s → (i = 0 ∧ s.parent = none ∧ s.level = 0) ∨
    ∃ p outer, s.parent = some p ∧ p < i ∧ scopes[p]? = some outer ∧ s.level = outer.level + 1

/-- Looking a name up from a scope, outward along the links for as long as there is no binding. -/
inductive Resolves (scopes : List Scope) (kind : SymbolKind) (name : String) :
    Option Nat → Option Symbol → Prop
  | nowhere : Resolves scopes kind name none none
  | here {i : Nat} {s : Scope} {x : Symbol} : scopes[i]? = some s → s.find? kind name = some x →
      Resolves scopes kind name (some i) (some x)
  | outward {i : Nat} {s : Scope} {r : Option Symbol} : scopes[i]? = some s →
      s.find? kind name = none → Resolves scopes kind name s.parent r →
      Resolves scopes kind name (some i) r

/-- The second scope is the first or around it. -/
inductive Reaches (scopes : List Scope) : Nat → Nat → Prop
  | self (i : Nat) : Reaches scopes i i
  | outward {i p j : Nat} : (scopes[i]?).bind Scope.parent = some p → Reaches scopes p j →
      Reaches scopes i j

/-- The scope was opened and not left again. -/
def IsOpen (t : SymbolTable) (i : Nat) : Prop := Reaches t.scopes t.current i

section
variable {scopes scopes' : List Scope}

theorem Linked.lt_of_parent (h : Linked scopes) {i p : Nat}
    (hp : (scopes[i]?).bind Scope.parent = some p) : p < i := by
  obtain ⟨s, hs, hparent⟩ := Option.bind_eq_some_iff.mp hp
  rcases h i s hs with ⟨_, hnone, _⟩ | ⟨q, _, hq, hlt, _⟩
  · rw [hnone] at hparent
    cases hparent
  · rw [hq] at hparent
    cases hparent
    exact hlt

theorem Reaches.le (h : Linked scopes) {i j : Nat} (hr : Reaches scopes i j) : j ≤ i := by
  induction hr with
  | self i => exact Nat.le_refl i
  | outward hp _ ih => exact Nat.le_of_lt (Nat.lt_of_le_of_lt ih (h.lt_of_parent hp))

/-- What a scope reaches is told by the links of the scopes up to it. -/
theorem Reaches.of_links (h : Linked scopes) {i j : Nat}
    (hlinks : ∀ k ≤ i, (scopes'[k]?).bind Scope.parent = (scopes[k]?).bind Scope.parent)
    (hr : Reaches scopes' i j) : Reaches scopes i j := by
  induction hr with
  | self i => exact .self i
  | outward hp _ ih =>
      rw [hlinks _ (Nat.le_refl _)] at hp
      have hlt := h.lt_of_parent hp
      exact .outward hp (ih fun k hk => hlinks k (Nat.le_trans hk (Nat.le_of_lt hlt)))

theorem Resolves.unique {kind : SymbolKind} {name : String} {i : Option Nat} {r r' : Option Symbol}
    (h : Resolves scopes kind name i r) (h' : Resolves scopes kind name i r') : r = r' := by
  induction h with
  | nowhere =>
      cases h'
      rfl
  | here hs hx =>
      cases h' with
      | here hs' hx' =>
          rw [hs] at hs'
          cases hs'
          rw [← hx, ← hx']
      | outward hs' hnone _ =>
          rw [hs] at hs'
          cases hs'
          rw [hx] at hnone
          cases hnone
  | outward hs hnone _ ih =>
      cases h' with
      | here hs' hx =>
          rw [hs] at hs'
          cases hs'
          rw [hnone] at hx
          cases hx
      | outward hs' _ hr =>
          rw [hs] at hs'
          cases hs'
          exact ih hr

/-! ## Chains of scopes -/

theorem chainFrom_outermost {i : Nat} {s : Scope} (hs : scopes[i]? = some s)
    (hparent : s.parent = none) : chainFrom scopes i = [s] := by
  unfold chainFrom
  rw [hs]
  dsimp only
  rw [hparent]

theorem chainFrom_inside {i p : Nat} {s : Scope} (hs : scopes[i]? = some s)
    (hparent : s.parent = some p) (hlt : p < i) :
    chainFrom scopes i = s :: chainFrom scopes p := by
  rw [chainFrom, hs]
  dsimp only
  rw [hparent]
  exact dif_pos hlt

/-- A chain is told by the scopes up to its first. -/
theorem chainFrom_congr {i : Nat} (h : ∀ j ≤ i, scopes'[j]? = scopes[j]?) :
    chainFrom scopes' i = chainFrom scopes i := by
  induction i using Nat.strongRecOn with
  | _ i ih =>
    unfold chainFrom
    rw [h i (Nat.le_refl i)]
    cases scopes[i]? with
    | none => rfl
    | some s =>
        dsimp only
        cases s.parent with
        | none => rfl
        | some p =>
            dsimp only
            split_ifs with hlt
            · rw [ih p hlt fun j hj => h j (Nat.le_trans hj (Nat.le_of_lt hlt))]
            · rfl

/-- A chain begins with its scope, and has one scope for each level. -/
theorem Linked.exists_chainFrom (h : Linked scopes) {i : Nat} {s : Scope}
    (hs : scopes[i]? = some s) :
    ∃ outer, chainFrom scopes i = s :: outer ∧ outer.length = s.level := by
  induction i using Nat.strongRecOn generalizing s with
  | _ i ih =>
    rcases h i s hs with ⟨_, hparent, hlevel⟩ | ⟨p, o, hparent, hlt, ho, hlevel⟩
    · exact ⟨[], chainFrom_outermost hs hparent, hlevel.symm⟩
    · obtain ⟨rest, hchain, hlength⟩ := ih p hlt ho
      refine ⟨o :: rest, by rw [chainFrom_inside hs hparent hlt, hchain], ?_⟩
      rw [List.length_cons, hlength, hlevel]

/-- **Looking up ends.** Following the links comes to the innermost binding in the chain. -/
theorem Linked.resolves (h : Linked scopes) {i : Nat} (hi : i < scopes.length) (kind : SymbolKind)
    (name : String) :
    Resolves scopes kind name (some i)
      ((chainFrom scopes i).findSome? fun s => s.find? kind name) := by
  induction i using Nat.strongRecOn with
  | _ i ih =>
    have hs := List.getElem?_eq_getElem hi
    cases hfind : scopes[i].find? kind name with
    | some x =>
        obtain ⟨outer, hchain, _⟩ := h.exists_chainFrom hs
        rw [hchain, List.findSome?_cons, hfind]
        exact .here hs hfind
    | none =>
        refine .outward hs hfind ?_
        rcases h i _ hs with ⟨_, hparent, _⟩ | ⟨p, o, hparent, hlt, _⟩
        · rw [chainFrom_outermost hs hparent, List.findSome?_cons, hfind, hparent]
          exact .nowhere
        · rw [chainFrom_inside hs hparent hlt, List.findSome?_cons, hfind, hparent]
          exact ih p hlt (Nat.lt_trans hlt hi)

theorem Resolves.exists_reaches {kind : SymbolKind} {name : String} {i : Nat} {x : Symbol}
    (h : Resolves scopes kind name (some i) (some x)) :
    ∃ j s, Reaches scopes i j ∧ scopes[j]? = some s ∧ s.find? kind name = some x := by
  generalize hfrom : some i = start at h
  generalize hfound : some x = r at h
  induction h generalizing i with
  | nowhere => cases hfrom
  | @here k s x hs hx =>
      cases hfrom
      cases hfound
      exact ⟨k, s, .self k, hs, hx⟩
  | @outward k s r hs _ hr ih =>
      cases hfrom
      subst hfound
      cases hparent : s.parent with
      | none =>
          rw [hparent] at hr
          cases hr
      | some p =>
          obtain ⟨j, s', hreaches, hs', hx⟩ := ih hparent.symm rfl
          exact ⟨j, s', .outward (by rw [hs]; exact hparent) hreaches, hs', hx⟩

/-! ## Changes of a list of scopes -/

theorem Linked.append (h : Linked scopes) {i : Nat} {outer : Scope}
    (houter : scopes[i]? = some outer) (name : String) :
    Linked (scopes ++ [Scope.opened name (outer.level + 1) (some i)]) := by
  have hi : i < scopes.length := (List.getElem?_eq_some_iff.mp houter).1
  intro k s hs
  by_cases hk : k < scopes.length
  · rw [List.getElem?_append_left hk] at hs
    rcases h k s hs with hzero | ⟨p, o, hparent, hlt, ho, hlevel⟩
    · exact Or.inl hzero
    · refine Or.inr ⟨p, o, hparent, hlt, ?_, hlevel⟩
      rwa [List.getElem?_append_left (Nat.lt_trans hlt hk)]
  · have hlast : k = scopes.length := by
      have hlt := (List.getElem?_eq_some_iff.mp hs).1
      rw [List.length_append, List.length_singleton] at hlt
      omega
    subst hlast
    rw [List.getElem?_concat_length] at hs
    cases hs
    refine Or.inr ⟨i, outer, rfl, hi, ?_, rfl⟩
    rwa [List.getElem?_append_left hi]

theorem getElem?_modify_extend (i k : Nat) (x : Symbol) :
    (scopes.modify i fun s => s.extend x)[k]? =
      if i = k then (scopes[k]?).map (·.extend x) else scopes[k]? := by
  rw [List.getElem?_modify]
  split_ifs <;> simp

theorem parent_modify_extend (i k : Nat) (x : Symbol) :
    ((scopes.modify i fun s => s.extend x)[k]?).bind Scope.parent =
      (scopes[k]?).bind Scope.parent := by
  rw [getElem?_modify_extend]
  split_ifs
  · rw [Option.bind_map]
    rfl
  · rfl

theorem Linked.modify (h : Linked scopes) (i : Nat) (x : Symbol) :
    Linked (scopes.modify i fun s => s.extend x) := by
  have hlevel : ∀ {k : Nat} {s : Scope}, scopes[k]? = some s →
      ∃ s', (scopes.modify i fun s => s.extend x)[k]? = some s' ∧ s'.level = s.level := by
    intro k s hs
    rw [getElem?_modify_extend, hs]
    split_ifs
    · exact ⟨s.extend x, rfl, rfl⟩
    · exact ⟨s, rfl, rfl⟩
  intro k s' hs'
  obtain ⟨s, hs, hparent, hsame⟩ :
      ∃ s, scopes[k]? = some s ∧ s'.parent = s.parent ∧ s'.level = s.level := by
    rw [getElem?_modify_extend] at hs'
    split_ifs at hs'
    · obtain ⟨s, hs, rfl⟩ := Option.map_eq_some_iff.mp hs'
      exact ⟨s, hs, rfl, rfl⟩
    · exact ⟨s', hs', rfl, rfl⟩
  rw [hparent, hsame]
  rcases h k s hs with hzero | ⟨p, o, hp, hlt, ho, hup⟩
  · exact Or.inl hzero
  · obtain ⟨o', ho', hlevel'⟩ := hlevel ho
    exact Or.inr ⟨p, o', hp, hlt, ho', by rw [hlevel', hup]⟩

end

/-! ## Well-formed tables -/

/-- The scopes are linked and keyed, and the current scope is one of them. -/
structure WellFormed (t : SymbolTable) : Prop where
  linked : Linked t.scopes
  keyed : ∀ s ∈ t.scopes, s.Keyed
  current : t.current < t.scopes.length

theorem wellFormed_initial : initial.WellFormed where
  linked i s hs := by
    have hi : i < 1 := (List.getElem?_eq_some_iff.mp hs).1
    obtain rfl : i = 0 := by omega
    cases hs
    exact Or.inl ⟨rfl, rfl, rfl⟩
  keyed s hs := by
    cases List.mem_singleton.mp hs
    exact Scope.keyed_global
  current := Nat.one_pos

theorem WellFormed.exists_current {t : SymbolTable} (h : t.WellFormed) :
    ∃ s, t.scopes[t.current]? = some s ∧ t.level = s.level ∧
      (t.current = 0 ∧ s.parent = none ∨ ∃ p, s.parent = some p ∧ p < t.current) := by
  have hs := List.getElem?_eq_getElem h.current
  refine ⟨_, hs, by rw [level, hs]; rfl, ?_⟩
  rcases h.linked _ _ hs with ⟨hzero, hnone, _⟩ | ⟨p, _, hp, hlt, _⟩
  · exact Or.inl ⟨hzero, hnone⟩
  · exact Or.inr ⟨p, hp, hlt⟩

/-- The ways in which a symbol is defined. -/
theorem WellFormed.define_cases {t : SymbolTable} (h : t.WellFormed) (x : Symbol) :
    ∃ s, t.scopes[t.current]? = some s ∧
      ((∃ first, s.find? x.kind x.name = some first ∧ t.define x = .error first) ∨
        s.find? x.kind x.name = none ∧
          t.define x = .ok { t with scopes := t.scopes.modify t.current fun s => s.extend x }) := by
  obtain ⟨s, hs, _⟩ := h.exists_current
  refine ⟨s, hs, ?_⟩
  unfold define
  rw [hs, Option.bind_some]
  cases hfind : s.find? x.kind x.name with
  | some first => exact Or.inl ⟨first, rfl, rfl⟩
  | none => exact Or.inr ⟨rfl, rfl⟩

/-- The table after a step. A symbol that clashes is not added. -/
def after (t : SymbolTable) : TableStep → SymbolTable
  | .enter name => t.enter name
  | .exit => t.exit
  | .define x => (t.define x).toOption.getD t

def run (t : SymbolTable) (steps : List TableStep) : SymbolTable := steps.foldl after t

theorem run_append (t : SymbolTable) (steps more : List TableStep) :
    t.run (steps ++ more) = (t.run steps).run more :=
  List.foldl_append

section
variable {t : SymbolTable}

theorem exit_of_parent {s : Scope} {p : Nat} (hs : t.scopes[t.current]? = some s)
    (hp : s.parent = some p) : t.exit = { t with current := p } := by
  unfold exit
  rw [hs, Option.bind_some, hp]

theorem exit_of_outermost {s : Scope} (hs : t.scopes[t.current]? = some s)
    (hp : s.parent = none) : t.exit = t := by
  unfold exit
  rw [hs, Option.bind_some, hp]

theorem after_of_define_error {x first : Symbol} (h : t.define x = .error first) :
    t.after (.define x) = t := by
  rw [after, h]
  rfl

theorem after_of_define_ok {x : Symbol} {t' : SymbolTable} (h : t.define x = .ok t') :
    t.after (.define x) = t' := by
  rw [after, h]
  rfl

theorem WellFormed.enter (h : t.WellFormed) (name : String) : (t.enter name).WellFormed := by
  obtain ⟨s, hs, hlevel, _⟩ := h.exists_current
  refine ⟨?_, fun s' hs' => ?_, ?_⟩
  · show Linked (t.scopes ++ [Scope.opened name (t.level + 1) (some t.current)])
    rw [hlevel]
    exact h.linked.append hs name
  · rcases List.mem_append.mp hs' with hs' | hs'
    · exact h.keyed s' hs'
    · cases List.mem_singleton.mp hs'
      exact Scope.keyed_opened _ _ _
  · show t.scopes.length < (t.scopes ++ [_]).length
    rw [List.length_append]
    exact Nat.lt_succ_self _

theorem WellFormed.exit (h : t.WellFormed) : t.exit.WellFormed := by
  obtain ⟨s, hs, _, ⟨_, hp⟩ | ⟨p, hp, hlt⟩⟩ := h.exists_current
  · rw [exit_of_outermost hs hp]
    exact h
  · rw [exit_of_parent hs hp]
    exact ⟨h.linked, h.keyed, Nat.lt_trans hlt h.current⟩

theorem WellFormed.define (h : t.WellFormed) (x : Symbol) {t' : SymbolTable}
    (ht' : t.define x = .ok t') : t'.WellFormed := by
  obtain ⟨s, hs, ⟨first, _, herror⟩ | ⟨hnew, hok⟩⟩ := h.define_cases x
  · rw [herror] at ht'
    cases ht'
  · rw [hok] at ht'
    cases ht'
    refine ⟨h.linked.modify _ x, fun s' hs' => ?_, ?_⟩
    · obtain ⟨k, hk⟩ := List.mem_iff_getElem?.mp hs'
      rw [getElem?_modify_extend] at hk
      split_ifs at hk with hcurrent
      · rw [← hcurrent, hs] at hk
        cases hk
        exact (h.keyed s (List.mem_of_getElem? hs)).extend hnew
      · exact h.keyed s' (List.mem_of_getElem? hk)
    · show t.current < (t.scopes.modify t.current _).length
      rw [List.length_modify]
      exact h.current

theorem WellFormed.after (h : t.WellFormed) (step : TableStep) : (t.after step).WellFormed := by
  cases step with
  | enter name => exact h.enter name
  | exit => exact h.exit
  | define x =>
      unfold SymbolTable.after
      dsimp only
      cases hdefine : t.define x with
      | error first => exact h
      | ok t' => exact h.define x hdefine

theorem WellFormed.run (h : t.WellFormed) (steps : List TableStep) : (t.run steps).WellFormed := by
  induction steps generalizing t with
  | nil => exact h
  | cons step steps ih => exact ih (h.after step)

/-! ## The stack of a table -/

/-- What is bound in the scopes of the chain. -/
def stack (t : SymbolTable) : ScopeStack := t.chain.map Scope.find?

theorem lookup_stack (t : SymbolTable) (kind : SymbolKind) (name : String) :
    t.stack.lookup kind name = t.resolve kind name := by
  unfold stack ScopeStack.lookup resolve
  rw [List.findSome?_map]
  rfl

theorem stack_initial : initial.stack = ScopeStack.initial := by
  have hchain : initial.chain = [global] := chainFrom_outermost rfl rfl
  unfold stack ScopeStack.initial
  rw [hchain, List.map_singleton]
  congr 1
  funext kind name
  rw [Scope.find?_eq, symbols_global, List.find?_map]
  by_cases hkind : kind = .variable
  · subst hkind
    rfl
  · rw [if_neg hkind, List.find?_eq_none.mpr]
    · rfl
    · intro n _
      simp [builtin, Ne.symm hkind]

theorem WellFormed.stack_enter (h : t.WellFormed) (name : String) :
    (t.enter name).stack = t.stack.enter := by
  have hchain : (t.enter name).chain =
      Scope.opened name (t.level + 1) (some t.current) :: t.chain := by
    have hlast := List.getElem?_concat_length (l := t.scopes)
      (a := Scope.opened name (t.level + 1) (some t.current))
    show chainFrom (t.scopes ++ [_]) t.scopes.length = _
    rw [chainFrom_inside hlast rfl h.current]
    congr 1
    exact chainFrom_congr fun j hj =>
      List.getElem?_append_left (Nat.lt_of_le_of_lt hj h.current)
  unfold stack
  rw [hchain]
  rfl

theorem WellFormed.stack_exit (h : t.WellFormed) : t.exit.stack = t.stack.exit := by
  obtain ⟨s, hs, _, ⟨_, hp⟩ | ⟨p, hp, hlt⟩⟩ := h.exists_current
  · rw [exit_of_outermost hs hp]
    unfold stack chain
    rw [chainFrom_outermost hs hp]
    rfl
  · obtain ⟨outer, hchain, _⟩ :=
      h.linked.exists_chainFrom (List.getElem?_eq_getElem (Nat.lt_trans hlt h.current))
    rw [exit_of_parent hs hp]
    unfold stack chain
    dsimp only
    rw [chainFrom_inside hs hp hlt, hchain]
    rfl

theorem WellFormed.chain_modify (h : t.WellFormed) {s : Scope} {outer : List Scope}
    (hchain : t.chain = s :: outer) (x : Symbol) :
    chainFrom (t.scopes.modify t.current fun s => s.extend x) t.current = s.extend x :: outer := by
  obtain ⟨s', hs, _, hparent⟩ := h.exists_current
  have hs' : (t.scopes.modify t.current fun s => s.extend x)[t.current]? = some (s'.extend x) := by
    rw [getElem?_modify_extend, if_pos rfl, hs]
    rfl
  unfold chain at hchain
  rcases hparent with ⟨_, hp⟩ | ⟨p, hp, hlt⟩
  · rw [chainFrom_outermost hs hp] at hchain
    cases hchain
    exact chainFrom_outermost hs' hp
  · rw [chainFrom_inside hs hp hlt] at hchain
    cases hchain
    rw [chainFrom_inside hs' hp hlt]
    congr 1
    refine chainFrom_congr fun j hj => ?_
    rw [getElem?_modify_extend, if_neg (Nat.ne_of_gt (Nat.lt_of_le_of_lt hj hlt))]

theorem WellFormed.stack_define (h : t.WellFormed) (x : Symbol) :
    (t.define x).map stack = t.stack.define x := by
  obtain ⟨s, hs, hdefine⟩ := h.define_cases x
  obtain ⟨outer, hchain, hlength⟩ := h.linked.exists_chainFrom hs
  have hstack : t.stack = s.find? :: outer.map Scope.find? := by
    unfold stack
    rw [show t.chain = s :: outer from hchain]
    rfl
  rw [hstack]
  unfold ScopeStack.define
  dsimp only
  rcases hdefine with ⟨first, hfirst, herror⟩ | ⟨hnew, hok⟩
  · rw [herror, hfirst]
    rfl
  · have hchain' : chain { t with scopes := t.scopes.modify t.current fun s => s.extend x } =
        s.extend x :: outer := h.chain_modify hchain x
    rw [hok, hnew, List.length_map, hlength, ← Scope.find?_extend_of_new hnew, Except.map, stack,
      hchain']
    rfl

theorem WellFormed.stack_after (h : t.WellFormed) (step : TableStep) :
    (t.after step).stack = t.stack.after step := by
  cases step with
  | enter name => exact h.stack_enter name
  | exit => exact h.stack_exit
  | define x =>
      unfold SymbolTable.after ScopeStack.after
      dsimp only
      rw [← h.stack_define x]
      cases t.define x <;> rfl

/-- **A table is a stack of maps.** Every run of a table is a run of its stack. -/
theorem WellFormed.stack_run (h : t.WellFormed) (steps : List TableStep) :
    (t.run steps).stack = t.stack.run steps := by
  induction steps generalizing t with
  | nil => rfl
  | cons step steps ih =>
      rw [ScopeStack.run, List.foldl_cons, ← h.stack_after step]
      exact ih (h.after step)

/-! ## Scopes that were left -/

theorem WellFormed.isOpen_of_after (h : t.WellFormed) (step : TableStep) {i : Nat}
    (hi : i < t.scopes.length) (hopen : (t.after step).IsOpen i) : t.IsOpen i := by
  cases step with
  | enter name =>
      have hlinks : ∀ k ≤ t.current, ((t.enter name).scopes[k]?).bind Scope.parent =
          (t.scopes[k]?).bind Scope.parent := by
        intro k hk
        show ((t.scopes ++ [_])[k]?).bind Scope.parent = _
        rw [List.getElem?_append_left (Nat.lt_of_le_of_lt hk h.current)]
      have hlast : ((t.enter name).scopes[t.scopes.length]?).bind Scope.parent =
          some t.current := by
        show ((t.scopes ++ [_])[t.scopes.length]?).bind Scope.parent = _
        rw [List.getElem?_concat_length]
        rfl
      cases (show Reaches (t.enter name).scopes t.scopes.length i from hopen) with
      | self => exact absurd hi (Nat.lt_irrefl _)
      | outward hp hr =>
          rw [hlast] at hp
          cases hp
          exact hr.of_links h.linked hlinks
  | exit =>
      obtain ⟨s, hs, _, ⟨_, hp⟩ | ⟨p, hp, hlt⟩⟩ := h.exists_current
      · rwa [show t.after .exit = t from exit_of_outermost hs hp] at hopen
      · rw [show t.after .exit = { t with current := p } from exit_of_parent hs hp] at hopen
        exact .outward (by rw [hs]; exact hp) hopen
  | define x =>
      obtain ⟨s, hs, ⟨first, _, herror⟩ | ⟨_, hok⟩⟩ := h.define_cases x
      · rwa [after_of_define_error herror] at hopen
      · rw [after_of_define_ok hok] at hopen
        exact Reaches.of_links h.linked (fun k _ => parent_modify_extend _ k x) hopen

/-- A step keeps every scope, with its symbols, and one that was left as it is. -/
theorem WellFormed.exists_after (h : t.WellFormed) (step : TableStep) {i : Nat} {s : Scope}
    (hs : t.scopes[i]? = some s) :
    ∃ s', (t.after step).scopes[i]? = some s' ∧ s.GrowsTo s' ∧ (¬t.IsOpen i → s' = s) := by
  cases step with
  | enter name =>
      refine ⟨s, ?_, .refl s, fun _ => rfl⟩
      show (t.scopes ++ [_])[i]? = some s
      rw [List.getElem?_append_left (List.getElem?_eq_some_iff.mp hs).1, hs]
  | exit =>
      refine ⟨s, ?_, .refl s, fun _ => rfl⟩
      obtain ⟨c, hc, _, ⟨_, hp⟩ | ⟨p, hp, _⟩⟩ := h.exists_current
      · rwa [show t.after .exit = t from exit_of_outermost hc hp]
      · rwa [show t.after .exit = { t with current := p } from exit_of_parent hc hp]
  | define x =>
      obtain ⟨c, _, ⟨first, _, herror⟩ | ⟨_, hok⟩⟩ := h.define_cases x
      · refine ⟨s, ?_, .refl s, fun _ => rfl⟩
        rwa [after_of_define_error herror]
      · rw [after_of_define_ok hok, getElem?_modify_extend, hs]
        split_ifs with hcurrent
        · -- the current scope is open
          exact ⟨s.extend x, rfl, s.growsTo_extend x,
            fun hclosed => absurd (hcurrent ▸ .self t.current) hclosed⟩
        · exact ⟨s, rfl, .refl s, fun _ => rfl⟩

/-- **What was left stays left.** No run loses a scope or one of its symbols, and a scope that was
left is as it was, and not open. -/
theorem WellFormed.exists_run (h : t.WellFormed) (steps : List TableStep) {i : Nat} {s : Scope}
    (hs : t.scopes[i]? = some s) :
    ∃ s', (t.run steps).scopes[i]? = some s' ∧ s.GrowsTo s' ∧
      (¬t.IsOpen i → s' = s ∧ ¬(t.run steps).IsOpen i) := by
  induction steps generalizing t s with
  | nil => exact ⟨s, hs, .refl s, fun hclosed => ⟨rfl, hclosed⟩⟩
  | cons step steps ih =>
      obtain ⟨s₁, hs₁, hgrows₁, hsame₁⟩ := h.exists_after step hs
      obtain ⟨s₂, hs₂, hgrows₂, hsame₂⟩ := ih (h.after step) hs₁
      refine ⟨s₂, hs₂, hgrows₁.trans hgrows₂, fun hclosed => ?_⟩
      have hclosed₁ : ¬(t.after step).IsOpen i := fun hopen =>
        hclosed (h.isOpen_of_after step (List.getElem?_eq_some_iff.mp hs).1 hopen)
      obtain ⟨rfl, hclosed₂⟩ := hsame₂ hclosed₁
      exact ⟨hsame₁ hclosed, hclosed₂⟩

theorem WellFormed.not_isOpen_exit (h : t.WellFormed) (hcurrent : t.current ≠ 0) :
    ¬t.exit.IsOpen t.current := by
  obtain ⟨s, hs, _, ⟨hzero, _⟩ | ⟨p, hp, hlt⟩⟩ := h.exists_current
  · exact absurd hzero hcurrent
  · rw [exit_of_parent hs hp]
    intro hopen
    exact absurd (Reaches.le h.linked hopen) (Nat.not_le_of_lt hlt)

theorem WellFormed.exit_of_current_eq_zero (h : t.WellFormed) (hcurrent : t.current = 0) :
    t.exit = t := by
  obtain ⟨s, hs, _, ⟨_, hp⟩ | ⟨p, _, hlt⟩⟩ := h.exists_current
  · exact exit_of_outermost hs hp
  · rw [hcurrent] at hlt
    exact absurd hlt (Nat.not_lt_zero p)

theorem WellFormed.resolves_iff (h : t.WellFormed) (kind : SymbolKind) (name : String)
    (r : Option Symbol) :
    Resolves t.scopes kind name (some t.current) r ↔ r = t.resolve kind name := by
  have hresolves := h.linked.resolves h.current kind name
  constructor
  · intro hr
    exact hr.unique hresolves
  · rintro rfl
    exact hresolves

theorem WellFormed.exists_isOpen_of_resolve (h : t.WellFormed) {kind : SymbolKind} {name : String}
    {x : Symbol} (hx : t.resolve kind name = some x) :
    ∃ i s, t.IsOpen i ∧ t.scopes[i]? = some s ∧ x ∈ s.symbols ∧ x.kind = kind ∧ x.name = name := by
  obtain ⟨i, s, hopen, hs, hfind⟩ :=
    ((h.resolves_iff kind name (some x)).mpr hx.symm).exists_reaches
  rw [Scope.find?_eq] at hfind
  refine ⟨i, s, hopen, hs, List.mem_of_find?_eq_some hfind, ?_⟩
  simpa using List.find?_some hfind

end

/-- What defining a symbol does: it is bound in the current scope, at the level of that, or the
symbol that is bound there is the failure, and nothing changes. -/
def DefinesAtCurrent (t : SymbolTable) (x : Symbol) : Prop :=
  ∃ s, t.scopes[t.current]? = some s ∧
    ((∃ first ∈ s.symbols, first.kind = x.kind ∧ first.name = x.name ∧
        t.define x = .error first ∧ t.after (.define x) = t) ∨
      (∀ y ∈ s.symbols, ¬(y.kind = x.kind ∧ y.name = x.name)) ∧
        ∃ s', s'.name = s.name ∧ s'.level = s.level ∧ s'.parent = s.parent ∧
          s'.symbols = s.symbols ++ [{ x with scopeLevel := s.level }] ∧
          t.define x = .ok ⟨t.scopes.set t.current s', t.current⟩)

theorem WellFormed.definesAtCurrent {t : SymbolTable} (h : t.WellFormed) (x : Symbol) :
    t.DefinesAtCurrent x := by
  obtain ⟨s, hs, hdefine⟩ := h.define_cases x
  refine ⟨s, hs, ?_⟩
  rcases hdefine with ⟨first, hfirst, herror⟩ | ⟨hnew, hok⟩
  · rw [Scope.find?_eq] at hfirst
    have hkey : first.kind = x.kind ∧ first.name = x.name := by
      simpa using List.find?_some hfirst
    exact Or.inl ⟨first, List.mem_of_find?_eq_some hfirst, hkey.1, hkey.2, herror,
      after_of_define_error herror⟩
  · refine Or.inr ⟨fun y hy => ?_, s.extend x, rfl, rfl, rfl, rfl, ?_⟩
    · rw [Scope.find?_eq, List.find?_eq_none] at hnew
      simpa using hnew y hy
    · have hscopes : t.scopes.modify t.current (fun s => s.extend x) =
          t.scopes.set t.current (s.extend x) := by
        refine List.ext_getElem? fun k => ?_
        rw [getElem?_modify_extend, List.getElem?_set]
        split_ifs with hk hlt
        · rw [← hk, hs]
          rfl
        · exact absurd (hk ▸ h.current) hlt
        · rfl
      rw [hok, hscopes]

/-- The new table is made by defining the built-in namespaces, and none of them clashes. -/
theorem initial_eq_define :
    namespaces.foldlM (fun t n => define t (builtin n.1 n.2)) ⟨[Scope.opened "global" 0 none], 0⟩ =
      .ok initial :=
  rfl

/-- **A symbol table refines a stack of environments.** After any steps from the new table: every
scope is linked to one that is older and one level further out, its symbols differ in kind or name
and its index leads to each of them. Looking a name up along the links ends, and gives what the
stack of maps gives. A symbol is bound in the current scope at its level, as on the stack, or it
clashes there, and then nothing changes. The outermost scope is never left; any other is not open
once it was left. And whatever steps follow, every scope is kept with its symbols, one that is not
open stays as it is and closed, and what is found is in an open scope. -/
theorem refines_stack (steps : List TableStep) :
    (initial.run steps).WellFormed ∧
      (∀ kind name r, Resolves (initial.run steps).scopes kind name
        (some (initial.run steps).current) r ↔ r = (initial.run steps).resolve kind name) ∧
      (∀ kind name, (initial.run steps).resolve kind name =
        (ScopeStack.initial.run steps).lookup kind name) ∧
      (∀ x, (initial.run steps).DefinesAtCurrent x ∧
        ((initial.run steps).define x).map stack = (ScopeStack.initial.run steps).define x) ∧
      ((initial.run steps).current = 0 → (initial.run steps).exit = initial.run steps) ∧
      ((initial.run steps).current ≠ 0 →
        ¬(initial.run steps).exit.IsOpen (initial.run steps).current) ∧
      ∀ more,
        (∀ i s, (initial.run steps).scopes[i]? = some s →
          ∃ s', (initial.run (steps ++ more)).scopes[i]? = some s' ∧ s.GrowsTo s' ∧
            (¬(initial.run steps).IsOpen i →
              s' = s ∧ ¬(initial.run (steps ++ more)).IsOpen i)) ∧
        ∀ kind name x, (initial.run (steps ++ more)).resolve kind name = some x →
          ∃ i s, (initial.run (steps ++ more)).IsOpen i ∧
            (initial.run (steps ++ more)).scopes[i]? = some s ∧
            x ∈ s.symbols ∧ x.kind = kind ∧ x.name = name := by
  have h := wellFormed_initial.run steps
  have hstack : (initial.run steps).stack = ScopeStack.initial.run steps := by
    rw [wellFormed_initial.stack_run, stack_initial]
  refine ⟨h, h.resolves_iff, fun kind name => ?_, fun x => ⟨h.definesAtCurrent x, ?_⟩,
    h.exit_of_current_eq_zero, h.not_isOpen_exit, fun more => ?_⟩
  · rw [← hstack, lookup_stack]
  · rw [← hstack, h.stack_define]
  · rw [run_append]
    exact ⟨fun i s hs => h.exists_run more hs,
      fun kind name x hx => (h.run more).exists_isOpen_of_resolve hx⟩

/-- What was bound in a scope that was left is not found in a later one of the same name. -/
example :
    let clerk : Symbol := { name := "clerk", kind := .role, attributes := [], line := 4 }
    let left := initial.run [.enter "policy@4", .define clerk, .exit, .enter "policy@4"]
    left.resolve .role "clerk" = none ∧
      left.scopes.map (fun s => s.symbols.map Symbol.line) = [[0, 0, 0, 0, 0], [4], []] := by
  decide +kernel

end SymbolTable
end AccessPolicy
