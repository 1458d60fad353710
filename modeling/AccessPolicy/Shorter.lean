/-!
# What is left of a list

A reader takes items from the front of a list and hands back the rest. The
types here record that the rest has become shorter, so that reading can go on
from it.
-/

namespace AccessPolicy

variable {α : Type}

/-- A rest of `xs` that is shorter than `xs`. -/
abbrev Shorter (xs : List α) := { rest : List α // rest.length < xs.length }

/-- A rest of `xs` that is no longer than `xs`. -/
abbrev NoLonger (xs : List α) := { rest : List α // rest.length ≤ xs.length }

def Shorter.tail {x : α} {xs : List α} : Shorter (x :: xs) := ⟨xs, Nat.lt_succ_self _⟩

def NoLonger.all {xs : List α} : NoLonger xs := ⟨xs, Nat.le_refl _⟩

def NoLonger.tail {x : α} {xs : List α} : NoLonger (x :: xs) := ⟨xs, Nat.le_succ _⟩

def Shorter.within {xs ys : List α} (r : Shorter ys) (h : ys.length ≤ xs.length) : Shorter xs :=
  ⟨r.1, Nat.lt_of_lt_of_le r.2 h⟩

def NoLonger.inside {xs ys : List α} (r : NoLonger ys) (h : ys.length < xs.length) : Shorter xs :=
  ⟨r.1, Nat.lt_of_le_of_lt r.2 h⟩

def Shorter.later {x : α} {xs : List α} (r : Shorter xs) : Shorter (x :: xs) :=
  r.within (Nat.le_succ _)

end AccessPolicy
