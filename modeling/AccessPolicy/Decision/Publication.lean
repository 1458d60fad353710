import AccessPolicy.Decision.Engine

/-!
# Publication of engines

An engine never changes. A new policy set is put to use by publishing an engine
in place of the one before; who holds the old one keeps it, and it is the
current one just while nothing is published (`same_replaceAll`).
-/

namespace AccessPolicy

/-- An engine with the number of its publication. -/
structure PublishedEngine where
  number : Nat
  engine : Engine

namespace PublishedEngine

def first (e : Engine) : PublishedEngine := ⟨0, e⟩

def replace (current : PublishedEngine) (e : Engine) : PublishedEngine := ⟨current.number + 1, e⟩

def same (a b : PublishedEngine) : Bool := a.number = b.number

/-- The current publication after some engines are published, one after the other. -/
def replaceAll (current : PublishedEngine) (es : List Engine) : PublishedEngine :=
  es.foldl replace current

section
variable (a : PublishedEngine) (e : Engine) (es : List Engine)

theorem replaceAll_concat : a.replaceAll (es ++ [e]) = (a.replaceAll es).replace e :=
  List.foldl_append

theorem number_replaceAll : (a.replaceAll es).number = a.number + es.length := by
  induction es generalizing a with
  | nil => rfl
  | cons e es ih =>
      rw [replaceAll, List.foldl_cons, ← replaceAll, ih, List.length_cons]
      show a.number + 1 + es.length = a.number + (es.length + 1)
      omega

theorem engine_replaceAll_concat : (a.replaceAll (es ++ [e])).engine = e := by
  rw [replaceAll_concat]
  rfl

/-- **A held engine** is the current one just while nothing is published. -/
theorem same_replaceAll : (a.replaceAll es).same a = true ↔ es = [] := by
  rw [same, decide_eq_true_eq, number_replaceAll, Nat.add_eq_left, List.length_eq_zero_iff]

end
end PublishedEngine
end AccessPolicy
