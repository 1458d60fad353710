import Mathlib.Tactic.Common

/-!
# Results of computations that can fail
-/

namespace AccessPolicy

variable {ε α β : Type}

theorem bind_eq_ok {x : Except ε α} {f : α → Except ε β} {b : β} :
    x >>= f = .ok b ↔ ∃ a, x = .ok a ∧ f a = .ok b := by
  cases x with
  | error u =>
      constructor
      · intro h
        cases h
      · rintro ⟨a, ha, _⟩
        cases ha
  | ok a =>
      constructor
      · intro h
        exact ⟨a, rfl, h⟩
      · rintro ⟨a, ha, h⟩
        cases ha
        exact h

theorem bind_eq_error {x : Except ε α} {f : α → Except ε β} {u : ε} :
    x >>= f = .error u ↔ x = .error u ∨ ∃ a, x = .ok a ∧ f a = .error u := by
  cases x with
  | error v =>
      constructor
      · intro h
        cases h
        exact Or.inl rfl
      · rintro (h | ⟨a, ha, _⟩)
        · cases h
          rfl
        · cases ha
  | ok a =>
      constructor
      · intro h
        exact Or.inr ⟨a, rfl, h⟩
      · rintro (h | ⟨b, hb, h⟩)
        · cases h
        · cases hb
          exact h

theorem map_eq_ok {f : α → β} {x : Except ε α} {b : β} :
    x.map f = .ok b ↔ ∃ a, x = .ok a ∧ f a = b := by
  cases x with
  | error u => simp [Except.map]
  | ok a => simp [Except.map]

theorem map_eq_error {f : α → β} {x : Except ε α} {u : ε} :
    x.map f = .error u ↔ x = .error u := by
  cases x with
  | error v => simp [Except.map]
  | ok a => simp [Except.map]

theorem eq_ok_of_toOption {x : Except ε α} {a : α} (h : x.toOption = some a) : x = .ok a := by
  cases x with
  | error u => cases h
  | ok b =>
      cases h
      rfl

/-- What undoes a function on one item undoes it on a list. -/
theorem mapM_eq_ok_iff_eq_map {f : β → α} {g : α → Except ε β}
    (h : ∀ x y, g x = .ok y ↔ x = f y) {xs : List α} {ys : List β} :
    xs.mapM g = .ok ys ↔ xs = ys.map f := by
  induction xs generalizing ys with
  | nil =>
      constructor
      · intro heq
        cases heq
        rfl
      · intro heq
        rw [List.map_eq_nil_iff.mp heq.symm]
        rfl
  | cons x xs ih =>
      rw [List.mapM_cons, bind_eq_ok]
      constructor
      · rintro ⟨y, hy, heq⟩
        obtain ⟨ys', hys, heq⟩ := bind_eq_ok.mp heq
        cases heq
        rw [List.map_cons, ← (h x y).mp hy, ← ih.mp hys]
      · intro heq
        obtain ⟨y, ys', rfl, hx, hxs⟩ := List.map_eq_cons_iff.mp heq.symm
        exact ⟨y, (h x y).mpr hx.symm, bind_eq_ok.mpr ⟨ys', ih.mpr hxs.symm, rfl⟩⟩

theorem exists_mapM_eq_ok {g : α → Except ε β} {xs : List α} :
    (∃ ys, xs.mapM g = .ok ys) ↔ ∀ x ∈ xs, ∃ y, g x = .ok y := by
  induction xs with
  | nil => exact ⟨fun _ => List.forall_mem_nil _, fun _ => ⟨[], rfl⟩⟩
  | cons x xs ih =>
      rw [List.forall_mem_cons, ← ih, List.mapM_cons]
      constructor
      · rintro ⟨_, h⟩
        obtain ⟨y, hy, h⟩ := bind_eq_ok.mp h
        obtain ⟨ys, hys, _⟩ := bind_eq_ok.mp h
        exact ⟨⟨y, hy⟩, ys, hys⟩
      · rintro ⟨⟨y, hy⟩, ys, hys⟩
        exact ⟨y :: ys, bind_eq_ok.mpr ⟨y, hy, bind_eq_ok.mpr ⟨ys, hys, rfl⟩⟩⟩

theorem forM_eq_ok {f : α → Except ε Unit} {xs : List α} :
    xs.forM f = .ok () ↔ ∀ x ∈ xs, f x = .ok () := by
  induction xs with
  | nil => exact ⟨fun _ => List.forall_mem_nil _, fun _ => rfl⟩
  | cons x xs ih =>
      rw [List.forall_mem_cons, ← ih]
      constructor
      · intro h
        obtain ⟨⟨⟩, hx, hxs⟩ := bind_eq_ok.mp h
        exact ⟨hx, hxs⟩
      · rintro ⟨hx, hxs⟩
        exact bind_eq_ok.mpr ⟨(), hx, hxs⟩

end AccessPolicy
