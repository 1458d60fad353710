import AccessPolicy.PolicySet.Basic

/-!
# Resource patterns

A policy names its resources by a pattern, in which `*` stands for any run of
characters and every other character for itself. A pattern that begins with `/`
is about the path of a resource, any other about its name.

A pattern is matched from the front, byte by byte. Where it fails, the latest
star takes one byte more, and matching goes on from there; earlier stars keep
what they have taken.
-/

namespace AccessPolicy
namespace ResourcePattern

section
variable {α : Type} {star : α}

/-- The latest star passed, where `pattern` and `text` are still to be matched:
what follows it in the pattern, and the part of the text that it has not taken.
Of these two, the parts already matched are the same and have no star. -/
structure Latest (star : α) (pattern text : List α) where
  after : List α
  untaken : List α
  matched : ∃ same, after = same ++ pattern ∧ untaken = same ++ text ∧ star ∉ same

namespace Latest

def here (pattern text : List α) : Latest star pattern text :=
  ⟨pattern, text, [], rfl, rfl, List.not_mem_nil⟩

def advance {c : α} {pattern text : List α} (l : Latest star (c :: pattern) (c :: text))
    (h : c ≠ star) : Latest star pattern text where
  after := l.after
  untaken := l.untaken
  matched := by
    obtain ⟨same, hafter, huntaken, hsame⟩ := l.matched
    refine ⟨same ++ [c], by simp [hafter], by simp [huntaken], ?_⟩
    simp [hsame, h.symm]

end Latest

/-- What is still to be matched, and the star to go back to. -/
structure Cursor (star : α) where
  pattern : List α
  text : List α
  latest : Option (Latest star pattern text)

namespace Cursor

/-- The latest star takes one character more. -/
def retry {pattern text : List α} (latest : Option (Latest star pattern text)) :
    Option (Cursor star) :=
  latest.map fun l => ⟨l.after, l.untaken.tail, some (.here l.after l.untaken.tail)⟩

/-- How much of the pattern there is after the latest star, or at all. -/
def reach (c : Cursor star) : Nat :=
  match c.latest with
  | none => c.pattern.length
  | some l => l.after.length

/-- How much of the text the latest star has not taken. -/
def reserve (c : Cursor star) : Nat :=
  match c.latest with
  | none => c.text.length
  | some l => l.untaken.length

/-- A bound on the steps to come: those for what is left, and for every character that the latest
star can still take a run through all that follows it. -/
def size (c : Cursor star) : Nat :=
  c.reserve * (c.reach + c.reserve + 1) + (c.pattern.length + c.text.length)

section
variable {c d : Cursor star} {pattern text : List α}

theorem size_lt (hreach : c.reach ≤ d.reach) (hreserve : c.reserve ≤ d.reserve)
    (hrest : c.pattern.length + c.text.length < d.pattern.length + d.text.length) :
    c.size < d.size := by
  have hruns : c.reserve * (c.reach + c.reserve + 1) ≤ d.reserve * (d.reach + d.reserve + 1) :=
    Nat.mul_le_mul hreserve (by omega)
  unfold size
  omega

/-- A step back leaves less of the text to the latest star. -/
theorem size_retry {latest : Option (Latest star pattern text)} (htext : text ≠ [])
    (h : retry latest = some c) : c.size < size ⟨pattern, text, latest⟩ := by
  cases latest with
  | none => cases h
  | some l =>
      cases h
      obtain ⟨same, _, huntaken, _⟩ := l.matched
      have hpos : 0 < l.untaken.length := by
        rw [huntaken, List.length_append]
        exact Nat.add_pos_right _ (List.length_pos_iff.mpr htext)
      obtain ⟨n, hn⟩ : ∃ n, l.untaken.length = n + 1 := ⟨_, (Nat.succ_pred_eq_of_pos hpos).symm⟩
      have hruns : n * (l.after.length + n + 1) ≤ n * (l.after.length + (n + 1) + 1) :=
        Nat.mul_le_mul_left n (by omega)
      simp only [size, reach, reserve, Latest.here, List.length_tail, hn, Nat.add_sub_cancel,
        Nat.succ_mul]
      omega

theorem size_star (latest : Option (Latest star (star :: pattern) text)) :
    (⟨pattern, text, some (.here pattern text)⟩ : Cursor star).size <
      size ⟨star :: pattern, text, latest⟩ := by
  have hrest : pattern.length + text.length < (star :: pattern).length + text.length := by
    rw [List.length_cons]
    omega
  cases latest with
  | none => exact size_lt (Nat.le_succ _) (Nat.le_refl _) hrest
  | some l =>
      obtain ⟨same, hafter, huntaken, _⟩ := l.matched
      refine size_lt ?_ ?_ hrest
      · simp only [reach, Latest.here, hafter, List.length_append, List.length_cons]
        omega
      · simp only [reserve, Latest.here, huntaken, List.length_append]
        omega

theorem size_same {x : α} (hstar : x ≠ star)
    (latest : Option (Latest star (x :: pattern) (x :: text))) :
    size ⟨pattern, text, latest.map fun l => l.advance hstar⟩ <
      size ⟨x :: pattern, x :: text, latest⟩ := by
  have hrest : pattern.length + text.length < (x :: pattern).length + (x :: text).length := by
    simp only [List.length_cons]
    omega
  cases latest with
  | none => exact size_lt (Nat.le_succ _) (Nat.le_succ _) hrest
  | some l => exact size_lt (Nat.le_refl _) (Nat.le_refl _) hrest

end

variable [DecidableEq α]

/-- How matching goes on while there is text left, if it does. -/
def next? : Cursor star → Option (Cursor star)
  | ⟨c :: pattern, x :: text, latest⟩ =>
    if hstar : c = star then some ⟨pattern, x :: text, some (.here pattern (x :: text))⟩
    else if hsame : c = x then
      some ⟨pattern, text, latest.map fun l => Latest.advance (hsame ▸ l) hstar⟩
    else retry latest
  | ⟨_, _, latest⟩ => retry latest

section
variable {pattern text : List α} {c x : α}

theorem next?_star (latest : Option (Latest star (star :: pattern) (x :: text))) :
    next? ⟨star :: pattern, x :: text, latest⟩ =
      some ⟨pattern, x :: text, some (.here pattern (x :: text))⟩ := dif_pos rfl

theorem next?_same (hstar : c ≠ star) (latest : Option (Latest star (c :: pattern) (c :: text))) :
    next? ⟨c :: pattern, c :: text, latest⟩ =
      some ⟨pattern, text, latest.map fun l => l.advance hstar⟩ := by
  rw [next?, dif_neg hstar, dif_pos rfl]

theorem next?_other (hstar : c ≠ star) (hother : c ≠ x)
    (latest : Option (Latest star (c :: pattern) (x :: text))) :
    next? ⟨c :: pattern, x :: text, latest⟩ = retry latest := by
  rw [next?, dif_neg hstar, dif_neg hother]

theorem next?_nil (latest : Option (Latest star [] text)) :
    next? ⟨[], text, latest⟩ = retry latest := rfl

end

theorem size_next? {c c' : Cursor star} (htext : c.text ≠ []) (h : c.next? = some c') :
    c'.size < c.size := by
  obtain ⟨pattern, text, latest⟩ := c
  cases pattern with
  | nil => exact size_retry htext h
  | cons p pattern =>
      cases text with
      | nil => exact absurd rfl htext
      | cons x text =>
          by_cases hstar : p = star
          · subst hstar
            rw [next?_star] at h
            cases h
            exact size_star latest
          · by_cases hsame : p = x
            · subst hsame
              rw [next?_same hstar] at h
              cases h
              exact size_same hstar latest
            · rw [next?_other hstar hsame] at h
              exact size_retry htext h

/-- Does the rest of the pattern match the rest of the text, or does some later place for the
latest star help? When the text is used up, only stars may be left. -/
def accepts (c : Cursor star) : Bool :=
  if _ : c.text = [] then c.pattern.all (· = star)
  else
    match _ : c.next? with
    | none => false
    | some c' => accepts c'
termination_by c.size
decreasing_by exact size_next? ‹_› ‹_›

end Cursor
end

def bytes (text : String) : List UInt8 := text.toUTF8.data.toList

def starByte : UInt8 := 42

def matchesText (pattern text : String) : Bool :=
  (⟨bytes pattern, bytes text, none⟩ : Cursor starByte).accepts

def matchesResource (pattern : String) (r : Resource) : Bool :=
  if pattern.toList.head? = some '/' then
    match r.path with
    | some path => matchesText pattern path
    | none => false
  else pattern = r.name || matchesText pattern r.name

example : matchesText "a*b*c" "axxbyyc" = true ∧ matchesText "a*b" "axxbx" = false := by
  decide +kernel

end ResourcePattern
end AccessPolicy
