import Mathlib.Data.List.Basic
import Mathlib.Tactic.Ring

/-!
# Taking a list apart in chunks

A loop takes the next chunk off the front of a list until nothing is left. How
much it takes depends on how much is left. `Sizes` is such a rule: it takes at
least one element while something is left, and never more than is left.

* `split` is the list of chunks and `count` the number of rounds of the loop.
* `flatten_split`: the chunks in order are the list, nothing lost or repeated.
* `length_split`: there are as many chunks as rounds.
* `count_of_const`: with a constant chunk size the number of rounds is the
  rounded-up quotient.
-/

namespace Chunks

/-- A rule for the size of the next chunk, given how many elements are left. -/
structure Sizes where
  size : Nat → Nat
  pos : ∀ n, 0 < n → 0 < size n
  le : ∀ n, size n ≤ n

/-- The number of rounds of the loop on `n` elements. -/
def count (s : Sizes) (n : Nat) : Nat :=
  if 0 < n then 1 + count s (n - s.size n) else 0
termination_by n
decreasing_by
  have := s.pos n ‹_›
  omega

/-- The chunks the loop takes off `xs`, in order. -/
def split {α : Type} (s : Sizes) (xs : List α) : List (List α) :=
  if 0 < xs.length then
    xs.take (s.size xs.length) :: split s (xs.drop (s.size xs.length))
  else []
termination_by xs.length
decreasing_by
  have := s.pos xs.length ‹_›
  simp only [List.length_drop]
  omega

variable {α : Type} {s : Sizes}

@[simp] theorem count_zero : count s 0 = 0 := by
  rw [count]; rfl

theorem count_of_pos {n : Nat} (h : 0 < n) : count s n = 1 + count s (n - s.size n) := by
  rw [count, if_pos h]

@[simp] theorem split_nil : split s ([] : List α) = [] := by
  rw [split]; rfl

theorem split_of_pos {xs : List α} (h : 0 < xs.length) :
    split s xs = xs.take (s.size xs.length) :: split s (xs.drop (s.size xs.length)) := by
  rw [split, if_pos h]

/-- The number of chunks is the number of rounds. -/
theorem length_split (xs : List α) : (split s xs).length = count s xs.length := by
  induction xs using split.induct s with
  | case1 xs h ih =>
    rw [split_of_pos h, count_of_pos h, List.length_cons, ih, List.length_drop]
    omega
  | case2 xs h =>
    have hx : xs = [] := List.length_eq_zero_iff.mp (by omega)
    subst hx
    simp

/-- The chunks in order are the list. -/
theorem flatten_split (xs : List α) : (split s xs).flatten = xs := by
  induction xs using split.induct s with
  | case1 xs h ih => rw [split_of_pos h, List.flatten_cons, ih, List.take_append_drop]
  | case2 xs h =>
    have hx : xs = [] := List.length_eq_zero_iff.mp (by omega)
    subst hx
    simp

/-- A rule that takes `b` elements, or what is left of them, needs the
rounded-up quotient of rounds. -/
theorem count_of_const {b n : Nat} (hb : 0 < b)
    (h : ∀ r, 0 < r → r ≤ n → s.size r = min b r) : count s n = (n + b - 1) / b := by
  induction n using Nat.strongRecOn with
  | _ n ih =>
    rcases Nat.eq_zero_or_pos n with rfl | hn
    · rw [count_zero, Nat.div_eq_of_lt (by omega)]
    · rw [count_of_pos hn, h n hn le_rfl]
      rcases Nat.lt_or_ge n b with hlt | hge
      · rw [Nat.min_eq_right (by omega), Nat.sub_self, count_zero]
        have : (n + b - 1) / b = 1 := by
          rw [Nat.div_eq_iff hb]
          omega
        omega
      · rw [Nat.min_eq_left hge, ih (n - b) (by omega) fun r hr hle => h r hr (by omega)]
        have : n + b - 1 = (n - b + b - 1) + b := by omega
        rw [this, Nat.add_div_right _ hb]
        omega

end Chunks
