import Mathlib.Data.Nat.Init
import SelfNodeRemediation.Lib.Interaction

/-!
# Runs without end

An `Execution` is an infinite run of a worker and its environment, looked at in a
sequence of states: any number of steps, or none, lead from one of them to the next.
What is proved about reachable states holds in all of them (`Execution.reachable`).

* `Execution.along`: a relation between worlds that every step keeps holds between an
  earlier and a later one.
* `Execution.attains`: a rank that no step lowers, and that is raised from some later
  state again and again as long as it is below a goal, gets to the goal and stays there.
-/

namespace Interaction

variable {Call : Type} {Resp : Call → Type} {W α : Type}

structure Execution (exec : (c : Call) → W → Resp c → W → Prop) (env : W → W → Prop)
    (main : Prog Call Resp α) (w₀ : W) where
  state : Nat → State Call Resp W α
  start : state 0 = ⟨w₀, none⟩
  steps : ∀ n, Relation.ReflTransGen (Step exec env main) (state n) (state (n + 1))

variable {exec : (c : Call) → W → Resp c → W → Prop} {env : W → W → Prop}
  {main : Prog Call Resp α} {w₀ : W}

/-- A relation that every step from a reachable state keeps. -/
structure Carried (exec : (c : Call) → W → Resp c → W → Prop) (env : W → W → Prop)
    (main : Prog Call Resp α) (w₀ : W) (R : W → W → Prop) : Prop where
  refl : ∀ w, R w w
  trans : ∀ {w w' w''}, R w w' → R w' w'' → R w w''
  step : ∀ {s s'}, Reachable exec env main w₀ s → Step exec env main s s' → R s.world s'.world

theorem Carried.steps {R : W → W → Prop} (hR : Carried exec env main w₀ R)
    {s s' : State Call Resp W α} (hreach : Reachable exec env main w₀ s)
    (h : Relation.ReflTransGen (Step exec env main) s s') : R s.world s'.world := by
  induction h with
  | refl => exact hR.refl _
  | tail hs hlast ih => exact hR.trans ih (hR.step (hreach.trans hs) hlast)

namespace Execution

variable (e : Execution exec env main w₀)

theorem reachable (n : Nat) : Reachable exec env main w₀ (e.state n) := by
  induction n with
  | zero =>
    rw [e.start]
    exact .refl
  | succ n ih => exact ih.trans (e.steps n)

theorem along {R : W → W → Prop} (hR : Carried exec env main w₀ R) {m n : Nat} (h : m ≤ n) :
    R (e.state m).world (e.state n).world := by
  induction n, h using Nat.le_induction with
  | base => exact hR.refl _
  | succ n _ ih => exact hR.trans ih (hR.steps (e.reachable n) (e.steps n))

theorem attains {rank : W → Nat}
    (hrank : Carried exec env main w₀ fun w w' => rank w ≤ rank w') (goal : Nat)
    (hraise : ∀ n, rank (e.state n).world < goal → ∃ m, n ≤ m ∧
      (rank (e.state m).world < goal → ∃ k, rank (e.state m).world < rank (e.state k).world)) :
    ∃ n, ∀ m, n ≤ m → goal ≤ rank (e.state m).world := by
  have hstages : ∀ g, g ≤ goal → ∃ n, g ≤ rank (e.state n).world := by
    intro g
    induction g with
    | zero => exact fun _ => ⟨0, Nat.zero_le _⟩
    | succ g ih =>
      intro hg
      obtain ⟨n, hn⟩ := ih (Nat.le_of_succ_le hg)
      rcases Nat.lt_or_ge (rank (e.state n).world) goal with hbelow | hdone
      · obtain ⟨m, hnm, hm⟩ := hraise n hbelow
        have hle : g ≤ rank (e.state m).world := Nat.le_trans hn (e.along hrank hnm)
        rcases Nat.lt_or_ge (rank (e.state m).world) goal with hbelow | hdone
        · obtain ⟨k, hk⟩ := hm hbelow
          exact ⟨k, Nat.succ_le_of_lt (Nat.lt_of_le_of_lt hle hk)⟩
        · exact ⟨m, Nat.le_trans hg hdone⟩
      · exact ⟨n, Nat.le_trans hg hdone⟩
  obtain ⟨n, hn⟩ := hstages goal (Nat.le_refl _)
  exact ⟨n, fun m hnm => Nat.le_trans hn (e.along hrank hnm)⟩

end Execution

end Interaction
