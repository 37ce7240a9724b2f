import SelfNodeRemediation.Lib.Interaction
import Mathlib.Logic.Function.Basic

/-!
# Threads over a shared world

A `System` is any number of threads that call one world. A thread is named by
its id, which also says which program it runs; it may be started when the world
is ready for it, and makes one call at a time. A call that crashes does not
return. A thread that is run again and again may be abandoned at any time.

* `System.Step` is the interleaving, with the thread that moves as its label.
* `Annotation` is a proof in the style of Owicki and Gries: an invariant of the
  world, and an assertion for each thread at the rest of its program, that its
  own calls establish and nobody else's calls break.
* `Annotation.reachable`: invariant and assertions hold in every state of a run.
* `System.View`: a system whose world has more detail. `View.run`: its runs are runs of
  the system without the detail.
-/

namespace Interaction

variable {ι Call : Type} {Resp : Call → Type} {W α : Type}

/-- The threads `ι`, what each of them runs and may do, and what else moves the
world. -/
structure System (ι Call : Type) (Resp : Call → Type) (W α : Type) where
  main : ι → Prog Call Resp α
  ready : ι → W → Prop
  exec : ι → (c : Call) → W → Resp c → W → Prop
  crash : ι → Call → W → W → Prop
  env : W → W → Prop
  again : ι → Prop

/-- The world, and the rest of the program of each thread that was started. A
thread at its end keeps its result. -/
structure Pool (ι Call : Type) (Resp : Call → Type) (W α : Type) where
  world : W
  threads : ι → Option (Prog Call Resp α)

namespace System

variable [DecidableEq ι] (S : System ι Call Resp W α)

/-- One step, and the thread whose call it is. -/
inductive Step : Option ι → Pool ι Call Resp W α → Pool ι Call Resp W α → Prop
  | env {w w' : W} {t : ι → Option (Prog Call Resp α)} :
      S.env w w' → Step none ⟨w, t⟩ ⟨w', t⟩
  | start {w : W} {t : ι → Option (Prog Call Resp α)} {i : ι} :
      t i = none → S.ready i w → Step none ⟨w, t⟩ ⟨w, Function.update t i (some (S.main i))⟩
  | call {w w' : W} {t : ι → Option (Prog Call Resp α)} {i : ι} {c : Call}
      {k : Resp c → Prog Call Resp α} {r : Resp c} :
      t i = some (.call c k) → S.exec i c w r w' →
      Step (some i) ⟨w, t⟩ ⟨w', Function.update t i (some (k r))⟩
  | crash {w w' : W} {t : ι → Option (Prog Call Resp α)} {i : ι} {c : Call}
      {k : Resp c → Prog Call Resp α} :
      t i = some (.call c k) → S.crash i c w w' → Step (some i) ⟨w, t⟩ ⟨w', t⟩
  | abandon {w : W} {t : ι → Option (Prog Call Resp α)} {i : ι} :
      S.again i → Step none ⟨w, t⟩ ⟨w, Function.update t i none⟩

/-- The states of the runs from `w₀` whose steps are all `ok`. -/
def Run (ok : Option ι → Pool ι Call Resp W α → Pool ι Call Resp W α → Prop) (w₀ : W)
    (s : Pool ι Call Resp W α) : Prop :=
  Relation.ReflTransGen (fun s s' => ∃ mover, S.Step mover s s' ∧ ok mover s s')
    ⟨w₀, fun _ => none⟩ s

/-- All interleavings. -/
def AnyStep (_ : Option ι) (_ _ : Pool ι Call Resp W α) : Prop := True

variable {S} {ok : Option ι → Pool ι Call Resp W α → Pool ι Call Resp W α → Prop} {w₀ w w' : W}
  {t : ι → Option (Prog Call Resp α)} {i : ι}

theorem Run.env (h : S.Run ok w₀ ⟨w, t⟩) (he : S.env w w') (hok : ok none ⟨w, t⟩ ⟨w', t⟩) :
    S.Run ok w₀ ⟨w', t⟩ :=
  h.tail ⟨none, .env he, hok⟩

theorem Run.start (h : S.Run ok w₀ ⟨w, t⟩) (i : ι) (hi : t i = none) (hready : S.ready i w)
    (hok : ok none ⟨w, t⟩ ⟨w, Function.update t i (some (S.main i))⟩) :
    S.Run ok w₀ ⟨w, Function.update t i (some (S.main i))⟩ :=
  h.tail ⟨none, .start hi hready, hok⟩

theorem Run.call {c : Call} {k : Resp c → Prog Call Resp α} {r : Resp c}
    (h : S.Run ok w₀ ⟨w, t⟩) (i : ι) (hi : t i = some (.call c k)) (he : S.exec i c w r w')
    (hok : ok (some i) ⟨w, t⟩ ⟨w', Function.update t i (some (k r))⟩) :
    S.Run ok w₀ ⟨w', Function.update t i (some (k r))⟩ :=
  h.tail ⟨some i, .call hi he, hok⟩

theorem Run.abandon (h : S.Run ok w₀ ⟨w, t⟩) (i : ι) (hagain : S.again i)
    (hok : ok none ⟨w, t⟩ ⟨w, Function.update t i none⟩) :
    S.Run ok w₀ ⟨w, Function.update t i none⟩ :=
  h.tail ⟨none, .abandon hagain, hok⟩

end System

/-- A proof of the system: for each thread an assertion at the rest of its
program. -/
structure Annotation [DecidableEq ι] (S : System ι Call Resp W α)
    (ok : Option ι → Pool ι Call Resp W α → Pool ι Call Resp W α → Prop) where
  inv : W → Prop
  asserts : ι → Prog Call Resp α → W → Prop
  inv_env : ∀ {w w'}, inv w → S.env w w' → inv w'
  inv_exec : ∀ {i c k w r w'}, inv w → asserts i (.call c k) w → S.exec i c w r w' → inv w'
  inv_crash : ∀ {i c k w w'}, inv w → asserts i (.call c k) w → S.crash i c w w' → inv w'
  start : ∀ {i w}, inv w → S.ready i w → asserts i (S.main i) w
  next : ∀ {i c k w r w'} {t : ι → Option (Prog Call Resp α)}, inv w → t i = some (.call c k) →
    asserts i (.call c k) w → S.exec i c w r w' →
    ok (some i) ⟨w, t⟩ ⟨w', Function.update t i (some (k r))⟩ → asserts i (k r) w'
  env : ∀ {i p w w'}, inv w → asserts i p w → S.env w w' → asserts i p w'
  /-- The others' calls keep the assertions. -/
  free : ∀ {i j p c k w r w'} {t : ι → Option (Prog Call Resp α)}, i ≠ j → inv w →
    t i = some p → asserts i p w → asserts j (.call c k) w → S.exec j c w r w' →
    ok (some j) ⟨w, t⟩ ⟨w', Function.update t j (some (k r))⟩ → asserts i p w'
  crash : ∀ {i j p c k w w'} {t : ι → Option (Prog Call Resp α)}, inv w → t i = some p →
    asserts i p w → asserts j (.call c k) w → S.crash j c w w' → ok (some j) ⟨w, t⟩ ⟨w', t⟩ →
    asserts i p w'

namespace Annotation

variable [DecidableEq ι] {S : System ι Call Resp W α}
  {ok : Option ι → Pool ι Call Resp W α → Pool ι Call Resp W α → Prop} (A : Annotation S ok)

/-- The invariant, and each thread's assertion where it is. -/
def Holds (s : Pool ι Call Resp W α) : Prop :=
  A.inv s.world ∧ ∀ i p, s.threads i = some p → A.asserts i p s.world

theorem holds_step {mover : Option ι} {s s' : Pool ι Call Resp W α} (h : A.Holds s)
    (hs : S.Step mover s s') (hok : ok mover s s') : A.Holds s' := by
  obtain ⟨hi, ha⟩ := h
  cases hs with
  | env he => exact ⟨A.inv_env hi he, fun i p hp => A.env hi (ha i p hp) he⟩
  | @start w t j hnone hready =>
    refine ⟨hi, fun i p hp => ?_⟩
    rcases eq_or_ne i j with rfl | hne
    · cases (Function.update_self i _ t).symm.trans hp
      exact A.start hi hready
    · exact ha i p ((Function.update_of_ne hne _ t).symm.trans hp)
  | @call w w' t j c k r hj he =>
    refine ⟨A.inv_exec hi (ha j _ hj) he, fun i p hp => ?_⟩
    rcases eq_or_ne i j with rfl | hne
    · cases (Function.update_self i _ t).symm.trans hp
      exact A.next hi hj (ha i _ hj) he hok
    · have hp' : t i = some p := (Function.update_of_ne hne _ t).symm.trans hp
      exact A.free hne hi hp' (ha i p hp') (ha j _ hj) he hok
  | @crash w w' t j c k hj he =>
    refine ⟨A.inv_crash hi (ha j _ hj) he, fun i p hp => ?_⟩
    exact A.crash hi hp (ha i p hp) (ha j _ hj) he hok
  | @abandon w t j _ =>
    refine ⟨hi, fun i p hp => ?_⟩
    rcases eq_or_ne i j with rfl | hne
    · cases (Function.update_self i _ t).symm.trans hp
    · exact ha i p ((Function.update_of_ne hne _ t).symm.trans hp)

theorem reachable {w₀ : W} {s : Pool ι Call Resp W α} (h₀ : A.inv w₀) (h : S.Run ok w₀ s) :
    A.Holds s := by
  induction h with
  | refl => exact ⟨h₀, fun i p hp => nomatch hp⟩
  | tail _ hs ih =>
    obtain ⟨mover, hstep, hok⟩ := hs
    exact A.holds_step ih hstep hok

end Annotation

/-! ## Systems with more detail -/

section View

variable {W' : Type} [DecidableEq ι]

def Pool.view (view : W' → W) (s : Pool ι Call Resp W' α) : Pool ι Call Resp W α :=
  ⟨view s.world, s.threads⟩

/-- Seen through `view`, the system `S'` does what `S` does. -/
structure System.View (S' : System ι Call Resp W' α) (S : System ι Call Resp W α)
    (view : W' → W) : Prop where
  main : S'.main = S.main
  ready : ∀ {i w}, S'.ready i w → S.ready i (view w)
  exec : ∀ {i c w r w'}, S'.exec i c w r w' → S.exec i c (view w) r (view w')
  crash : ∀ {i c w w'}, S'.crash i c w w' → S.crash i c (view w) (view w')
  env : ∀ {w w'}, S'.env w w' → S.env (view w) (view w')
  again : ∀ {i}, S'.again i → S.again i

variable {S' : System ι Call Resp W' α} {S : System ι Call Resp W α} {view : W' → W}

theorem System.View.step (hv : S'.View S view) {mover : Option ι}
    {s s' : Pool ι Call Resp W' α} (h : S'.Step mover s s') :
    S.Step mover (s.view view) (s'.view view) := by
  cases h with
  | env he => exact .env (hv.env he)
  | start hidle hready =>
    rw [hv.main]
    exact .start hidle (hv.ready hready)
  | call hp he => exact .call hp (hv.exec he)
  | crash hp he => exact .crash hp (hv.crash he)
  | abandon hagain => exact .abandon (hv.again hagain)

theorem System.View.run (hv : S'.View S view)
    {ok : Option ι → Pool ι Call Resp W α → Pool ι Call Resp W α → Prop} {w₀ : W'}
    {s : Pool ι Call Resp W' α}
    (h : S'.Run (fun mover s s' => ok mover (s.view view) (s'.view view)) w₀ s) :
    S.Run ok (view w₀) (s.view view) := by
  induction h with
  | refl => exact .refl
  | tail _ hs ih =>
    obtain ⟨mover, hstep, hok⟩ := hs
    exact ih.tail ⟨mover, hv.step hstep, hok⟩

end View

end Interaction
