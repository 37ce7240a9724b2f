import SelfNodeRemediation.Lib.Interaction
import Mathlib.Logic.Function.Basic

/-!
# Workers that share a world

A `Team` has any number of workers. Each has a program of its own, over calls of
its own, and runs it whenever the world is ready for it; the start and the end of a
run may change the world too. `Team.Step` is the interleaving, one call at a time.

* `Assertions` is a proof outline for the team: one invariant of the world, and for
  each worker the moves of the others it relies on, the calls it may make and what
  holds when it ends.
* `Assertions.Proved` are the obligations: a worker's own program is proved against
  its `Outline`, and whatever one worker or the environment does is a move that
  every other worker relies on.
* `Proved.reachable`: then the invariant holds in every reachable state, and every
  running program is still proved from where it is.

The obligations are only about the steps that satisfy `ok`, and so are the runs.
-/

namespace Interaction

variable {ι W : Type} {Call : ι → Type} {Resp : (i : ι) → Call i → Type} {Res : ι → Type}

/-- Workers with their programs, and what starts, calls and ends do to the world. -/
structure Team (Call : ι → Type) (Resp : (i : ι) → Call i → Type) (Res : ι → Type)
    (W : Type) where
  main : (i : ι) → Prog (Call i) (Resp i) (Res i)
  ready : ι → W → Prop
  start : ι → W → W
  exec : (i : ι) → (c : Call i) → W → Resp i c → W → Prop
  finish : (i : ι) → Res i → W → W
  env : W → W → Prop

/-- Who moves, and how. -/
inductive Act (Call : ι → Type)
  | env
  | start (i : ι)
  | call (i : ι) (c : Call i)
  | finish (i : ι)

/-- The world, and the rest of each running program. -/
structure TeamState (Call : ι → Type) (Resp : (i : ι) → Call i → Type) (Res : ι → Type)
    (W : Type) where
  world : W
  running : (i : ι) → Option (Prog (Call i) (Resp i) (Res i))

namespace Team

variable [DecidableEq ι] (T : Team Call Resp Res W)

inductive Step : Act Call → TeamState Call Resp Res W → TeamState Call Resp Res W → Prop
  | env {w w' : W} {ps : (i : ι) → Option (Prog (Call i) (Resp i) (Res i))} :
      T.env w w' → Step .env ⟨w, ps⟩ ⟨w', ps⟩
  | start {w : W} {ps : (i : ι) → Option (Prog (Call i) (Resp i) (Res i))} {i : ι} :
      ps i = none → T.ready i w →
      Step (.start i) ⟨w, ps⟩ ⟨T.start i w, Function.update ps i (some (T.main i))⟩
  | call {w w' : W} {ps : (i : ι) → Option (Prog (Call i) (Resp i) (Res i))} {i : ι}
      {c : Call i} {k : Resp i c → Prog (Call i) (Resp i) (Res i)} {r : Resp i c} :
      ps i = some (.call c k) → T.exec i c w r w' →
      Step (.call i c) ⟨w, ps⟩ ⟨w', Function.update ps i (some (k r))⟩
  | finish {w : W} {ps : (i : ι) → Option (Prog (Call i) (Resp i) (Res i))} {i : ι}
      {a : Res i} : ps i = some (.ret a) →
      Step (.finish i) ⟨w, ps⟩ ⟨T.finish i a w, Function.update ps i none⟩

/-- The states of the runs that start with all workers idle in the world `w₀` and
whose steps all satisfy `ok`. -/
def Reachable (ok : Act Call → W → W → Prop) (w₀ : W) (s : TeamState Call Resp Res W) : Prop :=
  Relation.ReflTransGen (fun s s' => ∃ a, T.Step a s s' ∧ ok a s.world s'.world)
    ⟨w₀, fun _ => none⟩ s

/-! ## Runs of one worker alone

`P` is what holds of the worlds on the way. -/

section Alone

variable {T} {ok : Act Call → W → W → Prop} {P : W → Prop} {w₀ w : W}
  {ps : (i : ι) → Option (Prog (Call i) (Resp i) (Res i))} {i : ι}
  {serve : (c : Call i) → W → Resp i c × W}

/-- The call of a worker as `serve` answers it, in a world of `P`. -/
structure Served (T : Team Call Resp Res W) (ok : Act Call → W → W → Prop) (P : W → Prop) (i : ι)
    (serve : (c : Call i) → W → Resp i c × W) : Prop where
  exec : ∀ c w, P w → T.exec i c w (serve c w).1 (serve c w).2
  ok : ∀ c w, P w → ok (.call i c) w (serve c w).2
  keeps : ∀ c w, P w → P (serve c w).2

theorem Reachable.start (h : T.Reachable ok w₀ ⟨w, ps⟩) (hidle : ps i = none)
    (hready : T.ready i w) (hok : ok (.start i) w (T.start i w)) :
    T.Reachable ok w₀ ⟨T.start i w, Function.update ps i (some (T.main i))⟩ :=
  h.tail ⟨_, .start hidle hready, hok⟩

/-- A running worker makes its next calls. -/
theorem Reachable.after (hs : Served T ok P i serve) (n : Nat)
    {p : Prog (Call i) (Resp i) (Res i)} (hP : P w)
    (h : T.Reachable ok w₀ ⟨w, Function.update ps i (some p)⟩) :
    P (p.after serve n w).2 ∧ T.Reachable ok w₀
      ⟨(p.after serve n w).2, Function.update ps i (some (p.after serve n w).1)⟩ := by
  induction n generalizing p w with
  | zero => exact ⟨hP, h⟩
  | succ n ih =>
    cases p with
    | ret a => exact ⟨hP, h⟩
    | call c k =>
      refine ih (hs.keeps c w hP) ?_
      have hstep := h.tail ⟨_, .call (Function.update_self i _ ps) (hs.exec c w hP), hs.ok c w hP⟩
      rwa [Function.update_idem] at hstep

/-- A running worker runs to its end. -/
theorem Reachable.finish (hs : Served T ok P i serve) (hidle : ps i = none)
    (hok : ∀ a w, P w → ok (.finish i) w (T.finish i a w))
    {p : Prog (Call i) (Resp i) (Res i)} (hP : P w)
    (h : T.Reachable ok w₀ ⟨w, Function.update ps i (some p)⟩) :
    T.Reachable ok w₀ ⟨T.finish i (p.eval serve w).1 (p.eval serve w).2, ps⟩ := by
  induction p generalizing w with
  | ret a =>
    have hstep := h.tail ⟨_, .finish (Function.update_self i _ ps), hok a w hP⟩
    rw [Function.update_idem, ← hidle, Function.update_eq_self] at hstep
    exact hstep
  | call c k ih =>
    refine ih _ (hs.keeps c w hP) ?_
    have hstep := h.tail ⟨_, .call (Function.update_self i _ ps) (hs.exec c w hP), hs.ok c w hP⟩
    rwa [Function.update_idem] at hstep

/-- An idle worker starts and runs to its end through worlds that satisfy `check`. -/
theorem Reachable.pass (check : W → Bool)
    (hexec : ∀ c w, T.exec i c w (serve c w).1 (serve c w).2)
    (hcall : ∀ c w, check w = true → ok (.call i c) w (serve c w).2)
    (hfinish : ∀ a w, ok (.finish i) w (T.finish i a w)) (hidle : ps i = none)
    (hready : T.ready i w) (hstart : ok (.start i) w (T.start i w))
    (hw : check (T.start i w) = true) (hp : (T.main i).passes serve check (T.start i w) = true)
    (h : T.Reachable ok w₀ ⟨w, ps⟩) :
    T.Reachable ok w₀ ⟨T.finish i ((T.main i).eval serve (T.start i w)).1
      ((T.main i).eval serve (T.start i w)).2, ps⟩ := by
  have hrun : ∀ (p : Prog (Call i) (Resp i) (Res i)) (w : W), check w = true →
      p.passes serve check w = true → T.Reachable ok w₀ ⟨w, Function.update ps i (some p)⟩ →
      T.Reachable ok w₀ ⟨T.finish i (p.eval serve w).1 (p.eval serve w).2, ps⟩ := by
    intro p
    induction p with
    | ret a =>
      intro w _ _ h
      have hstep := h.tail ⟨_, .finish (Function.update_self i _ ps), hfinish a w⟩
      rw [Function.update_idem, ← hidle, Function.update_eq_self] at hstep
      exact hstep
    | call c k ih =>
      intro w hw hp h
      obtain ⟨hnext, hk⟩ := Bool.and_eq_true_iff.mp hp
      refine ih _ _ hnext hk ?_
      have hstep := h.tail ⟨_, .call (Function.update_self i _ ps) (hexec c w), hcall c w hw⟩
      rwa [Function.update_idem] at hstep
  exact hrun _ _ hw hp (h.start hidle hready hstart)

/-- A running worker makes a run of its program. -/
theorem Reachable.runs (hok : ∀ a w w', ok a w w') (hidle : ps i = none)
    {p : Prog (Call i) (Resp i) (Res i)} {w' : W} {a : Res i} (hr : p.Runs (T.exec i) w a w')
    (h : T.Reachable ok w₀ ⟨w, Function.update ps i (some p)⟩) :
    T.Reachable ok w₀ ⟨T.finish i a w', ps⟩ := by
  induction hr with
  | ret =>
    have hstep := h.tail ⟨_, .finish (Function.update_self i _ ps), hok _ _ _⟩
    rw [Function.update_idem, ← hidle, Function.update_eq_self] at hstep
    exact hstep
  | call he _ ih =>
    refine ih ?_
    have hstep := h.tail ⟨_, .call (Function.update_self i _ ps) he, hok _ _ _⟩
    rwa [Function.update_idem] at hstep

/-- An idle worker starts and runs to its end. -/
theorem Reachable.run (hs : Served T ok P i serve) (hidle : ps i = none)
    (hok : ∀ a w, P w → ok (.finish i) w (T.finish i a w)) (hready : T.ready i w)
    (hstart : ok (.start i) w (T.start i w)) (hP : P (T.start i w))
    (h : T.Reachable ok w₀ ⟨w, ps⟩) :
    T.Reachable ok w₀ ⟨T.finish i ((T.main i).eval serve (T.start i w)).1
      ((T.main i).eval serve (T.start i w)).2, ps⟩ :=
  (h.start hidle hready hstart).finish hs hidle hok hP

end Alone

end Team

/-! ## Proof outlines for teams -/

/-- What the workers of a team rely on and guarantee. -/
structure Assertions (Call : ι → Type) (Res : ι → Type) (W : Type) where
  inv : W → Prop
  rely : ι → W → W → Prop
  allowed : (i : ι) → Call i → W → Prop
  post : (i : ι) → Res i → W → Prop

namespace Assertions

variable (A : Assertions Call Res W) (T : Team Call Resp Res W) (ok : Act Call → W → W → Prop)

/-- The proof outline of one worker. -/
def outline (i : ι) : Outline (Call i) (Resp i) W where
  exec c w r w' := T.exec i c w r w' ∧ ok (.call i c) w w' ∧ A.inv w'
  env w w' := A.rely i w w' ∧ A.inv w'
  inv := A.inv
  allowed := A.allowed i
  inv_env _ he := he.2
  inv_exec _ _ he := he.2.2

/-- What has to be proved of each move. -/
structure Proved : Prop where
  env : ∀ {w w'}, A.inv w → T.env w w' → ok .env w w' → A.inv w' ∧ ∀ i, A.rely i w w'
  start : ∀ {i w}, A.inv w → T.ready i w → A.inv (T.start i w) ∧
    (A.outline T ok i).wp (T.main i) (A.post i) (T.start i w) ∧
    ∀ j, j ≠ i → A.rely j w (T.start i w)
  call : ∀ {i c w r w'}, A.inv w → A.allowed i c w → T.exec i c w r w' → ok (.call i c) w w' →
    A.inv w' ∧ ∀ j, j ≠ i → A.rely j w w'
  finish : ∀ {i a w}, A.inv w → A.post i a w →
    A.inv (T.finish i a w) ∧ ∀ j, j ≠ i → A.rely j w (T.finish i a w)

/-- The invariant holds, and the rest of each running program is still proved. -/
def StateInv (s : TeamState Call Resp Res W) : Prop :=
  A.inv s.world ∧ ∀ i p, s.running i = some p → (A.outline T ok i).wp p (A.post i) s.world

variable {A T ok} [DecidableEq ι]

/-- The other workers go on after a move of worker `i`. -/
theorem running_update {w w' : W} {ps : (i : ι) → Option (Prog (Call i) (Resp i) (Res i))}
    {i : ι} {new : Option (Prog (Call i) (Resp i) (Res i))} (hi : A.inv w')
    (hps : ∀ j p, ps j = some p → (A.outline T ok j).wp p (A.post j) w)
    (hrely : ∀ j, j ≠ i → A.rely j w w')
    (hnew : ∀ p, new = some p → (A.outline T ok i).wp p (A.post i) w') :
    ∀ j p, Function.update ps i new j = some p → (A.outline T ok j).wp p (A.post j) w' := by
  intro j p hp
  by_cases hj : j = i
  · subst hj
    rw [Function.update_self] at hp
    exact hnew p hp
  · rw [Function.update_of_ne hj] at hp
    exact Outline.wp_later (.single ⟨hrely j hj, hi⟩) (hps j p hp)

theorem Proved.step (hA : A.Proved T ok) {a : Act Call} {s s' : TeamState Call Resp Res W}
    (h : A.StateInv T ok s) (hs : T.Step a s s') (hok : ok a s.world s'.world) :
    A.StateInv T ok s' := by
  obtain ⟨hi, hps⟩ := h
  cases hs with
  | env he =>
    obtain ⟨hi', hrely⟩ := hA.env hi he hok
    exact ⟨hi', fun j p hp => Outline.wp_later (.single ⟨hrely j, hi'⟩) (hps j p hp)⟩
  | start hidle hready =>
    obtain ⟨hi', hmain, hrely⟩ := hA.start hi hready
    refine ⟨hi', running_update hi' hps hrely ?_⟩
    intro p hp
    cases hp
    exact hmain
  | call hp he =>
    obtain ⟨hallowed, hk⟩ := hps _ _ hp _ .refl hi
    obtain ⟨hi', hrely⟩ := hA.call hi hallowed he hok
    refine ⟨hi', running_update hi' hps hrely ?_⟩
    intro p hp
    cases hp
    exact hk _ _ ⟨he, hok, hi'⟩
  | finish hp =>
    obtain ⟨hi', hrely⟩ := hA.finish hi (hps _ _ hp _ .refl hi)
    exact ⟨hi', running_update hi' hps hrely fun p hp => nomatch hp⟩

/-- In every reachable state the invariant holds and every running program is still
proved. -/
theorem Proved.reachable (hA : A.Proved T ok) {w₀ : W} (h₀ : A.inv w₀)
    {s : TeamState Call Resp Res W} (h : T.Reachable ok w₀ s) : A.StateInv T ok s := by
  induction h with
  | refl => exact ⟨h₀, fun i p hp => nomatch hp⟩
  | tail _ hs ih =>
    obtain ⟨a, hs, hok⟩ := hs
    exact hA.step ih hs hok

end Assertions

end Interaction
