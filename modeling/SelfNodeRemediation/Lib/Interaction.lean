import Mathlib.Logic.Relation

/-!
# Programs that call a shared world

A `Prog` is a program whose only effects are calls with an answer. The calls
act on a world that other parties change between any two of them.

* `Prog.eval` runs a program alone against a world that answers by a function.
* `Prog.embed`: a program over some of the calls of a larger one.
* `Step` is the interleaving: a worker runs its main program again and again,
  one call at a time, the environment moves in between, and the worker may
  crash before any call.
* `Outline` is a proof outline: an invariant of the world, and for each call
  what must hold when it is made. `Outline.wp` is the assertion before a
  program from which every call is allowed and every normal end satisfies the
  postcondition, whatever the environment does on the way.
* `Outline.pull`: the outline of a program that is embedded in a larger one.
* `Outline.View`: a world with more in it than the outline is about.
* `Outline.Relies`: an outline whose proof uses that another one holds.
* `Outline.reachable_inv`, `Outline.reachable_allowed`, `Outline.reachable_ret`:
  if the main program is proved against the outline, the invariant holds in
  every reachable state, every call made is allowed, and every normal end
  satisfies the postcondition.
-/

namespace Interaction

universe u

/-- A program over the calls `Call`, where the call `c` is answered by a
`Resp c`. -/
inductive Prog (Call : Type) (Resp : Call → Type) (α : Type) : Type
  | ret (a : α)
  | call (c : Call) (k : Resp c → Prog Call Resp α)

namespace Prog

variable {Call : Type} {Resp : Call → Type} {W α β γ : Type}

def bind : Prog Call Resp α → (α → Prog Call Resp β) → Prog Call Resp β
  | .ret a, f => f a
  | .call c k, f => .call c fun r => (k r).bind f

instance : Monad (Prog Call Resp) where
  pure := .ret
  bind := bind

/-- Make one call and return its answer. -/
def perform (c : Call) : Prog Call Resp (Resp c) := .call c .ret

theorem bind_assoc (p : Prog Call Resp α) (f : α → Prog Call Resp β)
    (g : β → Prog Call Resp γ) : p >>= f >>= g = p >>= fun a => f a >>= g := by
  induction p with
  | ret a => rfl
  | call c k ih => exact congrArg (Prog.call c) (funext ih)

theorem bind_ret (p : Prog Call Resp α) : p >>= Prog.ret = p := by
  induction p with
  | ret a => rfl
  | call c k ih => exact congrArg (Prog.call c) (funext ih)

/-- Run a program alone: every call is answered by `serve`. -/
def eval (serve : (c : Call) → W → Resp c × W) : Prog Call Resp α → W → α × W
  | .ret a, w => (a, w)
  | .call c k, w => (k (serve c w).1).eval serve (serve c w).2

variable {serve : (c : Call) → W → Resp c × W}

@[simp] theorem eval_call (c : Call) (k : Resp c → Prog Call Resp α) (w : W) :
    (Prog.call c k).eval serve w = (k (serve c w).1).eval serve (serve c w).2 := rfl

theorem eval_bind (p : Prog Call Resp α) (f : α → Prog Call Resp β) (w : W) :
    (p >>= f).eval serve w = (f (p.eval serve w).1).eval serve (p.eval serve w).2 := by
  induction p generalizing w with
  | ret a => rfl
  | call c k ih => exact ih (serve c w).1 (serve c w).2

/-- Run alone, every world on the way satisfies `ok`. -/
def passes (serve : (c : Call) → W → Resp c × W) (ok : W → Bool) : Prog Call Resp α → W → Bool
  | .ret _, _ => true
  | .call c k, w => ok (serve c w).2 && (k (serve c w).1).passes serve ok (serve c w).2

theorem passes_true (p : Prog Call Resp α) (w : W) : p.passes serve (fun _ => true) w = true := by
  induction p generalizing w with
  | ret a => rfl
  | call c k ih => exact Bool.and_eq_true_iff.mpr ⟨rfl, ih _ _⟩

/-- Run alone through worlds that satisfy `ok`, the first call of the kind
`stop` and the world it is made in. -/
def upTo (serve : (c : Call) → W → Resp c × W) (ok : W → Bool) (stop : Call → Bool) :
    Prog Call Resp α → W → Option (Call × W)
  | .ret _, _ => none
  | .call c k, w =>
    if stop c then some (c, w)
    else if ok (serve c w).2 then (k (serve c w).1).upTo serve ok stop (serve c w).2
    else none

/-- Run alone for at most `n` calls: the rest of the program, and the world. -/
def after (serve : (c : Call) → W → Resp c × W) : Nat → Prog Call Resp α → W → Prog Call Resp α × W
  | 0, p, w => (p, w)
  | _ + 1, .ret a, w => (.ret a, w)
  | n + 1, .call c k, w => (k (serve c w).1).after serve n (serve c w).2

/-- Every call that the program can make is in `A`. -/
def Only (A : Call → Prop) : Prog Call Resp α → Prop
  | .ret _ => True
  | .call c k => A c ∧ ∀ r, (k r).Only A

theorem Only.bind {A : Call → Prop} {p : Prog Call Resp α} {f : α → Prog Call Resp β}
    (hp : p.Only A) (hf : ∀ a, (f a).Only A) : (p >>= f).Only A := by
  induction p with
  | ret a => exact hf a
  | call c k ih => exact ⟨hp.1, fun r => ih r (hp.2 r)⟩

/-- An undisturbed run of the program whose calls are answered by `exec`. -/
inductive Runs (exec : (c : Call) → W → Resp c → W → Prop) : Prog Call Resp α → W → α → W → Prop
  | ret {a : α} {w : W} : Runs exec (.ret a) w a w
  | call {c : Call} {k : Resp c → Prog Call Resp α} {r : Resp c} {w w' w'' : W} {a : α} :
      exec c w r w' → Runs exec (k r) w' a w'' → Runs exec (.call c k) w a w''

theorem Runs.ret_inv {exec : (c : Call) → W → Resp c → W → Prop} {a b : α} {w w' : W}
    (h : Runs exec (.ret a) w b w') : b = a ∧ w' = w := by
  cases h
  exact ⟨rfl, rfl⟩

theorem Runs.call_inv {exec : (c : Call) → W → Resp c → W → Prop} {c : Call}
    {k : Resp c → Prog Call Resp α} {a : α} {w w'' : W} (h : Runs exec (.call c k) w a w'') :
    ∃ r w', exec c w r w' ∧ Runs exec (k r) w' a w'' := by
  cases h with
  | call he h => exact ⟨_, _, he, h⟩

/-! ### Programs over some of the calls -/

section Embed

variable {Call' : Type} {Resp' : Call' → Type} {inj : Call → Call'}

/-- The program with its calls among those of a larger program. -/
def embed (inj : Call → Call') : Prog Call (fun c => Resp' (inj c)) α → Prog Call' Resp' α
  | .ret a => .ret a
  | .call c k => .call (inj c) fun r => (k r).embed inj

theorem Only.embed {A : Call' → Prop} {p : Prog Call (fun c => Resp' (inj c)) α}
    (hp : p.Only fun c => A (inj c)) : (p.embed inj).Only A := by
  induction p with
  | ret a => trivial
  | call c k ih => exact ⟨hp.1, fun r => ih r (hp.2 r)⟩

end Embed

end Prog

/-! ## Interleaved runs -/

section Runs

variable {Call : Type} {Resp : Call → Type} {W α : Type}

/-- The world, and the rest of the program the worker is running, if any. -/
structure State (Call : Type) (Resp : Call → Type) (W α : Type) where
  world : W
  running : Option (Prog Call Resp α)

/-- One step of a worker that runs `main` over and over, and of its
environment. -/
inductive Step (exec : (c : Call) → W → Resp c → W → Prop) (env : W → W → Prop)
    (main : Prog Call Resp α) : State Call Resp W α → State Call Resp W α → Prop
  | env {w w' : W} {p : Option (Prog Call Resp α)} :
      env w w' → Step exec env main ⟨w, p⟩ ⟨w', p⟩
  | start {w : W} : Step exec env main ⟨w, none⟩ ⟨w, some main⟩
  | call {w w' : W} {c : Call} {k : Resp c → Prog Call Resp α} {r : Resp c} :
      exec c w r w' → Step exec env main ⟨w, some (.call c k)⟩ ⟨w', some (k r)⟩
  | finish {w : W} {a : α} : Step exec env main ⟨w, some (.ret a)⟩ ⟨w, none⟩
  | crash {w : W} {p : Prog Call Resp α} : Step exec env main ⟨w, some p⟩ ⟨w, none⟩

/-- The states of the runs that start idle in the world `w₀`. -/
def Reachable (exec : (c : Call) → W → Resp c → W → Prop) (env : W → W → Prop)
    (main : Prog Call Resp α) (w₀ : W) (s : State Call Resp W α) : Prop :=
  Relation.ReflTransGen (Step exec env main) ⟨w₀, none⟩ s

/-- The runs among fewer environment moves are runs among more of them. -/
theorem Reachable.mono {exec : (c : Call) → W → Resp c → W → Prop} {env env' : W → W → Prop}
    {main : Prog Call Resp α} {w₀ : W} {s : State Call Resp W α}
    (henv : ∀ w w', env w w' → env' w w') (h : Reachable exec env main w₀ s) :
    Reachable exec env' main w₀ s := by
  induction h with
  | refl => exact .refl
  | tail _ hs ih =>
    refine ih.tail ?_
    cases hs with
    | env he => exact .env (henv _ _ he)
    | start => exact .start
    | call he => exact .call he
    | finish => exact .finish
    | crash => exact .crash

/-- The runs in which calls do less are runs in which they do more. -/
theorem Reachable.weaken {exec exec' : (c : Call) → W → Resp c → W → Prop} {env : W → W → Prop}
    {main : Prog Call Resp α} {w₀ : W} {s : State Call Resp W α}
    (hexec : ∀ c w r w', exec c w r w' → exec' c w r w') (h : Reachable exec env main w₀ s) :
    Reachable exec' env main w₀ s := by
  induction h with
  | refl => exact .refl
  | tail _ hs ih =>
    refine ih.tail ?_
    cases hs with
    | env he => exact .env he
    | start => exact .start
    | call he => exact .call (hexec _ _ _ _ he)
    | finish => exact .finish
    | crash => exact .crash

/-- A run of the program without moves of the others. -/
theorem Reachable.runs {exec : (c : Call) → W → Resp c → W → Prop} {env : W → W → Prop}
    {main p : Prog Call Resp α} {w₀ w w' : W} {a : α} (hr : p.Runs exec w a w')
    (h : Reachable exec env main w₀ ⟨w, some p⟩) :
    Reachable exec env main w₀ ⟨w', some (.ret a)⟩ := by
  induction hr with
  | ret => exact h
  | call he _ ih => exact ih (h.tail (.call he))

/-! A program that runs alone is one of the interleavings, if the worlds on the
way are worlds of the system. -/

section Alone

variable {exec : (c : Call) → W → Resp c → W → Prop} {env : W → W → Prop}
  {main : Prog Call Resp α} {serve : (c : Call) → W → Resp c × W} (ok : W → Bool) {w₀ w : W}

theorem reachable_alone
    (hserve : ∀ c w, ok (serve c w).2 = true → exec c w (serve c w).1 (serve c w).2)
    (hp : main.passes serve ok w = true) (h : Reachable exec env main w₀ ⟨w, none⟩) :
    Reachable exec env main w₀ ⟨(main.eval serve w).2, none⟩ := by
  have hrun : ∀ (p : Prog Call Resp α) (w : W), p.passes serve ok w = true →
      Reachable exec env main w₀ ⟨w, some p⟩ →
      Reachable exec env main w₀ ⟨(p.eval serve w).2, none⟩ := by
    intro p
    induction p with
    | ret a => exact fun w _ h => h.tail .finish
    | call c k ih =>
      intro w hp h
      obtain ⟨hok, hk⟩ := Bool.and_eq_true_iff.mp hp
      exact ih _ _ hk (h.tail (.call (hserve c w hok)))
  exact hrun main w hp (h.tail .start)

/-- The rest of a program runs alone up to a call of the kind `stop`. -/
theorem Reachable.upTo (stop : Call → Bool) (check : Call × W → Bool)
    (hserve : ∀ c w, ok (serve c w).2 = true → exec c w (serve c w).1 (serve c w).2)
    {p : Prog Call Resp α} (hp : (p.upTo serve ok stop w).any check = true)
    (h : Reachable exec env main w₀ ⟨w, some p⟩) :
    ∃ c k w', stop c = true ∧ check (c, w') = true ∧
      Reachable exec env main w₀ ⟨w', some (.call c k)⟩ := by
  induction p generalizing w with
  | ret a => exact nomatch hp
  | call c k ih =>
    unfold Prog.upTo at hp
    split at hp
    · next hstop => exact ⟨c, k, w, hstop, hp, h⟩
    · split at hp
      · next hok => exact ih _ hp (h.tail (.call (hserve c w hok)))
      · cases hp

theorem reachable_upTo (stop : Call → Bool) (check : Call × W → Bool)
    (hserve : ∀ c w, ok (serve c w).2 = true → exec c w (serve c w).1 (serve c w).2)
    (hp : (main.upTo serve ok stop w).any check = true)
    (h : Reachable exec env main w₀ ⟨w, none⟩) :
    ∃ c k w', stop c = true ∧ check (c, w') = true ∧
      Reachable exec env main w₀ ⟨w', some (.call c k)⟩ :=
  Reachable.upTo ok stop check hserve hp (h.tail .start)

end Alone

end Runs

/-! ## Proof outlines -/

/-- A proof outline for the calls `exec` among the environment moves `env`. -/
structure Outline (Call : Type) (Resp : Call → Type) (W : Type) where
  exec : (c : Call) → W → Resp c → W → Prop
  env : W → W → Prop
  inv : W → Prop
  allowed : Call → W → Prop
  inv_env : ∀ {w w'}, inv w → env w w' → inv w'
  inv_exec : ∀ {c w r w'}, inv w → allowed c w → exec c w r w' → inv w'

namespace Outline

variable {Call : Type} {Resp : Call → Type} {W α β : Type} (O : Outline Call Resp W)

/-- What the environment can do between two calls. -/
def Later : W → W → Prop := Relation.ReflTransGen O.env

/-- An assertion no environment move breaks. -/
def Stable (P : W → Prop) : Prop := ∀ w w', P w → O.env w w' → P w'

/-- From `w`, whatever the environment does, every call of the program is
allowed when it is made and every normal end satisfies `Q`. -/
def wp : Prog Call Resp α → (α → W → Prop) → W → Prop
  | .ret a, Q, w => ∀ w', O.Later w w' → O.inv w' → Q a w'
  | .call c k, Q, w => ∀ w', O.Later w w' → O.inv w' →
      O.allowed c w' ∧ ∀ r w'', O.exec c w' r w'' → wp (k r) Q w''

variable {O} {Q Q' : α → W → Prop} {w w' : W}

theorem Stable.later {P : W → Prop} (hP : O.Stable P) (hl : O.Later w w') (h : P w) : P w' := by
  induction hl with
  | refl => exact h
  | tail _ he ih => exact hP _ _ ih he

theorem Stable.and {P R : W → Prop} (hP : O.Stable P) (hR : O.Stable R) :
    O.Stable fun w => P w ∧ R w :=
  fun w w' h he => ⟨hP w w' h.1 he, hR w w' h.2 he⟩

theorem stable_forall {ι : Sort u} {P : ι → W → Prop} (h : ∀ i, O.Stable (P i)) :
    O.Stable fun w => ∀ i, P i w :=
  fun w w' hw he i => h i w w' (hw i) he

theorem stable_const {p : Prop} : O.Stable fun _ => p := fun _ _ h _ => h

theorem wp_later {p : Prog Call Resp α} (hl : O.Later w w') (h : O.wp p Q w) : O.wp p Q w' := by
  cases p with
  | ret a => exact fun w'' hl' hi => h w'' (hl.trans hl') hi
  | call c k => exact fun w'' hl' hi => h w'' (hl.trans hl') hi

/-- The environment may move before the first call. -/
theorem wp_of_later {p : Prog Call Resp α}
    (h : ∀ w', O.Later w w' → O.inv w' → O.wp p Q w') : O.wp p Q w := by
  cases p with
  | ret a => exact fun w' hl hi => h w' hl hi w' .refl hi
  | call c k => exact fun w' hl hi => h w' hl hi w' .refl hi

theorem wp_mono {p : Prog Call Resp α} (h : O.wp p Q w)
    (hQ : ∀ a w, O.inv w → Q a w → Q' a w) : O.wp p Q' w := by
  induction p generalizing w with
  | ret a => exact fun w' hl hi => hQ a w' hi (h w' hl hi)
  | call c k ih =>
    intro w' hl hi
    obtain ⟨ha, hk⟩ := h w' hl hi
    exact ⟨ha, fun r w'' he => ih r (hk r w'' he)⟩

theorem wp_bind {p : Prog Call Resp α} {f : α → Prog Call Resp β} {R : β → W → Prop}
    (h : O.wp p (fun a w => O.wp (f a) R w) w) : O.wp (p >>= f) R w := by
  induction p generalizing w with
  | ret a => exact wp_of_later h
  | call c k ih =>
    intro w' hl hi
    obtain ⟨ha, hk⟩ := h w' hl hi
    exact ⟨ha, fun r w'' he => ih r (hk r w'' he)⟩

/-- The rule for a call made under a stable assertion. -/
theorem wp_call {c : Call} {k : Resp c → Prog Call Resp α} {P : W → Prop} (hP : O.Stable P)
    (hw : P w) (ha : ∀ w, O.inv w → P w → O.allowed c w)
    (hk : ∀ w r w', O.inv w → P w → O.exec c w r w' → O.inv w' → O.wp (k r) Q w') :
    O.wp (.call c k) Q w := by
  intro w' hl hi
  have hp := hP.later hl hw
  have hal := ha w' hi hp
  exact ⟨hal, fun r w'' he => hk w' r w'' hi hp he (O.inv_exec hi hal he)⟩

/-- The rule for a normal end under a stable assertion. -/
theorem wp_ret {a : α} {P : W → Prop} (hP : O.Stable P) (hw : P w)
    (h : ∀ w, O.inv w → P w → Q a w) : O.wp (.ret a) Q w :=
  fun w' hl hi => h w' hi (hP.later hl hw)

/-- A program whose calls are all allowed under a stable assertion, and keep it. -/
theorem wp_only {A : Call → Prop} {P : W → Prop} {p : Prog Call Resp α} (hP : O.Stable P)
    (ha : ∀ c w, A c → O.inv w → P w → O.allowed c w)
    (hk : ∀ c w r w', A c → P w → O.exec c w r w' → P w') (hp : p.Only A) (hw : P w) :
    O.wp p (fun _ w => P w) w := by
  induction p generalizing w with
  | ret a => exact wp_ret hP hw fun _ _ h => h
  | call c k ih =>
    refine wp_call hP hw (fun w hi hw => ha c w hp.1 hi hw) ?_
    exact fun w r w' _ hw he _ => ih r (hp.2 r) (hk c w r w' hp.1 hw he)

/-! ## Views -/

section Views

variable {W' : Type}

/-- The world of `O'`, seen through `view`, is the world of `O`. -/
structure View (view : W' → W) (O : Outline Call Resp W) (O' : Outline Call Resp W') : Prop where
  exec : ∀ {c w r w'}, O'.exec c w r w' → O.exec c (view w) r (view w')
  env : ∀ {w w'}, O'.env w w' → O.env (view w) (view w')
  inv : ∀ {w}, O'.inv w → O.inv (view w)
  allowed : ∀ {c w}, O'.inv w → O.allowed c (view w) → O'.allowed c w

theorem View.later {view : W' → W} {O' : Outline Call Resp W'} (hv : View view O O')
    {w w' : W'} (h : O'.Later w w') : O.Later (view w) (view w') := by
  induction h with
  | refl => exact .refl
  | tail _ he ih => exact ih.tail (hv.env he)

/-- What is proved against the outline of the view. -/
theorem View.wp {view : W' → W} {O' : Outline Call Resp W'} (hv : View view O O')
    {p : Prog Call Resp α} {w : W'} (h : O.wp p Q (view w)) :
    O'.wp p (fun a w => Q a (view w)) w := by
  induction p generalizing w with
  | ret a => exact fun w' hl hi => h (view w') (hv.later hl) (hv.inv hi)
  | call c k ih =>
    intro w' hl hi
    obtain ⟨ha, hk⟩ := h (view w') (hv.later hl) (hv.inv hi)
    exact ⟨hv.allowed hi ha, fun r w'' he => ih r (hk r (view w'') (hv.exec he))⟩

end Views

/-! ## Programs over some of the calls -/

section Embed

variable {Call' : Type} {Resp' : Call' → Type} {inj : Call → Call'}

/-- The outline, for a program over some of the calls. -/
def pull (O : Outline Call' Resp' W) (inj : Call → Call') :
    Outline Call (fun c => Resp' (inj c)) W where
  exec c := O.exec (inj c)
  env := O.env
  inv := O.inv
  allowed c := O.allowed (inj c)
  inv_env := O.inv_env
  inv_exec := O.inv_exec

theorem wp_embed {O : Outline Call' Resp' W} {p : Prog Call (fun c => Resp' (inj c)) α}
    (h : (O.pull inj).wp p Q w) : O.wp (p.embed inj) Q w := by
  induction p generalizing w with
  | ret a => exact h
  | call c k ih =>
    intro w' hl hi
    obtain ⟨ha, hk⟩ := h w' hl hi
    exact ⟨ha, fun r w'' he => ih r (hk r w'' he)⟩

end Embed

/-! ## What an outline gives for whole runs -/

variable {main : Prog Call Resp α} {w₀ : W} {s : State Call Resp W α}

/-- The state invariant of a run: the world satisfies `inv`, and the rest of
the running program is still proved against the outline. -/
def StateInv (O : Outline Call Resp W) (Q : α → W → Prop) (s : State Call Resp W α) : Prop :=
  O.inv s.world ∧ ∀ p, s.running = some p → O.wp p Q s.world

theorem stateInv_step (hmain : ∀ w, O.inv w → O.wp main Q w)
    {s s' : State Call Resp W α} (h : O.StateInv Q s) (hs : Step O.exec O.env main s s') :
    O.StateInv Q s' := by
  obtain ⟨hi, hp⟩ := h
  cases hs with
  | env he =>
    exact ⟨O.inv_env hi he, fun p hr => wp_later (.single he) (hp p hr)⟩
  | start =>
    refine ⟨hi, fun p hr => ?_⟩
    cases hr
    exact hmain _ hi
  | call he =>
    obtain ⟨ha, hk⟩ := hp _ rfl _ .refl hi
    refine ⟨O.inv_exec hi ha he, fun p hr => ?_⟩
    cases hr
    exact hk _ _ he
  | finish => exact ⟨hi, fun p hr => nomatch hr⟩
  | crash => exact ⟨hi, fun p hr => nomatch hr⟩

theorem stateInv_reachable (hmain : ∀ w, O.inv w → O.wp main Q w)
    (h₀ : O.inv w₀) (h : Reachable O.exec O.env main w₀ s) : O.StateInv Q s := by
  induction h with
  | refl => exact ⟨h₀, fun p hr => nomatch hr⟩
  | tail _ hs ih => exact stateInv_step hmain ih hs

/-- The outline `O'` may rely on `O`: its calls and its environment moves are those
of the runs, between worlds of the invariant of `O` and as `O` allows them. -/
structure Relies (exec : (c : Call) → W → Resp c → W → Prop) (env : W → W → Prop)
    (O O' : Outline Call Resp W) : Prop where
  call : ∀ {c w r w'}, exec c w r w' → O.exec c w r w'
  move : ∀ {w w'}, env w w' → O.env w w'
  relies_call : ∀ {c w r w'}, O.inv w → O.allowed c w → O.inv w' → exec c w r w' →
    O'.exec c w r w'
  relies_move : ∀ {w w'}, O.inv w → O.inv w' → env w w' → O'.env w w'

/-- Both outlines hold over the runs. -/
theorem stateInv_relies {O' : Outline Call Resp W}
    {exec : (c : Call) → W → Resp c → W → Prop} {env : W → W → Prop}
    (hr : Relies exec env O O') (hmain : ∀ w, O.inv w → O.wp main Q w)
    (hmain' : ∀ w, O.inv w → O'.inv w → O'.wp main Q' w) (h₀ : O.inv w₀) (h₀' : O'.inv w₀)
    (h : Reachable exec env main w₀ s) : O.StateInv Q s ∧ O'.StateInv Q' s := by
  induction h with
  | refl => exact ⟨⟨h₀, fun p hr => nomatch hr⟩, h₀', fun p hr => nomatch hr⟩
  | tail _ hs ih =>
    obtain ⟨⟨hi, hp⟩, hi', hp'⟩ := ih
    cases hs with
    | env he =>
      have hj := O.inv_env hi (hr.move he)
      have he' := hr.relies_move hi hj he
      exact ⟨⟨hj, fun p hr' => wp_later (.single (hr.move he)) (hp p hr')⟩, O'.inv_env hi' he',
        fun p hr' => wp_later (.single he') (hp' p hr')⟩
    | start =>
      refine ⟨⟨hi, fun p hr => ?_⟩, hi', fun p hr => ?_⟩
      · cases hr
        exact hmain _ hi
      · cases hr
        exact hmain' _ hi hi'
    | call he =>
      obtain ⟨ha, hk⟩ := hp _ rfl _ .refl hi
      obtain ⟨ha', hk'⟩ := hp' _ rfl _ .refl hi'
      have hj := O.inv_exec hi ha (hr.call he)
      have he' := hr.relies_call hi ha hj he
      refine ⟨⟨hj, fun p hr' => ?_⟩, O'.inv_exec hi' ha' he', fun p hr' => ?_⟩
      · cases hr'
        exact hk _ _ (hr.call he)
      · cases hr'
        exact hk' _ _ he'
    | finish => exact ⟨⟨hi, fun p hr => nomatch hr⟩, hi', fun p hr => nomatch hr⟩
    | crash => exact ⟨⟨hi, fun p hr => nomatch hr⟩, hi', fun p hr => nomatch hr⟩

/-- The invariant holds in every reachable state. -/
theorem reachable_inv (hmain : ∀ w, O.inv w → O.wp main Q w) (h₀ : O.inv w₀)
    (h : Reachable O.exec O.env main w₀ s) : O.inv s.world :=
  (stateInv_reachable hmain h₀ h).1

/-- Every call made in a run is allowed when it is made. -/
theorem reachable_allowed (hmain : ∀ w, O.inv w → O.wp main Q w)
    (h₀ : O.inv w₀) (h : Reachable O.exec O.env main w₀ s) {c : Call}
    {k : Resp c → Prog Call Resp α} (hr : s.running = some (.call c k)) :
    O.allowed c s.world := by
  obtain ⟨hi, hp⟩ := stateInv_reachable hmain h₀ h
  exact (hp _ hr _ .refl hi).1

/-- Every normal end in a run satisfies the postcondition. -/
theorem reachable_ret (hmain : ∀ w, O.inv w → O.wp main Q w)
    (h₀ : O.inv w₀) (h : Reachable O.exec O.env main w₀ s) {a : α}
    (hr : s.running = some (.ret a)) : Q a s.world := by
  obtain ⟨hi, hp⟩ := stateInv_reachable hmain h₀ h
  exact hp _ hr _ .refl hi

end Outline

end Interaction
