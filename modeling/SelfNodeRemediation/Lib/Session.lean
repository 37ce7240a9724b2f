import SelfNodeRemediation.Lib.Interaction

/-!
# Sessions: calling programs with a local memory and errors

A `Session` is a `Prog` that also has a local memory, which nobody else
touches and which an error leaves as it is, and that may end with an error.

* The rules `Session.wp_*` prove a session against a proof outline, one
  statement at a time. The local memory stands in the goal, so what is known of
  it stays known; what is known of the world has to be `Stable`.
* `Session.Only` bounds the calls of a session.
* `Outline.alone` is the outline of a world that nobody else touches, and
  `alone_wp` reads a proof against it as a fact about `Prog.eval`; with
  `Session.wp_evaluated` a proof goes on from a known evaluation.
-/

namespace Interaction

/-- A program with the local memory `S` that ends with a value or an error. -/
def Session (Call : Type) (Resp : Call → Type) (S E α : Type) : Type :=
  S → Prog Call Resp (Except E α × S)

namespace Session

variable {Call : Type} {Resp : Call → Type} {S E α β : Type}

def bind (x : Session Call Resp S E α) (f : α → Session Call Resp S E β) :
    Session Call Resp S E β := fun s =>
  x s >>= fun r =>
    match r with
    | (.ok a, s') => f a s'
    | (.error e, s') => .ret (.error e, s')

instance : Monad (Session Call Resp S E) where
  pure a := fun s => .ret (.ok a, s)
  bind := bind

/-- Make one call and return its answer. -/
def call (c : Call) : Session Call Resp S E (Resp c) := fun s => .call c fun r => .ret (.ok r, s)

def read : Session Call Resp S E S := fun s => .ret (.ok s, s)

def update (f : S → S) : Session Call Resp S E Unit := fun s => .ret (.ok (), f s)

/-- Go on with the value, or end with the error. -/
def ofExcept (r : Except E α) : Session Call Resp S E α := fun s => .ret (r, s)

def fail (e : E) : Session Call Resp S E α := ofExcept (.error e)

/-- Run a session and return its end as a value. -/
def attempt (x : Session Call Resp S E α) : Session Call Resp S E (Except E α) := fun s =>
  x s >>= fun r => .ret (.ok r.1, r.2)

/-! ## Evaluation -/

section Eval

variable {W : Type} {serve : (c : Call) → W → Resp c × W} {s s' : S} {w w' : W}
  {x : Session Call Resp S E α} {f : α → Session Call Resp S E β}

theorem eval_bind_ok {a : α} (h : (x s).eval serve w = ((.ok a, s'), w')) :
    ((x >>= f) s).eval serve w = (f a s').eval serve w' := by
  show (x s >>= _).eval serve w = _
  rw [Prog.eval_bind, h]

theorem eval_bind_error {e : E} (h : (x s).eval serve w = ((.error e, s'), w')) :
    ((x >>= f) s).eval serve w = ((.error e, s'), w') := by
  show (x s >>= _).eval serve w = _
  rw [Prog.eval_bind, h]
  rfl

theorem eval_call {c : Call} {g : Resp c → Session Call Resp S E β} {r : Resp c}
    (h : serve c w = (r, w')) :
    ((call c >>= g) s).eval serve w = (g r s).eval serve w' := by
  apply eval_bind_ok
  show (Prog.ret _).eval serve (serve c w).2 = _
  rw [h]
  rfl

theorem eval_attempt {g : Except E α → Session Call Resp S E β} {r : Except E α}
    (h : (x s).eval serve w = ((r, s'), w')) :
    ((attempt x >>= g) s).eval serve w = (g r s').eval serve w' := by
  apply eval_bind_ok
  show (x s >>= _).eval serve w = _
  rw [Prog.eval_bind, h]
  rfl

end Eval

/-! ## Rules for proof outlines -/

section Rules

open Outline

variable {W : Type} {O : Outline Call Resp W} {P : W → Prop} {s : S} {w : W}
  {x : Session Call Resp S E α} {Q : Except E α × S → W → Prop} {R : Except E β × S → W → Prop}

/-- A session that makes no further call. -/
theorem wp_ret {r : Except E α} (hQ : O.Stable (Q (r, s))) (h : Q (r, s) w) :
    O.wp (Prog.ret (r, s)) Q w :=
  Outline.wp_ret hQ h fun _ _ hq => hq

theorem wp_pure {a : α} (hQ : O.Stable (Q (.ok a, s))) (h : Q (.ok a, s) w) :
    O.wp ((pure a : Session Call Resp S E α) s) Q w :=
  wp_ret hQ h

/-- One session after the other: the first one's postcondition `Q` is what the
second one starts from, and has to be enough where the first one ends with an
error. -/
theorem wp_bind {f : α → Session Call Resp S E β} (hx : O.wp (x s) Q w)
    (hok : ∀ a s w, O.inv w → Q (.ok a, s) w → O.wp (f a s) R w)
    (herror : ∀ e s w, O.inv w → Q (.error e, s) w → O.wp (Prog.ret (.error e, s)) R w) :
    O.wp ((x >>= f) s) R w := by
  refine Outline.wp_bind (wp_mono hx ?_)
  rintro ⟨r, s'⟩ w' hi hq
  cases r with
  | ok a => exact hok a s' w' hi hq
  | error e => exact herror e s' w' hi hq

/-- A call under the stable assertion `P`. -/
theorem wp_call {c : Call} {f : Resp c → Session Call Resp S E β} (hP : O.Stable P) (hw : P w)
    (ha : ∀ w, O.inv w → P w → O.allowed c w)
    (hk : ∀ w r w', O.inv w → P w → O.exec c w r w' → O.inv w' → O.wp (f r s) R w') :
    O.wp ((call c >>= f) s) R w :=
  Outline.wp_call hP hw ha hk

theorem wp_read {f : S → Session Call Resp S E β} (h : O.wp (f s s) R w) :
    O.wp ((read >>= f) s) R w :=
  h

theorem wp_update {g : S → S} {f : Unit → Session Call Resp S E β} (h : O.wp (f () (g s)) R w) :
    O.wp ((update g >>= f) s) R w :=
  h

theorem wp_ofExcept_ok {a : α} {f : α → Session Call Resp S E β} (h : O.wp (f a s) R w) :
    O.wp ((ofExcept (.ok a) >>= f) s) R w :=
  h

/-- A session whose errors are handled. -/
theorem wp_attempt {f : Except E α → Session Call Resp S E β} (hx : O.wp (x s) Q w)
    (hk : ∀ r s w, O.inv w → Q (r, s) w → O.wp (f r s) R w) :
    O.wp ((attempt x >>= f) s) R w := by
  have h : O.wp (x s >>= fun r => f r.1 r.2) R w :=
    Outline.wp_bind (wp_mono hx fun r w hi hq => hk r.1 r.2 w hi hq)
  show O.wp ((x s >>= fun r => Prog.ret (Except.ok r.1, r.2)) >>= _) R w
  rw [Prog.bind_assoc]
  exact h

end Rules

/-! ## The calls of a session -/

/-- Every call that the session can make is in `A`. -/
def Only (A : Call → Prop) (x : Session Call Resp S E α) : Prop := ∀ s, (x s).Only A

section Only

variable {A : Call → Prop} {x : Session Call Resp S E α}

theorem only_pure {a : α} : Only A (pure a : Session Call Resp S E α) := fun _ => trivial

theorem only_ofExcept {r : Except E α} : Only A (ofExcept r : Session Call Resp S E α) :=
  fun _ => trivial

theorem only_update {g : S → S} : Only A (update g : Session Call Resp S E Unit) :=
  fun _ => trivial

theorem only_bind {f : α → Session Call Resp S E β} (hx : Only A x) (hf : ∀ a, Only A (f a)) :
    Only A (x >>= f) := by
  refine fun s => (hx s).bind fun r => ?_
  match r with
  | (.ok a, s') => exact hf a s'
  | (.error e, s') => trivial

theorem only_read {f : S → Session Call Resp S E β} (hf : ∀ s, Only A (f s)) :
    Only A (read >>= f) :=
  fun s => hf s s

theorem only_call {c : Call} {f : Resp c → Session Call Resp S E β} (hc : A c)
    (hf : ∀ r, Only A (f r)) : Only A (call c >>= f) :=
  fun s => ⟨hc, fun r => hf r s⟩

end Only

end Session

/-! ## A world nobody else touches -/

section Alone

variable {Call : Type} {Resp : Call → Type} {W α : Type}

/-- The outline of a world that answers by the function `serve` and that only
the program changes. -/
def Outline.alone (serve : (c : Call) → W → Resp c × W) : Outline Call Resp W where
  exec c w r w' := serve c w = (r, w')
  env _ _ := False
  inv _ := True
  allowed _ _ := True
  inv_env _ _ := trivial
  inv_exec _ _ _ := trivial

theorem Outline.alone_stable {serve : (c : Call) → W → Resp c × W} (P : W → Prop) :
    (Outline.alone serve).Stable P :=
  fun _ _ _ h => h.elim

/-- What is proved of a program against the outline `alone` is true of its
evaluation. -/
theorem Outline.alone_wp {serve : (c : Call) → W → Resp c × W} {p : Prog Call Resp α}
    {Q : α → W → Prop} {w : W} (h : (Outline.alone serve).wp p Q w) :
    Q (p.eval serve w).1 (p.eval serve w).2 := by
  induction p generalizing w with
  | ret a => exact h w .refl trivial
  | call c k ih => exact ih _ ((h w .refl trivial).2 _ _ rfl)

theorem Outline.alone_later {serve : (c : Call) → W → Resp c × W} {w w' : W}
    (h : (Outline.alone serve).Later w w') : w' = w := by
  cases h with
  | refl => rfl
  | tail _ he => exact he.elim

/-- What is true of the evaluation. -/
theorem Outline.wp_alone {serve : (c : Call) → W → Resp c × W} {p : Prog Call Resp α}
    {Q : α → W → Prop} {w : W} (h : Q (p.eval serve w).1 (p.eval serve w).2) :
    (Outline.alone serve).wp p Q w := by
  induction p generalizing w with
  | ret a =>
    intro w' hl _
    rw [Outline.alone_later hl]
    exact h
  | call c k ih =>
    intro w' hl _
    rw [Outline.alone_later hl]
    refine ⟨trivial, fun r w'' he => ih r ?_⟩
    have he : serve c w = (r, w'') := he
    rw [Prog.eval_call, he] at h
    exact h

section Evaluated

variable {S E β : Type} {serve : (c : Call) → W → Resp c × W} {s s' : S} {w w' : W}
  {x : Session Call Resp S E α} {R : Except E β × S → W → Prop}

/-- A session of which the evaluation is known. -/
theorem Session.wp_evaluated {f : α → Session Call Resp S E β} {a : α}
    (h : (x s).eval serve w = ((.ok a, s'), w'))
    (hf : (Outline.alone serve).wp (f a s') R w') :
    (Outline.alone serve).wp ((x >>= f) s) R w := by
  refine Outline.wp_alone ?_
  rw [Session.eval_bind_ok h]
  exact Outline.alone_wp hf

theorem Session.wp_evaluated_error {f : α → Session Call Resp S E β} {e : E}
    (h : (x s).eval serve w = ((.error e, s'), w')) (hR : R (.error e, s') w') :
    (Outline.alone serve).wp ((x >>= f) s) R w := by
  refine Outline.wp_alone ?_
  rw [Session.eval_bind_error h]
  exact hR

theorem Session.wp_attempted {f : Except E α → Session Call Resp S E β} {r : Except E α}
    (h : (x s).eval serve w = ((r, s'), w')) (hf : (Outline.alone serve).wp (f r s') R w') :
    (Outline.alone serve).wp ((attempt x >>= f) s) R w := by
  refine Outline.wp_alone ?_
  rw [Session.eval_attempt h]
  exact Outline.alone_wp hf

end Evaluated

end Alone

end Interaction
