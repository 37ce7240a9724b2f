import SelfNodeRemediation.Lib.Session

/-!
# How sessions end

A session ends with a value or an error, and with a local memory. Three ways to say
what is known in the end, with the rules to go on from there.

* `Leaves`: the session leaves its memory alone; one predicate for the value it
  returns, and one for its error.
* `Keeps`: it leaves its memory alone and keeps one fact about the world.
* `Ends`: it may change its memory, and in the end a relation holds between the memory
  and the world.

`Fails` bounds the errors, and `Failed` is an error with which a session may end that
has left its memory alone: so `Leaves.bind_ends` leads from the first to the last.
-/

namespace Interaction

variable {Call : Type} {Resp : Call → Type} {S E W α β : Type}

/-! ## 1. Errors -/

/-- An end with an error is one with an error in `V`. -/
def Fails (V : E → Prop) (r : Except E α) : Prop := ∀ e, r = .error e → V e

theorem fails_ok {V : E → Prop} {a : α} : Fails V (.ok a) := fun _ h => nomatch h

theorem fails_error {V : E → Prop} {e : E} (h : V e) : Fails V (.error e : Except E α) :=
  fun _ he => Except.error.inj he ▸ h

/-- Any error, where it does not matter how a session ends. -/
def AnyError (_ : E) : Prop := True

theorem fails_any {r : Except E α} : Fails AnyError r := fun _ _ => trivial

/-! ## 2. Sessions that leave the memory alone -/

/-- The session ends with the memory it was given. `G` is true of what it returns, and `F`
of its error. -/
def Leaves (G : α → W → Prop) (F : E → W → Prop) (s : S) (res : Except E α × S) (w : W) : Prop :=
  res.2 = s ∧ (∀ a, res.1 = .ok a → G a w) ∧ ∀ e, res.1 = .error e → F e w

/-- The session ends with `P`, with the memory as it was, and with no error but those
in `V`. -/
def Keeps (O : Outline Call Resp W) (V : E → Prop) (P : W → Prop) (s : S) (w : W)
    (x : Session Call Resp S E α) : Prop :=
  O.wp (x s) (fun r w => r.2 = s ∧ P w ∧ Fails V r.1) w

section Leaves

variable {O : Outline Call Resp W} {G : α → W → Prop} {F : E → W → Prop}
  {R : Except E β × S → W → Prop} {s : S} {w : W} {x : Session Call Resp S E α}

theorem stable_leaves (hG : ∀ a, O.Stable (G a)) (hF : ∀ e, O.Stable (F e))
    (res : Except E α × S) : O.Stable (Leaves G F s res) :=
  Outline.stable_const.and ((Outline.stable_forall fun a => Outline.stable_forall fun _ => hG a).and
    (Outline.stable_forall fun e => Outline.stable_forall fun _ => hF e))

theorem leaves_ok {a : α} (h : G a w) : Leaves G F s (.ok a, s) w :=
  ⟨rfl, fun _ heq => Except.ok.inj heq ▸ h, nofun⟩

theorem leaves_error {e : E} (h : F e w) : Leaves G F s (.error e, s) w :=
  ⟨rfl, nofun, fun _ heq => Except.error.inj heq ▸ h⟩

theorem Leaves.wp_bind {f : α → Session Call Resp S E β} (hx : O.wp (x s) (Leaves G F s) w)
    (hok : ∀ a w, O.inv w → G a w → O.wp (f a s) R w)
    (herror : ∀ e w, O.inv w → F e w → O.wp (Prog.ret (.error e, s)) R w) :
    O.wp ((x >>= f) s) R w := by
  refine Session.wp_bind hx ?_ ?_
  · rintro a s' w hi ⟨(rfl : s' = s), hG, -⟩
    exact hok a w hi (hG a rfl)
  · rintro e s' w hi ⟨(rfl : s' = s), -, hF⟩
    exact herror e w hi (hF e rfl)

theorem Leaves.wp_mono {G' : α → W → Prop} {F' : E → W → Prop}
    (hx : O.wp (x s) (Leaves G F s) w) (hG : ∀ a w, O.inv w → G a w → G' a w)
    (hF : ∀ e w, O.inv w → F e w → F' e w) : O.wp (x s) (Leaves G' F' s) w :=
  Outline.wp_mono hx fun _ w hi h => ⟨h.1, fun a heq => hG a w hi (h.2.1 a heq),
    fun e heq => hF e w hi (h.2.2 e heq)⟩

theorem Leaves.wp_attempt {f : Except E α → Session Call Resp S E β}
    (hx : O.wp (x s) (Leaves G F s) w)
    (hok : ∀ a w, O.inv w → G a w → O.wp (f (.ok a) s) R w)
    (herror : ∀ e w, O.inv w → F e w → O.wp (f (.error e) s) R w) :
    O.wp ((Session.attempt x >>= f) s) R w := by
  refine Session.wp_attempt hx ?_
  rintro (e | a) s' w hi ⟨(rfl : s' = s), hG, hF⟩
  · exact herror e w hi (hF e rfl)
  · exact hok a w hi (hG a rfl)

end Leaves

section Keeps

variable {O : Outline Call Resp W} {V : E → Prop} {P : W → Prop} {s : S} {w : W}

theorem stable_keeps {p q : Prop} (hP : O.Stable P) : O.Stable fun w => p ∧ P w ∧ q :=
  Outline.stable_const.and (hP.and Outline.stable_const)

theorem keeps_ofExcept {r : Except E α} (hP : O.Stable P) (hw : P w) (h : Fails V r) :
    Keeps O V P s w (Session.ofExcept r : Session Call Resp S E α) :=
  Session.wp_ret (stable_keeps hP) ⟨rfl, hw, h⟩

theorem keeps_pure {a : α} (hP : O.Stable P) (hw : P w) :
    Keeps O V P s w (pure a : Session Call Resp S E α) :=
  keeps_ofExcept hP hw fails_ok

variable {x : Session Call Resp S E α}

/-- What follows a session that keeps `P`. -/
theorem Keeps.wp_bind {f : α → Session Call Resp S E β} {R : Except E β × S → W → Prop}
    (hx : Keeps O V P s w x) (hok : ∀ a w, O.inv w → P w → O.wp (f a s) R w)
    (herror : ∀ e w, O.inv w → P w → V e → O.wp (Prog.ret (.error e, s)) R w) :
    O.wp ((x >>= f) s) R w := by
  refine Session.wp_bind hx ?_ ?_
  · rintro a s' w hi ⟨(rfl : s' = s), hw, -⟩
    exact hok a w hi hw
  · rintro e s' w hi ⟨(rfl : s' = s), hw, he⟩
    exact herror e w hi hw (he e rfl)

theorem Keeps.bind {f : α → Session Call Resp S E β} (hP : O.Stable P) (hx : Keeps O V P s w x)
    (hf : ∀ a w, P w → Keeps O V P s w (f a)) : Keeps O V P s w (x >>= f) :=
  hx.wp_bind (fun a w _ hw => hf a w hw) fun _ _ _ hw he =>
    keeps_ofExcept hP hw (fails_error he)

theorem Keeps.wp_attempt {f : Except E α → Session Call Resp S E β}
    {R : Except E β × S → W → Prop} (hx : Keeps O V P s w x)
    (hf : ∀ r w, O.inv w → P w → Fails V r → O.wp (f r s) R w) :
    O.wp ((Session.attempt x >>= f) s) R w := by
  refine Session.wp_attempt hx ?_
  rintro r s' w hi ⟨(rfl : s' = s), hw, hr⟩
  exact hf r w hi hw hr

theorem Keeps.leaves {F : E → W → Prop} (hx : Keeps O V P s w x)
    (hF : ∀ e w, O.inv w → P w → V e → F e w) : O.wp (x s) (Leaves (fun _ => P) F s) w := by
  refine Outline.wp_mono hx ?_
  rintro res w hi ⟨hs, hw, hres⟩
  exact ⟨hs, fun _ _ => hw, fun e he => hF e w hi hw (hres e he)⟩

theorem Keeps.of_leaves
    (hx : O.wp (x s) (Leaves (fun _ => P) (fun e w => P w ∧ V e) s) w) : Keeps O V P s w x := by
  refine Outline.wp_mono hx ?_
  rintro ⟨res, s'⟩ w - ⟨hs, hok, herror⟩
  cases res with
  | ok a => exact ⟨hs, hok a rfl, fails_ok⟩
  | error e => exact ⟨hs, (herror e rfl).1, fails_error (herror e rfl).2⟩

end Keeps

/-! ## 3. Sessions that change the memory -/

/-- The session ends with a memory of which `I` is true, and with no error but those in
`V`. -/
def Ends (V : E → Prop) (I : S → W → Prop) (res : Except E α × S) (w : W) : Prop :=
  I res.2 w ∧ Fails V res.1

/-- A session may end with this memory and error. -/
def Failed (V : E → Prop) (I : S → W → Prop) (s : S) (e : E) (w : W) : Prop :=
  I s w ∧ V e

/-- A session that keeps `P`, with which it may end. -/
theorem Keeps.failed {O : Outline Call Resp W} {V : E → Prop} {I : S → W → Prop} {P : W → Prop}
    {s : S} {w : W} {x : Session Call Resp S E α} (hx : Keeps O V P s w x)
    (hend : ∀ w, O.inv w → P w → I s w) :
    O.wp (x s) (Leaves (fun _ => P) (Failed V I s) s) w :=
  hx.leaves fun _ w hi hw he => ⟨hend w hi hw, he⟩

section Ends

variable {O : Outline Call Resp W} {V : E → Prop} {I : S → W → Prop} {G : α → W → Prop} {s : S}
  {w : W} {x : Session Call Resp S E α} (hI : ∀ s, O.Stable (I s))

include hI

theorem wp_ends {res : Except E α} (h : I s w) (hres : Fails V res) :
    O.wp (Prog.ret (res, s)) (Ends V I) w :=
  Session.wp_ret ((hI s).and Outline.stable_const) ⟨h, hres⟩

theorem Ends.wp_bind {f : α → Session Call Resp S E β} (hx : O.wp (x s) (Ends V I) w)
    (hf : ∀ a s w, O.inv w → I s w → O.wp (f a s) (Ends V I) w) :
    O.wp ((x >>= f) s) (Ends V I) w :=
  Session.wp_bind hx (fun a s w hi h => hf a s w hi h.1)
    fun e _ _ _ h => wp_ends hI h.1 (fails_error (h.2 e rfl))

/-- What follows a session returns, and leaves the memory alone. -/
theorem Ends.wp_return {b : α → β} (hx : O.wp (x s) (Ends V I) w) :
    O.wp ((x >>= fun a => pure (b a) : Session Call Resp S E β) s) (Ends V I) w :=
  Ends.wp_bind hI hx fun _ _ _ _ h => wp_ends hI h fails_ok

theorem Leaves.bind_ends {f : α → Session Call Resp S E β}
    (hx : O.wp (x s) (Leaves G (Failed V I s) s) w)
    (hf : ∀ a w, O.inv w → G a w → O.wp (f a s) (Ends V I) w) :
    O.wp ((x >>= f) s) (Ends V I) w :=
  Leaves.wp_bind hx hf fun _ _ _ h => wp_ends hI h.1 (fails_error h.2)

end Ends

end Interaction
