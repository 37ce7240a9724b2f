import SelfNodeRemediation.Watchdog

/-!
# The life of the watchdog

What the goroutines around a watchdog can do to it, over all interleavings.

* `Stage`: what can have happened to the device, by the status of the watchdog.
* `lifecycle`: the proof of the system. Besides the stage it needs to know that
  the cancel function is set and a feeder started when `Start` comes to its end.
* `watchdog_lifecycle`: the state machine of the watchdog.
-/

namespace SelfNodeRemediation.Watchdog

open Interaction

/-! ## 1. The life of the device -/

/-- The device was started, and the watchdog armed. -/
def arming : List Event := [.start true, .moved .disarmed .armed]

/-- What can have happened, by the status and whether `Start` was called. -/
inductive Stage : WatchdogStatus → Bool → List Event → Prop
  | fresh : Stage .disarmed false []
  | refused : Stage .disarmed true [.start false]
  | broken : Stage .malfunction true [.start false, .moved .disarmed .malfunction]
  | armed {served : List Event} : served ⊆ serving → Stage .armed true (arming ++ served)
  | triggered {served : List Event} : served ⊆ serving →
      Stage .triggered true (arming ++ served ++ [.moved .armed .triggered])
  | disarmed {served : List Event} : served ⊆ serving →
      Stage .disarmed true (arming ++ served ++ [.disarm true, .moved .armed .disarmed])

/-- The stage, and that no context is cancelled before or while the watchdog is
armed. -/
structure Inv (p : Process) : Prop where
  stage : Stage p.wd.status p.wd.started p.events
  alive : p.cancelled = [] ∨ p.wd.started = true ∧ p.wd.status ≠ .armed

theorem Stage.unstarted {status : WatchdogStatus} {events : List Event}
    (h : Stage status false events) : status = .disarmed ∧ events = [] := by
  cases h
  exact ⟨rfl, rfl⟩

theorem Stage.serving {started : Bool} {events : List Event} (h : Stage .armed started events) :
    started = true ∧ ∃ served, served ⊆ serving ∧ events = arming ++ served := by
  cases h with
  | armed hserved => exact ⟨rfl, _, hserved, rfl⟩

theorem inv_effect {c : Call} {p p' : Process} (h : Inv p) (he : Effect c p p') : Inv p' := by
  obtain ⟨hstage, halive⟩ := h
  cases he with
  | none hstatus hstarted hevents hcancelled =>
    constructor
    · rw [hstatus, hstarted, hevents]
      exact hstage
    · rw [hstatus, hstarted, hcancelled]
      exact halive
  | refused hunstarted hstatus hstarted hevents =>
    rw [hunstarted] at hstage
    obtain ⟨hdisarmed, hempty⟩ := hstage.unstarted
    rw [hdisarmed] at hstatus
    refine ⟨?_, .inr ⟨hstarted, hstatus ▸ nofun⟩⟩
    rw [hstatus, hstarted, hevents, hempty]
    exact .refused
  | broken hunstarted _ hstatus hstarted hevents =>
    rw [hunstarted] at hstage
    obtain ⟨hdisarmed, hempty⟩ := hstage.unstarted
    refine ⟨?_, .inr ⟨hstarted, hstatus ▸ nofun⟩⟩
    rw [hstatus, hstarted, hevents, hempty, hdisarmed]
    exact .broken
  | armed hunstarted hstatus hstarted hevents hcancelled =>
    rw [hunstarted] at hstage halive
    obtain ⟨hdisarmed, hempty⟩ := hstage.unstarted
    refine ⟨?_, .inl (hcancelled.trans (halive.resolve_right fun h => nomatch h.1))⟩
    rw [hstatus, hstarted, hevents, hempty, hdisarmed]
    exact .armed (List.nil_subset _)
  | served _ harmed he hstatus hstarted hevents hcancelled =>
    rw [harmed] at hstage
    obtain ⟨hbefore, served, hserved, hlog⟩ := hstage.serving
    refine ⟨?_, .inl (hcancelled.trans (halive.resolve_right fun h => h.2 harmed))⟩
    rw [hstatus, hstarted, hbefore, hevents, hlog, List.append_assoc]
    exact .armed (List.append_subset.mpr ⟨hserved, List.cons_subset.mpr ⟨he, List.nil_subset _⟩⟩)
  | triggered harmed hstatus hstarted hevents =>
    rw [harmed] at hstage
    obtain ⟨hbefore, served, hserved, hlog⟩ := hstage.serving
    refine ⟨?_, .inr ⟨hstarted.trans hbefore, hstatus ▸ nofun⟩⟩
    rw [hstatus, hstarted, hbefore, hevents, hlog]
    exact .triggered hserved
  | disarmed _ harmed hstatus hstarted hevents =>
    rw [harmed] at hstage
    obtain ⟨hbefore, served, hserved, hlog⟩ := hstage.serving
    refine ⟨?_, .inr ⟨hstarted.trans hbefore, hstatus ▸ nofun⟩⟩
    rw [hstatus, hstarted, hbefore, hevents, hlog]
    exact .disarmed hserved

/-! ## 2. Where `Start` is -/

/-- The places in `Start`. -/
inductive StartPlace
  | init
  | check
  | withCancel
  | setStop (ctx : Nat)
  | goFeed (ctx : Nat)
  | await
  | shutdown
  | ended (r : Except GoErr Unit)

/-- The rest of `Start` from the place on. -/
def StartPlace.rest : StartPlace → Routine
  | .init => start
  | .check => startArmed
  | .withCancel => startFeeding
  | .setStop ctx => .call (.setStop ctx) fun _ => .call (.goFeed ctx) fun _ => awaitShutdown
  | .goFeed ctx => .call (.goFeed ctx) fun _ => awaitShutdown
  | .await => awaitShutdown
  | .shutdown => .call .shutdown fun _ => .ret (.ok ())
  | .ended r => .ret r

/-- From where on the cancel function is set and there is a feeder. -/
def StartPlace.Fed (p : Process) : StartPlace → Prop
  | .goFeed _ => p.wd.stop.isSome = true
  | .await | .shutdown => p.wd.stop.isSome = true ∧ p.feeding ≠ []
  | _ => True

theorem StartPlace.Fed.grows {p p' : Process} {place : StartPlace} (h : place.Fed p)
    (hg : Grows p p') : place.Fed p' := by
  have hfeeding (hne : p.feeding ≠ []) : p'.feeding ≠ [] := by
    intro hnil
    exact hne (List.subset_nil.mp (hnil ▸ hg.feeding))
  cases place with
  | goFeed ctx => exact hg.stop h
  | await => exact ⟨hg.stop h.1, hfeeding h.2⟩
  | shutdown => exact ⟨hg.stop h.1, hfeeding h.2⟩
  | _ => trivial

/-- The next place. -/
theorem StartPlace.next {i : Thread} {place : StartPlace} {c : Call} {k : Resp c → Routine}
    {p p' : Process} {r : Resp c} (hrest : .call c k = place.rest) (hfed : place.Fed p)
    (he : exec i c p r p') : ∃ after : StartPlace, k r = after.rest ∧ after.Fed p' := by
  have hg := exec_grows he
  cases place with
  | init =>
    cases hrest
    cases r with
    | error err => exact ⟨.ended _, rfl, trivial⟩
    | ok _ => exact ⟨.check, rfl, trivial⟩
  | check =>
    cases hrest
    show ∃ after : StartPlace, (if r ≠ .armed then _ else _ : Routine) = after.rest ∧ after.Fed p'
    split
    · exact ⟨.ended _, rfl, trivial⟩
    · exact ⟨.withCancel, rfl, trivial⟩
  | withCancel =>
    cases hrest
    exact ⟨.setStop r, rfl, trivial⟩
  | setStop ctx =>
    cases hrest
    cases he
    exact ⟨.goFeed ctx, rfl, rfl⟩
  | goFeed ctx =>
    cases hrest
    cases he
    exact ⟨.await, rfl, hfed, List.cons_ne_nil _ _⟩
  | await =>
    cases hrest
    have hshutdown : StartPlace.Fed p .shutdown := hfed
    exact ⟨.shutdown, rfl, hshutdown.grows hg⟩
  | shutdown =>
    cases hrest
    exact ⟨.ended _, rfl, trivial⟩
  | ended r => cases hrest

/-- Where a thread can be. The users may be anywhere. -/
def Thread.At (q : Routine) (p : Process) : Thread → Prop
  | .start _ => ∃ place : StartPlace, q = place.rest ∧ place.Fed p
  | .feeder _ _ => q = feedTick ∨ ∃ r, q = .ret r
  | .user _ => True

theorem Thread.At.grows {i : Thread} {q : Routine} {p p' : Process} (h : i.At q p)
    (hg : Grows p p') : i.At q p' := by
  cases i with
  | start n =>
    obtain ⟨place, hq, hfed⟩ := h
    exact ⟨place, hq, hfed.grows hg⟩
  | feeder ctx n => exact h
  | user n => trivial

/-- The device is only disarmed at the end of `Start`. -/
theorem Thread.At.shutdown {i : Thread} {k : Unit → Routine} {p : Process}
    (h : i.At (.call .shutdown k) p) (hmay : i.may .shutdown = true) :
    p.wd.stop.isSome = true ∧ p.feeding ≠ [] := by
  cases i with
  | start n =>
    obtain ⟨place, hq, hfed⟩ := h
    cases place with
    | shutdown => exact hfed
    | _ => cases hq
  | feeder ctx n =>
    rcases h with h | ⟨r, h⟩
    · cases h
    · cases h
  | user n => cases hmay

/-! ## 3. All interleavings -/

/-- Nothing but the end of `Start` disarms the device. -/
theorem Effect.disarm {c : Call} {p p' : Process} {ok : Bool} (h : Effect c p p')
    (hc : c ≠ .shutdown) (hdisarm : .disarm ok ∈ p'.events) : .disarm ok ∈ p.events := by
  have hother {events : List Event} (hevents : p'.events = p.events ++ events)
      (hno : .disarm ok ∉ events) : .disarm ok ∈ p.events :=
    (List.mem_append.mp (hevents ▸ hdisarm)).resolve_right hno
  cases h with
  | none _ _ hevents _ => exact hevents ▸ hdisarm
  | refused _ _ _ hevents => exact hother hevents (by simp)
  | broken _ _ _ _ hevents => exact hother hevents (by simp)
  | armed _ _ _ hevents _ => exact hother hevents (by simp)
  | served hshutdown _ _ _ _ hevents _ =>
    refine hother hevents fun h => hc (hshutdown ok ?_)
    exact (List.mem_singleton.mp h).symm
  | triggered _ _ _ hevents => exact hother hevents (by simp)
  | disarmed hshutdown => exact absurd hshutdown hc

/-- What is known of every process: its `Inv`, and that nothing was disarmed before
there was a feeder. -/
def Known (p : Process) : Prop := Inv p ∧ ∀ ok, .disarm ok ∈ p.events → p.feeding ≠ []

section Calls

variable {i : Thread} {c : Call} {k : Resp c → Routine} {p p' : Process} {r : Resp c}

theorem Thread.At.effect (h : i.At (.call c k) p) (hmay : i.may c = true)
    (he : exec i c p r p') : Effect c p p' := by
  refine exec_effect he fun hc => ?_
  subst hc
  exact (h.shutdown hmay).1

theorem known_exec (hp : Known p) (h : i.At (.call c k) p) (hmay : i.may c = true)
    (he : exec i c p r p') : Known p' := by
  have hg := exec_grows he
  have hfeeding (hne : p.feeding ≠ []) : p'.feeding ≠ [] := by
    intro hnil
    exact hne (List.subset_nil.mp (hnil ▸ hg.feeding))
  have heffect := h.effect hmay he
  refine ⟨inv_effect hp.1 heffect, fun ok hdisarm => hfeeding ?_⟩
  by_cases hc : c = .shutdown
  · subst hc
    exact (h.shutdown hmay).2
  · exact hp.2 ok (heffect.disarm hc hdisarm)

theorem known_elapses (hp : Known p) (he : Elapses p p') : Known p' := by
  obtain ⟨⟨hstage, halive⟩, hfed⟩ := hp
  cases he with
  | tick _ => exact ⟨⟨hstage, halive⟩, hfed⟩
  | stopped => exact ⟨⟨hstage, halive⟩, hfed⟩

theorem same_elapses (he : Elapses p p') : Same p p' := by
  cases he with
  | tick _ => exact ⟨rfl, rfl, rfl, rfl⟩
  | stopped => exact ⟨rfl, rfl, rfl, rfl⟩

end Calls

def lifecycle (users : Nat → Routine) : Annotation (system users) Interaction.System.AnyStep where
  inv := Known
  asserts i q p := i.At q p
  inv_env := known_elapses
  inv_exec := by
    rintro i c k p r p' hp hat ⟨-, hmay, he, -⟩
    exact known_exec hp hat hmay he
  inv_crash := by
    rintro i c k p p' hp hat ⟨-, hmay, ⟨r, he⟩, -⟩
    exact known_exec hp hat hmay he
  start := by
    rintro i p - -
    cases i with
    | start n => exact ⟨.init, rfl, trivial⟩
    | feeder ctx n => exact .inl rfl
    | user n => trivial
  next := by
    rintro i c k p r p' t - - hat ⟨-, -, he, -⟩ -
    cases i with
    | start n =>
      obtain ⟨place, hq, hfed⟩ := hat
      exact StartPlace.next hq hfed he
    | feeder ctx n =>
      rcases hat with h | ⟨r, h⟩
      · cases h
        exact .inr ⟨_, rfl⟩
      · cases h
    | user n => trivial
  env _ hat he := hat.grows (same_elapses he).grows
  free := by
    rintro i j q c k p r p' t - - - hat - ⟨-, -, he, -⟩ -
    exact hat.grows (exec_grows he)
  crash := by
    rintro i j q c k p p' t - - hat - ⟨-, -, ⟨r, he⟩, -⟩ -
    exact hat.grows (exec_grows he)

/-! ## 4. A watchdog that is armed -/

/-- One goroutine, in `Start`. -/
def inStart (place : StartPlace) : Thread → Option Routine :=
  Function.update (fun _ => none) (.start 0) (some place.rest)

/-- `Start` has armed the watchdog and set the cancel function. -/
def armedProcess (softwareRebootEnv : String) (now : Time) : Process :=
  { newProcess softwareRebootEnv now with
    wd := ⟨minute, .armed, some 0, zeroTime, true⟩
    contexts := 1
    events := arming }

section Armed

variable {users : Nat → Routine} {ok : Option Thread → State → State → Prop} {p₀ p p' : Process}

theorem run_inStart {place : StartPlace} (after : StartPlace) {c : Call} {k : Resp c → Routine}
    {r : Resp c}
    (hok : ∀ mover s s', (∀ n, s.threads (.user n) = none) → ok mover s s')
    (h : (system users).Run ok p₀ ⟨p, inStart place⟩) (hcall : place.rest = .call c k)
    (he : (system users).exec (.start 0) c p r p') (hafter : k r = after.rest) :
    (system users).Run ok p₀ ⟨p', inStart after⟩ := by
  have hi : inStart place (.start 0) = some (.call c k) := congrArg some hcall
  have hnext := h.call (.start 0) hi he (hok _ _ _ fun _ => rfl)
  rw [inStart, Function.update_idem, hafter] at hnext
  exact hnext

theorem run_armed (softwareRebootEnv : String) (now : Time)
    (hok : ∀ mover s s', (∀ n, s.threads (.user n) = none) → ok mover s s') :
    (system users).Run ok (newProcess softwareRebootEnv now)
      ⟨armedProcess softwareRebootEnv now, inStart (.goFeed 0)⟩ := by
  have h : (system users).Run ok (newProcess softwareRebootEnv now)
      ⟨newProcess softwareRebootEnv now, inStart .init⟩ :=
    Interaction.System.Run.start .refl (.start 0) rfl trivial (hok _ _ _ fun _ => rfl)
  have h := run_inStart .check hok h rfl ⟨rfl, rfl, ⟨.ok minute, rfl⟩, rfl⟩ rfl
  have h := run_inStart .withCancel hok h rfl ⟨rfl, rfl, ⟨rfl, rfl⟩, rfl⟩ rfl
  have h := run_inStart (.setStop 0) hok h rfl ⟨rfl, rfl, ⟨rfl, rfl⟩, rfl⟩ rfl
  exact run_inStart (r := ()) (.goFeed 0) hok h rfl ⟨rfl, rfl, rfl, rfl⟩ rfl

end Armed

/-! ## 5. The state machine -/

/-- The changes of the status. -/
def moves (events : List Event) : List (WatchdogStatus × WatchdogStatus) :=
  events.filterMap fun
    | .moved old new => some (old, new)
    | _ => none

/-- The status that the changes lead to. -/
def statusAfter (events : List Event) : WatchdogStatus :=
  ((moves events).getLast?.map Prod.snd).getD .disarmed

/-- What holds of the device and the watchdog at any time. -/
structure Lifecycle (p : Process) : Prop where
  moves : moves p.events ⊆
    [(.disarmed, .armed), (.disarmed, .malfunction), (.armed, .triggered), (.armed, .disarmed)]
  once : (Watchdog.moves p.events).Nodup
  status : p.wd.status = statusAfter p.events
  feed : ∀ status ok, .feed status ok ∈ p.events → status = .armed
  /-- After the trigger nothing happens any more. -/
  triggered : ∀ before after, p.events = before ++ .moved .armed .triggered :: after →
    after = [] ∧ p.wd.status = .triggered
  /-- After a successful disarm only the status is set. -/
  disarmed : ∀ before after, p.events = before ++ .disarm true :: after →
    after = [.moved .armed .disarmed] ∧ p.wd.status = .disarmed
  /-- After a failed disarm the watchdog is still armed, and fed. -/
  disarmFailed : ∀ before, p.events = before ++ [.disarm false] →
    p.wd.status = .armed ∧ ∃ ctx ∈ p.feeding, ctx ∉ p.cancelled

section Stages

variable {status : WatchdogStatus} {started : Bool} {events : List Event}

theorem moves_served {served : List Event} (h : served ⊆ serving) : moves served = [] := by
  refine List.filterMap_eq_nil_iff.mpr fun e he => ?_
  have hserving := h he
  simp only [serving, List.mem_cons, List.not_mem_nil, or_false] at hserving
  rcases hserving with rfl | rfl | rfl
  · rfl
  · rfl
  · rfl

/-- The changes of the status, by the status. -/
theorem Stage.moves_mem (h : Stage status started events) :
    (status, moves events) ∈
      [(.disarmed, []), (.malfunction, [(.disarmed, .malfunction)]),
        (.armed, [(.disarmed, .armed)]),
        (.triggered, [(.disarmed, .armed), (.armed, .triggered)]),
        (.disarmed, [(.disarmed, .armed), (.armed, .disarmed)])] := by
  cases h with
  | fresh => decide
  | refused => decide
  | broken => decide
  | armed hserved =>
    have hmoves := moves_served hserved
    unfold moves at hmoves ⊢
    rw [List.filterMap_append, hmoves]
    decide
  | triggered hserved =>
    have hmoves := moves_served hserved
    unfold moves at hmoves ⊢
    rw [List.filterMap_append, List.filterMap_append, hmoves]
    decide
  | disarmed hserved =>
    have hmoves := moves_served hserved
    unfold moves at hmoves ⊢
    rw [List.filterMap_append, List.filterMap_append, hmoves]
    decide

theorem Stage.moves_ok (h : Stage status started events) :
    moves events ⊆ [(.disarmed, .armed), (.disarmed, .malfunction), (.armed, .triggered),
      (.armed, .disarmed)] ∧ (moves events).Nodup ∧ status = statusAfter events := by
  have hmoves := h.moves_mem
  unfold statusAfter
  generalize moves events = ms at hmoves ⊢
  simp only [List.mem_cons, Prod.mk.injEq, List.not_mem_nil, or_false] at hmoves
  rcases hmoves with ⟨rfl, rfl⟩ | ⟨rfl, rfl⟩ | ⟨rfl, rfl⟩ | ⟨rfl, rfl⟩ | ⟨rfl, rfl⟩
  · decide
  · decide
  · decide
  · decide
  · decide

theorem Stage.feed (h : Stage status started events) {fedIn : WatchdogStatus} {ok : Bool}
    (hfeed : .feed fedIn ok ∈ events) : fedIn = .armed := by
  have hserved {served : List Event} (hserved : served ⊆ Watchdog.serving)
      (hmem : .feed fedIn ok ∈ served) : fedIn = .armed := by
    have hserving := hserved hmem
    simp only [Watchdog.serving, List.mem_cons, Event.feed.injEq, reduceCtorEq, List.not_mem_nil,
      or_false] at hserving
    exact hserving.elim And.left And.left
  cases h with
  | fresh => cases hfeed
  | refused => simp at hfeed
  | broken => simp at hfeed
  | armed hs => exact hserved hs (by simpa [arming] using hfeed)
  | triggered hs => exact hserved hs (by simpa [arming] using hfeed)
  | disarmed hs => exact hserved hs (by simpa [arming] using hfeed)

/-- An event that is not one of those repeated while armed, nor of the arming. -/
theorem notMem_running {served : List Event} {e : Event} (hserved : served ⊆ serving)
    (he : e ∉ arming ++ serving) : e ∉ arming ++ served := by
  intro hmem
  refine he (List.mem_append.mpr ?_)
  exact (List.mem_append.mp hmem).imp_right fun h => hserved h

theorem Stage.triggered_last (h : Stage status started events) {before after : List Event}
    (hevents : events = before ++ .moved .armed .triggered :: after) :
    after = [] ∧ status = .triggered := by
  have hmem : .moved .armed .triggered ∈ events :=
    hevents ▸ List.mem_append_right _ List.mem_cons_self
  cases h with
  | fresh => cases hmem
  | refused => exact absurd hmem (by decide)
  | broken => exact absurd hmem (by decide)
  | armed hserved => exact absurd hmem (notMem_running hserved (by decide))
  | triggered hserved =>
    have hno := notMem_running (e := .moved .armed .triggered) hserved (by decide)
    have hsplit := (List.append_cons_inj_of_notMem hno List.not_mem_nil).mp hevents
    exact ⟨hsplit.2.2.symm, rfl⟩
  | disarmed hserved =>
    refine absurd (List.mem_append.mp hmem) (not_or.mpr ⟨?_, by decide⟩)
    exact notMem_running hserved (by decide)

theorem Stage.disarmed_last (h : Stage status started events) {before after : List Event}
    (hevents : events = before ++ .disarm true :: after) :
    after = [.moved .armed .disarmed] ∧ status = .disarmed := by
  have hmem : .disarm true ∈ events := hevents ▸ List.mem_append_right _ List.mem_cons_self
  cases h with
  | fresh => cases hmem
  | refused => exact absurd hmem (by decide)
  | broken => exact absurd hmem (by decide)
  | armed hserved => exact absurd hmem (notMem_running hserved (by decide))
  | triggered hserved =>
    refine absurd (List.mem_append.mp hmem) (not_or.mpr ⟨?_, by decide⟩)
    exact notMem_running hserved (by decide)
  | disarmed hserved =>
    have hno := notMem_running (e := .disarm true) hserved (by decide)
    have hsplit := (List.append_cons_inj_of_notMem hno (by decide)).mp hevents
    exact ⟨hsplit.2.2.symm, rfl⟩

theorem Stage.disarmFailed_last (h : Stage status started events) {before : List Event}
    (hevents : events = before ++ [.disarm false]) : status = .armed := by
  have hlast : events.getLast? = some (.disarm false) := by rw [hevents, List.getLast?_concat]
  cases h with
  | fresh => cases hlast
  | refused => cases hlast
  | broken => cases hlast
  | armed _ => rfl
  | triggered _ => simp at hlast
  | disarmed _ => simp at hlast

end Stages

theorem Inv.lifecycle {p : Process} (h : Inv p)
    (hfed : ∀ ok, .disarm ok ∈ p.events → p.feeding ≠ []) : Lifecycle p := by
  obtain ⟨hmoves, honce, hstatus⟩ := h.stage.moves_ok
  refine ⟨hmoves, honce, hstatus, fun _ _ => h.stage.feed, fun _ _ => h.stage.triggered_last,
    fun _ _ => h.stage.disarmed_last, fun before hevents => ?_⟩
  have harmed := h.stage.disarmFailed_last hevents
  have hnone := h.alive.resolve_right fun h => h.2 harmed
  have hdisarm : .disarm false ∈ p.events := by
    rw [hevents]
    exact List.mem_append_right _ List.mem_cons_self
  obtain ⟨ctx, hctx⟩ := List.exists_mem_of_ne_nil _ (hfed false hdisarm)
  exact ⟨harmed, ctx, hctx, hnone ▸ List.not_mem_nil⟩

theorem known_newProcess (softwareRebootEnv : String) (now : Time) :
    Known (newProcess softwareRebootEnv now) :=
  ⟨⟨.fresh, .inl rfl⟩, fun _ hdisarm => nomatch hdisarm⟩

/-- A `Start` that comes second ends with an error, and changes nothing. -/
theorem start_again {users : Nat → Routine} {s s' : State} {n : Nat}
    (hn : s.threads (.start n) = some start) (hstarted : s.world.wd.started = true)
    (hs : (system users).Step (some (.start n)) s s') :
    s'.world = s.world ∧ s'.threads (.start n) = some (.ret (.error startedMoreThanOnce)) := by
  cases hs with
  | @call p p' t _ c k r hcall he =>
    cases hn.symm.trans hcall
    obtain ⟨-, -, ⟨result, hinit⟩, -⟩ := he
    unfold init at hinit
    rw [if_pos hstarted] at hinit
    cases hinit
    exact ⟨rfl, Function.update_self _ _ _⟩
  | @crash p p' t _ c k hcall he =>
    cases hn.symm.trans hcall
    obtain ⟨halive, -, ⟨r, result, hinit⟩, hcrashed⟩ := he
    unfold init at hinit
    rw [if_pos hstarted] at hinit
    cases hinit
    cases halive.symm.trans hcrashed

/-- The state machine of the watchdog, in every state of every run: any number of
goroutines in `Start`, ticks of the feeder and users come to the mutex in any
order, and the device fails as it likes. -/
theorem watchdog_lifecycle {users : Nat → Routine} {softwareRebootEnv : String} {now : Time}
    {s : State}
    (h : (system users).Run Interaction.System.AnyStep (newProcess softwareRebootEnv now) s) :
    Lifecycle s.world ∧
    ∀ n, s.threads (.start n) = some start → s.world.wd.started = true →
      (s.world.crashed = false → ∃ s', (system users).Step (some (.start n)) s s') ∧
      ∀ s', (system users).Step (some (.start n)) s s' →
        s'.world = s.world ∧
        s'.threads (.start n) = some (.ret (.error startedMoreThanOnce)) := by
  obtain ⟨⟨hinv, hfed⟩, -⟩ :=
    (lifecycle users).reachable (known_newProcess softwareRebootEnv now) h
  refine ⟨hinv.lifecycle hfed, fun n hn hstarted => ⟨fun halive => ?_, fun s' hs => ?_⟩⟩
  · have hcall : (system users).exec (.start n) .init s.world _ _ :=
      ⟨halive, rfl, ⟨.ok 0, if_pos hstarted⟩, halive⟩
    exact ⟨_, .call hn hcall⟩
  · exact start_again hn hstarted hs

/-- A user that stops the watchdog. -/
def stopper : Routine := do
  call .stop
  return .ok ()

/-- The watchdog is armed, and then triggered. -/
theorem watchdog_lifecycle_small : ∃ s : State,
    (system fun _ => stopper).Run Interaction.System.AnyStep (newProcess "false" 0) s ∧
    s.world.events = [.start true, .moved .disarmed .armed, .moved .armed .triggered] ∧
    Lifecycle s.world := by
  have h : (system fun _ => stopper).Run Interaction.System.AnyStep (newProcess "false" 0) _ :=
    run_armed "false" 0 fun _ _ _ _ => trivial
  have h := h.start (.user 0) rfl trivial trivial
  have h := h.call (r := ()) (.user 0) rfl ⟨rfl, rfl, rfl, rfl⟩ trivial
  exact ⟨_, h, rfl, (watchdog_lifecycle h).1⟩

end SelfNodeRemediation.Watchdog
