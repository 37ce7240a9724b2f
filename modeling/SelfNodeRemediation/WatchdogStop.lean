import SelfNodeRemediation.Rebooter

/-!
# `Stop` while the watchdog is being started

`init` sets the status to `Armed` in one critical section, and `startFeeding` sets the
cancel function later, outside of it. `Reboot` runs in other goroutines and calls `Stop`
as soon as it sees an armed watchdog.

* `guarded_step`: an armed watchdog without a cancel function has a goroutine in
  `Start` that has yet to set it.
* `stop_safe`: if no `Stop` is made while there is such a goroutine, the process never
  crashes, and every `Stop` finds the cancel function.
* `stop_crashes`: otherwise `Reboot` can call a nil cancel function.
-/

namespace SelfNodeRemediation.Watchdog

open Interaction

/-! ## 1. Crashes -/

section Calls

variable {i : Thread} {c : Call} {r : Resp c} {p p' : Process}

theorem stopFeeding_crashed {status : WatchdogStatus} (halive : p.crashed = false)
    (h : (p.stopFeeding status).crashed = true) : p.wd.stop = none := by
  unfold Process.stopFeeding at h
  cases hstop : p.wd.stop with
  | none => rfl
  | some ctx =>
    rw [hstop] at h
    cases halive.symm.trans h

theorem init_crashed {result : Except GoErr Duration} {r : Except GoErr Unit}
    (h : init result p = (r, p')) : p'.crashed = p.crashed := by
  unfold init at h
  split at h
  · cases h
    rfl
  · cases result with
    | ok timeout =>
      cases h
      rfl
    | error startErr =>
      dsimp only at h
      split at h
      · cases h
        rfl
      · cases h
        rfl
      · cases h
        rfl

theorem feed_crashed {result : Except GoErr Unit} : (feed result p).crashed = p.crashed := by
  unfold feed
  split
  · rfl
  · cases result with
    | error err => rfl
    | ok _ => rfl

/-- Only the two calls of the cancel function can crash, when it is nil. -/
theorem exec_crashed (he : exec i c p r p') (halive : p.crashed = false)
    (hcrashed : p'.crashed = true) :
    (c = .stop ∨ c = .shutdown) ∧ p.wd.status = .armed ∧ p.wd.stop = none := by
  have hsame (h : p'.crashed = p.crashed) :
      (c = .stop ∨ c = .shutdown) ∧ p.wd.status = .armed ∧ p.wd.stop = none :=
    absurd (hcrashed.symm.trans (h.trans halive)) nofun
  cases c with
  | init =>
    obtain ⟨result, h⟩ := he
    exact hsame (init_crashed h)
  | shutdown =>
    obtain ⟨result, rfl⟩ := he
    unfold shutdown at hcrashed
    split at hcrashed
    · next harmed =>
      cases result with
      | error err => cases halive.symm.trans hcrashed
      | ok _ =>
        exact ⟨.inr rfl, harmed, stopFeeding_crashed (p := p.record (.disarm true)) halive hcrashed⟩
    · cases halive.symm.trans hcrashed
  | feed =>
    obtain ⟨result, rfl⟩ := he
    exact hsame feed_crashed
  | stop =>
    cases he
    unfold stop at hcrashed
    split at hcrashed
    · next harmed => exact ⟨.inl rfl, harmed, stopFeeding_crashed halive hcrashed⟩
    · cases halive.symm.trans hcrashed
  | softwareReboot =>
    obtain ⟨n, -, rfl⟩ := he
    exact hsame rfl
  | status | withCancel | ctxDone | lastFoodTime | now =>
    obtain ⟨-, rfl⟩ := he
    exact hsame rfl
  | setStop | goFeed | run =>
    cases he
    exact hsame rfl

/-- Only `init` arms the watchdog. -/
theorem exec_armed (he : exec i c p r p') (h : p'.wd.status = .armed) :
    p.wd.status = .armed ∨ c = .init := by
  cases c with
  | init => exact .inr rfl
  | shutdown =>
    obtain ⟨result, rfl⟩ := he
    unfold shutdown at h
    split at h
    · next harmed => exact .inl harmed
    · exact .inl h
  | feed =>
    obtain ⟨result, rfl⟩ := he
    unfold feed at h
    split at h
    · exact .inl h
    · next harmed => exact .inl (not_not.mp harmed)
  | stop =>
    cases he
    unfold stop at h
    split at h
    · next harmed => exact .inl harmed
    · exact .inl h
  | softwareReboot =>
    obtain ⟨n, -, rfl⟩ := he
    exact .inl h
  | status | withCancel | ctxDone | lastFoodTime | now =>
    obtain ⟨-, rfl⟩ := he
    exact .inl h
  | setStop | goFeed | run =>
    cases he
    exact .inl h

/-- An `init` that arms the watchdog succeeds. -/
theorem init_armed {result : Except GoErr Duration} {r : Except GoErr Unit}
    (h : init result p = (r, p')) (hbefore : p.wd.status ≠ .armed)
    (harmed : p'.wd.status = .armed) : r = .ok () := by
  unfold init at h
  split at h
  · cases h
    exact absurd harmed hbefore
  · cases result with
    | ok timeout =>
      cases h
      rfl
    | error startErr =>
      dsimp only at h
      split at h
      · cases h
        exact absurd harmed hbefore
      · cases h
        exact absurd harmed hbefore
      · cases h
        rfl

end Calls

/-! ## 2. A watchdog that is being started -/

/-- The places after the arming and before the cancel function is set. -/
def StartPlace.Unset : StartPlace → Prop
  | .check | .withCancel | .setStop _ => True
  | _ => False

/-- A goroutine in `Start` has yet to set the cancel function. -/
def Starting (s : State) : Prop :=
  ∃ n place, StartPlace.Unset place ∧ s.threads (.start n) = some place.rest

/-- No `Stop` is made of an armed watchdog that is being started. -/
def StopsStarted (mover : Option Thread) (s _s' : State) : Prop :=
  ∀ n k, mover = some (.user n) → s.threads (.user n) = some (.call .stop k) →
    s.world.wd.status = .armed → ¬ Starting s

/-- The process runs, and an armed watchdog without a cancel function is being
started. -/
structure Guarded (s : State) : Prop where
  alive : s.world.crashed = false
  starting : s.world.wd.status = .armed → s.world.wd.stop = none → Starting s

/-- A goroutine in `Start` that finds the watchdog armed goes on until it has set the
cancel function. -/
theorem StartPlace.Unset.next {i : Thread} {place : StartPlace} {c : Call}
    {k : Resp c → Routine} {p p' : Process} {r : Resp c} (h : place.Unset)
    (hrest : place.rest = .call c k) (he : exec i c p r p') (harmed : p.wd.status = .armed)
    (hnone : p'.wd.stop = none) : ∃ after : StartPlace, after.Unset ∧ k r = after.rest := by
  cases place with
  | check =>
    cases hrest
    obtain ⟨rfl, rfl⟩ := he
    exact ⟨.withCancel, trivial, if_neg (not_not.mpr harmed)⟩
  | withCancel =>
    cases hrest
    exact ⟨.setStop r, trivial, rfl⟩
  | setStop ctx =>
    cases hrest
    cases he
    cases hnone
  | _ => cases h

section Steps

variable {users : Nat → Routine} {i : Thread} {c : Call} {k : Resp c → Routine} {r : Resp c}
  {p p' : Process} {t : Thread → Option Routine}

/-- The goroutine that calls `init` is at the beginning of `Start`. -/
theorem Thread.At.init {k : Except GoErr Unit → Routine} (h : i.At (.call .init k) p)
    (hmay : i.may .init = true) : ∃ n, i = .start n ∧ .call .init k = StartPlace.init.rest := by
  cases i with
  | start n =>
    obtain ⟨place, hq, -⟩ := h
    cases place with
    | init => exact ⟨n, rfl, hq⟩
    | _ => cases hq
  | feeder ctx n =>
    rcases h with h | ⟨r, h⟩
    · cases h
    · cases h
  | user n => cases hmay

/-- Only users call `Stop`. -/
theorem Thread.At.stop {k : Unit → Routine} (h : i.At (.call .stop k) p) :
    ∃ n, i = .user n := by
  cases i with
  | start n =>
    obtain ⟨place, hq, -⟩ := h
    cases place <;> cases hq
  | feeder ctx n =>
    rcases h with h | ⟨r, h⟩
    · cases h
    · cases h
  | user n => exact ⟨n, rfl⟩

/-- A call keeps an armed watchdog without a cancel function in its start. -/
theorem starting_call (hguarded : Guarded ⟨p, t⟩) (hi : t i = some (.call c k))
    (hat : i.At (.call c k) p) (he : (system users).exec i c p r p')
    (harmed : p'.wd.status = .armed) (hnone : p'.wd.stop = none) :
    Starting ⟨p', Function.update t i (some (k r))⟩ := by
  obtain ⟨-, hmay, he, -⟩ := he
  by_cases hbefore : p.wd.status = .armed
  · have hunset : p.wd.stop = none := by
      cases hstop : p.wd.stop with
      | none => rfl
      | some ctx =>
        have := (exec_grows he).stop (by rw [hstop]; rfl)
        rw [hnone] at this
        cases this
    obtain ⟨n, place, hplace, hn⟩ := hguarded.starting hbefore hunset
    rcases eq_or_ne (.start n) i with rfl | hne
    · -- it is the starting goroutine itself that moves
      obtain ⟨after, hafter, hk⟩ :=
        hplace.next (Option.some.inj (hn.symm.trans hi)) he hbefore hnone
      exact ⟨n, after, hafter, by rw [← hk]; exact Function.update_self _ _ _⟩
    · exact ⟨n, place, hplace, (Function.update_of_ne hne _ _).trans hn⟩
  · cases (exec_armed he harmed).resolve_left hbefore
    obtain ⟨n, rfl, hstart⟩ := hat.init hmay
    obtain ⟨result, hinit⟩ := he
    cases hstart
    cases init_armed hinit hbefore harmed
    exact ⟨n, .check, trivial, Function.update_self _ _ _⟩

theorem guarded_step {mover : Option Thread} {s s' : State} (hlife : (lifecycle users).Holds s)
    (h : Guarded s) (hs : (system users).Step mover s s') (hok : StopsStarted mover s s') :
    Guarded s' := by
  cases hs with
  | env he =>
    cases he with
    | tick _ => exact ⟨h.alive, h.starting⟩
    | stopped => exact ⟨h.alive, h.starting⟩
  | @start p t j hnone hready =>
    refine ⟨h.alive, fun harmed hunset => ?_⟩
    obtain ⟨n, place, hplace, hn⟩ := h.starting harmed hunset
    have hne : Thread.start n ≠ j := fun heq => nomatch (heq ▸ hn).symm.trans hnone
    exact ⟨n, place, hplace, (Function.update_of_ne hne _ _).trans hn⟩
  | @call p p' t j c k r hj he =>
    exact ⟨he.2.2.2, starting_call h hj (hlife.2 j _ hj) he⟩
  | @crash p p' t j c k hj he =>
    obtain ⟨halive, hmay, ⟨r, he⟩, hcrashed⟩ := he
    obtain ⟨hc, harmed, hunset⟩ := exec_crashed he halive hcrashed
    have hstarting := h.starting harmed hunset
    rcases hc with rfl | rfl
    · have hat : j.At (.call .stop k) p := hlife.2 j _ hj
      obtain ⟨n, rfl⟩ := hat.stop
      exact absurd hstarting (hok n k rfl hj harmed)
    · have hat : j.At (.call .shutdown k) p := hlife.2 j _ hj
      have hset := (hat.shutdown hmay).1
      rw [hunset] at hset
      cases hset
  | abandon hagain => cases hagain

end Steps

/-! ## 3. Runs -/

/-- In a run that makes no `Stop` of a watchdog that is being started, an armed
watchdog without a cancel function is being started. -/
theorem guarded_run {users : Nat → Routine} {softwareRebootEnv : String} {now : Time} {s : State}
    (h : (system users).Run StopsStarted (newProcess softwareRebootEnv now) s) :
    (lifecycle users).Holds s ∧ Guarded s := by
  induction h with
  | refl =>
    exact ⟨⟨known_newProcess softwareRebootEnv now, fun _ _ hp => nomatch hp⟩, rfl, nofun⟩
  | tail _ hs ih =>
    obtain ⟨mover, hstep, hok⟩ := hs
    exact ⟨(lifecycle users).holds_step ih.1 hstep trivial, guarded_step ih.1 ih.2 hstep hok⟩

/-- If every `Stop` is made of a watchdog whose `Start` is not between the arming and
the setting of the cancel function, then in every state of the run the process has not
crashed, and a `Stop` that can be made finds the cancel function. -/
theorem stop_safe {users : Nat → Routine} {softwareRebootEnv : String} {now : Time} {s : State}
    (h : (system users).Run StopsStarted (newProcess softwareRebootEnv now) s) :
    s.world.crashed = false ∧
      ∀ n k, s.threads (.user n) = some (.call .stop k) → ¬ Starting s →
        s.world.wd.status = .armed → s.world.wd.stop.isSome = true := by
  obtain ⟨-, hguarded⟩ := guarded_run h
  refine ⟨hguarded.alive, fun n k _ hstarted harmed => ?_⟩
  cases hstop : s.world.wd.stop with
  | none => exact absurd (hguarded.starting harmed hstop) hstarted
  | some ctx => rfl

theorem not_starting_fed (ctx : Nat) (n : Nat) (q : Option Routine) (p : Process) :
    ¬ Starting ⟨p, Function.update (inStart (.goFeed ctx)) (.user n) q⟩ := by
  rintro ⟨m, place, hplace, hm⟩
  have hm : inStart (.goFeed ctx) (.start m) = some place.rest := hm
  rcases eq_or_ne m 0 with rfl | hne
  · have hrest : (StartPlace.goFeed ctx).rest = place.rest := Option.some.inj hm
    cases place with
    | check | withCancel | setStop => cases hrest
    | _ => cases hplace
  · rw [inStart, Function.update_of_ne (fun h => hne (Thread.start.inj h))] at hm
    cases hm

/-- `Reboot` triggers a watchdog that has been started. -/
theorem stop_safe_rebooted : ∃ s : State,
    (system rebooters).Run StopsStarted (newProcess "false" 0) s ∧
    s.world.wd.status = .triggered ∧ s.world.crashed = false := by
  have h : (system rebooters).Run StopsStarted (newProcess "false" 0) _ :=
    run_armed "false" 0 fun _ s _ hnone n k _ hn => absurd ((hnone n).symm.trans hn) nofun
  have h := h.start (.user 0) rfl trivial nofun
  have h := h.call (.user 0) rfl ⟨rfl, rfl, ⟨rfl, rfl⟩, rfl⟩ (by rintro _ k ⟨⟩ ⟨⟩)
  have h := h.call (.user 0) rfl ⟨rfl, rfl, ⟨rfl, rfl⟩, rfl⟩ (by rintro _ k ⟨⟩ ⟨⟩)
  rw [Function.update_idem, Function.update_idem] at h
  have h := h.call (r := ()) (.user 0) rfl ⟨rfl, rfl, rfl, rfl⟩
    fun _ _ _ _ _ => not_starting_fed 0 0 _ _
  exact ⟨_, h, rfl, (stop_safe h).1⟩

/-- `Reboot` finds the watchdog armed right after `init`, and its `Stop` calls a nil
cancel function. -/
theorem stop_crashes : ∃ s s' : State,
    (system rebooters).Run Interaction.System.AnyStep (newProcess "false" 0) s ∧
    s.threads (.user 0) = some rebootByStop ∧ s.world.wd.status = .armed ∧
    s.world.wd.stop = none ∧
    (system rebooters).Step (some (.user 0)) s s' ∧ s'.world.crashed = true := by
  have h : (system rebooters).Run Interaction.System.AnyStep (newProcess "false" 0) _ := .refl
  have h := h.start (.start 0) rfl trivial trivial
  have h := h.call (.start 0) rfl ⟨rfl, rfl, ⟨.ok minute, rfl⟩, rfl⟩ trivial
  have h := h.start (.user 0) rfl trivial trivial
  have h := h.call (.user 0) rfl ⟨rfl, rfl, ⟨rfl, rfl⟩, rfl⟩ trivial
  have h := h.call (.user 0) rfl ⟨rfl, rfl, ⟨rfl, rfl⟩, rfl⟩ trivial
  exact ⟨_, _, h, rfl, rfl, rfl, .crash rfl ⟨rfl, rfl, ⟨(), rfl⟩, rfl⟩, rfl⟩

end SelfNodeRemediation.Watchdog
