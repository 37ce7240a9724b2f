import SelfNodeRemediation.WatchdogLifecycle
import SelfNodeRemediation.Reconcile

/-!
# The rebooter

`Reboot` reads the status of the watchdog twice and then acts, while the
watchdog is started, fed and shut down by other goroutines.

* `RebootPlace`: the places in `Reboot`, and `RebootPlace.next` what one call of
  it does.
* `reboot_reboots`: a `Reboot` that returns nil has triggered the watchdog or
  called the software reboot hook, if the watchdog is not found broken between the
  two reads nor disarmed between the second one and `Stop`.
* `softwareReboot_unused`: with software reboot disabled the hook is not called, if
  `Reboot` does not find the watchdog disarmed nor a triggered one overdue.
-/

namespace SelfNodeRemediation.Watchdog

open Interaction

/-! ## 1. Rebooters -/

/-- A `disabledRebooter` with its error, or a `watchdogRebooter`, with or without a
watchdog. -/
inductive Rebooter
  | disabledRebooter (err : GoErr)
  | watchdogRebooter (wd : Bool)

/-- The choice of the rebooter in `initSelfNodeRemediationAgent`. There is a watchdog
unless `NewLinux` fails. -/
def initSelfNodeRemediationAgent (softwareRebootEnv : String) (newLinux : Except GoErr Unit) :
    Except GoErr Rebooter := do
  let softwareRebootEnabled ← isSoftwareRebootEnabled softwareRebootEnv
  match newLinux with
  | .error watchdogErr =>
    if !softwareRebootEnabled then return .disabledRebooter watchdogErr
    else return .watchdogRebooter false
  | .ok _ => return .watchdogRebooter true

/-- Tried in this order, until one succeeds. -/
def rebootCommands : List (List String) :=
  [["systemctl", "reboot", "--force", "--force"],
    ["nsenter", "-m/proc/1/ns/mnt", "--", "systemctl", "reboot", "--force", "--force"],
    ["reboot", "-f"],
    ["nsenter", "-m/proc/1/ns/mnt", "--", "reboot", "-f"],
    ["nsenter", "-m/proc/1/ns/mnt", "/bin/bash", "-c", "echo b > /proc/sysrq-trigger"]]

def runCommands : List (List String) → Routine
  | [] => return .ok ()
  | cmd :: cmds => do
    let result ← call (.run cmd)
    match result with
    | .error _ => runCommands cmds
    | .ok _ => return .ok ()

/-- The software reboot hook. Its log entry tells who has called it. -/
def softwareReboot : Routine := do
  call .softwareReboot
  runCommands rebootCommands

def isWatchdogRebootStuck (now lastFoodTime : Time) : Bool :=
  Time.sub now lastFoodTime > timeToAssumeRebootHasStarted

/-- The watchdog is triggered: wait, and intervene if it is stuck. -/
def awaitRebootSince (lastFoodTime : Time) : Routine := do
  let now ← call .now
  if isWatchdogRebootStuck now lastFoodTime then softwareReboot else return .ok ()

def awaitReboot : Routine := do
  let lastFoodTime ← call .lastFoodTime
  awaitRebootSince lastFoodTime

/-- Stop feeding the watchdog. -/
def rebootByStop : Routine := do
  call .stop
  return .ok ()

def unexpectedWatchdogStatus : GoErr := .new "unexpected watchdog status"

/-- The status is read once more for the log. -/
def logUnexpectedStatus : Routine := do
  let _ ← call .status
  return .error unexpectedWatchdogStatus

/-- `Reboot` from its second look at the status on. -/
def rebootByStatus : Routine := do
  let status ← call .status
  match status with
  | .triggered => awaitReboot
  | .disarmed => softwareReboot
  | .armed => rebootByStop
  | .malfunction => logUnexpectedStatus

def Rebooter.reboot : Rebooter → Routine
  | .disabledRebooter err => return .error err
  | .watchdogRebooter false => softwareReboot
  | .watchdogRebooter true => do
    let status ← call .status
    if status = .malfunction then softwareReboot else rebootByStatus

/-! ## 2. Where `Reboot` is -/

inductive RebootPlace
  | entry
  | decide
  | stop
  | lastFood
  | now (lastFoodTime : Time)
  | hook
  | commands (cmds : List (List String))
  | log
  | ended (r : Except GoErr Unit)

def RebootPlace.rest : RebootPlace → Routine
  | .entry => (Rebooter.watchdogRebooter true).reboot
  | .decide => rebootByStatus
  | .stop => rebootByStop
  | .lastFood => awaitReboot
  | .now lastFoodTime => awaitRebootSince lastFoodTime
  | .hook => softwareReboot
  | .commands cmds => runCommands cmds
  | .log => logUnexpectedStatus
  | .ended r => .ret r

/-- The places one call apart, with what the call finds and does. -/
inductive Goes (n : Nat) (p p' : Process) : RebootPlace → RebootPlace → Prop
  | broken : p.wd.status = .malfunction → p' = p → Goes n p p' .entry .hook
  | whole : p.wd.status ≠ .malfunction → p' = p → Goes n p p' .entry .decide
  | triggered : p.wd.status = .triggered → p' = p → Goes n p p' .decide .lastFood
  | disarmed : p.wd.status = .disarmed → p' = p → Goes n p p' .decide .hook
  | armed : p.wd.status = .armed → p' = p → Goes n p p' .decide .stop
  | unexpected : p.wd.status = .malfunction → p' = p → Goes n p p' .decide .log
  | stopped : p' = Watchdog.stop p → Goes n p p' .stop (.ended (.ok ()))
  | fed : p' = p → Goes n p p' .lastFood (.now p.wd.lastFoodTime)
  | stuck {t : Time} : isWatchdogRebootStuck p.now t = true → p' = p → Goes n p p' (.now t) .hook
  | waiting {t : Time} : isWatchdogRebootStuck p.now t = false → p' = p →
      Goes n p p' (.now t) (.ended (.ok ()))
  | hooked : p' = { p with softwareReboots := n :: p.softwareReboots } →
      Goes n p p' .hook (.commands rebootCommands)
  | failed {cmd : List String} {cmds : List (List String)} : p' = p →
      Goes n p p' (.commands (cmd :: cmds)) (.commands cmds)
  | ran {cmds : List (List String)} : p' = p → Goes n p p' (.commands cmds) (.ended (.ok ()))
  | logged : p' = p → Goes n p p' .log (.ended (.error unexpectedWatchdogStatus))

theorem RebootPlace.next {n : Nat} {place : RebootPlace} {c : Call} {k : Resp c → Routine}
    {p p' : Process} {r : Resp c} (hrest : .call c k = place.rest)
    (he : exec (.user n) c p r p') :
    ∃ after : RebootPlace, k r = after.rest ∧ Goes n p p' place after := by
  cases place with
  | entry =>
    cases hrest
    obtain ⟨rfl, rfl⟩ := he
    by_cases hbroken : p'.wd.status = .malfunction
    · exact ⟨.hook, if_pos hbroken, .broken hbroken rfl⟩
    · exact ⟨.decide, if_neg hbroken, .whole hbroken rfl⟩
  | decide =>
    cases hrest
    obtain ⟨rfl, rfl⟩ := he
    show ∃ after : RebootPlace, (match p'.wd.status with
      | .triggered => awaitReboot
      | .disarmed => softwareReboot
      | .armed => rebootByStop
      | .malfunction => logUnexpectedStatus) = after.rest ∧ _
    cases hstatus : p'.wd.status with
    | triggered => exact ⟨.lastFood, rfl, .triggered hstatus rfl⟩
    | disarmed => exact ⟨.hook, rfl, .disarmed hstatus rfl⟩
    | armed => exact ⟨.stop, rfl, .armed hstatus rfl⟩
    | malfunction => exact ⟨.log, rfl, .unexpected hstatus rfl⟩
  | stop =>
    cases hrest
    exact ⟨.ended _, rfl, .stopped he⟩
  | lastFood =>
    cases hrest
    obtain ⟨rfl, rfl⟩ := he
    exact ⟨.now _, rfl, .fed rfl⟩
  | now t =>
    cases hrest
    obtain ⟨rfl, rfl⟩ := he
    by_cases hstuck : isWatchdogRebootStuck p'.now t = true
    · exact ⟨.hook, if_pos hstuck, .stuck hstuck rfl⟩
    · exact ⟨.ended _, if_neg hstuck, .waiting (Bool.eq_false_iff.mpr hstuck) rfl⟩
  | hook =>
    cases hrest
    obtain ⟨m, hm, rfl⟩ := he
    cases hm
    exact ⟨.commands _, rfl, .hooked rfl⟩
  | commands cmds =>
    cases cmds with
    | nil => cases hrest
    | cons cmd cmds =>
      cases hrest
      cases he
      cases r with
      | error err => exact ⟨.commands cmds, rfl, .failed rfl⟩
      | ok _ => exact ⟨.ended _, rfl, .ran rfl⟩
  | log =>
    cases hrest
    obtain ⟨-, rfl⟩ := he
    exact ⟨.ended _, rfl, .logged rfl⟩
  | ended r => cases hrest

/-! ## 3. `Reboot` means a reboot -/

/-- The watchdog is triggered, or the hook was called. -/
def Rebooting (n : Nat) (p : Process) : Prop :=
  p.wd.status = .triggered ∨ n ∈ p.softwareReboots

/-- What holds at a place of a `Reboot` that is not disturbed. -/
def RebootPlace.Sound (n : Nat) (p : Process) : RebootPlace → Prop
  | .entry | .hook => True
  | .decide => p.wd.status ≠ .malfunction
  | .stop => p.wd.status = .armed ∨ p.wd.status = .triggered
  | .lastFood | .now _ => p.wd.status = .triggered
  | .commands _ => n ∈ p.softwareReboots
  | .log => False
  | .ended r => r = .ok () ∧ Rebooting n p

/-- While the `Reboot` of a user is between its two looks at the status, the watchdog
does not fail to start; while it is between finding it armed and stopping it, the
watchdog is not disarmed. -/
def Undisturbed (n : Nat) (_ : Option Thread) (s s' : State) : Prop :=
  (s.threads (.user n) = some rebootByStatus → s.world.wd.status ≠ .malfunction →
    s'.world.wd.status ≠ .malfunction) ∧
  (s.threads (.user n) = some rebootByStop → s.world.wd.status = .armed →
    s'.world.wd.status ≠ .disarmed)

section Sound

variable {c : Call} {p p' : Process}

/-- What is triggered or armed has been started, and is not started again. -/
theorem Inv.started (h : Inv p) (hstatus : p.wd.status = .armed ∨ p.wd.status = .triggered) :
    p.wd.started = true := by
  cases hstarted : p.wd.started with
  | true => rfl
  | false =>
    have hdisarmed := (hstarted ▸ h.stage).unstarted.1
    rw [hdisarmed] at hstatus
    rcases hstatus with h | h
    · cases h
    · cases h

theorem Effect.of_triggered (he : Effect c p p') (h : Inv p) (ht : p.wd.status = .triggered) :
    p'.wd.status = .triggered := by
  have hstarted := h.started (.inr ht)
  cases he with
  | none hstatus => exact hstatus.trans ht
  | refused hunstarted => cases hunstarted.symm.trans hstarted
  | broken hunstarted => cases hunstarted.symm.trans hstarted
  | armed hunstarted => cases hunstarted.symm.trans hstarted
  | served _ harmed => cases harmed.symm.trans ht
  | triggered harmed => cases harmed.symm.trans ht
  | disarmed _ harmed => cases harmed.symm.trans ht

theorem Effect.of_armed (he : Effect c p p') (h : Inv p) (ha : p.wd.status = .armed) :
    p'.wd.status = .armed ∨ p'.wd.status = .triggered ∨ p'.wd.status = .disarmed := by
  have hstarted := h.started (.inl ha)
  cases he with
  | none hstatus => exact .inl (hstatus.trans ha)
  | refused hunstarted => cases hunstarted.symm.trans hstarted
  | broken hunstarted => cases hunstarted.symm.trans hstarted
  | armed hunstarted => cases hunstarted.symm.trans hstarted
  | served _ _ _ hstatus => exact .inl hstatus
  | triggered _ hstatus => exact .inr (.inl hstatus)
  | disarmed _ _ hstatus => exact .inr (.inr hstatus)

theorem Rebooting.effect {n : Nat} (h : Rebooting n p) (hinv : Inv p) (he : Effect c p p')
    (hg : Grows p p') : Rebooting n p' :=
  h.imp (he.of_triggered hinv) fun hmem => hg.softwareReboots hmem

/-- What others do keeps the place sound. -/
theorem RebootPlace.Sound.effect {n : Nat} {place : RebootPlace} (h : place.Sound n p)
    (hinv : Inv p) (he : Effect c p p') (hg : Grows p p')
    (hbroken : place = .decide → p'.wd.status ≠ .malfunction)
    (hdisarmed : place = .stop → p.wd.status = .armed → p'.wd.status ≠ .disarmed) :
    place.Sound n p' := by
  cases place with
  | entry => trivial
  | hook => trivial
  | decide => exact hbroken rfl
  | stop =>
    rcases h with harmed | htriggered
    · rcases he.of_armed hinv harmed with h | h | h
      · exact .inl h
      · exact .inr h
      · exact absurd h (hdisarmed rfl harmed)
    · exact .inr (he.of_triggered hinv htriggered)
  | lastFood => exact he.of_triggered hinv h
  | now _ => exact he.of_triggered hinv h
  | commands _ => exact hg.softwareReboots h
  | log => exact h
  | ended r => exact ⟨h.1, h.2.effect hinv he hg⟩

theorem RebootPlace.Sound.elapses {n : Nat} {place : RebootPlace} (h : place.Sound n p)
    (he : Elapses p p') : place.Sound n p' := by
  cases he with
  | tick _ => cases place <;> exact h
  | stopped => cases place <;> exact h

/-- A `Stop` that does not crash leaves a watchdog triggered that was not disarmed. -/
theorem stop_triggers (h : p.wd.status = .armed ∨ p.wd.status = .triggered)
    (hend : (stop p).crashed = false) : (stop p).wd.status = .triggered := by
  unfold stop at hend ⊢
  rcases h with harmed | htriggered
  · rw [if_pos harmed] at hend ⊢
    unfold Process.stopFeeding at hend ⊢
    cases hstop : p.wd.stop with
    | none =>
      rw [hstop] at hend
      cases hend
    | some ctx => rfl
  · rw [if_neg (htriggered ▸ nofun)]
    exact htriggered

/-- The calls of `Reboot` itself lead from one sound place to the next. -/
theorem Goes.sound {n : Nat} {place after : RebootPlace} (hgo : Goes n p p' place after)
    (h : place.Sound n p) (hend : p'.crashed = false) : after.Sound n p' := by
  cases hgo with
  | broken _ _ => trivial
  | whole hstatus hp => exact hp ▸ hstatus
  | triggered hstatus hp => exact hp ▸ hstatus
  | disarmed _ _ => trivial
  | armed hstatus hp => exact hp ▸ .inl hstatus
  | unexpected hstatus _ => exact h hstatus
  | stopped hp =>
    subst hp
    exact ⟨rfl, .inl (stop_triggers h hend)⟩
  | fed hp => exact hp ▸ h
  | stuck _ _ => trivial
  | waiting _ hp => exact ⟨rfl, hp ▸ .inl h⟩
  | hooked hp => exact hp ▸ List.mem_cons_self
  | failed hp => exact hp ▸ h
  | ran hp => exact ⟨rfl, hp ▸ .inr h⟩
  | logged _ => exact h.elim

end Sound

/-- A user in `Reboot` is at a sound place. -/
def InReboot (n : Nat) (i : Thread) (q : Routine) (p : Process) : Prop :=
  i = .user n → ∃ place : RebootPlace, q = place.rest ∧ place.Sound n p

section Runs

variable {users : Nat → Routine} {n : Nat}

theorem InReboot.effect {i : Thread} {q : Routine} {c : Call} {p p' : Process} {s s' : State}
    {mover : Option Thread} (h : InReboot n i q p) (hi : s.threads i = some q) (hp : Known p)
    (he : Effect c p p') (hg : Grows p p') (hok : Undisturbed n mover s s') (hs : s.world = p)
    (hs' : s'.world = p') : InReboot n i q p' := by
  subst hs hs'
  intro hn
  subst hn
  obtain ⟨place, rfl, hsound⟩ := h rfl
  refine ⟨place, rfl, hsound.effect hp.1 he hg ?_ ?_⟩
  · rintro rfl
    exact hok.1 hi hsound
  · rintro rfl
    exact hok.2 hi

def rebootProof (hn : users n = (Rebooter.watchdogRebooter true).reboot) :
    Annotation (system users) (Undisturbed n) where
  inv := Known
  asserts i q p := i.At q p ∧ InReboot n i q p
  inv_env := (lifecycle users).inv_env
  inv_exec hp hat he := (lifecycle users).inv_exec hp hat.1 he
  inv_crash hp hat he := (lifecycle users).inv_crash hp hat.1 he
  start := by
    intro i p hp hready
    refine ⟨(lifecycle users).start hp hready, ?_⟩
    rintro rfl
    exact ⟨.entry, hn, trivial⟩
  next := by
    rintro i c k p r p' t hp hi ⟨hat, hreboot⟩ he hok
    refine ⟨(lifecycle users).next hp hi hat he trivial, ?_⟩
    rintro rfl
    obtain ⟨place, hq, hsound⟩ := hreboot rfl
    obtain ⟨-, -, hexec, hend⟩ := he
    obtain ⟨after, hafter, hgo⟩ := RebootPlace.next hq hexec
    exact ⟨after, hafter, hgo.sound hsound hend⟩
  env := by
    rintro i q p p' hp ⟨hat, hreboot⟩ he
    refine ⟨(lifecycle users).env hp hat he, fun hi => ?_⟩
    obtain ⟨place, hq, hsound⟩ := hreboot hi
    exact ⟨place, hq, hsound.elapses he⟩
  free := by
    rintro i j q c k p r p' t hne hp hi ⟨hat, hreboot⟩ hj he hok
    have hg := exec_grows he.2.2.1
    exact ⟨hat.grows hg, hreboot.effect hi hp (hj.1.effect he.2.1 he.2.2.1) hg hok rfl rfl⟩
  crash := by
    rintro i j q c k p p' t hp hi ⟨hat, hreboot⟩ hj he hok
    obtain ⟨-, hmay, ⟨r, hexec⟩, -⟩ := he
    have hg := exec_grows hexec
    exact ⟨hat.grows hg, hreboot.effect hi hp (hj.1.effect hmay hexec) hg hok rfl rfl⟩

/-- A user that calls `Reboot` with a watchdog, while any number of goroutines start,
feed, shut down and use it. Undisturbed, the call does not end with an error, and it
has triggered the watchdog or called the hook when it ends. -/
theorem reboot_reboots {softwareRebootEnv : String} {now : Time} {s : State}
    (hn : users n = (Rebooter.watchdogRebooter true).reboot)
    (h : (system users).Run (Undisturbed n) (newProcess softwareRebootEnv now) s) :
    s.threads (.user n) ≠ some (.ret (.error unexpectedWatchdogStatus)) ∧
    (s.threads (.user n) = some (.ret (.ok ())) →
      s.world.wd.status = .triggered ∨ n ∈ s.world.softwareReboots) := by
  obtain ⟨-, hthreads⟩ := (rebootProof hn).reachable (known_newProcess softwareRebootEnv now) h
  have hended {r : Except GoErr Unit} (hr : s.threads (.user n) = some (.ret r)) :
      r = .ok () ∧ Rebooting n s.world := by
    obtain ⟨place, hrest, hsound⟩ := (hthreads (.user n) _ hr).2 rfl
    cases place with
    | ended r' =>
      cases hrest
      exact hsound
    | commands cmds =>
      cases cmds with
      | nil =>
        cases hrest
        exact ⟨rfl, .inr hsound⟩
      | cons cmd cmds => cases hrest
    | _ => cases hrest
  exact ⟨fun hr => absurd (hended hr).1 nofun, fun hr => (hended hr).2⟩

end Runs

/-- All users are rebooters. -/
def rebooters : Nat → Routine := fun _ => (Rebooter.watchdogRebooter true).reboot

/-- `Reboot` triggers an armed watchdog, and returns. -/
theorem reboot_reboots_small : ∃ s : State,
    (system rebooters).Run (Undisturbed 0) (newProcess "false" 0) s ∧
    s.threads (.user 0) = some (.ret (.ok ())) ∧
    (s.world.wd.status = .triggered ∨ 0 ∈ s.world.softwareReboots) := by
  have h : (system rebooters).Run (Undisturbed 0) (newProcess "false" 0) _ :=
    run_armed "false" 0 fun _ s _ hnone =>
      ⟨fun h => absurd ((hnone 0).symm.trans h) nofun,
        fun h => absurd ((hnone 0).symm.trans h) nofun⟩
  have h := h.start (.user 0) rfl trivial ⟨fun _ _ => nofun, fun _ _ => nofun⟩
  have h := h.call (.user 0) rfl ⟨rfl, rfl, ⟨rfl, rfl⟩, rfl⟩ ⟨fun _ _ => nofun, fun _ _ => nofun⟩
  have h := h.call (.user 0) rfl ⟨rfl, rfl, ⟨rfl, rfl⟩, rfl⟩ ⟨fun _ _ => nofun, fun _ _ => nofun⟩
  have h := h.call (r := ()) (.user 0) rfl ⟨rfl, rfl, rfl, rfl⟩
    ⟨fun _ _ => nofun, fun _ _ => nofun⟩
  exact ⟨_, h, rfl, (reboot_reboots rfl h).2 rfl⟩

/-- If the device fails to start between the two reads, `Reboot` ends with an error.
If it is disarmed before `Stop`, because the pod is stopped, nothing reboots. -/
theorem reboot_disturbed :
    (∃ s : State, (system rebooters).Run Interaction.System.AnyStep (newProcess "true" 0) s ∧
      s.threads (.user 0) = some (.ret (.error unexpectedWatchdogStatus))) ∧
    (∃ s : State, (system rebooters).Run Interaction.System.AnyStep (newProcess "true" 0) s ∧
      s.threads (.user 0) = some (.ret (.ok ())) ∧ s.world.wd.status = .disarmed ∧
      s.world.softwareReboots = []) := by
  constructor
  · have h : (system rebooters).Run Interaction.System.AnyStep (newProcess "true" 0) _ := .refl
    have h := h.start (.start 0) rfl trivial trivial
    have h := h.start (.user 0) rfl trivial trivial
    have h := h.call (.user 0) rfl ⟨rfl, rfl, ⟨rfl, rfl⟩, rfl⟩ trivial
    have h := h.call (.start 0) rfl
      ⟨rfl, rfl, ⟨.error (.new "open /dev/watchdog: device or resource busy"), rfl⟩, rfl⟩ trivial
    have h := h.call (.user 0) rfl ⟨rfl, rfl, ⟨rfl, rfl⟩, rfl⟩ trivial
    have h := h.call (.user 0) rfl ⟨rfl, rfl, ⟨rfl, rfl⟩, rfl⟩ trivial
    exact ⟨_, h, rfl⟩
  · have h : (system rebooters).Run Interaction.System.AnyStep (newProcess "true" 0) _ :=
      run_armed "true" 0 fun _ _ _ _ => trivial
    have h := h.call (r := ()) (.start 0) rfl ⟨rfl, rfl, rfl, rfl⟩ trivial
    have h := h.start (.user 0) rfl trivial trivial
    have h := h.call (.user 0) rfl ⟨rfl, rfl, ⟨rfl, rfl⟩, rfl⟩ trivial
    have h := h.call (.user 0) rfl ⟨rfl, rfl, ⟨rfl, rfl⟩, rfl⟩ trivial
    have h := h.env .stopped trivial
    have h := h.call (r := ()) (.start 0) rfl ⟨rfl, rfl, ⟨rfl, rfl⟩, rfl⟩ trivial
    have h := h.call (r := ()) (.start 0) rfl ⟨rfl, rfl, ⟨.ok (), rfl⟩, rfl⟩ trivial
    have h := h.call (r := ()) (.user 0) rfl ⟨rfl, rfl, rfl, rfl⟩ trivial
    exact ⟨_, h, rfl, rfl, rfl⟩

/-! ## 4. Software reboot disabled -/

/-- The hook was not called, and is not about to be. -/
def RebootPlace.Quiet : RebootPlace → Prop
  | .hook | .commands _ => False
  | _ => True

/-- The `Reboot` of the user does not decide on a disarmed watchdog, and does not come
back to a triggered one later than the time to assume that the reboot has started. -/
def InTime (n : Nat) (mover : Option Thread) (s _ : State) : Prop :=
  mover = some (.user n) →
    (s.threads (.user n) = some rebootByStatus → s.world.wd.status ≠ .disarmed) ∧
    ∀ lastFoodTime, s.threads (.user n) = some (awaitRebootSince lastFoodTime) →
      Time.sub s.world.now lastFoodTime ≤ timeToAssumeRebootHasStarted

/-- What is known while software reboot is disabled. -/
structure Disabled (n : Nat) (p : Process) : Prop where
  known : Known p
  env : isSoftwareRebootEnabled p.softwareRebootEnv = .ok false
  whole : p.wd.status ≠ .malfunction
  unused : n ∉ p.softwareReboots

section Disabled

variable {users : Nat → Routine} {n : Nat} {i : Thread} {c : Call} {k : Resp c → Routine}
  {p p' : Process} {r : Resp c}

/-- A watchdog that fails to start is only used with software reboot enabled. -/
theorem Effect.whole (he : Effect c p p')
    (henv : isSoftwareRebootEnabled p.softwareRebootEnv = .ok false)
    (h : p.wd.status ≠ .malfunction) : p'.wd.status ≠ .malfunction := by
  cases he with
  | none hstatus => exact hstatus ▸ h
  | refused _ hstatus => exact hstatus ▸ h
  | broken _ henabled => cases henv.symm.trans henabled
  | armed _ hstatus => exact hstatus ▸ nofun
  | served _ _ _ hstatus => exact hstatus ▸ nofun
  | triggered _ hstatus => exact hstatus ▸ nofun
  | disarmed _ _ hstatus => exact hstatus ▸ nofun

/-- A user in `Reboot` is at a place without the hook. -/
def InQuiet (n : Nat) (i : Thread) (q : Routine) : Prop :=
  i = .user n → ∃ place : RebootPlace, q = place.rest ∧ place.Quiet

theorem Goes.quiet {place after : RebootPlace} (hgo : Goes n p p' place after)
    (h : place.Quiet) (hwhole : p.wd.status ≠ .malfunction)
    (hdecide : place = .decide → p.wd.status ≠ .disarmed)
    (hnow : ∀ t, place = .now t → Time.sub p.now t ≤ timeToAssumeRebootHasStarted) :
    after.Quiet := by
  cases hgo with
  | broken hstatus => exact absurd hstatus hwhole
  | disarmed hstatus => exact absurd hstatus (hdecide rfl)
  | stuck hstuck =>
    have hlate := of_decide_eq_true hstuck
    exact absurd hlate (Int64.not_lt.mpr (hnow _ rfl))
  | hooked => exact h
  | failed => exact h
  | _ => trivial

/-- The hook is not called at a place without it. -/
theorem InQuiet.unused (h : InQuiet n i (.call c k)) (he : exec i c p r p')
    (hunused : n ∉ p.softwareReboots) : n ∉ p'.softwareReboots := by
  rcases exec_same he with hsame | ⟨ctx, -, rfl⟩ | ⟨ctx, -, rfl⟩ | ⟨m, rfl, rfl, rfl⟩
  · exact hsame.softwareReboots ▸ hunused
  · exact hunused
  · exact hunused
  · intro hmem
    rcases List.mem_cons.mp hmem with rfl | hmem
    · obtain ⟨place, hrest, hquiet⟩ := h rfl
      cases place with
      | hook => exact hquiet
      | commands cmds => exact hquiet
      | _ => cases hrest
    · exact hunused hmem

theorem Disabled.exec (hp : Disabled n p) (hat : i.At (.call c k) p)
    (h : InQuiet n i (.call c k)) (hmay : i.may c = true) (he : exec i c p r p') :
    Disabled n p' where
  known := known_exec hp.known hat hmay he
  env := (exec_grows he).env ▸ hp.env
  whole := (hat.effect hmay he).whole hp.env hp.whole
  unused := h.unused he hp.unused

theorem Disabled.elapses (hp : Disabled n p) (he : Elapses p p') : Disabled n p' where
  known := known_elapses hp.known he
  env := (same_elapses he).env ▸ hp.env
  whole := by
    have hwhole := hp.whole
    cases he with
    | tick _ => exact hwhole
    | stopped => exact hwhole
  unused := (same_elapses he).softwareReboots ▸ hp.unused

/-- The rebooter that is chosen with software reboot disabled starts at a place
without the hook. -/
theorem init_quiet {softwareRebootEnv : String} {newLinux : Except GoErr Unit}
    {rebooter : Rebooter} (henv : isSoftwareRebootEnabled softwareRebootEnv = .ok false)
    (h : initSelfNodeRemediationAgent softwareRebootEnv newLinux = .ok rebooter) :
    ∃ place : RebootPlace, rebooter.reboot = place.rest ∧ place.Quiet := by
  unfold initSelfNodeRemediationAgent at h
  rw [henv] at h
  cases newLinux with
  | error watchdogErr =>
    cases h
    exact ⟨.ended (.error watchdogErr), rfl, trivial⟩
  | ok _ =>
    cases h
    exact ⟨.entry, rfl, trivial⟩

def disabledProof (hn : ∃ place : RebootPlace, users n = place.rest ∧ place.Quiet) :
    Annotation (system users) (InTime n) where
  inv := Disabled n
  asserts i q p := i.At q p ∧ InQuiet n i q
  inv_env := Disabled.elapses
  inv_exec := by
    rintro i c k p r p' hp ⟨hat, hquiet⟩ ⟨-, hmay, he, -⟩
    exact hp.exec hat hquiet hmay he
  inv_crash := by
    rintro i c k p p' hp ⟨hat, hquiet⟩ ⟨-, hmay, ⟨r, he⟩, -⟩
    exact hp.exec hat hquiet hmay he
  start := by
    intro i p hp hready
    refine ⟨(lifecycle users).start hp.known hready, ?_⟩
    rintro rfl
    exact hn
  next := by
    rintro i c k p r p' t hp hi ⟨hat, hquiet⟩ he hok
    refine ⟨(lifecycle users).next hp.known hi hat he trivial, ?_⟩
    rintro rfl
    obtain ⟨place, hrest, hplace⟩ := hquiet rfl
    obtain ⟨after, hafter, hgo⟩ := RebootPlace.next hrest he.2.2.1
    obtain ⟨hdecide, hnow⟩ := hok rfl
    refine ⟨after, hafter, hgo.quiet hplace hp.whole ?_ ?_⟩
    · rintro rfl
      exact hdecide (hi.trans (congrArg some hrest))
    · rintro lastFoodTime rfl
      exact hnow lastFoodTime (hi.trans (congrArg some hrest))
  env hp hat he := ⟨(lifecycle users).env hp.known hat.1 he, hat.2⟩
  free hne hp hi hat hj he _ :=
    ⟨(lifecycle users).free hne hp.known hi hat.1 hj.1 he trivial, hat.2⟩
  crash hp hi hat hj he _ :=
    ⟨(lifecycle users).crash hp.known hi hat.1 hj.1 he trivial, hat.2⟩

/-- With software reboot disabled, whether or not there is a watchdog: a user whose
calls of `Reboot` are in time does not call the hook. -/
theorem softwareReboot_unused {softwareRebootEnv : String} {now : Time}
    {newLinux : Except GoErr Unit} {rebooter : Rebooter} {s : State}
    (henv : isSoftwareRebootEnabled softwareRebootEnv = .ok false)
    (hinit : initSelfNodeRemediationAgent softwareRebootEnv newLinux = .ok rebooter)
    (hn : users n = rebooter.reboot)
    (h : (system users).Run (InTime n) (newProcess softwareRebootEnv now) s) :
    n ∉ s.world.softwareReboots := by
  have hstart : ∃ place : RebootPlace, users n = place.rest ∧ place.Quiet :=
    hn ▸ init_quiet henv hinit
  have h₀ : Disabled n (newProcess softwareRebootEnv now) :=
    ⟨known_newProcess softwareRebootEnv now, henv, nofun, List.not_mem_nil⟩
  exact ((disabledProof hstart).reachable h₀ h).1.unused

end Disabled

/-- `Reboot` triggers an armed watchdog. -/
theorem softwareReboot_unused_small : ∃ s : State,
    (system rebooters).Run (InTime 0) (newProcess "false" 0) s ∧
    s.threads (.user 0) = some (.ret (.ok ())) ∧ 0 ∉ s.world.softwareReboots := by
  have h : (system rebooters).Run (InTime 0) (newProcess "false" 0) _ :=
    run_armed "false" 0 fun _ s _ hnone _ =>
      ⟨fun h => absurd ((hnone 0).symm.trans h) nofun,
        fun _ h => absurd ((hnone 0).symm.trans h) nofun⟩
  have h := h.start (.user 0) rfl trivial nofun
  have h := h.call (.user 0) rfl ⟨rfl, rfl, ⟨rfl, rfl⟩, rfl⟩ fun _ => ⟨fun _ => nofun, nofun⟩
  have h := h.call (.user 0) rfl ⟨rfl, rfl, ⟨rfl, rfl⟩, rfl⟩ fun _ => ⟨fun _ => nofun, nofun⟩
  have h := h.call (r := ()) (.user 0) rfl ⟨rfl, rfl, rfl, rfl⟩
    fun _ => ⟨fun _ => nofun, nofun⟩
  have hinit : initSelfNodeRemediationAgent "false" (.ok ()) = .ok (.watchdogRebooter true) := rfl
  exact ⟨_, h, rfl, softwareReboot_unused rfl hinit rfl h⟩

/-- The hook is called although software reboot is disabled: by a `Reboot` that comes
before the watchdog is started, and by one that finds a triggered watchdog that was
never fed. -/
theorem softwareReboot_used :
    initSelfNodeRemediationAgent "false" (.ok ()) = .ok (.watchdogRebooter true) ∧
    (∃ s : State, (system rebooters).Run Interaction.System.AnyStep (newProcess "false" 0) s ∧
      0 ∈ s.world.softwareReboots) ∧
    (∃ s : State, (system rebooters).Run Interaction.System.AnyStep (newProcess "false" 0) s ∧
      s.world.wd.status = .triggered ∧ 1 ∈ s.world.softwareReboots) := by
  refine ⟨rfl, ?_, ?_⟩
  · have h : (system rebooters).Run Interaction.System.AnyStep (newProcess "false" 0) _ := .refl
    have h := h.start (.user 0) rfl trivial trivial
    have h := h.call (.user 0) rfl ⟨rfl, rfl, ⟨rfl, rfl⟩, rfl⟩ trivial
    have h := h.call (.user 0) rfl ⟨rfl, rfl, ⟨rfl, rfl⟩, rfl⟩ trivial
    have h := h.call (r := ()) (.user 0) rfl ⟨rfl, rfl, ⟨0, rfl, rfl⟩, rfl⟩ trivial
    exact ⟨_, h, List.mem_cons_self⟩
  · have h : (system rebooters).Run Interaction.System.AnyStep (newProcess "false" 0) _ :=
      run_armed "false" 0 fun _ _ _ _ => trivial
    have h := h.start (.user 0) rfl trivial trivial
    have h := h.call (.user 0) rfl ⟨rfl, rfl, ⟨rfl, rfl⟩, rfl⟩ trivial
    have h := h.call (.user 0) rfl ⟨rfl, rfl, ⟨rfl, rfl⟩, rfl⟩ trivial
    have h := h.call (r := ()) (.user 0) rfl ⟨rfl, rfl, rfl, rfl⟩ trivial
    have h := h.start (.user 1) rfl trivial trivial
    have h := h.call (.user 1) rfl ⟨rfl, rfl, ⟨rfl, rfl⟩, rfl⟩ trivial
    have h := h.call (.user 1) rfl ⟨rfl, rfl, ⟨rfl, rfl⟩, rfl⟩ trivial
    have h := h.call (.user 1) rfl ⟨rfl, rfl, ⟨rfl, rfl⟩, rfl⟩ trivial
    have h := h.call (.user 1) rfl ⟨rfl, rfl, ⟨rfl, rfl⟩, rfl⟩ trivial
    have h := h.call (r := ()) (.user 1) rfl ⟨rfl, rfl, ⟨1, rfl, rfl⟩, rfl⟩ trivial
    exact ⟨_, h, rfl, List.mem_cons_self⟩

end SelfNodeRemediation.Watchdog
