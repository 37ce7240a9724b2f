import SelfNodeRemediation.Lib.Threads
import SelfNodeRemediation.Api

/-!
# The synchronized watchdog

`synchronizedWatchdog` is shared by three kinds of goroutines: the one that runs
`Start`, the feeder that it starts, and those that call the exported methods.
Each section under the mutex is one call of its thread, and so is each action
outside of it; the device answers as it likes.

* `exec_effect`: what one call does to the status, and what it asks of the device.
* `exec_same`, `exec_grows`: what a call leaves alone, and what no call takes back.

The users of the watchdog are arbitrary programs over the exported methods. A
tick of the feeder that has found its context alive is a thread of its own, so
that it may come to the mutex at any later time. Calling the cancel function
before it is set is a panic, which ends the process.
-/

namespace SelfNodeRemediation.Watchdog

open Interaction

/-! ## 1. State -/

inductive WatchdogStatus
  | disarmed
  | armed
  | triggered
  | malfunction
deriving DecidableEq, Repr

structure SynchronizedWatchdog where
  timeout : Duration
  status : WatchdogStatus
  /-- The context that the cancel function cancels; nil at first. -/
  stop : Option Nat
  lastFoodTime : Time
  /-- The channel `started` is closed. -/
  started : Bool

/-- The zero value of `time.Time`, in nanoseconds since the Unix epoch. -/
def zeroTime : Time := -62135596800000000000

def newSynced : SynchronizedWatchdog := ⟨0, .disarmed, none, zeroTime, false⟩

/-- What is done with the device, and the changes of the status. A call of
`impl.feed` is recorded with the status it was made in. -/
inductive Event
  | start (ok : Bool)
  | feed (status : WatchdogStatus) (ok : Bool)
  | disarm (ok : Bool)
  | moved (old new : WatchdogStatus)
deriving DecidableEq, Repr

/-- The process of the agent, as far as it can tell the goroutines apart. -/
structure Process where
  wd : SynchronizedWatchdog
  /-- The variable IS_SOFTWARE_REBOOT_ENABLED. -/
  softwareRebootEnv : String
  now : Time
  /-- The number of contexts created. -/
  contexts : Nat
  /-- The contexts with a feeder, and those that are cancelled. -/
  feeding : List Nat
  cancelled : List Nat
  /-- The pod is being stopped. -/
  stopping : Bool
  crashed : Bool
  events : List Event
  /-- The users that have called the software reboot hook. -/
  softwareReboots : List Nat

def newProcess (softwareRebootEnv : String) (now : Time) : Process :=
  ⟨newSynced, softwareRebootEnv, now, 0, [], [], false, false, [], []⟩

def Process.record (p : Process) (e : Event) : Process := { p with events := p.events ++ [e] }

/-- `swd.status = status` -/
def Process.setStatus (p : Process) (status : WatchdogStatus) : Process :=
  { p with
    wd := { p.wd with status := status }
    events := p.events ++ [.moved p.wd.status status] }

/-- `swd.stop()`, then the status is set. -/
def Process.stopFeeding (p : Process) (status : WatchdogStatus) : Process :=
  match p.wd.stop with
  | none => { p with crashed := true }
  | some ctx => { p with cancelled := ctx :: p.cancelled }.setStatus status

/-! ## 2. Sections -/

/-- `strconv.ParseBool` -/
def parseBool (str : String) : Except GoErr Bool :=
  if str ∈ ["1", "t", "T", "true", "TRUE", "True"] then .ok true
  else if str ∈ ["0", "f", "F", "false", "FALSE", "False"] then .ok false
  else .error (.new ("strconv.ParseBool: parsing " ++ str.quote ++ ": invalid syntax"))

def isSoftwareRebootEnabled (softwareRebootEnabledEnv : String) : Except GoErr Bool :=
  match parseBool softwareRebootEnabledEnv with
  | .error err => .error (err.wrap
      ("failed to convert IS_SOFTWARE_REBOOT_ENABLED env value to boolean. value is: " ++
        softwareRebootEnabledEnv))
  | .ok softwareRebootEnabled => .ok softwareRebootEnabled

def startedMoreThanOnce : GoErr := .new ("watchdog was started more than once. " ++
  "This is likely to be caused by being added to a manager multiple times")

/-- `init`, with the answer of `impl.start`. -/
def init (start : Except GoErr Duration) (p : Process) : Except GoErr Unit × Process :=
  if p.wd.started then (.error startedMoreThanOnce, p)
  else
    let p := { p with wd := { p.wd with started := true } }
    match start with
    | .error startErr =>
      let p := p.record (.start false)
      match isSoftwareRebootEnabled p.softwareRebootEnv with
      | .error err => (.error (err.wrap
          ("software reboot check failed while handling watchdog start failure: " ++
            startErr.msg)), p)
      | .ok false =>
        (.error (startErr.wrap "failed to start watchdog, software reboot is disabled"), p)
      | .ok true => (.ok (), p.setStatus .malfunction)
    | .ok timeout =>
      let p := p.record (.start true)
      (.ok (), { p with wd := { p.wd with timeout := timeout } }.setStatus .armed)

/-- The end of `Start`, with the answer of `impl.disarm`. -/
def shutdown (disarm : Except GoErr Unit) (p : Process) : Process :=
  if p.wd.status = .armed then
    match disarm with
    | .error _ => p.record (.disarm false)
    | .ok _ => (p.record (.disarm true)).stopFeeding .disarmed
  else p

/-- A tick of the feeder, with the answer of `impl.feed`. -/
def feed (result : Except GoErr Unit) (p : Process) : Process :=
  if p.wd.status ≠ .armed then p
  else
    match result with
    | .error _ => p.record (.feed p.wd.status false)
    | .ok _ =>
      { p.record (.feed p.wd.status true) with wd := { p.wd with lastFoodTime := p.now } }

def stop (p : Process) : Process :=
  if p.wd.status = .armed then p.stopFeeding .triggered else p

/-! ## 3. Threads -/

inductive Call
  | init
  | status
  | withCancel
  | setStop (ctx : Nat)
  | goFeed (ctx : Nat)
  | ctxDone
  | shutdown
  | feed
  | stop
  | lastFoodTime
  | now
  | softwareReboot
  | run (cmd : List String)

abbrev Resp : Call → Type
  | .init => Except GoErr Unit
  | .status => WatchdogStatus
  | .withCancel => Nat
  | .lastFoodTime | .now => Time
  | .run _ => Except GoErr Unit
  | _ => Unit

/-- What the users of the watchdog can call. -/
def Call.isExported : Call → Bool
  | .status | .stop | .lastFoodTime | .now | .softwareReboot | .run _ => true
  | _ => false

abbrev Routine := Prog Call Resp (Except GoErr Unit)

abbrev call (c : Call) : Prog Call Resp (Resp c) := Prog.perform c

/-- The rest of `Start` once feeding was started. -/
def awaitShutdown : Routine := do
  call .ctxDone
  call .shutdown
  return .ok ()

/-- `startFeeding`, and the rest of `Start`. -/
def startFeeding : Routine := do
  let feedCtx ← call .withCancel
  call (.setStop feedCtx)
  call (.goFeed feedCtx)
  awaitShutdown

/-- `Start` from the check of the status on. -/
def startArmed : Routine := do
  let status ← call .status
  if status ≠ .armed then return .ok ()
  else startFeeding

def start : Routine := do
  let err ← call .init
  match err with
  | .error err => return .error err
  | .ok _ => startArmed

def feedTick : Routine := do
  call .feed
  return .ok ()

/-- A goroutine in `Start`, a tick of the feeder of a context, or a user. -/
inductive Thread
  | start (n : Nat)
  | feeder (ctx n : Nat)
  | user (n : Nat)
deriving DecidableEq

/-- The users have the exported methods, and nothing else. -/
def Thread.may : Thread → Call → Bool
  | .user _, c => c.isExported
  | _, _ => true

/-- The effect of one call. -/
def exec (i : Thread) : (c : Call) → Process → Resp c → Process → Prop
  | .init, p, r, p' => ∃ result, init result p = (r, p')
  | .status, p, r, p' => r = p.wd.status ∧ p' = p
  | .withCancel, p, r, p' => r = p.contexts ∧ p' = { p with contexts := p.contexts + 1 }
  | .setStop ctx, p, _, p' => p' = { p with wd := { p.wd with stop := some ctx } }
  | .goFeed ctx, p, _, p' => p' = { p with feeding := ctx :: p.feeding }
  | .ctxDone, p, _, p' => p.stopping = true ∧ p' = p
  | .shutdown, p, _, p' => ∃ result, p' = shutdown result p
  | .feed, p, _, p' => ∃ result, p' = feed result p
  | .stop, p, _, p' => p' = stop p
  | .lastFoodTime, p, r, p' => r = p.wd.lastFoodTime ∧ p' = p
  | .now, p, r, p' => r = p.now ∧ p' = p
  | .softwareReboot, p, _, p' => ∃ n, i = .user n ∧
      p' = { p with softwareReboots := n :: p.softwareReboots }
  | .run _, p, _, p' => p' = p

/-- Time passes, or the pod is stopped. -/
inductive Elapses : Process → Process → Prop
  | tick {p : Process} {now : Time} : p.now ≤ now → Elapses p { p with now := now }
  | stopped {p : Process} : Elapses p { p with stopping := true }

/-- The goroutines of the process, until it crashes. -/
def system (users : Nat → Routine) :
    Interaction.System Thread Call Resp Process (Except GoErr Unit) where
  main
    | .start _ => start
    | .feeder _ _ => feedTick
    | .user n => users n
  ready i p := match i with
    | .feeder ctx _ => ctx ∈ p.feeding ∧ ctx ∉ p.cancelled
    | _ => True
  exec i c p r p' := p.crashed = false ∧ i.may c = true ∧ exec i c p r p' ∧ p'.crashed = false
  crash i c p p' := p.crashed = false ∧ i.may c = true ∧ (∃ r, exec i c p r p') ∧
    p'.crashed = true
  env := Elapses
  again _ := False

abbrev State := Pool Thread Call Resp Process (Except GoErr Unit)

/-! ## 4. What one call does -/

/-- What the device is asked for while the watchdog is armed. -/
def serving : List Event := [.feed .armed true, .feed .armed false, .disarm false]

/-- What a call does to the status, and what it records. -/
inductive Effect (c : Call) (p p' : Process) : Prop
  | none : p'.wd.status = p.wd.status → p'.wd.started = p.wd.started → p'.events = p.events →
      p'.cancelled = p.cancelled → Effect c p p'
  | refused : p.wd.started = false → p'.wd.status = p.wd.status → p'.wd.started = true →
      p'.events = p.events ++ [.start false] → Effect c p p'
  | broken : p.wd.started = false → isSoftwareRebootEnabled p.softwareRebootEnv = .ok true →
      p'.wd.status = .malfunction → p'.wd.started = true →
      p'.events = p.events ++ [.start false, .moved p.wd.status .malfunction] → Effect c p p'
  | armed : p.wd.started = false → p'.wd.status = .armed → p'.wd.started = true →
      p'.events = p.events ++ [.start true, .moved p.wd.status .armed] →
      p'.cancelled = p.cancelled → Effect c p p'
  | served {e : Event} : (∀ ok, e = .disarm ok → c = .shutdown) → p.wd.status = .armed →
      e ∈ serving → p'.wd.status = .armed →
      p'.wd.started = p.wd.started → p'.events = p.events ++ [e] →
      p'.cancelled = p.cancelled → Effect c p p'
  | triggered : p.wd.status = .armed → p'.wd.status = .triggered →
      p'.wd.started = p.wd.started → p'.events = p.events ++ [.moved .armed .triggered] →
      Effect c p p'
  | disarmed : c = .shutdown → p.wd.status = .armed → p'.wd.status = .disarmed →
      p'.wd.started = p.wd.started →
      p'.events = p.events ++ [.disarm true, .moved .armed .disarmed] → Effect c p p'

section Effects

variable {p p' : Process}

theorem init_effect {result : Except GoErr Duration} {r : Except GoErr Unit}
    (h : init result p = (r, p')) : Effect .init p p' := by
  unfold init at h
  cases hstarted : p.wd.started with
  | true =>
    rw [if_pos hstarted] at h
    cases h
    exact .none rfl rfl rfl rfl
  | false =>
    rw [if_neg (Bool.eq_false_iff.mp hstarted)] at h
    cases result with
    | ok timeout =>
      cases h
      exact .armed hstarted rfl rfl (List.append_assoc _ _ _) rfl
    | error startErr =>
      dsimp only [Process.record] at h
      cases henabled : isSoftwareRebootEnabled p.softwareRebootEnv with
      | error err =>
        rw [henabled] at h
        cases h
        exact .refused hstarted rfl rfl rfl
      | ok enabled =>
        rw [henabled] at h
        cases enabled with
        | false =>
          cases h
          exact .refused hstarted rfl rfl rfl
        | true =>
          cases h
          exact .broken hstarted henabled rfl rfl (List.append_assoc _ _ _)

/-- The cancel function is set when the watchdog is disarmed. -/
theorem shutdown_effect {result : Except GoErr Unit} (hstop : p.wd.stop.isSome = true) :
    Effect .shutdown p (shutdown result p) := by
  unfold shutdown
  split
  · next harmed =>
    cases result with
    | error err => exact .served (fun _ _ => rfl) harmed (by decide) harmed rfl rfl rfl
    | ok _ =>
      obtain ⟨ctx, hctx⟩ := Option.isSome_iff_exists.mp hstop
      simp only [Process.record, Process.stopFeeding, hctx]
      refine .disarmed rfl harmed rfl rfl ?_
      simp only [Process.setStatus, harmed, List.append_assoc, List.singleton_append]
  · exact .none rfl rfl rfl rfl

theorem feed_effect {result : Except GoErr Unit} : Effect .feed p (feed result p) := by
  unfold feed
  split
  · exact .none rfl rfl rfl rfl
  · next harmed =>
    have harmed : p.wd.status = .armed := not_not.mp harmed
    rw [harmed]
    cases result with
    | error err =>
      exact .served (e := .feed .armed false) nofun harmed (by decide) harmed rfl rfl rfl
    | ok _ => exact .served (e := .feed .armed true) nofun harmed (by decide) harmed rfl rfl rfl

theorem stop_effect : Effect .stop p (stop p) := by
  unfold stop
  split
  · next harmed =>
    unfold Process.stopFeeding
    cases p.wd.stop with
    | none => exact .none rfl rfl rfl rfl
    | some ctx => exact .triggered harmed rfl rfl (by simp only [Process.setStatus, harmed])
  · exact .none rfl rfl rfl rfl

theorem exec_effect {i : Thread} {c : Call} {r : Resp c} (h : exec i c p r p')
    (hstop : c = .shutdown → p.wd.stop.isSome = true) : Effect c p p' := by
  cases c with
  | init =>
    obtain ⟨result, h⟩ := h
    exact init_effect h
  | shutdown =>
    obtain ⟨result, rfl⟩ := h
    exact shutdown_effect (hstop rfl)
  | feed =>
    obtain ⟨result, rfl⟩ := h
    exact feed_effect
  | stop =>
    cases h
    exact stop_effect
  | softwareReboot =>
    obtain ⟨n, -, rfl⟩ := h
    exact .none rfl rfl rfl rfl
  | status | withCancel | ctxDone | lastFoodTime | now =>
    obtain ⟨-, rfl⟩ := h
    exact .none rfl rfl rfl rfl
  | setStop | goFeed | run =>
    cases h
    exact .none rfl rfl rfl rfl

/-- The parts of the process that only single actions change. -/
structure Same (p p' : Process) : Prop where
  stop : p'.wd.stop = p.wd.stop
  feeding : p'.feeding = p.feeding
  softwareReboots : p'.softwareReboots = p.softwareReboots
  env : p'.softwareRebootEnv = p.softwareRebootEnv

theorem init_same {result : Except GoErr Duration} {r : Except GoErr Unit}
    (h : init result p = (r, p')) : Same p p' := by
  unfold init at h
  split at h
  · cases h
    exact ⟨rfl, rfl, rfl, rfl⟩
  · cases result with
    | ok timeout =>
      cases h
      exact ⟨rfl, rfl, rfl, rfl⟩
    | error startErr =>
      dsimp only at h
      split at h
      · cases h
        exact ⟨rfl, rfl, rfl, rfl⟩
      · cases h
        exact ⟨rfl, rfl, rfl, rfl⟩
      · cases h
        exact ⟨rfl, rfl, rfl, rfl⟩

theorem stopFeeding_same (p : Process) (status : WatchdogStatus) :
    Same p (p.stopFeeding status) := by
  unfold Process.stopFeeding
  cases p.wd.stop with
  | none => exact ⟨rfl, rfl, rfl, rfl⟩
  | some ctx => exact ⟨rfl, rfl, rfl, rfl⟩

theorem shutdown_same {result : Except GoErr Unit} : Same p (shutdown result p) := by
  unfold shutdown
  split
  · cases result with
    | error err => exact ⟨rfl, rfl, rfl, rfl⟩
    | ok _ =>
      have hsame := stopFeeding_same (p.record (.disarm true)) .disarmed
      exact ⟨hsame.stop, hsame.feeding, hsame.softwareReboots, hsame.env⟩
  · exact ⟨rfl, rfl, rfl, rfl⟩

theorem feed_same {result : Except GoErr Unit} : Same p (feed result p) := by
  unfold feed
  split
  · exact ⟨rfl, rfl, rfl, rfl⟩
  · cases result with
    | error err => exact ⟨rfl, rfl, rfl, rfl⟩
    | ok _ => exact ⟨rfl, rfl, rfl, rfl⟩

theorem stop_same : Same p (stop p) := by
  unfold stop
  split
  · exact stopFeeding_same p .triggered
  · exact ⟨rfl, rfl, rfl, rfl⟩

variable {i : Thread} {c : Call} {r : Resp c}

theorem exec_same (h : exec i c p r p') :
    Same p p' ∨
    (∃ ctx, c = .setStop ctx ∧ p' = { p with wd := { p.wd with stop := some ctx } }) ∨
    (∃ ctx, c = .goFeed ctx ∧ p' = { p with feeding := ctx :: p.feeding }) ∨
    ∃ n, c = .softwareReboot ∧ i = .user n ∧
      p' = { p with softwareReboots := n :: p.softwareReboots } := by
  cases c with
  | init =>
    obtain ⟨result, h⟩ := h
    exact .inl (init_same h)
  | shutdown =>
    obtain ⟨result, rfl⟩ := h
    exact .inl shutdown_same
  | feed =>
    obtain ⟨result, rfl⟩ := h
    exact .inl feed_same
  | stop =>
    cases h
    exact .inl stop_same
  | setStop ctx => exact .inr (.inl ⟨ctx, rfl, h⟩)
  | goFeed ctx => exact .inr (.inr (.inl ⟨ctx, rfl, h⟩))
  | softwareReboot =>
    obtain ⟨n, hi, rfl⟩ := h
    exact .inr (.inr (.inr ⟨n, rfl, hi, rfl⟩))
  | status | withCancel | ctxDone | lastFoodTime | now =>
    obtain ⟨-, rfl⟩ := h
    exact .inl ⟨rfl, rfl, rfl, rfl⟩
  | run =>
    cases h
    exact .inl ⟨rfl, rfl, rfl, rfl⟩

/-- What no call takes back. -/
structure Grows (p p' : Process) : Prop where
  stop : p.wd.stop.isSome = true → p'.wd.stop.isSome = true
  feeding : p.feeding ⊆ p'.feeding
  softwareReboots : p.softwareReboots ⊆ p'.softwareReboots
  env : p'.softwareRebootEnv = p.softwareRebootEnv

theorem Same.grows (h : Same p p') : Grows p p' :=
  ⟨fun hstop => h.stop ▸ hstop, h.feeding ▸ List.Subset.refl _,
    h.softwareReboots ▸ List.Subset.refl _, h.env⟩

theorem exec_grows (h : exec i c p r p') : Grows p p' := by
  rcases exec_same h with hsame | ⟨ctx, -, rfl⟩ | ⟨ctx, -, rfl⟩ | ⟨n, -, -, rfl⟩
  · exact hsame.grows
  · exact ⟨fun _ => rfl, List.Subset.refl _, List.Subset.refl _, rfl⟩
  · exact ⟨id, List.subset_cons_self _ _, List.Subset.refl _, rfl⟩
  · exact ⟨id, List.Subset.refl _, List.subset_cons_self _ _, rfl⟩

end Effects

end SelfNodeRemediation.Watchdog
