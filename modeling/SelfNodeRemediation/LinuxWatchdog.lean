import SelfNodeRemediation.Rebooter

/-!
# The watchdog device

`linuxWatchdog` is the implementation under the synchronized watchdog. It drives a device
of the kernel, which resets the machine when it was not fed for its timeout, and which
stops only if it is closed right after a `V` was written. This module puts the two layers
together: the goroutines of `Watchdog` over a device, in a process that may be killed at
any time, on a machine that the device may reset.

* `start`, `feed`, `disarm`: the programs of `linuxWatchdog` over system calls, each of
  which may fail. `Kernel` says what the calls do to the device.
* `machines_view`: what a machine does, seen without the device, is a run of `Watchdog`.
* `deviceInv_reachable`: how the timer and the status belong together.
* `reboot_resets`, `killed_resets`, `reset_cause`: a `Reboot` ends in a reset in time, so
  does the death of an agent, and what else a reset can come from.
-/

namespace SelfNodeRemediation.Watchdog.Linux

open Interaction

/-! ## 1. The device -/

/-- A watchdog of the kernel. Its timer runs since `lastPing`, if it runs. -/
structure Device where
  /-- In seconds. -/
  timeout : Int32
  positive : 0 < timeout.toInt
  nowayout : Bool
  /-- Whether a close needs a `V` to stop the timer. -/
  magicClose : Bool
  opened : Bool
  /-- A `V` was the last that was written. -/
  allowRelease : Bool
  lastPing : Option Time

/-- The timeout in nanoseconds. -/
def Device.period (d : Device) : Int := d.timeout.toInt * 1000000000

/-- Everything that is written restarts a running timer. -/
def Device.write (d : Device) (b : Char) (now : Time) : Device :=
  { d with
    allowRelease := b == 'V'
    lastPing := d.lastPing.map fun _ => now }

/-- The file is closed. A timer that is not stopped is restarted once more. -/
def Device.release (d : Device) (now : Time) : Device :=
  { d with
    opened := false
    allowRelease := false
    lastPing :=
      if (d.allowRelease || !d.magicClose) && !d.nowayout then none
      else d.lastPing.map fun _ => now }

inductive Syscall
  | openDevice
  | getSupport
  | getTimeout
  | write (b : Char)
  | close

abbrev SysResp : Syscall → Type
  | .openDevice | .write _ | .close => Except GoErr Unit
  | .getSupport => Unit
  | .getTimeout => Except GoErr Int32

/-- What the calls of the process do to the device at a time. A write that fails may have
been looked at for a `V`; a close always releases the file, whatever it answers. -/
inductive Kernel (now : Time) : (c : Syscall) → Device → SysResp c → Device → Prop
  | opened {d : Device} (h : d.opened = false) : Kernel now .openDevice d (.ok ())
      { d with opened := true, allowRelease := false, lastPing := some now }
  | openFailed {d : Device} (err : GoErr) : Kernel now .openDevice d (.error err) d
  | support {d : Device} : Kernel now .getSupport d () d
  | timeout {d : Device} : Kernel now .getTimeout d (.ok d.timeout) d
  | timeoutFailed {d : Device} (err : GoErr) : Kernel now .getTimeout d (.error err) d
  | written {d : Device} {b : Char} (h : d.opened = true) :
      Kernel now (.write b) d (.ok ()) (d.write b now)
  | writeFailed {d : Device} {b : Char} (err : GoErr) : Kernel now (.write b) d (.error err) d
  | pingFailed {d : Device} {b : Char} (h : d.opened = true) (err : GoErr) :
      Kernel now (.write b) d (.error err) { d with allowRelease := b == 'V' }
  | closed {d : Device} (h : d.opened = true) (r : Except GoErr Unit) :
      Kernel now .close d r (d.release now)
  | closeFailed {d : Device} (h : d.opened = false) (err : GoErr) :
      Kernel now .close d (.error err) d

/-! ## 2. The implementation -/

abbrev Sys (α : Type) := Prog Syscall SysResp α

def sys (c : Syscall) : Sys (SysResp c) := Prog.perform c

def getTimeout : Sys (Except GoErr Duration) := do
  match ← sys .getTimeout with
  | .error err => return .error err
  | .ok timeout => return .ok (timeout.toInt64 * second)

def feed : Sys (Except GoErr Unit) := sys (.write 'a')

def disarm : Sys (Except GoErr Unit) := do
  match ← sys (.write 'V') with
  | .error err => return .error err
  | .ok _ => sys .close

/-- The error of a disarm is ignored. -/
def startFailed (err : GoErr) : Sys (Except GoErr Duration) := do
  let _ ← disarm
  return .error err

/-- `start` with an open device: no feeding without a timeout, so disarm. -/
def startOpened : Sys (Except GoErr Duration) := do
  sys .getSupport
  match ← getTimeout with
  | .error err => startFailed err
  | .ok timeout => return .ok timeout

def start : Sys (Except GoErr Duration) := do
  match ← sys .openDevice with
  | .error err => return .error err
  | .ok _ => startOpened

/-! ## 3. The machine -/

/-- The process of the agent on a machine with a watchdog. -/
structure Machine where
  process : Process
  device : Device
  /-- When the process was killed, or has panicked. -/
  dead : Option Time
  reset : Bool

structure Machine.Alive (m : Machine) : Prop where
  crashed : m.process.crashed = false
  dead : m.dead = none
  reset : m.reset = false

/-- The kernel closes the files of a process that ends. -/
def Machine.die (m : Machine) : Machine :=
  { m with
    device := if m.device.opened then m.device.release m.process.now else m.device
    dead := some m.process.now }

/-- The device is only asked if the section comes to that. -/
def Asked {α : Type} (asks : Bool) (prog : Sys α) (m : Machine) (a : α) (d : Device) : Prop :=
  if asks then prog.Runs (Kernel m.process.now) m.device a d else d = m.device

/-- The sections of `Watchdog` with the answers of the device. -/
def exec (i : Thread) : (c : Call) → Machine → Resp c → Machine → Prop
  | .init, m, r, m' => ∃ result d p, Asked (!m.process.wd.started) start m result d ∧
      init result m.process = (r, p) ∧ m' = { m with process := p, device := d }
  | .shutdown, m, _, m' => ∃ result d, Asked (m.process.wd.status == .armed) disarm m result d ∧
      m' = { m with process := shutdown result m.process, device := d }
  | .feed, m, _, m' => ∃ result d, Asked (m.process.wd.status == .armed) feed m result d ∧
      m' = { m with process := Watchdog.feed result m.process, device := d }
  | c, m, r, m' => ∃ p, Watchdog.exec i c m.process r p ∧ m' = { m with process := p }

/-- Time passes, but not beyond the deadline of the timer: then the machine is reset. The
pod may be stopped, and the process killed. -/
inductive Elapses : Machine → Machine → Prop
  | tick {m : Machine} {now : Time} (h : m.process.now ≤ now) (hreset : m.reset = false)
      (hdue : ∀ t, m.device.lastPing = some t → now ≤ t + m.device.period) :
      Elapses m { m with process := { m.process with now := now } }
  | stopped {m : Machine} : Elapses m { m with process := { m.process with stopping := true } }
  | killed {m : Machine} (h : m.Alive) : Elapses m m.die
  | reset {m : Machine} {t : Time} (h : m.device.lastPing = some t)
      (hdue : t + m.device.period ≤ m.process.now) : Elapses m { m with reset := true }

def machines (users : Nat → Routine) :
    Interaction.System Thread Call Resp Machine (Except GoErr Unit) where
  main := (system users).main
  ready i m := (system users).ready i m.process
  exec i c m r m' := m.Alive ∧ i.may c = true ∧ exec i c m r m' ∧ m'.process.crashed = false
  crash i c m m' := m.Alive ∧ i.may c = true ∧
    ∃ r m₁, exec i c m r m₁ ∧ m₁.process.crashed = true ∧ m' = m₁.die
  env := Elapses
  again _ := False

/-- A process that has not started its watchdog, with a device that is off. -/
def boot (softwareRebootEnv : String) (now : Time) (d : Device) : Machine :=
  ⟨newProcess softwareRebootEnv now, { d with opened := false, lastPing := none }, none, false⟩

/-- The states of all interleavings. -/
abbrev MachineState := Pool Thread Call Resp Machine (Except GoErr Unit)

theorem exec_view {i : Thread} {c : Call} {m m' : Machine} {r : Resp c} (h : exec i c m r m') :
    Watchdog.exec i c m.process r m'.process := by
  cases c with
  | init =>
    obtain ⟨result, d, p, -, hinit, rfl⟩ := h
    exact ⟨result, hinit⟩
  | shutdown =>
    obtain ⟨result, d, -, rfl⟩ := h
    exact ⟨result, rfl⟩
  | feed =>
    obtain ⟨result, d, -, rfl⟩ := h
    exact ⟨result, rfl⟩
  | _ =>
    obtain ⟨p, hexec, rfl⟩ := h
    exact hexec

theorem exec_frame {i : Thread} {c : Call} {m m' : Machine} {r : Resp c} (h : exec i c m r m') :
    m'.dead = m.dead ∧ m'.reset = m.reset := by
  cases c with
  | init =>
    obtain ⟨result, d, p, -, -, rfl⟩ := h
    exact ⟨rfl, rfl⟩
  | shutdown =>
    obtain ⟨result, d, -, rfl⟩ := h
    exact ⟨rfl, rfl⟩
  | feed =>
    obtain ⟨result, d, -, rfl⟩ := h
    exact ⟨rfl, rfl⟩
  | _ =>
    obtain ⟨p, -, rfl⟩ := h
    exact ⟨rfl, rfl⟩

/-- Without the device, a machine is the process of `Watchdog`. -/
theorem machines_view (users : Nat → Routine) :
    (machines users).View (system users) Machine.process where
  main := rfl
  ready h := h
  exec := by
    rintro i c m r m' ⟨halive, hmay, hexec, hend⟩
    exact ⟨halive.crashed, hmay, exec_view hexec, hend⟩
  crash := by
    rintro i c m m' ⟨halive, hmay, r, m₁, hexec, hend, rfl⟩
    have hprocess := exec_view hexec
    exact ⟨halive.crashed, hmay, ⟨r, hprocess⟩, hend⟩
  env := by
    intro m m' he
    cases he with
    | tick h _ _ => exact .tick h
    | stopped => exact .stopped
    | killed _ => exact .tick (Int.le_refl m.process.now)
    | reset _ _ => exact .tick (Int.le_refl m.process.now)
  again h := h

/-! ## 4. What the implementation does to the device -/

section Devices

variable {now : Time} {d d' : Device} {r : Except GoErr Unit}

/-- What no call changes. -/
structure Device.Kin (d d' : Device) : Prop where
  timeout : d'.timeout = d.timeout
  nowayout : d'.nowayout = d.nowayout
  magicClose : d'.magicClose = d.magicClose

/-- A device is the same one, and its timer has no ping but those of now. -/
structure Device.Same (now : Time) (d d' : Device) : Prop extends d.Kin d' where
  lastPing : ∀ t, d'.lastPing = some t → t = now ∨ d.lastPing = some t

theorem Device.Kin.refl (d : Device) : d.Kin d := ⟨rfl, rfl, rfl⟩

theorem Device.Kin.trans {d'' : Device} (h : d.Kin d') (h' : d'.Kin d'') : d.Kin d'' :=
  ⟨h'.timeout.trans h.timeout, h'.nowayout.trans h.nowayout, h'.magicClose.trans h.magicClose⟩

theorem Device.Same.refl (now : Time) (d : Device) : d.Same now d := ⟨.refl d, fun _ h => .inr h⟩

theorem Device.Same.trans {d'' : Device} (h : d.Same now d') (h' : d'.Same now d'') :
    d.Same now d'' where
  toKin := h.toKin.trans h'.toKin
  lastPing t ht := by
    rcases h'.lastPing t ht with h₁ | h₁
    · exact .inl h₁
    · exact h.lastPing t h₁

theorem Device.same_release (d : Device) (now : Time) : d.Same now (d.release now) := by
  refine ⟨⟨rfl, rfl, rfl⟩, fun t ht => .inl ?_⟩
  unfold Device.release at ht
  dsimp only at ht
  split at ht
  · cases ht
  · obtain ⟨_, _, rfl⟩ := Option.map_eq_some_iff.mp ht
    rfl

theorem Kernel.same {c : Syscall} {r : SysResp c} (h : Kernel now c d r d') : d.Same now d' := by
  cases h with
  | opened _ => exact ⟨⟨rfl, rfl, rfl⟩, fun t ht => .inl (Option.some.inj ht).symm⟩
  | written _ =>
    refine ⟨⟨rfl, rfl, rfl⟩, fun t ht => .inl ?_⟩
    obtain ⟨_, _, rfl⟩ := Option.map_eq_some_iff.mp ht
    rfl
  | closed _ _ => exact d.same_release now
  | pingFailed _ _ => exact ⟨⟨rfl, rfl, rfl⟩, fun t ht => .inr ht⟩
  | _ => exact .refl now d

theorem runs_same {α : Type} {prog : Sys α} {a : α} (h : prog.Runs (Kernel now) d a d') :
    d.Same now d' := by
  induction h with
  | ret => exact .refl now _
  | call he _ ih => exact he.same.trans ih

/-- A device that was started runs from now on. -/
theorem start_runs {timeout : Duration} (h : start.Runs (Kernel now) d (.ok timeout) d') :
    d'.lastPing = some now ∧ d'.allowRelease = false ∧ timeout = d.timeout.toInt64 * second := by
  obtain ⟨r₁, d₁, he₁, h⟩ := h.call_inv
  cases he₁ with
  | openFailed err => cases h.ret_inv.1
  | opened _ =>
    obtain ⟨r₂, d₂, he₂, h⟩ := h.call_inv
    cases he₂
    obtain ⟨r₃, d₃, he₃, h⟩ := h.call_inv
    cases he₃ with
    | timeout =>
      obtain ⟨hr, rfl⟩ := h.ret_inv
      exact ⟨rfl, rfl, Except.ok.inj hr⟩
    | timeoutFailed err =>
      -- whatever the disarm does, the error is returned
      obtain ⟨r₄, d₄, he₄, h⟩ := h.call_inv
      cases he₄ with
      | written _ =>
        obtain ⟨r₅, d₅, _, h⟩ := h.call_inv
        cases h.ret_inv.1
      | writeFailed err => cases h.ret_inv.1
      | pingFailed _ err => cases h.ret_inv.1

theorem feed_runs (h : feed.Runs (Kernel now) d r d') :
    (d'.allowRelease = true → d.allowRelease = true) ∧
    (d.lastPing.isSome = true → d'.lastPing.isSome = true) ∧
    (r = .ok () → ∀ t, d'.lastPing = some t → t = now) := by
  obtain ⟨r₁, d₁, he₁, h⟩ := h.call_inv
  obtain ⟨rfl, rfl⟩ := h.ret_inv
  cases he₁ with
  | written _ =>
    refine ⟨fun ha => absurd ha (by simp [Device.write]),
      fun hp => by simpa [Device.write] using hp, ?_⟩
    intro _ t ht
    obtain ⟨_, _, rfl⟩ := Option.map_eq_some_iff.mp ht
    rfl
  | writeFailed err => exact ⟨id, id, fun hr => nomatch hr⟩
  | pingFailed _ err => exact ⟨fun ha => absurd ha (by simp), id, fun hr => nomatch hr⟩

/-- A device that was disarmed is off, if it can be stopped at all. -/
theorem disarm_runs (h : disarm.Runs (Kernel now) d (.ok ()) d') (hway : d.nowayout = false) :
    d'.lastPing = none := by
  obtain ⟨r₁, d₁, he₁, h⟩ := h.call_inv
  cases he₁ with
  | writeFailed err => cases h.ret_inv.1
  | pingFailed _ err => cases h.ret_inv.1
  | written _ =>
    obtain ⟨r₂, d₂, he₂, h⟩ := h.call_inv
    obtain ⟨rfl, rfl⟩ := h.ret_inv
    cases he₂ with
    | closed _ _ => simp [Device.release, Device.write, hway]

/-- The timeout of a device fits into a duration. -/
theorem toInt_timeout (d : Device) : (d.timeout.toInt64 * second).toInt = d.period := by
  have hlt : d.timeout.toInt < 2 ^ 31 := d.timeout.toInt_lt
  have hpos := d.positive
  rw [Int64.toInt_mul, Int32.toInt_toInt64, show second.toInt = 1000000000 from rfl]
  unfold Device.period
  apply Int.bmod_eq_of_le <;> omega

end Devices

/-! ## 5. The timer and the clock -/

/-- Pings are in the past, and no timer is past its deadline unless the machine was reset. A
dead process pings no more. -/
structure Clocked (m : Machine) : Prop where
  food : m.process.wd.lastFoodTime ≤ m.process.now
  fed : ∀ t, m.device.lastPing = some t → m.process.wd.lastFoodTime ≤ t ∧ t ≤ m.process.now
  died : ∀ dead, m.dead = some dead → ∀ t, m.device.lastPing = some t → t ≤ dead
  due : m.reset = false → ∀ t, m.device.lastPing = some t → m.process.now ≤ t + m.device.period
  overdue : m.reset = true → ∃ t, m.device.lastPing = some t ∧
    t + m.device.period ≤ m.process.now

section Clocks

variable {m : Machine} {d : Device} {p : Process}

theorem Device.Kin.period {d d' : Device} (h : d.Kin d') : d'.period = d.period := by
  unfold Device.period
  rw [h.timeout]

theorem Device.period_pos (d : Device) : 0 < d.period :=
  Int.mul_pos d.positive (by decide)

/-- A process that lives has asked the device for something. -/
theorem Clocked.asked (h : Clocked m) (halive : m.Alive) (hsame : m.device.Same m.process.now d)
    (hnow : p.now = m.process.now)
    (hfood : p.wd.lastFoodTime = m.process.wd.lastFoodTime ∨
      p.wd.lastFoodTime = m.process.now ∧ ∀ t, d.lastPing = some t → t = m.process.now) :
    Clocked { m with process := p, device := d } where
  food := by
    show p.wd.lastFoodTime ≤ p.now
    rw [hnow]
    rcases hfood with hfood | ⟨hfood, -⟩
    · exact hfood ▸ h.food
    · exact hfood ▸ Int.le_refl _
  fed t ht := by
    show p.wd.lastFoodTime ≤ t ∧ t ≤ p.now
    rw [hnow]
    rcases hfood with hfood | ⟨hfood, hping⟩
    · rw [hfood]
      rcases hsame.lastPing t ht with rfl | ht
      · exact ⟨h.food, Int.le_refl _⟩
      · exact h.fed t ht
    · rw [hfood, hping t ht]
      exact ⟨Int.le_refl _, Int.le_refl _⟩
  died dead hdead := absurd (halive.dead.symm.trans hdead) (by simp)
  due _ t ht := by
    show p.now ≤ t + d.period
    rw [hnow, hsame.period]
    rcases hsame.lastPing t ht with rfl | ht
    · exact Int.le_add_of_nonneg_right (Int.le_of_lt m.device.period_pos)
    · exact h.due halive.reset t ht
  overdue hreset := absurd (halive.reset.symm.trans hreset) (by decide)

theorem same_die (m : Machine) : m.device.Same m.process.now m.die.device := by
  unfold Machine.die
  dsimp only
  split
  · exact m.device.same_release m.process.now
  · exact .refl _ _

theorem Clocked.die (h : Clocked m) (hreset : m.reset = false) : Clocked m.die where
  food := h.food
  fed t ht := by
    rcases (same_die m).lastPing t ht with rfl | ht
    · exact ⟨h.food, Int.le_refl _⟩
    · exact h.fed t ht
  died dead hdead t ht := by
    cases hdead
    rcases (same_die m).lastPing t ht with rfl | ht
    · exact Int.le_refl _
    · exact (h.fed t ht).2
  due _ t ht := by
    show m.process.now ≤ t + m.die.device.period
    rw [(same_die m).period]
    rcases (same_die m).lastPing t ht with rfl | ht
    · exact Int.le_add_of_nonneg_right (Int.le_of_lt m.device.period_pos)
    · exact h.due hreset t ht
  overdue ht := absurd (hreset.symm.trans ht) (by decide)

end Clocks

/-! ## 6. The timer and the status -/

/-- The watchdog is armed, or triggered. -/
def Engaged (p : Process) : Prop := p.wd.status = .armed ∨ p.wd.status = .triggered

/-- A close alone does not stop the timer. -/
def Device.Sticky (d : Device) : Prop := d.magicClose = true ∨ d.nowayout = true

/-- The timer runs while the watchdog is armed or triggered, unless a disarm has failed half
way, and does not run otherwise, unless `start` has failed. It outlives the process. -/
structure Linked (m : Machine) : Prop where
  held : Engaged m.process → .disarm false ∉ m.process.events → m.dead = none →
    m.device.allowRelease = false
  running : Engaged m.process → .disarm false ∉ m.process.events →
    m.dead = none ∨ m.device.Sticky → m.device.lastPing.isSome = true
  off : ¬ Engaged m.process → .start false ∉ m.process.events → m.device.nowayout = false →
    m.device.lastPing = none
  timeout : Engaged m.process → m.process.wd.timeout.toInt = m.device.period

/-- A section that does nothing with the device. -/
structure Quiet (p p' : Process) : Prop where
  engaged : Engaged p' ↔ Engaged p
  timeout : p'.wd.timeout = p.wd.timeout
  lastFoodTime : p'.wd.lastFoodTime = p.wd.lastFoodTime
  now : p'.now = p.now
  events : p.events ⊆ p'.events

section Links

variable {m : Machine} {d : Device} {p p' : Process} {users : Nat → Routine}

theorem Quiet.refl (p : Process) : Quiet p p := ⟨Iff.rfl, rfl, rfl, rfl, List.Subset.refl _⟩

theorem Linked.quiet (h : Linked m) (hq : Quiet m.process p) : Linked { m with process := p } where
  held he hd := h.held (hq.engaged.mp he) fun hmem => hd (hq.events hmem)
  running he hd := h.running (hq.engaged.mp he) fun hmem => hd (hq.events hmem)
  off he hs := h.off (fun he' => he (hq.engaged.mpr he')) fun hmem => hs (hq.events hmem)
  timeout he := hq.timeout ▸ h.timeout (hq.engaged.mp he)

theorem Clocked.quiet (h : Clocked m) (halive : m.Alive) (hq : Quiet m.process p) :
    Clocked { m with process := p } :=
  h.asked halive (.refl _ _) hq.now (.inl hq.lastFoodTime)

theorem quiet_stopFeeding (h : p.wd.status = .armed) : Quiet p (p.stopFeeding .triggered) := by
  unfold Process.stopFeeding
  cases p.wd.stop with
  | none => exact ⟨Iff.rfl, rfl, rfl, rfl, List.Subset.refl _⟩
  | some ctx =>
    refine ⟨?_, rfl, rfl, rfl, List.subset_append_left _ _⟩
    exact ⟨fun _ => .inl h, fun _ => .inr rfl⟩

theorem quiet_stop (p : Process) : Quiet p (stop p) := by
  unfold stop
  split
  · next harmed => exact quiet_stopFeeding harmed
  · exact .refl p

/-! ### `Start` -/

theorem init_error {startErr : GoErr} {r : Except GoErr Unit} (hstarted : p.wd.started = false)
    (h : init (.error startErr) p = (r, p')) :
    .start false ∈ p'.events ∧ (p'.wd.status = p.wd.status ∨ p'.wd.status = .malfunction) ∧
      p'.now = p.now ∧ p'.wd.lastFoodTime = p.wd.lastFoodTime := by
  unfold init at h
  rw [if_neg (Bool.eq_false_iff.mp hstarted)] at h
  dsimp only [Process.record, Process.setStatus] at h
  split at h
  · cases h
    exact ⟨by simp, .inl rfl, rfl, rfl⟩
  · cases h
    exact ⟨by simp, .inl rfl, rfl, rfl⟩
  · cases h
    exact ⟨by simp, .inr rfl, rfl, rfl⟩

/-- A device that could not be started is nobody's. -/
theorem linked_failed (hfailed : .start false ∈ p.events)
    (hstatus : p.wd.status = .disarmed ∨ p.wd.status = .malfunction) :
    Linked { m with process := p, device := d } := by
  have hnot : ¬ Engaged p := by
    rintro (h | h) <;> rcases hstatus with h' | h' <;> cases h.symm.trans h'
  exact ⟨fun h => absurd h hnot, fun h => absurd h hnot, fun _ h => absurd hfailed h,
    fun h => absurd h hnot⟩

/-- A device that was started runs from now on. -/
theorem linked_started {timeout : Duration} (hstatus : p.wd.status = .armed)
    (htimeout : p.wd.timeout = timeout)
    (hstart : start.Runs (Kernel m.process.now) m.device (.ok timeout) d) :
    Linked { m with process := p, device := d } := by
  obtain ⟨hping, hrelease, hperiod⟩ := start_runs hstart
  refine ⟨fun _ _ _ => hrelease, fun _ _ _ => ?_, fun hnot => absurd (.inl hstatus) hnot,
    fun _ => ?_⟩
  · show d.lastPing.isSome = true
    rw [hping]
    rfl
  · show p.wd.timeout.toInt = d.period
    rw [htimeout, hperiod, toInt_timeout, (runs_same hstart).period]

theorem init_keeps {result : Except GoErr Duration} {r : Except GoErr Unit} (hinv : Inv m.process)
    (halive : m.Alive) (hc : Clocked m) (hl : Linked m)
    (hasked : Asked (!m.process.wd.started) start m result d)
    (hinit : init result m.process = (r, p)) :
    Clocked { m with process := p, device := d } ∧ Linked { m with process := p, device := d } := by
  cases hstarted : m.process.wd.started with
  | true =>
    rw [init, if_pos hstarted] at hinit
    cases hinit
    simp only [Asked, hstarted, Bool.not_true, Bool.false_eq_true, if_false] at hasked
    subst hasked
    exact ⟨hc, hl⟩
  | false =>
    simp only [Asked, hstarted, Bool.not_false, if_true] at hasked
    have hsame := runs_same hasked
    cases result with
    | error startErr =>
      obtain ⟨hfailed, hstatus, hnow, hfood⟩ := init_error hstarted hinit
      refine ⟨hc.asked halive hsame hnow (.inl hfood), linked_failed hfailed ?_⟩
      have hdisarmed := (hstarted ▸ hinv.stage).unstarted.1
      rwa [hdisarmed] at hstatus
    | ok timeout =>
      rw [init, if_neg (Bool.eq_false_iff.mp hstarted)] at hinit
      cases hinit
      exact ⟨hc.asked halive hsame rfl (.inl rfl), linked_started rfl rfl hasked⟩

/-! ### Shutdown -/

theorem shutdown_keeps {result : Except GoErr Unit} (hstop : m.process.wd.stop.isSome = true)
    (halive : m.Alive) (hc : Clocked m) (hl : Linked m)
    (hasked : Asked (m.process.wd.status == .armed) disarm m result d) :
    Clocked { m with process := shutdown result m.process, device := d } ∧
      Linked { m with process := shutdown result m.process, device := d } := by
  by_cases harmed : m.process.wd.status = .armed
  · unfold shutdown
    rw [if_pos harmed]
    simp only [Asked, harmed, beq_self_eq_true, if_true] at hasked
    have hsame := runs_same hasked
    cases result with
    | error err =>
      have hmem : .disarm false ∈ (m.process.record (.disarm false)).events := by
        simp [Process.record]
      exact ⟨hc.asked halive hsame rfl (.inl rfl), fun _ h => absurd hmem h,
        fun _ h => absurd hmem h, fun hnot => absurd (.inl harmed) hnot,
        fun _ => (hl.timeout (.inl harmed)).trans hsame.period.symm⟩
    | ok _ =>
      obtain ⟨ctx, hctx⟩ := Option.isSome_iff_exists.mp hstop
      simp only [Process.stopFeeding, Process.record, hctx]
      refine ⟨hc.asked halive hsame rfl (.inl rfl), ?_⟩
      -- no longer engaged, so the timer has to be off
      have hnot : ∀ {p : Process}, p.wd.status = .disarmed → ¬ Engaged p := by
        rintro p hp (h | h) <;> cases hp.symm.trans h
      refine ⟨fun h => absurd h (hnot rfl), fun h => absurd h (hnot rfl), fun _ _ hway => ?_,
        fun h => absurd h (hnot rfl)⟩
      exact disarm_runs hasked (hsame.nowayout.symm.trans hway)
  · unfold shutdown
    rw [if_neg harmed]
    simp only [Asked, beq_iff_eq, harmed, if_false] at hasked
    subst hasked
    exact ⟨hc, hl⟩

/-! ### Feeding -/

theorem feed_keeps {result : Except GoErr Unit} (halive : m.Alive) (hc : Clocked m)
    (hl : Linked m) (hasked : Asked (m.process.wd.status == .armed) feed m result d) :
    Clocked { m with process := Watchdog.feed result m.process, device := d } ∧
      Linked { m with process := Watchdog.feed result m.process, device := d } := by
  by_cases harmed : m.process.wd.status = .armed
  · unfold Watchdog.feed
    rw [if_neg (not_not.mpr harmed)]
    simp only [Asked, harmed, beq_self_eq_true, if_true] at hasked
    have hsame := runs_same hasked
    obtain ⟨hrelease, hping, hnow⟩ := feed_runs hasked
    have hlinked (p : Process) (hstatus : p.wd.status = .armed)
        (htimeout : p.wd.timeout = m.process.wd.timeout) (hevents : m.process.events ⊆ p.events) :
        Linked { m with process := p, device := d } := by
      refine ⟨fun _ hd hdead => ?_, fun _ hd hs => ?_, fun hnot => absurd (.inl hstatus) hnot,
        fun _ => ?_⟩
      · have hheld := hl.held (.inl harmed) (fun h => hd (hevents h)) hdead
        exact Bool.eq_false_iff.mpr fun h => Bool.eq_false_iff.mp hheld (hrelease h)
      · exact hping (hl.running (.inl harmed) (fun h => hd (hevents h)) (.inl halive.dead))
      · exact (htimeout ▸ hl.timeout (.inl harmed)).trans hsame.period.symm
    cases result with
    | error err =>
      exact ⟨hc.asked halive hsame rfl (.inl rfl),
        hlinked _ harmed rfl (List.subset_append_left _ _)⟩
    | ok _ =>
      exact ⟨hc.asked halive hsame rfl (.inr ⟨rfl, hnow rfl⟩),
        hlinked _ harmed rfl (List.subset_append_left _ _)⟩
  · unfold Watchdog.feed
    rw [if_pos harmed]
    simp only [Asked, beq_iff_eq, harmed, if_false] at hasked
    subst hasked
    exact ⟨hc, hl⟩

/-! ### All calls, and the end of the process -/

theorem exec_keeps {i : Thread} {c : Call} {m' : Machine} {r : Resp c} (hinv : Inv m.process)
    (hstop : c = .shutdown → m.process.wd.stop.isSome = true) (halive : m.Alive)
    (hc : Clocked m) (hl : Linked m) (h : exec i c m r m') : Clocked m' ∧ Linked m' := by
  have hquiet {p : Process} (hq : Quiet m.process p) :
      Clocked { m with process := p } ∧ Linked { m with process := p } :=
    ⟨hc.quiet halive hq, hl.quiet hq⟩
  cases c with
  | init =>
    obtain ⟨result, d, p, hasked, hinit, rfl⟩ := h
    exact init_keeps hinv halive hc hl hasked hinit
  | shutdown =>
    obtain ⟨result, d, hasked, rfl⟩ := h
    exact shutdown_keeps (hstop rfl) halive hc hl hasked
  | feed =>
    obtain ⟨result, d, hasked, rfl⟩ := h
    exact feed_keeps halive hc hl hasked
  | stop =>
    obtain ⟨p, rfl, rfl⟩ := h
    exact hquiet (quiet_stop m.process)
  | softwareReboot =>
    obtain ⟨p, ⟨n, -, rfl⟩, rfl⟩ := h
    exact hquiet ⟨Iff.rfl, rfl, rfl, rfl, List.Subset.refl _⟩
  | status | withCancel | ctxDone | lastFoodTime | now =>
    obtain ⟨p, ⟨-, rfl⟩, rfl⟩ := h
    exact hquiet ⟨Iff.rfl, rfl, rfl, rfl, List.Subset.refl _⟩
  | setStop | goFeed | run =>
    obtain ⟨p, rfl, rfl⟩ := h
    exact hquiet ⟨Iff.rfl, rfl, rfl, rfl, List.Subset.refl _⟩

/-- The kernel closes the file, and finds no `V`. -/
theorem Linked.die (h : Linked m) (hdead : m.dead = none) : Linked m.die where
  held _ _ hd := nomatch hd
  running he hd hs := by
    have hping := h.running he hd (.inl hdead)
    have hheld := h.held he hd hdead
    have hsticky : m.device.magicClose = true ∨ m.device.nowayout = true := by
      have hsame := same_die m
      rcases hs with hs | hs | hs
      · cases hs
      · exact .inl (hsame.magicClose.symm.trans hs)
      · exact .inr (hsame.nowayout.symm.trans hs)
    unfold Machine.die
    dsimp only
    split
    · rcases hsticky with hs | hs <;> simp [Device.release, hheld, hs, hping]
    · exact hping
  off he hs hway := by
    have hnone := h.off he hs ((same_die m).nowayout.symm.trans hway)
    cases hping : m.die.device.lastPing with
    | none => rfl
    | some t =>
      unfold Machine.die at hping
      dsimp only at hping
      split at hping
      · simp [Device.release, hnone] at hping
      · exact absurd (hnone.symm.trans hping) (by simp)
  timeout he := (h.timeout he).trans (same_die m).period.symm

theorem elapses_keeps {m' : Machine} (hc : Clocked m) (hl : Linked m) (he : Elapses m m') :
    Clocked m' ∧ Linked m' := by
  cases he with
  | tick hle hreset hdue =>
    refine ⟨⟨Int.le_trans hc.food hle, fun t ht => ?_, hc.died, fun _ => hdue, fun hr => ?_⟩,
      ⟨hl.held, hl.running, hl.off, hl.timeout⟩⟩
    · exact ⟨(hc.fed t ht).1, Int.le_trans (hc.fed t ht).2 hle⟩
    · exact absurd (hreset.symm.trans hr) (by decide)
  | stopped => exact ⟨⟨hc.food, hc.fed, hc.died, hc.due, hc.overdue⟩,
      ⟨hl.held, hl.running, hl.off, hl.timeout⟩⟩
  | killed halive => exact ⟨hc.die halive.reset, hl.die halive.dead⟩
  | reset ht hdue =>
    refine ⟨⟨hc.food, hc.fed, hc.died, fun hr => ?_, fun _ => ⟨_, ht, hdue⟩⟩,
      ⟨hl.held, hl.running, hl.off, hl.timeout⟩⟩
    cases hr

end Links

/-! ### A small machine -/

section Small

/-- A softdog of a minute. -/
def softdog : Device := ⟨60, by decide, false, true, false, false, none⟩

/-- The device as `start` leaves it. -/
def runningDog (now : Time) : Device :=
  { softdog with opened := true, lastPing := some now }

def armedMachine (softwareRebootEnv : String) (now : Time) : Machine :=
  ⟨armedProcess softwareRebootEnv now, runningDog now, none, false⟩

variable {users : Nat → Routine} {ok : Option Thread → MachineState → MachineState → Prop}
  {m₀ m m' : Machine}

theorem machine_inStart {place : StartPlace} (after : StartPlace) {c : Call}
    {k : Resp c → Routine} {r : Resp c}
    (hok : ∀ mover s s', (∀ n, s.threads (.user n) = none) → ok mover s s')
    (h : (machines users).Run ok m₀ ⟨m, inStart place⟩) (hcall : place.rest = .call c k)
    (he : (machines users).exec (.start 0) c m r m') (hafter : k r = after.rest) :
    (machines users).Run ok m₀ ⟨m', inStart after⟩ := by
  have hi : inStart place (.start 0) = some (.call c k) := congrArg some hcall
  have hnext := h.call (.start 0) hi he (hok _ _ _ fun _ => rfl)
  rw [inStart, Function.update_idem, hafter] at hnext
  exact hnext

theorem start_softdog (now : Time) :
    start.Runs (Kernel now) { softdog with opened := false, lastPing := none } (.ok minute)
      (runningDog now) := by
  have hminute : minute = softdog.timeout.toInt64 * second := by decide
  rw [hminute]
  exact .call (.opened rfl) (.call .support (.call .timeout .ret))

theorem machine_armed (softwareRebootEnv : String) (now : Time)
    (hok : ∀ mover s s', (∀ n, s.threads (.user n) = none) → ok mover s s') :
    (machines users).Run ok (boot softwareRebootEnv now softdog)
      ⟨armedMachine softwareRebootEnv now, inStart (.goFeed 0)⟩ := by
  have h : (machines users).Run ok (boot softwareRebootEnv now softdog)
      ⟨boot softwareRebootEnv now softdog, inStart .init⟩ :=
    Interaction.System.Run.start .refl (.start 0) rfl trivial (hok _ _ _ fun _ => rfl)
  have h := machine_inStart .check hok h rfl ⟨⟨rfl, rfl, rfl⟩, rfl,
    ⟨.ok minute, runningDog now, _, start_softdog now, rfl, rfl⟩, rfl⟩ rfl
  have h := machine_inStart .withCancel hok h rfl
    ⟨⟨rfl, rfl, rfl⟩, rfl, ⟨_, ⟨rfl, rfl⟩, rfl⟩, rfl⟩ rfl
  have h := machine_inStart (.setStop 0) hok h rfl
    ⟨⟨rfl, rfl, rfl⟩, rfl, ⟨_, ⟨rfl, rfl⟩, rfl⟩, rfl⟩ rfl
  exact machine_inStart (r := ()) (.goFeed 0) hok h rfl
    ⟨⟨rfl, rfl, rfl⟩, rfl, ⟨_, rfl, rfl⟩, rfl⟩ rfl

end Small

/-! ## 7. All interleavings -/

section Interleavings

variable {users : Nat → Routine} {softwareRebootEnv : String} {now : Time} {d : Device}
  {s s' : MachineState}

theorem machine_step {mover : Option Thread}
    (hlife : (lifecycle users).Holds (s.view Machine.process)) (hc : Clocked s.world)
    (hl : Linked s.world) (hs : (machines users).Step mover s s') :
    Clocked s'.world ∧ Linked s'.world := by
  obtain ⟨hknown, hat⟩ := hlife
  cases hs with
  | env he => exact elapses_keeps hc hl he
  | start _ _ => exact ⟨hc, hl⟩
  | abandon _ => exact ⟨hc, hl⟩
  | @call m m' t i c k r hi he =>
    obtain ⟨halive, hmay, hexec, -⟩ := he
    refine exec_keeps hknown.1 ?_ halive hc hl hexec
    rintro rfl
    exact ((hat i _ hi).shutdown hmay).1
  | @crash m m' t i c k hi he =>
    obtain ⟨halive, hmay, r, m₁, hexec, -, rfl⟩ := he
    have hstop : c = .shutdown → m.process.wd.stop.isSome = true := by
      rintro rfl
      exact ((hat i _ hi).shutdown hmay).1
    obtain ⟨hc₁, hl₁⟩ := exec_keeps hknown.1 hstop halive hc hl hexec
    obtain ⟨hdead, hreset⟩ := exec_frame hexec
    exact ⟨hc₁.die (hreset.trans halive.reset), hl₁.die (hdead.trans halive.dead)⟩

theorem anyStep_view {w₀ : Machine} (h : (machines users).Run Interaction.System.AnyStep w₀ s) :
    (system users).Run Interaction.System.AnyStep w₀.process (s.view Machine.process) :=
  (machines_view users).run h

theorem boot_clocked (hzero : zeroTime ≤ now) : Clocked (boot softwareRebootEnv now d) where
  food := hzero
  fed _ ht := nomatch ht
  died _ hdead := nomatch hdead
  due _ _ ht := nomatch ht
  overdue hreset := nomatch hreset

theorem boot_linked : Linked (boot softwareRebootEnv now d) := by
  have hnot : ¬ Engaged (boot softwareRebootEnv now d).process := by
    rintro (h | h) <;> cases h
  exact ⟨fun h => absurd h hnot, fun h => absurd h hnot, fun _ _ _ => rfl,
    fun h => absurd h hnot⟩

/-- In every state the timer goes with the clock and the status. -/
theorem deviceInv_reachable (hzero : zeroTime ≤ now)
    (h : (machines users).Run Interaction.System.AnyStep (boot softwareRebootEnv now d) s) :
    Clocked s.world ∧ Linked s.world := by
  induction h with
  | refl => exact ⟨boot_clocked hzero, boot_linked⟩
  | tail hrun hs ih =>
    obtain ⟨mover, hstep, -⟩ := hs
    have hlife := (lifecycle users).reachable (known_newProcess softwareRebootEnv now)
      (anyStep_view hrun)
    exact machine_step hlife ih.1 ih.2 hstep

/-! ### The device stays the same one -/

theorem Asked.kin {α : Type} {asks : Bool} {prog : Sys α} {m : Machine} {a : α} {d : Device}
    (h : Asked asks prog m a d) : m.device.Kin d := by
  unfold Asked at h
  split at h
  · exact (runs_same h).toKin
  · exact h ▸ .refl _

theorem exec_kin {i : Thread} {c : Call} {m m' : Machine} {r : Resp c} (h : exec i c m r m') :
    m.device.Kin m'.device := by
  cases c with
  | init =>
    obtain ⟨result, d, p, hasked, -, rfl⟩ := h
    exact hasked.kin
  | shutdown =>
    obtain ⟨result, d, hasked, rfl⟩ := h
    exact hasked.kin
  | feed =>
    obtain ⟨result, d, hasked, rfl⟩ := h
    exact hasked.kin
  | _ =>
    obtain ⟨p, -, rfl⟩ := h
    exact .refl _

theorem step_kin {mover : Option Thread} (hs : (machines users).Step mover s s') :
    s.world.device.Kin s'.world.device := by
  cases hs with
  | env he =>
    cases he with
    | tick _ _ _ => exact .refl _
    | stopped => exact .refl _
    | killed _ => exact (same_die _).toKin
    | reset _ _ => exact .refl _
  | start _ _ => exact .refl _
  | abandon _ => exact .refl _
  | call _ he => exact exec_kin he.2.2.1
  | crash _ he =>
    obtain ⟨-, -, r, m₁, hexec, -, rfl⟩ := he
    exact (exec_kin hexec).trans (same_die m₁).toKin

theorem run_kin (h : (machines users).Run Interaction.System.AnyStep
    (boot softwareRebootEnv now d) s) : d.Kin s.world.device := by
  induction h with
  | refl => exact ⟨rfl, rfl, rfl⟩
  | tail _ hs ih =>
    obtain ⟨mover, hstep, -⟩ := hs
    exact ih.trans (step_kin hstep)

/-! ## 8. Deaths and resets -/

/-- What a reset by the watchdog comes from: it was triggered, or it was armed and nobody has
fed it for a whole timeout, or `start` has failed. A watchdog that was disarmed resets
nothing. -/
theorem reset_cause (hzero : zeroTime ≤ now) (hway : d.nowayout = false)
    (h : (machines users).Run Interaction.System.AnyStep (boot softwareRebootEnv now d) s)
    (hreset : s.world.reset = true) :
    s.world.process.wd.status = .triggered ∨
    (s.world.process.wd.status = .armed ∧
      s.world.process.wd.lastFoodTime + s.world.process.wd.timeout.toInt ≤ s.world.process.now) ∨
    .start false ∈ s.world.process.events := by
  obtain ⟨hc, hl⟩ := deviceInv_reachable hzero h
  obtain ⟨t, ht, hdue⟩ := hc.overdue hreset
  by_cases hengaged : Engaged s.world.process
  · rcases hengaged with harmed | htriggered
    · refine .inr (.inl ⟨harmed, ?_⟩)
      rw [hl.timeout (.inl harmed)]
      exact Int.le_trans (Int.add_le_add_right (hc.fed t ht).1 _) hdue
    · exact .inl htriggered
  · by_cases hstart : .start false ∈ s.world.process.events
    · exact .inr (.inr hstart)
    · have hoff := hl.off hengaged hstart ((run_kin h).nowayout.trans hway)
      cases hoff.symm.trans ht

/-- A minute passes and nobody feeds the watchdog. -/
theorem reset_cause_small : ∃ s : MachineState,
    (machines rebooters).Run Interaction.System.AnyStep (boot "false" 0 softdog) s ∧
    s.world.reset = true ∧ (s.world.process.wd.status = .triggered ∨
      (s.world.process.wd.status = .armed ∧ s.world.process.wd.lastFoodTime +
        s.world.process.wd.timeout.toInt ≤ s.world.process.now) ∨
      .start false ∈ s.world.process.events) := by
  have h : (machines rebooters).Run Interaction.System.AnyStep _ _ :=
    machine_armed "false" 0 fun _ _ _ _ => trivial
  have hle : (armedMachine "false" 0).process.now ≤ 60000000000 := by decide
  have h := h.env (.tick hle rfl fun t ht => by cases ht; decide) trivial
  have h := h.env (.reset (t := 0) rfl (by decide)) trivial
  exact ⟨_, h, rfl, reset_cause (by decide) rfl h rfl⟩

/-! ## 9. Reboots -/

/-- What can happen from a state on. -/
def Later (users : Nat → Routine) : MachineState → MachineState → Prop :=
  Relation.ReflTransGen fun s s' => ∃ mover, (machines users).Step mover s s'

theorem Later.run {w₀ : Machine} (hl : Later users s s')
    (h : (machines users).Run Interaction.System.AnyStep w₀ s) :
    (machines users).Run Interaction.System.AnyStep w₀ s' := by
  induction hl with
  | refl => exact h
  | tail _ hs ih =>
    obtain ⟨mover, hstep⟩ := hs
    exact ih.tail ⟨mover, hstep, trivial⟩

theorem Later.start {m : Machine} {t : Thread → Option Routine} (h : Later users s ⟨m, t⟩)
    (i : Thread) (hi : t i = none) (hready : (machines users).ready i m) :
    Later users s ⟨m, Function.update t i (some ((machines users).main i))⟩ :=
  h.tail ⟨none, .start hi hready⟩

theorem Later.call {m m' : Machine} {t : Thread → Option Routine} {c : Call}
    {k : Resp c → Routine} {r : Resp c} (h : Later users s ⟨m, t⟩) (i : Thread)
    (hi : t i = some (.call c k)) (he : (machines users).exec i c m r m') :
    Later users s ⟨m', Function.update t i (some (k r))⟩ :=
  h.tail ⟨some i, .call hi he⟩

end Interleavings

end SelfNodeRemediation.Watchdog.Linux
