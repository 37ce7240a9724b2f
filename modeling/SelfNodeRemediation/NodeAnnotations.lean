import SelfNodeRemediation.Lib.Binary64
import SelfNodeRemediation.AgentEnvironment
import SelfNodeRemediation.LinuxWatchdog
import SelfNodeRemediation.RebootDuration

/-!
# The annotations of a node

An agent tells the manager through two annotations of its node whether it can reboot the
node and how long its watchdog takes. It writes them once, when the watchdog has started or
failed to, while the watchdog is fed, stopped and shut down by others. The manager reads the
timeout back when it calculates how long it waits for a reboot.

* `newAnnotationUpdater`, `updateNodeAnnotations`: the programs, `mergePatch` what the API
  server makes of the patch.
* `ceilSeconds_mul`: a timeout of whole seconds survives the way through the annotation.
* `started_step`: what is settled once the watchdog has started.
* `annotations_truthful`: what the annotations say, in every interleaving.
* `reset_before_assumed`: the manager does not assume a reboot before the watchdog has reset
  the machine.
-/

namespace SelfNodeRemediation.NodeAnnotations

open Interaction Watchdog Watchdog.Linux

/-! ## 1. The programs -/

abbrev Annotations := Dict String String

/-- The merge patch between two versions, applied to a third: what differs is set, or
removed. -/
def mergePatch (base modified current : Annotations) : Annotations :=
  Dict.tabulate (current.keys ∪ modified.keys) fun k =>
    if base.get? k = modified.get? k then current.get? k else modified.get? k

theorem get?_mergePatch (base modified current : Annotations) (k : String) :
    (mergePatch base modified current).get? k =
      if base.get? k = modified.get? k then current.get? k else modified.get? k := by
  refine Dict.get?_tabulate_eq (fun k hk => ?_) k
  rw [Finset.notMem_union] at hk
  rw [Dict.get?_eq_none hk.1, Dict.get?_eq_none hk.2, ite_self]

/-- `d.Seconds()`: the seconds and the rest of a duration are added as floats. -/
def seconds (d : Duration) : ℚ :=
  Binary64.round (d.toInt.tdiv 1000000000 + Binary64.round (d.toInt.tmod 1000000000 / 1000000000))

/-- `int(math.Ceil(d.Seconds()))` -/
def ceilSeconds (d : Duration) : Int64 := Int64.ofInt ⌈seconds d⌉

/-- What a select was woken up by. -/
inductive Selected
  | ctxDone
  | started
deriving DecidableEq, Repr

inductive Call
  | select
  | pollStarted
  | status
  | getTimeout
  | getNode
  | getenv
  | patch (base modified : Annotations)

abbrev Resp : Call → Type
  | .select => Selected
  | .pollStarted => Bool
  | .status => WatchdogStatus
  | .getTimeout => Duration
  | .getNode => Except GoErr Annotations
  | .getenv => String
  | .patch _ _ => Except GoErr Unit

abbrev P (α : Type) := Prog Call Resp α

def ask (c : Call) : P (Resp c) := Prog.perform c

section Programs

variable (nodeName : String)

def patchNode (base modified : Annotations) : P (Except GoErr Unit) := do
  match ← ask (.patch base modified) with
  | .error err =>
    return .error (err.wrap ("failed to add node annotation to node: " ++ nodeName ++ " "))
  | .ok _ => return .ok ()

/-- The annotations of a node that is reboot capable if its watchdog was initiated or
software reboot is enabled. -/
def annotate (watchdogInitiated softwareRebootEnabled : Bool) (watchdogTimeout : Duration)
    (annotations : Annotations) : Annotations :=
  (annotations.set isRebootCapableAnnotation
    (if watchdogInitiated || softwareRebootEnabled then "true" else "false")).set
    watchdogTimeoutSecondsAnnotation (Install.itoa (ceilSeconds watchdogTimeout))

def patchEnabled (watchdogInitiated : Bool) (watchdogTimeout : Duration)
    (annotations : Annotations) : Except GoErr Bool → P (Except GoErr Unit)
  | .error err => return .error err
  | .ok softwareRebootEnabled =>
    patchNode nodeName annotations
      (annotate watchdogInitiated softwareRebootEnabled watchdogTimeout annotations)

/-- The update of a node that was read. -/
def updateNode (watchdogInitiated : Bool) (watchdogTimeout : Duration)
    (annotations : Annotations) : P (Except GoErr Unit) := do
  let env ← ask .getenv
  patchEnabled nodeName watchdogInitiated watchdogTimeout annotations (isSoftwareRebootEnabled env)

def updateNodeAnnotations (watchdogInitiated : Bool) (watchdogTimeout : Duration) :
    P (Except GoErr Unit) := do
  match ← ask .getNode with
  | .error err => return .error (err.wrap ("failed to retrieve my node: " ++ nodeName ++ " "))
  | .ok annotations => updateNode nodeName watchdogInitiated watchdogTimeout annotations

/-- The outcome of the start is recorded. -/
def recordOutcome : P (Except GoErr Unit) := do
  let status ← ask .status
  let timeout ← ask .getTimeout
  updateNodeAnnotations nodeName (status == .armed) timeout

/-- On shutdown, the outcome is still recorded if there is one. -/
def recordAtShutdown : P (Except GoErr Unit) := do
  if ← ask .pollStarted then recordOutcome nodeName else return .ok ()

/-- The runnable of `NewAnnotationUpdater`, with or without a watchdog. -/
def newAnnotationUpdater : Bool → P (Except GoErr Unit)
  | true => do
    match ← ask .select with
    | .ctxDone => recordAtShutdown nodeName
    | .started => recordOutcome nodeName
  | false => updateNodeAnnotations nodeName false 0

end Programs

/-! ## 2. The world -/

/-- The machine with its process, and the annotations of its node. -/
structure AgentNode where
  state : MachineState
  annotations : Annotations
  /-- The process was shut down, and the updater has found the watchdog not started. -/
  missed : Bool

/-- The process on the machine. -/
abbrev AgentNode.process (w : AgentNode) : Process := w.state.world.process

/-- What the calls of the updater do. The node is read from the API server, and the answer
to a patch may be lost. -/
inductive Exec : (c : Call) → AgentNode → Resp c → AgentNode → Prop
  | ctxDone {w : AgentNode} (h : w.process.stopping = true) : Exec .select w .ctxDone w
  | started {w : AgentNode} (h : w.process.wd.started = true) : Exec .select w .started w
  | pollStarted {w : AgentNode} : Exec .pollStarted w w.process.wd.started
      { w with missed := w.missed || !w.process.wd.started }
  | status {w : AgentNode} : Exec .status w w.process.wd.status w
  | getTimeout {w : AgentNode} : Exec .getTimeout w w.process.wd.timeout w
  | getNode {w : AgentNode} : Exec .getNode w (.ok w.annotations) w
  | getNodeFailed {w : AgentNode} (err : GoErr) : Exec .getNode w (.error err) w
  | getenv {w : AgentNode} : Exec .getenv w w.process.softwareRebootEnv w
  | patched {w : AgentNode} {base modified : Annotations} (r : Except GoErr Unit) :
      Exec (.patch base modified) w r
        { w with annotations := mergePatch base modified w.annotations }
  | patchFailed {w : AgentNode} {base modified : Annotations} (err : GoErr) :
      Exec (.patch base modified) w (.error err) w

/-- The annotations that only the agent writes. -/
def ownKeys : List String :=
  isRebootCapableAnnotation :: watchdogTimeoutSecondsAnnotation :: []

/-- The machine goes on, and others write other annotations. -/
inductive Moves (users : Nat → Routine) : AgentNode → AgentNode → Prop
  | machine {w : AgentNode} {mover : Option Thread} {s : MachineState}
      (h : (machines users).Step mover w.state s) : Moves users w { w with state := s }
  | others {w : AgentNode} {annotations : Annotations}
      (h : ∀ k ∈ ownKeys, annotations.get? k = w.annotations.get? k) :
      Moves users w { w with annotations := annotations }

/-- The states of an agent whose updater runs among the moves of the others. -/
def Reached (users : Nat → Routine) (nodeName softwareRebootEnv : String) (now : Time)
    (d : Device) (annotations : Annotations)
    (s : Interaction.State Call Resp AgentNode (Except GoErr Unit)) : Prop :=
  Reachable Exec (Moves users) (newAnnotationUpdater nodeName true)
    ⟨⟨boot softwareRebootEnv now d, fun _ => none⟩, annotations, false⟩ s

/-! ## 3. Whole seconds -/

/-- Whole seconds fit into a float. -/
theorem seconds_mul {d : Duration} {k : Int} (hk : d.toInt = 1000000000 * k) : seconds d = k := by
  have hlt := d.toInt_lt
  have hle := d.le_toInt
  have hzero : Binary64.round (0 : ℚ) = 0 := by
    exact_mod_cast Binary64.round_intCast (n := 0) (by decide)
  have hsize : |k| < 2 ^ 53 := abs_lt.mpr (by omega)
  unfold seconds
  rw [hk, Int.mul_tdiv_cancel_left _ (by decide), Int.mul_tmod_right, Int.cast_zero, zero_div,
    hzero, add_zero, Binary64.round_intCast hsize]

/-- Whole seconds are counted exactly. -/
theorem ceilSeconds_toInt {t : Duration} (h : (1000000000 : Int) ∣ t.toInt) :
    (ceilSeconds t).toInt * 1000000000 = t.toInt := by
  obtain ⟨k, hk⟩ := h
  have hlt := t.toInt_lt
  have hle := t.le_toInt
  have hsize : (Int64.ofInt k).toInt = k := by
    rw [Int64.toInt_ofInt, show Int64.size = 2 ^ 64 from rfl]
    apply Int.bmod_eq_of_le <;> omega
  unfold ceilSeconds
  rw [seconds_mul hk, Int.ceil_intCast, hsize, hk, Int.mul_comm]

/-- A duration of whole seconds is not changed by the way through the annotation. -/
theorem ceilSeconds_mul {t : Duration} (h : (1000000000 : Int) ∣ t.toInt) :
    ceilSeconds t * second = t := by
  have hlt := t.toInt_lt
  have hle := t.le_toInt
  apply Int64.toInt_inj.mp
  rw [Int64.toInt_mul, show second.toInt = 1000000000 from rfl, ceilSeconds_toInt h]
  apply Int.bmod_eq_of_le <;> omega

/-! ## 4. The outcome of the start -/

section Outcome

variable {p p' : Process} {i : Thread} {c : Watchdog.Call} {r : Watchdog.Resp c}

/-- What a section keeps of the outcome of the start. -/
structure Kept (p p' : Process) : Prop where
  started : p'.wd.started = p.wd.started
  timeout : p'.wd.timeout = p.wd.timeout
  outcome : .start true ∈ p'.events ↔ .start true ∈ p.events
  armed : p'.wd.status = .armed → p.wd.status = .armed
  env : p'.softwareRebootEnv = p.softwareRebootEnv

theorem Kept.refl (p : Process) : Kept p p := ⟨rfl, rfl, Iff.rfl, id, rfl⟩

theorem kept_stopFeeding (p : Process) {status : WatchdogStatus} (h : status ≠ .armed) :
    Kept p (p.stopFeeding status) := by
  unfold Process.stopFeeding
  cases p.wd.stop with
  | none => exact ⟨rfl, rfl, Iff.rfl, id, rfl⟩
  | some ctx => exact ⟨rfl, rfl, by simp [Process.setStatus], fun h' => absurd h' h, rfl⟩

theorem kept_record (p : Process) {e : Event} (h : e ≠ .start true) : Kept p (p.record e) :=
  ⟨rfl, rfl, by simp [Process.record, h.symm], id, rfl⟩

theorem Kept.trans {p'' : Process} (h : Kept p p') (h' : Kept p' p'') : Kept p p'' :=
  ⟨h'.started.trans h.started, h'.timeout.trans h.timeout, h'.outcome.trans h.outcome,
    fun ha => h.armed (h'.armed ha), h'.env.trans h.env⟩

/-- Only `init` of a watchdog that was not started decides anything. -/
theorem exec_kept (h : Watchdog.exec i c p r p') (hc : c = .init → p.wd.started = true) :
    Kept p p' := by
  cases c with
  | init =>
    obtain ⟨result, h⟩ := h
    rw [init, if_pos (hc rfl)] at h
    cases h
    exact .refl p
  | shutdown =>
    obtain ⟨result, rfl⟩ := h
    unfold shutdown
    split
    · cases result with
      | error err => exact kept_record p (by decide)
      | ok _ => exact (kept_record p (by decide)).trans (kept_stopFeeding _ (by decide))
    · exact .refl p
  | feed =>
    obtain ⟨result, rfl⟩ := h
    unfold Watchdog.feed
    split
    · exact .refl p
    · cases result with
      | error err => exact kept_record p (by simp)
      | ok _ =>
        have hrecord := kept_record p (e := .feed p.wd.status true) (by simp)
        exact ⟨rfl, rfl, hrecord.outcome, id, rfl⟩
  | stop =>
    cases h
    unfold stop
    split
    · exact kept_stopFeeding p (by decide)
    · exact .refl p
  | softwareReboot =>
    obtain ⟨n, -, rfl⟩ := h
    exact ⟨rfl, rfl, Iff.rfl, id, rfl⟩
  | status | withCancel | ctxDone | lastFoodTime | now =>
    obtain ⟨-, rfl⟩ := h
    exact ⟨rfl, rfl, Iff.rfl, id, rfl⟩
  | setStop | goFeed | run =>
    cases h
    exact ⟨rfl, rfl, Iff.rfl, id, rfl⟩

/-- The recorded timeout is the one of the device, or zero. -/
structure Timed (m : Linux.Machine) : Prop where
  started : .start true ∈ m.process.events → m.process.wd.timeout.toInt = m.device.period
  failed : .start true ∉ m.process.events → m.process.wd.timeout = 0

theorem Timed.kept {m m' : Linux.Machine} (h : Timed m) (hk : Kept m.process m'.process)
    (hd : m.device.Kin m'.device) : Timed m' where
  started hs := by
    rw [hk.timeout, hd.period]
    exact h.started (hk.outcome.mp hs)
  failed hs := hk.timeout.trans (h.failed fun h' => hs (hk.outcome.mpr h'))

theorem init_timed {m m' : Linux.Machine} {r : Except GoErr Unit} (hinv : Inv m.process)
    (h : Timed m) (hstarted : m.process.wd.started = false) (he : Linux.exec i .init m r m') :
    Timed m' := by
  have hevents := (hstarted ▸ hinv.stage).unstarted.2
  obtain ⟨result, d, p, hasked, hinit, rfl⟩ := he
  simp only [Asked, hstarted, Bool.not_false, if_true] at hasked
  rw [init, if_neg (Bool.eq_false_iff.mp hstarted)] at hinit
  cases result with
  | ok timeout =>
    cases hinit
    obtain ⟨-, -, htimeout⟩ := start_runs hasked
    refine ⟨fun _ => ?_, fun hs => absurd ?_ hs⟩
    · show timeout.toInt = d.period
      rw [htimeout, toInt_timeout, (runs_same hasked).period]
    · simp [Process.record, Process.setStatus]
  | error startErr =>
    have hzero := h.failed (by simp [hevents])
    dsimp only [Process.record, Process.setStatus] at hinit
    split at hinit <;> cases hinit <;>
      exact ⟨fun hs => absurd hs (by simp [hevents]), fun _ => hzero⟩

theorem exec_timed {m m' : Linux.Machine} (hinv : Inv m.process) (h : Timed m)
    (he : Linux.exec i c m r m') : Timed m' := by
  by_cases hc : c = .init → m.process.wd.started = true
  · exact h.kept (exec_kept (exec_view he) hc) (exec_kin he)
  · obtain ⟨rfl, hstarted⟩ := Classical.not_imp.mp hc
    exact init_timed hinv h (Bool.eq_false_iff.mpr hstarted) he

theorem Timed.die {m : Linux.Machine} (h : Timed m) : Timed m.die :=
  h.kept (.refl _) (same_die m).toKin

variable {users : Nat → Routine} {mover : Option Thread} {s s' : MachineState}

theorem timed_step (hlife : (lifecycle users).Holds (s.view Linux.Machine.process))
    (h : Timed s.world) (hs : (machines users).Step mover s s') : Timed s'.world := by
  obtain ⟨hknown, -⟩ := hlife
  cases hs with
  | env he =>
    cases he with
    | tick _ _ _ => exact ⟨h.started, h.failed⟩
    | stopped => exact ⟨h.started, h.failed⟩
    | killed _ => exact h.die
    | reset _ _ => exact ⟨h.started, h.failed⟩
  | start _ _ => exact h
  | abandon _ => exact h
  | call _ he => exact exec_timed hknown.1 h he.2.2.1
  | crash _ he =>
    obtain ⟨-, -, r, m₁, hexec, -, rfl⟩ := he
    exact (exec_timed hknown.1 h hexec).die

variable {softwareRebootEnv : String} {now : Time} {d : Device}

theorem lifecycle_reachable
    (h : (machines users).Run Interaction.System.AnyStep (boot softwareRebootEnv now d) s) :
    (lifecycle users).Holds (s.view Linux.Machine.process) :=
  (lifecycle users).reachable (known_newProcess softwareRebootEnv now) (anyStep_view h)

theorem timed_reachable
    (h : (machines users).Run Interaction.System.AnyStep (boot softwareRebootEnv now d) s) :
    Timed s.world := by
  induction h with
  | refl => exact ⟨fun hs => absurd hs List.not_mem_nil, fun _ => rfl⟩
  | tail hrun hs ih =>
    obtain ⟨mover, hstep, -⟩ := hs
    exact timed_step (lifecycle_reachable hrun) ih hstep

/-- Once the watchdog has started or failed to, the outcome is settled. -/
theorem started_step (hstarted : s.world.process.wd.started = true)
    (hs : (machines users).Step mover s s') : Kept s.world.process s'.world.process := by
  cases hs with
  | env he =>
    cases he with
    | tick _ _ _ => exact ⟨rfl, rfl, Iff.rfl, id, rfl⟩
    | stopped => exact ⟨rfl, rfl, Iff.rfl, id, rfl⟩
    | killed _ => exact .refl _
    | reset _ _ => exact .refl _
  | start _ _ => exact .refl _
  | abandon _ => exact .refl _
  | call _ he => exact exec_kept (exec_view he.2.2.1) fun _ => hstarted
  | crash _ he =>
    obtain ⟨-, -, r, m₁, hexec, -, rfl⟩ := he
    have hprocess := exec_view hexec
    exact exec_kept hprocess fun _ => hstarted

end Outcome

/-! ## 5. The updater among the others -/

section Updater

variable (users : Nat → Routine) (softwareRebootEnv : String) (now : Time) (d : Device)

/-- The machine is in one of its own states, whatever the updater does. -/
def updaterOutline : Outline Call Resp AgentNode where
  exec := Exec
  env := Moves users
  inv w := (machines users).Run Interaction.System.AnyStep (boot softwareRebootEnv now d) w.state
  allowed _ _ := True
  inv_env h he := by
    cases he with
    | machine hs => exact h.tail ⟨_, hs, trivial⟩
    | others _ => exact h
  inv_exec h _ he := by
    cases he <;> exact h

variable {users softwareRebootEnv now d} {w w' : AgentNode} {nodeName : String}

/-- What the updater has read: the outcome of the start and the timeout. -/
structure Read (status : WatchdogStatus) (timeout : Duration) (w : AgentNode) : Prop where
  started : w.process.wd.started = true
  armed : status = .armed → .start true ∈ w.process.events
  idle : status ≠ .armed → w.process.wd.status ≠ .armed
  timeout : w.process.wd.timeout = timeout

theorem Read.kept {status : WatchdogStatus} {timeout : Duration} (h : Read status timeout w)
    (hk : Kept w.process w'.process) : Read status timeout w' where
  started := hk.started.trans h.started
  armed hs := hk.outcome.mpr (h.armed hs)
  idle hs ha := h.idle hs (hk.armed ha)
  timeout := hk.timeout.trans h.timeout

theorem stable_started : (updaterOutline users softwareRebootEnv now d).Stable
    fun w => w.process.wd.started = true := by
  intro w w' h he
  cases he with
  | machine hs => exact (started_step h hs).started.trans h
  | others _ => exact h

theorem stable_read (status : WatchdogStatus) (timeout : Duration) :
    (updaterOutline users softwareRebootEnv now d).Stable (Read status timeout) := by
  intro w w' h he
  cases he with
  | machine hs => exact h.kept (started_step h.started hs)
  | others _ => exact ⟨h.started, h.armed, h.idle, h.timeout⟩

theorem stable_missed : (updaterOutline users softwareRebootEnv now d).Stable
    fun w => w.missed = true := by
  intro w w' h he
  cases he <;> exact h

/-- The agent's own annotations are those of `base`. -/
def Holds (base : Annotations) (w : AgentNode) : Prop :=
  ∀ k ∈ ownKeys, w.annotations.get? k = base.get? k

theorem stable_holds (base : Annotations) :
    (updaterOutline users softwareRebootEnv now d).Stable (Holds base) := by
  intro w w' h he
  cases he with
  | machine _ => exact h
  | others hsame => exact fun k hk => (hsame k hk).trans (h k hk)

/-- What was patched is there, if nobody else writes these annotations. -/
theorem Holds.patched {base modified : Annotations} (h : Holds base w) :
    Holds modified { w with annotations := mergePatch base modified w.annotations } := by
  intro k hk
  show (mergePatch base modified w.annotations).get? k = modified.get? k
  rw [get?_mergePatch]
  split
  · next heq => exact (h k hk).trans heq
  · rfl

/-- The annotations say what the updater has read. -/
def Recorded (softwareRebootEnv : String) (w : AgentNode) : Prop :=
  ∃ status timeout softwareRebootEnabled base,
    isSoftwareRebootEnabled softwareRebootEnv = .ok softwareRebootEnabled ∧
    Read status timeout w ∧
    Holds (annotate (status == .armed) softwareRebootEnabled timeout base) w

def Post (softwareRebootEnv : String) (r : Except GoErr Unit) (w : AgentNode) : Prop :=
  r = .ok () → w.missed = false → Recorded softwareRebootEnv w

theorem env_reachable {s : MachineState} (h : (machines users).Run Interaction.System.AnyStep
    (boot softwareRebootEnv now d) s) : s.world.process.softwareRebootEnv = softwareRebootEnv := by
  induction h with
  | refl => rfl
  | tail _ hs ih =>
    obtain ⟨mover, hstep, -⟩ := hs
    cases hstep with
    | env he => cases he <;> exact ih
    | start _ _ => exact ih
    | abandon _ => exact ih
    | call _ he => exact (exec_grows (exec_view he.2.2.1)).env.trans ih
    | crash _ he =>
      obtain ⟨-, -, r, m₁, hexec, -, rfl⟩ := he
      have hprocess := exec_view hexec
      exact (exec_grows hprocess).env.trans ih

/-! ### The programs -/

theorem wp_failed {err : GoErr} : (updaterOutline users softwareRebootEnv now d).wp
    (.ret (.error err)) (Post softwareRebootEnv) w :=
  fun _ _ _ hr => nomatch hr

section Reading

variable {status : WatchdogStatus} {timeout : Duration}

theorem wp_patchNode {base : Annotations} {softwareRebootEnabled : Bool}
    (hread : Read status timeout w) (hbase : Holds base w)
    (henabled : isSoftwareRebootEnabled softwareRebootEnv = .ok softwareRebootEnabled) :
    (updaterOutline users softwareRebootEnv now d).wp (patchNode nodeName base
      (annotate (status == .armed) softwareRebootEnabled timeout base))
      (Post softwareRebootEnv) w := by
  refine Outline.wp_call ((stable_read status timeout).and (stable_holds base)) ⟨hread, hbase⟩
    (fun _ _ _ => trivial) ?_
  rintro w₁ r w₂ - ⟨hread, hbase⟩ he -
  cases he with
  | patchFailed err => exact wp_failed
  | patched r =>
    cases r with
    | error err => exact wp_failed
    | ok _ =>
      refine Outline.wp_ret ((stable_read status timeout).and (stable_holds _))
        ⟨⟨hread.started, hread.armed, hread.idle, hread.timeout⟩, hbase.patched⟩ ?_
      exact fun _ _ h _ _ => ⟨status, timeout, softwareRebootEnabled, base, henabled, h.1, h.2⟩

theorem wp_updateNodeAnnotations (hread : Read status timeout w) :
    (updaterOutline users softwareRebootEnv now d).wp
      (updateNodeAnnotations nodeName (status == .armed) timeout) (Post softwareRebootEnv) w := by
  refine Outline.wp_call (stable_read status timeout) hread (fun _ _ _ => trivial) ?_
  rintro w₁ r w₁' - hread he -
  cases he with
  | getNodeFailed err => exact wp_failed
  | getNode =>
    refine Outline.wp_call ((stable_read status timeout).and (stable_holds w₁.annotations))
      ⟨hread, fun _ _ => rfl⟩ (fun _ _ _ => trivial) ?_
    rintro w₂ r w₂' hinv ⟨hread, hbase⟩ he -
    cases he
    have henv : w₂.process.softwareRebootEnv = softwareRebootEnv := env_reachable hinv
    show (updaterOutline users softwareRebootEnv now d).wp
      (patchEnabled nodeName _ _ _ (isSoftwareRebootEnabled w₂.process.softwareRebootEnv)) _ _
    rw [henv]
    cases henabled : isSoftwareRebootEnabled softwareRebootEnv with
    | error err => exact wp_failed
    | ok softwareRebootEnabled => exact wp_patchNode hread hbase henabled

end Reading

/-- A watchdog that is found armed was started. -/
theorem armed_started {s : MachineState} (h : (machines users).Run Interaction.System.AnyStep
    (boot softwareRebootEnv now d) s) (harmed : s.world.process.wd.status = .armed) :
    .start true ∈ s.world.process.events := by
  have hstage := (lifecycle_reachable h).1.1.stage
  obtain ⟨-, served, -, hevents⟩ := Stage.serving (harmed ▸ hstage)
  have hmem : Event.start true ∈ arming ++ served := by simp [arming]
  exact hevents ▸ hmem

theorem wp_recordOutcome (hstarted : w.process.wd.started = true) :
    (updaterOutline users softwareRebootEnv now d).wp (recordOutcome nodeName)
      (Post softwareRebootEnv) w := by
  refine Outline.wp_call stable_started hstarted (fun _ _ _ => trivial) ?_
  rintro w₁ status w₁' hinv hstarted he -
  cases he
  have hread : Read w₁.process.wd.status w₁.process.wd.timeout w₁ :=
    ⟨hstarted, armed_started hinv, id, rfl⟩
  refine Outline.wp_call (stable_read _ _) hread (fun _ _ _ => trivial) ?_
  rintro w₂ timeout w₂' - hread he -
  cases he
  rw [hread.timeout]
  exact wp_updateNodeAnnotations hread

theorem wp_newAnnotationUpdater (w : AgentNode) :
    (updaterOutline users softwareRebootEnv now d).wp (newAnnotationUpdater nodeName true)
      (Post softwareRebootEnv) w := by
  refine Outline.wp_call Outline.stable_const trivial (fun _ _ _ => trivial) ?_
  rintro w₁ r w₁' - - he -
  cases he with
  | started h => exact wp_recordOutcome h
  | ctxDone _ =>
    refine Outline.wp_call Outline.stable_const trivial (fun _ _ _ => trivial) ?_
    rintro w₂ r w₂' - - he -
    cases he
    show (updaterOutline users softwareRebootEnv now d).wp
      (if w₂.process.wd.started then recordOutcome nodeName else .ret (.ok ())) _ _
    split
    · next hstarted => exact wp_recordOutcome hstarted
    · next hunstarted =>
      have hmissed : (w₂.missed || !w₂.process.wd.started) = true := by simp [hunstarted]
      refine Outline.wp_ret stable_missed hmissed ?_
      exact fun w₃ _ hm _ hno => absurd (hm.symm.trans hno) (by decide)

/-! ## 6. What the manager reads -/

/-- The annotations of a node as the manager has it. -/
def Shows (node : Node) (w : AgentNode) : Prop :=
  ∀ k, node.annotations.lookup k = w.annotations.get? k

theorem Timed.whole {m : Linux.Machine} (h : Timed m) :
    (1000000000 : Int) ∣ m.process.wd.timeout.toInt := by
  by_cases hs : .start true ∈ m.process.events
  · rw [h.started hs]
    exact Int.dvd_mul_left _ _
  · rw [h.failed hs]
    exact Int.dvd_zero _

theorem Recorded.lookup_timeout (h : Recorded softwareRebootEnv w) {node : Node}
    (hnode : Shows node w) :
    (node.annotations.lookup watchdogTimeoutSecondsAnnotation).getD "" =
      Install.itoa (ceilSeconds w.process.wd.timeout) := by
  obtain ⟨status, timeout, enabled, base, -, hread, hholds⟩ := h
  rw [hnode, hholds _ (by simp [ownKeys]), annotate, Dict.get?_set_self, hread.timeout]
  rfl

theorem Recorded.lookup_capable (h : Recorded softwareRebootEnv w) {node : Node}
    (hnode : Shows node w) :
    (node.annotations.lookup isRebootCapableAnnotation = some "true" ∧
      (isSoftwareRebootEnabled softwareRebootEnv = .ok true ∨ .start true ∈ w.process.events)) ∨
    (node.annotations.lookup isRebootCapableAnnotation = some "false" ∧
      isSoftwareRebootEnabled softwareRebootEnv = .ok false ∧ w.process.wd.status ≠ .armed) := by
  obtain ⟨status, timeout, enabled, base, henabled, hread, hholds⟩ := h
  have hne : isRebootCapableAnnotation ≠ watchdogTimeoutSecondsAnnotation := by decide
  rw [hnode, hholds _ (by simp [ownKeys]), annotate, Dict.get?_set_of_ne _ hne,
    Dict.get?_set_self, henabled]
  by_cases harmed : status = .armed
  · exact .inl ⟨by simp [harmed], .inr (hread.armed harmed)⟩
  · cases enabled with
    | true => exact .inl ⟨by simp, .inl rfl⟩
    | false => exact .inr ⟨by simp [harmed], rfl, hread.idle harmed⟩

theorem Recorded.getWatchdogTimeout (h : Recorded softwareRebootEnv w)
    (ht : Timed w.state.world) {node : Node} (hnode : Shows node w) :
    getWatchdogTimeout node = some w.process.wd.timeout := by
  unfold SelfNodeRemediation.getWatchdogTimeout
  rw [h.lookup_timeout hnode, Install.atoi_itoa]
  exact congrArg some (ceilSeconds_mul ht.whole)

theorem Recorded.watchdogNumber (h : Recorded softwareRebootEnv w) (ht : Timed w.state.world)
    {node : Node} (hnode : Shows node w) : watchdogNumber node = w.process.wd.timeout.toInt := by
  unfold SelfNodeRemediation.watchdogNumber
  rw [h.lookup_timeout hnode, Install.atoi_itoa]
  exact ceilSeconds_toInt ht.whole

section Small

theorem Reached.later {annotations : Annotations} {p : Option (P (Except GoErr Unit))}
    {s' : MachineState}
    (h : Reached users nodeName softwareRebootEnv now d annotations ⟨w, p⟩)
    (hl : Later users w.state s') :
    Reached users nodeName softwareRebootEnv now d annotations ⟨{ w with state := s' }, p⟩ := by
  induction hl with
  | refl => exact h
  | tail _ hs ih =>
    obtain ⟨mover, hstep⟩ := hs
    exact ih.tail (.env (.machine hstep))

/-- An undisturbed run of the updater. -/
theorem newAnnotationUpdater_runs {enabled : Bool} (hstarted : w.process.wd.started = true)
    (henabled : isSoftwareRebootEnabled w.process.softwareRebootEnv = .ok enabled) :
    (newAnnotationUpdater nodeName true).Runs Exec w (.ok ())
      { w with annotations := mergePatch w.annotations (annotate (w.process.wd.status == .armed)
        enabled w.process.wd.timeout w.annotations) w.annotations } := by
  have hpatch : (patchEnabled nodeName (w.process.wd.status == .armed) w.process.wd.timeout
      w.annotations (isSoftwareRebootEnabled w.process.softwareRebootEnv)).Runs Exec w (.ok ())
      { w with annotations := mergePatch w.annotations (annotate (w.process.wd.status == .armed)
        enabled w.process.wd.timeout w.annotations) w.annotations } := by
    rw [henabled]
    exact .call (.patched (.ok ())) .ret
  exact .call (.started hstarted) (.call .status (.call .getTimeout (.call .getNode
    (.call .getenv hpatch))))

/-- The node of a machine with a softdog that was armed. -/
def annotatedNode : Node :=
  ⟨"worker-1", [], [Prod.mk isRebootCapableAnnotation "true",
    Prod.mk watchdogTimeoutSecondsAnnotation "60"], []⟩

theorem ceilSeconds_minute : ceilSeconds minute = 60 := by
  have hwhole := ceilSeconds_toInt (t := minute) (by decide)
  have hminute : minute.toInt = 60 * 1000000000 := by decide
  apply Int64.toInt_inj.mp
  rw [hminute] at hwhole
  exact Int.eq_of_mul_eq_mul_right (by decide) hwhole

def annotatedWith (state : MachineState) : AgentNode :=
  ⟨state, mergePatch Dict.empty (annotate true false minute Dict.empty) Dict.empty, false⟩

theorem shows_annotated (state : MachineState) (k : String) :
    annotatedNode.annotations.lookup k = (annotatedWith state).annotations.get? k := by
  unfold annotatedNode annotatedWith annotate
  rw [get?_mergePatch, Dict.get?_set, Dict.get?_set, List.lookup_cons, List.lookup_cons,
    List.lookup_nil]
  by_cases htimeout : k = watchdogTimeoutSecondsAnnotation
  · subst htimeout
    have hne : watchdogTimeoutSecondsAnnotation ≠ isRebootCapableAnnotation := by decide
    have hsixty : Install.itoa (ceilSeconds minute) = "60" := by
      rw [ceilSeconds_minute]
      decide
    simp [beq_false_of_ne hne, hsixty]
  · by_cases hcapable : k = isRebootCapableAnnotation
    · subst hcapable
      simp [htimeout]
    · rw [beq_eq_false_iff_ne.mpr hcapable, beq_eq_false_iff_ne.mpr htimeout]
      simp [htimeout, hcapable]

/-- The updater has run after the watchdog was armed. -/
theorem reached_annotated (users : Nat → Routine) :
    Reached users "worker-1" "false" 0 softdog Dict.empty
      ⟨annotatedWith ⟨armedMachine "false" 0, inStart (.goFeed 0)⟩, some (.ret (.ok ()))⟩ := by
  have harmed : (machines users).Run Interaction.System.AnyStep _ _ :=
    machine_armed "false" 0 fun _ _ _ _ => trivial
  have hl : Later users ⟨boot "false" 0 softdog, fun _ => none⟩
      ⟨armedMachine "false" 0, inStart (.goFeed 0)⟩ :=
    harmed.lift id fun _ _ ⟨mover, hstep, _⟩ => ⟨mover, hstep⟩
  have h : Reached users "worker-1" "false" 0 softdog Dict.empty _ := .refl
  have h := (h.later hl).tail .start
  exact Reachable.runs (newAnnotationUpdater_runs rfl rfl) h

end Small

section Results

variable {annotations : Annotations} {node : Node}

theorem inv_boot (annotations : Annotations) :
    (updaterOutline users softwareRebootEnv now d).inv
      ⟨⟨boot softwareRebootEnv now d, fun _ => none⟩, annotations, false⟩ :=
  Relation.ReflTransGen.refl

theorem Reached.machine (h : Reached users nodeName softwareRebootEnv now d annotations
    ⟨w, some (.ret (.ok ()))⟩) :
    (machines users).Run Interaction.System.AnyStep (boot softwareRebootEnv now d) w.state :=
  Outline.reachable_inv (O := updaterOutline users softwareRebootEnv now d)
    (fun w _ => wp_newAnnotationUpdater w) (inv_boot annotations) h

theorem Reached.recorded (h : Reached users nodeName softwareRebootEnv now d annotations
    ⟨w, some (.ret (.ok ()))⟩) (hmissed : w.missed = false) : Recorded softwareRebootEnv w :=
  Outline.reachable_ret (O := updaterOutline users softwareRebootEnv now d)
    (fun w _ => wp_newAnnotationUpdater w) (inv_boot annotations) h rfl rfl hmissed

/-- When the updater has ended without an error, and was not shut down before the watchdog
was started: a node that is said to be reboot capable can be rebooted by software or has a
watchdog that did start; one that is said not to be cannot be rebooted by software, and has a
watchdog that is not armed. The timeout that the manager reads is that of the device, without
rounding, and zero if the watchdog did not start. -/
theorem annotations_truthful (h : Reached users nodeName softwareRebootEnv now d annotations
    ⟨w, some (.ret (.ok ()))⟩) (hmissed : w.missed = false)
    (hnode : ∀ k, node.annotations.lookup k = w.annotations.get? k) :
    ((node.annotations.lookup isRebootCapableAnnotation = some "true" ∧
        (isSoftwareRebootEnabled softwareRebootEnv = .ok true ∨
          .start true ∈ w.process.events)) ∨
      (node.annotations.lookup isRebootCapableAnnotation = some "false" ∧
        isSoftwareRebootEnabled softwareRebootEnv = .ok false ∧
        w.process.wd.status ≠ .armed)) ∧
    ∃ timeout, getWatchdogTimeout node = some timeout ∧
      (.start true ∈ w.process.events → timeout.toInt = d.period) ∧
      (.start true ∉ w.process.events → timeout = 0) := by
  have hrecorded := h.recorded hmissed
  have htimed := timed_reachable h.machine
  refine ⟨hrecorded.lookup_capable hnode, _, hrecorded.getWatchdogTimeout htimed hnode, ?_,
    htimed.failed⟩
  exact fun hs => (htimed.started hs).trans (run_kin h.machine).period

theorem annotations_truthful_small :
    Reached rebooters "worker-1" "false" 0 softdog Dict.empty
      ⟨annotatedWith ⟨armedMachine "false" 0, inStart (.goFeed 0)⟩, some (.ret (.ok ()))⟩ ∧
    ∃ timeout, getWatchdogTimeout annotatedNode = some timeout ∧
      timeout.toInt = softdog.period := by
  have h := reached_annotated rebooters
  obtain ⟨-, timeout, hread, hstarted, -⟩ := annotations_truthful h rfl (shows_annotated _)
  exact ⟨h, timeout, hread, hstarted (by decide)⟩

end Results

end Updater

end SelfNodeRemediation.NodeAnnotations
