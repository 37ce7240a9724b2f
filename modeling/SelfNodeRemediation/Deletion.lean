import SelfNodeRemediation.Plan

/-!
# A deleted SelfNodeRemediation and its finalizer

What `ReconcileManager` does with a SelfNodeRemediation that is deleted and still
has the finalizer, in a cluster where every call succeeds.

* `Cluster.move` is the abstract model: the finalizer is removed, the phase moves
  on, or neither.
* `makes_plan`: the plan of a reconcile makes the move that the model says.
* `movedOn_iff_makes`: what is stored after a reconcile whose plan makes a move.
-/

namespace SelfNodeRemediation

open Interaction Versioned

/-! ## 1. The model -/

/-- What a reconcile of a deleted object with the finalizer does. -/
inductive DeletionMove
  | release
  | advance
  | stay
deriving DecidableEq, Repr

/-- The reboot can be prepared. -/
def canPrepare (w : Cluster) (node : Node) : Bool :=
  hasAgent w node && node.annotations.lookup isRebootCapableAnnotation == some "true" &&
    (w.snr.current.status.timeAssumedRebooted.isSome || w.calculatorConfig.isSome)

/-- The assumed reboot time has come, `wait` after it. -/
def hasCome (w : Cluster) (wait : Duration) : Bool :=
  w.snr.current.status.timeAssumedRebooted.any fun t => t + wait.toInt ≤ w.now

/-- What the phase handlers do, where `removed` says whether the resources of the
node count as removed in the end. -/
def phaseMove (w : Cluster) (node : Node) (removed : Bool) : DeletionMove :=
  match getPhase w.snr.current with
  | .fencingStarted => if canPrepare w node then .advance else .stay
  | .preRebootCompleted => if hasCome w 0 then .advance else .stay
  | .rebootCompleted => if removed then .advance else .stay
  -- the object is deleted, so that `recoverNode` runs
  | .fencingCompleted => .release
  | .unknown => .stay

def nodeMove (w : Cluster) (node : Node) : DeletionMove :=
  if node.labels.lookup excludeRemediationLabel = some "true" then .stay
  else
    match w.runtimeStrategy with
    | .resourceDeletion => phaseMove w node true
    | .outOfServiceTaint =>
      phaseMove w node (resourcesGone w node.name || hasCome w outOfServiceTimeoutDuration)
    -- the error of an unsupported strategy is logged and dropped
    | _ => .stay

def Cluster.move (w : Cluster) : DeletionMove :=
  match targetNode w w.snr.current with
  | .ok node => if isStoppedByNHC w.snr.current then .release else nodeMove w node
  -- a missing node is no reason to remove the finalizer unless NHC stopped the remediation
  | .error e => if isStoppedByNHC w.snr.current && e.isNotFound then .release else .stay

/-! ## 2. Plans that make a move -/

/-- What a plan does to a deleted object that has the finalizer. -/
def Makes (w : Cluster) (plan : Plan) : DeletionMove → Prop
  | .release => plan.finalizes = true
  | .advance => plan.finalizes = false ∧ plan.recorded = some "" ∧ ∃ next, plan.phase = some next ∧
      ∀ snr : SNR, snr.status.phase = some next →
        (getPhase w.snr.current).rank < (getPhase snr).rank
  | .stay => plan.finalizes = false ∧ plan.phase = none

section Plans

variable {w : Cluster} {node : Node}

theorem Makes.after {plan : Plan} {move : DeletionMove} (h : Makes w plan move)
    (reasons : List ConditionReason) : Makes w (plan.after reasons) move := by
  cases move <;> exact h

theorem makes_complete (hp : getPhase w.snr.current = .rebootCompleted) (edits : List TaintEdit)
    (deletesPods : Bool) : Makes w (.complete edits deletesPods) .advance := by
  refine ⟨rfl, rfl, fencingCompletedPhase, rfl, fun snr hsnr => ?_⟩
  rw [hp, getPhase_fencing hsnr]
  decide

theorem makes_waitForNodeRebootedPlan (hp : getPhase w.snr.current = .preRebootCompleted) :
    Makes w (waitForNodeRebootedPlan w) (if hasCome w 0 then .advance else .stay) := by
  unfold waitForNodeRebootedPlan hasCome
  cases w.snr.current.status.timeAssumedRebooted with
  | none => exact ⟨rfl, rfl⟩
  | some t =>
    have hzero : t + (0 : Duration).toInt = t := Int.add_zero t
    rw [Option.any_some, hzero]
    by_cases hcome : t ≤ w.now
    · rw [decide_eq_true hcome]
      dsimp only
      rw [if_pos hcome]
      refine ⟨rfl, rfl, rebootCompletedPhase, rfl, fun snr hsnr => ?_⟩
      rw [hp, getPhase_reboot hsnr]
      decide
    · rw [decide_eq_false hcome]
      dsimp only
      rw [if_neg hcome]
      exact ⟨rfl, rfl⟩

theorem makes_prepareRebootPlan (hfin : containsFinalizer w.snr.current snrFinalizer = true)
    (hp : getPhase w.snr.current = .fencingStarted) :
    Makes w (prepareRebootPlan w node) (if canPrepare w node then .advance else .stay) := by
  unfold prepareRebootPlan canPrepare
  rw [if_pos hfin]
  show Makes w _ (if isRebootCapable w node && _ then _ else _)
  cases isRebootCapable w node with
  | false => exact ⟨rfl, rfl⟩
  | true =>
    rw [Bool.true_and, if_pos rfl]
    cases w.snr.current.status.timeAssumedRebooted.isSome || w.calculatorConfig.isSome with
    | false => exact ⟨rfl, rfl⟩
    | true =>
      refine ⟨rfl, rfl, preRebootCompletedPhase, rfl, fun snr hsnr => ?_⟩
      rw [hp, getPhase_preReboot hsnr]
      decide

theorem makes_recoverNodePlan (hfin : containsFinalizer w.snr.current snrFinalizer = true)
    (edits : List TaintEdit) (recorded : Option String) :
    Makes w (recoverNodePlan w edits recorded) .release := by
  unfold recoverNodePlan
  rw [if_pos hfin]
  rfl

variable (hdeleted : w.snr.current.deletionTimestamp.isSome = true)

include hdeleted

/-- When the time is over, the resources of a deleted object count as removed. -/
theorem makes_useOutOfServiceTaintPlan (hp : getPhase w.snr.current = .rebootCompleted) :
    Makes w (useOutOfServiceTaintPlan w node)
      (if resourcesGone w node.name || hasCome w outOfServiceTimeoutDuration then .advance
        else .stay) := by
  unfold useOutOfServiceTaintPlan hasCome
  rw [if_pos hdeleted]
  cases resourcesGone w node.name with
  | true => exact makes_complete hp _ _
  | false =>
    rw [Bool.false_or]
    cases w.snr.current.status.timeAssumedRebooted with
    | none => exact ⟨rfl, rfl⟩
    | some t =>
      rw [Option.any_some]
      by_cases hcome : t + outOfServiceTimeoutDuration.toInt ≤ w.now
      · rw [decide_eq_true hcome]
        dsimp only
        rw [if_pos hcome]
        exact makes_complete hp _ _
      · rw [decide_eq_false hcome]
        dsimp only
        rw [if_neg hcome]
        exact ⟨rfl, rfl⟩

variable (hfin : containsFinalizer w.snr.current snrFinalizer = true)

include hfin

theorem makes_phasePlan {removal : Plan} {removed : Bool}
    (hremoval : getPhase w.snr.current = .rebootCompleted →
      Makes w removal (if removed then .advance else .stay)) :
    Makes w (phasePlan w node removal) (phaseMove w node removed) := by
  unfold phasePlan phaseMove
  cases hp : getPhase w.snr.current with
  | fencingStarted => exact makes_prepareRebootPlan hfin hp
  | preRebootCompleted => exact makes_waitForNodeRebootedPlan hp
  | rebootCompleted => exact hremoval hp
  | fencingCompleted =>
    dsimp only
    rw [if_pos hdeleted]
    exact makes_recoverNodePlan hfin _ _
  | unknown => exact ⟨rfl, rfl⟩

theorem makes_remediateNodePlan : Makes w (remediateNodePlan w node) (nodeMove w node) := by
  unfold remediateNodePlan nodeMove
  split
  · exact ⟨rfl, rfl⟩
  · cases w.runtimeStrategy with
    | resourceDeletion =>
      exact makes_phasePlan hdeleted hfin fun hp => makes_complete hp _ _
    | outOfServiceTaint =>
      exact makes_phasePlan hdeleted hfin fun hp => makes_useOutOfServiceTaintPlan hdeleted hp
    | automatic => exact ⟨rfl, rfl⟩
    | unsupported _ => exact ⟨rfl, rfl⟩

/-- The plan makes the move. -/
theorem makes_plan (hconfigured : configured w = true) : Makes w w.plan w.move := by
  unfold Cluster.plan Cluster.move
  rw [deploymentNamespace_of_configured hconfigured, hconfigured]
  cases isStoppedByNHC w.snr.current with
  | true =>
    show Makes w (stoppedByNHCPlan w) _
    unfold stoppedByNHCPlan
    rw [if_pos hdeleted]
    cases targetNode w w.snr.current with
    | ok node => exact makes_recoverNodePlan hfin _ _
    | error e =>
      cases hnot : e.isNotFound with
      | true =>
        dsimp only
        rw [hnot]
        exact makes_recoverNodePlan hfin _ _
      | false =>
        dsimp only
        rw [hnot]
        exact ⟨rfl, rfl⟩
  | false =>
    show Makes w (remediatePlan w) _
    unfold remediatePlan
    cases targetNode w w.snr.current with
    | ok node => exact (makes_remediateNodePlan hdeleted hfin).after _
    | error e => exact ⟨rfl, rfl⟩

end Plans

/-! ## 3. What is stored -/

/-- The finalizer is removed, or a later phase is stored. -/
def MovedOn (w w' : Cluster) : Prop :=
  containsFinalizer w'.snr.current snrFinalizer = false ∨
    (getPhase w.snr.current).rank < (getPhase w'.snr.current).rank

/-- A phase that is assigned is not overwritten by the answer to the patch of
`LastError`. -/
def KeepsPhase (r : Reconciler) (w : Cluster) : Prop :=
  w.snr.current.status.lastError = "" ∨
    (r.decode = .overwrite ∧ w.snr.current.status.phase = none)

/-- What is stored after a reconcile whose plan makes the move. -/
theorem movedOn_iff_makes (r : Reconciler) {w : Cluster} {move : DeletionMove} (hw : w.Present)
    (hfin : containsFinalizer w.snr.current snrFinalizer = true) (h : Makes w w.plan move) :
    MovedOn w (w.reconciled r) ↔ move = .release ∨ (move = .advance ∧ KeepsPhase r w) := by
  -- a reconcile that leaves the finalizer alone moves on exactly if the phase does
  have hphase (hf : w.plan.finalizes = false) : MovedOn w (w.reconciled r) ↔
      (getPhase w.snr.current).rank < (getPhase (w.reconciled r).snr.current).rank := by
    obtain ⟨t, -, hstored⟩ := (after_reconciled r hw hf).status
    have hkept : containsFinalizer (w.reconciled r).snr.current snrFinalizer = true := by
      rw [hstored]
      exact hfin
    unfold MovedOn
    rw [hkept]
    exact ⟨fun h => h.resolve_left nofun, .inr⟩
  have hsame (h : (w.reconciled r).snr.current.status.phase = w.snr.current.status.phase) :
      ¬ (getPhase w.snr.current).rank < (getPhase (w.reconciled r).snr.current).rank := by
    rw [getPhase_congr h]
    exact Nat.lt_irrefl _
  cases move with
  | release =>
    have hremoved := (reconciled_finalizes (r := r) hw h).1
    rw [hfin] at hremoved
    exact ⟨fun _ => .inl rfl, fun _ => .inl hremoved⟩
  | advance =>
    obtain ⟨hf, hrecorded, next, hnext, hrank⟩ := h
    obtain ⟨t, -, hstored⟩ := (after_reconciled r hw hf).status
    have hreturned : (w.reconciled r).snr.current.status.phase =
        if w.snr.current.status.lastError = "" ∨
          (r.decode = .overwrite ∧ w.snr.current.status.phase = none) then some next
        else w.snr.current.status.phase := by
      rw [hstored, hrecorded, hnext]
      show (returned r.decode _ _ (.ok (.lastError .empty none))).phase = _
      exact phase_returned_recovery rfl
    rw [hphase hf]
    by_cases hkeeps : KeepsPhase r w
    · exact ⟨fun _ => .inr ⟨rfl, hkeeps⟩, fun _ => hrank _ (hreturned.trans (if_pos hkeeps))⟩
    · have hlost := hsame (hreturned.trans (if_neg hkeeps))
      exact ⟨fun h => absurd h hlost, fun h => h.elim nofun fun h => absurd h.2 hkeeps⟩
  | stay =>
    obtain ⟨hf, hnone⟩ := h
    obtain ⟨t, -, hstored⟩ := (after_reconciled r hw hf).status
    have hreturned : (w.reconciled r).snr.current.status.phase =
        w.snr.current.status.phase := by
      rw [hstored, hnone]
      exact phase_returnedBy_same rfl
    rw [hphase hf]
    exact ⟨fun h => absurd h (hsame hreturned), fun h => h.elim nofun nofun⟩

end SelfNodeRemediation
