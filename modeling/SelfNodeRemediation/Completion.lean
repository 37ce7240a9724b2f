import SelfNodeRemediation.Lib.Execution
import SelfNodeRemediation.DeletionProgress
import SelfNodeRemediation.SteadyState
import SelfNodeRemediation.PhaseMachine

/-!
# Remediations that complete

Runs of `ReconcileManager` without end, in which any call may fail, any reconcile may
crash and reads may lag behind. Such a run gets somewhere if now and then two
reconciles after each other are not disturbed, in a cluster that has what the phase
waits for (`Cluster.Fit`). One undisturbed reconcile is not enough: one that follows an
error stores the cleared `LastError` and may lose its phase with it.

* `rank_twice`: two undisturbed reconciles get the remediation one stage further.
* `carried_onward`: no step of a run takes a stage back.
* `fencing_completes`: the phase Fencing-Completed is reached and kept.
* `deletion_completes`: once the SelfNodeRemediation is deleted, its finalizer is removed.
-/

namespace SelfNodeRemediation

open Interaction Versioned

/-! ## 1. Clusters that let a remediation go on -/

/-- What the phase waits for is there. -/
def Provided (w : Cluster) (node : Node) : Prop :=
  match getPhase w.snr.current with
  | .fencingStarted => isRebootCapable w node = true ∧ w.calculatorConfig.isSome = true
  | .preRebootCompleted => hasCome w 0 = true
  | .rebootCompleted => w.runtimeStrategy = .resourceDeletion ∨
      resourcesGone w node.name = true ∨
      (w.snr.current.deletionTimestamp.isSome = true ∧
        hasCome w outOfServiceTimeoutDuration = true)
  | .fencingCompleted | .unknown => True

/-- A remediation that is neither disabled nor stopped, of a node that is there and
not excluded, with a strategy that is known. -/
structure Cluster.Fit (w : Cluster) (node : Node) : Prop where
  regular : w.Regular
  configured : configured w = true
  running : isStoppedByNHC w.snr.current = false
  target : targetNode w w.snr.current = .ok node
  handled : Handled w node
  provided : Provided w node

/-- The plan is to go on to a phase, and to report no error. -/
structure Plan.Advances (plan : Plan) (phase : String) : Prop where
  phase : plan.phase = some phase
  finalizes : plan.finalizes = false
  wait : plan.wait = none
  recorded : plan.recorded = some ""

theorem advances_advance (edits : List TaintEdit) (phase : String) :
    (Plan.advance edits phase).Advances phase := ⟨rfl, rfl, rfl, rfl⟩

theorem advances_complete (edits : List TaintEdit) (deletesPods : Bool) :
    (Plan.complete edits deletesPods).Advances fencingCompletedPhase := ⟨rfl, rfl, rfl, rfl⟩

theorem Plan.Advances.after {plan : Plan} {phase : String} (h : plan.Advances phase)
    (reasons : List ConditionReason) : (plan.after reasons).Advances phase :=
  ⟨h.phase, h.finalizes, h.wait, h.recorded⟩

section Fit

variable {w : Cluster} {node : Node}

/-- The plan for the removal of the resources. -/
def removalPlan (w : Cluster) (node : Node) : Plan :=
  if w.runtimeStrategy = .resourceDeletion then .complete [] true
  else useOutOfServiceTaintPlan w node

theorem plan_fit (h : w.Fit node) :
    w.plan = (phasePlan w node (removalPlan w node)).after (startReasons w) := by
  rw [Cluster.Running.plan ⟨h.configured, h.running, h.target⟩]
  congr 1
  unfold remediateNodePlan removalPlan
  rw [if_neg h.handled.1]
  rcases h.handled.2 with hs | hs
  · rw [hs]
    rfl
  · rw [hs]
    rfl

theorem advances_prepared (h : w.Fit node) (hp : getPhase w.snr.current = .fencingStarted)
    (hfin : containsFinalizer w.snr.current snrFinalizer = true) :
    w.plan.Advances preRebootCompletedPhase := by
  have hprovided := h.provided
  unfold Provided at hprovided
  rw [hp] at hprovided
  rw [plan_fit h]
  refine Plan.Advances.after ?_ _
  unfold phasePlan
  rw [hp]
  dsimp only
  unfold prepareRebootPlan
  rw [if_pos hprovided.1, if_pos hfin, hprovided.2, Bool.or_true, if_pos rfl]
  exact advances_advance _ _

theorem finalizes_unprepared (h : w.Fit node) (hp : getPhase w.snr.current = .fencingStarted)
    (hfin : containsFinalizer w.snr.current snrFinalizer = false)
    (hlive : w.snr.current.deletionTimestamp = none) : w.plan.finalizes = true := by
  have hprovided := h.provided
  unfold Provided at hprovided
  rw [hp] at hprovided
  rw [plan_fit h]
  unfold phasePlan
  rw [hp]
  dsimp only
  unfold prepareRebootPlan
  rw [if_pos hprovided.1, if_neg (Bool.eq_false_iff.mp hfin), hlive]
  rfl

theorem advances_rebooted (h : w.Fit node) (hp : getPhase w.snr.current = .preRebootCompleted) :
    w.plan.Advances rebootCompletedPhase := by
  have hprovided := h.provided
  unfold Provided at hprovided
  rw [hp] at hprovided
  dsimp only at hprovided
  rw [plan_fit h]
  refine Plan.Advances.after ?_ _
  unfold phasePlan
  rw [hp]
  dsimp only
  unfold waitForNodeRebootedPlan
  unfold hasCome at hprovided
  cases ht : w.snr.current.status.timeAssumedRebooted with
  | none =>
    rw [ht] at hprovided
    cases hprovided
  | some t =>
    rw [ht] at hprovided
    have hcome : t ≤ w.now := by simpa using hprovided
    dsimp only
    rw [if_pos hcome]
    exact advances_advance _ _

theorem advances_removed (h : w.Fit node) (hp : getPhase w.snr.current = .rebootCompleted) :
    w.plan.Advances fencingCompletedPhase := by
  have hprovided := h.provided
  unfold Provided at hprovided
  rw [hp] at hprovided
  dsimp only at hprovided
  rw [plan_fit h]
  refine Plan.Advances.after ?_ _
  unfold phasePlan
  rw [hp]
  dsimp only
  unfold removalPlan
  split
  · exact advances_complete _ _
  · next hstrategy =>
    unfold useOutOfServiceTaintPlan
    rcases hprovided with hs | hgone | ⟨hdel, hcome⟩
    · exact absurd hs hstrategy
    · rw [if_pos hgone]
      exact advances_complete _ _
    · split
      · exact advances_complete _ _
      · unfold hasCome at hcome
        cases ht : w.snr.current.status.timeAssumedRebooted with
        | none =>
          rw [ht] at hcome
          cases hcome
        | some t =>
          rw [ht] at hcome
          have hcome : t + outOfServiceTimeoutDuration.toInt ≤ w.now := by simpa using hcome
          dsimp only
          rw [if_pos hcome]
          exact advances_complete _ _

end Fit

/-! ## 2. Two reconciles after each other -/

section Twice

variable {r : Reconciler} {w : Cluster} {node : Node} {phase : String} {t : Time}

/-- A phase that is assigned is stored, unless an earlier error has to be cleared. -/
theorem phase_advanced (hw : w.Regular) (h : w.plan.Advances phase) :
    (w.reconciled r).snr.current.status.phase = some phase ∨
      ((w.reconciled r).snr.current.status.phase = w.snr.current.status.phase ∧
        w.snr.current.status.lastError ≠ "") := by
  obtain ⟨time, -, hstored⟩ := (after_reconciled r hw.present h.finalizes).status
  rw [hstored, h.recorded, h.phase]
  show (returnedBy r.decode w.snr.current.status _ (some "")).phase = _ ∨
    (returnedBy r.decode w.snr.current.status _ (some "")).phase = _ ∧ _
  unfold returnedBy
  dsimp only
  split
  · exact .inl rfl
  · next herror =>
    cases r.decode with
    | zeroFirst => exact .inr ⟨rfl, herror⟩
    | overwrite =>
      show w.snr.current.status.phase.or (some phase) = _ ∨
        w.snr.current.status.phase.or (some phase) = _ ∧ _
      cases w.snr.current.status.phase with
      | none => exact .inl rfl
      | some stored => exact .inr ⟨rfl, herror⟩

/-- The second of two reconciles finds the error cleared, and the same plan. -/
theorem phase_twice (hw : w.Regular) (h : w.plan.Advances phase) (ht : w.now ≤ t) :
    ((w.reconciled r).at t).snr.current.status.phase = some phase ∨
      (((w.reconciled r).at t).reconciled r).snr.current.status.phase = some phase := by
  rcases phase_advanced (r := r) hw h with hstored | ⟨hlost, -⟩
  · exact .inl hstored
  · have halike := alike_reconciled hw h.finalizes hlost ht
    have hplan : ((w.reconciled r).at t).plan = w.plan :=
      plan_alike halike fun u hu => nomatch h.wait.symm.trans hu
    have hcleared : ((w.reconciled r).at t).snr.current.status.lastError = "" := by
      show (w.reconciled r).snr.current.status.lastError = ""
      rw [lastError_reconciled hw h.finalizes, h.recorded]
      rfl
    rcases phase_advanced (r := r) ((regular_reconciled hw h.finalizes).at t) (hplan ▸ h) with
      hstored | ⟨-, herror⟩
    · exact .inr hstored
    · exact absurd hcleared herror

/-- The plan where the phase is neither the last one nor unknown. -/
theorem advances_of_rank (h : w.Fit node) (hknown : getPhase w.snr.current ≠ .unknown)
    (hrank : (getPhase w.snr.current).rank < 3)
    (hfin : getPhase w.snr.current = .fencingStarted →
      containsFinalizer w.snr.current snrFinalizer = true) :
    ∃ phase, w.plan.Advances phase ∧ ∀ snr : SNR, snr.status.phase = some phase →
      (getPhase snr).rank = (getPhase w.snr.current).rank + 1 := by
  cases hp : getPhase w.snr.current with
  | fencingStarted =>
    refine ⟨_, advances_prepared h hp (hfin hp), fun snr hsnr => ?_⟩
    rw [getPhase_preReboot hsnr]
    rfl
  | preRebootCompleted =>
    refine ⟨_, advances_rebooted h hp, fun snr hsnr => ?_⟩
    rw [getPhase_reboot hsnr]
    rfl
  | rebootCompleted =>
    refine ⟨_, advances_removed h hp, fun snr hsnr => ?_⟩
    rw [getPhase_fencing hsnr]
    rfl
  | fencingCompleted =>
    rw [hp] at hrank
    exact absurd hrank (by decide)
  | unknown => exact absurd hp hknown

theorem rank_twice (h : w.Fit node) (hknown : getPhase w.snr.current ≠ .unknown)
    (hrank : (getPhase w.snr.current).rank < 3)
    (hfin : getPhase w.snr.current = .fencingStarted →
      containsFinalizer w.snr.current snrFinalizer = true) (ht : w.now ≤ t) :
    (getPhase w.snr.current).rank < (getPhase ((w.reconciled r).at t).snr.current).rank ∨
      (getPhase w.snr.current).rank <
        (getPhase (((w.reconciled r).at t).reconciled r).snr.current).rank := by
  obtain ⟨phase, hadvances, hnext⟩ := advances_of_rank h hknown hrank hfin
  rcases phase_twice (r := r) h.regular hadvances ht with hstored | hstored
  · rw [hnext _ hstored]
    exact .inl (Nat.lt_succ_self _)
  · rw [hnext _ hstored]
    exact .inr (Nat.lt_succ_self _)

end Twice

/-! ## 3. What no step takes back -/

/-- Others leave the deletion timestamp and the finalizer alone. -/
structure Keeping (w w' : Cluster) : Prop where
  others : Others w w'
  deletion : w'.snr.current.deletionTimestamp = w.snr.current.deletionTimestamp
  finalizer : containsFinalizer w'.snr.current snrFinalizer =
    containsFinalizer w.snr.current snrFinalizer

/-- What a call of a reconcile does to the finalizer. -/
inductive FinalizerMove (w w' : Cluster) : Prop
  | same : w'.snr.current.finalizers = w.snr.current.finalizers → FinalizerMove w w'
  | added : w.snr.current.deletionTimestamp = none →
      containsFinalizer w'.snr.current snrFinalizer = true → FinalizerMove w w'
  | removed : w.snr.current.deletionTimestamp.isSome = true →
      containsFinalizer w'.snr.current snrFinalizer = false → FinalizerMove w w'

theorem finalizerMove_exec {c : Call} {w w' : Cluster} {r : Resp c} (ha : PhaseAllowed c w)
    (he : Exec true c w r w') :
    w'.snr.current.deletionTimestamp = w.snr.current.deletionTimestamp ∧ FinalizerMove w w' := by
  have hstatus (status : Status) :
      (w.storeStatus status).snr.current = { w.snr.current with status := status } :=
    Store.putIfChanged_current
  rcases he.change with rfl | hchange
  · exact ⟨rfl, .same rfl⟩
  · cases hchange with
    | updateSNR _ hv =>
      rename_i sent _
      have hstored : (w.store (updated w.snr.current sent.value)).snr.current =
          updated w.snr.current sent.value := Store.putIfChanged_current
      rw [hstored]
      refine ⟨rfl, ?_⟩
      rcases FinalizerEdit.stores ha hv with ⟨hlive, hsent⟩ | ⟨hdeleted, hsent⟩
      · refine .added hlive ?_
        rw [hstored, hsent]
        exact contains_addFinalizerTo _ _
      · refine .removed hdeleted ?_
        rw [hstored, hsent]
        exact contains_removeFinalizerFrom _ _
    | updateSNRStatus _ _ =>
      rw [hstatus]
      exact ⟨rfl, .same (by rw [hstatus])⟩
    | patchSNRStatus _ =>
      rw [hstatus]
      exact ⟨rfl, .same (by rw [hstatus])⟩
    | patchNode _ => exact ⟨rfl, .same rfl⟩
    | logTimeAssumedRebooted => exact ⟨rfl, .same rfl⟩
    | deleteAllOf => exact ⟨rfl, .same rfl⟩
    | reboot => exact ⟨rfl, .same rfl⟩

/-- How a later cluster differs from an earlier one. -/
structure Onward (w w' : Cluster) : Prop where
  forward : Forward w.snr.current w'.snr.current
  deletion : w'.snr.current.deletionTimestamp = w.snr.current.deletionTimestamp
  kept : w.snr.current.deletionTimestamp = none →
    containsFinalizer w.snr.current snrFinalizer = true →
    containsFinalizer w'.snr.current snrFinalizer = true
  released : w.snr.current.deletionTimestamp.isSome = true →
    containsFinalizer w'.snr.current snrFinalizer = true →
    containsFinalizer w.snr.current snrFinalizer = true

theorem onward_refl (w : Cluster) : Onward w w :=
  ⟨forward_refl _, rfl, fun _ h => h, fun _ h => h⟩

theorem Onward.trans {a b c : Cluster} (h : Onward a b) (h' : Onward b c) : Onward a c :=
  ⟨forward_trans _ _ _ h.forward h'.forward, h'.deletion.trans h.deletion,
    fun hlive hfin => h'.kept (h.deletion.trans hlive) (h.kept hlive hfin),
    fun hdel hfin => h.released hdel (h'.released (h.deletion.symm ▸ hdel) hfin)⟩

theorem FinalizerMove.onward {w w' : Cluster} (h : FinalizerMove w w')
    (hforward : Forward w.snr.current w'.snr.current)
    (hdeletion : w'.snr.current.deletionTimestamp = w.snr.current.deletionTimestamp) :
    Onward w w' := by
  cases h with
  | same hsame =>
    have hcontains : containsFinalizer w'.snr.current snrFinalizer =
        containsFinalizer w.snr.current snrFinalizer := by
      unfold containsFinalizer
      rw [hsame]
    exact ⟨hforward, hdeletion, fun _ h => hcontains.trans h, fun _ h => hcontains.symm.trans h⟩
  | added hlive hadded =>
    refine ⟨hforward, hdeletion, fun _ _ => hadded, fun hdel _ => ?_⟩
    rw [hlive] at hdel
    cases hdel
  | removed hdel hremoved =>
    refine ⟨hforward, hdeletion, fun hlive _ => ?_, fun _ hfin => ?_⟩
    · rw [hlive] at hdel
      cases hdel
    · exact nomatch hremoved.symm.trans hfin

/-- The versions that were stored before are behind the current one. -/
theorem forward_of_grows {w w' : Cluster} (hi : PhaseInv w') (hg : Grows w w') :
    Forward w.snr.current w'.snr.current :=
  hi.forward.current (hg.versions _ _ Store.version_resourceVersion)

section Steps

variable {r : Reconciler} {w₀ : Cluster} {env : Cluster → Cluster → Prop}

theorem phaseInv_reachable (hothers : ∀ w w', env w w' → Others w w') (h₀ : PhaseInv w₀)
    {s : State Call Resp Cluster Reconciled}
    (h : Reachable (Exec true) env (reconcileManager r) w₀ s) : PhaseInv s.world :=
  phaseOutline.reachable_inv (fun w _ => reconcileManager_phases r w) h₀ (h.mono hothers)

theorem phaseAllowed_reachable (hothers : ∀ w w', env w w' → Others w w') (h₀ : PhaseInv w₀)
    {w : Cluster} {c : Call} {k : Resp c → Prog Call Resp Reconciled}
    (h : Reachable (Exec true) env (reconcileManager r) w₀ ⟨w, some (.call c k)⟩) :
    PhaseAllowed c w :=
  phaseOutline.reachable_allowed (fun w _ => reconcileManager_phases r w) h₀ (h.mono hothers) rfl

theorem carried_onward (h₀ : PhaseInv w₀) :
    Carried (Exec true) Keeping (reconcileManager r) w₀ Onward where
  refl := onward_refl
  trans h h' := h.trans h'
  step {s s'} hreach hstep := by
    have hi := phaseInv_reachable (r := r) (fun _ _ h => h.others) h₀ (hreach.tail hstep)
    cases hstep with
    | env he =>
      refine ⟨forward_of_grows hi he.others.grows, he.deletion, fun _ h => ?_, fun _ h => ?_⟩
      · exact he.finalizer.trans h
      · exact he.finalizer.symm.trans h
    | call he =>
      obtain ⟨hdeletion, hmove⟩ := finalizerMove_exec
        (phaseAllowed_reachable (fun _ _ h => h.others) h₀ hreach) he
      exact hmove.onward (forward_of_grows hi (grows_exec he)) hdeletion
    | start => exact onward_refl _
    | finish => exact onward_refl _
    | crash => exact onward_refl _

theorem reachable_reconciled {env : Cluster → Cluster → Prop} (r : Reconciler) (w : Cluster) :
    Reachable (Exec true) env (reconcileManager r) w ⟨w.reconciled r, none⟩ :=
  reachable_alone (fun _ => true) (fun _ _ _ => .served) (Prog.passes_true _ w) .refl

/-- A rank that goes up with `Onward`, between states of the runs. -/
theorem carried_rank (h₀ : PhaseInv w₀) {rank : Cluster → Nat}
    (hrank : ∀ w w', Onward w₀ w → Onward w w' → rank w ≤ rank w') :
    Carried (Exec true) Keeping (reconcileManager r) w₀ fun w w' => rank w ≤ rank w' where
  refl _ := Nat.le_refl _
  trans h h' := Nat.le_trans h h'
  step hreach hstep := hrank _ _ ((carried_onward h₀).steps .refl hreach)
    ((carried_onward h₀).step hreach hstep)

end Steps

/-! ## 4. Runs that complete -/

/-- How far a remediation has got: the phase, and before it the finalizer. -/
def Cluster.stage (w : Cluster) : Nat :=
  match getPhase w.snr.current with
  | .fencingStarted => if containsFinalizer w.snr.current snrFinalizer then 1 else 0
  | phase => phase.rank + 1

/-- How far a deleted object has got: the phase, and in the end no finalizer. -/
def Cluster.release (w : Cluster) : Nat :=
  if containsFinalizer w.snr.current snrFinalizer then (getPhase w.snr.current).rank else 4

section Stages

variable {w w' : Cluster}

theorem stage_started (h : getPhase w.snr.current = .fencingStarted) :
    w.stage = if containsFinalizer w.snr.current snrFinalizer then 1 else 0 := by
  unfold Cluster.stage
  rw [h]

theorem stage_of_rank (h : 0 < (getPhase w.snr.current).rank) :
    w.stage = (getPhase w.snr.current).rank + 1 := by
  unfold Cluster.stage
  cases hp : getPhase w.snr.current with
  | fencingStarted =>
    rw [hp] at h
    cases h
  | preRebootCompleted => rfl
  | rebootCompleted => rfl
  | fencingCompleted => rfl
  | unknown => rfl

theorem stage_le (w : Cluster) : w.stage ≤ (getPhase w.snr.current).rank + 1 := by
  rcases Nat.eq_zero_or_pos (getPhase w.snr.current).rank with hzero | hpos
  · have hp : getPhase w.snr.current = .fencingStarted := by
      cases hp : getPhase w.snr.current with
      | fencingStarted => rfl
      | _ =>
        rw [hp] at hzero
        cases hzero
    rw [stage_started hp, hp]
    split <;> decide
  · exact Nat.le_of_eq (stage_of_rank hpos)

theorem stage_lt_of_rank (h : (getPhase w.snr.current).rank < (getPhase w'.snr.current).rank) :
    w.stage < w'.stage := by
  rw [stage_of_rank (Nat.zero_lt_of_lt h)]
  exact Nat.lt_succ_of_le (Nat.le_trans (stage_le w) h)

/-- Before the last stage the phase is not the last one. -/
theorem rank_lt_of_stage (h : w.stage < 4) : (getPhase w.snr.current).rank < 3 := by
  rcases Nat.lt_or_ge (getPhase w.snr.current).rank 3 with hlt | hge
  · exact hlt
  · rw [stage_of_rank (Nat.lt_of_lt_of_le (by decide) hge)] at h
    exact absurd (Nat.succ_le_succ hge) (Nat.not_le.mpr h)

theorem rank_injective {a b : RemediationPhase} (h : a.rank = b.rank) : a = b := by
  cases a <;> cases b <;> first | rfl | cases h

theorem Onward.stage_le (h : Onward w w') (hlive : w.snr.current.deletionTimestamp = none) :
    w.stage ≤ w'.stage := by
  rcases Nat.lt_or_eq_of_le h.forward.1 with hlt | heq
  · exact Nat.le_of_lt (stage_lt_of_rank hlt)
  · have hphase := rank_injective heq
    by_cases hp : getPhase w.snr.current = .fencingStarted
    · rw [stage_started hp, stage_started (hphase ▸ hp)]
      split
      · next hfin => rw [if_pos (h.kept hlive hfin)]
      · exact Nat.zero_le _
    · have hpos : 0 < (getPhase w.snr.current).rank :=
        Nat.pos_of_ne_zero fun hzero => hp (rank_injective hzero)
      rw [stage_of_rank hpos, stage_of_rank (heq ▸ hpos), heq]

theorem rank_le (phase : RemediationPhase) : phase.rank ≤ 4 := by cases phase <;> decide

theorem unknown_of_rank {phase : RemediationPhase} (h : 4 ≤ phase.rank) : phase = .unknown :=
  rank_injective (Nat.le_antisymm (rank_le phase) h)

theorem Onward.release_le (h : Onward w w')
    (hdeleted : w.snr.current.deletionTimestamp.isSome = true) : w.release ≤ w'.release := by
  unfold Cluster.release
  by_cases hfin : containsFinalizer w'.snr.current snrFinalizer = true
  · rw [if_pos hfin, if_pos (h.released hdeleted hfin)]
    exact h.forward.1
  · rw [if_neg hfin]
    split
    · exact rank_le _
    · exact Nat.le_refl _

theorem release_lt_four (h : w.release < 4) :
    containsFinalizer w.snr.current snrFinalizer = true := by
  unfold Cluster.release at h
  split at h
  · next hfin => exact hfin
  · exact absurd h (Nat.lt_irrefl _)

theorem release_lt_of_rank (hfin : containsFinalizer w.snr.current snrFinalizer = true)
    (hlt : (getPhase w.snr.current).rank < (getPhase w'.snr.current).rank) :
    w.release < w'.release := by
  unfold Cluster.release
  rw [if_pos hfin]
  split
  · exact hlt
  · exact Nat.lt_of_lt_of_le hlt (rank_le _)

end Stages

/-- In the first phase a reconcile of a live object adds the finalizer. -/
theorem stage_lt_finalized {r : Reconciler} {w : Cluster} {node : Node} (h : w.Fit node)
    (hlive : w.snr.current.deletionTimestamp = none)
    (hp : getPhase w.snr.current = .fencingStarted)
    (hfin : containsFinalizer w.snr.current snrFinalizer = false) :
    w.stage < (w.reconciled r).stage := by
  obtain ⟨hadded, hsame⟩ := reconciled_finalizes (r := r) h.regular.present
    (finalizes_unprepared h hp hfin hlive)
  rw [hfin] at hadded
  rw [stage_started hp, hfin, stage_started ((getPhase_congr hsame).trans hp), hadded]
  decide

/-- In the last phase a reconcile of a deleted object removes the finalizer. -/
theorem released_of_fit {r : Reconciler} {w : Cluster} {node : Node} (h : w.Fit node)
    (hdeleted : w.snr.current.deletionTimestamp.isSome = true)
    (hfin : containsFinalizer w.snr.current snrFinalizer = true)
    (hp : getPhase w.snr.current = .fencingCompleted) :
    containsFinalizer (w.reconciled r).snr.current snrFinalizer = false := by
  have hmove : w.move = .release := by
    rw [move_live h.running, h.target]
    exact (nodeMove_release_iff h.handled).mpr hp
  have hmakes := makes_plan hdeleted hfin h.configured
  rw [hmove] at hmakes
  have hreleased := (reconciled_finalizes (r := r) h.regular.present hmakes).1
  rw [hfin] at hreleased
  exact hreleased

section Executions

variable {r : Reconciler} {w₀ : Cluster}
  (e : Execution (Exec true) Keeping (reconcileManager r) w₀)

/-- From the state `n` on two reconciles follow each other that nothing disturbs. -/
def TwoUndisturbed (n : Nat) : Prop :=
  ∃ w node t m₁ m₂, w.Fit node ∧ w.now ≤ t ∧ e.state n = ⟨w, none⟩ ∧
    e.state m₁ = ⟨(w.reconciled r).at t, none⟩ ∧
    e.state m₂ = ⟨((w.reconciled r).at t).reconciled r, none⟩

variable {e}

theorem progress_state (h₀ : PhaseInv w₀) (n : Nat) :
    Progress (e.state n).world (getPhase (e.state n).world.snr.current)
      (e.state n).world.snr.current.status.timeAssumedRebooted :=
  (phaseInv_reachable (fun _ _ h => h.others) h₀ (e.reachable n)).stored.current

theorem known_state (h₀ : PhaseInv w₀) (n : Nat) :
    getPhase (e.state n).world.snr.current ≠ .unknown := by
  have hstored := progress_state (e := e) h₀ n
  intro hp
  rw [hp] at hstored
  cases hstored

theorem deletion_state (h₀ : PhaseInv w₀) (n : Nat) :
    (e.state n).world.snr.current.deletionTimestamp = w₀.snr.current.deletionTimestamp := by
  have honward := e.along (carried_onward h₀) (Nat.zero_le n)
  rw [e.start] at honward
  exact honward.deletion

/-- The next phase is stored after one of the two reconciles. -/
theorem TwoUndisturbed.rank_lt (h₀ : PhaseInv w₀) {n : Nat} (h : TwoUndisturbed e n)
    (hrank : (getPhase (e.state n).world.snr.current).rank < 3)
    (hfin : getPhase (e.state n).world.snr.current = .fencingStarted →
      containsFinalizer (e.state n).world.snr.current snrFinalizer = true) :
    ∃ m, (getPhase (e.state n).world.snr.current).rank <
      (getPhase (e.state m).world.snr.current).rank := by
  have hknown := known_state (e := e) h₀ n
  obtain ⟨w, node, t, m₁, m₂, hfit, ht, hn, h₁, h₂⟩ := h
  rw [hn] at hrank hfin hknown ⊢
  rcases rank_twice (r := r) hfit hknown hrank hfin ht with hlt | hlt
  · exact ⟨m₁, by rw [h₁]; exact hlt⟩
  · exact ⟨m₂, by rw [h₂]; exact hlt⟩

theorem TwoUndisturbed.stage_lt (h₀ : PhaseInv w₀)
    (hlive : w₀.snr.current.deletionTimestamp = none) {n : Nat} (h : TwoUndisturbed e n)
    (hrank : (getPhase (e.state n).world.snr.current).rank < 3) :
    ∃ m, (e.state n).world.stage < (e.state m).world.stage := by
  by_cases hfin : getPhase (e.state n).world.snr.current = .fencingStarted →
      containsFinalizer (e.state n).world.snr.current snrFinalizer = true
  · obtain ⟨m, hlt⟩ := h.rank_lt h₀ hrank hfin
    exact ⟨m, stage_lt_of_rank hlt⟩
  · rw [Classical.not_imp, Bool.not_eq_true] at hfin
    obtain ⟨hp, hfin⟩ := hfin
    have hdeletion := (deletion_state (e := e) h₀ n).trans hlive
    obtain ⟨w, node, t, m₁, m₂, hfit, ht, hn, h₁, -⟩ := h
    rw [hn] at hp hfin hdeletion ⊢
    refine ⟨m₁, ?_⟩
    rw [h₁]
    exact stage_lt_finalized (r := r) hfit hdeletion hp hfin

/-- In the last phase the finalizer is removed, before it the next phase is stored. -/
theorem TwoUndisturbed.release_lt (h₀ : PhaseInv w₀)
    (hdeleted : w₀.snr.current.deletionTimestamp.isSome = true) {n : Nat}
    (h : TwoUndisturbed e n)
    (hfin : containsFinalizer (e.state n).world.snr.current snrFinalizer = true) :
    ∃ m, (e.state n).world.release < (e.state m).world.release := by
  rcases Nat.lt_or_ge (getPhase (e.state n).world.snr.current).rank 3 with hlt | hge
  · obtain ⟨m, hlt⟩ := h.rank_lt h₀ hlt fun _ => hfin
    exact ⟨m, release_lt_of_rank hfin hlt⟩
  · have hp := (progress_state h₀ n).finished hge
    have hdeletion := (deletion_state (e := e) h₀ n).symm ▸ hdeleted
    obtain ⟨w, node, t, m₁, m₂, hfit, -, hn, h₁, -⟩ := h
    rw [hn] at hp hfin hdeletion ⊢
    have hreleased : containsFinalizer ((w.reconciled r).at t).snr.current snrFinalizer = false :=
      released_of_fit hfit hdeletion hfin hp
    refine ⟨m₁, ?_⟩
    rw [h₁]
    unfold Cluster.release
    rw [hfin, hp, hreleased]
    exact Nat.lt_succ_self 3

end Executions

/-- A live SelfNodeRemediation gets to the phase Fencing-Completed and stays there, if
undisturbed pairs of reconciles come again and again until then. -/
theorem fencing_completes (r : Reconciler) {w₀ : Cluster} (h₀ : Created w₀)
    (hlive : w₀.snr.current.deletionTimestamp = none)
    (e : Execution (Exec true) Keeping (reconcileManager r) w₀)
    (hfair : ∀ n, getPhase (e.state n).world.snr.current ≠ .fencingCompleted →
      ∃ m, n ≤ m ∧ TwoUndisturbed e m) :
    ∃ n, ∀ m, n ≤ m → getPhase (e.state m).world.snr.current = .fencingCompleted := by
  have hi := phaseInv_created h₀
  have hstage : Carried (Exec true) Keeping (reconcileManager r) w₀ fun w w' =>
      w.stage ≤ w'.stage :=
    carried_rank hi fun w w' h h' => h'.stage_le (h.deletion.trans hlive)
  obtain ⟨n, hn⟩ := e.attains hstage 4 fun n hbelow => by
    obtain ⟨m, hnm, htwo⟩ := hfair n fun hp => by
      have hrank := rank_lt_of_stage hbelow
      rw [hp] at hrank
      exact absurd hrank (by decide)
    exact ⟨m, hnm, fun hbelow => htwo.stage_lt hi hlive (rank_lt_of_stage hbelow)⟩
  refine ⟨n, fun m hnm => ?_⟩
  have hdone := Nat.le_trans (hn m hnm) (stage_le _)
  exact (progress_state hi m).finished (Nat.le_of_succ_le_succ hdone)

/-! Reconciles that nothing disturbs, with some time after each of them. -/

def alternating (w₀ : Cluster) : Nat → Cluster
  | 0 => w₀
  | n + 1 =>
    if n % 2 = 0 then (alternating w₀ n).reconciled smallManager
    else (alternating w₀ n).at (max (alternating w₀ n).now 2000000000000)

theorem alternating_reconciled (w₀ : Cluster) (k : Nat) :
    alternating w₀ (2 * k + 1) = (alternating w₀ (2 * k)).reconciled smallManager :=
  if_pos (Nat.mul_mod_right 2 k)

theorem alternating_later (w₀ : Cluster) (k : Nat) : alternating w₀ (2 * k + 2) =
    ((alternating w₀ (2 * k)).reconciled smallManager).at
      (max ((alternating w₀ (2 * k)).reconciled smallManager).now 2000000000000) := by
  have hodd : ¬ (2 * k + 1) % 2 = 0 := by omega
  rw [← alternating_reconciled]
  exact if_neg hodd

theorem now_reconciled (r : Reconciler) (w : Cluster) : w.now ≤ (w.reconciled r).now := by
  have hcarried : Carried (Exec true) (fun _ _ => False) (reconcileManager r) w
      fun a b => a.now ≤ b.now := by
    refine ⟨fun _ => Int.le_refl _, Int.le_trans, fun _ hstep => ?_⟩
    cases hstep with
    | env he => exact he.elim
    | call he => exact (grows_exec he).time
    | start => exact Int.le_refl _
    | finish => exact Int.le_refl _
    | crash => exact Int.le_refl _
  exact hcarried.steps .refl (reachable_reconciled r w)

def alternatingExecution (w₀ : Cluster) :
    Execution (Exec true) Keeping (reconcileManager smallManager) w₀ where
  state n := ⟨alternating w₀ n, none⟩
  start := rfl
  steps n := by
    rw [show alternating w₀ (n + 1) = if n % 2 = 0 then _ else _ from rfl]
    split
    · exact reachable_reconciled smallManager _
    · exact .single (.env ⟨⟨le_max_left _ _, rfl, id, .inl rfl⟩, rfl, rfl⟩)

theorem twoUndisturbed_alternating {w₀ : Cluster} {node : Node} (k : Nat)
    (h : (alternating w₀ (2 * k)).Fit node) :
    TwoUndisturbed (alternatingExecution w₀) (2 * k) := by
  refine ⟨_, node, max ((alternating w₀ (2 * k)).reconciled smallManager).now 2000000000000,
    2 * k + 2, 2 * k + 3, h, ?_, rfl, ?_, ?_⟩
  · exact Int.le_trans (now_reconciled _ _) (le_max_left _ _)
  · exact congrArg (State.mk · none) (alternating_later w₀ k)
  · rw [← alternating_later w₀ k]
    exact congrArg (State.mk · none) (alternating_reconciled w₀ (k + 1))

def smallFinalized : Cluster :=
  { smallCluster with snr := ⟨{ smallSNR with finalizers := [snrFinalizer] }, []⟩ }

/-- The node with the taint of the first reconcile. -/
def smallTainted : Node :=
  { smallNode with taints := [{ nodeNoScheduleTaint with timeAdded := some 1000000000000 }] }

theorem created_finalized : Created smallFinalized := ⟨rfl, rfl, rfl, rfl⟩

theorem fit_started : (alternating smallFinalized 0).Fit smallNode where
  regular := ⟨rfl, nofun, by decide, named_single smallNode⟩
  configured := by decide +kernel
  running := by decide +kernel
  target := by decide +kernel
  handled := ⟨by decide, .inl rfl⟩
  provided := by
    unfold Provided
    rw [show getPhase _ = .fencingStarted by decide +kernel]
    exact ⟨by decide +kernel, rfl⟩

theorem fit_waiting : (alternating smallFinalized 2).Fit smallTainted where
  regular := by
    rw [alternating_later smallFinalized 0]
    exact (regular_reconciled fit_started.regular (by decide +kernel)).at _
  configured := by decide +kernel
  running := by decide +kernel
  target := by decide +kernel
  handled := ⟨by decide, .inl (by decide +kernel)⟩
  provided := by
    unfold Provided
    rw [show getPhase _ = .preRebootCompleted by decide +kernel]
    show hasCome _ _ = true
    decide +kernel

theorem fit_rebooted : (alternating smallFinalized 4).Fit smallTainted where
  regular := by
    rw [alternating_later smallFinalized 1]
    exact (regular_reconciled fit_waiting.regular (by decide +kernel)).at _
  configured := by decide +kernel
  running := by decide +kernel
  target := by decide +kernel
  handled := ⟨by decide, .inl (by decide +kernel)⟩
  provided := by
    unfold Provided
    rw [show getPhase _ = .rebootCompleted by decide +kernel]
    exact .inl (by decide +kernel)

theorem fencing_completes_small : ∃ n, ∀ m, n ≤ m →
    getPhase (alternating smallFinalized m).snr.current = .fencingCompleted := by
  refine fencing_completes smallManager created_finalized rfl
    (alternatingExecution smallFinalized) fun n hn => ?_
  have hi : PhaseInv smallFinalized := phaseInv_created created_finalized
  have hbefore : n < 5 := by
    by_contra hge
    have honward := (alternatingExecution smallFinalized).along (carried_onward hi)
      (Nat.le_of_not_lt hge)
    have hrank : 3 ≤ (getPhase
        ((alternatingExecution smallFinalized).state 5).world.snr.current).rank := by
      decide +kernel
    exact hn ((progress_state hi n).finished (Nat.le_trans hrank honward.forward.1))
  have hcases : n ≤ 2 * 0 ∨ n ≤ 2 * 1 ∨ n ≤ 2 * 2 := by omega
  rcases hcases with hle | hle | hle
  · exact ⟨_, hle, twoUndisturbed_alternating 0 fit_started⟩
  · exact ⟨_, hle, twoUndisturbed_alternating 1 fit_waiting⟩
  · exact ⟨_, hle, twoUndisturbed_alternating 2 fit_rebooted⟩

/-- The finalizer of a deleted SelfNodeRemediation is removed for good, from whatever
state it was deleted in. -/
theorem deletion_completes (r : Reconciler) {w₁ w₀ : Cluster} (h₁ : Created w₁)
    (h : ManagerRun r w₁ ⟨w₀, none⟩)
    (hdeleted : w₀.snr.current.deletionTimestamp.isSome = true)
    (e : Execution (Exec true) Keeping (reconcileManager r) w₀)
    (hfair : ∀ n, containsFinalizer (e.state n).world.snr.current snrFinalizer = true →
      ∃ m, n ≤ m ∧ TwoUndisturbed e m) :
    ∃ n, ∀ m, n ≤ m →
      containsFinalizer (e.state m).world.snr.current snrFinalizer = false := by
  have hi : PhaseInv w₀ := managerRun_inv h₁ h
  have hrelease : Carried (Exec true) Keeping (reconcileManager r) w₀ fun w w' =>
      w.release ≤ w'.release :=
    carried_rank hi fun w w' h h' => h'.release_le (h.deletion.symm ▸ hdeleted)
  obtain ⟨n, hn⟩ := e.attains hrelease 4 fun n hbelow => by
    obtain ⟨m, hnm, htwo⟩ := hfair n (release_lt_four hbelow)
    exact ⟨m, hnm, fun hbelow => htwo.release_lt hi hdeleted (release_lt_four hbelow)⟩
  refine ⟨n, fun m hnm => ?_⟩
  have hdone := hn m hnm
  unfold Cluster.release at hdone
  split at hdone
  · exact absurd (unknown_of_rank hdone) (known_state hi m)
  · next hfin => exact Bool.eq_false_iff.mpr hfin

/-- The remediation is complete, and the object is deleted. -/
def smallDeleted : Cluster := (alternating smallFinalized 5).edit withDeletion

theorem others_deleted (w : Cluster) : Others w (w.edit withDeletion) :=
  ⟨Int.le_refl _, rfl, id, .inr ⟨_, rfl, rfl, rfl⟩⟩

theorem managerRun_deleted : ManagerRun smallManager smallFinalized ⟨smallDeleted, none⟩ := by
  have hrun := (alternatingExecution smallFinalized).reachable 5
  exact (hrun.mono fun _ _ h => h.others).tail (.env (others_deleted _))

theorem regular_deleted {w : Cluster} (hw : w.Regular) (hfin : w.snr.current.finalizers ≠ []) :
    (w.edit withDeletion).Regular :=
  ⟨hw.live, fun _ => hfin, hw.serialized, hw.named⟩

theorem fit_deleted : smallDeleted.Fit smallTainted where
  regular := by
    refine regular_deleted ?_ (by decide +kernel)
    rw [alternating_reconciled smallFinalized 2]
    exact regular_reconciled fit_rebooted.regular (by decide +kernel)
  configured := by decide +kernel
  running := by decide +kernel
  target := by decide +kernel
  handled := ⟨by decide, .inl (by decide +kernel)⟩
  provided := by
    unfold Provided
    rw [show getPhase smallDeleted.snr.current = .fencingCompleted by decide +kernel]
    trivial

theorem deletion_completes_small : ∃ n, ∀ m, n ≤ m →
    containsFinalizer (alternating smallDeleted m).snr.current snrFinalizer = false := by
  refine deletion_completes smallManager created_finalized managerRun_deleted
    (by decide +kernel) (alternatingExecution smallDeleted) fun n hn => ?_
  have hi := managerRun_inv created_finalized managerRun_deleted
  have hbefore : n < 1 := by
    by_contra hge
    have honward := (alternatingExecution smallDeleted).along (carried_onward hi)
      (Nat.le_of_not_lt hge)
    have hreleased : containsFinalizer
        ((alternatingExecution smallDeleted).state 1).world.snr.current snrFinalizer = false := by
      decide +kernel
    exact nomatch hreleased.symm.trans (honward.released (by decide +kernel) hn)
  exact ⟨2 * 0, Nat.le_of_lt_succ hbefore, twoUndisturbed_alternating 0 fit_deleted⟩

end SelfNodeRemediation
