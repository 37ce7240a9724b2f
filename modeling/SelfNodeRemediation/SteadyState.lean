import SelfNodeRemediation.ResourceDeletion

/-!
# Steady states

Two reconciles after each other, in a cluster that only they change, where the
first one leaves the phase and the finalizers alone.

1. `ConditionReason.assigned_again`, `settles_plan`: setting the same conditions or
   editing the taints in the same way once more changes nothing.
2. `plan_alike`: the second reconcile has the same plan as the first.
3. `quiet_iff`: the second reconcile leaves the status and the nodes alone, and the
   first one keeps the transition times of conditions that keep their status, if and
   only if the state is calm.
-/

namespace SelfNodeRemediation

open Interaction Versioned

/-! ## 1. Conditions -/

/-- Conditions as they are stored. -/
def wholeSeconds (conditions : List Condition) : List Condition :=
  conditions.map fun c => { c with lastTransitionTime := Time.truncate c.lastTransitionTime }

theorem wholeSeconds_twice (conditions : List Condition) :
    wholeSeconds (wholeSeconds conditions) = wholeSeconds conditions := by
  unfold wholeSeconds
  rw [List.map_map]
  refine List.map_congr_left fun c _ => ?_
  show { c with lastTransitionTime := Time.truncate (Time.truncate c.lastTransitionTime) } = _
  rw [truncate_truncate]

theorem serialize_serialize (s : Status) : s.serialize.serialize = s.serialize := by
  have htime : (s.timeAssumedRebooted.map Time.truncate).map Time.truncate =
      s.timeAssumedRebooted.map Time.truncate := by
    rw [Option.map_map]
    exact congrFun (congrArg Option.map (funext truncate_truncate)) _
  show (⟨(s.timeAssumedRebooted.map Time.truncate).map Time.truncate, s.phase, s.lastError,
    wholeSeconds (wholeSeconds s.conditions)⟩ : Status) = _
  rw [htime, wholeSeconds_twice]
  rfl

theorem presentAndEqual_wholeSeconds (conditions : List Condition) (type : ConditionType)
    (status : ConditionStatus) :
    isStatusConditionPresentAndEqual (wholeSeconds conditions) type status =
      isStatusConditionPresentAndEqual conditions type status :=
  presentAndEqual_serialize ⟨none, none, "", conditions⟩ type status

theorem present_wholeSeconds (reason : ConditionReason) (conditions : List Condition) :
    reason.present (wholeSeconds conditions) = reason.present conditions := by
  unfold ConditionReason.present
  cases reason.statuses with
  | none => exact presentAndEqual_wholeSeconds _ _ _
  | some statuses =>
    show (_ && _) = (_ && _)
    rw [presentAndEqual_wholeSeconds, presentAndEqual_wholeSeconds]

/-- Setting a condition once more, at any time, changes nothing. -/
theorem setStatusCondition_again (t₁ t₂ : Time) (new : Condition) (conditions : List Condition) :
    setStatusCondition t₂ new (wholeSeconds (setStatusCondition t₁ new conditions)) =
      wholeSeconds (setStatusCondition t₁ new conditions) := by
  induction conditions with
  | nil => simp [setStatusCondition, wholeSeconds]
  | cons c conditions ih =>
    by_cases h : c.type = new.type
    · have hset : setStatusCondition t₁ new (c :: conditions) = _ := if_pos h
      rw [hset]
      simp [setStatusCondition, wholeSeconds]
    · have hset : setStatusCondition t₁ new (c :: conditions) = _ := if_neg h
      rw [hset]
      show (if c.type = new.type then _ else
        { c with lastTransitionTime := Time.truncate c.lastTransitionTime } ::
          setStatusCondition t₂ new (wholeSeconds (setStatusCondition t₁ new conditions))) = _
      rw [if_neg h, ih]
      rfl

namespace ConditionReason

theorem present_assigned (reason : ConditionReason) (now : Time) (conditions : List Condition) :
    reason.present (reason.assigned now conditions) = true := by
  cases hstatuses : reason.statuses with
  | none =>
    unfold present assigned
    rw [hstatuses]
    exact presentAndEqual_set_self now disabledCondition conditions
  | some statuses =>
    obtain ⟨processing, succeeded⟩ := statuses
    unfold assigned
    rw [hstatuses]
    dsimp only
    split
    · next h => exact h
    · unfold present
      rw [hstatuses]
      show (_ && _) = true
      have hother : ConditionType.processing ≠ .succeeded := by decide
      rw [presentAndEqual_set_other hother]
      exact Bool.and_eq_true_iff.mpr ⟨presentAndEqual_set_self now ⟨.processing, _, _, _, _⟩ _,
        presentAndEqual_set_self now ⟨.succeeded, _, _, _, _⟩ _⟩

/-- Setting the conditions for the same reason once more changes nothing. -/
theorem assigned_again (reason : ConditionReason) (t₁ t₂ : Time) (conditions : List Condition) :
    reason.assigned t₂ (wholeSeconds (reason.assigned t₁ conditions)) =
      wholeSeconds (reason.assigned t₁ conditions) := by
  have hpresent := reason.present_assigned t₁ conditions
  rw [← present_wholeSeconds] at hpresent
  cases hstatuses : reason.statuses with
  | none =>
    unfold assigned
    rw [hstatuses]
    exact setStatusCondition_again t₁ t₂ disabledCondition conditions
  | some statuses =>
    rw [assigned, hstatuses]
    exact if_pos hpresent

end ConditionReason

/-- A condition that has the same status as before has the same transition time. -/
def TransitionsKept (before after : List Condition) : Prop :=
  ∀ type c c', findStatusCondition before type = some c → findStatusCondition after type = some c' →
    c'.status = c.status → c'.lastTransitionTime = c.lastTransitionTime

theorem transitionsKept_refl (conditions : List Condition) :
    TransitionsKept conditions conditions := by
  intro type c c' hc hc' _
  rw [Option.some.inj (hc.symm.trans hc')]

/-- What `SetStatusCondition` does with the condition that it finds. -/
theorem find_set_found (now : Time) (new : Condition) {c : Condition} {conditions : List Condition}
    (h : findStatusCondition conditions new.type = some c) :
    findStatusCondition (setStatusCondition now new conditions) new.type = some { new with
      lastTransitionTime := if c.status = new.status then c.lastTransitionTime else now } := by
  induction conditions with
  | nil => cases h
  | cons d conditions ih =>
    unfold setStatusCondition
    by_cases hd : d.type = new.type
    · rw [if_pos hd]
      obtain rfl : d = c := by simpa [findStatusCondition, hd] using h
      simp [findStatusCondition]
    · rw [if_neg hd]
      simp only [findStatusCondition, List.find?_cons, beq_false_of_ne hd] at h ⊢
      exact ih h

theorem transitionsKept_set (now : Time) (new : Condition) (conditions : List Condition) :
    TransitionsKept conditions (setStatusCondition now new conditions) := by
  intro type c c' hc hc' hstatus
  by_cases htype : type = new.type
  · subst htype
    rw [find_set_found now new hc] at hc'
    cases hc'
    exact if_pos hstatus.symm
  · rw [findStatusCondition_set_other htype] at hc'
    rw [Option.some.inj (hc.symm.trans hc')]

/-- Every condition is set at most once for one reason. -/
theorem transitionsKept_assigned (reason : ConditionReason) (now : Time)
    (conditions : List Condition) :
    TransitionsKept conditions (reason.assigned now conditions) := by
  unfold ConditionReason.assigned
  cases reason.statuses with
  | none => exact transitionsKept_set now disabledCondition conditions
  | some statuses =>
    dsimp only
    split
    · exact transitionsKept_refl conditions
    · intro type c c' hc hc' hstatus
      by_cases htype : type = .succeeded
      · subst htype
        have hother : ConditionType.succeeded ≠ .processing := by decide
        refine transitionsKept_set now ⟨.succeeded, _, _, _, _⟩ _ .succeeded c c' ?_ hc' hstatus
        rw [findStatusCondition_set_other hother]
        exact hc
      · rw [findStatusCondition_set_other htype] at hc'
        exact transitionsKept_set now _ conditions type c c' hc hc' hstatus

/-! ## 2. Plans -/

/-- The same edits once more, at any time, change nothing. -/
def Settles (edits : List TaintEdit) : Prop :=
  ∀ (node : Node) (t₁ t₂ : Time), (node.edited t₁ edits).edited t₂ edits = node.edited t₁ edits

theorem added_again (taint : Taint) (t₁ t₂ : Time) (taints : List Taint) :
    added taint t₂ (added taint t₁ taints) = added taint t₁ taints := by
  have hexists : taintExists (added taint t₁ taints) taint = true := by
    unfold added
    split
    · next h => exact h
    · exact taintExists_new taint t₁ taints
  exact if_pos hexists

theorem removed_again (taint : Taint) (taints : List Taint) :
    removed taint (removed taint taints) = removed taint taints := by
  unfold removed
  rw [List.filter_filter]
  simp

theorem removed_comm (a b : Taint) (taints : List Taint) :
    removed a (removed b taints) = removed b (removed a taints) := by
  unfold removed
  rw [List.filter_filter, List.filter_filter]
  simp [Bool.and_comm]

theorem removed_added (taint : Taint) (now : Time) (taints : List Taint) :
    removed taint (added taint now taints) = removed taint taints := by
  unfold added
  split
  · rfl
  · unfold removed
    rw [List.filter_append]
    simp [Taint.matchTaint]

theorem Settles.of_taints {edits : List TaintEdit}
    (h : ∀ (t₁ t₂ : Time) (taints : List Taint),
      edits.foldl (fun taints edit => edit.applied t₂ taints)
        (edits.foldl (fun taints edit => edit.applied t₁ taints) taints) =
      edits.foldl (fun taints edit => edit.applied t₁ taints) taints) : Settles edits :=
  fun node t₁ t₂ => congrArg (fun taints => { node with taints := taints }) (h t₁ t₂ node.taints)

theorem settles_nil : Settles [] := fun _ _ _ => rfl

theorem settles_addNoSchedule : Settles [.addNoScheduleTaint] :=
  .of_taints fun t₁ t₂ taints => added_again nodeNoScheduleTaint t₁ t₂ taints

theorem settles_addOutOfService : Settles [.addOutOfServiceTaint] :=
  .of_taints fun t₁ t₂ taints => added_again outOfServiceTaint t₁ t₂ taints

theorem settles_removeNoSchedule : Settles [.removeNoScheduleTaint] :=
  .of_taints fun _ _ taints => removed_again nodeNoScheduleTaint taints

theorem settles_cleanUp : Settles [.removeOutOfServiceTaint, .removeNoScheduleTaint] := by
  refine .of_taints fun _ _ taints => ?_
  show removed nodeNoScheduleTaint (removed outOfServiceTaint
    (removed nodeNoScheduleTaint (removed outOfServiceTaint taints))) = _
  rw [removed_comm outOfServiceTaint, removed_again, removed_again]
  rfl

theorem settles_completed : Settles [.addOutOfServiceTaint, .removeOutOfServiceTaint] := by
  refine .of_taints fun t₁ t₂ taints => ?_
  show removed outOfServiceTaint (added outOfServiceTaint t₂
    (removed outOfServiceTaint (added outOfServiceTaint t₁ taints))) =
      removed outOfServiceTaint (added outOfServiceTaint t₁ taints)
  rw [removed_added, removed_again]

/-- What every plan at a time, of an object in a phase, has in common. -/
structure Plan.Sound (now : Time) (phase : Option String) (plan : Plan) : Prop where
  settles : Settles plan.edits
  waits : ∀ t, plan.wait = some t → now < t
  /-- A phase is assigned without waiting, and it is another one. -/
  advance : ∀ next, plan.phase = some next → plan.recorded = some "" ∧ plan.wait = none ∧
    plan.finalizes = false ∧ phase ≠ some next

/-- The conditions are set by a handler only with a phase. -/
structure Plan.Handles (now : Time) (phase : Option String) (plan : Plan) : Prop
    extends plan.Sound now phase where
  bare : plan.phase = none → plan.reasons = []

section Sound

variable {w : Cluster} {now : Time} {phase : Option String}

theorem sound_stay {plan : Plan} (hsettles : Settles plan.edits) (hnone : plan.phase = none)
    (hwait : plan.wait = none) : plan.Sound now phase :=
  ⟨hsettles, fun _ h => absurd (hwait.symm.trans h) nofun,
    fun _ h => absurd (hnone.symm.trans h) nofun⟩

theorem handles_stay {plan : Plan} (hsettles : Settles plan.edits) (hnone : plan.phase = none)
    (hwait : plan.wait = none) (hbare : plan.reasons = []) : plan.Handles now phase :=
  ⟨sound_stay hsettles hnone hwait, fun _ => hbare⟩

theorem handles_hold {edits : List TaintEdit} {t : Time} {requeue : Time → Requeue}
    (hsettles : Settles edits) (ht : ¬ t ≤ now) :
    (Plan.hold edits t requeue).Handles now phase := by
  refine ⟨⟨hsettles, fun t' h => ?_, nofun⟩, fun _ => rfl⟩
  obtain rfl : t = t' := Option.some.inj h
  exact Int.not_le.mp ht

theorem handles_advance {edits : List TaintEdit} {next : String} (hsettles : Settles edits)
    (hne : phase ≠ some next) : (Plan.advance edits next).Handles now phase :=
  ⟨⟨hsettles, nofun, fun _ h => ⟨rfl, rfl, rfl, fun hphase => hne (hphase.trans h.symm)⟩⟩, nofun⟩

theorem handles_complete {edits : List TaintEdit} {deletesPods : Bool} (hsettles : Settles edits)
    (hphase : phase = some rebootCompletedPhase) :
    (Plan.complete edits deletesPods).Handles now phase := by
  refine ⟨⟨hsettles, nofun, fun next h => ⟨rfl, rfl, rfl, fun hsame => ?_⟩⟩, nofun⟩
  have hnext : some fencingCompletedPhase = some next := h
  rw [hphase, ← hnext] at hsame
  exact absurd hsame (by decide)

theorem handles_recoverNodePlan {edits : List TaintEdit} {recorded : Option String}
    (hsettles : Settles edits) : (recoverNodePlan w edits recorded).Handles now phase := by
  unfold recoverNodePlan
  split
  · exact handles_stay settles_nil rfl rfl rfl
  · exact handles_stay hsettles rfl rfl rfl

theorem handles_prepareRebootPlan (node : Node) (hphase : phase = none) :
    (prepareRebootPlan w node).Handles now phase := by
  unfold prepareRebootPlan
  split
  · split
    · split
      · exact handles_advance settles_addNoSchedule (by rw [hphase]; nofun)
      · exact handles_stay settles_addNoSchedule rfl rfl rfl
    · split
      · exact handles_stay settles_nil rfl rfl rfl
      · exact handles_stay settles_nil rfl rfl rfl
  · exact handles_stay settles_nil rfl rfl rfl

theorem handles_waitForNodeRebootedPlan (hphase : phase = some preRebootCompletedPhase) :
    (waitForNodeRebootedPlan w).Handles w.now phase := by
  unfold waitForNodeRebootedPlan
  split
  · exact handles_stay settles_nil rfl rfl rfl
  · split
    · exact handles_advance settles_nil (by rw [hphase]; decide)
    · next hnot => exact handles_hold settles_nil hnot

theorem handles_useOutOfServiceTaintPlan (node : Node)
    (hphase : phase = some rebootCompletedPhase) :
    (useOutOfServiceTaintPlan w node).Handles w.now phase := by
  unfold useOutOfServiceTaintPlan
  split
  · exact handles_complete settles_completed hphase
  · split
    · exact handles_stay settles_addOutOfService rfl rfl rfl
    · split
      · split
        · exact handles_complete settles_completed hphase
        · exact handles_stay settles_addOutOfService rfl rfl rfl
      · next hnot => exact handles_hold settles_addOutOfService hnot

theorem handles_phasePlan {node : Node} {removal : Plan}
    (hremoval : w.snr.current.status.phase = some rebootCompletedPhase →
      removal.Handles w.now w.snr.current.status.phase) :
    (phasePlan w node removal).Handles w.now w.snr.current.status.phase := by
  obtain ⟨hstarted, hprepared, hrebooted, -⟩ := phase_of_getPhase w.snr.current
  unfold phasePlan
  split
  · next hp => exact handles_prepareRebootPlan node (hstarted hp)
  · next hp => exact handles_waitForNodeRebootedPlan (hprepared hp)
  · next hp => exact hremoval (hrebooted hp)
  · split
    · exact handles_recoverNodePlan settles_removeNoSchedule
    · exact handles_stay settles_nil rfl rfl rfl
  · exact handles_stay settles_nil rfl rfl rfl

theorem handles_remediateNodePlan (node : Node) :
    (remediateNodePlan w node).Handles w.now w.snr.current.status.phase := by
  unfold remediateNodePlan
  split
  · exact handles_stay settles_nil rfl rfl rfl
  · split
    · exact handles_phasePlan fun hphase => handles_complete settles_nil hphase
    · exact handles_phasePlan fun hphase => handles_useOutOfServiceTaintPlan node hphase
    · exact handles_stay settles_nil rfl rfl rfl

theorem sound_plan (w : Cluster) : w.plan.Sound w.now w.snr.current.status.phase := by
  unfold Cluster.plan
  split
  · exact sound_stay settles_nil rfl rfl
  · split
    · split
      · unfold stoppedByNHCPlan
        split
        · split
          · exact (handles_recoverNodePlan settles_cleanUp).toSound
          · split
            · exact (handles_recoverNodePlan settles_nil).toSound
            · exact sound_stay settles_nil rfl rfl
        · exact sound_stay settles_nil rfl rfl
      · unfold remediatePlan
        split
        · next node _ =>
          have hsound := handles_remediateNodePlan (w := w) node
          exact ⟨hsound.settles, hsound.waits, hsound.advance⟩
        · exact sound_stay settles_nil rfl rfl
    · exact sound_stay settles_nil rfl rfl

/-- The node is looked for in vain, before fencing is completed. -/
structure NodeMissing (w : Cluster) : Prop where
  configured : configured w = true
  running : isStoppedByNHC w.snr.current = false
  unfinished : getPhase w.snr.current ≠ .fencingCompleted
  missing : ∃ e, targetNode w w.snr.current = .error e ∧ e.isNotFound = true

/-- The conditions are set twice for a missing node: as if a remediation started, and
as skipped. -/
theorem plan_missing (h : NodeMissing w) : ∃ text,
    w.plan = { Plan.stay [] (some text) .rateLimited with
      reasons := [.remediationStarted, .remediationSkippedNodeNotFound] } := by
  obtain ⟨e, htarget, hmissing⟩ := h.missing
  refine ⟨e.msg, ?_⟩
  unfold Cluster.plan remediatePlan startReasons
  rw [deploymentNamespace_of_configured h.configured, h.configured, h.running, htarget]
  dsimp only
  rw [if_pos h.unfinished, hmissing]
  rfl

/-- Otherwise they are set at most once. -/
theorem reasons_once (h : ¬ NodeMissing w) (hnone : w.plan.phase = none) :
    w.plan.reasons = [] ∨ ∃ reason, w.plan.reasons = [reason] := by
  have hstart : startReasons w = [] ∨ ∃ reason, startReasons w = [reason] := by
    unfold startReasons
    split
    · exact .inr ⟨_, rfl⟩
    · exact .inl rfl
  have hrecover (edits : List TaintEdit) (recorded : Option String) :
      (recoverNodePlan w edits recorded).reasons = [] := by
    unfold recoverNodePlan
    split <;> rfl
  unfold Cluster.plan at hnone ⊢
  split
  · exact .inl rfl
  · next hns =>
    split
    · next hconf =>
      split
      · unfold stoppedByNHCPlan
        split
        · split
          · exact .inl (hrecover _ _)
          · split
            · exact .inl (hrecover _ _)
            · exact .inl rfl
        · exact .inr ⟨_, rfl⟩
      · next hrun =>
        rw [if_neg hns, if_pos hconf, if_neg hrun] at hnone
        unfold remediatePlan at hnone ⊢
        split
        · next node htarget =>
          rw [htarget] at hnone
          have hbare := (handles_remediateNodePlan (w := w) node).bare hnone
          show startReasons w ++ (remediateNodePlan w node).reasons = [] ∨ _
          unfold Plan.after
          rw [hbare, List.append_nil]
          exact hstart
        · next e htarget =>
          dsimp only
          split
          · next hmissing =>
            -- the phase is Fencing-Completed, or the node counts as missing
            have hfinished : startReasons w = [] := by
              refine if_neg fun hunfinished => h ⟨hconf, Bool.not_eq_true _ ▸ hrun, hunfinished, e,
                htarget, hmissing⟩
            rw [hfinished]
            exact .inr ⟨_, rfl⟩
          · rw [List.append_nil]
            exact hstart
    · exact .inr ⟨_, rfl⟩

end Sound

/-! ## 3. The same plan again -/

/-- A later cluster that differs only in what a plan does not look at. The pods are
not looked at when they are deleted without a check. -/
structure Alike (a b : Cluster) : Prop where
  deploymentNamespace : b.deploymentNamespace = a.deploymentNamespace
  config : b.config = a.config
  calculatorConfig : b.calculatorConfig = a.calculatorConfig
  isOutOfServiceTaintGA : b.isOutOfServiceTaintGA = a.isOutOfServiceTaintGA
  volumeAttachments : b.volumeAttachments = a.volumeAttachments
  snr : ∃ lastError conditions, b.snr.current = { a.snr.current with
    status := { a.snr.current.status with lastError := lastError, conditions := conditions } }
  target : ∃ taints : Node → List Taint, targetNode b b.snr.current =
    (targetNode a a.snr.current).map fun node => { node with taints := taints node }
  pods : b.pods = a.pods ∨
    (getPhase a.snr.current = .rebootCompleted ∧ a.runtimeStrategy = .resourceDeletion)
  later : a.now ≤ b.now

section Alike

variable {a b : Cluster} (h : Alike a b)
include h

theorem Alike.getPhase :
    SelfNodeRemediation.getPhase b.snr.current = SelfNodeRemediation.getPhase a.snr.current := by
  obtain ⟨_, _, hsnr⟩ := h.snr
  exact getPhase_congr (by rw [hsnr])

theorem Alike.time : b.snr.current.status.timeAssumedRebooted =
    a.snr.current.status.timeAssumedRebooted := by
  obtain ⟨_, _, hsnr⟩ := h.snr
  rw [hsnr]

theorem Alike.deletionTimestamp :
    b.snr.current.deletionTimestamp = a.snr.current.deletionTimestamp := by
  obtain ⟨_, _, hsnr⟩ := h.snr
  rw [hsnr]

theorem Alike.finalizer :
    containsFinalizer b.snr.current snrFinalizer =
      containsFinalizer a.snr.current snrFinalizer := by
  obtain ⟨_, _, hsnr⟩ := h.snr
  rw [hsnr]
  rfl

theorem Alike.runtimeStrategy : b.runtimeStrategy = a.runtimeStrategy := by
  obtain ⟨_, _, hsnr⟩ := h.snr
  unfold Cluster.runtimeStrategy
  rw [hsnr, h.isOutOfServiceTaintGA]

theorem Alike.isStoppedByNHC : SelfNodeRemediation.isStoppedByNHC b.snr.current =
    SelfNodeRemediation.isStoppedByNHC a.snr.current := by
  obtain ⟨_, _, hsnr⟩ := h.snr
  rw [hsnr]
  rfl

/-- A time that had come has come, and one that is waited for has not. -/
theorem Alike.come_iff {t : Time} (hwait : ¬ t ≤ a.now → b.now < t) : t ≤ b.now ↔ t ≤ a.now :=
  ⟨fun hb => not_not.mp fun ha => Int.not_le.mpr (hwait ha) hb, fun ha => Int.le_trans ha h.later⟩

theorem recoverNodePlan_alike (edits : List TaintEdit) (recorded : Option String) :
    recoverNodePlan b edits recorded = recoverNodePlan a edits recorded := by
  unfold recoverNodePlan
  rw [h.finalizer]

theorem prepareRebootPlan_alike (node : Node) (taints : List Taint) (hpods : b.pods = a.pods) :
    prepareRebootPlan b { node with taints := taints } = prepareRebootPlan a node := by
  unfold prepareRebootPlan isRebootCapable hasAgent
  rw [hpods, h.finalizer, h.time, h.calculatorConfig, h.deletionTimestamp]

theorem waitForNodeRebootedPlan_alike
    (hwait : ∀ t, (waitForNodeRebootedPlan a).wait = some t → b.now < t) :
    waitForNodeRebootedPlan b = waitForNodeRebootedPlan a := by
  unfold waitForNodeRebootedPlan at hwait ⊢
  rw [h.time]
  cases ht : a.snr.current.status.timeAssumedRebooted with
  | none => rfl
  | some t =>
    rw [ht] at hwait
    dsimp only at hwait ⊢
    have hcome := h.come_iff (t := t) fun hnot => by
      rw [if_neg hnot] at hwait
      exact hwait t rfl
    rw [if_congr hcome rfl rfl]

theorem useOutOfServiceTaintPlan_alike (node : Node) (taints : List Taint)
    (hpods : b.pods = a.pods)
    (hwait : ∀ t, (useOutOfServiceTaintPlan a node).wait = some t → b.now < t) :
    useOutOfServiceTaintPlan b { node with taints := taints } =
      useOutOfServiceTaintPlan a node := by
  unfold useOutOfServiceTaintPlan at hwait ⊢
  rw [h.time, h.deletionTimestamp]
  rw [show resourcesGone b ({ node with taints := taints } : Node).name =
    resourcesGone a node.name by unfold resourcesGone; rw [hpods, h.volumeAttachments]]
  split
  · rfl
  · next hleft =>
    rw [if_neg hleft] at hwait
    cases ht : a.snr.current.status.timeAssumedRebooted with
    | none => rfl
    | some t =>
      rw [ht] at hwait
      dsimp only at hwait ⊢
      have hcome := h.come_iff (t := t + outOfServiceTimeoutDuration.toInt) fun hnot => by
        rw [if_neg hnot] at hwait
        exact hwait _ rfl
      rw [if_congr hcome rfl rfl]

theorem phasePlan_alike {node node' : Node} {removal removal' : Plan}
    (hprepare : SelfNodeRemediation.getPhase a.snr.current = .fencingStarted →
      prepareRebootPlan b node' = prepareRebootPlan a node)
    (hremoval : SelfNodeRemediation.getPhase a.snr.current = .rebootCompleted →
      removal' = removal)
    (hwait : ∀ t, (phasePlan a node removal).wait = some t → b.now < t) :
    phasePlan b node' removal' = phasePlan a node removal := by
  unfold phasePlan at hwait ⊢
  rw [h.getPhase, h.deletionTimestamp]
  cases hp : SelfNodeRemediation.getPhase a.snr.current with
  | fencingStarted => exact hprepare hp
  | preRebootCompleted =>
    rw [hp] at hwait
    exact waitForNodeRebootedPlan_alike h hwait
  | rebootCompleted => exact hremoval hp
  | fencingCompleted =>
    dsimp only
    rw [recoverNodePlan_alike h]
  | unknown => rfl

theorem remediateNodePlan_alike (node : Node) (taints : List Taint)
    (hwait : ∀ t, (remediateNodePlan a node).wait = some t → b.now < t) :
    remediateNodePlan b { node with taints := taints } = remediateNodePlan a node := by
  have hpods (hnot : ¬ (SelfNodeRemediation.getPhase a.snr.current = .rebootCompleted ∧
      a.runtimeStrategy = .resourceDeletion)) : b.pods = a.pods := h.pods.resolve_right hnot
  have hprepare (hp : SelfNodeRemediation.getPhase a.snr.current = .fencingStarted) :
      prepareRebootPlan b { node with taints := taints } = prepareRebootPlan a node :=
    prepareRebootPlan_alike h node taints (hpods fun h => nomatch hp.symm.trans h.1)
  unfold remediateNodePlan at hwait ⊢
  rw [h.runtimeStrategy]
  split
  · rfl
  · next hincl =>
    rw [if_neg hincl] at hwait
    cases hstrategy : a.runtimeStrategy with
    | resourceDeletion =>
      rw [hstrategy] at hwait
      exact phasePlan_alike h hprepare (fun _ => rfl) hwait
    | outOfServiceTaint =>
      rw [hstrategy] at hwait
      refine phasePlan_alike h hprepare (fun hp => ?_) hwait
      refine useOutOfServiceTaintPlan_alike h node taints
        (hpods fun h => nomatch hstrategy.symm.trans h.2) fun t ht => ?_
      unfold phasePlan at hwait
      rw [hp] at hwait
      exact hwait t ht
    | automatic => rfl
    | unsupported _ => rfl

theorem startReasons_alike : startReasons b = startReasons a := by
  unfold startReasons
  rw [h.getPhase]

/-- The plan is the same as long as nothing that it waits for has come. -/
theorem plan_alike (hwait : ∀ t, a.plan.wait = some t → b.now < t) : b.plan = a.plan := by
  obtain ⟨taints, htarget⟩ := h.target
  unfold Cluster.plan stoppedByNHCPlan remediatePlan configured at hwait ⊢
  rw [h.deploymentNamespace, h.config, h.isStoppedByNHC, h.deletionTimestamp, htarget,
    startReasons_alike h]
  split
  · rfl
  · next hns =>
    split
    · next hconf =>
      rw [if_neg hns, if_pos hconf] at hwait
      split
      · cases targetNode a a.snr.current with
        | ok node =>
          dsimp only [Except.map]
          rw [recoverNodePlan_alike h]
        | error e =>
          dsimp only [Except.map]
          rw [recoverNodePlan_alike h]
      · next hrun =>
        rw [if_neg hrun] at hwait
        cases hnode : targetNode a a.snr.current with
        | ok node =>
          rw [hnode] at hwait
          dsimp only [Except.map]
          rw [remediateNodePlan_alike h node (taints node) hwait]
        | error e => rfl
    · rfl

end Alike

/-! ## 4. After a reconcile that leaves the phase alone -/

section Deletes

variable {w : Cluster}

theorem deletesPods_phasePlan {node : Node} {removal : Plan}
    (h : (phasePlan w node removal).deletesPods = true) :
    getPhase w.snr.current = .rebootCompleted ∧ removal.deletesPods = true := by
  unfold phasePlan at h
  split at h
  · unfold prepareRebootPlan at h
    split at h
    · split at h
      · split at h <;> cases h
      · split at h <;> cases h
    · cases h
  · unfold waitForNodeRebootedPlan at h
    split at h
    · cases h
    · split at h <;> cases h
  · next hp => exact ⟨hp, h⟩
  · unfold recoverNodePlan at h
    split at h
    · split at h <;> cases h
    · cases h
  · cases h

theorem not_deletesPods_useOutOfServiceTaintPlan (node : Node) :
    (useOutOfServiceTaintPlan w node).deletesPods = false := by
  unfold useOutOfServiceTaintPlan
  split
  · rfl
  · split
    · rfl
    · split
      · split <;> rfl
      · rfl

/-- Pods are deleted only in phase Reboot-Completed, with ResourceDeletion. -/
theorem plan_deletesPods (h : w.plan.deletesPods = true) :
    getPhase w.snr.current = .rebootCompleted ∧ w.runtimeStrategy = .resourceDeletion := by
  unfold Cluster.plan at h
  split at h
  · cases h
  · split at h
    · split at h
      · unfold stoppedByNHCPlan recoverNodePlan at h
        split at h
        · split at h
          · split at h <;> cases h
          · split at h
            · split at h <;> cases h
            · cases h
        · cases h
      · unfold remediatePlan at h
        split at h
        · next node _ =>
          change (remediateNodePlan w node).deletesPods = true at h
          unfold remediateNodePlan at h
          split at h
          · cases h
          · split at h
            · next hstrategy => exact ⟨(deletesPods_phasePlan h).1, hstrategy⟩
            · have hdeletes := (deletesPods_phasePlan h).2
              rw [not_deletesPods_useOutOfServiceTaintPlan] at hdeletes
              cases hdeletes
            · cases h
        · cases h
    · cases h

end Deletes

/-- What is recorded is stored, whatever else is. -/
theorem lastError_returnedBy {mode : DecodeMode} {stored copy : Status} {recorded : Option String} :
    (returnedBy mode stored copy recorded).lastError = recorded.getD copy.lastError := by
  cases recorded with
  | none => rfl
  | some text =>
    unfold returnedBy
    dsimp only
    split
    · next h => exact h
    · cases mode with
      | zeroFirst => rfl
      | overwrite => exact ite_self _

/-- A phase that is lost is lost with the assumed reboot time. -/
theorem time_returnedBy {mode : DecodeMode} {stored copy : Status} {recorded : Option String}
    (hphase : (returnedBy mode stored copy recorded).phase = stored.phase)
    (hlost : copy.timeAssumedRebooted = stored.timeAssumedRebooted ∨
      (stored.phase = none ∧ copy.phase ≠ none)) :
    (returnedBy mode stored copy recorded).timeAssumedRebooted = stored.timeAssumedRebooted := by
  rcases hlost with htime | ⟨hnone, hsome⟩
  · cases recorded with
    | none => exact htime
    | some text =>
      unfold returnedBy
      dsimp only
      split
      · exact htime
      · cases mode with
        | zeroFirst => rfl
        | overwrite =>
          show stored.timeAssumedRebooted.or copy.timeAssumedRebooted = _
          rw [htime, Option.or_self]
  · rw [hnone] at hphase
    cases recorded with
    | none => exact absurd hphase hsome
    | some text =>
      unfold returnedBy at hphase ⊢
      dsimp only at hphase ⊢
      split
      · next h =>
        rw [if_pos h] at hphase
        exact absurd hphase hsome
      · next h =>
        rw [if_neg h] at hphase
        cases mode with
        | zeroFirst => rfl
        | overwrite =>
          change stored.phase.or copy.phase = none at hphase
          rw [hnone] at hphase
          exact absurd hphase hsome

section Reconciled

variable {r : Reconciler} {w : Cluster}

/-- Only nodes, pods and log entries change. -/
theorem performed_frame (w : Cluster) (plan : Plan) (assumed : List Assumption) :
    ∃ nodes pods assumed', w.performed plan assumed =
      { w with nodes := nodes, pods := pods, assumed := assumed' } := by
  unfold Cluster.performed
  cases targetNode w w.snr.current with
  | ok node => exact ⟨_, _, _, rfl⟩
  | error e => exact ⟨_, _, _, rfl⟩

theorem named_performed (hnamed : ∀ name node, w.nodes name = some node → node.name = name)
    (plan : Plan) (assumed : List Assumption) (name : String) (node : Node)
    (h : (w.performed plan assumed).nodes name = some node) : node.name = name := by
  cases htarget : targetNode w w.snr.current with
  | error e =>
    unfold Cluster.performed at h
    rw [htarget] at h
    exact hnamed name node h
  | ok target =>
    rw [performed_ok htarget] at h
    change Function.update w.nodes target.name _ name = some node at h
    by_cases hname : name = target.name
    · subst hname
      rw [Function.update_self] at h
      cases h
      rfl
    · rw [Function.update_of_ne hname] at h
      exact hnamed name node h

theorem regular_reconciled (hw : w.Regular) (hf : w.plan.finalizes = false) :
    (w.reconciled r).Regular := by
  obtain ⟨⟨t, -, hstored⟩, store, assumed, hworld⟩ := after_reconciled r hw.present hf
  refine ⟨?_, ?_, ?_, ?_⟩
  · rw [hworld]
    exact (performed_gone _ _).trans hw.live
  · rw [hstored]
    exact hw.kept
  · rw [hstored]
    exact serialize_serialize _
  · intro name node hnode
    rw [hworld] at hnode
    exact named_performed hw.named _ _ name node hnode

theorem Cluster.Regular.at (hw : w.Regular) (t : Time) : (w.at t).Regular :=
  ⟨hw.live, hw.kept, hw.serialized, hw.named⟩

theorem lastError_reconciled (hw : w.Regular) (hf : w.plan.finalizes = false) :
    (w.reconciled r).snr.current.status.lastError =
      w.plan.recorded.getD w.snr.current.status.lastError := by
  obtain ⟨t, -, hstored⟩ := (after_reconciled r hw.present hf).status
  rw [hstored]
  exact lastError_returnedBy

/-- The node that is found is the one found before, with its taints edited. -/
theorem targetNode_performed (hnamed : ∀ name node, w.nodes name = some node → node.name = name)
    (plan : Plan) (assumed : List Assumption) :
    targetNode (w.performed plan assumed) w.snr.current =
      (targetNode w w.snr.current).map fun node => node.edited w.now plan.edits := by
  cases htarget : targetNode w w.snr.current with
  | error e =>
    unfold Cluster.performed
    rw [htarget]
    exact htarget
  | ok node =>
    have hname := ((targetNode_ok_iff hnamed).mp htarget).1
    rw [performed_ok htarget]
    show (targetName w w.snr.current).bind _ = _
    rw [hname]
    show found nodeKind node.name (Function.update w.nodes node.name _ node.name) = _
    rw [Function.update_self]
    rfl

theorem pods_performed (plan : Plan) (assumed : List Assumption) (h : plan.deletesPods = false) :
    (w.performed plan assumed).pods = w.pods := by
  unfold Cluster.performed
  cases targetNode w w.snr.current with
  | error e => rfl
  | ok node => exact if_neg (Bool.eq_false_iff.mp h)

/-- With the phase the assumed reboot time stays. -/
theorem snr_reconciled (hw : w.Regular) (hf : w.plan.finalizes = false)
    (hphase : (w.reconciled r).snr.current.status.phase = w.snr.current.status.phase) :
    ∃ lastError conditions, (w.reconciled r).snr.current = { w.snr.current with
      status := { w.snr.current.status with
        lastError := lastError, conditions := conditions } } := by
  obtain ⟨t, ht, hstored⟩ := (after_reconciled r hw.present hf).status
  rw [hstored] at hphase ⊢
  have htime := time_returnedBy hphase (by
    by_cases hstays : w.snr.current.status.phase ≠ none ∨ w.plan.phase = none
    · exact .inl (ht hstays)
    · rw [not_or, not_not] at hstays
      refine .inr ⟨hstays.1, ?_⟩
      show w.plan.phase.or w.snr.current.status.phase ≠ none
      rw [hstays.1, Option.or_none]
      exact hstays.2)
  have hwhole : w.snr.current.status.timeAssumedRebooted.map Time.truncate =
      w.snr.current.status.timeAssumedRebooted :=
    congrArg Status.timeAssumedRebooted hw.serialized
  generalize returnedBy r.decode w.snr.current.status _ w.plan.recorded = status at hphase htime ⊢
  have hphase : status.phase = w.snr.current.status.phase := hphase
  refine ⟨status.lastError, wholeSeconds status.conditions, ?_⟩
  show { w.snr.current with status := ⟨status.timeAssumedRebooted.map Time.truncate, status.phase,
    status.lastError, wholeSeconds status.conditions⟩ } = _
  rw [htime, hwhole, hphase]

/-- A reconcile that leaves the phase alone changes nothing that its plan depends
on. -/
theorem alike_reconciled (hw : w.Regular) (hf : w.plan.finalizes = false)
    (hphase : (w.reconciled r).snr.current.status.phase = w.snr.current.status.phase) {t : Time}
    (ht : w.now ≤ t) : Alike w ((w.reconciled r).at t) := by
  obtain ⟨lastError, conditions, hsnr⟩ := snr_reconciled hw hf hphase
  obtain ⟨store, assumed, hworld⟩ := (after_reconciled r hw.present hf).world
  have htarget : targetNode (w.reconciled r) (w.reconciled r).snr.current =
      (targetNode w w.snr.current).map fun node => node.edited w.now w.plan.edits := by
    rw [hsnr, hworld]
    exact targetNode_performed hw.named w.plan assumed
  have hpods : (w.reconciled r).pods = w.pods ∨
      (getPhase w.snr.current = .rebootCompleted ∧ w.runtimeStrategy = .resourceDeletion) := by
    cases hdeletes : w.plan.deletesPods with
    | true => exact .inr (plan_deletesPods hdeletes)
    | false =>
      rw [hworld]
      exact .inl (pods_performed w.plan assumed hdeletes)
  obtain ⟨nodes, pods, assumed', hframe⟩ := performed_frame w w.plan assumed
  rw [hframe] at hworld
  refine ⟨?_, ?_, ?_, ?_, ?_, ⟨_, _, hsnr⟩, ⟨_, htarget⟩, hpods, ht⟩ <;>
    simp only [Cluster.at, hworld]

/-- The stored status, where no phase is assigned. -/
theorem status_reconciled (hw : w.Regular) (hf : w.plan.finalizes = false)
    (hnone : w.plan.phase = none) :
    (w.reconciled r).snr.current.status = (returnedBy r.decode w.snr.current.status
      { w.snr.current.status with
        conditions := assignAll w.plan.reasons w.now w.snr.current.status.conditions }
      w.plan.recorded).serialize := by
  obtain ⟨t, ht, hstored⟩ := (after_reconciled r hw.present hf).status
  rw [hstored, ht (.inr hnone), hnone]
  rfl

/-- Without a patch of `LastError` the conditions are stored as they are set. -/
theorem status_recorded (hw : w.Regular) (hf : w.plan.finalizes = false)
    (hnone : w.plan.phase = none)
    (hsame : ∀ text, w.plan.recorded = some text → w.snr.current.status.lastError = text) :
    (w.reconciled r).snr.current.status = Status.serialize { w.snr.current.status with
      conditions := assignAll w.plan.reasons w.now w.snr.current.status.conditions } := by
  rw [status_reconciled hw hf hnone]
  cases hrec : w.plan.recorded with
  | none => rfl
  | some text => exact congrArg Status.serialize (if_pos (hsame text hrec))

/-- The nodes stay when the edits have been made before. -/
theorem nodes_performed (hnamed : ∀ name node, w.nodes name = some node → node.name = name)
    {plan : Plan} (hedited : ∀ node, targetNode w w.snr.current = .ok node →
      node.edited w.now plan.edits = node) (assumed : List Assumption) :
    (w.performed plan assumed).nodes = w.nodes := by
  cases htarget : targetNode w w.snr.current with
  | error e =>
    unfold Cluster.performed
    rw [htarget]
  | ok node =>
    rw [performed_ok htarget, hedited node htarget]
    show (w.setNode node.name node).nodes = w.nodes
    rw [setNode_self ((targetNode_ok_iff hnamed).mp htarget).2]

/-- The same reconcile once more leaves the nodes alone. -/
theorem nodes_again (hw : w.Regular) (hf : w.plan.finalizes = false)
    (hphase : (w.reconciled r).snr.current.status.phase = w.snr.current.status.phase) {t : Time}
    (hplan : ((w.reconciled r).at t).plan = w.plan) :
    (((w.reconciled r).at t).reconciled r).nodes = (w.reconciled r).nodes := by
  obtain ⟨lastError, conditions, hsnr⟩ := snr_reconciled hw hf hphase
  obtain ⟨store, assumed, hworld⟩ := (after_reconciled r hw.present hf).world
  have htarget : targetNode ((w.reconciled r).at t) ((w.reconciled r).at t).snr.current =
      (targetNode w w.snr.current).map fun node => node.edited w.now w.plan.edits := by
    show targetNode (w.reconciled r) (w.reconciled r).snr.current = _
    rw [hsnr, hworld]
    exact targetNode_performed hw.named w.plan assumed
  have hregular := (regular_reconciled (r := r) hw hf).at t
  obtain ⟨store', assumed', hagain⟩ :=
    (after_reconciled r hregular.present (by rw [hplan, hf])).world
  rw [hagain]
  refine nodes_performed hregular.named (fun node hnode => ?_) assumed'
  rw [htarget] at hnode
  rw [hplan]
  cases hfound : targetNode w w.snr.current with
  | error e =>
    rw [hfound] at hnode
    cases hnode
  | ok target =>
    rw [hfound] at hnode
    cases hnode
    exact (sound_plan w).settles target w.now t

end Reconciled

/-! ## 5. Quiet states -/

/-- A reconcile at a time. -/
def Cluster.reconciledAt (w : Cluster) (r : Reconciler) (t : Time) : Cluster :=
  (w.at t).reconciled r

/-- A condition that keeps its status keeps its transition time, and a second
reconcile, before the time comes that the first one waits for, changes neither the
status nor a node. -/
structure StaysQuiet (r : Reconciler) (w : Cluster) (t₁ : Time) : Prop where
  transitions : TransitionsKept w.snr.current.status.conditions
    (w.reconciledAt r t₁).snr.current.status.conditions
  still : ∀ t₂, t₁ ≤ t₂ → (∀ t, (w.at t₁).plan.wait = some t → t₂ < t) →
    ((w.reconciledAt r t₁).reconciledAt r t₂).snr.current.status =
        (w.reconciledAt r t₁).snr.current.status ∧
      ((w.reconciledAt r t₁).reconciledAt r t₂).nodes = (w.reconciledAt r t₁).nodes

/-- The node is not missing, the phase is not due to change, and a `LastError` that
has to be patched does not cost conditions that have to be set. -/
structure Calm (r : Reconciler) (w : Cluster) : Prop where
  found : ¬ NodeMissing w
  settled : w.plan.phase = none
  recorded : ∀ text, w.plan.recorded = some text → w.snr.current.status.lastError ≠ text →
    (r.decode = .overwrite ∧ w.snr.current.status.conditions = []) ∨
      assignAll w.plan.reasons w.now w.snr.current.status.conditions =
        w.snr.current.status.conditions

section Calm

variable {r : Reconciler} {w : Cluster}

/-- In a calm state the answer to the patch of `LastError` takes nothing away. -/
theorem Calm.returned (h : Calm r w) :
    returnedBy r.decode w.snr.current.status
      { w.snr.current.status with
        conditions := assignAll w.plan.reasons w.now w.snr.current.status.conditions }
      w.plan.recorded =
    { w.snr.current.status with
      lastError := w.plan.recorded.getD w.snr.current.status.lastError
      conditions := assignAll w.plan.reasons w.now w.snr.current.status.conditions } := by
  cases hrec : w.plan.recorded with
  | none => rfl
  | some text =>
    unfold returnedBy
    dsimp only
    split
    · next hsame => rw [← hsame]; rfl
    · next hne =>
      have hkept := h.recorded text hrec hne
      cases hdecode : r.decode with
      | zeroFirst =>
        have hset := hkept.resolve_left fun h => nomatch hdecode.symm.trans h.1
        rw [hset]
        rfl
      | overwrite =>
        show (⟨_, _, _, _⟩ : Status) = ⟨_, _, _, _⟩
        dsimp only
        rw [Option.or_self, Option.or_self, ite_self]
        have hconditions : overlayList w.snr.current.status.conditions
            (assignAll w.plan.reasons w.now w.snr.current.status.conditions) =
            assignAll w.plan.reasons w.now w.snr.current.status.conditions := by
          rcases hkept with ⟨-, hnil⟩ | hset
          · rw [hnil]
            rfl
          · rw [hset, overlayList_self]
        rw [hconditions]
        rfl

theorem assignAll_again {reasons : List ConditionReason}
    (h : reasons = [] ∨ ∃ reason, reasons = [reason]) (t₁ t₂ : Time)
    (conditions : List Condition) :
    assignAll reasons t₂ (wholeSeconds (assignAll reasons t₁ conditions)) =
      wholeSeconds (assignAll reasons t₁ conditions) := by
  rcases h with rfl | ⟨reason, rfl⟩
  · rfl
  · exact reason.assigned_again t₁ t₂ conditions

theorem transitionsKept_assignAll {reasons : List ConditionReason}
    (h : reasons = [] ∨ ∃ reason, reasons = [reason]) (t : Time) (conditions : List Condition) :
    TransitionsKept conditions (assignAll reasons t conditions) := by
  rcases h with rfl | ⟨reason, rfl⟩
  · exact transitionsKept_refl conditions
  · exact transitionsKept_assigned reason t conditions

/-- Transition times that are stored are whole seconds. -/
theorem transitionsKept_wholeSeconds {before after : List Condition}
    (hwhole : wholeSeconds before = before) (h : TransitionsKept before after) :
    TransitionsKept before (wholeSeconds after) := by
  intro type c c' hc hc' hstatus
  have hfind := findStatusCondition_serialize before type
  rw [show before.map _ = before from hwhole, hc] at hfind
  have htime := congrArg Condition.lastTransitionTime (Option.some.inj hfind)
  unfold wholeSeconds at hc'
  rw [findStatusCondition_serialize] at hc'
  obtain ⟨d, hd, rfl⟩ := Option.map_eq_some_iff.mp hc'
  show Time.truncate d.lastTransitionTime = _
  rw [h type c d hc hd hstatus]
  exact htime.symm

/-- In a calm state the second reconcile finds everything done. -/
theorem Calm.quiet (hw : w.Regular) (hf : w.plan.finalizes = false) (h : Calm r w) :
    TransitionsKept w.snr.current.status.conditions
        (w.reconciled r).snr.current.status.conditions ∧
      ∀ t₂, w.now ≤ t₂ → (∀ t, w.plan.wait = some t → t₂ < t) →
        (((w.reconciled r).at t₂).reconciled r).snr.current.status =
            (w.reconciled r).snr.current.status ∧
          (((w.reconciled r).at t₂).reconciled r).nodes = (w.reconciled r).nodes := by
  have honce := reasons_once h.found h.settled
  have hstatus := status_reconciled (r := r) hw hf h.settled
  rw [h.returned] at hstatus
  have hphase : (w.reconciled r).snr.current.status.phase = w.snr.current.status.phase := by
    rw [hstatus]
    rfl
  refine ⟨?_, fun t₂ ht hwait => ?_⟩
  · rw [hstatus]
    exact transitionsKept_wholeSeconds (congrArg Status.conditions hw.serialized)
      (transitionsKept_assignAll honce w.now _)
  · have hplan := plan_alike (alike_reconciled hw hf hphase ht) hwait
    refine ⟨?_, nodes_again hw hf hphase hplan⟩
    have hregular := (regular_reconciled (r := r) hw hf).at t₂
    rw [status_recorded hregular (by rw [hplan, hf]) (by rw [hplan, h.settled]) (by
      intro text hrec
      rw [hplan] at hrec
      show (w.reconciled r).snr.current.status.lastError = text
      rw [lastError_reconciled hw hf, hrec]
      rfl), hplan]
    show Status.serialize { (w.reconciled r).snr.current.status with
      conditions := assignAll w.plan.reasons t₂ (w.reconciled r).snr.current.status.conditions } = _
    have hconditions : assignAll w.plan.reasons t₂ (w.reconciled r).snr.current.status.conditions =
        (w.reconciled r).snr.current.status.conditions := by
      rw [hstatus]
      exact assignAll_again honce w.now t₂ w.snr.current.status.conditions
    rw [hconditions]
    exact (regular_reconciled (r := r) hw hf).serialized

/-- The time of a missing node's Processing condition is the time of the reconcile. -/
theorem processing_missing (t : Time) (conditions : List Condition) :
    ∃ c, findStatusCondition (assignAll
      [.remediationStarted, .remediationSkippedNodeNotFound] t conditions) .processing = some c ∧
      c.lastTransitionTime = t := by
  show ∃ c, findStatusCondition (ConditionReason.remediationSkippedNodeNotFound.assigned t
    (ConditionReason.remediationStarted.assigned t conditions)) .processing = some c ∧ _
  have hpresent := ConditionReason.remediationStarted.present_assigned t conditions
  generalize ConditionReason.remediationStarted.assigned t conditions = started at hpresent ⊢
  have hstarted : isStatusConditionPresentAndEqual started .processing .true_ = true :=
    (Bool.and_eq_true_iff.mp hpresent).1
  unfold isStatusConditionPresentAndEqual at hstarted
  cases hfind : findStatusCondition started .processing with
  | none =>
    rw [hfind] at hstarted
    cases hstarted
  | some c =>
    rw [hfind] at hstarted
    have htrue : c.status = .true_ := beq_iff_eq.mp hstarted
    have hskipped : ConditionReason.remediationSkippedNodeNotFound.present started = false := by
      show (isStatusConditionPresentAndEqual started .processing .false_ && _) = false
      unfold isStatusConditionPresentAndEqual
      rw [hfind]
      show ((c.status == .false_) && _) = false
      rw [htrue]
      rfl
    have hassigned : ConditionReason.remediationSkippedNodeNotFound.assigned t started = _ :=
      if_neg (Bool.eq_false_iff.mp hskipped)
    have hother : ConditionType.processing ≠ .succeeded := by decide
    have hset := find_set_found t ⟨.processing, .false_, 0,
      ConditionReason.remediationSkippedNodeNotFound.toString, ""⟩ hfind
    rw [hassigned, findStatusCondition_set_other hother, hset]
    refine ⟨_, rfl, if_neg ?_⟩
    rw [htrue]
    decide

/-- The answer to the patch of `LastError` brings back the stored conditions. -/
theorem conditions_lost (hw : w.Regular) (hf : w.plan.finalizes = false)
    (hnone : w.plan.phase = none) {text : String} (hrec : w.plan.recorded = some text)
    (hne : w.snr.current.status.lastError ≠ text)
    (hlost : ¬ (r.decode = .overwrite ∧ w.snr.current.status.conditions = [])) :
    (w.reconciled r).snr.current.status.conditions = w.snr.current.status.conditions := by
  have hwhole : wholeSeconds w.snr.current.status.conditions = w.snr.current.status.conditions :=
    congrArg Status.conditions hw.serialized
  rw [status_reconciled hw hf hnone, hrec]
  unfold returnedBy
  dsimp only
  rw [if_neg hne]
  cases hdecode : r.decode with
  | zeroFirst => exact hwhole
  | overwrite =>
    show wholeSeconds (overlayList w.snr.current.status.conditions _) = _
    unfold overlayList
    rw [if_neg fun hnil => hlost ⟨hdecode, hnil⟩]
    exact hwhole

theorem exists_later (now stored : Time) : ∃ t, now ≤ t ∧ Time.truncate t ≠ stored := by
  have h (n l : Int) : ∃ t : Int, n ≤ t ∧ t - t % 1000000000 ≠ l :=
    ⟨max n l + 2000000000, by omega, by omega⟩
  exact h now stored

/-- The second reconcile stores the phase that the first one could not. -/
theorem settled_of_still (hw : w.Regular) (hf : w.plan.finalizes = false)
    (hphase : (w.reconciled r).snr.current.status.phase = w.snr.current.status.phase)
    (hstill : (((w.reconciled r).at w.now).reconciled r).snr.current.status =
      (w.reconciled r).snr.current.status) : w.plan.phase = none := by
  cases hadvance : w.plan.phase with
  | none => rfl
  | some next =>
    obtain ⟨hrec, -, -, hne⟩ := (sound_plan w).advance next hadvance
    have hplan : ((w.reconciled r).at w.now).plan = w.plan :=
      plan_alike (alike_reconciled hw hf hphase (Int.le_refl _)) (sound_plan w).waits
    have hregular := (regular_reconciled (r := r) hw hf).at w.now
    have hlastError := lastError_reconciled (r := r) hw hf
    obtain ⟨t, -, hstored⟩ := (after_reconciled r hregular.present (by rw [hplan, hf])).status
    rw [hstored, hplan, hadvance, hrec] at hstill
    rw [hrec] at hlastError
    have hmoved := congrArg Status.phase hstill
    rw [hphase] at hmoved
    refine absurd (hmoved.symm.trans ?_) hne
    exact congrArg Status.phase (if_pos hlastError)

/-- The second reconcile has no error to record any more, so it stores its conditions. -/
theorem conditions_of_still {t : Time} (hw : w.Regular) (hf : w.plan.finalizes = false)
    (hphase : (w.reconciled r).snr.current.status.phase = w.snr.current.status.phase)
    (hsettled : w.plan.phase = none) (ht : w.now ≤ t)
    (hwait : ∀ t', w.plan.wait = some t' → t < t')
    (hstill : (((w.reconciled r).at t).reconciled r).snr.current.status =
      (w.reconciled r).snr.current.status) :
    (w.reconciled r).snr.current.status.conditions =
      wholeSeconds (assignAll w.plan.reasons t
        (w.reconciled r).snr.current.status.conditions) := by
  have hsame : ((w.reconciled r).at t).snr.current.status =
      (w.reconciled r).snr.current.status := rfl
  have hlastError := lastError_reconciled (r := r) hw hf
  have hregular := (regular_reconciled (r := r) hw hf).at t
  have hplan : ((w.reconciled r).at t).plan = w.plan :=
    plan_alike (alike_reconciled hw hf hphase ht) hwait
  have hrecorded (text : String) (hrec : ((w.reconciled r).at t).plan.recorded = some text) :
      ((w.reconciled r).at t).snr.current.status.lastError = text := by
    rw [hplan] at hrec
    rw [hsame, hlastError, hrec]
    rfl
  rw [status_recorded hregular (by rw [hplan, hf]) (by rw [hplan, hsettled]) hrecorded,
    hplan] at hstill
  exact (congrArg Status.conditions hstill).symm

/-- A missing node is reported with a new time whenever enough time has passed. -/
theorem found_of_still (hw : w.Regular) (hf : w.plan.finalizes = false)
    (hphase : (w.reconciled r).snr.current.status.phase = w.snr.current.status.phase)
    (hsettled : w.plan.phase = none)
    (hstill : ∀ t₂, w.now ≤ t₂ → (∀ t, w.plan.wait = some t → t₂ < t) →
      (((w.reconciled r).at t₂).reconciled r).snr.current.status =
        (w.reconciled r).snr.current.status) : ¬ NodeMissing w := by
  intro hmissing
  obtain ⟨text, hmissed⟩ := plan_missing hmissing
  obtain ⟨t, ht, hne⟩ := exists_later w.now ((findStatusCondition
    (w.reconciled r).snr.current.status.conditions .processing).elim 0
      Condition.lastTransitionTime)
  have hwait : ∀ t', w.plan.wait = some t' → t < t' := by
    rw [hmissed]
    nofun
  have hstored := conditions_of_still hw hf hphase hsettled ht hwait (hstill t ht hwait)
  rw [hmissed] at hstored
  obtain ⟨c, hfind, htime⟩ := processing_missing t
    (w.reconciled r).snr.current.status.conditions
  refine hne ?_
  rw [hstored]
  unfold wholeSeconds
  rw [findStatusCondition_serialize, hfind, ← htime]
  rfl

/-- A second reconcile that changes nothing was calm to begin with. -/
theorem calm_of_still (hw : w.Regular) (hf : w.plan.finalizes = false)
    (hphase : (w.reconciled r).snr.current.status.phase = w.snr.current.status.phase)
    (hstill : ∀ t₂, w.now ≤ t₂ → (∀ t, w.plan.wait = some t → t₂ < t) →
      (((w.reconciled r).at t₂).reconciled r).snr.current.status =
        (w.reconciled r).snr.current.status) : Calm r w := by
  have hnow : ∀ t, w.plan.wait = some t → w.now < t := (sound_plan w).waits
  have hagain := hstill w.now (Int.le_refl _) hnow
  have hsettled := settled_of_still hw hf hphase hagain
  have hfound := found_of_still hw hf hphase hsettled hstill
  refine ⟨hfound, hsettled, fun text hrec hne => ?_⟩
  by_contra hcosts
  rw [not_or] at hcosts
  rcases reasons_once hfound hsettled with hnone | ⟨reason, hreason⟩
  · exact hcosts.2 (by rw [hnone]; rfl)
  · have hlost := conditions_lost hw hf hsettled hrec hne hcosts.1
    have hstored := conditions_of_still hw hf hphase hsettled (Int.le_refl _) hnow hagain
    rw [hlost, hreason] at hstored
    have hset := reason.assigned_again w.now w.now w.snr.current.status.conditions
    rw [show wholeSeconds (reason.assigned w.now w.snr.current.status.conditions) =
      w.snr.current.status.conditions from hstored.symm] at hset
    exact hcosts.2 (by rw [hreason]; exact hset)

end Calm

/-- For every stored SelfNodeRemediation and every cluster in which a reconcile leaves
the phase and the finalizers alone: it stays quiet if and only if the state is
calm. -/
theorem quiet_iff (r : Reconciler) {w : Cluster} (hw : w.Regular) (t₁ : Time)
    (hphase : (w.reconciledAt r t₁).snr.current.status.phase = w.snr.current.status.phase)
    (hfinalizers : (w.reconciledAt r t₁).snr.current.finalizers = w.snr.current.finalizers) :
    StaysQuiet r w t₁ ↔ Calm r (w.at t₁) := by
  have hf : (w.at t₁).plan.finalizes = false := by
    refine Bool.eq_false_iff.mpr fun hf => ?_
    exact finalizers_reconciled (hw.at t₁).present hf hfinalizers
  constructor
  · intro h
    exact calm_of_still (hw.at t₁) hf hphase fun t₂ ht hwait => (h.still t₂ ht hwait).1
  · intro h
    obtain ⟨htransitions, hstill⟩ := h.quiet (hw.at t₁) hf
    exact ⟨htransitions, hstill⟩

/-! The small cluster while the node is assumed to reboot, and without its node. -/

def smallWaiting : Cluster :=
  { smallCluster with
    snr := ⟨{ smallSNR with
      finalizers := [snrFinalizer]
      status := ⟨some 2000000000000, some preRebootCompletedPhase, "", []⟩ }, []⟩ }

/-- The conditions are set by the first reconcile, and stay. -/
theorem quiet_waiting : StaysQuiet smallManager smallWaiting 1000500000000 := by
  have hregular : smallWaiting.Regular := ⟨rfl, nofun, by decide, named_single smallNode⟩
  refine (quiet_iff smallManager hregular 1000500000000 (by decide +kernel)
    (by decide +kernel)).mpr ⟨fun h => ?_, by decide +kernel, fun text hrec hne => ?_⟩
  · obtain ⟨e, hmissing, -⟩ := h.missing
    cases hmissing
  · have hnothing : (smallWaiting.at 1000500000000).plan.recorded = some "" := by decide +kernel
    obtain rfl : "" = text := Option.some.inj (hnothing.symm.trans hrec)
    exact absurd rfl hne

/-- The missing node is already recorded as the last error. -/
def smallMissing : Cluster := reconcileAlone { smallCluster with nodes := fun _ => none }

/-- Without the node each reconcile sets the conditions as if a remediation started,
and as skipped: a second later the statuses are the same, and the times are not. -/
theorem restless_missing :
    (smallMissing.reconciledAt smallManager 1000500000000).snr.current.status.phase =
        smallMissing.snr.current.status.phase ∧
    (smallMissing.reconciledAt smallManager 1000500000000).snr.current.finalizers =
        smallMissing.snr.current.finalizers ∧
    (smallMissing.reconciledAt smallManager 1000500000000).snr.current.status.conditions =
        [⟨.processing, .false_, 1000000000000, "RemediationSkippedNodeNotFound", ""⟩,
          ⟨.succeeded, .false_, 1000000000000, "RemediationSkippedNodeNotFound", ""⟩] ∧
    ((smallMissing.reconciledAt smallManager 1000500000000).reconciledAt smallManager
        1001500000000).snr.current.status.conditions =
        [⟨.processing, .false_, 1001000000000, "RemediationSkippedNodeNotFound", ""⟩,
          ⟨.succeeded, .false_, 1001000000000, "RemediationSkippedNodeNotFound", ""⟩] ∧
    ¬ StaysQuiet smallManager smallMissing 1000500000000 := by
  refine ⟨by decide +kernel, by decide +kernel, by decide +kernel, by decide +kernel, fun h => ?_⟩
  have hwait : (smallMissing.at 1000500000000).plan.wait = none := by decide +kernel
  have hstill := h.still 1001500000000 (by decide) (fun t ht => nomatch hwait.symm.trans ht)
  exact absurd hstill.1 (by decide +kernel)

end SelfNodeRemediation
