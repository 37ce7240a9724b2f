import SelfNodeRemediation.Plan

/-!
# The resources left behind by ResourceDeletion

With the strategy ResourceDeletion a reconcile in phase Reboot-Completed deletes the
pods of the node and moves on to Fencing-Completed, without the check that the
out-of-service strategy makes. `completes_gone_iff` says for which clusters nothing
of the node is left at that point.
-/

namespace SelfNodeRemediation

open Interaction Versioned

/-! ## 1. What the deletion leaves -/

/-- The deletion of its pods leaves no terminating pod on the node, and there is no
VolumeAttachment. -/
structure LeavesNothing (w : Cluster) (nodeName : String) : Prop where
  attachments : ∀ va ∈ w.volumeAttachments, va.nodeName ≠ nodeName
  deleted : ∀ pod ∈ w.pods, pod.nodeName = nodeName → pod.namespace_ ∈ w.namespaces →
    pod.finalizers = []
  others : ∀ pod ∈ w.pods, pod.nodeName = nodeName → pod.namespace_ ∉ w.namespaces →
    pod.deletionTimestamp = none

/-- A pod of the node that is left is one that the deletion does not reach, or one
that its finalizers keep. -/
theorem mem_podsDeleted {now : Time} {nodeName : String} {namespaces : List String}
    {pods : List Pod} {left : Pod} :
    left ∈ podsDeleted now nodeName namespaces pods ↔ ∃ pod ∈ pods,
      if pod.namespace_ ∈ namespaces ∧ pod.nodeName = nodeName then
        pod.finalizers ≠ [] ∧
          left = { pod with deletionTimestamp := pod.deletionTimestamp.or (some now) }
      else left = pod := by
  unfold podsDeleted
  rw [List.mem_filterMap]
  refine exists_congr fun pod => and_congr_right fun _ => ?_
  split
  · unfold deletedPod
    split
    · next hfin => exact ⟨nofun, fun h => absurd hfin h.1⟩
    · next hfin =>
      exact ⟨fun h => ⟨hfin, (Option.some.inj h).symm⟩, fun h => congrArg some h.2.symm⟩
  · exact ⟨fun h => (Option.some.inj h).symm, fun h => congrArg some h.symm⟩

theorem resourcesGone_iff {w : Cluster} {nodeName : String} :
    resourcesGone w nodeName = true ↔
      (∀ pod ∈ w.pods, pod.nodeName = nodeName → pod.deletionTimestamp = none) ∧
        ∀ va ∈ w.volumeAttachments, va.nodeName ≠ nodeName := by
  unfold resourcesGone isPodTerminating
  simp

/-- Nothing of the node is left after the deletion of its pods. -/
theorem leavesNothing_iff (w : Cluster) (nodeName : String) :
    resourcesGone { w with pods := podsDeleted w.now nodeName w.namespaces w.pods }
        nodeName = true ↔
      LeavesNothing w nodeName := by
  rw [resourcesGone_iff]
  constructor
  · rintro ⟨hpods, hva⟩
    refine ⟨hva, ?_, ?_⟩
    · intro pod hpod hnode hns
      by_contra hfin
      have hleft := hpods { pod with deletionTimestamp := pod.deletionTimestamp.or (some w.now) }
        (mem_podsDeleted.mpr ⟨pod, hpod, by rw [if_pos ⟨hns, hnode⟩]; exact ⟨hfin, rfl⟩⟩) hnode
      cases hdel : pod.deletionTimestamp with
      | none => rw [hdel] at hleft; cases hleft
      | some t => rw [hdel] at hleft; cases hleft
    · intro pod hpod hnode hns
      exact hpods pod (mem_podsDeleted.mpr ⟨pod, hpod, by rw [if_neg fun h => hns h.1]⟩) hnode
  · intro h
    refine ⟨fun left hleft hnode => ?_, h.attachments⟩
    obtain ⟨pod, hpod, hcase⟩ := mem_podsDeleted.mp hleft
    split at hcase
    · next hreached => exact absurd (h.deleted pod hpod hreached.2 hreached.1) hcase.1
    · next hunreached =>
      rw [hcase] at hnode ⊢
      exact h.others pod hpod hnode fun hns => hunreached ⟨hns, hnode⟩

/-! ## 2. When the phase is stored -/

/-- A reconcile gets to the deletion of the pods, and stores the phase: it does not
if the answer to the patch of `LastError` is decoded over the copy. -/
structure Deletes (w : Cluster) (node : Node) : Prop where
  configured : configured w = true
  running : isStoppedByNHC w.snr.current = false
  target : targetNode w w.snr.current = .ok node
  included : node.labels.lookup excludeRemediationLabel ≠ some "true"
  noError : w.snr.current.status.lastError = ""

section Completion

variable {r : Reconciler} {w : Cluster}

/-- The plan in phase Reboot-Completed. -/
theorem plan_complete {node : Node} (hphase : getPhase w.snr.current = .rebootCompleted)
    (hstrategy : w.runtimeStrategy = .resourceDeletion) (hconf : configured w = true)
    (hrun : isStoppedByNHC w.snr.current = false) (htarget : targetNode w w.snr.current = .ok node)
    (hincl : node.labels.lookup excludeRemediationLabel ≠ some "true") :
    w.plan = (Plan.complete [] true).after (startReasons w) := by
  rw [Cluster.Running.plan ⟨hconf, hrun, htarget⟩]
  unfold remediateNodePlan phasePlan
  rw [if_neg hincl, hstrategy]
  dsimp only
  rw [hphase]

/-- No phase is assigned unless a phase handler runs. -/
theorem plan_phase_none (h : ∀ node, targetNode w w.snr.current = .ok node → configured w = true →
    isStoppedByNHC w.snr.current = false →
    node.labels.lookup excludeRemediationLabel = some "true") : w.plan.phase = none := by
  have hstay (w : Cluster) (edits : List TaintEdit) (recorded : Option String) :
      (recoverNodePlan w edits recorded).phase = none := by
    unfold recoverNodePlan
    split <;> rfl
  unfold Cluster.plan
  split
  · rfl
  · split
    · next hconf =>
      cases hstopped : isStoppedByNHC w.snr.current with
      | true =>
        unfold stoppedByNHCPlan
        rw [if_pos rfl]
        split
        · split
          · exact hstay _ _ _
          · split
            · exact hstay _ _ _
            · rfl
        · rfl
      | false =>
        unfold remediatePlan
        rw [if_neg Bool.false_ne_true]
        split
        · next node htarget =>
          show (remediateNodePlan w node).phase = none
          unfold remediateNodePlan
          rw [if_pos (h node htarget hconf hstopped)]
          rfl
        · rfl
    · rfl

/-- The stored phase stays where none is assigned. -/
theorem phase_reconciled_none (hw : w.Regular) (hnone : w.plan.phase = none) :
    (w.reconciled r).snr.current.status.phase = w.snr.current.status.phase := by
  cases hf : w.plan.finalizes with
  | true => exact (reconciled_finalizes hw.present hf).2
  | false =>
    obtain ⟨t, -, hstored⟩ := (after_reconciled r hw.present hf).status
    rw [hstored, hnone]
    exact phase_returnedBy_same rfl

/-- The phase Fencing-Completed is stored exactly by the deletion. -/
theorem completed_iff_deletes (hw : w.Regular)
    (hphase : w.snr.current.status.phase = some rebootCompletedPhase)
    (hstrategy : w.runtimeStrategy = .resourceDeletion) :
    (w.reconciled r).snr.current.status.phase = some fencingCompletedPhase ↔
      ∃ node, Deletes w node := by
  have hne : some rebootCompletedPhase ≠ some fencingCompletedPhase := by decide
  by_cases hhandled : ∃ node, targetNode w w.snr.current = .ok node ∧ configured w = true ∧
      isStoppedByNHC w.snr.current = false ∧
      node.labels.lookup excludeRemediationLabel ≠ some "true"
  · obtain ⟨node, htarget, hconf, hrun, hincl⟩ := hhandled
    have hplan := plan_complete (getPhase_reboot hphase) hstrategy hconf hrun htarget hincl
    obtain ⟨t, -, hstored⟩ := (after_reconciled r hw.present (by rw [hplan]; rfl)).status
    rw [hstored, hplan]
    show (returned r.decode _ _ (.ok (.lastError .empty none))).phase = _ ↔ _
    rw [phase_returned_recovery, hphase]
    swap
    · rfl
    constructor
    · intro h
      split at h
      · next hkeeps => exact ⟨node, hconf, hrun, htarget, hincl,
          hkeeps.resolve_right fun h => nomatch h.2⟩
      · exact absurd h hne
    · rintro ⟨_, hdeletes⟩
      rw [if_pos (.inl hdeletes.noError)]
      rfl
  · have hnone := plan_phase_none (w := w) fun node htarget hconf hrun => by
      by_contra hincl
      exact hhandled ⟨node, htarget, hconf, hrun, hincl⟩
    rw [phase_reconciled_none hw hnone, hphase]
    refine ⟨fun h => absurd h hne, fun ⟨node, h⟩ => ?_⟩
    exact absurd ⟨node, h.target, h.configured, h.running, h.included⟩ hhandled

/-- What is left of the node after the deletion. -/
theorem resourcesGone_reconciled {node : Node} (hw : w.Regular)
    (hphase : w.snr.current.status.phase = some rebootCompletedPhase)
    (hstrategy : w.runtimeStrategy = .resourceDeletion) (h : Deletes w node) :
    resourcesGone (w.reconciled r) node.name = true ↔ LeavesNothing w node.name := by
  have hplan := plan_complete (getPhase_reboot hphase) hstrategy h.configured h.running h.target
    h.included
  obtain ⟨store, assumed, hworld⟩ := (after_reconciled r hw.present (by rw [hplan]; rfl)).world
  rw [hworld, performed_ok h.target, hplan]
  exact leavesNothing_iff w node.name

/-- The stored phase becomes Fencing-Completed only if nothing of the target node is
left, in the sense of `isResourceDeletionCompleted`. -/
def CompletesOnlyWhenGone (r : Reconciler) (w : Cluster) : Prop :=
  (w.reconciled r).snr.current.status.phase = some fencingCompletedPhase →
    ∃ node, targetNode w w.snr.current = .ok node ∧
      resourcesGone (w.reconciled r) node.name = true

/-- For every cluster and every SelfNodeRemediation in phase Reboot-Completed with the
strategy ResourceDeletion: a reconcile completes the remediation only with the
resources gone if and only if, whenever it gets to the deletion, the node has no
VolumeAttachment, no pod that a finalizer keeps and no terminating pod out of
reach. -/
theorem completes_gone_iff (r : Reconciler) {w : Cluster} (hw : w.Regular)
    (hphase : w.snr.current.status.phase = some rebootCompletedPhase)
    (hstrategy : w.runtimeStrategy = .resourceDeletion) :
    CompletesOnlyWhenGone r w ↔ ∀ node, Deletes w node → LeavesNothing w node.name := by
  unfold CompletesOnlyWhenGone
  rw [completed_iff_deletes hw hphase hstrategy]
  constructor
  · intro h node hdeletes
    obtain ⟨node', htarget, hgone⟩ := h ⟨node, hdeletes⟩
    obtain rfl := Except.ok.inj (hdeletes.target.symm.trans htarget)
    exact (resourcesGone_reconciled hw hphase hstrategy hdeletes).mp hgone
  · rintro h ⟨node, hdeletes⟩
    exact ⟨node, hdeletes.target,
      (resourcesGone_reconciled hw hphase hstrategy hdeletes).mpr (h node hdeletes)⟩

end Completion

/-! The small cluster in phase Reboot-Completed: with nothing on the node but pods
that can be deleted, and with a volume that is still attached to it. -/

def smallRemoving : Cluster :=
  { smallCluster with
    snr := ⟨{ smallSNR with
      finalizers := [snrFinalizer]
      status := ⟨some 1000000000000, some rebootCompletedPhase, "", []⟩ }, []⟩ }

/-- The one pod of the node has no finalizers. -/
theorem completes_gone_small : CompletesOnlyWhenGone smallManager smallRemoving := by
  have hregular : smallRemoving.Regular := ⟨rfl, nofun, by decide, named_single smallNode⟩
  refine (completes_gone_iff smallManager hregular rfl (by decide)).mpr fun node hdeletes => ?_
  obtain rfl : node = smallNode := Except.ok.inj (hdeletes.target.symm.trans (by decide))
  exact ⟨nofun, by decide, by decide⟩

/-- The assumed reboot time has come, and a volume is attached. -/
def smallAttached : Cluster :=
  { reconcileAlone smallRebooted with volumeAttachments := [⟨"csi-1", "worker-1"⟩] }

/-- The remediation completes with the volume still attached. -/
theorem completed_attached :
    smallAttached.snr.current.status.phase = some rebootCompletedPhase ∧
    smallAttached.runtimeStrategy = .resourceDeletion ∧
    (smallAttached.reconciled smallManager).snr.current.status.phase =
      some fencingCompletedPhase ∧
    ¬ CompletesOnlyWhenGone smallManager smallAttached := by
  have hcompleted : (smallAttached.reconciled smallManager).snr.current.status.phase =
      some fencingCompletedPhase := by decide +kernel
  refine ⟨by decide +kernel, by decide +kernel, hcompleted, fun h => ?_⟩
  obtain ⟨node, htarget, hgone⟩ := h hcompleted
  have hname : (targetNode smallAttached smallAttached.snr.current).map Node.name =
      .ok "worker-1" := by decide +kernel
  rw [htarget] at hname
  rw [show node.name = "worker-1" from Except.ok.inj hname] at hgone
  exact absurd hgone (by decide +kernel)

end SelfNodeRemediation
