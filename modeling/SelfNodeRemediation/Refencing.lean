import SelfNodeRemediation.PhaseMachine

/-!
# A finished remediation and the out-of-service taint

The manager reads the SelfNodeRemediation from a cache that may lag behind. The
optimistic lock protects the status it writes in the end, but not the patch of
the node before it. This module is about the patches that put the out-of-service
taint on the node once the phase Fencing-Completed is stored.

* `Unfinished` is what a reconcile that may add the taint has to know: the phase
  Fencing-Completed was not stored when it read the object, and it is the only one
  that could store it.
* `not_refenced`: no reconcile adds the taint after Fencing-Completed is stored, if
  none reads an earlier version in phase Reboot-Completed then.
* `refenced`: one that reads such a version adds it.
-/

namespace SelfNodeRemediation

open Interaction Versioned

/-! ## 1. The runs -/

/-- While Fencing-Completed is stored, the cache does not answer with a version in
phase Reboot-Completed. -/
def CacheFollows : (c : Call) → Cluster → Resp c → Prop
  | .getSNR, w, r => ∀ snr, r = .ok snr → getPhase w.snr.current = .fencingCompleted →
      getPhase snr.value ≠ .rebootCompleted
  | _, _, _ => True

/-- The runs of `ReconcileManager` in which the cache follows. -/
def FollowedRun (r : Reconciler) (w₀ : Cluster) (s : State Call Resp Cluster Reconciled) : Prop :=
  Reachable (fun c w a w' => Exec true c w a w' ∧ CacheFollows c w a) Others (reconcileManager r)
    w₀ s

theorem FollowedRun.managerRun {r : Reconciler} {w₀ : Cluster}
    {s : State Call Resp Cluster Reconciled} (h : FollowedRun r w₀ s) : ManagerRun r w₀ s :=
  Reachable.weaken (fun _ _ _ _ he => he.1) h

/-- The taint is added only while the phase Fencing-Completed is not stored. -/
def FenceAllowed : Call → Cluster → Prop
  | .patchNode base changed, w => AddsOutOfService base changed →
      getPhase w.snr.current ≠ .fencingCompleted
  | _, _ => True

def fenceOutline : Outline Call Resp Cluster where
  exec c w r w' := Exec true c w r w' ∧ CacheFollows c w r
  env := Others
  inv _ := True
  allowed := FenceAllowed
  inv_env _ _ := trivial
  inv_exec _ _ _ := trivial

theorem fenceOutline_client : Client true fenceOutline where
  exec h := h.1
  reads {c w} h _ := by
    cases c with
    | patchNode _ _ => cases h
    | _ => trivial

/-! ## 2. A reconcile against the outline -/

/-- A copy in phase Reboot-Completed was read while Fencing-Completed was not
stored, and it still is not. -/
def Unfinished (m : Mem) (w : Cluster) : Prop :=
  getPhase m.snr.value = .rebootCompleted → getPhase w.snr.current ≠ .fencingCompleted

theorem robust_unfinished (m : Mem) : Robust fenceOutline (Unfinished m) where
  stable w w' h he hp := by
    rcases he.snr with hs | ⟨snr, hs, hsame⟩
    · rw [hs]
      exact h hp
    · rw [hs]
      exact getPhase_congr hsame.1 ▸ h hp
  aside hc he h hp := by
    rw [(he.1.aside hc).1]
    exact h hp

theorem unfinished_beside (m : Mem) : Beside fenceOutline AnyError (Unfinished m) :=
  fenceOutline_client.beside (fun _ _ => trivial) (robust_unfinished m)

theorem unfinished_reading (m : Mem) : Reading fenceOutline AnyError (Unfinished m) :=
  (unfinished_beside m).toReading

/-- It does not matter how a reconcile ends. -/
def fenceStages : Stages Cluster := .steady Unfinished fun _ _ => True

theorem fence_storing : Storing true fenceOutline AnyError fenceStages.ended where
  toClient := fenceOutline_client
  values _ _ := trivial
  stable _ := Outline.stable_const
  decode _ _ _ _ := trivial
  update _ := trivial
  lastError _ _ := trivial
  patch _ _ := trivial
  patched _ _ _ := trivial

/-- Updates of the object are always allowed. -/
theorem updates_fence (r : Reconciler) (m : Mem) :
    Updates fenceOutline r AnyError fenceStages.ended m fun _ => True :=
  fence_storing.updates Outline.stable_const (fun _ _ => trivial) fun _ _ _ => trivial

section Steps

variable {α : Type} {r : Reconciler} {m : Mem} {w : Cluster} {node : Node}

theorem Keeps.unfinished {x : M α} (hx : Keeps fenceOutline AnyError (Unfinished m) m w x) :
    fenceOutline.wp (x m)
      (Leaves (fun _ => Unfinished m) (Failed AnyError fenceStages.ended m) m) w :=
  hx.failed fun _ _ _ => trivial

theorem removeTaint_unfinished (taint : Taint) (node : Node) (hw : Unfinished m w) :
    Keeps fenceOutline AnyError (Unfinished m) m w (removeTaint r taint node) :=
  keeps_removeTaint (unfinished_beside m) r taint node hw
    fun _ _ _ hadds => absurd hadds (not_addsOutOfService_withoutTaint taint node)

theorem addNoScheduleTaint_unfinished (node : Node) (hw : Unfinished m w) :
    Keeps fenceOutline AnyError (Unfinished m) m w (addNoScheduleTaint r node) := by
  refine keeps_addTaint (unfinished_beside m) r _ node hw ?_
  exact fun _ _ _ _ hadds => absurd hadds.of_withTaint (by decide)

theorem updateConditions_unfinished {reason : ConditionReason}
    {processing succeeded : ConditionStatus}
    (hr : reason.statuses = some (processing, succeeded)) :
    fenceOutline.wp (updateConditions reason m) (Ends AnyError fenceStages.ended) w :=
  wp_updateConditions_ends (fence_storing.reading (Outline.stable_const (p := True))) trivial hr
    fun _ _ _ _ _ _ => trivial

theorem removeFinalizer_unfinished :
    fenceOutline.wp (removeFinalizer r m) (Ends AnyError fenceStages.ended) w :=
  wp_removeFinalizer_ends fence_storing.stable (updates_fence r _) trivial

theorem recoverNode_unfinished (hw : Unfinished m w) :
    fenceOutline.wp (recoverNode r node m) (Ends AnyError fenceStages.ended) w :=
  wp_recoverNode_ends fence_storing.stable (Keeps.unfinished (removeTaint_unfinished _ node hw))
    (fun _ _ _ => removeFinalizer_unfinished) fun _ _ _ => trivial

theorem stoppedByNHC_unfinished (hw : Unfinished m w) :
    fenceOutline.wp (stoppedByNHC r m) (Ends AnyError fenceStages.ended) w := by
  cases hdel : m.snr.value.deletionTimestamp with
  | none =>
    exact wp_stoppedByNHC_live fence_storing.stable hdel (updateConditions_unfinished rfl)
  | some t =>
    exact wp_stoppedByNHC_deleted fence_storing.stable (hdel ▸ rfl)
      (Keeps.unfinished (keeps_getNodeFromSnr (unfinished_reading m) hw))
      (fun _ _ _ _ _ => removeFinalizer_unfinished) (fun _ _ _ h => h)
      (fun node _ _ hw => Keeps.unfinished (removeTaint_unfinished _ node hw))
      fun _ _ _ hw => recoverNode_unfinished hw

theorem prepareReboot_unfinished (hw : Unfinished m w) :
    fenceOutline.wp (prepareReboot r node m) (Ends AnyError fenceStages.ended) w := by
  refine wp_prepareReboot_ends fence_storing.stable (G := fun _ => Unfinished m)
    (Keeps.unfinished (keeps_isNodeRebootCapable (unfinished_reading m) node hw))
    (fun _ _ => trivial) (fun _ _ _ => trivial) (fun _ _ _ _ => ?_)
    (fun _ _ _ hw => Keeps.unfinished (addNoScheduleTaint_unfinished node hw)) ?_
  · exact wp_addFinalizer_ends fence_storing.stable (fun _ => trivial) (updates_fence r _)
      fun _ => trivial
  · intro _ node w _ hw
    exact Outline.wp_mono (wp_setTimeAssumedRebooted (unfinished_reading m) node
      (fun _ _ _ _ _ => trivial)
      (fun _ _ _ _ _ _ hw he => (robust_unfinished m).aside rfl he hw) hw)
      fun _ _ _ _ => ⟨fun _ => trivial, fun _ _ => ⟨trivial, trivial⟩⟩

theorem handleRebootCompletedPhase_unfinished {rmNodeResources : Node → M Duration}
    (hrm : Keeps fenceOutline AnyError (Unfinished m) m w (rmNodeResources node)) :
    fenceOutline.wp (handleRebootCompletedPhase rmNodeResources node m)
      (Ends AnyError fenceStages.ended) w :=
  wp_handleRebootCompletedPhase_ends fence_storing.stable (Keeps.unfinished hrm)
    (fun _ _ _ _ => trivial) fun _ _ _ => updateConditions_unfinished rfl

/-- The taint is added in phase Reboot-Completed only. -/
theorem fence_walk (r : Reconciler) : Walk fenceOutline r AnyError fenceStages where
  values _ _ := trivial
  stable := fence_storing.stable
  config hw := Keeps.unfinished (keeps_isConfigurationExist (unfinished_reading _) hw)
  disabled {m _} _ hw := wp_disabledNoConfig_ends (unfinished_reading m) hw fence_storing.stable
    fun _ _ _ _ _ => trivial
  stopped _ _ hw := stoppedByNHC_unfinished hw
  start {m _} _ hw := wp_markStarted_ends (unfinished_reading m) hw
    (fun m => (robust_unfinished m).stable) (fun _ _ _ _ _ hw _ => hw) fun _ => hw
  target {m _} hw :=
    (keeps_getNodeFromSnr (unfinished_reading m) hw).leaves fun _ _ _ hw _ => hw
  absent _ _ := wp_nodeNotFound_ends fence_storing.stable
    (fun _ => updateConditions_unfinished rfl) fun _ => trivial
  excluded _ _ := trivial
  strategy hw := Keeps.unfinished (keeps_getRuntimeStrategy (unfinished_reading _) _ hw)
  unhandled _ _ := trivial
  prepare _ _ hw := prepareReboot_unfinished hw
  wait {m _ _ _} _ _ hw := wp_waitForNodeRebooted_ends fence_storing.stable
    (Keeps.unfinished (keeps_wasNodeRebooted (unfinished_reading m) fails_any hw))
    (fun _ _ _ _ => trivial) fun _ _ _ _ => trivial
  delete {m node _} _ _ hw := handleRebootCompletedPhase_unfinished
    (keeps_deleteResourcesWrapper (unfinished_beside m) node hw (fun _ _ _ => trivial)
      fun _ _ _ _ => trivial)
  evict {m node _} hp _ hw := handleRebootCompletedPhase_unfinished
    (keeps_useOutOfServiceTaint (unfinished_beside m) r node hw fails_any
      (fun _ _ _ hw _ => hw hp)
      fun node _ _ _ hadds => absurd hadds (not_addsOutOfService_withoutTaint _ node))
  finish _ _ hw := wp_handleFencingCompletedPhase_ends fence_storing.stable (fun _ => trivial)
    fun _ => recoverNode_unfinished hw

theorem fences_reconcileManager (r : Reconciler) (w : Cluster) :
    fenceOutline.wp (reconcileManager r) (fun _ _ => True) w := by
  refine Outline.wp_mono (fence_storing.reconcileManager (fence_walk r) ?_ w)
    fun _ _ _ _ => trivial
  intro snr w _ he hp hfin
  exact he.2 snr rfl hfin hp

end Steps

/-! ## 3. Whole runs -/

/-- In every run in which the cache follows: when a reconcile puts the out-of-service
taint on a node, no version of the object that was ever stored is in phase
Fencing-Completed. -/
theorem not_refenced (r : Reconciler) {w₀ : Cluster} (h₀ : Created w₀)
    {s : State Call Resp Cluster Reconciled} (h : FollowedRun r w₀ s) {base changed : Node}
    {k : Resp (.patchNode base changed) → Prog Call Resp Reconciled}
    (hr : s.running = some (.call (.patchNode base changed) k))
    (hadds : AddsOutOfService base changed) (n : Nat) (snr : SNR)
    (hv : s.world.snr.version n = some snr) : getPhase snr ≠ .fencingCompleted := by
  have hi := managerRun_inv h₀ h.managerRun
  have hallowed : FenceAllowed (.patchNode base changed) s.world :=
    fenceOutline.reachable_allowed (fun w _ => fences_reconcileManager r w) trivial h hr
  -- the phase would still be Fencing-Completed
  intro hp
  refine hallowed hadds ?_
  exact hi.finished (Store.version_le hv) hv Store.version_resourceVersion hp

/-! The small cluster with the out-of-service strategy: once the assumed reboot
time has come, the taint is put on the node and taken off again, as nothing is
left on it. -/

def fenceCluster : Cluster :=
  { smallCluster with snr := ⟨{ smallSNR with remediationStrategy := .outOfServiceTaint }, []⟩ }

def fenceRebooted : Cluster :=
  { reconcileAlone (reconcileAlone fenceCluster) with now := 2000000000000 }

/-- The phase Reboot-Completed is stored. -/
def fenceReady : Cluster := reconcileAlone fenceRebooted

/-- The phase Fencing-Completed is stored. -/
def fenceFinished : Cluster := reconcileAlone fenceReady

/-- A patch that puts the out-of-service taint on a node. -/
def Call.addsOutOfService : Call → Bool
  | .patchNode base changed => taintExists changed.taints outOfServiceTaint &&
      !taintExists base.taints outOfServiceTaint
  | _ => false

theorem addsOutOfService_eq {c : Call} (h : c.addsOutOfService = true) :
    ∃ base changed, c = .patchNode base changed ∧ AddsOutOfService base changed := by
  cases c with
  | patchNode base changed =>
    obtain ⟨hchanged, hbase⟩ := Bool.and_eq_true_iff.mp h
    exact ⟨base, changed, rfl, hchanged, Bool.eq_false_of_not_eq_true' hbase⟩
  | _ => cases h

/-- The server answers with the current version. -/
theorem cacheFollows_served (c : Call) (w : Cluster) : CacheFollows c w (serve c w).1 := by
  cases c with
  | getSNR =>
    intro snr hsnr hfin
    simp only [serve] at hsnr
    split at hsnr
    · cases hsnr
    · cases hsnr
      rw [show getPhase w.snr.read.value = _ from hfin]
      decide
  | _ => trivial

theorem followedRun_reconcileAlone {w₀ w : Cluster} (h : FollowedRun smallManager w₀ ⟨w, none⟩) :
    FollowedRun smallManager w₀ ⟨reconcileAlone w, none⟩ :=
  reachable_alone (fun _ => true) (fun c w _ => ⟨.served, cacheFollows_served c w⟩)
    (Prog.passes_true _ w) h

theorem followedRun_ready : FollowedRun smallManager fenceCluster ⟨fenceReady, none⟩ := by
  have hstart : FollowedRun smallManager fenceCluster ⟨fenceCluster, none⟩ := .refl
  have htwice := followedRun_reconcileAlone (followedRun_reconcileAlone hstart)
  have hrebooted : FollowedRun smallManager fenceCluster ⟨fenceRebooted, none⟩ :=
    htwice.tail (.env ⟨by decide +kernel, rfl, id, .inl rfl⟩)
  exact followedRun_reconcileAlone hrebooted

theorem not_refenced_small : ∃ s base changed k, FollowedRun smallManager fenceCluster s ∧
    s.running = some (.call (.patchNode base changed) k) ∧ AddsOutOfService base changed ∧
    ∀ n snr, s.world.snr.version n = some snr → getPhase snr ≠ .fencingCompleted := by
  obtain ⟨c, k, w, hc, -, h⟩ := reachable_upTo (fun _ => true) Call.addsOutOfService
    (fun _ => true) (fun c w _ => ⟨.served, cacheFollows_served c w⟩) (by decide +kernel)
    followedRun_ready
  obtain ⟨base, changed, rfl, hadds⟩ := addsOutOfService_eq hc
  have hnot := not_refenced smallManager ⟨rfl, rfl, rfl, rfl⟩ h rfl hadds
  exact ⟨_, base, changed, k, h, rfl, hadds, hnot⟩

/-- The remediation is finished, and then a reconcile reads the version before it
from its cache and puts the out-of-service taint on the node again. -/
theorem refenced : ∃ s base changed k, ManagerRun smallManager fenceCluster s ∧
    s.world.snr.current.remediationStrategy = .outOfServiceTaint ∧
    getPhase s.world.snr.current = .fencingCompleted ∧
    s.running = some (.call (.patchNode base changed) k) ∧ AddsOutOfService base changed := by
  have hfinished : ManagerRun smallManager fenceCluster ⟨fenceFinished, none⟩ :=
    managerRun_reconcileAlone followedRun_ready.managerRun
  have hversion : fenceFinished.snr.version 3 = some fenceReady.snr.current := by decide +kernel
  have hread := (hfinished.tail .start).tail
    (.call (@Exec.cached true fenceFinished 3 fenceReady.snr.current rfl hversion))
  obtain ⟨c, k, w, hc, hcheck, h⟩ := Reachable.upTo (fun _ => true) Call.addsOutOfService
    (fun p => p.2.snr.current.remediationStrategy = .outOfServiceTaint ∧
      getPhase p.2.snr.current = .fencingCompleted)
    (fun _ _ _ => .served) (by decide +kernel) hread
  obtain ⟨base, changed, rfl, hadds⟩ := addsOutOfService_eq hc
  obtain ⟨hstrategy, hphase⟩ := of_decide_eq_true hcheck
  exact ⟨_, base, changed, k, h, hstrategy, hphase, rfl, hadds⟩

end SelfNodeRemediation
