import SelfNodeRemediation.StatusWrites

/-!
# The out-of-service taint and the eviction of pods

With the out-of-service taint on the node other controllers mark the pods that do
not tolerate it as terminating, and later remove them. The manager takes the taint
off again when it finds no terminating pod and no VolumeAttachment of the node.

* `evicted`: over whole runs of `ReconcileManager` for a SelfNodeRemediation that
  is not deleted, if each list of the pods is made when all pods left of those that
  were on the node when the taint was added are terminating, then none of them is
  left when the taint is taken off.
* `withdrawn_early`: the list is made in the reconcile that adds the taint, when
  nobody has marked a pod yet. The taint is taken off at once.

Any reconcile may crash, any call may fail before or after it took effect, and
between any two calls the others do what they like, except that they neither add
the out-of-service taint nor delete the SelfNodeRemediation.
-/

namespace SelfNodeRemediation

open Interaction Versioned

/-! ## 1. The pods of the node -/

/-- The out-of-service taint is on the node. -/
def isOutOfService (nodeName : String) (w : Cluster) : Bool :=
  (w.nodes nodeName).any fun node => taintExists node.taints outOfServiceTaint

/-- What a pod is known by while it exists. -/
def podKey (pod : Pod) : String × String := (pod.namespace_, pod.name)

/-- The pod is there, on the node. -/
def isBound (nodeName : String) (w : Cluster) (key : String × String) : Bool :=
  w.pods.any fun pod => podKey pod == key && pod.nodeName == nodeName

/-- The cluster, and the pods that did not tolerate the taint and were on the node
when it was added, without those that have been removed since. -/
structure EvictionWorld where
  cluster : Cluster
  bound : List (String × String)

/-- Which node, and which pods tolerate the out-of-service taint. -/
structure EvictionTarget where
  nodeName : String
  tolerates : Pod → Bool

/-- The world when the cluster changes. A pod that comes back with the same name is
another pod. -/
def EvictionWorld.after (t : EvictionTarget) (w : EvictionWorld) (cluster : Cluster) :
    EvictionWorld where
  cluster := cluster
  bound :=
    if isOutOfService t.nodeName cluster && !isOutOfService t.nodeName w.cluster then
      (cluster.pods.filter fun pod => pod.nodeName == t.nodeName && !t.tolerates pod).map podKey
    else w.bound.filter (isBound t.nodeName cluster)

/-- What is left of those pods is terminating. -/
def AllTerminating (t : EvictionTarget) (w : EvictionWorld) : Prop :=
  ∀ pod ∈ w.cluster.pods, pod.nodeName = t.nodeName → podKey pod ∈ w.bound →
    isPodTerminating pod = true

/-- A call of the manager, with the pods listed only under `guard`. -/
structure EvictionExec (lagging : Bool) (t : EvictionTarget) (guard : EvictionWorld → Prop)
    (c : Call) (w : EvictionWorld) (r : Resp c) (w' : EvictionWorld) : Prop where
  exec : Exec lagging c w.cluster r w'.cluster
  after : w' = w.after t w'.cluster
  guarded : c = .listPods → guard w

/-- What the others do not do. -/
structure EvictionOthers (t : EvictionTarget) (w w' : Cluster) : Prop where
  untainted : isOutOfService t.nodeName w' = true → isOutOfService t.nodeName w = true
  named : ∀ name node, w'.nodes name = some node → node.name = name
  live : w'.snr.All fun snr => snr.deletionTimestamp = none

def EvictionEnv (t : EvictionTarget) (w w' : EvictionWorld) : Prop :=
  EvictionOthers t w.cluster w'.cluster ∧ w' = w.after t w'.cluster

def Call.isNodePatch : Call → Bool
  | .patchNode _ _ => true
  | _ => false

/-- The call takes the taint off the node. -/
def Withdraws (t : EvictionTarget) (c : Call) (w : Cluster) : Prop :=
  isOutOfService t.nodeName w = true ∧ isOutOfService t.nodeName (serve c w).2 = false

/-! ## 2. Calls that leave the taint -/

section Calls

variable {t : EvictionTarget} {c : Call} {w : Cluster}

theorem not_withdraws_of_nodes (h : (serve c w).2.nodes t.nodeName = w.nodes t.nodeName) :
    ¬ Withdraws t c w := by
  rintro ⟨hon, hoff⟩
  unfold isOutOfService at hon hoff
  rw [h, hon] at hoff
  cases hoff

theorem not_withdraws_of_isNodePatch (h : c.isNodePatch = false) : ¬ Withdraws t c w := by
  refine not_withdraws_of_nodes ?_
  have he : Exec false c w (serve c w).1 (serve c w).2 := .served
  cases c with
  | patchNode base changed => cases h
  | updateSNR snr =>
    rcases he.updateSNR.world with hw | ⟨-, hw⟩ <;> exact congrArg (·.nodes t.nodeName) hw
  | updateSNRStatus snr =>
    rcases he.updateSNRStatus.world with hw | ⟨-, hw⟩ <;> exact congrArg (·.nodes t.nodeName) hw
  | patchSNRStatus base changed =>
    rcases he.patchSNRStatus.world with hw | ⟨-, hw⟩ <;> exact congrArg (·.nodes t.nodeName) hw
  | _ => rfl

/-- A patch of another node, or with the taint. -/
theorem not_withdraws_patchNode {base changed : Node}
    (h : changed.name = t.nodeName → isOutOfService t.nodeName w = true →
      taintExists changed.taints outOfServiceTaint = true) :
    ¬ Withdraws t (.patchNode base changed) w := by
  rintro ⟨hon, hoff⟩
  have hserved : Exec false (.patchNode base changed) w _ _ := .served
  have hpatch := hserved.patchNode
  generalize (serve (.patchNode base changed) w).1 = r at hpatch
  generalize (serve (.patchNode base changed) w).2 = w' at hpatch hoff
  have hset {node : Node} (hnode : w.nodes changed.name = some node)
      (hoff : isOutOfService t.nodeName
        (w.setNode changed.name (patchedNode base changed node)) = false) : False := by
    change (Function.update w.nodes changed.name _ t.nodeName).any _ = false at hoff
    rcases eq_or_ne t.nodeName changed.name with hname | hne
    · rw [hname, Function.update_self] at hoff
      have htainted := h hname.symm hon
      unfold isOutOfService at hon
      rw [hname, hnode] at hon
      unfold patchedNode at hoff
      split at hoff
      · exact absurd (hoff.symm.trans hon) nofun
      · exact absurd (hoff.symm.trans htainted) nofun
    · rw [Function.update_of_ne hne] at hoff
      exact absurd (hoff.symm.trans hon) nofun
  cases hpatch with
  | done hnode => exact hset hnode hoff
  | error _ => exact absurd (hoff.symm.trans hon) nofun
  | lost _ hnode => exact hset hnode hoff

end Calls

/-! ## 3. The outline -/

/-- Nodes are stored by their names, and no version of the SelfNodeRemediation has
a deletion timestamp. -/
structure EvictionInv (w : Cluster) : Prop where
  named : ∀ name node, w.nodes name = some node → node.name = name
  live : w.snr.All fun snr => snr.deletionTimestamp = none

theorem evictionInv_exec {lagging : Bool} {c : Call} {w w' : Cluster} {r : Resp c}
    (h : EvictionInv w) (he : Exec lagging c w r w') : EvictionInv w' := by
  rcases he.change with rfl | hchange
  · exact h
  · cases hchange with
    | patchNode hnode => exact ⟨fun name => named_patchNode (h.named name) hnode, h.live⟩
    | updateSNR | updateSNRStatus | patchSNRStatus =>
      exact ⟨h.named, Store.all_putIfChanged h.live h.live.current⟩
    | logTimeAssumedRebooted | deleteAllOf | reboot => exact ⟨h.named, h.live⟩

theorem isBound_after {t : EvictionTarget} {w : EvictionWorld} {cluster : Cluster}
    {key : String × String} (h : key ∈ (w.after t cluster).bound) :
    isBound t.nodeName cluster key = true := by
  unfold EvictionWorld.after at h
  dsimp only at h
  split at h
  · obtain ⟨pod, hpod, rfl⟩ := List.mem_map.mp h
    obtain ⟨hmem, hcond⟩ := List.mem_filter.mp hpod
    refine List.any_eq_true.mpr ⟨pod, hmem, ?_⟩
    rw [BEq.rfl, Bool.true_and]
    exact (Bool.and_eq_true_iff.mp hcond).1
  · exact (List.mem_filter.mp h).2

/-- Unless the taint is added, no pod is bound anew. -/
theorem bound_after_nil {t : EvictionTarget} {w : EvictionWorld} {cluster : Cluster}
    (h : w.bound = [])
    (hon : isOutOfService t.nodeName cluster = true → isOutOfService t.nodeName w.cluster = true) :
    (w.after t cluster).bound = [] := by
  unfold EvictionWorld.after
  dsimp only
  split
  · next hadded =>
    obtain ⟨hnow, hbefore⟩ := Bool.and_eq_true_iff.mp hadded
    rw [hon hnow] at hbefore
    cases hbefore
  · rw [h]
    rfl

def evictionOutline (lagging : Bool) (t : EvictionTarget) : Outline Call Resp EvictionWorld where
  exec := EvictionExec lagging t (AllTerminating t)
  env := EvictionEnv t
  inv w := EvictionInv w.cluster ∧ ∀ key ∈ w.bound, isBound t.nodeName w.cluster key = true
  allowed c w := Withdraws t c w.cluster → w.bound = []
  inv_env {w w'} _ he := by
    refine ⟨⟨he.1.named, he.1.live⟩, fun key hkey => ?_⟩
    rw [he.2] at hkey
    exact isBound_after hkey
  inv_exec {c w r w'} h _ he := by
    refine ⟨evictionInv_exec h.1 he.exec, fun key hkey => ?_⟩
    rw [he.after] at hkey
    exact isBound_after hkey

section Eviction

variable {lagging : Bool} {t : EvictionTarget} {m : Mem} {w : EvictionWorld} {r : Reconciler}
  {node : Node}

theorem allowed_of_isNodePatch {c : Call} (h : c.isNodePatch = false) :
    (evictionOutline lagging t).allowed c w :=
  fun hwithdraws => absurd hwithdraws (not_withdraws_of_isNodePatch h)

/-- Lookups are no patches, and leave the cluster alone. -/
theorem eviction_reading (lagging : Bool) (t : EvictionTarget) {P : Cluster → Prop}
    (hP : (evictionOutline lagging t).Stable fun w => P w.cluster) :
    Reading (evictionOutline lagging t) AnyError fun w => P w.cluster where
  stable := hP
  values _ _ := trivial
  allowed {c _} hc _ _ := by
    refine allowed_of_isNodePatch ?_
    cases c with
    | patchNode _ _ => cases hc
    | _ => rfl
  answered {c w a w'} hc _ hw he := by
    have hread := Call.isRead_of_isPlainRead (Call.isPlainRead_of_isLookup hc)
    refine ⟨?_, fun _ _ => trivial⟩
    rw [he.exec.read hread]
    exact hw

theorem idle_reading (lagging : Bool) (t : EvictionTarget) (p : Prop) :
    Reading (evictionOutline lagging t) AnyError fun _ => p :=
  eviction_reading lagging t (P := fun _ => p) Outline.stable_const

/-- The copy of the node has the taint if the node has it. -/
def TaintSeen (t : EvictionTarget) (node : Node) (w : Cluster) : Prop :=
  node.name = t.nodeName → isOutOfService t.nodeName w = true →
    taintExists node.taints outOfServiceTaint = true

theorem stable_taintSeen (node : Node) :
    (evictionOutline lagging t).Stable fun w => TaintSeen t node w.cluster :=
  fun _ _ h ho hname hon => h hname (ho.1.untainted hon)

theorem seen_reading (lagging : Bool) (t : EvictionTarget) (node : Node) :
    Reading (evictionOutline lagging t) AnyError fun w => TaintSeen t node w.cluster :=
  eviction_reading lagging t (stable_taintSeen node)

/-- None of the pods is left, if the node is the one. -/
def Cleared (t : EvictionTarget) (node : Node) (w : EvictionWorld) : Prop :=
  node.name = t.nodeName → w.bound = []

theorem stable_cleared (node : Node) : (evictionOutline lagging t).Stable (Cleared t node) := by
  intro w w' h he hname
  rw [he.2]
  exact bound_after_nil (h hname) he.1.untainted

theorem cleared_read {node : Node} {c : Call} {r : Resp c} {w' : EvictionWorld}
    (h : Cleared t node w) (he : (evictionOutline lagging t).exec c w r w')
    (hc : c.isRead = true) : Cleared t node w' := by
  intro hname
  rw [EvictionExec.after he]
  refine bound_after_nil (h hname) ?_
  rw [he.exec.read hc]
  exact id

theorem Exec.listPods {w w' : Cluster} {r : Except GoErr (List Pod)} {pods : List Pod}
    (h : Exec lagging .listPods w r w') (hr : r = .ok pods) : pods = w.pods := by
  cases h with
  | served => exact (Except.ok.inj hr).symm
  | failed _ hf =>
    cases hf
    cases hr
  | lost _ hf =>
    cases hf
    cases hr

/-- A list of the pods without a terminating one. -/
theorem cleared_of_list {node : Node} (hi : (evictionOutline lagging t).inv w)
    (hall : AllTerminating t w)
    (hnone : ¬ (w.cluster.pods.any fun pod =>
      pod.nodeName == node.name && isPodTerminating pod) = true) : Cleared t node w := by
  intro hname
  refine List.eq_nil_iff_forall_not_mem.mpr fun key hkey => hnone ?_
  obtain ⟨pod, hpod, hmatch⟩ := List.any_eq_true.mp (hi.2 key hkey)
  obtain ⟨hpodKey, hnode⟩ := Bool.and_eq_true_iff.mp hmatch
  obtain rfl := beq_iff_eq.mp hpodKey
  have hterminating := hall pod hpod (beq_iff_eq.mp hnode) hkey
  refine List.any_eq_true.mpr ⟨pod, hpod, ?_⟩
  rw [hname, hnode, hterminating]
  rfl

/-! ## 4. The manager -/

theorem wp_getNodeFromSnr_seen :
    (evictionOutline lagging t).wp (getNodeFromSnr m)
      (Leaves (fun node w => TaintSeen t node w.cluster) (fun _ _ => True) m) w := by
  have hR := idle_reading lagging t True
  refine wp_getNodeFromSnr_leaves (fun _ => Outline.stable_const) (fun _ => hR) stable_taintSeen
    ((keeps_getNodeName hR trivial).leaves fun _ _ _ _ _ => trivial) ?_
  intro name answer w w' hi _ he
  refine ⟨fun node hanswer hnodeName hon => ?_, fun _ _ => trivial⟩
  have hnode := he.exec.getNode.1 node hanswer
  unfold isOutOfService at hon
  rw [he.exec.read rfl, ← hnodeName, hi.1.named name node hnode, hnode] at hon
  exact hon

/-- A taint is added to the node as it was read, so the taint stays. -/
theorem wp_addTaint_seen (taint : Taint) (hw : TaintSeen t node w.cluster) :
    (evictionOutline lagging t).wp (addTaint r taint node m)
      (Leaves (fun _ _ => True) (Failed AnyError (fun _ _ => True) m) m) w := by
  refine wp_addTaint_leaves (fun _ => Outline.stable_const) (seen_reading lagging t node)
    (fun _ => Outline.stable_const) (fun _ => trivial)
    (fun now => ⟨fun _ hw hwithdraws => ?_, fun _ _ _ => trivial,
      fun _ _ _ => ⟨trivial, trivial⟩⟩) hw
  refine absurd hwithdraws (not_withdraws_patchNode fun hname hon => ?_)
  have htaints := hw hname hon
  unfold withTaint
  rw [taintExists_append, htaints, Bool.true_or]

theorem wp_updateConditions_evicted {reason : ConditionReason}
    {processing succeeded : ConditionStatus}
    (hr : reason.statuses = some (processing, succeeded)) :
    (evictionOutline lagging t).wp (updateConditions reason m)
      (Ends AnyError fun _ _ => True) w :=
  wp_updateConditions_ends (idle_reading lagging t True) trivial hr fun _ _ _ _ _ _ => trivial

theorem wp_prepareReboot_seen (hw : TaintSeen t node w.cluster) :
    (evictionOutline lagging t).wp (prepareReboot r node m) (Ends AnyError fun _ _ => True) w := by
  refine wp_prepareReboot_ends (fun _ => Outline.stable_const) (G := fun _ _ => True)
    (Keeps.failed (keeps_isNodeRebootCapable (seen_reading lagging t node) node hw)
      fun _ _ _ => trivial) (fun _ _ => trivial) (fun _ _ _ => trivial) (fun _ _ _ _ => ?_)
    (fun _ _ _ hw => wp_addTaint_seen _ hw) fun _ node _ _ _ => ?_
  · exact wp_addFinalizer_ends (fun _ => Outline.stable_const) (fun _ => trivial)
      (P := fun _ => True) ⟨Outline.stable_const, fun _ _ => allowed_of_isNodePatch rfl,
        fun _ _ _ _ => ⟨trivial, fails_any⟩⟩ fun _ => trivial
  · exact Outline.wp_mono (wp_setTimeAssumedRebooted (idle_reading lagging t True) node
      (fun _ _ _ _ _ => allowed_of_isNodePatch rfl) (fun _ _ _ _ _ _ _ _ => trivial) trivial)
      fun _ _ _ _ => ⟨fun _ => trivial, fun _ _ => ⟨trivial, trivial⟩⟩

theorem wp_isResourceDeletionCompleted_cleared (node : Node) :
    (evictionOutline lagging t).wp (isResourceDeletionCompleted node m)
      (Leaves (fun completed w => completed = true → Cleared t node w) (fun _ _ => True) m) w := by
  have hend (res : Except GoErr Bool × Mem) : (evictionOutline lagging t).Stable (Leaves
      (fun completed w => completed = true → Cleared t node w) (fun _ _ => True) m res) :=
    stable_leaves (fun _ => Outline.stable_forall fun _ => stable_cleared node)
      (fun _ => Outline.stable_const) res
  refine Session.wp_call Outline.stable_const trivial (fun _ _ _ => allowed_of_isNodePatch rfl) ?_
  rintro w (e | pods) w' hi - he -
  · exact Session.wp_ret (hend (.ok false, m)) (leaves_ok nofun)
  · obtain rfl := he.exec.listPods rfl
    dsimp only
    split
    · exact Session.wp_ret (hend (.ok false, m)) (leaves_ok nofun)
    · next hnone =>
      have hcleared := cleared_read (cleared_of_list hi (he.guarded rfl) hnone) he rfl
      refine Session.wp_call (stable_cleared node) hcleared
        (fun _ _ _ => allowed_of_isNodePatch rfl) ?_
      rintro w (e | volumeAttachments) w' - hcleared he -
      · exact Session.wp_ret (hend (.ok false, m)) (leaves_ok nofun)
      · exact Session.wp_ret (hend (.ok _, m)) (leaves_ok fun _ => cleared_read hcleared he rfl)

theorem wp_removeTaint_cleared (r : Reconciler) (taint : Taint) {node : Node}
    (hw : Cleared t node w) :
    (evictionOutline lagging t).wp (removeTaint r taint node m)
      (Leaves (fun _ _ => True) (fun _ _ => True) m) w := by
  refine wp_removeTaint_leaves (stable_cleared node) (fun _ => Outline.stable_const)
    (fun _ => Outline.stable_const) (fun _ => trivial)
    (fun _ => ⟨fun _ hcleared hwithdraws => ?_, fun _ _ _ => trivial, fun _ _ _ => trivial⟩) hw
  by_contra hleft
  refine not_withdraws_patchNode ?_ hwithdraws
  exact fun hname => absurd (hcleared hname) hleft

/-- The copy has no deletion timestamp. -/
def CopyLive (m : Mem) : Prop := m.snr.value.deletionTimestamp = none

/-- The taint is removed when none of the pods is left, as the copy is not deleted. -/
theorem wp_useOutOfServiceTaint_evicted (hm : CopyLive m) (hw : TaintSeen t node w.cluster) :
    (evictionOutline lagging t).wp (useOutOfServiceTaint r node m)
      (Leaves (fun _ _ => True) (Failed AnyError (fun _ _ => True) m) m) w := by
  have hend {res : Except GoErr Duration} {w : EvictionWorld} :
      (evictionOutline lagging t).wp (Prog.ret (res, m))
        (Leaves (fun _ _ => True) (Failed AnyError (fun _ _ => True) m) m) w :=
    Session.wp_ret (stable_leaves (fun _ => Outline.stable_const) (fun _ => Outline.stable_const) _)
      ⟨rfl, fun _ _ => trivial, fun _ _ => ⟨trivial, trivial⟩⟩
  refine Leaves.wp_bind (wp_addTaint_seen outOfServiceTaint hw) (fun tainted w _ _ => ?_)
    fun _ _ _ _ => hend
  refine Leaves.wp_bind (wp_isResourceDeletionCompleted_cleared tainted) ?_ fun _ _ _ _ => hend
  rintro (_ | _) w - hcleared
  · refine Leaves.wp_bind (wp_isResourceDeletionExpired (idle_reading lagging t True) fails_any
      trivial) ?_ fun _ _ _ _ => hend
    rintro ⟨isExpired, timeLeft⟩ w - -
    refine wp_theSNR ?_
    rw [hm]
    cases isExpired with
    | false => exact hend
    | true => exact hend
  · exact Leaves.wp_bind (wp_removeTaint_cleared r _ (hcleared rfl)) (fun _ _ _ _ => hend)
      fun _ _ _ _ => hend

/-- The copy is not deleted, and the node was read with the taint if it has it. -/
def evictionStages (t : EvictionTarget) : Stages EvictionWorld where
  read m _ := CopyLive m
  checked m _ _ := CopyLive m
  begun m _ := CopyLive m
  missing _ _ _ := True
  found m node w := CopyLive m ∧ TaintSeen t node w.cluster
  chosen m node _ w := CopyLive m ∧ TaintSeen t node w.cluster
  ended _ _ := True

theorem eviction_walk (lagging : Bool) (t : EvictionTarget) (r : Reconciler) :
    Walk (evictionOutline lagging t) r AnyError (evictionStages t) where
  values _ _ := trivial
  stable _ := Outline.stable_const
  config {m _} hm := Keeps.failed
    (keeps_isConfigurationExist (idle_reading lagging t (CopyLive m)) hm) fun _ _ _ => trivial
  disabled _ _ := wp_disabledNoConfig_ends (idle_reading lagging t True) trivial
    (fun _ => Outline.stable_const) fun _ _ _ _ _ => trivial
  stopped _ _ hm := wp_stoppedByNHC_live (fun _ => Outline.stable_const) hm
    (wp_updateConditions_evicted rfl)
  start {m _} _ hm := wp_markStarted_ends (idle_reading lagging t (CopyLive m)) hm
    (fun _ => Outline.stable_const) (fun _ _ _ _ _ hm _ => hm) fun _ => hm
  target hm := Leaves.wp_mono wp_getNodeFromSnr_seen (fun _ _ _ hseen => ⟨hm, hseen⟩)
    fun _ _ _ _ => trivial
  absent _ _ := wp_nodeNotFound_ends (fun _ => Outline.stable_const)
    (fun _ => wp_updateConditions_evicted rfl) fun _ => trivial
  excluded _ _ := trivial
  strategy {m node _} h := Leaves.wp_mono (Keeps.failed
    (keeps_getRuntimeStrategy (seen_reading lagging t node) _ h.2) fun _ _ _ => trivial)
    (fun _ _ _ hseen => ⟨h.1, hseen⟩) fun _ _ _ h => h
  unhandled _ _ := trivial
  prepare _ _ h := wp_prepareReboot_seen h.2
  wait _ _ _ := wp_waitForNodeRebooted_ends (fun _ => Outline.stable_const)
    (Keeps.failed (keeps_wasNodeRebooted (idle_reading lagging t True) fails_any trivial)
      fun _ _ _ => trivial) (fun _ _ _ _ => trivial) fun _ _ _ _ => trivial
  delete {_ node _} _ _ _ := wp_handleRebootCompletedPhase_ends (fun _ => Outline.stable_const)
    (Keeps.failed (keeps_deleteResourcesWrapper
      ⟨idle_reading lagging t True, fun _ _ _ _ => ⟨trivial, fun _ _ => trivial⟩⟩ node trivial
      (fun _ _ _ => allowed_of_isNodePatch rfl) fun _ _ _ _ => allowed_of_isNodePatch rfl)
      fun _ _ _ => trivial)
    (fun _ _ _ _ => trivial) fun _ _ _ => wp_updateConditions_evicted rfl
  evict _ _ h := wp_handleRebootCompletedPhase_ends (fun _ => Outline.stable_const)
    (wp_useOutOfServiceTaint_evicted h.1 h.2)
    (fun _ _ _ _ => trivial) fun _ _ _ => wp_updateConditions_evicted rfl
  finish _ _ h := wp_handleFencingCompletedPhase_ends (fun _ => Outline.stable_const)
    (fun _ => trivial) fun hdel => by
      rw [h.1] at hdel
      cases hdel

/-- In the end only the status is written. -/
theorem eviction_closes (lagging : Bool) (t : EvictionTarget) (r : Reconciler) :
    Closes (evictionOutline lagging t) r (evictionStages t).ended where
  stable _ := Outline.stable_const
  update _ _ := allowed_of_isNodePatch rfl
  patch _ _ _ := allowed_of_isNodePatch rfl
  patched _ _ _ _ _ := trivial

theorem wp_reconcileManager_evicted (r : Reconciler) (w : EvictionWorld) :
    (evictionOutline lagging t).wp (reconcileManager r) (fun _ _ => True) w := by
  refine Outline.wp_mono ((eviction_walk lagging t r).reconcileManager
    (eviction_closes lagging t r) (Outline.stable_const (p := True)) trivial
    (fun _ _ _ => allowed_of_isNodePatch rfl) ?_) fun _ _ _ _ => trivial
  exact fun hi _ he _ => hi.1.live _ _ (Exec.getSNR he.exec rfl).1

end Eviction

/-! ## 5. Whole runs -/

/-- When the manager takes the taint off, none of the pods is left that did not
tolerate it and were on the node when it was added. -/
theorem evicted {lagging : Bool} {t : EvictionTarget} {r : Reconciler} {w₀ : EvictionWorld}
    {s : State Call Resp EvictionWorld Reconciled}
    (hlive : w₀.cluster.snr.All fun snr => snr.deletionTimestamp = none)
    (hnamed : ∀ name node, w₀.cluster.nodes name = some node → node.name = name)
    (hbound : ∀ key ∈ w₀.bound, isBound t.nodeName w₀.cluster key = true)
    (h : Reachable (EvictionExec lagging t (AllTerminating t)) (EvictionEnv t)
      (reconcileManager r) w₀ s)
    {c : Call} {k : Resp c → Prog Call Resp Reconciled} (hc : s.running = some (.call c k))
    (hwithdraws : Withdraws t c s.world.cluster) : s.world.bound = [] :=
  Outline.reachable_allowed (O := evictionOutline lagging t)
    (fun w _ => wp_reconcileManager_evicted r w) ⟨⟨hnamed, hlive⟩, hbound⟩ h hc hwithdraws

/-! ## 6. Small runs -/

/-- The world with the calls that nothing disturbs. -/
def serveEviction (t : EvictionTarget) (c : Call) (w : EvictionWorld) : Resp c × EvictionWorld :=
  ((serve c w.cluster).1, w.after t (serve c w.cluster).2)

instance (t : EvictionTarget) : DecidablePred (AllTerminating t) :=
  fun w => inferInstanceAs (Decidable (∀ pod ∈ w.cluster.pods, pod.nodeName = t.nodeName →
    podKey pod ∈ w.bound → isPodTerminating pod = true))

instance (t : EvictionTarget) (c : Call) (w : Cluster) : Decidable (Withdraws t c w) :=
  inferInstanceAs (Decidable (_ ∧ _))

/-- The list of the pods leaves it as it is which of them are left. -/
theorem serveEviction_exec {t : EvictionTarget} {c : Call} {w : EvictionWorld}
    (h : decide (AllTerminating t (serveEviction t c w).2) = true) :
    EvictionExec false t (AllTerminating t) c w (serveEviction t c w).1
      (serveEviction t c w).2 := by
  refine ⟨.served, rfl, ?_⟩
  rintro rfl pod hpod hnode hbound
  refine of_decide_eq_true h pod hpod hnode ?_
  show podKey pod ∈ (w.after t w.cluster).bound
  unfold EvictionWorld.after
  rw [Bool.and_not_self, if_neg Bool.false_ne_true]
  refine List.mem_filter.mpr ⟨hbound, List.any_eq_true.mpr ⟨pod, hpod, ?_⟩⟩
  rw [hnode, BEq.rfl, BEq.rfl]
  rfl

/-- The call that takes the taint off. -/
def Call.isTakingOff : Call → Bool
  | .patchNode base _ => taintExists base.taints outOfServiceTaint
  | _ => false

def appPod : Pod := ⟨"app-1", "default", "worker-1", [], [], none⟩

/-- The agents tolerate the taint. -/
def appEviction : EvictionTarget := ⟨"worker-1", isAgentPod⟩

/-- The node is assumed to have been rebooted, and is about to get the taint. -/
def outOfServiceCluster : Cluster :=
  { smallCluster with
    snr := ⟨{ smallSNR with
      finalizers := [snrFinalizer]
      remediationStrategy := .outOfServiceTaint
      status := ⟨some 1000400000000, some rebootCompletedPhase, "", []⟩ }, []⟩
    pods := [smallAgentPod, appPod] }

/-- The taint has been added, and the pod is terminating. -/
def evictingCluster : Cluster :=
  { outOfServiceCluster with
    nodes := fun name =>
      if name = "worker-1" then some { smallNode with taints := [outOfServiceTaint] } else none
    pods := [smallAgentPod, { appPod with deletionTimestamp := some 1000450000000 }] }

/-- The pod has been removed. -/
def evictedCluster : Cluster := { evictingCluster with pods := [smallAgentPod] }

/-- The pod is gone when the taint is taken off. -/
theorem evicted_small : ∃ s c k,
    Reachable (EvictionExec false appEviction (AllTerminating appEviction))
      (EvictionEnv appEviction) (reconcileManager smallManager)
      ⟨evictingCluster, [("default", "app-1")]⟩ s ∧
    s.running = some (.call c k) ∧ Withdraws appEviction c s.world.cluster ∧
    s.world.bound = [] := by
  have hstart : Reachable (EvictionExec false appEviction (AllTerminating appEviction))
      (EvictionEnv appEviction) (reconcileManager smallManager)
      ⟨evictingCluster, [("default", "app-1")]⟩
      ⟨⟨evictingCluster, [("default", "app-1")]⟩, none⟩ := .refl
  have hlive : evictingCluster.snr.All fun snr => snr.deletionTimestamp = none :=
    Store.all_new rfl
  have hnamed : ∀ name node, evictingCluster.nodes name = some node → node.name = name :=
    named_single { smallNode with taints := [outOfServiceTaint] }
  have hbound : ∀ key ∈ [("default", "app-1")],
      isBound "worker-1" evictingCluster key = true := by decide +kernel
  have hremoved : EvictionEnv appEviction ⟨evictingCluster, [("default", "app-1")]⟩
      (EvictionWorld.after appEviction ⟨evictingCluster, [("default", "app-1")]⟩
        evictedCluster) := ⟨⟨id, hnamed, hlive⟩, rfl⟩
  obtain ⟨c, k, w, -, hcheck, hrun⟩ := reachable_upTo
    (fun w => decide (AllTerminating appEviction w)) Call.isTakingOff
    (fun (c, w) => decide (Withdraws appEviction c w.cluster))
    (fun c w => serveEviction_exec (c := c) (w := w)) (by decide +kernel)
    (hstart.tail (.env hremoved))
  have hwithdraws : Withdraws appEviction c w.cluster := of_decide_eq_true hcheck
  have hcleared := evicted hlive hnamed hbound hrun rfl hwithdraws
  exact ⟨_, c, k, hrun, rfl, hwithdraws, hcleared⟩

/-- The taint is taken off in the reconcile that has added it, while the pod is
running. -/
theorem withdrawn_early :
    (∃ s c k, Reachable (EvictionExec false appEviction fun _ => True) (EvictionEnv appEviction)
      (reconcileManager smallManager) ⟨outOfServiceCluster, []⟩ s ∧
      s.running = some (.call c k) ∧ Withdraws appEviction c s.world.cluster ∧
      s.world.bound = [("default", "app-1")]) ∧
    ∃ w, Reachable (EvictionExec false appEviction fun _ => True) (EvictionEnv appEviction)
      (reconcileManager smallManager) ⟨outOfServiceCluster, []⟩ ⟨w, none⟩ ∧
      isOutOfService "worker-1" w.cluster = false ∧
      w.cluster.snr.current.status.phase = some fencingCompletedPhase ∧
      appPod ∈ w.cluster.pods := by
  have hserve (c : Call) (w : EvictionWorld) (_ : true = true) :
      EvictionExec false appEviction (fun _ => True) c w (serveEviction appEviction c w).1
        (serveEviction appEviction c w).2 := ⟨.served, rfl, fun _ => trivial⟩
  have hstart : Reachable (EvictionExec false appEviction fun _ => True)
      (EvictionEnv appEviction) (reconcileManager smallManager) ⟨outOfServiceCluster, []⟩
      ⟨⟨outOfServiceCluster, []⟩, none⟩ := .refl
  constructor
  · obtain ⟨c, k, w, -, hcheck, hrun⟩ := reachable_upTo (fun _ => true) Call.isTakingOff
      (fun (c, w) => decide (Withdraws appEviction c w.cluster ∧ w.bound = [("default", "app-1")]))
      hserve (by decide +kernel) hstart
    exact ⟨_, c, k, hrun, rfl, of_decide_eq_true hcheck⟩
  · have hrun := reachable_alone (fun _ => true) hserve (Prog.passes_true _ _) hstart
    exact ⟨_, hrun, by decide +kernel, by decide +kernel, by decide +kernel⟩

end SelfNodeRemediation
