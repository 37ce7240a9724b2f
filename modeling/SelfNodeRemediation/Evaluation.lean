import SelfNodeRemediation.Agent
import SelfNodeRemediation.PeerHealth
import SelfNodeRemediation.StatusWrites
import SelfNodeRemediation.TaintOutline

/-!
# What the functions of a reconcile return

The functions that `ReconcileManager` calls, in a cluster where every call succeeds:
what they return, and what they leave of the cluster.
-/

namespace SelfNodeRemediation

open Interaction Versioned

/-! ## 1. What they look at -/

/-- What `getNodeFromSnr` returns. -/
def targetNode (w : Cluster) (snr : SNR) : Except GoErr Node :=
  (targetName w snr).bind fun name => found nodeKind name (w.nodes name)

/-- The node has an agent pod. -/
def hasAgent (w : Cluster) (node : Node) : Bool :=
  (w.pods.filter isAgentPod).any fun pod => pod.nodeName == node.name

/-- No pod of the node is terminating, and it has no VolumeAttachment. -/
def resourcesGone (w : Cluster) (nodeName : String) : Bool :=
  !(w.pods.any fun pod => pod.nodeName == nodeName && isPodTerminating pod) &&
    !(w.volumeAttachments.any fun va => va.nodeName == nodeName)

/-- The node that is found is the one stored under its name. -/
theorem targetNode_ok_iff {w : Cluster} {snr : SNR} {node : Node}
    (hnamed : ∀ name node, w.nodes name = some node → node.name = name) :
    targetNode w snr = .ok node ↔
      targetName w snr = .ok node.name ∧ w.nodes node.name = some node := by
  unfold targetNode
  cases targetName w snr with
  | error e => exact ⟨nofun, fun h => absurd h.1 nofun⟩
  | ok name =>
    show found nodeKind name (w.nodes name) = _ ↔ _
    constructor
    · intro h
      cases hnode : w.nodes name with
      | none =>
        rw [hnode] at h
        cases h
      | some stored =>
        rw [hnode] at h
        cases h
        obtain rfl := hnamed name node hnode
        exact ⟨rfl, hnode⟩
    · rintro ⟨hname, hnode⟩
      cases hname
      rw [hnode]
      rfl
/-! ## 2. The reading functions -/

section Reads

variable {w : Cluster} {m : Mem}

theorem eval_isConfigurationExist {ns : String} {deletion : Option Time}
    (hns : w.deploymentNamespace = some ns) (hconfig : w.config ns = some deletion) :
    (isConfigurationExist m).eval serve w = ((.ok deletion.isNone, m), w) := by
  have hserve : serve .getDeploymentNamespace w = (.ok ns, w) := by simp only [serve, hns]
  have hget : serve (.getConfig ns) w = (.ok deletion, w) := by
    simp only [serve, hconfig]
    rfl
  unfold isConfigurationExist
  rw [Session.eval_call hserve, Session.eval_bind_ok rfl, Session.eval_call hget]
  rfl

theorem eval_getNodeName : (getNodeName m).eval serve w = ((targetName w m.snr.value, m), w) := by
  unfold targetName
  cases hnhc : isOwnedByNHC m.snr.value with
  | true =>
    rw [getNodeName_nhc hnhc]
    rfl
  | false =>
    cases href : isOwnedByMachine m.snr.value with
    | none =>
      rw [getNodeName_direct hnhc href]
      rfl
    | some ref =>
      rw [getNodeName_machine hnhc href, eval_getNodeNameFromMachine rfl]
      show ((Except.bind (found machineKind ref.name _) _, m), w) = _
      dsimp only
      cases w.machines m.snr.value.namespace_ ref.name with
      | none => rfl
      | some machine =>
        rcases machine with ⟨_ | nodeName⟩
        · rfl
        · rfl

theorem eval_getNodeFromSnr :
    (getNodeFromSnr m).eval serve w = ((targetNode w m.snr.value, m), w) := by
  unfold targetNode
  have hname := eval_getNodeName (w := w) (m := m)
  show ((getNodeName >>= fun nodeName => _ : M Node) m).eval serve w = _
  cases htarget : targetName w m.snr.value with
  | error e =>
    rw [htarget] at hname
    rw [Session.eval_bind_error hname]
    rfl
  | ok name =>
    rw [htarget] at hname
    rw [Session.eval_bind_ok hname]
    rfl

theorem eval_isNodeRebootCapable (node : Node) :
    (isNodeRebootCapable node m).eval serve w = ((.ok (hasAgent w node &&
      node.annotations.lookup isRebootCapableAnnotation == some "true"), m), w) := by
  unfold hasAgent
  have hlist : serve .listAgentPods w = (.ok (w.pods.filter isAgentPod), w) := rfl
  cases hfind : (w.pods.filter isAgentPod).find? fun pod => pod.nodeName == node.name with
  | none =>
    have hpod : (getSelfNodeRemediationAgentPod node.name m).eval serve w = ((.error (.new
        "failed to find self node remediation pod matching the given node"), m), w) := by
      unfold getSelfNodeRemediationAgentPod
      rw [Session.eval_call hlist, Session.eval_bind_ok rfl, hfind]
      rfl
    have hany : ((w.pods.filter isAgentPod).any fun pod => pod.nodeName == node.name) = false :=
      List.any_eq_false.mpr (List.find?_eq_none.mp hfind)
    rw [hany]
    exact Session.eval_attempt hpod
  | some pod =>
    have hpod : (getSelfNodeRemediationAgentPod node.name m).eval serve w =
        ((.ok pod, m), w) := by
      unfold getSelfNodeRemediationAgentPod
      rw [Session.eval_call hlist, Session.eval_bind_ok rfl, hfind]
      rfl
    have hany : ((w.pods.filter isAgentPod).any fun pod => pod.nodeName == node.name) = true :=
      List.any_eq_true.mpr ⟨pod, List.mem_of_find?_eq_some hfind,
        List.find?_some (p := fun pod : Pod => pod.nodeName == node.name) hfind⟩
    rw [hany]
    exact Session.eval_attempt hpod

theorem eval_isResourceDeletionCompleted (node : Node) :
    (isResourceDeletionCompleted node m).eval serve w =
      ((.ok (resourcesGone w node.name), m), w) := by
  unfold resourcesGone
  show ((if w.pods.any _ then pure false else _ : M Bool) m).eval serve w = _
  cases w.pods.any fun pod => pod.nodeName == node.name && isPodTerminating pod with
  | true => rfl
  | false => rfl

theorem eval_wasNodeRebooted_nil (h : m.snr.value.status.timeAssumedRebooted = none) :
    (wasNodeRebooted m).eval serve w = ((.error nilPointer, m), w) := by
  show ((Session.ofExcept (deref m.snr.value.status.timeAssumedRebooted) >>= fun t => _ :
    M (Bool × Duration)) m).eval serve w = _
  rw [h]
  rfl

theorem eval_wasNodeRebooted {t : Time} (h : m.snr.value.status.timeAssumedRebooted = some t) :
    (wasNodeRebooted m).eval serve w =
      ((.ok (if t ≤ w.now then (true, 0) else (false, Time.sub t w.now + second)), m), w) := by
  show ((Session.ofExcept (deref m.snr.value.status.timeAssumedRebooted) >>= fun t => _ :
    M (Bool × Duration)) m).eval serve w = _
  rw [h]
  show ((if w.now < t then _ else pure (true, 0) : M (Bool × Duration)) m).eval serve w = _
  by_cases hlt : w.now < t
  · rw [if_pos hlt, if_neg (Int.not_le.mpr hlt)]
    rfl
  · rw [if_neg hlt, if_pos (Int.not_lt.mp hlt)]
    rfl

theorem eval_isResourceDeletionExpired_nil
    (h : m.snr.value.status.timeAssumedRebooted = none) :
    (isResourceDeletionExpired m).eval serve w = ((.error nilPointer, m), w) := by
  show ((Session.ofExcept (deref m.snr.value.status.timeAssumedRebooted) >>= fun t => _ :
    M (Bool × Duration)) m).eval serve w = _
  rw [h]
  rfl

theorem eval_isResourceDeletionExpired {t : Time}
    (h : m.snr.value.status.timeAssumedRebooted = some t) :
    (isResourceDeletionExpired m).eval serve w =
      ((.ok (if t + outOfServiceTimeoutDuration.toInt ≤ w.now then (true, 0)
        else (false, 5 * second)), m), w) := by
  show ((Session.ofExcept (deref m.snr.value.status.timeAssumedRebooted) >>= fun t => _ :
    M (Bool × Duration)) m).eval serve w = _
  rw [h]
  show ((if w.now < t + outOfServiceTimeoutDuration.toInt then pure (false, 5 * second)
    else pure (true, 0) : M (Bool × Duration)) m).eval serve w = _
  by_cases hlt : w.now < t + outOfServiceTimeoutDuration.toInt
  · rw [if_pos hlt, if_neg (Int.not_le.mpr hlt)]
    rfl
  · rw [if_neg hlt, if_pos (Int.not_lt.mp hlt)]
    rfl
theorem eval_getRuntimeStrategy {snr : SNR}
    (h : snr.remediationStrategy = w.snr.current.remediationStrategy) :
    (getRuntimeStrategy snr m).eval serve w = ((.ok w.runtimeStrategy, m), w) := by
  unfold getRuntimeStrategy Cluster.runtimeStrategy
  rw [h]
  split
  · show ((if w.isOutOfServiceTaintGA then pure .outOfServiceTaint else pure .resourceDeletion :
      M RemediationStrategyType) m).eval serve w = _
    split
    · rfl
    · rfl
  · rfl
end Reads

/-! ## 3. The writing functions -/

section Writes

variable {w : Cluster} {m : Mem}

/-- Only the copy's assumed reboot time changes, and a log entry is made. -/
theorem eval_setTimeAssumedRebooted (node : Node)
    (h : m.snr.value.status.timeAssumedRebooted.isSome = true ∨ w.calculatorConfig.isSome = true) :
    ∃ t assumed, (setTimeAssumedRebooted node m).eval serve w =
      ((.ok (), m.setStatus fun s => { s with timeAssumedRebooted := t }),
        { w with assumed := assumed }) := by
  show ∃ t assumed, ((if m.snr.value.status.timeAssumedRebooted.isSome then pure () else _ :
    M Unit) m).eval serve w = _
  split
  · exact ⟨m.snr.value.status.timeAssumedRebooted, w.assumed, rfl⟩
  · next hnone =>
    obtain ⟨config, hconfig⟩ := Option.isSome_iff_exists.mp (h.resolve_left hnone)
    obtain ⟨nodes, hnodes⟩ : ∃ nodes, serve .listWorkerNodes w = (.ok nodes, w) := ⟨_, rfl⟩
    obtain ⟨-, duration, -, hduration, -⟩ := getRebootDuration_ok config.hasTimes node nodes
    have hcalculated : (calculateRebootDuration node m).eval serve w = ((.ok duration, m), w) := by
      show ((match w.calculatorConfig.map CalculatorConfig.spec with
        | none => _
        | some spec => call .listWorkerNodes >>= fun nodes =>
          Session.ofExcept (getRebootDuration spec node nodes) : M Duration) m).eval serve w = _
      rw [hconfig]
      show ((Session.ofExcept (getRebootDuration config.spec node (serve .listWorkerNodes w).1) :
        M Duration) m).eval serve (serve .listWorkerNodes w).2 = _
      rw [hnodes, hduration]
      rfl
    refine ⟨some (w.now + duration.toInt), ⟨w.now, duration⟩ :: w.assumed, ?_⟩
    exact (Session.eval_bind_ok hcalculated).trans rfl

theorem eval_setTimeAssumedRebooted_unset (node : Node)
    (ht : m.snr.value.status.timeAssumedRebooted.isSome = false)
    (hc : w.calculatorConfig.isSome = false) :
    (setTimeAssumedRebooted node m).eval serve w = ((.error (.new
      "SelfNodeRemediationConfig not set yet, can't calculate minimum reboot duration"), m),
      w) := by
  have hcalculated : (calculateRebootDuration node m).eval serve w = ((.error (.new
      "SelfNodeRemediationConfig not set yet, can't calculate minimum reboot duration"), m),
      w) := by
    show ((match w.calculatorConfig.map CalculatorConfig.spec with
      | none => Session.fail _
      | some spec => _ : M Duration) m).eval serve w = _
    rw [Option.isSome_eq_false_iff.mp hc |> Option.isNone_iff_eq_none.mp]
    rfl
  show ((if m.snr.value.status.timeAssumedRebooted.isSome then pure () else _ :
    M Unit) m).eval serve w = _
  rw [ht]
  exact Session.eval_bind_error hcalculated

/-- The pods of a node are deleted in each of the namespaces. -/
def podsDeleted (now : Time) (nodeName : String) (namespaces : List String) (pods : List Pod) :
    List Pod :=
  pods.filterMap fun pod =>
    if pod.namespace_ ∈ namespaces ∧ pod.nodeName = nodeName then deletedPod now pod else some pod

theorem podsDeleted_cons (now : Time) (nodeName ns : String) (namespaces : List String)
    (pods : List Pod) : podsDeleted now nodeName namespaces (podsDeleted now nodeName [ns] pods) =
      podsDeleted now nodeName (ns :: namespaces) pods := by
  unfold podsDeleted
  rw [List.filterMap_filterMap]
  congr 1
  funext pod
  by_cases hnode : pod.nodeName = nodeName
  · by_cases hns : pod.namespace_ = ns
    · -- the second deletion finds the pod removed, or terminating already
      by_cases hfin : pod.finalizers = []
      · simp [deletedPod, hnode, hns, hfin]
      · simp [deletedPod, hnode, hns, hfin]
    · simp [hnode, hns]
  · simp [hnode]

theorem eval_deletePodsIn (nodeName : String) (namespaces : List String) :
    (deletePodsIn nodeName namespaces m).eval serve w =
      ((.ok (), m), { w with pods := podsDeleted w.now nodeName namespaces w.pods }) := by
  induction namespaces generalizing w with
  | nil => simp [deletePodsIn, podsDeleted, List.filterMap_some]; rfl
  | cons ns namespaces ih =>
    have hone : (w.deleteAllOf ns nodeName).pods = podsDeleted w.now nodeName [ns] w.pods := by
      simp [Cluster.deleteAllOf, podsDeleted]
    refine (ih (w := w.deleteAllOf ns nodeName)).trans ?_
    rw [hone, show (w.deleteAllOf ns nodeName).now = w.now from rfl, podsDeleted_cons]
    rfl

theorem eval_deleteResourcesWrapper (node : Node) :
    (deleteResourcesWrapper node m).eval serve w =
      ((.ok 0, m), { w with pods := podsDeleted w.now node.name w.namespaces w.pods }) := by
  have hdelete : (deletePods node.name m).eval serve w = ((.ok (), m), _) :=
    eval_deletePodsIn node.name w.namespaces
  exact Session.eval_bind_ok hdelete
end Writes

end SelfNodeRemediation
