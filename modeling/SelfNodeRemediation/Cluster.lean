import SelfNodeRemediation.Reconcile

/-!
# The cluster the reconcilers run in

`Cluster` is everything a reconcile of one SelfNodeRemediation can read or
change: the API server's objects, the clock, the calculator's configuration and
the boot time of the target node. The SelfNodeRemediation is kept with all its
versions; it is `gone` once it is deleted and has no finalizers left.

* `serve` answers a call when nothing goes wrong.
* `Exec` adds what can go wrong: a call fails before or after it took effect,
  and a read of the SelfNodeRemediation is answered from a lagging cache.
* `Exec.world`: in every case the world is left as it was or as `serve` leaves
  it, so an invariant has to be checked against `serve` only.

The server's rules for the SelfNodeRemediation: `Update` and `Status().Update`
are refused unless the resourceVersion is current, `Update` ignores the status
and the server's own metadata, `Status().Update` takes the status only, a status
patch applies its difference whatever the version, and a write that changes
nothing makes no new version.
-/

namespace SelfNodeRemediation

open Interaction Versioned

/-! ## 1. State -/

/-- A configuration as the calculator holds it: the webhook admits none without
its times. -/
structure CalculatorConfig where
  spec : SelfNodeRemediationConfigSpec
  times : Times
  hasTimes : spec.HasTimes times

/-- What one `prepareReboot` computed the assumed reboot time from. -/
structure Assumption where
  time : Time
  rebootDuration : Duration
deriving DecidableEq

structure Cluster where
  now : Time
  snr : Store SNR
  gone : Bool
  nodeNames : List String
  nodes : String → Option Node
  machines : String → String → Option Machine
  /-- The deletion timestamp of the configuration in a namespace, if it exists. -/
  config : String → Option (Option Time)
  deploymentNamespace : Option String
  calculatorConfig : Option CalculatorConfig
  isOutOfServiceTaintGA : Bool
  pods : List Pod
  volumeAttachments : List VolumeAttachment
  namespaces : List String
  /-- The log entries of assumed reboot times. -/
  assumed : List Assumption
  bootTime : Time

/-! ## 2. Errors of the API server -/

/-! The cache names the kind of what it does not have, the API server the resource. -/

def nodeKind : String := "Node"

def machineKind : String := "Machine.machine.openshift.io"

def configKind : String := "SelfNodeRemediationConfig.self-node-remediation.medik8s.io"

def snrKind : String := "SelfNodeRemediation.self-node-remediation.medik8s.io"

def snrResource : String := "selfnoderemediations.self-node-remediation.medik8s.io"

def notFound (qualifiedResource name : String) : GoErr :=
  ⟨.notFound, qualifiedResource ++ " \"" ++ name ++ "\" not found"⟩

def conflict (name : String) : GoErr :=
  ⟨.conflict, "Operation cannot be fulfilled on " ++ snrResource ++ " \"" ++ name ++
    "\": the object has been modified; please apply your changes to the latest version and " ++
    "try again"⟩

def found {α : Type} (kind name : String) : Option α → Except GoErr α
  | some a => .ok a
  | none => .error (notFound kind name)

/-! ## 3. Writes -/

/-- The write goes through unless the object is gone or has another version. -/
def Cluster.locked (w : Cluster) (snr : Revision SNR) (write : Cluster) : Except GoErr Cluster :=
  if w.gone then .error (notFound snrResource snr.value.name)
  else if snr.resourceVersion ≠ w.snr.resourceVersion then .error (conflict snr.value.name)
  else .ok write

/-- What an `Update` stores: the server's own fields and the status stay. -/
def updated (stored sent : SNR) : SNR :=
  { sent with
    name := stored.name
    namespace_ := stored.namespace_
    creationTimestamp := stored.creationTimestamp
    deletionTimestamp := stored.deletionTimestamp
    status := stored.status }

/-- A deleted object without finalizers is removed. -/
def Cluster.store (w : Cluster) (snr : SNR) : Cluster :=
  { w with
    snr := w.snr.putIfChanged snr
    gone := w.gone || (snr.deletionTimestamp.isSome && snr.finalizers.isEmpty) }

def Cluster.updateSNR (w : Cluster) (snr : Revision SNR) : Except GoErr Cluster :=
  w.locked snr (w.store (updated w.snr.current snr.value))

def Cluster.storeStatus (w : Cluster) (status : Status) : Cluster :=
  { w with snr := w.snr.putIfChanged { w.snr.current with status := status } }

def Cluster.updateSNRStatus (w : Cluster) (snr : Revision SNR) : Except GoErr Cluster :=
  w.locked snr (w.storeStatus snr.value.status.serialize)

/-- The merge patch between two objects: a field that differs is set. -/
def merged (base changed stored : Status) : Status where
  timeAssumedRebooted :=
    if base.timeAssumedRebooted = changed.timeAssumedRebooted then stored.timeAssumedRebooted
    else changed.timeAssumedRebooted
  phase := if base.phase = changed.phase then stored.phase else changed.phase
  lastError := if base.lastError = changed.lastError then stored.lastError else changed.lastError
  conditions :=
    if base.conditions = changed.conditions then stored.conditions else changed.conditions

def Cluster.patchSNRStatus (w : Cluster) (base changed : SNR) : Except GoErr Cluster :=
  if w.gone then .error (notFound snrResource changed.name)
  else .ok (w.storeStatus
    (merged base.status.serialize changed.status.serialize w.snr.current.status))

/-- A merge patch sets the list of taints as a whole. -/
def patchedNode (base changed node : Node) : Node :=
  if base.taints = changed.taints then node else { node with taints := changed.taints }

def Cluster.setNode (w : Cluster) (name : String) (node : Node) : Cluster :=
  { w with nodes := Function.update w.nodes name (some node) }

def Cluster.patchNode (w : Cluster) (base changed : Node) : Except GoErr (Node × Cluster) :=
  match w.nodes changed.name with
  | none => .error (notFound "nodes" changed.name)
  | some node =>
    .ok (patchedNode base changed node,
      w.setNode changed.name (patchedNode base changed node))

/-- A pod that is deleted without a grace period is removed at once, unless it has
finalizers: then it is terminating from now on. -/
def deletedPod (now : Time) (pod : Pod) : Option Pod :=
  if pod.finalizers = [] then none
  else some { pod with deletionTimestamp := pod.deletionTimestamp.or (some now) }

def Cluster.deleteAllOf (w : Cluster) (ns nodeName : String) : Cluster :=
  { w with
    pods := w.pods.filterMap fun pod =>
      if pod.namespace_ = ns ∧ pod.nodeName = nodeName then deletedPod w.now pod
      else some pod }

/-! ## 4. Calls that succeed -/

/-- The labels of the agent pods. -/
def isAgentPod (pod : Pod) : Bool :=
  pod.labels.lookup "app.kubernetes.io/name" == some "self-node-remediation" &&
    pod.labels.lookup "app.kubernetes.io/component" == some "agent"

/-- A write of the SelfNodeRemediation is answered with the object as stored. -/
def Cluster.answer (w : Cluster) : Except GoErr Cluster → Except GoErr (Revision SNR) × Cluster
  | .ok w' => (.ok w'.snr.read, w')
  | .error e => (.error e, w)

/-- `sysinfo` counts a second that has begun. -/
def uptimeSeconds (now bootTime : Time) : Int64 := Int64.ofInt (-((bootTime - now) / 1000000000))

def serve : (c : Call) → Cluster → Resp c × Cluster
  | .getSNR, w =>
    (if w.gone then .error (notFound snrKind w.snr.current.name)
      else .ok w.snr.read, w)
  | .getDeploymentNamespace, w =>
    (match w.deploymentNamespace with
      | some ns => .ok ns
      | none => .error (.new "DEPLOYMENT_NAMESPACE must be set"), w)
  | .getConfig ns, w => (found configKind configCRName (w.config ns), w)
  | .getMachine ns name, w => (found machineKind name (w.machines ns name), w)
  | .getNode name, w => (found nodeKind name (w.nodes name), w)
  | .patchNode base changed, w =>
    match w.patchNode base changed with
    | .ok (node, w') => (.ok node, w')
    | .error e => (.error e, w)
  | .updateSNR snr, w => w.answer (w.updateSNR snr)
  | .updateSNRStatus snr, w => w.answer (w.updateSNRStatus snr)
  | .patchSNRStatus base changed, w => w.answer (w.patchSNRStatus base changed)
  | .listAgentPods, w => (.ok (w.pods.filter isAgentPod), w)
  | .listPods, w => (.ok w.pods, w)
  | .listVolumeAttachments, w => (.ok w.volumeAttachments, w)
  | .listNamespaces, w => (.ok w.namespaces, w)
  | .deleteAllOf ns nodeName, w => (.ok (), w.deleteAllOf ns nodeName)
  | .listWorkerNodes, w =>
    (.ok ((w.nodeNames.filterMap w.nodes).filter fun node =>
      (node.labels.lookup workerRole).isSome), w)
  | .calculatorConfig, w => (w.calculatorConfig.map CalculatorConfig.spec, w)
  | .isOutOfServiceTaintGA, w => (w.isOutOfServiceTaintGA, w)
  | .now, w => (w.now, w)
  | .logTimeAssumedRebooted now rebootDuration, w =>
    ((), { w with assumed := ⟨now, rebootDuration⟩ :: w.assumed })
  | .sysinfo, w => (.ok (uptimeSeconds w.now w.bootTime), w)
  | .reboot, w => (.ok (), { w with bootTime := w.now })

/-! ## 5. Calls that may fail -/

/-- The answer of a failed call; the other calls cannot fail. -/
def failure (e : GoErr) : (c : Call) → Option (Resp c)
  | .getSNR => some (.error e)
  | .getDeploymentNamespace => none
  | .getConfig _ => some (.error e)
  | .getMachine _ _ => some (.error e)
  | .getNode _ => some (.error e)
  | .patchNode _ _ => some (.error e)
  | .updateSNR _ => some (.error e)
  | .updateSNRStatus _ => some (.error e)
  | .patchSNRStatus _ _ => some (.error e)
  | .listAgentPods => some (.error e)
  | .listPods => some (.error e)
  | .listVolumeAttachments => some (.error e)
  | .listNamespaces => some (.error e)
  | .deleteAllOf _ _ => some (.error e)
  | .listWorkerNodes => some (.error e)
  | .calculatorConfig => none
  | .isOutOfServiceTaintGA => none
  | .now => none
  | .logTimeAssumedRebooted _ _ => none
  | .sysinfo => some (.error e)
  | .reboot => some (.error e)

/-- How a call can go. With `lagging`, reads of the SelfNodeRemediation may
return any version of it that was ever stored. -/
inductive Exec (lagging : Bool) : (c : Call) → Cluster → Resp c → Cluster → Prop
  | served {c : Call} {w : Cluster} : Exec lagging c w (serve c w).1 (serve c w).2
  | failed {c : Call} {w : Cluster} {e : GoErr} {r : Resp c} :
      e.kind = .other ∨ e.kind = .conflict → failure e c = some r → Exec lagging c w r w
  | lost {c : Call} {w : Cluster} {e : GoErr} {r : Resp c} :
      e.kind = .other ∨ e.kind = .conflict → failure e c = some r →
      Exec lagging c w r (serve c w).2
  | cached {w : Cluster} {n : Nat} {snr : SNR} :
      lagging = true → w.snr.version n = some snr → Exec lagging .getSNR w (.ok ⟨n, snr⟩) w

/-- What a call does to the world. -/
theorem Exec.world {lagging : Bool} {c : Call} {w w' : Cluster} {r : Resp c}
    (h : Exec lagging c w r w') : w' = w ∨ w' = (serve c w).2 := by
  cases h with
  | served => exact .inr rfl
  | failed _ _ => exact .inl rfl
  | lost _ _ => exact .inr rfl
  | cached _ _ => exact .inl rfl

/-! ## 6. What each call can do -/

/-- An error value, not a panic. -/
def GoErr.IsValue (e : GoErr) : Prop := e.kind ≠ .nilDereference

theorem isValue_of_failure {e : GoErr} (h : e.kind = .other ∨ e.kind = .conflict) : e.IsValue := by
  rcases h with h | h <;> exact fun hk => nomatch h.symm.trans hk

/-- The calls that change nothing. -/
def Call.isRead : Call → Bool
  | .patchNode _ _ | .updateSNR _ | .updateSNRStatus _ | .patchSNRStatus _ _ => false
  | .deleteAllOf _ _ | .logTimeAssumedRebooted _ _ | .reboot => false
  | _ => true

/-- The error in an answer, if there is one. -/
def errorIn {α : Type} : Except GoErr α → Option GoErr
  | .ok _ => none
  | .error e => some e

def errorOf : (c : Call) → Resp c → Option GoErr
  | .getSNR, r => errorIn r
  | .getDeploymentNamespace, r => errorIn r
  | .getConfig _, r => errorIn r
  | .getMachine _ _, r => errorIn r
  | .getNode _, r => errorIn r
  | .patchNode _ _, r => errorIn r
  | .updateSNR _, r => errorIn r
  | .updateSNRStatus _, r => errorIn r
  | .patchSNRStatus _ _, r => errorIn r
  | .listAgentPods, r => errorIn r
  | .listPods, r => errorIn r
  | .listVolumeAttachments, r => errorIn r
  | .listNamespaces, r => errorIn r
  | .deleteAllOf _ _, r => errorIn r
  | .listWorkerNodes, r => errorIn r
  | .calculatorConfig, _ => none
  | .isOutOfServiceTaintGA, _ => none
  | .now, _ => none
  | .logTimeAssumedRebooted _ _, _ => none
  | .sysinfo, r => errorIn r
  | .reboot, r => errorIn r

theorem errorOf_failure {c : Call} {e e' : GoErr} {r : Resp c} (hr : failure e c = some r)
    (h : errorOf c r = some e') : e' = e := by
  cases c <;> simp only [failure, Option.some.injEq, reduceCtorEq] at hr <;> subst hr <;>
    exact (Option.some.inj h).symm

theorem errorIn_found {α : Type} {kind name : String} {a : Option α} {e : GoErr}
    (h : errorIn (found kind name a) = some e) : e.IsValue := by
  cases a with
  | none =>
    cases h
    exact nofun
  | some a => cases h

/-- How a write of the SelfNodeRemediation can go: it is done, it fails, or it
is done and the answer is lost. `guard` is what it needs to be done. -/
inductive Write (guard : Prop) (w written : Cluster) :
    Except GoErr (Revision SNR) → Cluster → Prop
  | done : guard → Write guard w written (.ok written.snr.read) written
  | error {e : GoErr} : e.IsValue → Write guard w written (.error e) w
  | lost {e : GoErr} : e.IsValue → guard → Write guard w written (.error e) written

theorem Write.of_answer {guard : Prop} {w written : Cluster} {x : Except GoErr Cluster}
    (h : (guard ∧ x = .ok written) ∨ ∃ e, e.IsValue ∧ x = .error e) :
    Write guard w written (w.answer x).1 (w.answer x).2 := by
  rcases h with ⟨hg, rfl⟩ | ⟨e, he, rfl⟩
  · exact .done hg
  · exact .error he

theorem locked_cases (w write : Cluster) (snr : Revision SNR) :
    ((w.gone = false ∧ snr.resourceVersion = w.snr.resourceVersion) ∧
      w.locked snr write = .ok write) ∨
    ∃ e, e.IsValue ∧ w.locked snr write = .error e := by
  unfold Cluster.locked
  by_cases hg : w.gone = true
  · exact .inr ⟨notFound _ _, nofun, if_pos hg⟩
  · by_cases hv : snr.resourceVersion = w.snr.resourceVersion
    · refine .inl ⟨⟨Bool.not_eq_true _ ▸ hg, hv⟩, ?_⟩
      rw [if_neg hg, if_neg (not_not.mpr hv)]
    · exact .inr ⟨conflict _, nofun, by rw [if_neg hg, if_pos hv]⟩

theorem Write.lose {guard : Prop} {w written w' : Cluster} {r : Except GoErr (Revision SNR)}
    {e : GoErr} (h : Write guard w written r w') (he : e.IsValue) :
    Write guard w written (.error e) w' := by
  cases h with
  | done hg => exact .lost he hg
  | error _ => exact .error he
  | lost _ hg => exact .lost he hg

/-- The worlds a write of the SelfNodeRemediation can leave. -/
theorem Write.world {guard : Prop} {w written w' : Cluster} {r : Except GoErr (Revision SNR)}
    (h : Write guard w written r w') : w' = w ∨ (guard ∧ w' = written) := by
  cases h with
  | done hg => exact .inr ⟨hg, rfl⟩
  | error _ => exact .inl rfl
  | lost _ hg => exact .inr ⟨hg, rfl⟩

theorem Exec.updateSNR {lagging : Bool} {snr : Revision SNR} {w w' : Cluster}
    {r : Except GoErr (Revision SNR)} (h : Exec lagging (.updateSNR snr) w r w') :
    Write (w.gone = false ∧ snr.resourceVersion = w.snr.resourceVersion) w
      (w.store (updated w.snr.current snr.value)) r w' := by
  have hs := Write.of_answer (w := w) (locked_cases w
    (w.store (updated w.snr.current snr.value)) snr)
  cases h with
  | served => exact hs
  | failed hk hr => cases hr; exact .error (isValue_of_failure hk)
  | lost hk hr => cases hr; exact hs.lose (isValue_of_failure hk)

theorem Exec.updateSNRStatus {lagging : Bool} {snr : Revision SNR} {w w' : Cluster}
    {r : Except GoErr (Revision SNR)} (h : Exec lagging (.updateSNRStatus snr) w r w') :
    Write (w.gone = false ∧ snr.resourceVersion = w.snr.resourceVersion) w
      (w.storeStatus snr.value.status.serialize) r w' := by
  have hs := Write.of_answer (w := w) (locked_cases w
    (w.storeStatus snr.value.status.serialize) snr)
  cases h with
  | served => exact hs
  | failed hk hr => cases hr; exact .error (isValue_of_failure hk)
  | lost hk hr => cases hr; exact hs.lose (isValue_of_failure hk)

theorem Exec.patchSNRStatus {lagging : Bool} {base changed : SNR} {w w' : Cluster}
    {r : Except GoErr (Revision SNR)} (h : Exec lagging (.patchSNRStatus base changed) w r w') :
    Write (w.gone = false) w (w.storeStatus
      (merged base.status.serialize changed.status.serialize w.snr.current.status)) r w' := by
  have hs : Write (w.gone = false) w (w.storeStatus
      (merged base.status.serialize changed.status.serialize w.snr.current.status))
      (serve (.patchSNRStatus base changed) w).1 (serve (.patchSNRStatus base changed) w).2 := by
    refine Write.of_answer ?_
    unfold Cluster.patchSNRStatus
    by_cases hg : w.gone = true
    · exact .inr ⟨notFound _ _, nofun, if_pos hg⟩
    · exact .inl ⟨Bool.not_eq_true _ ▸ hg, if_neg hg⟩
  cases h with
  | served => exact hs
  | failed hk hr => cases hr; exact .error (isValue_of_failure hk)
  | lost hk hr => cases hr; exact hs.lose (isValue_of_failure hk)

/-- How a patch of a node can go. -/
inductive NodePatch (w : Cluster) (base changed : Node) : Except GoErr Node → Cluster → Prop
  | done {node : Node} : w.nodes changed.name = some node →
      NodePatch w base changed (.ok (patchedNode base changed node))
        (w.setNode changed.name (patchedNode base changed node))
  | error {e : GoErr} : e.IsValue → NodePatch w base changed (.error e) w
  | lost {e : GoErr} {node : Node} : e.IsValue → w.nodes changed.name = some node →
      NodePatch w base changed (.error e)
        (w.setNode changed.name (patchedNode base changed node))

theorem Exec.patchNode {lagging : Bool} {base changed : Node} {w w' : Cluster}
    {r : Except GoErr Node} (h : Exec lagging (.patchNode base changed) w r w') :
    NodePatch w base changed r w' := by
  cases hn : w.nodes changed.name with
  | none =>
    have hs : serve (.patchNode base changed) w = (.error (notFound "nodes" changed.name), w) := by
      simp only [serve, Cluster.patchNode, hn]
    cases h with
    | served => rw [hs]; exact .error nofun
    | failed hk hr => cases hr; exact .error (isValue_of_failure hk)
    | lost hk hr => cases hr; rw [hs]; exact .error (isValue_of_failure hk)
  | some node =>
    have hs : serve (.patchNode base changed) w = (.ok (patchedNode base changed node),
        w.setNode changed.name (patchedNode base changed node)) := by
      simp only [serve, Cluster.patchNode, hn]
    cases h with
    | served => rw [hs]; exact .done hn
    | failed hk hr => cases hr; exact .error (isValue_of_failure hk)
    | lost hk hr => cases hr; rw [hs]; exact .lost (isValue_of_failure hk) hn

/-! ## 7. Errors and reads -/

theorem Write.isValue {guard : Prop} {w written w' : Cluster} {r : Except GoErr (Revision SNR)}
    {e : GoErr} (h : Write guard w written r w') (he : errorIn r = some e) : e.IsValue := by
  cases h with
  | done _ => cases he
  | error hv => exact Option.some.inj he ▸ hv
  | lost hv _ => exact Option.some.inj he ▸ hv

theorem NodePatch.isValue {w w' : Cluster} {base changed : Node} {r : Except GoErr Node}
    {e : GoErr} (h : NodePatch w base changed r w') (he : errorIn r = some e) : e.IsValue := by
  cases h with
  | done _ => cases he
  | error hv => exact Option.some.inj he ▸ hv
  | lost hv _ => exact Option.some.inj he ▸ hv

theorem errorOf_serve {c : Call} {w : Cluster} {e : GoErr}
    (h : errorOf c (serve c w).1 = some e) : e.IsValue := by
  have hserved : Exec false c w (serve c w).1 (serve c w).2 := .served
  cases c with
  | getSNR =>
    simp only [serve, errorOf] at h
    split at h
    · cases h
      exact nofun
    · cases h
  | getDeploymentNamespace =>
    simp only [serve, errorOf] at h
    split at h
    · cases h
    · cases h
      exact nofun
  | getConfig ns => exact errorIn_found h
  | getMachine ns name => exact errorIn_found h
  | getNode name => exact errorIn_found h
  | updateSNR _ => exact hserved.updateSNR.isValue h
  | updateSNRStatus _ => exact hserved.updateSNRStatus.isValue h
  | patchSNRStatus _ _ => exact hserved.patchSNRStatus.isValue h
  | patchNode _ _ => exact hserved.patchNode.isValue h
  | _ => cases h

/-- An error in an answer is a value. -/
theorem Exec.isValue {lagging : Bool} {c : Call} {w w' : Cluster} {r : Resp c} {e : GoErr}
    (h : Exec lagging c w r w') (he : errorOf c r = some e) : e.IsValue := by
  cases h with
  | served => exact errorOf_serve he
  | failed hk hr => exact errorOf_failure hr he ▸ isValue_of_failure hk
  | lost hk hr => exact errorOf_failure hr he ▸ isValue_of_failure hk
  | cached _ _ => cases he

theorem serve_read {c : Call} {w : Cluster} (hc : c.isRead = true) : (serve c w).2 = w := by
  cases c <;> first | rfl | cases hc

/-- A read leaves the world alone. -/
theorem Exec.read {lagging : Bool} {c : Call} {w w' : Cluster} {r : Resp c}
    (h : Exec lagging c w r w') (hc : c.isRead = true) : w' = w := by
  rcases h.world with rfl | rfl
  · rfl
  · exact serve_read hc

/-- What the calls that change something leave when they go through. -/
inductive Change (w : Cluster) : Call → Cluster → Prop
  | updateSNR {sent : Revision SNR} : w.gone = false →
      sent.resourceVersion = w.snr.resourceVersion →
      Change w (.updateSNR sent) (w.store (updated w.snr.current sent.value))
  | updateSNRStatus {sent : Revision SNR} : w.gone = false →
      sent.resourceVersion = w.snr.resourceVersion →
      Change w (.updateSNRStatus sent) (w.storeStatus sent.value.status.serialize)
  | patchSNRStatus {base changed : SNR} : w.gone = false →
      Change w (.patchSNRStatus base changed) (w.storeStatus
        (merged base.status.serialize changed.status.serialize w.snr.current.status))
  | patchNode {base changed node : Node} : w.nodes changed.name = some node →
      Change w (.patchNode base changed)
        (w.setNode changed.name (patchedNode base changed node))
  | logTimeAssumedRebooted {now : Time} {rebootDuration : Duration} :
      Change w (.logTimeAssumedRebooted now rebootDuration)
        { w with assumed := ⟨now, rebootDuration⟩ :: w.assumed }
  | deleteAllOf {ns nodeName : String} :
      Change w (.deleteAllOf ns nodeName) (w.deleteAllOf ns nodeName)
  | reboot : Change w .reboot { w with bootTime := w.now }

/-- A call leaves the world alone or makes its change, whatever the answer is. -/
theorem Exec.change {lagging : Bool} {c : Call} {w w' : Cluster} {r : Resp c}
    (h : Exec lagging c w r w') : w' = w ∨ Change w c w' := by
  cases c with
  | updateSNR sent =>
    rcases h.updateSNR.world with rfl | ⟨⟨hlive, hv⟩, rfl⟩
    · exact .inl rfl
    · exact .inr (.updateSNR hlive hv)
  | updateSNRStatus sent =>
    rcases h.updateSNRStatus.world with rfl | ⟨⟨hlive, hv⟩, rfl⟩
    · exact .inl rfl
    · exact .inr (.updateSNRStatus hlive hv)
  | patchSNRStatus base changed =>
    rcases h.patchSNRStatus.world with rfl | ⟨hlive, rfl⟩
    · exact .inl rfl
    · exact .inr (.patchSNRStatus hlive)
  | patchNode base changed =>
    cases h.patchNode with
    | done hnode => exact .inr (.patchNode hnode)
    | error _ => exact .inl rfl
    | lost _ hnode => exact .inr (.patchNode hnode)
  | logTimeAssumedRebooted now d =>
    rcases h.world with rfl | rfl
    · exact .inl rfl
    · exact .inr .logTimeAssumedRebooted
  | deleteAllOf ns nodeName =>
    rcases h.world with rfl | rfl
    · exact .inl rfl
    · exact .inr .deleteAllOf
  | reboot =>
    rcases h.world with rfl | rfl
    · exact .inl rfl
    · exact .inr .reboot
  | _ => exact .inl (h.read rfl)

/-- No call takes a version back. -/
theorem Exec.extends {lagging : Bool} {c : Call} {w w' : Cluster} {r : Resp c}
    (h : Exec lagging c w r w') : w.snr.Extends w'.snr := by
  rcases h.change with rfl | hchange
  · exact .refl _
  · cases hchange with
    | updateSNR | updateSNRStatus | patchSNRStatus => exact Store.extends_putIfChanged _ _
    | patchNode | logTimeAssumedRebooted | deleteAllOf | reboot => exact .refl _

/-- What is read of the SelfNodeRemediation is a version of it, and the current
one unless the cache lags. -/
theorem Exec.getSNR {lagging : Bool} {w w' : Cluster} {r : Except GoErr (Revision SNR)}
    {snr : Revision SNR} (h : Exec lagging .getSNR w r w') (hr : r = .ok snr) :
    w.snr.version snr.resourceVersion = some snr.value ∧
      (lagging = false → w.gone = false ∧ snr = w.snr.read) := by
  cases h with
  | served =>
    simp only [serve] at hr
    split at hr
    · cases hr
    · next hg =>
      cases hr
      exact ⟨Store.version_resourceVersion, fun _ => ⟨Bool.not_eq_true _ ▸ hg, rfl⟩⟩
  | failed _ hf =>
    cases hf
    cases hr
  | lost _ hf =>
    cases hf
    cases hr
  | cached hl hv =>
    cases hr
    exact ⟨hv, fun hl' => nomatch hl.symm.trans hl'⟩

/-- What the answer to a `Get` says of the object. -/
def GetAnswer {α : Type} (stored : Option α) (r : Except GoErr α) : Prop :=
  (∀ a, r = .ok a → stored = some a) ∧ ∀ e, r = .error e → e.isNotFound = true → stored = none

theorem getAnswer_found {α : Type} (kind name : String) (stored : Option α) :
    GetAnswer stored (found kind name stored) := by
  cases stored with
  | none => exact ⟨nofun, fun _ _ _ => rfl⟩
  | some a => exact ⟨fun _ h => congrArg some (Except.ok.inj h), nofun⟩

theorem getAnswer_failed {α : Type} {stored : Option α} {e : GoErr}
    (h : e.kind = .other ∨ e.kind = .conflict) : GetAnswer stored (.error e) := by
  refine ⟨nofun, fun e' he hnot => ?_⟩
  obtain rfl := Except.error.inj he
  have hkind : e.kind = .notFound := beq_iff_eq.mp hnot
  rw [hkind] at h
  exact h.elim nofun nofun

theorem Exec.getNode {lagging : Bool} {name : String} {w w' : Cluster} {r : Except GoErr Node}
    (h : Exec lagging (.getNode name) w r w') : GetAnswer (w.nodes name) r := by
  cases h with
  | served => exact getAnswer_found _ _ _
  | failed hk hr => cases hr; exact getAnswer_failed hk
  | lost hk hr => cases hr; exact getAnswer_failed hk

theorem Exec.getMachine {lagging : Bool} {ns name : String} {w w' : Cluster}
    {r : Except GoErr Machine} (h : Exec lagging (.getMachine ns name) w r w') :
    GetAnswer (w.machines ns name) r := by
  cases h with
  | served => exact getAnswer_found _ _ _
  | failed hk hr => cases hr; exact getAnswer_failed hk
  | lost hk hr => cases hr; exact getAnswer_failed hk

theorem Exec.getConfig {lagging : Bool} {ns : String} {w w' : Cluster}
    {r : Except GoErr (Option Time)} (h : Exec lagging (.getConfig ns) w r w') :
    GetAnswer (w.config ns) r := by
  cases h with
  | served => exact getAnswer_found _ _ _
  | failed hk hr => cases hr; exact getAnswer_failed hk
  | lost hk hr => cases hr; exact getAnswer_failed hk

theorem Exec.getDeploymentNamespace {lagging : Bool} {w w' : Cluster} {r : Except GoErr String}
    {ns : String} (h : Exec lagging .getDeploymentNamespace w r w') (hr : r = .ok ns) :
    w.deploymentNamespace = some ns := by
  cases h with
  | served =>
    simp only [serve] at hr
    split at hr
    · next hns => exact hns.trans (congrArg some (Except.ok.inj hr))
    · cases hr
  | failed _ hf => cases hf
  | lost _ hf => cases hf

/-! ## 8. A small cluster -/

def defaultTimes : Times where
  peerApiServerTimeout := 5 * second
  apiServerTimeout := 5 * second
  peerDialTimeout := 5 * second
  peerRequestTimeout := 7 * second
  apiCheckInterval := 15 * second
  peerUpdateInterval := 15 * minute
  maxTimeForNoPeersResponse := some (30 * second)
  min_peerApiServerTimeout := by decide
  min_apiServerTimeout := by decide
  min_peerDialTimeout := by decide
  min_peerRequestTimeout := by decide
  min_apiCheckInterval := by decide
  min_peerUpdateInterval := by decide
  min_maxTimeForNoPeersResponse := by
    rintro _ ⟨⟩
    decide

def defaultCalculatorConfig : CalculatorConfig :=
  ⟨defaultSpec, defaultTimes, ⟨rfl, rfl, rfl, rfl, rfl, rfl, rfl⟩⟩

/-- A node that can reboot itself, and its agent pod. -/
def smallNode : Node := ⟨"worker-1", [], [Prod.mk isRebootCapableAnnotation "true"], []⟩

def smallAgentPod : Pod :=
  ⟨"agent-1", "snr", "worker-1",
    [("app.kubernetes.io/name", "self-node-remediation"), ("app.kubernetes.io/component", "agent")],
    [], none⟩

/-- A SelfNodeRemediation for the node, as it is created. -/
def smallSNR : SNR :=
  ⟨"worker-1", "snr", 1000000000000, none, [], [], [], .resourceDeletion, ⟨none, none, "", []⟩⟩

/-- One node that has been up since before the SelfNodeRemediation was created,
with the default configuration. -/
def smallCluster : Cluster where
  now := 1000500000000
  snr := ⟨smallSNR, []⟩
  gone := false
  nodeNames := ["worker-1"]
  nodes name := if name = "worker-1" then some smallNode else none
  machines _ _ := none
  config ns := if ns = "snr" then some none else none
  deploymentNamespace := some "snr"
  calculatorConfig := some defaultCalculatorConfig
  isOutOfServiceTaintGA := true
  pods := [smallAgentPod]
  volumeAttachments := []
  namespaces := ["snr"]
  assumed := []
  bootTime := 0

/-- The nodes of a cluster with one node are stored by their names. -/
theorem named_single (node : Node) (name : String) (stored : Node)
    (h : (if name = node.name then some node else none) = some stored) : stored.name = name := by
  split at h
  · next hname =>
    cases h
    exact hname.symm
  · cases h

def smallManager : Reconciler := ⟨"manager", .zeroFirst⟩

/-- A manager whose client lets fields of the answer overwrite those of the
copy. -/
def overwritingManager : Reconciler := ⟨"manager", .overwrite⟩

/-- One reconcile that nothing disturbs. -/
def reconcileAlone (w : Cluster) : Cluster := ((reconcileManager smallManager).eval serve w).2

/-- The cluster when the assumed reboot time has come. -/
def smallRebooted : Cluster :=
  { reconcileAlone (reconcileAlone smallCluster) with now := 2000000000000 }

/-- The cluster after a whole remediation. -/
def smallFenced : Cluster := reconcileAlone (reconcileAlone smallRebooted)

/-- A user, NHC or the garbage collector writes the SelfNodeRemediation. -/
def Cluster.edit (w : Cluster) (f : SNR → SNR) : Cluster :=
  { w with snr := w.snr.put (f w.snr.current) }

/-- The object is deleted; the finalizer keeps it. -/
def withDeletion (snr : SNR) : SNR := { snr with deletionTimestamp := some 2000000000000 }

/-- NHC stops the remediation. -/
def withTimeout (snr : SNR) : SNR :=
  { snr with annotations := Prod.mk nhcTimeOutAnnotation "" :: snr.annotations }

end SelfNodeRemediation
