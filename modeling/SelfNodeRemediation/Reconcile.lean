import SelfNodeRemediation.Lib.Session
import SelfNodeRemediation.Lib.Versioned
import SelfNodeRemediation.Calculator

/-!
# The SelfNodeRemediation reconciler

`reconcileManager` and `reconcileAgent` as programs over API calls. The copy of
the SelfNodeRemediation that a reconcile works on is its local memory: the
source passes a pointer to it everywhere, so an assignment survives an error
return, and the deferred status update at the end writes whatever the copy
holds then.

A Go error return is an error of the session. A nil pointer dereference is one
too, of its own kind: it skips the code that records errors in the status, but
not the deferred status update. Events and logs are left out, with one
exception: the log entry of the assumed reboot time is a call, because it is
where the time and the duration it was computed from are both in hand.

Besides the copy, the memory remembers the last phase and the last condition
reason the reconcile assigned to it.
-/

namespace SelfNodeRemediation

open Interaction Versioned

/-! ## 1. Constants -/

def snrFinalizer : String := "self-node-remediation.medik8s.io/snr-finalizer"

def nhcTimeOutAnnotation : String := "remediation.medik8s.io/nhc-timed-out"

def excludeRemediationLabel : String := "remediation.medik8s.io/exclude-from-remediation"

def nodeNameAnnotation : String := "remediation.medik8s.io/node-name"

def isRebootCapableAnnotation : String := "is-reboot-capable.self-node-remediation.medik8s.io"

def nodeNoScheduleTaint : Taint :=
  ⟨"remediation.medik8s.io/self-node-remediation", "", .noSchedule, none⟩

def outOfServiceTaint : Taint :=
  ⟨"node.kubernetes.io/out-of-service", "nodeshutdown", .noExecute, none⟩

/-- Time after which the out-of-service taint is automatically removed. -/
def outOfServiceTimeoutDuration : Duration := minute

def timeToAssumeRebootHasStarted : Duration := 30 * second

inductive ConditionReason
  | remediationStarted
  | remediationTimeoutByNHC
  | remediationFinishedSuccessfully
  | remediationSkippedNodeNotFound
  | snrDisabledNoConfig
deriving DecidableEq, Repr

def ConditionReason.toString : ConditionReason → String
  | .remediationStarted => "RemediationStarted"
  | .remediationTimeoutByNHC => "RemediationTimeoutByNHC"
  | .remediationFinishedSuccessfully => "RemediationFinishedSuccessfully"
  | .remediationSkippedNodeNotFound => "RemediationSkippedNodeNotFound"
  | .snrDisabledNoConfig => "ConfigurationNotFound"

inductive RemediationPhase
  | fencingStarted
  | preRebootCompleted
  | rebootCompleted
  | fencingCompleted
  | unknown
deriving DecidableEq, Repr

def preRebootCompletedPhase : String := "Pre-Reboot-Completed"

def rebootCompletedPhase : String := "Reboot-Completed"

def fencingCompletedPhase : String := "Fencing-Completed"

def getPhase (snr : SNR) : RemediationPhase :=
  match snr.status.phase with
  | none => .fencingStarted
  | some phase =>
    if phase = preRebootCompletedPhase then .preRebootCompleted
    else if phase = rebootCompletedPhase then .rebootCompleted
    else if phase = fencingCompletedPhase then .fencingCompleted
    else .unknown

theorem getPhase_started {snr : SNR} (h : snr.status.phase = none) :
    getPhase snr = .fencingStarted := by
  simp [getPhase, h]

theorem getPhase_preReboot {snr : SNR} (h : snr.status.phase = some preRebootCompletedPhase) :
    getPhase snr = .preRebootCompleted := by
  simp [getPhase, h]

theorem getPhase_reboot {snr : SNR} (h : snr.status.phase = some rebootCompletedPhase) :
    getPhase snr = .rebootCompleted := by
  simp [getPhase, h, rebootCompletedPhase, preRebootCompletedPhase]

theorem getPhase_fencing {snr : SNR} (h : snr.status.phase = some fencingCompletedPhase) :
    getPhase snr = .fencingCompleted := by
  simp [getPhase, h, rebootCompletedPhase, preRebootCompletedPhase, fencingCompletedPhase]

/-- The phase that is stored, read back. -/
theorem phase_of_getPhase (snr : SNR) :
    (getPhase snr = .fencingStarted → snr.status.phase = none) ∧
    (getPhase snr = .preRebootCompleted → snr.status.phase = some preRebootCompletedPhase) ∧
    (getPhase snr = .rebootCompleted → snr.status.phase = some rebootCompletedPhase) ∧
    (getPhase snr = .fencingCompleted → snr.status.phase = some fencingCompletedPhase) := by
  unfold getPhase
  cases snr.status.phase with
  | none => exact ⟨fun _ => rfl, nofun, nofun, nofun⟩
  | some phase =>
    dsimp only
    split
    · next h => exact ⟨nofun, fun _ => congrArg some h, nofun, nofun⟩
    · split
      · next h => exact ⟨nofun, nofun, fun _ => congrArg some h, nofun⟩
      · split
        · next h => exact ⟨nofun, nofun, nofun, fun _ => congrArg some h⟩
        · exact ⟨nofun, nofun, nofun, nofun⟩

theorem getPhase_congr {a b : SNR} (h : a.status.phase = b.status.phase) :
    getPhase a = getPhase b := by
  unfold getPhase
  rw [h]

/-! ## 2. Calls -/

/-- What the reconcilers call: the API server, the clock, the calculator's
configuration, and on the node itself `sysinfo` and the rebooter. A merge patch
is given by the object it was computed from and the changed object. -/
inductive Call
  | getSNR
  | getDeploymentNamespace
  | getConfig (ns : String)
  | getMachine (ns name : String)
  | getNode (name : String)
  | patchNode (base changed : Node)
  | updateSNR (snr : Revision SNR)
  | updateSNRStatus (snr : Revision SNR)
  | patchSNRStatus (base changed : SNR)
  | listAgentPods
  | listPods
  | listVolumeAttachments
  | listNamespaces
  | deleteAllOf (ns nodeName : String)
  | listWorkerNodes
  | calculatorConfig
  | isOutOfServiceTaintGA
  | now
  | logTimeAssumedRebooted (now : Time) (rebootDuration : Duration)
  | sysinfo
  | reboot

/-- Of the configuration the reconciler only reads the deletion timestamp. A
write is answered with the object as stored. `sysinfo` gives whole seconds. -/
abbrev Resp : Call → Type
  | .getSNR => Except GoErr (Revision SNR)
  | .getDeploymentNamespace => Except GoErr String
  | .getConfig _ => Except GoErr (Option Time)
  | .getMachine _ _ => Except GoErr Machine
  | .getNode _ => Except GoErr Node
  | .patchNode _ _ => Except GoErr Node
  | .updateSNR _ => Except GoErr (Revision SNR)
  | .updateSNRStatus _ => Except GoErr (Revision SNR)
  | .patchSNRStatus _ _ => Except GoErr (Revision SNR)
  | .listAgentPods => Except GoErr (List Pod)
  | .listPods => Except GoErr (List Pod)
  | .listVolumeAttachments => Except GoErr (List VolumeAttachment)
  | .listNamespaces => Except GoErr (List String)
  | .deleteAllOf _ _ => Except GoErr Unit
  | .listWorkerNodes => Except GoErr (List Node)
  | .calculatorConfig => Option SelfNodeRemediationConfigSpec
  | .isOutOfServiceTaintGA => Bool
  | .now => Time
  | .logTimeAssumedRebooted _ _ => Unit
  | .sysinfo => Except GoErr Int64
  | .reboot => Except GoErr Unit

/-! ## 3. The local copy -/

/-- How the answer to a write is decoded over the copy it was sent from: fields
absent from the answer keep their value (`overwrite`), or the copy is emptied
first (`zeroFirst`). Empty fields are absent from an encoded object. -/
inductive DecodeMode
  | overwrite
  | zeroFirst
deriving DecidableEq, Repr

/-- The reconciler's own fields, and how its client decodes. -/
structure Reconciler where
  myNodeName : String
  decode : DecodeMode

structure Mem where
  snr : Revision SNR
  phaseSet : Option String
  conditionsSet : Option ConditionReason

abbrev M (α : Type) : Type := Session Call Resp Mem GoErr α

abbrev call (c : Call) : M (Resp c) := Session.call c

def overlayList {α : Type} [DecidableEq α] (answer copy : List α) : List α :=
  if answer = [] then copy else answer

def overlayMap (answer copy : StringMap) : StringMap :=
  answer ++ copy.filter fun e => (answer.lookup e.1).isNone

def overlayStatus (answer copy : Status) : Status where
  timeAssumedRebooted := answer.timeAssumedRebooted.or copy.timeAssumedRebooted
  phase := answer.phase.or copy.phase
  lastError := if answer.lastError = "" then copy.lastError else answer.lastError
  conditions := overlayList answer.conditions copy.conditions

def DecodeMode.snr : DecodeMode → SNR → SNR → SNR
  | .zeroFirst, answer, _ => answer
  | .overwrite, answer, copy =>
    { answer with
      deletionTimestamp := answer.deletionTimestamp.or copy.deletionTimestamp
      annotations := overlayMap answer.annotations copy.annotations
      finalizers := overlayList answer.finalizers copy.finalizers
      ownerReferences := overlayList answer.ownerReferences copy.ownerReferences
      status := overlayStatus answer.status copy.status }

def DecodeMode.node : DecodeMode → Node → Node → Node
  | .zeroFirst, answer, _ => answer
  | .overwrite, answer, copy =>
    { answer with
      labels := overlayMap answer.labels copy.labels
      annotations := overlayMap answer.annotations copy.annotations
      taints := overlayList answer.taints copy.taints }

/-- An assignment to the copy. -/
def Mem.modify (m : Mem) (f : SNR → SNR) : Mem :=
  { m with snr := ⟨m.snr.resourceVersion, f m.snr.value⟩ }

def Mem.setStatus (m : Mem) (f : Status → Status) : Mem :=
  m.modify fun snr => { snr with status := f snr.status }

/-- The copy with other conditions, assigned for the given reason. -/
def Mem.withConditions (m : Mem) (conditions : List Condition)
    (reason : Option ConditionReason) : Mem :=
  { m.setStatus fun s => { s with conditions := conditions } with conditionsSet := reason }

/-- `snr.Status.Phase = &phase` -/
def Mem.setPhase (m : Mem) (phase : String) : Mem :=
  { m.setStatus fun s => { s with phase := some phase } with phaseSet := some phase }

/-- The answer to a write is decoded over the copy. -/
def Mem.decode (mode : DecodeMode) (answer : Revision SNR) (m : Mem) : Mem :=
  { m with snr := ⟨answer.resourceVersion, mode.snr answer.value m.snr.value⟩ }

def theSNR : M SNR := do
  let m ← Session.read
  return m.snr.value

/-! ## 4. The target node -/

def isOwnedByNHC (snr : SNR) : Bool :=
  snr.ownerReferences.any fun ownerRef => ownerRef.kind == "NodeHealthCheck"

def isOwnedByMachine (snr : SNR) : Option OwnerReference :=
  snr.ownerReferences.find? fun ownerRef => ownerRef.kind == "Machine"

def getNodeNameDirect (snr : SNR) : String :=
  (snr.annotations.lookup nodeNameAnnotation).getD snr.name

def getNodeNameFromMachine (ref : OwnerReference) (ns : String) : M String := do
  let machine ← Session.ofExcept (← call (.getMachine ns ref.name))
  match machine.nodeRef with
  | none => Session.fail (.new "nodeRef is nil")
  | some name => return name

/-- NHC has priority, then the Machine's node reference; annotation or name as
fallback. -/
def getNodeName : M String := do
  let snr ← theSNR
  if isOwnedByNHC snr then return getNodeNameDirect snr
  else
    match isOwnedByMachine snr with
    | some ref => getNodeNameFromMachine ref snr.namespace_
    | none => return getNodeNameDirect snr

section Names

variable {m : Mem} {ref : OwnerReference}

theorem getNodeName_nhc (h : isOwnedByNHC m.snr.value = true) :
    getNodeName m = .ret (.ok (getNodeNameDirect m.snr.value), m) := by
  show (if isOwnedByNHC m.snr.value then _ else _ : M String) m = _
  rw [if_pos h]
  rfl

theorem getNodeName_machine (h : isOwnedByNHC m.snr.value = false)
    (href : isOwnedByMachine m.snr.value = some ref) :
    getNodeName m = getNodeNameFromMachine ref m.snr.value.namespace_ m := by
  show (if isOwnedByNHC m.snr.value then _ else _ : M String) m = _
  rw [if_neg (Bool.eq_false_iff.mp h), href]

theorem getNodeName_direct (h : isOwnedByNHC m.snr.value = false)
    (href : isOwnedByMachine m.snr.value = none) :
    getNodeName m = .ret (.ok (getNodeNameDirect m.snr.value), m) := by
  show (if isOwnedByNHC m.snr.value then _ else _ : M String) m = _
  rw [if_neg (Bool.eq_false_iff.mp h), href]
  rfl

end Names

def isSNRMatching (nodeName machineName : String) : M Bool := do
  let snr ← theSNR
  if (isOwnedByMachine snr).any fun ref => machineName == ref.name then return true
  else
    let snrNodeName ← getNodeName
    return snrNodeName == nodeName

def getNodeFromSnr : M Node := do
  let nodeName ← getNodeName
  Session.ofExcept (← call (.getNode nodeName))

/-- `GetSelfNodeRemediationAgentPod` -/
def getSelfNodeRemediationAgentPod (nodeName : String) : M Pod := do
  let pods ← Session.ofExcept (← call .listAgentPods)
  match pods.find? fun pod => pod.nodeName == nodeName with
  | some pod => return pod
  | none =>
    Session.fail (.new "failed to find self node remediation pod matching the given node")

/-- The node has an agent pod, and the annotation says it can reboot. -/
def isNodeRebootCapable (node : Node) : M Bool := do
  match ← Session.attempt (getSelfNodeRemediationAgentPod node.name) with
  | .error _ => return false
  | .ok _ => return node.annotations.lookup isRebootCapableAnnotation == some "true"

/-! ## 5. Conditions -/

/-- `meta.SetStatusCondition` on the copy. -/
def setCondition (condition : Condition) : M Unit := do
  let now ← call .now
  Session.update fun m => m.setStatus fun s =>
    { s with conditions := setStatusCondition now condition s.conditions }

/-- The statuses of the Processing and Succeeded conditions for a reason. -/
def ConditionReason.statuses : ConditionReason → Option (ConditionStatus × ConditionStatus)
  | .remediationStarted => some (.true_, .unknown)
  | .remediationFinishedSuccessfully => some (.false_, .true_)
  | .remediationTimeoutByNHC => some (.false_, .false_)
  | .remediationSkippedNodeNotFound => some (.false_, .false_)
  | .snrDisabledNoConfig => none

/-- The conditions carry the reason, with its statuses. -/
def ConditionReason.Shown (reason : ConditionReason) (conditions : List Condition) : Prop :=
  ∃ processing succeeded, reason.statuses = some (processing, succeeded) ∧
    (∃ c, findStatusCondition conditions .processing = some c ∧
      c.status = processing ∧ c.reason = reason.toString) ∧
    ∃ c, findStatusCondition conditions .succeeded = some c ∧
      c.status = succeeded ∧ c.reason = reason.toString

def updateConditions (reason : ConditionReason) : M Unit := do
  let snr ← theSNR
  match reason.statuses with
  | none => Session.fail (.new ("unknown condition reason:" ++ reason.toString))
  | some (processing, succeeded) =>
    if isStatusConditionPresentAndEqual snr.status.conditions .processing processing
        && isStatusConditionPresentAndEqual snr.status.conditions .succeeded succeeded then
      return ()
    else
      setCondition ⟨.processing, processing, 0, reason.toString, ""⟩
      -- reason is mandatory, and reason for processing matches succeeded
      setCondition ⟨.succeeded, succeeded, 0, reason.toString, ""⟩
      Session.update fun m => { m with conditionsSet := some reason }

/-! ## 6. Taints -/

/-- `addNoScheduleTaint` and `addOutOfServiceTaint`; the changed node is
returned. -/
def addTaint (r : Reconciler) (taint : Taint) (node : Node) : M Node := do
  if taintExists node.taints taint then return node
  else
    let now ← call .now
    -- the patch has the time in whole seconds
    let changed : Node :=
      { node with taints := node.taints ++ [{ taint with timeAdded := some now.truncate }] }
    let answer ← Session.ofExcept (← call (.patchNode node changed))
    return r.decode.node answer changed

/-- `removeNoScheduleTaint` and `removeOutOfServiceTaint` -/
def removeTaint (r : Reconciler) (taint : Taint) (node : Node) : M Node := do
  if taintExists node.taints taint then
    match deleteTaint node.taints taint with
    | (_, false) => return node
    | (taints, true) =>
      let changed : Node := { node with taints := taints }
      let answer ← Session.ofExcept (← call (.patchNode node changed))
      return r.decode.node answer changed
  else return node

def addNoScheduleTaint (r : Reconciler) : Node → M Node := addTaint r nodeNoScheduleTaint

def removeNoScheduleTaint (r : Reconciler) : Node → M Node := removeTaint r nodeNoScheduleTaint

def addOutOfServiceTaint (r : Reconciler) : Node → M Node := addTaint r outOfServiceTaint

def removeOutOfServiceTaint (r : Reconciler) : Node → M Node := removeTaint r outOfServiceTaint

/-! ## 7. Times -/

/-- `Time.Sub`: a difference beyond the range of a duration is cut to it. -/
def Time.sub (t u : Time) : Duration :=
  if 2 ^ 63 - 1 < t - u then Int64.maxValue
  else if t - u < -2 ^ 63 then Int64.minValue
  else Int64.ofInt (t - u)

/-- `GetRebootDuration`, with the check that a configuration is set. -/
def calculateRebootDuration (node : Node) : M Duration := do
  match ← call .calculatorConfig with
  | none => Session.fail (.new
      "SelfNodeRemediationConfig not set yet, can't calculate minimum reboot duration")
  | some spec =>
    let nodes ← call .listWorkerNodes
    Session.ofExcept (getRebootDuration spec node nodes)

def setTimeAssumedRebooted (node : Node) : M Unit := do
  let snr ← theSNR
  if snr.status.timeAssumedRebooted.isSome then return ()
  else
    let rebootDuration ← calculateRebootDuration node
    let now ← call .now
    call (.logTimeAssumedRebooted now rebootDuration)
    Session.update fun m => m.setStatus fun s =>
      { s with timeAssumedRebooted := some (now + rebootDuration.toInt) }

/-- Whether the node is assumed to have been rebooted, and if not, the time
left. -/
def wasNodeRebooted : M (Bool × Duration) := do
  let snr ← theSNR
  let maxNodeRebootTime ← Session.ofExcept (deref snr.status.timeAssumedRebooted)
  let now ← call .now
  if now < maxNodeRebootTime then
    let later ← call .now
    return (false, Time.sub maxNodeRebootTime later + second)
  else return (true, 0)

def isResourceDeletionExpired : M (Bool × Duration) := do
  let snr ← theSNR
  let timeAssumedRebooted ← Session.ofExcept (deref snr.status.timeAssumedRebooted)
  let now ← call .now
  if now < timeAssumedRebooted + outOfServiceTimeoutDuration.toInt then
    return (false, 5 * second)
  else return (true, 0)

/-! ## 8. Resource removal -/

/-- The loop of `DeletePods` over the namespaces. -/
def deletePodsIn (nodeName : String) : List String → M Unit
  | [] => return ()
  | ns :: namespaces => do
    Session.ofExcept (← call (.deleteAllOf ns nodeName))
    deletePodsIn nodeName namespaces

def deletePods (nodeName : String) : M Unit := do
  let namespaces ← Session.ofExcept (← call .listNamespaces)
  deletePodsIn nodeName namespaces

def isPodTerminating (pod : Pod) : Bool := pod.deletionTimestamp.isSome

/-- A list that fails counts as not completed. -/
def isResourceDeletionCompleted (node : Node) : M Bool := do
  match ← call .listPods with
  | .error _ => return false
  | .ok pods =>
    if pods.any fun pod => pod.nodeName == node.name && isPodTerminating pod then return false
    else
      match ← call .listVolumeAttachments with
      | .error _ => return false
      | .ok volumeAttachments =>
        return !volumeAttachments.any fun va => va.nodeName == node.name

def deleteResourcesWrapper (node : Node) : M Duration := do
  deletePods node.name
  return 0

def useOutOfServiceTaint (r : Reconciler) (node : Node) : M Duration := do
  let node ← addOutOfServiceTaint r node
  if ← isResourceDeletionCompleted node then
    let _ ← removeOutOfServiceTaint r node
    return 0
  else
    let (isExpired, timeLeft) ← isResourceDeletionExpired
    let snr ← theSNR
    if !isExpired then return timeLeft
    else if snr.deletionTimestamp.isSome then
      -- time expired and node is healthy
      let _ ← removeOutOfServiceTaint r node
      return 0
    else Session.fail (.new "Not ready to delete out-of-service taint")

/-! ## 9. Finalizers -/

/-- `ctrl.Result` -/
structure Result where
  requeue : Bool
  requeueAfter : Duration
deriving DecidableEq, Repr

def Result.empty : Result := ⟨false, 0⟩

def removeFinalizer (r : Reconciler) : M Unit := do
  Session.update fun m => m.modify fun snr => removeFinalizerFrom snr snrFinalizer
  let m ← Session.read
  let answer ← Session.ofExcept (← call (.updateSNR m.snr))
  Session.update fun m => m.decode r.decode answer

def addFinalizer (r : Reconciler) : M Result := do
  let snr ← theSNR
  if snr.deletionTimestamp.isSome then
    -- snr is going to be deleted before we started any remediation action
    return .empty
  else
    Session.update fun m => m.modify fun snr => addFinalizerTo snr snrFinalizer
    let m ← Session.read
    match ← call (.updateSNR m.snr) with
    | .error e => if e.isConflict then return ⟨false, second⟩ else Session.fail e
    | .ok answer =>
      Session.update fun m => m.decode r.decode answer
      return ⟨true, 0⟩

/-! ## 10. Phases -/

def prepareReboot (r : Reconciler) (node : Node) : M Result := do
  if ← isNodeRebootCapable node then
    let snr ← theSNR
    if containsFinalizer snr snrFinalizer then
      let node ← addNoScheduleTaint r node
      setTimeAssumedRebooted node
      Session.update fun m => m.setPhase preRebootCompletedPhase
      return .empty
    else addFinalizer r
  else Session.fail (.new "Node is not capable to reboot itself")

def waitForNodeRebooted : M Result := do
  let (wasRebooted, timeLeft) ← wasNodeRebooted
  if !wasRebooted then return ⟨false, timeLeft⟩
  else
    Session.update fun m => m.setPhase rebootCompletedPhase
    return .empty

def handleRebootCompletedPhase (rmNodeResources : Node → M Duration) (node : Node) :
    M Result := do
  let waitTime ← rmNodeResources node
  if waitTime ≠ 0 then return ⟨false, waitTime⟩
  else
    Session.update fun m => m.setPhase fencingCompletedPhase
    updateConditions .remediationFinishedSuccessfully
    return .empty

def recoverNode (r : Reconciler) (node : Node) : M Result := do
  let _ ← removeNoScheduleTaint r node
  let snr ← theSNR
  if containsFinalizer snr snrFinalizer then
    removeFinalizer r
    return .empty
  else return .empty

def handleFencingCompletedPhase (r : Reconciler) (node : Node) : M Result := do
  let snr ← theSNR
  if snr.deletionTimestamp.isSome then recoverNode r node else return .empty

def remediateWithResourceRemoval (r : Reconciler) (rmNodeResources : Node → M Duration)
    (node : Node) : M Result := do
  let snr ← theSNR
  match getPhase snr with
  | .fencingStarted => prepareReboot r node
  | .preRebootCompleted => waitForNodeRebooted
  | .rebootCompleted => handleRebootCompletedPhase rmNodeResources node
  | .fencingCompleted => handleFencingCompletedPhase r node
  | .unknown => Session.fail (.new "unknown phase")

def remediateWithResourceDeletion (r : Reconciler) : Node → M Result :=
  remediateWithResourceRemoval r deleteResourcesWrapper

def remediateWithOutOfServiceTaint (r : Reconciler) : Node → M Result :=
  remediateWithResourceRemoval r (useOutOfServiceTaint r)

/-! ## 11. The manager -/

def isConfigurationExist : M Bool := do
  let ns ← Session.ofExcept (← call .getDeploymentNamespace)
  match ← call (.getConfig ns) with
  | .error e => if e.isNotFound then return false else Session.fail e
  | .ok deletionTimestamp => return deletionTimestamp.isNone

def isStoppedByNHC (snr : SNR) : Bool := (snr.annotations.lookup nhcTimeOutAnnotation).isSome

def getRuntimeStrategy (snr : SNR) : M RemediationStrategyType := do
  if snr.remediationStrategy = .automatic then
    if ← call .isOutOfServiceTaintGA then return .outOfServiceTaint
    else return .resourceDeletion
  else return snr.remediationStrategy

/-- The two kinds of return statements of `ReconcileManager`: with the result as
it is, or with an error, if any, that is first recorded by
`updateSnrStatusLastError`. -/
inductive Ending
  | plain (result : Result)
  | lastError (result : Result) (err : Option GoErr)

/-- The end of a phase handler. A panic goes on as a panic. -/
def handled (handler : M Result) : M Ending := do
  match ← Session.attempt handler with
  | .ok result => return .lastError result none
  | .error e =>
    if e.kind = .nilDereference then Session.fail e else return .lastError .empty (some e)

def disabledNoConfig : M Ending := do
  setCondition ⟨.disabled, .true_, 0, ConditionReason.snrDisabledNoConfig.toString,
    "SelfNodeRemediation is disabled because configuration does not exist"⟩
  return .plain .empty

def stoppedByNHC (r : Reconciler) : M Ending := do
  let snr ← theSNR
  if snr.deletionTimestamp.isSome then
    match ← Session.attempt getNodeFromSnr with
    | .ok node =>
      -- node found, clean up taints before removing the finalizer
      let node ← removeOutOfServiceTaint r node
      let result ← recoverNode r node
      return .plain result
    | .error e =>
      if e.isNotFound then
        removeFinalizer r
        return .plain .empty
      else Session.fail e
  else
    updateConditions .remediationTimeoutByNHC
    return .plain .empty

def markStarted : M Unit := do
  let snr ← theSNR
  if getPhase snr ≠ .fencingCompleted then updateConditions .remediationStarted
  else return ()

def nodeNotFound (e : GoErr) : M Ending := do
  if e.isNotFound then
    updateConditions .remediationSkippedNodeNotFound
    return .lastError .empty (some e)
  else return .lastError .empty (some e)

/-- An unsupported strategy is logged, but its error is assigned to a variable of
the branch only, so the reconcile ends without an error. -/
def remediateNode (r : Reconciler) (node : Node) : M Ending := do
  let snr ← theSNR
  if node.labels.lookup excludeRemediationLabel = some "true" then return .plain .empty
  else
    match ← getRuntimeStrategy snr with
    | .resourceDeletion => handled (remediateWithResourceDeletion r node)
    | .outOfServiceTaint => handled (remediateWithOutOfServiceTaint r node)
    | _ => return .lastError .empty none

def remediate (r : Reconciler) : M Ending := do
  markStarted
  match ← Session.attempt getNodeFromSnr with
  | .error e => nodeNotFound e
  | .ok node => remediateNode r node

/-- `ReconcileManager` between the read and its return. -/
def reconcileSteps (r : Reconciler) : M Ending := do
  if ← isConfigurationExist then
    let snr ← theSNR
    if isStoppedByNHC snr then stoppedByNHC r else remediate r
  else disabledNoConfig

/-! ## 12. Status writes -/

def lastErrorVal (err : Option GoErr) : String := err.elim "" GoErr.msg

/-- An `UnreconcilableError` is not returned, to not enter reconcile again. -/
def returnedErr : Option GoErr → Option GoErr
  | some e => if e.kind = .unreconcilable then none else some e
  | none => none

/-- The patch base is the copy as it is now, with whatever the handler has
assigned to it, so the patch is about `LastError` only; the answer to it is
decoded over the whole copy. -/
def updateSnrStatusLastError (r : Reconciler) (err : Option GoErr) : M (Option GoErr) := do
  let org ← Session.read
  if org.snr.value.status.lastError ≠ lastErrorVal err then
    Session.update fun m => m.setStatus fun s => { s with lastError := lastErrorVal err }
    let changed ← Session.read
    match ← call (.patchSNRStatus org.snr.value changed.snr.value) with
    | .error updateErr => return some updateErr
    | .ok answer =>
      Session.update fun m => m.decode r.decode answer
      return returnedErr err
  else return returnedErr err

/-- What a reconcile returns. -/
structure Return where
  result : Result
  err : Option GoErr
deriving DecidableEq

/-- The deferred function: the status update, and what becomes of its error. -/
def deferredUpdate (r : Reconciler) (ret : Return) : M Return := do
  let m ← Session.read
  match ← call (.updateSNRStatus m.snr) with
  | .ok answer =>
    Session.update fun m => m.decode r.decode answer
    return ret
  | .error updateErr =>
    if updateErr.isConflict then
      -- if requeue is already set choose the lowest one
      let minRequeue :=
        if 0 < ret.result.requeueAfter ∧ ret.result.requeueAfter < second then
          ret.result.requeueAfter
        else second
      return if ret.err.isNone then ⟨⟨ret.result.requeue, minRequeue⟩, none⟩ else ret
    else return ⟨ret.result, newAggregate [some updateErr, ret.err]⟩

/-- The return statements of `ReconcileManager`. -/
def reconcileReturn (r : Reconciler) : Except GoErr Ending → M Return
  | .error e => return ⟨.empty, some e⟩
  | .ok (.plain result) => return ⟨result, none⟩
  | .ok (.lastError result err) => do
    let err ← updateSnrStatusLastError r err
    return ⟨result, err⟩

/-- A panic goes on after the deferred function. -/
def repanic : Except GoErr Ending → Return → M Return
  | .error e, ret => if e.kind = .nilDereference then Session.fail e else return ret
  | .ok _, ret => return ret

/-- `ReconcileManager` after the read. -/
def reconcileRead (r : Reconciler) : M Return := do
  let ending ← Session.attempt (reconcileSteps r)
  let ret ← reconcileReturn r ending
  let ret ← deferredUpdate r ret
  repanic ending ret

/-- The end of a reconcile: what it returns, unless it panics, and its local
memory if it read a SelfNodeRemediation. -/
structure Reconciled where
  ret : Except GoErr Return
  mem : Option Mem

def reconcileManager (r : Reconciler) : Prog Call Resp Reconciled :=
  .call .getSNR fun answer =>
    match answer with
    | .error e =>
      .ret ⟨.ok ⟨.empty, if e.isNotFound then none else some e⟩, none⟩
    | .ok snr => do
      let (ret, m) ← reconcileRead r ⟨snr, none, none⟩
      .ret ⟨ret, some m⟩

/-! ## 13. The agent -/

def getLinuxUptime : M Duration := do
  let uptime ← Session.ofExcept (← call .sysinfo)
  return uptime * second

/-- The system uptime is less than the time since the SNR was created. -/
def didIRebootMyself : M Bool := do
  let uptime ← getLinuxUptime
  let snr ← theSNR
  let now ← call .now
  return uptime < Time.sub now snr.creationTimestamp

/-- The event before the reboot is recorded for the node: `GetReference` calls a
method of its embedded `TypeMeta`, which follows the pointer. -/
def rebootIfNeeded (node : Option Node) : M Result := do
  if ← didIRebootMyself then return .empty
  else
    let _ ← Session.ofExcept (deref node)
    Session.ofExcept (← call .reboot)
    return ⟨false, timeToAssumeRebootHasStarted⟩

/-- `ReconcileAgent` after the read: just care for reboot, everything else is
done by the manager. -/
def agentSteps (r : Reconciler) : M Result := do
  let snr ← theSNR
  if snr.deletionTimestamp.isSome then return .empty
  else if ← isSNRMatching r.myNodeName "" then
    match getPhase snr with
    | .preRebootCompleted =>
      let node ← Session.attempt getNodeFromSnr
      rebootIfNeeded node.toOption
    | _ => return .empty
  else return .empty

def reconcileAgent (r : Reconciler) : Prog Call Resp (Except GoErr Result) :=
  .call .getSNR fun answer =>
    match answer with
    | .error e => .ret (if e.isNotFound then .ok .empty else .error e)
    | .ok snr => do
      let (ret, _) ← agentSteps r ⟨snr, none, none⟩
      .ret ret

end SelfNodeRemediation
