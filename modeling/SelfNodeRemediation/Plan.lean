import SelfNodeRemediation.Evaluation
import SelfNodeRemediation.TaintPatches

/-!
# What a reconcile that nothing disturbs does

`Cluster.plan` is the abstract model of one `ReconcileManager` run in a cluster
where every call succeeds: the reasons it sets the conditions for, the edits of
the node's taints, whether the pods are deleted, the phase it assigns, whether the
finalizers change, the time it waits for, the text it records as `LastError`, and what
becomes of the request.

* `does_reconcileSteps`: the steps of a reconcile do what the plan says.
* `after_reconciled`: what is stored in the end.
-/

namespace SelfNodeRemediation

open Interaction Versioned

/-! ## 1. Conditions and taints -/

def disabledCondition : Condition :=
  ⟨.disabled, .true_, 0, ConditionReason.snrDisabledNoConfig.toString,
    "SelfNodeRemediation is disabled because configuration does not exist"⟩

/-- The conditions have the statuses of the reason. -/
def ConditionReason.present (reason : ConditionReason) (conditions : List Condition) : Bool :=
  match reason.statuses with
  | none => isStatusConditionPresentAndEqual conditions .disabled .true_
  | some (processing, succeeded) =>
    isStatusConditionPresentAndEqual conditions .processing processing &&
      isStatusConditionPresentAndEqual conditions .succeeded succeeded

/-- The conditions once they are set for the reason. -/
def ConditionReason.assigned (reason : ConditionReason) (now : Time)
    (conditions : List Condition) : List Condition :=
  match reason.statuses with
  | none => setStatusCondition now disabledCondition conditions
  | some (processing, succeeded) =>
    if reason.present conditions then conditions
    else setStatusCondition now ⟨.succeeded, succeeded, 0, reason.toString, ""⟩
      (setStatusCondition now ⟨.processing, processing, 0, reason.toString, ""⟩ conditions)

def assignAll (reasons : List ConditionReason) (now : Time) (conditions : List Condition) :
    List Condition :=
  reasons.foldl (fun conditions reason => reason.assigned now conditions) conditions

/-- The node with its taints edited. -/
def Node.edited (node : Node) (now : Time) (edits : List TaintEdit) : Node :=
  { node with taints := edits.foldl (fun taints edit => edit.applied now taints) node.taints }

/-! ## 2. Plans -/

/-- What becomes of a request after its reconcile. -/
inductive Requeue
  | forget
  | rateLimited
  | after (wait : Duration)
deriving DecidableEq, Repr

def Result.requeued (result : Result) : Requeue :=
  if 0 < result.requeueAfter then .after result.requeueAfter
  else if result.requeue then .rateLimited
  else .forget

structure Plan where
  reasons : List ConditionReason
  edits : List TaintEdit
  deletesPods : Bool
  phase : Option String
  finalizes : Bool
  wait : Option Time
  /-- Without it the return does not touch `LastError`. -/
  recorded : Option String
  /-- By the time of the reconcile. Of a plan that changes the finalizers it says nothing. -/
  requeue : Time → Requeue

namespace Plan

/-- The phase stays. -/
def stay (edits : List TaintEdit) (recorded : Option String) (requeue : Requeue) : Plan :=
  ⟨[], edits, false, none, false, none, recorded, fun _ => requeue⟩

/-- The phase stays until the time comes. -/
def hold (edits : List TaintEdit) (t : Time) (requeue : Time → Requeue) : Plan :=
  { stay edits (some "") .forget with
    wait := some t
    requeue := requeue }

def advance (edits : List TaintEdit) (phase : String) : Plan :=
  { stay edits (some "") .forget with phase := some phase }

theorem requeue_hold (edits : List TaintEdit) (t : Time) (requeue : Time → Requeue) (now : Time) :
    (hold edits t requeue).requeue now = requeue now := rfl

/-- The resources are removed. -/
def complete (edits : List TaintEdit) (deletesPods : Bool) : Plan :=
  { advance edits fencingCompletedPhase with
    reasons := [.remediationFinishedSuccessfully]
    deletesPods := deletesPods }

/-- A finalizer is added or removed. -/
def finalize : Plan := { stay [] none .forget with finalizes := true }

/-- The conditions are first set for other reasons. -/
def after (reasons : List ConditionReason) (plan : Plan) : Plan :=
  { plan with reasons := reasons ++ plan.reasons }

end Plan

section Plans

variable (w : Cluster)

def isRebootCapable (node : Node) : Bool :=
  hasAgent w node && node.annotations.lookup isRebootCapableAnnotation == some "true"

def prepareRebootPlan (node : Node) : Plan :=
  if isRebootCapable w node then
    if containsFinalizer w.snr.current snrFinalizer then
      if w.snr.current.status.timeAssumedRebooted.isSome || w.calculatorConfig.isSome then
        .advance [.addNoScheduleTaint] preRebootCompletedPhase
      else .stay [.addNoScheduleTaint] (some
        "SelfNodeRemediationConfig not set yet, can't calculate minimum reboot duration")
        .rateLimited
    else if w.snr.current.deletionTimestamp.isSome then .stay [] (some "") .forget
    else .finalize
  else .stay [] (some "Node is not capable to reboot itself") .rateLimited

/-- A missing time is a nil pointer, and a panic. Otherwise the wait is up to the time, and
a second more. -/
def waitForNodeRebootedPlan : Plan :=
  match w.snr.current.status.timeAssumedRebooted with
  | none => .stay [] none .rateLimited
  | some t =>
    if t ≤ w.now then .advance [] rebootCompletedPhase
    else .hold [] t fun now => Result.requeued ⟨false, Time.sub t now + second⟩

def useOutOfServiceTaintPlan (node : Node) : Plan :=
  if resourcesGone w node.name then
    .complete [.addOutOfServiceTaint, .removeOutOfServiceTaint] false
  else
    match w.snr.current.status.timeAssumedRebooted with
    | none => .stay [.addOutOfServiceTaint] none .rateLimited
    | some t =>
      if t + outOfServiceTimeoutDuration.toInt ≤ w.now then
        if w.snr.current.deletionTimestamp.isSome then
          .complete [.addOutOfServiceTaint, .removeOutOfServiceTaint] false
        else .stay [.addOutOfServiceTaint] (some "Not ready to delete out-of-service taint")
          .rateLimited
      else .hold [.addOutOfServiceTaint] (t + outOfServiceTimeoutDuration.toInt)
        fun _ => .after (5 * second)

/-- The edits of a cleanup, unless the finalizer is removed too. -/
def recoverNodePlan (edits : List TaintEdit) (recorded : Option String) : Plan :=
  if containsFinalizer w.snr.current snrFinalizer then .finalize else .stay edits recorded .forget

def phasePlan (node : Node) (removal : Plan) : Plan :=
  match getPhase w.snr.current with
  | .fencingStarted => prepareRebootPlan w node
  | .preRebootCompleted => waitForNodeRebootedPlan w
  | .rebootCompleted => removal
  | .fencingCompleted =>
    if w.snr.current.deletionTimestamp.isSome then
      recoverNodePlan w [.removeNoScheduleTaint] (some "")
    else .stay [] (some "") .forget
  | .unknown => .stay [] (some "unknown phase") .rateLimited

def remediateNodePlan (node : Node) : Plan :=
  if node.labels.lookup excludeRemediationLabel = some "true" then .stay [] none .forget
  else
    match w.runtimeStrategy with
    | .resourceDeletion => phasePlan w node (.complete [] true)
    | .outOfServiceTaint => phasePlan w node (useOutOfServiceTaintPlan w node)
    | _ => .stay [] (some "") .forget

/-- The reasons of `markStarted`. -/
def startReasons : List ConditionReason :=
  if getPhase w.snr.current ≠ .fencingCompleted then [.remediationStarted] else []

def remediatePlan : Plan :=
  match targetNode w w.snr.current with
  | .ok node => (remediateNodePlan w node).after (startReasons w)
  | .error e =>
    { Plan.stay [] (some e.msg) .rateLimited with
      reasons := startReasons w ++ if e.isNotFound then [.remediationSkippedNodeNotFound] else [] }

def stoppedByNHCPlan : Plan :=
  if w.snr.current.deletionTimestamp.isSome then
    match targetNode w w.snr.current with
    | .ok _ => recoverNodePlan w [.removeOutOfServiceTaint, .removeNoScheduleTaint] none
    | .error e => if e.isNotFound then recoverNodePlan w [] none else .stay [] none .rateLimited
  else { Plan.stay [] none .forget with reasons := [.remediationTimeoutByNHC] }

/-- The configuration is there and not being deleted. -/
def configured : Bool := w.deploymentNamespace.any fun ns => w.config ns = some none

def Cluster.plan : Plan :=
  if w.deploymentNamespace.isNone then .stay [] none .rateLimited
  else if configured w then
    if isStoppedByNHC w.snr.current then stoppedByNHCPlan w else remediatePlan w
  else { Plan.stay [] none .forget with reasons := [.snrDisabledNoConfig] }

end Plans

theorem deploymentNamespace_of_configured {w : Cluster} (h : configured w = true) :
    w.deploymentNamespace.isNone = false := by
  unfold configured at h
  cases hns : w.deploymentNamespace with
  | none =>
    rw [hns] at h
    cases h
  | some ns => rfl

/-- The remediation is neither disabled nor stopped, and its node is there. -/
structure Cluster.Running (w : Cluster) (node : Node) : Prop where
  configured : configured w = true
  running : isStoppedByNHC w.snr.current = false
  target : targetNode w w.snr.current = .ok node

theorem Cluster.Running.plan {w : Cluster} {node : Node} (h : w.Running node) :
    w.plan = (remediateNodePlan w node).after (startReasons w) := by
  unfold Cluster.plan remediatePlan
  rw [deploymentNamespace_of_configured h.configured, h.configured, h.running, h.target]
  rfl

/-! ## 3. Exact evaluations -/

theorem overlayList_self {α : Type} [DecidableEq α] (l : List α) : overlayList l l = l := by
  unfold overlayList
  split <;> rfl

theorem overlayMap_self (map : StringMap) : overlayMap map map = map := by
  have hfilter : (map.filter fun e => (map.lookup e.1).isNone) = [] := by
    refine List.filter_eq_nil_iff.mpr fun e he hnone => ?_
    have hlookup := Option.isNone_iff_eq_none.mp hnone
    rw [List.lookup_eq_none_iff] at hlookup
    exact absurd (beq_self_eq_true e.1) (by simpa using hlookup e he)
  unfold overlayMap
  rw [hfilter, List.append_nil]

theorem decode_node_self (mode : DecodeMode) (node : Node) : mode.node node node = node := by
  cases mode with
  | zeroFirst => rfl
  | overwrite =>
    show ({ node with
      labels := overlayMap node.labels node.labels
      annotations := overlayMap node.annotations node.annotations
      taints := overlayList node.taints node.taints } : Node) = node
    rw [overlayMap_self, overlayMap_self, overlayList_self]

theorem decode_status_self (mode : DecodeMode) (s : Status) : mode.status s s = s := by
  cases mode with
  | zeroFirst => rfl
  | overwrite =>
    show overlayStatus s s = s
    unfold overlayStatus
    rw [Option.or_self, Option.or_self, overlayList_self, ite_self]

section Evaluations

variable {r : Reconciler} {w : Cluster} {m : Mem} {node : Node}

/-- The conditions of the copy are set, and nothing else happens. -/
theorem eval_updateConditions (reason : ConditionReason) {processing succeeded : ConditionStatus}
    (hr : reason.statuses = some (processing, succeeded)) :
    ∃ m', (updateConditions reason m).eval serve w = ((.ok (), m'), w) ∧
      m'.snr = (m.setStatus fun s =>
        { s with conditions := reason.assigned w.now s.conditions }).snr := by
  have hassigned (cs : List Condition) : reason.assigned w.now cs =
      if reason.present cs then cs
      else setStatusCondition w.now ⟨.succeeded, succeeded, 0, reason.toString, ""⟩
        (setStatusCondition w.now ⟨.processing, processing, 0, reason.toString, ""⟩ cs) := by
    unfold ConditionReason.assigned
    rw [hr]
  have hpresent (cs : List Condition) : reason.present cs =
      (isStatusConditionPresentAndEqual cs .processing processing &&
        isStatusConditionPresentAndEqual cs .succeeded succeeded) := by
    unfold ConditionReason.present
    rw [hr]
  simp only [hassigned, hpresent]
  unfold updateConditions
  rw [hr]
  show ∃ m', ((if isStatusConditionPresentAndEqual m.snr.value.status.conditions .processing
      processing && isStatusConditionPresentAndEqual m.snr.value.status.conditions .succeeded
      succeeded then pure () else _ : M Unit) m).eval serve w = _ ∧ _
  split
  · next h => exact ⟨m, rfl, by simp only [Mem.setStatus, Mem.modify, h, if_true]⟩
  · next h =>
    refine ⟨_, rfl, ?_⟩
    simp only [Mem.setStatus, Mem.modify, serve, h, if_false, Bool.false_eq_true]

theorem eval_isConfigurationExist_missing {ns : String} (hns : w.deploymentNamespace = some ns)
    (hconfig : w.config ns = none) :
    (isConfigurationExist m).eval serve w = ((.ok false, m), w) := by
  have hserve : serve .getDeploymentNamespace w = (.ok ns, w) := by simp only [serve, hns]
  have hget : serve (.getConfig ns) w =
      (.error (notFound configKind configCRName), w) := by
    simp only [serve, hconfig]
    rfl
  unfold isConfigurationExist
  rw [Session.eval_call hserve, Session.eval_bind_ok rfl, Session.eval_call hget]
  rfl

theorem setNode_self (hnode : w.nodes node.name = some node) : w.setNode node.name node = w := by
  unfold Cluster.setNode
  rw [← hnode, Function.update_eq_self]

theorem setNode_setNode (name : String) (a b : Node) :
    (w.setNode name a).setNode name b = w.setNode name b := by
  unfold Cluster.setNode
  dsimp only
  rw [Function.update_idem]

/-- A patch of the taints of a node that is as it was read. -/
theorem eval_patchOwnTaints {taints : List Taint} (hnode : w.nodes node.name = some node)
    (hne : node.taints ≠ taints) :
    ((call (.patchNode node { node with taints := taints }) >>= fun answer =>
      Session.ofExcept answer >>= fun answer =>
        pure (r.decode.node answer { node with taints := taints }) : M Node) m).eval serve w =
      ((.ok { node with taints := taints }, m),
        w.setNode node.name { node with taints := taints }) := by
  have hserve : serve (.patchNode node { node with taints := taints }) w =
      (.ok { node with taints := taints },
        w.setNode node.name { node with taints := taints }) := by
    simp only [serve, Cluster.patchNode, hnode, patchedNode_of_ne hne]
  show ((Session.ofExcept (serve (.patchNode node { node with taints := taints }) w).1 >>=
    fun answer => pure (r.decode.node answer { node with taints := taints }) : M Node) m).eval
      serve (serve (.patchNode node { node with taints := taints }) w).2 = _
  rw [hserve]
  show ((Except.ok (r.decode.node { node with taints := taints } { node with taints := taints }),
    m), w.setNode node.name { node with taints := taints }) = _
  rw [decode_node_self]

theorem eval_addOwnTaint (taint : Taint) (hnode : w.nodes node.name = some node) :
    (addTaint r taint node m).eval serve w =
      ((.ok { node with taints := added taint w.now node.taints }, m),
        w.setNode node.name { node with taints := added taint w.now node.taints }) := by
  unfold addTaint added
  split
  · rw [setNode_self hnode]
    rfl
  · refine eval_patchOwnTaints hnode ?_
    exact fun h => absurd (List.self_eq_append_right.mp h) (List.cons_ne_nil _ _)

theorem eval_removeOwnTaint (taint : Taint) (hnode : w.nodes node.name = some node) :
    (removeTaint r taint node m).eval serve w =
      ((.ok { node with taints := removed taint node.taints }, m),
        w.setNode node.name { node with taints := removed taint node.taints }) := by
  unfold removeTaint
  cases hexists : taintExists node.taints taint with
  | true =>
    obtain ⟨hpair, hne⟩ := deleteTaint_of_exists hexists
    rw [deleteTaint_fst] at hpair hne
    rw [if_pos rfl, hpair]
    exact eval_patchOwnTaints hnode hne
  | false =>
    have hsame : removed taint node.taints = node.taints :=
      ((removeUndisturbed_iff taint node.taints node.taints).mpr (by
        unfold RemoveUndisturbed
        rw [hexists]
        rfl)).symm.trans (by rw [hexists]; rfl)
    rw [hsame, setNode_self hnode]
    rfl

/-- Each of the four functions applies its edit to a node that is as it was
read. -/
theorem eval_edit (edit : TaintEdit) (hnode : w.nodes node.name = some node) :
    (edit.run r node m).eval serve w =
      ((.ok (node.edited w.now [edit]), m), w.setNode node.name (node.edited w.now [edit])) := by
  cases edit with
  | addNoScheduleTaint => exact eval_addOwnTaint _ hnode
  | removeNoScheduleTaint => exact eval_removeOwnTaint _ hnode
  | addOutOfServiceTaint => exact eval_addOwnTaint _ hnode
  | removeOutOfServiceTaint => exact eval_removeOwnTaint _ hnode

/-- A second edit of the node that the first one returned. -/
theorem eval_edit_again (node : Node) (edit : TaintEdit) (edits : List TaintEdit) (now : Time)
    (hnow : w.now = now) :
    (edit.run r (node.edited now edits) m).eval serve
        (w.setNode node.name (node.edited now edits)) =
      ((.ok (node.edited now (edits ++ [edit])), m),
        w.setNode node.name (node.edited now (edits ++ [edit]))) := by
  subst hnow
  have hself : (w.setNode node.name (node.edited w.now edits)).nodes
      (node.edited w.now edits).name =
      some (node.edited w.now edits) := Function.update_self _ _ _
  have htwice : (node.edited w.now edits).edited w.now [edit] =
      node.edited w.now (edits ++ [edit]) := by
    unfold Node.edited
    rw [List.foldl_append]
  refine (eval_edit edit hself).trans ?_
  show ((Except.ok ((node.edited w.now edits).edited w.now [edit]), m),
    (w.setNode node.name (node.edited w.now edits)).setNode node.name
      ((node.edited w.now edits).edited w.now [edit])) = _
  rw [htwice, setNode_setNode]

end Evaluations

/-! ## 4. Carrying out a plan -/

/-- The copy of the stored object, with other conditions. -/
def Cluster.copyWith (w : Cluster) (conditions : List Condition) : Revision SNR :=
  ⟨w.snr.resourceVersion, { w.snr.current with
    status := { w.snr.current.status with conditions := conditions } }⟩

/-- The cluster after the plan, but for the SelfNodeRemediation. -/
def Cluster.performed (w : Cluster) (plan : Plan) (assumed : List Assumption) : Cluster :=
  match targetNode w w.snr.current with
  | .ok node =>
    { w.setNode node.name (node.edited w.now plan.edits) with
      pods := if plan.deletesPods then podsDeleted w.now node.name w.namespaces w.pods else w.pods
      assumed := assumed }
  | .error _ => w

/-- What the end of a reconcile does besides the writes: the text it records as `LastError`,
if any, and what becomes of the request. -/
structure Report where
  recorded : Option String
  requeue : Requeue

def Plan.report (plan : Plan) (now : Time) : Report := ⟨plan.recorded, plan.requeue now⟩

def reportIn : Except GoErr Ending → Report
  | .error _ => ⟨none, .rateLimited⟩
  | .ok (.plain result) => ⟨none, result.requeued⟩
  | .ok (.lastError result err) => ⟨some (lastErrorVal err),
      if (returnedErr err).isSome then .rateLimited else result.requeued⟩

/-- The same for the end of a handler; a panic goes on. -/
def reportOf : Except GoErr Result → Report
  | .ok result => reportIn (.ok (.lastError result none))
  | .error e =>
    if e.kind = .nilDereference then reportIn (.error e)
    else reportIn (.ok (.lastError .empty (some e)))

theorem reportOf_ok (result : Result) : reportOf (.ok result) = ⟨some "", result.requeued⟩ := rfl

/-- The plan is carried out, on a copy that had these conditions. -/
structure Performed (w : Cluster) (conditions : List Condition) (plan : Plan)
    (report : Report) (m : Mem) (w' : Cluster) : Prop where
  report : report = plan.report w.now
  version : m.snr.resourceVersion = w.snr.resourceVersion
  status : ∃ t, m.snr.value.status = ⟨t, plan.phase.or w.snr.current.status.phase,
      w.snr.current.status.lastError, assignAll plan.reasons w.now conditions⟩ ∧
    (w.snr.current.status.phase ≠ none ∨ plan.phase = none →
      t = w.snr.current.status.timeAssumedRebooted)
  world : ∃ assumed, w' = w.performed plan assumed

/-- The finalizer is added or removed; the status is left to the end. -/
structure Refinalized (w : Cluster) (m : Mem) (w' : Cluster) : Prop where
  finalizer : containsFinalizer w'.snr.current snrFinalizer =
    !containsFinalizer w.snr.current snrFinalizer
  status : w'.snr.current.status = w.snr.current.status
  phase : m.snr.value.status.phase = w.snr.current.status.phase
  version : m.snr.resourceVersion = w'.snr.resourceVersion

def Does {α : Type} (w : Cluster) (conditions : List Condition) (plan : Plan)
    (rep : α → Report) (res : α × Mem) (w' : Cluster) : Prop :=
  if plan.finalizes then Refinalized w res.2 w'
  else Performed w conditions plan (rep res.1) res.2 w'

section Handlers

variable {α : Type} {r : Reconciler} {w w' : Cluster} {conditions : List Condition} {m : Mem}
  {node : Node} {plan : Plan}

theorem performed_ok (htarget : targetNode w w.snr.current = .ok node) (assumed : List Assumption) :
    w.performed plan assumed =
      { w.setNode node.name (node.edited w.now plan.edits) with
        pods := if plan.deletesPods then podsDeleted w.now node.name w.namespaces w.pods
          else w.pods
        assumed := assumed } := by
  unfold Cluster.performed
  rw [htarget]

theorem performed_now (assumed : List Assumption) : (w.performed plan assumed).now = w.now := by
  unfold Cluster.performed
  cases targetNode w w.snr.current <;> rfl

/-- A plan that edits the taints only. -/
theorem performed_edits (htarget : targetNode w w.snr.current = .ok node)
    {edits : List TaintEdit} (hedits : plan.edits = edits) (hpods : plan.deletesPods = false) :
    w.setNode node.name (node.edited w.now edits) = w.performed plan w.assumed := by
  rw [performed_ok htarget, hedits, hpods]
  rfl

/-- A plan without edits leaves the cluster alone. -/
theorem performed_nothing (hnamed : ∀ name node, w.nodes name = some node → node.name = name)
    (hedits : plan.edits = []) (hpods : plan.deletesPods = false) :
    w.performed plan w.assumed = w := by
  cases htarget : targetNode w w.snr.current with
  | error e =>
    unfold Cluster.performed
    rw [htarget]
  | ok node =>
    rw [← performed_edits htarget hedits hpods]
    exact setNode_self ((targetNode_ok_iff hnamed).mp htarget).2

theorem does_of_performed {rep : α → Report} {res : α} (hf : plan.finalizes = false)
    (h : Performed w conditions plan (rep res) m w') : Does w conditions plan rep (res, m) w' := by
  unfold Does
  rw [hf]
  exact h

/-- Only conditions are assigned. -/
theorem performed_assigned {report : Report}
    (hm : m.snr = w.copyWith (assignAll plan.reasons w.now conditions)) (hphase : plan.phase = none)
    (hrep : report = plan.report w.now) (hw : w' = w.performed plan w.assumed) :
    Performed w conditions plan report m w' := by
  refine ⟨hrep, by rw [hm]; rfl, ⟨_, ?_, fun _ => rfl⟩, w.assumed, hw⟩
  rw [hm, hphase]
  rfl

/-- Nothing is assigned. -/
theorem performed_stay {report : Report} (hm : m.snr = w.copyWith conditions)
    (hreasons : plan.reasons = []) (hphase : plan.phase = none)
    (hrep : report = plan.report w.now) (hw : w' = w.performed plan w.assumed) :
    Performed w conditions plan report m w' :=
  performed_assigned (by rw [hreasons]; exact hm) hphase hrep hw

theorem does_finalize {rep : α → Report} {res : α} (h : Refinalized w m w') :
    Does w conditions .finalize rep (res, m) w' :=
  h

/-- The finalizers of the copy are written, and the answer is decoded over it. -/
theorem refinalized_decode {sent : SNR} (hsnr : w'.snr = w.snr)
    (hsent : containsFinalizer sent snrFinalizer =
      !containsFinalizer w.snr.current snrFinalizer)
    (hphase : m.snr.value.status.phase = w.snr.current.status.phase) :
    Refinalized w (m.decode r.decode (w'.store (updated w'.snr.current sent)).snr.read)
      (w'.store (updated w'.snr.current sent)) := by
  have hcurrent : (w'.store (updated w'.snr.current sent)).snr.current =
      updated w.snr.current sent := by
    show (w'.snr.putIfChanged _).current = _
    rw [Store.putIfChanged_current, hsnr]
  refine ⟨?_, ?_, ?_, rfl⟩
  · rw [hcurrent]
    exact hsent
  · rw [hcurrent]
    rfl
  · show (r.decode.snr (w'.store _).snr.current m.snr.value).status.phase = _
    rw [decode_status, hcurrent]
    cases r.decode with
    | zeroFirst => rfl
    | overwrite =>
      show w.snr.current.status.phase.or m.snr.value.status.phase = _
      rw [hphase, Option.or_self]

variable (hm : m.snr = w.copyWith conditions)
  (hnamed : ∀ name node, w.nodes name = some node → node.name = name) (hlive : w.gone = false)

include hm

theorem copy_deletionTimestamp :
    m.snr.value.deletionTimestamp = w.snr.current.deletionTimestamp := by
  rw [hm]
  rfl

theorem copy_timeAssumedRebooted : m.snr.value.status.timeAssumedRebooted =
    w.snr.current.status.timeAssumedRebooted := by
  rw [hm]
  rfl

theorem copy_finalizer : containsFinalizer m.snr.value snrFinalizer =
    containsFinalizer w.snr.current snrFinalizer := by
  rw [hm]
  rfl

include hnamed

/-- The end of a handler that does nothing. -/
theorem wp_nothing {rep : Except GoErr α → Report} {res : Except GoErr α}
    {recorded : Option String} {requeue : Requeue} (hrep : rep res = ⟨recorded, requeue⟩) :
    alone.wp (Prog.ret (res, m)) (Does w conditions (.stay [] recorded requeue) rep) w :=
  Session.wp_ret (Outline.alone_stable _) (does_of_performed rfl
    (performed_stay hm rfl rfl hrep (performed_nothing hnamed rfl rfl).symm))

include hlive

theorem wp_addFinalizer_does (hfin : containsFinalizer w.snr.current snrFinalizer = false) :
    alone.wp (addFinalizer r m) (Does w conditions
      (if w.snr.current.deletionTimestamp.isSome then .stay [] (some "") .forget else .finalize)
      reportOf) w := by
  refine wp_theSNR ?_
  rw [copy_deletionTimestamp hm]
  cases w.snr.current.deletionTimestamp.isSome with
  | true => exact wp_nothing hm hnamed rfl
  | false =>
    refine Session.wp_update (Session.wp_read (wp_served ?_))
    have hserve : serve (.updateSNR (m.modify fun snr => addFinalizerTo snr snrFinalizer).snr) w =
        _ := serve_updateSNR hlive (by rw [Mem.modify, hm]; rfl)
    rw [hserve]
    refine Session.wp_update (Session.wp_ret (Outline.alone_stable _)
      (does_finalize (refinalized_decode rfl ?_ ?_)))
    · rw [hfin]
      exact contains_addFinalizerTo m.snr.value snrFinalizer
    · show (addFinalizerTo m.snr.value snrFinalizer).status.phase = _
      rw [status_addFinalizerTo, hm]
      rfl

theorem wp_prepareReboot_does (htarget : targetNode w w.snr.current = .ok node)
    (hphase : w.snr.current.status.phase = none) :
    alone.wp (prepareReboot r node m) (Does w conditions (prepareRebootPlan w node) reportOf)
      w := by
  have hnode := ((targetNode_ok_iff hnamed).mp htarget).2
  unfold prepareRebootPlan
  refine Session.wp_evaluated (eval_isNodeRebootCapable node) ?_
  show alone.wp ((if isRebootCapable w node then _ else Session.fail _ : M Result) m) _ w
  cases isRebootCapable w node with
  | false => exact wp_nothing hm hnamed rfl
  | true =>
    refine wp_theSNR ?_
    rw [copy_finalizer hm]
    cases hfin : containsFinalizer w.snr.current snrFinalizer with
    | false => exact wp_addFinalizer_does hm hnamed hlive hfin
    | true =>
      refine Session.wp_evaluated (eval_edit .addNoScheduleTaint hnode) ?_
      rw [← copy_timeAssumedRebooted hm]
      cases hset : m.snr.value.status.timeAssumedRebooted.isSome || w.calculatorConfig.isSome with
      | true =>
        obtain ⟨t, assumed, heval⟩ := eval_setTimeAssumedRebooted
          (w := w.setNode node.name (node.edited w.now [.addNoScheduleTaint]))
          (node.edited w.now [.addNoScheduleTaint]) (Bool.or_eq_true_iff.mp hset)
        refine Session.wp_evaluated heval (Session.wp_update ?_)
        refine Session.wp_ret (Outline.alone_stable _) (does_of_performed rfl ?_)
        refine ⟨rfl, by show m.snr.resourceVersion = _; rw [hm]; rfl, ⟨t, ?_, ?_⟩, assumed, ?_⟩
        · show (⟨t, some preRebootCompletedPhase, m.snr.value.status.lastError,
            m.snr.value.status.conditions⟩ : Status) = _
          rw [hm]
          rfl
        · exact fun h => h.elim (fun h => absurd hphase h) nofun
        · rw [performed_ok htarget]
          rfl
      | false =>
        obtain ⟨ht, hc⟩ := Bool.or_eq_false_iff.mp hset
        have heval := eval_setTimeAssumedRebooted_unset
          (w := w.setNode node.name (node.edited w.now [.addNoScheduleTaint]))
          (node.edited w.now [.addNoScheduleTaint]) ht hc
        exact Session.wp_evaluated_error heval (does_of_performed rfl
          (performed_stay hm rfl rfl rfl (performed_edits htarget rfl rfl)))

omit hnamed hlive in
/-- The next phase is assigned. -/
theorem performed_advance {phase : String} {report : Report}
    (hreasons : plan.reasons = []) (hphase : plan.phase = some phase)
    (hrep : report = plan.report w.now) (hw : w' = w.performed plan w.assumed) :
    Performed w conditions plan report (m.setPhase phase) w' := by
  refine ⟨hrep, by show m.snr.resourceVersion = _; rw [hm]; rfl, ⟨_, ?_, fun _ => rfl⟩,
    w.assumed, hw⟩
  show ({ m.snr.value.status with phase := some phase } : Status) = _
  rw [hm, hreasons, hphase]
  rfl

omit hlive in
theorem wp_waitForNodeRebooted_does :
    alone.wp (waitForNodeRebooted m) (Does w conditions (waitForNodeRebootedPlan w) reportOf)
      w := by
  have htime := copy_timeAssumedRebooted hm
  have hnothing {plan : Plan} (he : plan.edits = []) (hp : plan.deletesPods = false) :
      w = w.performed plan w.assumed := (performed_nothing hnamed he hp).symm
  unfold waitForNodeRebootedPlan
  cases ht : w.snr.current.status.timeAssumedRebooted with
  | none =>
    exact Session.wp_evaluated_error (eval_wasNodeRebooted_nil (htime.trans ht))
      (does_of_performed rfl (performed_stay hm rfl rfl rfl (hnothing rfl rfl)))
  | some t =>
    refine Session.wp_evaluated (eval_wasNodeRebooted (htime.trans ht)) ?_
    dsimp only
    by_cases hcome : t ≤ w.now
    · rw [if_pos hcome, if_pos hcome]
      exact Session.wp_update (Session.wp_ret (Outline.alone_stable _)
        (does_of_performed rfl (performed_advance hm rfl rfl rfl (hnothing rfl rfl))))
    · rw [if_neg hcome, if_neg hcome]
      exact Session.wp_ret (Outline.alone_stable _)
        (does_of_performed rfl (performed_stay hm rfl rfl
          (by rw [reportOf_ok, Plan.report, Plan.requeue_hold]; rfl) (hnothing rfl rfl)))

omit hm hnamed hlive

/-- How a removal of the resources ends: they are removed, or the phase stays. -/
def RemovedBy (w : Cluster) (plan : Plan) (m : Mem) (res : Except GoErr Duration × Mem)
    (w' : Cluster) : Prop :=
  res.2 = m ∧ w' = w.performed plan w.assumed ∧
    ((res.1 = .ok 0 ∧ ∃ edits deletesPods, plan = .complete edits deletesPods) ∨
      (res.1 ≠ .ok 0 ∧ plan.finalizes = false ∧ plan.reasons = [] ∧ plan.phase = none ∧
        reportOf (res.1.map fun waitTime => ⟨false, waitTime⟩) = plan.report w.now))

def RemovesBy (w : Cluster) (conditions : List Condition) (plan : Plan) (x : M Duration) : Prop :=
  ∀ m : Mem, m.snr = w.copyWith conditions → alone.wp (x m) (RemovedBy w plan m) w

theorem removesBy_deleteResourcesWrapper (htarget : targetNode w w.snr.current = .ok node)
    (hnode : w.nodes node.name = some node) :
    RemovesBy w conditions (.complete [] true) (deleteResourcesWrapper node) := by
  intro m hm
  have hself : w.setNode node.name (node.edited w.now []) = w := setNode_self hnode
  refine Outline.wp_alone ?_
  rw [eval_deleteResourcesWrapper]
  refine ⟨rfl, ?_, .inl ⟨rfl, _, _, rfl⟩⟩
  rw [performed_ok htarget, show (Plan.complete [] true).edits = [] from rfl, hself]
  rfl

theorem removesBy_useOutOfServiceTaint (r : Reconciler)
    (htarget : targetNode w w.snr.current = .ok node) (hnode : w.nodes node.name = some node) :
    RemovesBy w conditions (useOutOfServiceTaintPlan w node) (useOutOfServiceTaint r node) := by
  intro m hm
  have htime := copy_timeAssumedRebooted hm
  have hremove := eval_edit_again (r := r) (m := m) (w := w) node
    .removeOutOfServiceTaint [.addOutOfServiceTaint] w.now rfl
  have hcomplete : RemovedBy w
      (.complete [.addOutOfServiceTaint, .removeOutOfServiceTaint] false) m (.ok 0, m)
      (w.setNode node.name
        (node.edited w.now ([.addOutOfServiceTaint] ++ [.removeOutOfServiceTaint]))) :=
    ⟨rfl, performed_edits htarget rfl rfl, .inl ⟨rfl, _, _, rfl⟩⟩
  unfold useOutOfServiceTaintPlan
  refine Session.wp_evaluated (eval_edit .addOutOfServiceTaint hnode) ?_
  refine Session.wp_evaluated (eval_isResourceDeletionCompleted _) ?_
  rw [show resourcesGone (w.setNode node.name (node.edited w.now [.addOutOfServiceTaint]))
    (node.edited w.now [.addOutOfServiceTaint]).name = resourcesGone w node.name from rfl]
  cases resourcesGone w node.name with
  | true =>
    exact Session.wp_evaluated hremove (Session.wp_ret (Outline.alone_stable _) hcomplete)
  | false =>
    cases ht : w.snr.current.status.timeAssumedRebooted with
    | none =>
      exact Session.wp_evaluated_error (eval_isResourceDeletionExpired_nil (htime.trans ht))
        ⟨rfl, performed_edits htarget rfl rfl, .inr ⟨nofun, rfl, rfl, rfl, rfl⟩⟩
    | some t =>
      have hexpired : (isResourceDeletionExpired m).eval serve
          (w.setNode node.name (node.edited w.now [.addOutOfServiceTaint])) =
          ((.ok (if t + outOfServiceTimeoutDuration.toInt ≤ w.now then (true, 0)
            else (false, 5 * second)), m), _) := eval_isResourceDeletionExpired (htime.trans ht)
      refine Session.wp_evaluated hexpired ?_
      show alone.wp _ (RemovedBy w (if t + outOfServiceTimeoutDuration.toInt ≤ w.now then _ else _)
        m) _
      by_cases hcome : t + outOfServiceTimeoutDuration.toInt ≤ w.now
      · rw [if_pos hcome, if_pos hcome]
        refine wp_theSNR ?_
        rw [copy_deletionTimestamp hm]
        cases w.snr.current.deletionTimestamp.isSome with
        | true =>
          exact Session.wp_evaluated hremove (Session.wp_ret (Outline.alone_stable _) hcomplete)
        | false =>
          exact Session.wp_ret (Outline.alone_stable _)
            ⟨rfl, performed_edits htarget rfl rfl, .inr ⟨nofun, rfl, rfl, rfl, rfl⟩⟩
      · rw [if_neg hcome, if_neg hcome]
        have hleft : (.ok (5 * second) : Except GoErr Duration) ≠ .ok 0 :=
          fun h => absurd (Except.ok.inj h) (by decide)
        exact Session.wp_ret (Outline.alone_stable _)
          ⟨rfl, performed_edits htarget rfl rfl, .inr ⟨hleft, rfl, rfl, rfl, rfl⟩⟩

theorem wp_handleRebootCompletedPhase_does {rmNodeResources : Node → M Duration}
    (hrm : RemovesBy w conditions plan (rmNodeResources node))
    (hm : m.snr = w.copyWith conditions) :
    alone.wp (handleRebootCompletedPhase rmNodeResources node m)
      (Does w conditions plan reportOf) w := by
  refine Session.wp_bind (hrm m hm) ?_ ?_
  · rintro waitTime s w' - ⟨(rfl : s = m), rfl, ⟨hzero, edits, deletesPods, rfl⟩ |
      ⟨hne, hf, hreasons, hphase, hrep⟩⟩
    · rw [if_neg (not_not.mpr (Except.ok.inj hzero))]
      obtain ⟨s', heval, hs'⟩ := eval_updateConditions (m := s.setPhase fencingCompletedPhase)
        (w := w.performed (.complete edits deletesPods) w.assumed)
        .remediationFinishedSuccessfully rfl
      refine Session.wp_update (Session.wp_evaluated heval ?_)
      refine Session.wp_ret (Outline.alone_stable _) (does_of_performed rfl ?_)
      refine ⟨rfl, ?_, ⟨_, ?_, fun _ => rfl⟩, w.assumed, rfl⟩
      · rw [hs']
        show s.snr.resourceVersion = _
        rw [hm]
        rfl
      · rw [hs', performed_now]
        show (⟨s.snr.value.status.timeAssumedRebooted, some fencingCompletedPhase,
          s.snr.value.status.lastError, ConditionReason.remediationFinishedSuccessfully.assigned
            w.now s.snr.value.status.conditions⟩ : Status) = _
        rw [hm]
        rfl
    · have hne : waitTime ≠ 0 := fun h => hne (congrArg Except.ok h)
      rw [if_pos hne]
      exact Session.wp_ret (Outline.alone_stable _) (does_of_performed hf
        (performed_stay hm hreasons hphase hrep rfl))
  · rintro e s w' - ⟨(rfl : s = m), rfl, ⟨hzero, -⟩ | ⟨-, hf, hreasons, hphase, hrep⟩⟩
    · cases hzero
    · exact Session.wp_ret (Outline.alone_stable _) (does_of_performed hf
        (performed_stay hm hreasons hphase hrep rfl))

/-- The finalizer is removed from the copy and from the stored object. -/
theorem wp_removeFinalizer_does (rep : Except GoErr Unit → Report)
    (hm : m.snr = w.copyWith conditions)
    (hfin : containsFinalizer w.snr.current snrFinalizer = true) (hsnr : w'.snr = w.snr)
    (hlive : w'.gone = false) :
    alone.wp (removeFinalizer r m) (Does w conditions .finalize rep) w' := by
  refine Session.wp_update (Session.wp_read (wp_served ?_))
  have hserve : serve
      (.updateSNR (m.modify fun snr => removeFinalizerFrom snr snrFinalizer).snr) w' =
      _ := serve_updateSNR hlive (by rw [Mem.modify, hm, hsnr]; rfl)
  rw [hserve]
  refine Session.wp_ret (Outline.alone_stable _) (does_finalize
    (refinalized_decode hsnr ?_ (by show m.snr.value.status.phase = _; rw [hm]; rfl)))
  rw [hfin]
  exact contains_removeFinalizerFrom m.snr.value snrFinalizer

/-- The node's taints have been edited before. -/
theorem wp_recoverNode_does (rep : Except GoErr Result → Report) {recorded : Option String}
    (edits : List TaintEdit) (hrep : rep (.ok .empty) = ⟨recorded, .forget⟩)
    (hm : m.snr = w.copyWith conditions) (hlive : w.gone = false)
    (htarget : targetNode w w.snr.current = .ok node) :
    alone.wp (recoverNode r (node.edited w.now edits) m)
      (Does w conditions (recoverNodePlan w (edits ++ [.removeNoScheduleTaint]) recorded) rep)
      (w.setNode node.name (node.edited w.now edits)) := by
  unfold recoverNodePlan
  refine Session.wp_evaluated (eval_edit_again node .removeNoScheduleTaint edits w.now rfl) ?_
  refine wp_theSNR ?_
  rw [copy_finalizer hm]
  cases hfin : containsFinalizer w.snr.current snrFinalizer with
  | true =>
    refine Session.wp_bind
      (wp_removeFinalizer_does (fun _ => reportIn (.error nilPointer)) hm hfin rfl hlive) ?_ ?_
    · exact fun _ _ _ _ h => Session.wp_ret (Outline.alone_stable _) (does_finalize h)
    · exact fun _ _ _ _ h => Session.wp_ret (Outline.alone_stable _) (does_finalize h)
  | false =>
    exact Session.wp_ret (Outline.alone_stable _) (does_of_performed rfl
      (performed_stay hm rfl rfl hrep (performed_edits htarget rfl rfl)))

theorem wp_remediateWithResourceRemoval_does {rmNodeResources : Node → M Duration}
    (hrm : RemovesBy w conditions plan (rmNodeResources node))
    (hm : m.snr = w.copyWith conditions)
    (hnamed : ∀ name node, w.nodes name = some node → node.name = name) (hlive : w.gone = false)
    (htarget : targetNode w w.snr.current = .ok node) :
    alone.wp (remediateWithResourceRemoval r rmNodeResources node m)
      (Does w conditions (phasePlan w node plan) reportOf) w := by
  unfold phasePlan
  refine wp_theSNR ?_
  rw [show getPhase m.snr.value = getPhase w.snr.current from getPhase_congr (by rw [hm]; rfl)]
  cases hp : getPhase w.snr.current with
  | fencingStarted =>
    exact wp_prepareReboot_does hm hnamed hlive htarget ((phase_of_getPhase _).1 hp)
  | preRebootCompleted => exact wp_waitForNodeRebooted_does hm hnamed
  | rebootCompleted => exact wp_handleRebootCompletedPhase_does hrm hm
  | fencingCompleted =>
    refine wp_theSNR ?_
    rw [copy_deletionTimestamp hm]
    cases w.snr.current.deletionTimestamp.isSome with
    | true =>
      have h := wp_recoverNode_does (r := r) reportOf [] rfl hm hlive htarget
      rw [show node.edited w.now [] = node from rfl,
        setNode_self ((targetNode_ok_iff hnamed).mp htarget).2] at h
      exact h
    | false => exact wp_nothing hm hnamed rfl
  | unknown => exact wp_nothing hm hnamed rfl

theorem Does.mono {β : Type} {rep : α → Report} {rep' : β → Report} {res : α} {res' : β}
    (h : Does w conditions plan rep (res, m) w') (hrep : rep' res' = rep res) :
    Does w conditions plan rep' (res', m) w' := by
  unfold Does at h ⊢
  dsimp only at h ⊢
  rw [hrep]
  exact h

theorem wp_handled_does {handler : M Result}
    (h : alone.wp (handler m) (Does w conditions plan reportOf) w) :
    alone.wp (handled handler m) (Does w conditions plan reportIn) w := by
  refine Session.wp_attempt h ?_
  rintro res s w' - hdoes
  rcases res with e | result
  · by_cases hpanic : e.kind = .nilDereference
    · dsimp only
      rw [if_pos hpanic]
      exact Session.wp_ret (Outline.alone_stable _) (hdoes.mono (if_pos hpanic).symm)
    · dsimp only
      rw [if_neg hpanic]
      exact Session.wp_ret (Outline.alone_stable _) (hdoes.mono (if_neg hpanic).symm)
  · exact Session.wp_ret (Outline.alone_stable _) (hdoes.mono rfl)

theorem wp_remediateNode_does (hm : m.snr = w.copyWith conditions)
    (hnamed : ∀ name node, w.nodes name = some node → node.name = name) (hlive : w.gone = false)
    (htarget : targetNode w w.snr.current = .ok node) :
    alone.wp (remediateNode r node m) (Does w conditions (remediateNodePlan w node) reportIn)
      w := by
  have hnode := ((targetNode_ok_iff hnamed).mp htarget).2
  unfold remediateNodePlan
  refine wp_theSNR ?_
  split
  · exact wp_nothing hm hnamed rfl
  · refine Session.wp_evaluated (eval_getRuntimeStrategy (by rw [hm]; rfl)) ?_
    cases w.runtimeStrategy with
    | resourceDeletion =>
      exact wp_handled_does (wp_remediateWithResourceRemoval_does
        (removesBy_deleteResourcesWrapper htarget hnode) hm hnamed hlive htarget)
    | outOfServiceTaint =>
      exact wp_handled_does (wp_remediateWithResourceRemoval_does
        (removesBy_useOutOfServiceTaint r htarget hnode) hm hnamed hlive htarget)
    | automatic => exact wp_nothing hm hnamed rfl
    | unsupported _ => exact wp_nothing hm hnamed rfl

theorem eval_copy_updateConditions (reason : ConditionReason)
    {processing succeeded : ConditionStatus} (hr : reason.statuses = some (processing, succeeded))
    (hm : m.snr = w.copyWith conditions) :
    ∃ m', (updateConditions reason m).eval serve w = ((.ok (), m'), w) ∧
      m'.snr = w.copyWith (reason.assigned w.now conditions) := by
  obtain ⟨m', heval, hm'⟩ := eval_updateConditions (m := m) (w := w) reason hr
  refine ⟨m', heval, hm'.trans ?_⟩
  unfold Mem.setStatus Mem.modify
  rw [hm]
  rfl

theorem eval_markStarted (hm : m.snr = w.copyWith conditions) :
    ∃ m', (markStarted m).eval serve w = ((.ok (), m'), w) ∧
      m'.snr = w.copyWith (assignAll (startReasons w) w.now conditions) := by
  unfold startReasons
  show ∃ m', ((if getPhase m.snr.value ≠ .fencingCompleted then
    updateConditions .remediationStarted else pure () : M Unit) m).eval serve w = _ ∧ _
  rw [show getPhase m.snr.value = getPhase w.snr.current from getPhase_congr (by rw [hm]; rfl)]
  split
  · exact eval_copy_updateConditions _ rfl hm
  · exact ⟨m, rfl, hm⟩

theorem Does.after {rep : α → Report} {res : α} {reasons : List ConditionReason}
    (h : Does w (assignAll reasons w.now conditions) plan rep (res, m) w') :
    Does w conditions (plan.after reasons) rep (res, m) w' := by
  unfold Does at h ⊢
  show if plan.finalizes then _ else _
  split
  · next hf =>
    rw [if_pos hf] at h
    exact h
  · next hf =>
    rw [if_neg hf] at h
    obtain ⟨hrep, hversion, ⟨t, hstatus, ht⟩, hw⟩ := h
    refine ⟨hrep, hversion, ⟨t, hstatus.trans ?_, ht⟩, hw⟩
    unfold Plan.after assignAll
    rw [List.foldl_append]

theorem targetNode_copy (hm : m.snr = w.copyWith conditions) :
    targetNode w m.snr.value = targetNode w w.snr.current := by
  rw [hm]
  rfl

/-- The node's name is not known or there is no such node. -/
theorem kind_targetNode {snr : SNR} {e : GoErr} (h : targetNode w snr = .error e) :
    e.kind ≠ .unreconcilable := by
  unfold targetNode at h
  cases hname : targetName w snr with
  | ok name =>
    rw [hname] at h
    change found nodeKind name (w.nodes name) = .error e at h
    cases hnode : w.nodes name with
    | some node =>
      rw [hnode] at h
      cases h
    | none =>
      rw [hnode] at h
      cases h
      simp [notFound]
  | error e' =>
    rw [hname] at h
    cases h
    unfold targetName at hname
    split at hname
    · cases hname
    · split at hname
      · cases hname
      · split at hname
        · cases hname
          simp [notFound]
        · split at hname
          · cases hname
            simp [GoErr.new]
          · cases hname

theorem wp_remediate_does (hm : m.snr = w.copyWith conditions)
    (hnamed : ∀ name node, w.nodes name = some node → node.name = name) (hlive : w.gone = false) :
    alone.wp (remediate r m) (Does w conditions (remediatePlan w) reportIn) w := by
  unfold remediatePlan
  obtain ⟨s, heval, hs⟩ := eval_markStarted hm
  refine Session.wp_evaluated heval (Session.wp_attempted eval_getNodeFromSnr ?_)
  rw [targetNode_copy hs]
  cases htarget : targetNode w w.snr.current with
  | ok node =>
    refine Outline.wp_mono (wp_remediateNode_does hs hnamed hlive htarget) ?_
    exact fun _ _ _ h => h.after
  | error e =>
    have hrep : reportIn (.ok (.lastError .empty (some e))) = ⟨some e.msg, .rateLimited⟩ := by
      simp [reportIn, returnedErr, lastErrorVal, kind_targetNode htarget]
    show alone.wp (nodeNotFound e s)
      (Does w conditions { Plan.stay [] (some e.msg) .rateLimited with
      reasons := startReasons w ++ if e.isNotFound then [.remediationSkippedNodeNotFound] else [] }
      reportIn) w
    unfold nodeNotFound
    cases e.isNotFound with
    | true =>
      obtain ⟨s', heval, hs'⟩ := eval_copy_updateConditions
        .remediationSkippedNodeNotFound rfl hs
      refine Session.wp_evaluated heval (Session.wp_ret (Outline.alone_stable _)
        (does_of_performed rfl (performed_assigned ?_ rfl hrep
          (performed_nothing hnamed rfl rfl).symm)))
      rw [hs']
      unfold assignAll
      rw [List.foldl_append]
      rfl
    | false =>
      refine Session.wp_ret (Outline.alone_stable _) (does_of_performed rfl
        (performed_assigned ?_ rfl hrep (performed_nothing hnamed rfl rfl).symm))
      show s.snr = w.copyWith (assignAll (startReasons w ++ []) w.now conditions)
      rw [List.append_nil]
      exact hs

/-- There is no finalizer to remove, and the object is stored as it was. -/
theorem wp_removeFinalizer_absent (hm : m.snr = w.snr.read)
    (hfin : containsFinalizer w.snr.current snrFinalizer = false)
    (hkept : w.snr.current.deletionTimestamp.isSome = true → w.snr.current.finalizers ≠ [])
    (hlive : w.gone = false) :
    alone.wp (removeFinalizer r m) (fun res w' => res.1 = .ok () ∧ w' = w ∧
      res.2.snr.resourceVersion = w.snr.resourceVersion ∧
      res.2.snr.value.status = w.snr.current.status) w := by
  have hsame : removeFinalizerFrom w.snr.current snrFinalizer = w.snr.current := by
    unfold removeFinalizerFrom
    unfold containsFinalizer at hfin
    rw [List.filter_eq_self.mpr]
    intro f hf
    have hne : f ≠ snrFinalizer := fun h => by
      rw [h] at hf
      rw [List.contains_iff_mem.mpr hf] at hfin
      cases hfin
    exact bne_iff_ne.mpr hne
  have hstore : w.store w.snr.current = w := by
    have hgone : (w.gone || (w.snr.current.deletionTimestamp.isSome &&
        w.snr.current.finalizers.isEmpty)) = w.gone := by
      cases hdel : w.snr.current.deletionTimestamp.isSome with
      | false => rw [Bool.false_and, Bool.or_false]
      | true =>
        rw [Bool.true_and, List.isEmpty_eq_false_iff.mpr (hkept hdel), Bool.or_false]
    unfold Cluster.store
    rw [hgone, show w.snr.putIfChanged w.snr.current = w.snr from if_pos rfl]
  refine Session.wp_update (Session.wp_read (wp_served ?_))
  have hserve : serve
      (.updateSNR (m.modify fun snr => removeFinalizerFrom snr snrFinalizer).snr) w =
      _ := serve_updateSNR hlive (by rw [Mem.modify, hm]; rfl)
  have hupdated : updated w.snr.current
      (m.modify fun snr => removeFinalizerFrom snr snrFinalizer).snr.value = w.snr.current := by
    show updated w.snr.current (removeFinalizerFrom m.snr.value snrFinalizer) = _
    rw [hm, show removeFinalizerFrom w.snr.read.value snrFinalizer = w.snr.current from hsame]
    rfl
  rw [hserve, hupdated, hstore]
  refine Session.wp_ret (Outline.alone_stable _) ⟨rfl, rfl, rfl, ?_⟩
  show (r.decode.snr w.snr.current (removeFinalizerFrom m.snr.value snrFinalizer)).status = _
  rw [hm, show removeFinalizerFrom w.snr.read.value snrFinalizer = w.snr.current from hsame,
    decode_status, decode_status_self]

theorem wp_stoppedByNHC_does (hm : m.snr = w.snr.read)
    (hkept : w.snr.current.deletionTimestamp.isSome = true → w.snr.current.finalizers ≠ [])
    (hnamed : ∀ name node, w.nodes name = some node → node.name = name) (hlive : w.gone = false) :
    alone.wp (stoppedByNHC r m)
      (Does w w.snr.current.status.conditions (stoppedByNHCPlan w) reportIn) w := by
  have hcopy : m.snr = w.copyWith w.snr.current.status.conditions := hm
  have hnothing {plan : Plan} (he : plan.edits = []) (hp : plan.deletesPods = false) :
      w = w.performed plan w.assumed := (performed_nothing hnamed he hp).symm
  unfold stoppedByNHCPlan
  refine wp_theSNR ?_
  rw [copy_deletionTimestamp hcopy]
  cases w.snr.current.deletionTimestamp.isSome with
  | false =>
    obtain ⟨s, heval, hs⟩ := eval_copy_updateConditions .remediationTimeoutByNHC rfl hcopy
    exact Session.wp_evaluated heval (Session.wp_ret (Outline.alone_stable _)
      (does_of_performed rfl (performed_assigned hs rfl rfl (hnothing rfl rfl))))
  | true =>
    refine Session.wp_attempted eval_getNodeFromSnr ?_
    rw [targetNode_copy hcopy]
    cases htarget : targetNode w w.snr.current with
    | ok node =>
      have hnode := ((targetNode_ok_iff hnamed).mp htarget).2
      refine Session.wp_evaluated (eval_edit .removeOutOfServiceTaint hnode) ?_
      refine Session.wp_bind (wp_recoverNode_does (fun res => reportIn (res.map .plain))
        [.removeOutOfServiceTaint] rfl hcopy hlive htarget) ?_ ?_
      · exact fun _ _ _ _ h => Session.wp_ret (Outline.alone_stable _) (h.mono rfl)
      · exact fun _ _ _ _ h => Session.wp_ret (Outline.alone_stable _) (h.mono rfl)
    | error e =>
      show alone.wp ((if e.isNotFound then _ else Session.fail e : M Ending) m) (Does w _
        (if e.isNotFound then _ else _) _) w
      unfold recoverNodePlan
      cases e.isNotFound with
      | false => exact wp_nothing hcopy hnamed rfl
      | true =>
        cases hfin : containsFinalizer w.snr.current snrFinalizer with
        | true =>
          refine Session.wp_bind (wp_removeFinalizer_does
            (fun _ => reportIn (.error nilPointer)) hcopy hfin rfl hlive) ?_ ?_
          · exact fun _ _ _ _ h => Session.wp_ret (Outline.alone_stable _) (does_finalize h)
          · exact fun _ _ _ _ h => Session.wp_ret (Outline.alone_stable _) (does_finalize h)
        | false =>
          refine Session.wp_bind (wp_removeFinalizer_absent hm hfin hkept hlive) ?_
            fun _ _ _ _ h => nomatch h.1
          rintro _ s w' - ⟨-, rfl, hversion, hstatus⟩
          exact Session.wp_ret (Outline.alone_stable _) (does_of_performed rfl
            ⟨rfl, hversion, ⟨_, hstatus, fun _ => rfl⟩, _, hnothing rfl rfl⟩)

/-- The steps of a reconcile carry out the plan. -/
theorem does_reconcileSteps (hm : m.snr = w.snr.read)
    (hkept : w.snr.current.deletionTimestamp.isSome = true → w.snr.current.finalizers ≠ [])
    (hnamed : ∀ name node, w.nodes name = some node → node.name = name) (hlive : w.gone = false) :
    alone.wp (reconcileSteps r m) (Does w w.snr.current.status.conditions w.plan reportIn) w := by
  have hcopy : m.snr = w.copyWith w.snr.current.status.conditions := hm
  have hdisabled : alone.wp (disabledNoConfig m) (Does w w.snr.current.status.conditions
      { Plan.stay [] none .forget with reasons := [.snrDisabledNoConfig] } reportIn) w := by
    have heval : (setCondition disabledCondition m).eval serve w = ((.ok (), m.setStatus fun s =>
      { s with conditions := setStatusCondition w.now disabledCondition s.conditions }), w) := rfl
    refine Session.wp_evaluated heval (Session.wp_ret (Outline.alone_stable _)
      (does_of_performed rfl (performed_assigned ?_ rfl rfl
        (performed_nothing hnamed rfl rfl).symm)))
    unfold Mem.setStatus Mem.modify
    rw [hm]
    rfl
  unfold Cluster.plan configured
  cases hns : w.deploymentNamespace with
  | none =>
    have hserve : serve .getDeploymentNamespace w =
        (.error (.new "DEPLOYMENT_NAMESPACE must be set"), w) := by simp only [serve, hns]
    have heval : (isConfigurationExist m).eval serve w =
        ((.error (.new "DEPLOYMENT_NAMESPACE must be set"), m), w) := by
      unfold isConfigurationExist
      rw [Session.eval_call hserve, Session.eval_bind_error rfl]
    exact Session.wp_evaluated_error heval (does_of_performed rfl
      (performed_stay hcopy rfl rfl rfl (performed_nothing hnamed rfl rfl).symm))
  | some ns =>
    cases hconfig : w.config ns with
    | none =>
      refine Session.wp_evaluated (eval_isConfigurationExist_missing hns hconfig) ?_
      rw [Option.any_some, hconfig]
      exact hdisabled
    | some deletion =>
      refine Session.wp_evaluated (eval_isConfigurationExist hns hconfig) ?_
      rw [Option.any_some, hconfig]
      cases deletion with
      | some t => exact hdisabled
      | none =>
        refine wp_theSNR ?_
        rw [show isStoppedByNHC m.snr.value = isStoppedByNHC w.snr.current by rw [hm]; rfl]
        cases isStoppedByNHC w.snr.current with
        | true => exact wp_stoppedByNHC_does hm hkept hnamed hlive
        | false => exact wp_remediate_does hcopy hnamed hlive

end Handlers

/-! ## 5. Whole reconciles -/

/-- A stored object as the API server has it: it is there, a deleted one because of
its finalizers, its times are whole seconds, and nodes are stored by their names. -/
structure Cluster.Regular (w : Cluster) : Prop where
  live : w.gone = false
  kept : w.snr.current.deletionTimestamp.isSome = true → w.snr.current.finalizers ≠ []
  serialized : w.snr.current.status.serialize = w.snr.current.status
  named : ∀ name node, w.nodes name = some node → node.name = name

/-- The same without the times, which no single reconcile depends on. -/
structure Cluster.Present (w : Cluster) : Prop where
  live : w.gone = false
  kept : w.snr.current.deletionTimestamp.isSome = true → w.snr.current.finalizers ≠ []
  named : ∀ name node, w.nodes name = some node → node.name = name

theorem Cluster.Regular.present {w : Cluster} (h : w.Regular) : w.Present :=
  ⟨h.live, h.kept, h.named⟩

/-- One reconcile that nothing disturbs. -/
def Cluster.reconciled (w : Cluster) (r : Reconciler) : Cluster :=
  ((reconcileManager r).eval serve w).2

/-- The same cluster at another time. -/
def Cluster.at (w : Cluster) (t : Time) : Cluster := { w with now := t }

/-- The status of the copy when the deferred function runs, by the text that is
recorded. -/
def returnedBy (mode : DecodeMode) (stored copy : Status) : Option String → Status
  | none => copy
  | some text =>
    if copy.lastError = text then copy
    else mode.status { stored with lastError := text } { copy with lastError := text }

theorem returned_eq (mode : DecodeMode) (stored copy : Status) (ending : Except GoErr Ending) :
    returned mode stored copy ending = returnedBy mode stored copy (reportIn ending).recorded := by
  rcases ending with e | result | ⟨result, err⟩
  · rfl
  · rfl
  · rfl

/-- The same phase is stored again. -/
theorem phase_returned_same {mode : DecodeMode} {stored copy : Status}
    {ending : Except GoErr Ending} (h : copy.phase = stored.phase) :
    (returned mode stored copy ending).phase = stored.phase := by
  rcases ending with e | result | ⟨result, err⟩
  · exact h
  · exact h
  · unfold returned
    dsimp only
    split
    · exact h
    · cases mode with
      | zeroFirst => rfl
      | overwrite =>
        show stored.phase.or copy.phase = stored.phase
        rw [h, Option.or_self]

/-- Another phase is stored only if it is kept. -/
theorem phase_returned_recovery {stored copy : Status} {mode : DecodeMode} {result : Result}
    (hl : copy.lastError = stored.lastError) :
    (returned mode stored copy (.ok (.lastError result none))).phase =
      if stored.lastError = "" ∨ (mode = .overwrite ∧ stored.phase = none) then copy.phase
      else stored.phase := by
  show (if copy.lastError = "" then copy
    else mode.status { stored with lastError := "" } { copy with lastError := "" }).phase = _
  rw [hl]
  -- there is a patch, whose answer is decoded into the copy, only if an error is recorded
  by_cases hnone : stored.lastError = ""
  · rw [if_pos hnone, if_pos (.inl hnone)]
  · rw [if_neg hnone]
    cases mode with
    | zeroFirst =>
      rw [if_neg fun h => h.elim hnone fun h => nomatch h.1]
      rfl
    | overwrite =>
      show stored.phase.or copy.phase = _
      cases hphase : stored.phase with
      | none =>
        rw [if_pos (.inr ⟨rfl, rfl⟩)]
        rfl
      | some phase =>
        rw [if_neg fun h => h.elim hnone fun h => nomatch h.2]
        rfl

/-- The phase is stored again where none is assigned. -/
theorem phase_returnedBy_same {mode : DecodeMode} {stored copy : Status} {recorded : Option String}
    (h : copy.phase = stored.phase) :
    (returnedBy mode stored copy recorded).phase = stored.phase := by
  cases recorded with
  | none => exact h
  | some text =>
    show (returned mode stored copy (.ok (.lastError .empty (some (.new text))))).phase = _
    exact phase_returned_same h

section Reconciled

variable {r : Reconciler} {w : Cluster}

/-- Only the status has been written. -/
def StatusWritten (w w' : Cluster) : Prop :=
  ∃ store status, w' = { w with snr := store } ∧
    store.current = { w.snr.current with status := status }

theorem statusWritten_storeStatus {w' : Cluster} (h : StatusWritten w w') (status : Status) :
    StatusWritten w (w'.storeStatus status) := by
  obtain ⟨store, s, rfl, hstore⟩ := h
  refine ⟨store.putIfChanged { store.current with status := status }, status, rfl, ?_⟩
  rw [Store.putIfChanged_current, hstore]

/-- The end of a reconcile writes the status only, of an object that is there. -/
theorem wp_reconcileEnd_kept {P : Cluster → Prop}
    (hP : ∀ w status, w.gone = false → P w → P (Cluster.storeStatus w status))
    (ending : Except GoErr Ending) (hw : P w) :
    alone.wp (reconcileEnd r ending m) (fun _ w => P w) w := by
  refine Outline.wp_only (Outline.alone_stable P) (fun _ _ _ _ _ => trivial) ?_
    (only_reconcileEnd r ending m) hw
  intro c w answer w' hc hw he
  have he := alone_client.exec he
  cases c with
  | updateSNRStatus sent =>
    rcases he.updateSNRStatus.world with rfl | ⟨hguard, rfl⟩
    · exact hw
    · exact hP _ _ hguard.1 hw
  | patchSNRStatus base changed =>
    rcases he.patchSNRStatus.world with rfl | ⟨hlive, rfl⟩
    · exact hw
    · exact hP _ _ hlive hw
  | _ => cases hc

theorem reconciled_does (hw : w.Present) :
    Does w w.snr.current.status.conditions w.plan reportIn (stepsAlone r w).1
      (stepsAlone r w).2 :=
  Outline.alone_wp (does_reconcileSteps rfl hw.kept hw.named hw.live)

theorem reconciled_end (hw : w.Present) :
    StatusWritten (stepsAlone r w).2 (w.reconciled r) := by
  unfold Cluster.reconciled
  rw [eval_reconcileManager r hw.live]
  exact Outline.alone_wp (wp_reconcileEnd_kept (P := StatusWritten (stepsAlone r w).2)
    (fun _ status _ h => statusWritten_storeStatus h status) _ ⟨_, _, rfl, rfl⟩)

/-- Where the plan says so the finalizer is added or removed, and the phase stays. -/
theorem reconciled_finalizes (hw : w.Present) (hf : w.plan.finalizes = true) :
    containsFinalizer (w.reconciled r).snr.current snrFinalizer =
        !containsFinalizer w.snr.current snrFinalizer ∧
      (w.reconciled r).snr.current.status.phase = w.snr.current.status.phase := by
  have hdoes := reconciled_does (r := r) hw
  unfold Does at hdoes
  rw [if_pos hf] at hdoes
  constructor
  · obtain ⟨store, status, hend, hstore⟩ := reconciled_end (r := r) hw
    rw [hend]
    show containsFinalizer store.current snrFinalizer = _
    rw [hstore]
    exact hdoes.finalizer
  · have hphase := hdoes.phase
    unfold Cluster.reconciled
    rw [eval_reconcileManager r hw.live]
    cases hgone : (stepsAlone r w).2.gone with
    | true =>
      -- an object that is gone is not written any more
      have hend := Outline.alone_wp (wp_reconcileEnd_kept (r := r) (m := (stepsAlone r w).1.2)
        (P := fun w' => w'.gone = true ∧ w'.snr = (stepsAlone r w).2.snr)
        (fun _ _ hlive h => nomatch hlive.symm.trans h.1) (stepsAlone r w).1.1 ⟨hgone, rfl⟩)
      rw [hend.2, hdoes.status]
    | false =>
      rw [Outline.alone_wp (alone_reconcileEnd (r := r) (stepsAlone r w).1.1
        ⟨hgone, hdoes.version⟩), hdoes.status]
      exact phase_returned_same hphase

theorem finalizers_reconciled (hw : w.Present) (hf : w.plan.finalizes = true) :
    (w.reconciled r).snr.current.finalizers ≠ w.snr.current.finalizers := by
  intro hsame
  have hfinalizer := (reconciled_finalizes (r := r) hw hf).1
  unfold containsFinalizer at hfinalizer
  rw [hsame] at hfinalizer
  exact Bool.eq_not_self _ |>.mp hfinalizer

/-- The cluster after a reconcile that carries out the plan. -/
structure Cluster.After (w : Cluster) (r : Reconciler) (w' : Cluster) : Prop where
  status : ∃ t, (w.snr.current.status.phase ≠ none ∨ w.plan.phase = none →
      t = w.snr.current.status.timeAssumedRebooted) ∧
    w'.snr.current = { w.snr.current with
      status := (returnedBy r.decode w.snr.current.status
        ⟨t, w.plan.phase.or w.snr.current.status.phase, w.snr.current.status.lastError,
          assignAll w.plan.reasons w.now w.snr.current.status.conditions⟩
        w.plan.recorded).serialize }
  world : ∃ store assumed, w' = { w.performed w.plan assumed with snr := store }

theorem performed_snr (plan : Plan) (assumed : List Assumption) :
    (w.performed plan assumed).snr = w.snr := by
  unfold Cluster.performed
  cases targetNode w w.snr.current <;> rfl

theorem performed_gone (plan : Plan) (assumed : List Assumption) :
    (w.performed plan assumed).gone = w.gone := by
  unfold Cluster.performed
  cases targetNode w w.snr.current <;> rfl

theorem after_reconciled (r : Reconciler) (hw : w.Present) (hf : w.plan.finalizes = false) :
    w.After r (w.reconciled r) := by
  have hdoes := reconciled_does (r := r) hw
  unfold Does at hdoes
  rw [hf] at hdoes
  obtain ⟨hrep, hversion, ⟨t, hstatus, ht⟩, assumed, hworld⟩ := hdoes
  obtain ⟨store, status, hend, hstore⟩ := reconciled_end (r := r) hw
  have hcurrent : Current (stepsAlone r w).1.2 (stepsAlone r w).2 := by
    rw [hworld]
    exact ⟨(performed_gone _ _).trans hw.live, hversion.trans (by rw [performed_snr])⟩
  have hstored := Outline.alone_wp (alone_reconcileEnd (r := r) (stepsAlone r w).1.1 hcurrent)
  rw [show ((reconcileEnd r (stepsAlone r w).1.1 (stepsAlone r w).1.2).eval serve
    (stepsAlone r w).2).2 = w.reconciled r by
      unfold Cluster.reconciled
      rw [eval_reconcileManager r hw.live], hend] at hstored
  change store.current.status = _ at hstored
  rw [returned_eq, hrep, hstatus, hworld, performed_snr] at hstored
  rw [hworld, performed_snr] at hstore
  refine ⟨⟨t, ht, ?_⟩, store, assumed, by rw [hend, hworld]⟩
  rw [hend]
  show store.current = _
  rw [hstore] at hstored ⊢
  rw [show status = _ from hstored]
  rfl

end Reconciled

end SelfNodeRemediation
