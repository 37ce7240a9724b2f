import SelfNodeRemediation.PhaseOutline
import SelfNodeRemediation.Removal

/-!
# A proof outline for the taints

The two taints of one SelfNodeRemediation over whole runs of `ReconcileManager`
with fresh reads: any reconcile may crash, any call may fail before or after it
took effect, and between any two calls the rest of the cluster changes, the
SelfNodeRemediation may be deleted, NHC may stop it, its Machine may be deleted
and its strategy may change. Nobody else adds one of the two taints to the target
node, or touches the phase or the finalizer.

* `TaintOthers` are the moves of the others, and `SafeOthers` those that delete no
  Machine under the finalizer and change no strategy in phase Reboot-Completed.
* `TaintInv` is the invariant: a taint is backed by the finalizer and by a Machine
  that can be found, and the out-of-service taint also by the phase and the
  strategy; who is under way without the finalizer is stopped by NHC.
* `Justified` and `Writable` say what a patch of the node and a status update
  need to keep it.
-/

namespace SelfNodeRemediation

open Interaction Versioned

/-! ## 1. The invariant -/

/-- The target node, and the namespace and name of the Machine that it is resolved
through, if it is. -/
structure Target where
  nodeName : String
  machine : Option (String × String)

/-- The node name is resolved without a Machine. -/
def Direct (nodeName : String) (snr : SNR) : Prop :=
  (isOwnedByNHC snr = true ∨ isOwnedByMachine snr = none) ∧ getNodeNameDirect snr = nodeName

/-- The SelfNodeRemediation is for the target. -/
def Target.Names (t : Target) (snr : SNR) : Prop :=
  match t.machine with
  | none => Direct t.nodeName snr
  | some (ns, name) => isOwnedByNHC snr = false ∧ snr.namespace_ = ns ∧
      (isOwnedByMachine snr).map OwnerReference.name = some name

theorem Target.Names.direct {t : Target} {snr : SNR} (h : t.Names snr)
    (hdirect : isOwnedByNHC snr = true ∨ isOwnedByMachine snr = none) :
    t.machine = none ∧ getNodeNameDirect snr = t.nodeName := by
  unfold Target.Names at h
  cases hmachine : t.machine with
  | none =>
    rw [hmachine] at h
    exact ⟨rfl, h.2⟩
  | some key =>
    rw [hmachine] at h
    obtain ⟨hnhc, -, howner⟩ := h
    rcases hdirect with hdirect | hdirect
    · cases hnhc.symm.trans hdirect
    · rw [hdirect] at howner
      cases howner

theorem Target.Names.machine {t : Target} {snr : SNR} {ref : OwnerReference} (h : t.Names snr)
    (hnhc : isOwnedByNHC snr = false) (howner : isOwnedByMachine snr = some ref) :
    t.machine = some (snr.namespace_, ref.name) := by
  unfold Target.Names at h
  cases hmachine : t.machine with
  | none =>
    rw [hmachine] at h
    rcases h.1 with hdirect | hdirect
    · cases hnhc.symm.trans hdirect
    · cases howner.symm.trans hdirect
  | some key =>
    rw [hmachine] at h
    obtain ⟨-, hnamespace, hname⟩ := h
    rw [howner] at hname
    rw [hnamespace, Option.some.inj hname]

/-- A Machine that the target is resolved through exists. -/
def Target.Found (t : Target) (w : Cluster) : Prop :=
  ∀ ns name, t.machine = some (ns, name) → (w.machines ns name).isSome = true

structure Fixed (t : Target) (w : Cluster) : Prop where
  names : t.Names w.snr.current
  nodeRef : ∀ ns name machine nodeName, t.machine = some (ns, name) →
    w.machines ns name = some machine → machine.nodeRef = some nodeName → nodeName = t.nodeName
  nodes : ∀ node, w.nodes t.nodeName = some node → node.name = t.nodeName

/-- What `getRuntimeStrategy` returns for the stored object. -/
def Cluster.runtimeStrategy (w : Cluster) : RemediationStrategyType :=
  if w.snr.current.remediationStrategy = .automatic then
    if w.isOutOfServiceTaintGA then .outOfServiceTaint else .resourceDeletion
  else w.snr.current.remediationStrategy

/-- The taint is on the node. -/
def Tainted (w : Cluster) (nodeName : String) (taint : Taint) : Prop :=
  ∃ node, w.nodes nodeName = some node ∧ taintExists node.taints taint = true

def Finalized (w : Cluster) : Prop := containsFinalizer w.snr.current snrFinalizer = true

instance (w : Cluster) : Decidable (Finalized w) := inferInstanceAs (Decidable (_ = true))

/-- A phase in which a remediation has begun and cleanup is not done. -/
def Underway (phase : Option String) : Prop :=
  phase = some preRebootCompletedPhase ∨ phase = some rebootCompletedPhase

theorem not_underway_fencingCompleted : ¬ Underway (some fencingCompletedPhase) := by
  unfold Underway
  decide

/-- What the presence of the two taints needs. -/
def Backs (t : Target) (w : Cluster) (noSchedule outOfService : Prop) : Prop :=
  (noSchedule → Finalized w ∧ t.Found w) ∧
    (outOfService → (Finalized w ∧ t.Found w) ∧
      w.snr.current.status.phase = some rebootCompletedPhase ∧
      w.runtimeStrategy = .outOfServiceTaint)

structure TaintInv (t : Target) (w : Cluster) : Prop where
  fixed : Fixed t w
  gone : Finalized w → w.gone = false
  taints : Backs t w (Tainted w t.nodeName nodeNoScheduleTaint)
    (Tainted w t.nodeName outOfServiceTaint)
  underway : Underway w.snr.current.status.phase →
    Finalized w ∨ isStoppedByNHC w.snr.current = true

/-! ## 2. What each call needs -/

/-- The list of taints may be put on the target node. -/
def Justified (t : Target) (taints : List Taint) (w : Cluster) : Prop :=
  Backs t w (taintExists taints nodeNoScheduleTaint = true)
    (taintExists taints outOfServiceTaint = true)

/-- The phase may be stored. -/
def Writable (t : Target) (phase : Option String) (w : Cluster) : Prop :=
  (Tainted w t.nodeName outOfServiceTaint → phase = some rebootCompletedPhase) ∧
    (Underway phase → Finalized w ∨ isStoppedByNHC w.snr.current = true)

/-- Neither taint is on the target node. -/
def Untainted (t : Target) (w : Cluster) : Prop :=
  ¬ Tainted w t.nodeName nodeNoScheduleTaint ∧ ¬ Tainted w t.nodeName outOfServiceTaint

/-- The finalizer may be removed. -/
def Releasable (t : Target) (w : Cluster) : Prop :=
  Untainted t w ∧ (Underway w.snr.current.status.phase → isStoppedByNHC w.snr.current = true)

def TaintAllowed (t : Target) : Call → Cluster → Prop
  | .updateSNR sent, w => FinalizerEdit w sent ∧
      (containsFinalizer sent.value snrFinalizer = false → Releasable t w)
  | .updateSNRStatus sent, w => Writable t sent.value.status.phase w
  | .patchSNRStatus base changed, _ => changed.status.phase = base.status.phase
  | .patchNode _ changed, w => changed.name = t.nodeName → Justified t changed.taints w
  | _, _ => True

/-- Moves of everything but the reconcile. -/
structure TaintOthers (t : Target) (w w' : Cluster) : Prop where
  fixed : Fixed t w'
  kept : w.gone = true → w'.gone = true
  gone : w'.gone = true → w.gone = true ∨ ¬ Finalized w'
  noSchedule : Tainted w' t.nodeName nodeNoScheduleTaint → Tainted w t.nodeName nodeNoScheduleTaint
  outOfService : Tainted w' t.nodeName outOfServiceTaint → Tainted w t.nodeName outOfServiceTaint
  snr : w'.snr = w.snr ∨ ∃ new, w'.snr = w.snr.put new ∧
    new.status.phase = w.snr.current.status.phase ∧
    containsFinalizer new snrFinalizer = containsFinalizer w.snr.current snrFinalizer ∧
    (isStoppedByNHC w.snr.current = true → isStoppedByNHC new = true)

/-- What `getRuntimeStrategy` reads stays as it is. -/
def SameStrategy (w w' : Cluster) : Prop :=
  w'.snr.current.remediationStrategy = w.snr.current.remediationStrategy ∧
    w'.isOutOfServiceTaintGA = w.isOutOfServiceTaintGA

/-- The moves that delete no Machine under the finalizer, and change no strategy
in phase Reboot-Completed. -/
structure SafeOthers (t : Target) (w w' : Cluster) : Prop extends TaintOthers t w w' where
  found : Finalized w → t.Found w → t.Found w'
  strategy : w.snr.current.status.phase = some rebootCompletedPhase → SameStrategy w w'

/-! ## 3. The invariant is kept -/

/-- The object's phase, finalizer and stop are kept, no taint is added, and the
move is safe. -/
structure Steady (t : Target) (w w' : Cluster) : Prop where
  versions : w.snr.Extends w'.snr
  phase : w'.snr.current.status.phase = w.snr.current.status.phase
  finalized : Finalized w' ↔ Finalized w
  stopped : isStoppedByNHC w.snr.current = true → isStoppedByNHC w'.snr.current = true
  noSchedule : Tainted w' t.nodeName nodeNoScheduleTaint → Tainted w t.nodeName nodeNoScheduleTaint
  outOfService : Tainted w' t.nodeName outOfServiceTaint → Tainted w t.nodeName outOfServiceTaint
  found : Finalized w → t.Found w → t.Found w'
  strategy : w.snr.current.status.phase = some rebootCompletedPhase → SameStrategy w w'

theorem SafeOthers.steady {t : Target} {w w' : Cluster} (h : SafeOthers t w w') :
    Steady t w w' := by
  rcases h.snr with hsnr | ⟨new, hput, hphase, hfin, hstop⟩
  · refine ⟨by rw [hsnr]; exact .refl _, by rw [hsnr], ?_, by rw [hsnr]; exact id, h.noSchedule,
      h.outOfService, h.found, h.strategy⟩
    unfold Finalized
    rw [hsnr]
  · have hcurrent : w'.snr.current = new := by rw [hput]; rfl
    refine ⟨by rw [hput]; exact Store.extends_put _ _, by rw [hcurrent, hphase], ?_,
      by rw [hcurrent]; exact hstop, h.noSchedule, h.outOfService, h.found, h.strategy⟩
    unfold Finalized
    rw [hcurrent, hfin]

theorem SameStrategy.runtimeStrategy {w w' : Cluster} (h : SameStrategy w w') :
    w'.runtimeStrategy = w.runtimeStrategy := by
  unfold Cluster.runtimeStrategy
  rw [h.1, h.2]

theorem Steady.anchored {t : Target} {w w' : Cluster} (hs : Steady t w w')
    (h : Finalized w ∧ t.Found w) : Finalized w' ∧ t.Found w' :=
  ⟨hs.finalized.mpr h.1, hs.found h.1 h.2⟩

theorem Backs.steady {t : Target} {w w' : Cluster} {p q p' q' : Prop} (h : Backs t w p q)
    (hs : Steady t w w') (hp : p' → p) (hq : q' → q) : Backs t w' p' q' := by
  refine ⟨fun h' => hs.anchored (h.1 (hp h')), fun h' => ?_⟩
  obtain ⟨hanchor, hphase, hrun⟩ := h.2 (hq h')
  exact ⟨hs.anchored hanchor, hs.phase.trans hphase,
    (hs.strategy hphase).runtimeStrategy.trans hrun⟩

theorem Steady.or_stopped {t : Target} {w w' : Cluster} (hs : Steady t w w')
    (h : Finalized w ∨ isStoppedByNHC w.snr.current = true) :
    Finalized w' ∨ isStoppedByNHC w'.snr.current = true :=
  h.imp hs.finalized.mpr hs.stopped

theorem Justified.steady {t : Target} {w w' : Cluster} {taints : List Taint}
    (h : Justified t taints w) (hs : Steady t w w') : Justified t taints w' :=
  Backs.steady h hs id id

theorem Writable.steady {t : Target} {w w' : Cluster} {phase : Option String}
    (h : Writable t phase w) (hs : Steady t w w') : Writable t phase w' :=
  ⟨fun ht => h.1 (hs.outOfService ht), fun hu => hs.or_stopped (h.2 hu)⟩

theorem TaintInv.steady {t : Target} {w w' : Cluster} (h : TaintInv t w) (hs : Steady t w w')
    (hfixed : Fixed t w') (hgone : w'.gone = true → w.gone = true ∨ ¬ Finalized w') :
    TaintInv t w' := by
  refine ⟨hfixed, fun hf => Bool.eq_false_iff.mpr fun hg => ?_,
    h.taints.steady hs hs.noSchedule hs.outOfService, fun hu => ?_⟩
  · rcases hgone hg with hg | hnot
    · exact absurd ((h.gone (hs.finalized.mp hf)).symm.trans hg) nofun
    · exact hnot hf
  · exact hs.or_stopped (h.underway (hs.phase ▸ hu))

/-- The stored phase may be stored again. -/
theorem TaintInv.writable {t : Target} {w : Cluster} (h : TaintInv t w) :
    Writable t w.snr.current.status.phase w :=
  ⟨fun ht => (h.taints.2 ht).2.1, h.underway⟩

theorem taintInv_env {t : Target} {w w' : Cluster} (h : TaintInv t w) (he : SafeOthers t w w') :
    TaintInv t w' :=
  h.steady he.steady he.fixed he.gone

/-- The nodes after one of them is written. -/
theorem tainted_setNode {w : Cluster} {name nodeName : String} {node : Node} {taint : Taint}
    (h : Tainted (w.setNode name node) nodeName taint) :
    (name = nodeName ∧ taintExists node.taints taint = true) ∨ Tainted w nodeName taint := by
  obtain ⟨node', hnode, htaint⟩ := h
  change Function.update w.nodes name (some node) nodeName = some node' at hnode
  rcases eq_or_ne nodeName name with rfl | hne
  · rw [Function.update_self] at hnode
    cases hnode
    exact .inl ⟨rfl, htaint⟩
  · rw [Function.update_of_ne hne] at hnode
    exact .inr ⟨node', hnode, htaint⟩

theorem taintExists_patchedNode {base changed node : Node} {taint : Taint}
    (h : taintExists (patchedNode base changed node).taints taint = true) :
    taintExists changed.taints taint = true ∨ taintExists node.taints taint = true := by
  unfold patchedNode at h
  split at h
  · exact .inr h
  · exact .inl h

/-- A patch of a node with taints that are justified. -/
theorem taintInv_patchNode {t : Target} {w : Cluster} {base changed node : Node}
    (h : TaintInv t w) (ha : changed.name = t.nodeName → Justified t changed.taints w)
    (hnode : w.nodes changed.name = some node) :
    TaintInv t (w.setNode changed.name (patchedNode base changed node)) := by
  have hsource : ∀ taint, Tainted (w.setNode changed.name (patchedNode base changed node))
      t.nodeName taint → (changed.name = t.nodeName ∧ taintExists changed.taints taint = true) ∨
        Tainted w t.nodeName taint := by
    intro taint ht
    rcases tainted_setNode ht with ⟨hname, htaint⟩ | ht
    · rcases taintExists_patchedNode htaint with htaint | htaint
      · exact .inl ⟨hname, htaint⟩
      · exact .inr ⟨node, hname ▸ hnode, htaint⟩
    · exact .inr ht
  refine ⟨⟨h.fixed.names, h.fixed.nodeRef, named_patchNode h.fixed.nodes hnode⟩, h.gone,
    ⟨?_, ?_⟩, h.underway⟩
  · intro ht
    rcases hsource _ ht with ⟨hname, htaint⟩ | ht
    · exact (ha hname).1 htaint
    · exact h.taints.1 ht
  · intro ht
    rcases hsource _ ht with ⟨hname, htaint⟩ | ht
    · exact (ha hname).2 htaint
    · exact h.taints.2 ht

/-- Only these fields of the object name the target. -/
theorem names_of_same {t : Target} {old new : SNR} (hname : new.name = old.name)
    (hnamespace : new.namespace_ = old.namespace_)
    (hannotations : new.annotations = old.annotations)
    (howners : new.ownerReferences = old.ownerReferences) (h : t.Names old) : t.Names new := by
  unfold Target.Names Direct isOwnedByNHC isOwnedByMachine getNodeNameDirect at h ⊢
  rw [hname, hnamespace, hannotations, howners]
  exact h

/-- A write of the status with a phase that may be stored. -/
theorem taintInv_storeStatus {t : Target} {w : Cluster} {status : Status} (h : TaintInv t w)
    (hw : Writable t status.phase w) : TaintInv t (w.storeStatus status) := by
  have hcurrent : (w.storeStatus status).snr.current = { w.snr.current with status := status } :=
    Store.putIfChanged_current
  have hfin : Finalized (w.storeStatus status) ↔ Finalized w := by
    unfold Finalized
    rw [hcurrent]
    rfl
  have hsame : SameStrategy w (w.storeStatus status) := ⟨by rw [hcurrent], rfl⟩
  refine ⟨⟨?_, h.fixed.nodeRef, h.fixed.nodes⟩, fun hf => h.gone (hfin.mp hf),
    ⟨fun ht => ⟨hfin.mpr (h.taints.1 ht).1, (h.taints.1 ht).2⟩, fun ht => ?_⟩, fun hu => ?_⟩
  · rw [hcurrent]
    exact names_of_same rfl rfl rfl rfl h.fixed.names
  · obtain ⟨⟨hf, hfound⟩, -, hrun⟩ := h.taints.2 ht
    refine ⟨⟨hfin.mpr hf, hfound⟩, ?_, ?_⟩
    · rw [hcurrent]
      exact hw.1 ht
    · exact hsame.runtimeStrategy.trans hrun
  · rw [hcurrent] at hu ⊢
    exact (hw.2 hu).imp_left hfin.mpr

/-- The write of another list of finalizers. Without the finalizer the object has
to be releasable. -/
theorem taintInv_store {t : Target} {w : Cluster} {finalizers : List String} (h : TaintInv t w)
    (hlive : w.gone = false)
    (hrelease : finalizers.contains snrFinalizer = false → Releasable t w) :
    TaintInv t (w.store { w.snr.current with finalizers := finalizers }) := by
  have hcurrent : (w.store { w.snr.current with finalizers := finalizers }).snr.current =
      { w.snr.current with finalizers := finalizers } := Store.putIfChanged_current
  have hfin : Finalized (w.store { w.snr.current with finalizers := finalizers }) ↔
      finalizers.contains snrFinalizer = true := by
    unfold Finalized
    rw [hcurrent]
    rfl
  have hsame : SameStrategy w (w.store { w.snr.current with finalizers := finalizers }) :=
    ⟨by rw [hcurrent], rfl⟩
  refine ⟨⟨?_, h.fixed.nodeRef, h.fixed.nodes⟩, fun hf => ?_, ⟨?_, ?_⟩, ?_⟩
  · rw [hcurrent]
    exact names_of_same rfl rfl rfl rfl h.fixed.names
  · have hne : finalizers.isEmpty = false := by
      cases finalizers with
      | nil => exact absurd (hfin.mp hf) nofun
      | cons _ _ => rfl
    show (w.gone || (_ && finalizers.isEmpty)) = false
    rw [hlive, hne, Bool.and_false]
    rfl
  · intro ht
    exact ⟨hfin.mpr (Bool.not_eq_false _ ▸ fun hno => (hrelease hno).1.1 ht), (h.taints.1 ht).2⟩
  · intro ht
    obtain ⟨⟨-, hfound⟩, hphase, hrun⟩ := h.taints.2 ht
    refine ⟨⟨hfin.mpr (Bool.not_eq_false _ ▸ fun hno => (hrelease hno).1.2 ht), hfound⟩, ?_, ?_⟩
    · rw [hcurrent]
      exact hphase
    · exact hsame.runtimeStrategy.trans hrun
  · intro hu
    rw [hcurrent] at hu ⊢
    cases hc : finalizers.contains snrFinalizer with
    | true => exact .inl (hfin.mpr hc)
    | false => exact .inr ((hrelease hc).2 hu)

/-- A call that leaves the object, the nodes and the Machines alone. -/
theorem TaintInv.unchanged {t : Target} {w w' : Cluster} (hi : TaintInv t w)
    (hsnr : w'.snr = w.snr) (hgone : w'.gone = w.gone) (hnodes : w'.nodes = w.nodes)
    (hmachines : w'.machines = w.machines)
    (hga : w'.isOutOfServiceTaintGA = w.isOutOfServiceTaintGA) : TaintInv t w' := by
  have hfixed : Fixed t w' := by
    refine ⟨?_, ?_, ?_⟩
    · rw [hsnr]
      exact hi.fixed.names
    · rw [hmachines]
      exact hi.fixed.nodeRef
    · rw [hnodes]
      exact hi.fixed.nodes
  have htainted (taint : Taint) (h : Tainted w' t.nodeName taint) :
      Tainted w t.nodeName taint := by
    unfold Tainted at h
    rw [hnodes] at h
    exact h
  refine hi.steady ⟨by rw [hsnr]; exact .refl _, by rw [hsnr], ?_, by rw [hsnr]; exact id,
    htainted _, htainted _, fun _ h => ?_, fun _ => ⟨by rw [hsnr], hga⟩⟩ hfixed
    fun hg => .inl (hgone.symm.trans hg)
  · unfold Finalized
    rw [hsnr]
  · unfold Target.Found
    rw [hmachines]
    exact h

theorem taintInv_exec {t : Target} {lagging : Bool} {c : Call} {w w' : Cluster} {r : Resp c}
    (hi : TaintInv t w) (ha : TaintAllowed t c w) (he : Exec lagging c w r w') :
    TaintInv t w' := by
  rcases he.change with rfl | hchange
  · exact hi
  · cases hchange with
    | updateSNRStatus _ _ => exact taintInv_storeStatus hi ha
    | @updateSNR sent hlive hv =>
      have hsent : (updated w.snr.current sent.value).finalizers = sent.value.finalizers := rfl
      -- the update adds the finalizer or removes it
      rcases ha.1.stores hv with ⟨-, hnew⟩ | ⟨-, hnew⟩
      · rw [hnew] at hsent ⊢
        rw [addFinalizerTo_eq]
        refine taintInv_store hi hlive fun hno => ha.2 ?_
        unfold containsFinalizer
        rw [← hsent]
        exact hno
      · rw [hnew] at hsent ⊢
        refine taintInv_store hi hlive fun hno => ha.2 ?_
        unfold containsFinalizer
        rw [← hsent]
        exact hno
    | @patchSNRStatus base changed _ =>
      refine taintInv_storeStatus hi ?_
      rw [show (merged base.status.serialize changed.status.serialize
        w.snr.current.status).phase = w.snr.current.status.phase from if_pos ha.symm]
      exact hi.writable
    | patchNode hnode => exact taintInv_patchNode hi ha hnode
    | logTimeAssumedRebooted | deleteAllOf | reboot => exact hi.unchanged rfl rfl rfl rfl rfl

def taintOutline (t : Target) : Outline Call Resp Cluster where
  exec := Exec false
  env := SafeOthers t
  inv := TaintInv t
  allowed := TaintAllowed t
  inv_env := taintInv_env
  inv_exec := taintInv_exec

end SelfNodeRemediation
