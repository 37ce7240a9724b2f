import SelfNodeRemediation.TaintOutline
import SelfNodeRemediation.Walk

/-!
# The taints follow the finalizer and the phase

`reconcileManager_taints` proves `ReconcileManager` against the outline of the
taints, function by function, and `taints_owned` reads off what holds over whole
runs: the NoSchedule taint is on the target node only while the
SelfNodeRemediation exists with its finalizer, and the out-of-service taint only
while it also has the phase Reboot-Completed.
-/

namespace SelfNodeRemediation

open Interaction Versioned

/-! ## 1. What the copies know -/

theorem taintOutline_client (t : Target) : Client false (taintOutline t) where
  exec h := h
  reads {c w} h _ := by cases c <;> trivial

/-- A fact that stays true in a steady world. -/
def Undisturbed (t : Target) (P : Cluster → Prop) : Prop := ∀ w w', Steady t w w' → P w → P w'

theorem Undisturbed.stable {t : Target} {P : Cluster → Prop} (h : Undisturbed t P) :
    (taintOutline t).Stable P :=
  fun w w' hp he => h w w' (SafeOthers.steady he) hp

theorem Undisturbed.and {t : Target} {P R : Cluster → Prop} (hP : Undisturbed t P)
    (hR : Undisturbed t R) : Undisturbed t fun w => P w ∧ R w :=
  fun w w' hs h => ⟨hP w w' hs h.1, hR w w' hs h.2⟩

theorem undisturbed_const {t : Target} {p : Prop} : Undisturbed t fun _ => p := fun _ _ _ h => h

/-- The copy is fresh, and what only the reconcile changes is stored as the copy
has it; so is the strategy in phase Reboot-Completed. Once remediation was under
way the copy has the finalizer, unless it was read as stopped. -/
structure Owned (t : Target) (snr : Revision SNR) (w : Cluster) : Prop where
  fresh : Fresh w snr
  names : t.Names snr.value
  phase : w.snr.current.status.phase = snr.value.status.phase
  strategy : snr.value.status.phase = some rebootCompletedPhase →
    w.snr.current.remediationStrategy = snr.value.remediationStrategy
  finalizer : Finalized w ↔ containsFinalizer snr.value snrFinalizer = true
  stopped : isStoppedByNHC snr.value = true → isStoppedByNHC w.snr.current = true
  underway : Underway snr.value.status.phase →
    containsFinalizer snr.value snrFinalizer = true ∨ isStoppedByNHC snr.value = true

theorem owned_undisturbed (t : Target) (snr : Revision SNR) : Undisturbed t (Owned t snr) :=
  fun _ _ hs h => ⟨h.fresh.mono hs.versions, h.names, hs.phase.trans h.phase,
    fun hp => (hs.strategy (h.phase.trans hp)).1.trans (h.strategy hp),
    hs.finalized.trans h.finalizer, fun hstop => hs.stopped (h.stopped hstop), h.underway⟩

/-- The copy is owned whatever happens to everything but the stored object. -/
theorem Owned.of_snr_eq {t : Target} {snr : Revision SNR} {w w' : Cluster} (h : Owned t snr w)
    (hsnr : w'.snr = w.snr) : Owned t snr w' := by
  obtain ⟨hfresh, hnames, hphase, hstrategy, hfin, hstop, hunderway⟩ := h
  unfold Fresh at hfresh
  unfold Finalized at hfin
  rw [← hsnr] at hfresh hphase hstrategy hfin hstop
  exact ⟨hfresh, hnames, hphase, hstrategy, hfin, hstop, hunderway⟩

theorem owned_robust (t : Target) (snr : Revision SNR) : Robust (taintOutline t) (Owned t snr) where
  stable := (owned_undisturbed t snr).stable
  aside hc he h := h.of_snr_eq (Exec.aside he hc).1

theorem taint_reading {t : Target} {P : Cluster → Prop} (hP : Undisturbed t P) :
    Reading (taintOutline t) AnyError P :=
  (taintOutline_client t).reading (fun _ _ => trivial) hP.stable

theorem owned_reading (t : Target) (snr : Revision SNR) :
    Reading (taintOutline t) AnyError (Owned t snr) :=
  taint_reading (owned_undisturbed t snr)

/-- The copy as it is read. -/
theorem owned_read {t : Target} {w : Cluster} (hi : TaintInv t w) : Owned t w.snr.read w where
  fresh := ⟨w.snr.current, w.snr.current.status.conditions, Store.version_resourceVersion, rfl⟩
  names := hi.fixed.names
  phase := rfl
  strategy _ := rfl
  finalizer := Iff.rfl
  stopped := id
  underway := hi.underway

/-- A copy of the target node has each of the two taints that the node has, and
may be written back. It was found, and is found as long as there is the
finalizer. -/
structure Knows (t : Target) (node : Node) (w : Cluster) : Prop where
  name : node.name = t.nodeName
  noSchedule : Tainted w t.nodeName nodeNoScheduleTaint →
    taintExists node.taints nodeNoScheduleTaint = true
  outOfService : Tainted w t.nodeName outOfServiceTaint →
    taintExists node.taints outOfServiceTaint = true
  justified : Justified t node.taints w
  found : Finalized w → t.Found w

theorem found_undisturbed (t : Target) : Undisturbed t fun w => Finalized w → t.Found w :=
  fun _ _ hs h hfin => hs.found (hs.finalized.mp hfin) (h (hs.finalized.mp hfin))

theorem knows_undisturbed (t : Target) (node : Node) : Undisturbed t (Knows t node) :=
  fun w w' hs h => ⟨h.name, fun ht => h.noSchedule (hs.noSchedule ht),
    fun ht => h.outOfService (hs.outOfService ht), h.justified.steady hs,
    found_undisturbed t w w' hs h.found⟩

theorem untainted_undisturbed (t : Target) : Undisturbed t (Untainted t) :=
  fun _ _ hs h => ⟨fun ht => h.1 (hs.noSchedule ht), fun ht => h.2 (hs.outOfService ht)⟩

theorem Knows.untainted {t : Target} {node : Node} {w : Cluster} (h : Knows t node w)
    (hns : taintExists node.taints nodeNoScheduleTaint = false)
    (hoos : taintExists node.taints outOfServiceTaint = false) : Untainted t w :=
  ⟨fun ht => Bool.eq_false_iff.mp hns (h.noSchedule ht),
    fun ht => Bool.eq_false_iff.mp hoos (h.outOfService ht)⟩

/-- The node as it is read. -/
theorem knows_read {t : Target} {node : Node} {w : Cluster} (hi : TaintInv t w)
    (hfound : Finalized w → t.Found w) (h : w.nodes t.nodeName = some node) : Knows t node w := by
  have hread : ∀ taint, Tainted w t.nodeName taint → taintExists node.taints taint = true := by
    rintro taint ⟨node', hnode, htaint⟩
    rw [h] at hnode
    cases hnode
    exact htaint
  refine ⟨hi.fixed.nodes node h, hread _, hread _, ?_, hfound⟩
  exact ⟨fun ht => hi.taints.1 ⟨node, h, ht⟩, fun ht => hi.taints.2 ⟨node, h, ht⟩⟩

/-! ## 2. The target node -/

section Nodes

variable {t : Target} {m : Mem} {w : Cluster}

/-- A Machine that is missing holds no taint. -/
theorem untainted_of_missing {ns name : String} (hi : TaintInv t w)
    (hmachine : t.machine = some (ns, name)) (hmissing : w.machines ns name = none) :
    ¬ Tainted w t.nodeName nodeNoScheduleTaint ∧ ¬ Tainted w t.nodeName outOfServiceTaint := by
  have hnot : ¬ t.Found w := fun hfound => by
    have hsome := hfound ns name hmachine
    rw [hmissing] at hsome
    cases hsome
  exact ⟨fun ht => hnot (hi.taints.1 ht).2, fun ht => hnot (hi.taints.2 ht).1.2⟩

/-- What `getNodeFromSnr` finds out about the target node: it finds it, or an error that
says nothing of it, or that neither taint is on it. -/
theorem wp_getNodeFromSnr_owned (ho : Owned t m.snr w) :
    (taintOutline t).wp (getNodeFromSnr m)
      (Leaves (fun node w => Owned t m.snr w ∧ Knows t node w)
        (fun e w => Owned t m.snr w ∧ (e.isNotFound = true → Untainted t w)) m) w := by
  have howned := owned_undisturbed t m.snr
  have hF (e : GoErr) : Undisturbed t fun w =>
      Owned t m.snr w ∧ (e.isNotFound = true → Untainted t w) :=
    howned.and fun w w' hs h he => untainted_undisturbed t w w' hs (h he)
  have hG (name : String) : Undisturbed t fun w =>
      name = t.nodeName ∧ Owned t m.snr w ∧ (Finalized w → t.Found w) :=
    undisturbed_const.and (howned.and (found_undisturbed t))
  refine wp_getNodeFromSnr_leaves (fun e => (hF e).stable) (fun name => taint_reading (hG name))
    (fun node => (howned.and (knows_undisturbed t node)).stable) ?_ ?_
  · refine wp_getNodeName_leaves (fun e => (hF e).stable) (owned_reading t m.snr)
      (fun name => (hG name).stable) ho ?_ ?_
    · intro hdirect
      obtain ⟨hmachine, hname⟩ := ho.names.direct hdirect
      exact ⟨hname, ho, fun _ _ _ hkey => nomatch hmachine.symm.trans hkey⟩
    · intro ref hnhc howner answer w w' hi ho he
      obtain rfl := Exec.read he rfl
      have hmachine := ho.names.machine hnhc howner
      obtain ⟨hok, hnot⟩ := Exec.getMachine he
      refine ⟨fun machine name hanswer hnodeRef => ?_,
        fun _ e _ _ hvalue => ⟨ho, fun hisNot => nomatch hvalue.symm.trans hisNot⟩,
        fun e hanswer => ⟨ho, fun hisNot => ?_⟩⟩
      · have hstored := hok machine hanswer
        refine ⟨hi.fixed.nodeRef _ _ machine name hmachine hstored hnodeRef, ho, ?_⟩
        intro _ ns key hkey
        cases hmachine.symm.trans hkey
        rw [hstored]
        rfl
      · exact untainted_of_missing hi hmachine (hnot e hanswer hisNot)
  · rintro name answer w w' hi ⟨rfl, ho, hfound⟩ he
    obtain rfl := Exec.read he rfl
    obtain ⟨hok, hnot⟩ := Exec.getNode he
    refine ⟨fun node hanswer => ⟨ho, knows_read hi hfound (hok node hanswer)⟩,
      fun e hanswer => ⟨ho, fun hisNot => ?_⟩⟩
    have hno (taint : Taint) : ¬ Tainted w' t.nodeName taint := by
      rintro ⟨node, hsome, -⟩
      cases (hnot e hanswer hisNot).symm.trans hsome
    exact ⟨hno _, hno _⟩

/-- A copy of the target node that a function returns, of which `Q` holds. -/
def NodeSent (t : Target) (Q : Node → Prop) (m : Mem) (node : Node) (w : Cluster) : Prop :=
  Owned t m.snr w ∧ Knows t node w ∧ Q node

theorem nodeSent_undisturbed {Q : Node → Prop} (node : Node) :
    Undisturbed t (NodeSent t Q m node) :=
  (owned_undisturbed t m.snr).and ((knows_undisturbed t node).and undisturbed_const)

/-- The target node after a patch that changed its taints. -/
theorem knows_patched {node base : Node} {taints : List Taint} (hi : TaintInv t w)
    (hname : base.name = t.nodeName) (hnode : w.nodes base.name = some node)
    (hne : base.taints ≠ taints) (hj : Justified t taints w) (hfound : Finalized w → t.Found w)
    (mode : DecodeMode) :
    Knows t (mode.node (patchedNode base { base with taints := taints } node)
        { base with taints := taints })
      (w.setNode base.name (patchedNode base { base with taints := taints } node)) ∧
    (mode.node (patchedNode base { base with taints := taints } node)
        { base with taints := taints }).taints = taints := by
  obtain ⟨hdecoded, htaints⟩ := decode_patched (n := node) hne mode
  rw [patchedNode_of_ne hne] at hdecoded htaints
  have hset (taint : Taint) (ht : Tainted (w.setNode base.name { node with taints := taints })
      t.nodeName taint) : taintExists taints taint = true := by
    obtain ⟨node', hnode', htaint⟩ := ht
    change Function.update w.nodes base.name _ t.nodeName = some node' at hnode'
    rw [hname, Function.update_self] at hnode'
    cases hnode'
    exact htaint
  rw [patchedNode_of_ne hne]
  refine ⟨⟨?_, ?_, ?_, ?_, hfound⟩, htaints⟩
  · exact hdecoded.trans (hi.fixed.nodes node (hname ▸ hnode))
  · rw [htaints]
    exact hset _
  · rw [htaints]
    exact hset _
  · rw [htaints]
    exact hj

/-- A patch of the target node's taints. -/
theorem patches_owned {node : Node} {taints : List Taint} {P : Cluster → Prop} {Q : Node → Prop}
    (hname : node.name = t.nodeName) (hne : node.taints ≠ taints)
    (hP : ∀ w, P w → Owned t m.snr w ∧ Justified t taints w ∧ (Finalized w → t.Found w))
    (hQ : ∀ node' : Node, node'.taints = taints → Q node') (mode : DecodeMode) :
    Patches (taintOutline t) mode node { node with taints := taints } P (NodeSent t Q m)
      fun _ => Owned t m.snr where
  allowed _ hw _ := (hP _ hw).2.1
  done {_ w _} hi hw he := by
    obtain ⟨ho, hj, hfound⟩ := hP w hw
    have ho' := ho.of_snr_eq (Exec.aside he rfl).1
    cases Exec.patchNode he with
    | done hnode =>
      obtain ⟨hk, htaints⟩ := knows_patched hi hname hnode hne hj hfound mode
      exact ⟨ho', hk, hQ _ htaints⟩
  failed _ hw he := (hP _ hw).1.of_snr_eq (Exec.aside he rfl).1

theorem wp_addTaint (r : Reconciler) (taint : Taint) {node : Node} (ho : Owned t m.snr w)
    (hk : Knows t node w)
    (hj : ∀ now, Justified t (withTaint taint now node).taints w) :
    (taintOutline t).wp (addTaint r taint node m)
      (Leaves (NodeSent t (fun _ => True) m) (fun _ => Owned t m.snr) m) w := by
  have howned := owned_undisturbed t m.snr
  have hP : Undisturbed t fun w => Owned t m.snr w ∧ Knows t node w ∧
      ∀ now, Justified t (withTaint taint now node).taints w :=
    howned.and ((knows_undisturbed t node).and fun _ _ hs h now => (h now).steady hs)
  refine wp_addTaint_leaves (fun _ => howned.stable) (taint_reading hP)
    (fun node => (nodeSent_undisturbed node).stable)
    (fun _ => ⟨ho, hk, trivial⟩) ?_ ⟨ho, hk, hj⟩
  intro now
  refine patches_owned hk.name (fun heq => ?_) (fun w hw => ⟨hw.1, hw.2.2 now, hw.2.1.found⟩)
    (fun _ _ => trivial) r.decode
  exact List.cons_ne_nil _ _ (List.self_eq_append_right.mp heq)

/-- Without the taint there are fewer taints to justify. -/
theorem Justified.withoutTaint {taint : Taint} {taints : List Taint} (h : Justified t taints w) :
    Justified t (deleteTaint taints taint).1 w :=
  ⟨fun ht => h.1 (taintExists_of_deleteTaint ht), fun ht => h.2 (taintExists_of_deleteTaint ht)⟩

/-- The node copy comes back without the taint, and with no other. -/
def Removed (taint : Taint) (node node' : Node) : Prop :=
  taintExists node'.taints taint = false ∧
    ∀ other, taintExists node.taints other = false → taintExists node'.taints other = false

theorem wp_removeTaint (r : Reconciler) (taint : Taint) {node : Node} (ho : Owned t m.snr w)
    (hk : Knows t node w) :
    (taintOutline t).wp (removeTaint r taint node m)
      (Leaves (NodeSent t (Removed taint node) m) (fun _ => Owned t m.snr) m) w := by
  have howned := owned_undisturbed t m.snr
  refine wp_removeTaint_leaves (howned.and (knows_undisturbed t node)).stable
    (fun node => (nodeSent_undisturbed node).stable) (fun _ => howned.stable)
    (fun habsent => ⟨ho, hk, habsent, fun _ h => h⟩) (fun hexists => ?_) ⟨ho, hk⟩
  have hfewer (other : Taint) (h : taintExists node.taints other = false) :
      taintExists (deleteTaint node.taints taint).1 other = false :=
    Bool.eq_false_iff.mpr fun hother => Bool.eq_false_iff.mp h (taintExists_of_deleteTaint hother)
  refine patches_owned hk.name (deleteTaint_of_exists hexists).2
    (fun w hw => ⟨hw.1, hw.2.justified.withoutTaint, hw.2.found⟩) (fun node' htaints => ?_) r.decode
  unfold Removed
  rw [htaints]
  exact ⟨taintExists_deleteTaint node.taints taint, hfewer⟩

end Nodes

/-! ## 3. The finalizer -/

/-- What is known of the copy on the way, until its phase may be stored. -/
def taintStages (t : Target) : Stages Cluster where
  read m := Owned t m.snr
  checked m _ := Owned t m.snr
  begun m w := Owned t m.snr w ∧ isStoppedByNHC m.snr.value = false
  missing m _ := Owned t m.snr
  found m node w := (Owned t m.snr w ∧ isStoppedByNHC m.snr.value = false) ∧ Knows t node w
  chosen m node strategy w :=
    ((Owned t m.snr w ∧ isStoppedByNHC m.snr.value = false) ∧ Knows t node w) ∧
      (m.snr.value.status.phase = some rebootCompletedPhase → w.runtimeStrategy = strategy)
  ended m w := Writable t m.snr.value.status.phase w

section Finalizers

variable {t : Target} {m : Mem} {w : Cluster} {r : Reconciler} {node : Node}

theorem Owned.writable {snr : Revision SNR} (h : Owned t snr w) (hi : TaintInv t w) :
    Writable t snr.value.status.phase w :=
  h.phase ▸ hi.writable

/-- What may be stored does not depend on the stored status. -/
theorem Writable.storeStatus {phase : Option String} {status : Status} (h : Writable t phase w) :
    Writable t phase (w.storeStatus status) := by
  have hcurrent : (w.storeStatus status).snr.current = { w.snr.current with status := status } :=
    Store.putIfChanged_current
  refine ⟨h.1, fun hu => ?_⟩
  unfold Finalized
  rw [hcurrent]
  exact h.2 hu

theorem taint_storing (t : Target) :
    Storing false (taintOutline t) AnyError (taintStages t).ended := by
  refine .of_phase (S := Writable t) (taintOutline_client t)
    (fun phase => Undisturbed.stable ?_) ?_ id id ?_
  · exact fun _ _ hs h => Writable.steady h hs
  · exact fun hi => TaintInv.writable hi
  · intro base changed phase w a w' he _ h
    rcases (Exec.patchSNRStatus he).world with rfl | ⟨-, rfl⟩
    · exact h
    · exact h.storeStatus

/-- An `Update` of a copy in which only the finalizers were changed. -/
theorem updates_owned (t : Target) (r : Reconciler) (m : Mem) :
    Updates (taintOutline t) r AnyError (taintStages t).ended m fun w =>
      w.snr.current.status.phase = m.snr.value.status.phase ∧ FinalizerEdit w m.snr ∧
        (containsFinalizer m.snr.value snrFinalizer = false → Releasable t w) := by
  refine (taint_storing t).updates (Undisturbed.stable ?_) (fun _ hw => hw.2) ?_
  · rintro w w' hs ⟨hphase, ⟨snr, status, hv, hedit⟩, hrelease⟩
    refine ⟨hs.phase.trans hphase, ⟨snr, status, hs.versions _ snr hv, hedit⟩, fun hno => ?_⟩
    obtain ⟨huntainted, hstop⟩ := hrelease hno
    exact ⟨untainted_undisturbed t w w' hs huntainted,
      fun hu => hs.stopped (hstop (hs.phase ▸ hu))⟩
  · intro w a w' hw he hi'
    show Writable t m.snr.value.status.phase w'
    rw [← hw.1, ← Exec.updateSNR_status he]
    exact TaintInv.writable hi'

theorem Owned.failed {e : GoErr} (hi : TaintInv t w) (ho : Owned t m.snr w) :
    Failed AnyError (taintStages t).ended m e w :=
  ⟨ho.writable hi, trivial⟩

theorem wp_addFinalizer_owned (hi : TaintInv t w) (ho : Owned t m.snr w) :
    (taintOutline t).wp (addFinalizer r m) (Ends AnyError (taintStages t).ended) w := by
  refine wp_addFinalizer_ends (taint_storing t).stable (fun _ => ho.writable hi)
    (updates_owned t r _) fun hdel => ⟨?_, ho.fresh.edit_add hdel, fun hno => ?_⟩
  · exact ho.phase.trans
      (congrArg Status.phase (status_addFinalizerTo m.snr.value snrFinalizer)).symm
  · exact nomatch (contains_addFinalizerTo _ _).symm.trans hno

/-- The finalizer is removed when neither taint is left, and a remediation under
way was stopped. -/
theorem wp_removeFinalizer_owned (ho : Owned t m.snr w) (hu : Untainted t w)
    (hstop : Underway m.snr.value.status.phase → isStoppedByNHC m.snr.value = true)
    (hdel : m.snr.value.deletionTimestamp.isSome = true) :
    (taintOutline t).wp (removeFinalizer r m) (Ends AnyError (taintStages t).ended) w :=
  wp_removeFinalizer_ends (taint_storing t).stable (updates_owned t r _)
    ⟨ho.phase, ho.fresh.edit_remove hdel,
      fun _ => ⟨hu, fun h => ho.stopped (hstop (ho.phase ▸ h))⟩⟩

/-- `recoverNode` on a copy of the node from which the out-of-service taint is
gone already. -/
theorem wp_recoverNode_owned (ho : Owned t m.snr w) (hk : Knows t node w)
    (hoos : taintExists node.taints outOfServiceTaint = false)
    (hstop : Underway m.snr.value.status.phase → isStoppedByNHC m.snr.value = true)
    (hdel : m.snr.value.deletionTimestamp.isSome = true) :
    (taintOutline t).wp (recoverNode r node m) (Ends AnyError (taintStages t).ended) w := by
  refine wp_recoverNode_ends (taint_storing t).stable
    (P := fun w => Owned t m.snr w ∧ Untainted t w) ?_
    (fun _ _ h => wp_removeFinalizer_owned h.1 h.2 hstop hdel) fun _ hi h => h.1.writable hi
  refine Leaves.wp_mono (wp_removeTaint r nodeNoScheduleTaint ho hk) ?_
    fun _ _ hi ho => ho.failed hi
  rintro node' w - ⟨ho, hk', hns, hfewer⟩
  exact ⟨ho, hk'.untainted hns (hfewer _ hoos)⟩

theorem wp_stoppedByNHC_owned (hi : TaintInv t w) (ho : Owned t m.snr w)
    (hstop : isStoppedByNHC m.snr.value = true) :
    (taintOutline t).wp (stoppedByNHC r m) (Ends AnyError (taintStages t).ended) w := by
  have hS := taint_storing t
  cases hdel : m.snr.value.deletionTimestamp with
  | none =>
    refine wp_stoppedByNHC_live hS.stable hdel ?_
    exact wp_updateConditions_ends (hS.reading (hS.stable m)) (ho.writable hi) rfl
      fun _ _ _ _ h _ => h
  | some _ =>
    have hdel : m.snr.value.deletionTimestamp.isSome = true := hdel ▸ rfl
    refine wp_stoppedByNHC_deleted hS.stable hdel
      (G := NodeSent t (fun node => taintExists node.taints outOfServiceTaint = false) m)
      (wp_getNodeFromSnr_owned ho)
      (fun _ _ _ h hnot => wp_removeFinalizer_owned h.1 (h.2 hnot) (fun _ => hstop) hdel)
      (fun _ _ hi h => h.1.failed hi) (fun node w _ h => ?_)
      fun node w _ h => wp_recoverNode_owned h.1 h.2.1 h.2.2 (fun _ => hstop) hdel
    exact Leaves.wp_mono (wp_removeTaint r outOfServiceTaint h.1 h.2)
      (fun _ _ _ h => ⟨h.1, h.2.1, h.2.2.1⟩) fun _ _ hi ho => ho.failed hi

end Finalizers

/-! ## 4. The phases -/

section Phases

variable {t : Target} {m : Mem} {w : Cluster} {r : Reconciler} {node : Node}

/-- The out-of-service taint is on the node in phase Reboot-Completed only. -/
theorem Owned.not_outOfService {snr : Revision SNR} (h : Owned t snr w) (hi : TaintInv t w)
    (hp : getPhase snr.value ≠ .rebootCompleted) : ¬ Tainted w t.nodeName outOfServiceTaint :=
  fun ht => hp (getPhase_reboot (h.phase.symm.trans (hi.taints.2 ht).2.1))

theorem Owned.not_taintExists {snr : Revision SNR} {node : Node} (h : Owned t snr w)
    (hk : Knows t node w) (hp : getPhase snr.value ≠ .rebootCompleted) :
    taintExists node.taints outOfServiceTaint = false :=
  Bool.eq_false_iff.mpr fun ht =>
    hp (getPhase_reboot (h.phase.symm.trans (hk.justified.2 ht).2.1))

/-- The taint may be added with the finalizer, before cleanup. -/
theorem Owned.justified (ho : Owned t m.snr w) (hk : Knows t node w)
    (hp : getPhase m.snr.value ≠ .rebootCompleted)
    (hcontains : containsFinalizer m.snr.value snrFinalizer = true) (now : Time) :
    Justified t (withTaint nodeNoScheduleTaint now node).taints w := by
  have hfin := ho.finalizer.mpr hcontains
  refine ⟨fun _ => ⟨hfin, hk.found hfin⟩, fun ht => ?_⟩
  unfold withTaint at ht
  rw [taintExists_append, ho.not_taintExists hk hp] at ht
  cases ht

theorem wp_prepareReboot_owned (ho : Owned t m.snr w) (hk : Knows t node w)
    (hp : getPhase m.snr.value = .fencingStarted) :
    (taintOutline t).wp (prepareReboot r node m) (Ends AnyError (taintStages t).ended) w := by
  have hnot : getPhase m.snr.value ≠ .rebootCompleted := hp ▸ nofun
  have hboth := (owned_undisturbed t m.snr).and (knows_undisturbed t node)
  refine wp_prepareReboot_ends (taint_storing t).stable (G := fun _ => Owned t m.snr)
    (Keeps.failed (keeps_isNodeRebootCapable (taint_reading hboth) node ⟨ho, hk⟩)
      fun _ hi h => h.1.writable hi) (fun _ _ => trivial) (fun _ hi h => h.1.writable hi)
    (fun _ _ hi h => wp_addFinalizer_owned hi h.1) (fun hcontains w _ h => ?_) ?_
  · exact Leaves.wp_mono (wp_addTaint r _ h.1 h.2 (h.1.justified h.2 hnot hcontains))
      (fun _ _ _ h => h.1) fun _ _ hi ho => ho.failed hi
  · intro hcontains node' w _ ho
    refine Outline.wp_mono (wp_setTimeAssumedRebooted (owned_reading t m.snr) node'
      (fun _ _ _ _ _ => trivial)
      (fun _ _ _ _ _ _ ho he => (owned_robust t m.snr).aside rfl he ho) ho) ?_
    rintro res w hi ⟨ho, ⟨e, rfl⟩ | ⟨time, rfl⟩⟩
    · exact ⟨nofun, fun _ _ => ho.failed hi⟩
    · refine ⟨fun _ => ⟨fun ht => absurd ht (ho.not_outOfService hi hnot), fun _ => ?_⟩, nofun⟩
      exact .inl (ho.finalizer.mpr hcontains)

theorem wp_waitForNodeRebooted_owned (ho : Owned t m.snr w)
    (hp : getPhase m.snr.value = .preRebootCompleted) :
    (taintOutline t).wp (waitForNodeRebooted m) (Ends AnyError (taintStages t).ended) w := by
  have hkeeps : Keeps (taintOutline t) AnyError (Owned t m.snr) m w wasNodeRebooted :=
    keeps_wasNodeRebooted (owned_reading t m.snr) fails_any ho
  refine wp_waitForNodeRebooted_ends (taint_storing t).stable
    (hkeeps.failed fun _ hi ho => ho.writable hi) (fun _ _ hi ho => ho.writable hi) ?_
  intro _ w hi ho
  have hphase := ho.phase.trans ((phase_of_getPhase _).2.1 hp)
  exact ⟨fun _ => rfl, fun _ => TaintInv.underway hi (.inl hphase)⟩

/-- What the removal of resources leaves when it is done: no out-of-service
taint. -/
def RemovalDone (t : Target) (m : Mem) (waitTime : Duration) (w : Cluster) : Prop :=
  Owned t m.snr w ∧ (waitTime = 0 → ¬ Tainted w t.nodeName outOfServiceTaint)

theorem removalDone_undisturbed (waitTime : Duration) : Undisturbed t (RemovalDone t m waitTime) :=
  (owned_undisturbed t m.snr).and fun _ _ hs h hzero ht => h hzero (hs.outOfService ht)

/-- In phase Reboot-Completed the strategy stays. -/
theorem strategy_robust {strategy : RemediationStrategyType}
    (hp : m.snr.value.status.phase = some rebootCompletedPhase) :
    Robust (taintOutline t) fun w => Owned t m.snr w ∧ w.runtimeStrategy = strategy where
  stable := by
    rintro w w' ⟨ho, hrun⟩ he
    have hs := SafeOthers.steady he
    exact ⟨owned_undisturbed t m.snr w w' hs ho,
      (hs.strategy (ho.phase.trans hp)).runtimeStrategy.trans hrun⟩
  aside := by
    rintro c w res w' hc he ⟨ho, hrun⟩
    have hsnr := (Exec.aside he hc).1
    have hsame : SameStrategy w w' := ⟨by rw [hsnr], Exec.isOutOfServiceTaintGA he hc⟩
    exact ⟨ho.of_snr_eq hsnr, hsame.runtimeStrategy.trans hrun⟩

/-- The strategy without the taint: the taint is not there to begin with. -/
theorem wp_deleteResourcesWrapper_owned (ho : Owned t m.snr w)
    (hp : m.snr.value.status.phase = some rebootCompletedPhase)
    (hrun : w.runtimeStrategy = .resourceDeletion) :
    (taintOutline t).wp (deleteResourcesWrapper node m)
      (Leaves (RemovalDone t m) (Failed AnyError (taintStages t).ended m) m) w := by
  have hkeeps := keeps_deleteResourcesWrapper (m := m)
    ((taint_storing t).beside (strategy_robust hp)) node ⟨ho, hrun⟩ (fun _ _ _ => trivial)
    fun _ _ _ _ => trivial
  refine Leaves.wp_mono (hkeeps.failed fun _ hi h => h.1.writable hi) (fun _ w hi h => ?_)
    fun _ _ _ h => h
  refine ⟨h.1, fun _ ht => ?_⟩
  have hoos := (TaintInv.taints hi).2 ht
  cases h.2.symm.trans hoos.2.2

theorem wp_useOutOfServiceTaint_owned (ho : Owned t m.snr w) (hk : Knows t node w)
    (hrun : w.runtimeStrategy = .outOfServiceTaint)
    (hp : m.snr.value.status.phase = some rebootCompletedPhase)
    (hcontains : containsFinalizer m.snr.value snrFinalizer = true) :
    (taintOutline t).wp (useOutOfServiceTaint r node m)
      (Leaves (RemovalDone t m) (Failed AnyError (taintStages t).ended m) m) w := by
  have hfin := ho.finalizer.mpr hcontains
  have hj (now : Time) : Justified t (withTaint outOfServiceTaint now node).taints w :=
    ⟨fun _ => ⟨hfin, hk.found hfin⟩,
      fun _ => ⟨⟨hfin, hk.found hfin⟩, ho.phase.trans hp, hrun⟩⟩
  refine Leaves.wp_mono (wp_useOutOfServiceTaint_leaves (D := RemovalDone t m)
    (fun _ => (owned_robust t m.snr).stable)
    (fun node => taint_reading (nodeSent_undisturbed node))
    (fun d => (removalDone_undisturbed d).stable) fails_any
    (wp_addTaint r outOfServiceTaint ho hk hj) (fun node w _ h => ?_)
    (fun _ _ _ hne h => ⟨h.1, fun hzero => absurd hzero hne⟩) fun _ _ _ _ h => h.1)
    (fun _ _ _ h => h) fun _ _ hi ho => Owned.failed hi ho
  refine Leaves.wp_mono (wp_removeTaint r outOfServiceTaint h.1 h.2.1) ?_ fun _ _ _ h => h
  rintro node' w - ⟨ho, hk', hremoved, -⟩
  exact ⟨ho, fun _ ht => Bool.eq_false_iff.mp hremoved (hk'.outOfService ht)⟩

theorem wp_handleRebootCompletedPhase_owned {rmNodeResources : Node → M Duration}
    (hrm : (taintOutline t).wp (rmNodeResources node m)
      (Leaves (RemovalDone t m) (Failed AnyError (taintStages t).ended m) m) w) :
    (taintOutline t).wp (handleRebootCompletedPhase rmNodeResources node m)
      (Ends AnyError (taintStages t).ended) w := by
  have hS := taint_storing t
  refine wp_handleRebootCompletedPhase_ends hS.stable hrm (fun _ _ hi h => h.1.writable hi) ?_
  intro w _ h
  have hstored : Writable t (some fencingCompletedPhase) w :=
    ⟨fun ht => absurd ht (h.2 rfl), fun hu => absurd hu not_underway_fencingCompleted⟩
  exact wp_updateConditions_ends (hS.reading (hS.stable (m.setPhase fencingCompletedPhase)))
    hstored rfl fun _ _ _ _ h _ => h

end Phases

/-! ## 5. The manager -/

section Manager

variable {t : Target} {m : Mem} {w : Cluster}

/-- In phase Reboot-Completed the strategy that was chosen is the one of the
stored object. -/
theorem chosen_stable (m : Mem) (node : Node) (strategy : RemediationStrategyType) :
    (taintOutline t).Stable ((taintStages t).chosen m node strategy) := by
  refine Undisturbed.stable ?_
  rintro w w' hs ⟨⟨⟨ho, hstop⟩, hk⟩, hrun⟩
  refine ⟨⟨⟨owned_undisturbed t m.snr w w' hs ho, hstop⟩, knows_undisturbed t node w w' hs hk⟩, ?_⟩
  exact fun hp => (hs.strategy (ho.phase.trans hp)).runtimeStrategy.trans (hrun hp)

theorem wp_getRuntimeStrategy_owned {node : Node} (h : (taintStages t).found m node w) :
    (taintOutline t).wp (getRuntimeStrategy m.snr.value m)
      (Leaves ((taintStages t).chosen m node) (Failed AnyError (taintStages t).ended m) m) w := by
  have hend (res : Except GoErr RemediationStrategyType × Mem) : (taintOutline t).Stable (Leaves
      ((taintStages t).chosen m node) (Failed AnyError (taintStages t).ended m) m res) :=
    stable_leaves (chosen_stable m node)
      (fun _ => ((taint_storing t).stable m).and Outline.stable_const) res
  have hfound : Undisturbed t ((taintStages t).found m node) :=
    ((owned_undisturbed t m.snr).and undisturbed_const).and (knows_undisturbed t node)
  unfold getRuntimeStrategy
  split
  · next hauto =>
    refine Session.wp_call hfound.stable h (fun _ _ _ => trivial) ?_
    intro w ga w' _ h he _
    obtain rfl := Exec.read he rfl
    have hga : w'.isOutOfServiceTaintGA = ga := by
      cases he with
      | served => rfl
      | failed _ hr => cases hr
      | lost _ hr => cases hr
    have hrun (hp : m.snr.value.status.phase = some rebootCompletedPhase) :
        w'.runtimeStrategy = if ga then .outOfServiceTaint else .resourceDeletion := by
      unfold Cluster.runtimeStrategy
      rw [h.1.1.strategy hp, if_pos hauto, hga]
    cases ga with
    | true => exact Session.wp_ret (hend (.ok _, m)) (leaves_ok ⟨h, hrun⟩)
    | false => exact Session.wp_ret (hend (.ok _, m)) (leaves_ok ⟨h, hrun⟩)
  · next hnot =>
    refine Session.wp_ret (hend (.ok _, m)) (leaves_ok ⟨h, fun hp => ?_⟩)
    unfold Cluster.runtimeStrategy
    rw [h.1.1.strategy hp, if_neg hnot]

theorem Owned.withConditions (ho : Owned t m.snr w) (conditions : List Condition)
    (reason : Option ConditionReason) : Owned t (m.withConditions conditions reason).snr w :=
  ⟨ho.fresh.withConditions conditions reason, ho.names, ho.phase, ho.strategy, ho.finalizer,
    ho.stopped, ho.underway⟩

theorem taint_walk (t : Target) (r : Reconciler) :
    Walk (taintOutline t) r AnyError (taintStages t) where
  values _ _ := trivial
  stable := (taint_storing t).stable
  config {m _} ho := Keeps.failed (keeps_isConfigurationExist (owned_reading t m.snr) ho)
    fun _ hi ho => ho.writable hi
  disabled {m _} hi ho := wp_disabledNoConfig_ends
    ((taint_storing t).reading ((taint_storing t).stable m)) (Owned.writable ho hi)
    (taint_storing t).stable fun _ _ _ h _ => h
  stopped hstop hi ho := wp_stoppedByNHC_owned hi ho hstop
  start {m _} hstop ho := wp_markStarted_ends (owned_reading t m.snr) ho
    (fun m => (owned_robust t m.snr).stable.and Outline.stable_const)
    (fun _ conditions set _ _ ho _ => ⟨ho.withConditions conditions set, hstop⟩)
    fun _ => ⟨ho, hstop⟩
  target h := Leaves.wp_mono (wp_getNodeFromSnr_owned h.1)
    (fun _ _ _ hread => ⟨⟨hread.1, h.2⟩, hread.2⟩) fun _ _ _ hread => hread.1
  absent {m _ _} hi ho := wp_nodeNotFound_ends (taint_storing t).stable
    (fun _ => wp_updateConditions_ends
      ((taint_storing t).reading ((taint_storing t).stable m)) (Owned.writable ho hi) rfl
      fun _ _ _ _ h _ => h) fun _ => Owned.writable ho hi
  excluded hi h := Owned.writable h.1.1 hi
  strategy h := wp_getRuntimeStrategy_owned h
  unhandled hi h := Owned.writable h.1.1.1 hi
  prepare hp _ h := wp_prepareReboot_owned h.1.1.1 h.1.2 hp
  wait hp _ h := wp_waitForNodeRebooted_owned h.1.1.1 hp
  delete hp _ h := wp_handleRebootCompletedPhase_owned
    (wp_deleteResourcesWrapper_owned h.1.1.1 ((phase_of_getPhase _).2.2.1 hp)
      (h.2 ((phase_of_getPhase _).2.2.1 hp)))
  evict {m node _} hp _ h := by
    have hphase := (phase_of_getPhase _).2.2.1 hp
    -- the copy was not read as stopped, so under way it was read with the finalizer
    have hcontains := (h.1.1.1.underway (.inr hphase)).resolve_right
      (Bool.eq_false_iff.mp h.1.1.2)
    exact wp_handleRebootCompletedPhase_owned
      (wp_useOutOfServiceTaint_owned h.1.1.1 h.1.2 (h.2 hphase) hphase hcontains)
  finish {m node _ _} hp hi h := by
    obtain ⟨⟨⟨ho, -⟩, hk⟩, -⟩ := h
    refine wp_handleFencingCompletedPhase_ends (taint_storing t).stable (fun _ => ho.writable hi)
      fun hdel => wp_recoverNode_owned ho hk (ho.not_taintExists hk (hp ▸ nofun)) ?_ hdel
    rintro (hphase | hphase)
    · cases hp.symm.trans (getPhase_preReboot hphase)
    · cases hp.symm.trans (getPhase_reboot hphase)

theorem reconcileManager_taints (r : Reconciler) (w : Cluster) :
    (taintOutline t).wp (reconcileManager r) (fun _ _ => True) w := by
  refine Outline.wp_mono ((taint_storing t).reconcileManager (taint_walk t r) ?_ w)
    fun _ _ _ _ => trivial
  intro snr w hi he
  obtain ⟨-, rfl⟩ := (Exec.getSNR he rfl).2 rfl
  exact owned_read hi

end Manager

/-! ## 6. Whole runs -/

/-- A SelfNodeRemediation at its start: no phase yet, and neither taint on the
target node. -/
structure TaintStart (t : Target) (w : Cluster) : Prop where
  fixed : Fixed t w
  exists_ : w.gone = false
  phase : w.snr.current.status.phase = none
  untainted : Untainted t w

theorem TaintStart.inv {t : Target} {w : Cluster} (h : TaintStart t w) : TaintInv t w where
  fixed := h.fixed
  gone _ := h.exists_
  taints := ⟨fun ht => absurd ht h.untainted.1, fun ht => absurd ht h.untainted.2⟩
  underway hu := by
    rw [h.phase] at hu
    exact hu.elim nofun nofun

/-- The moves that leave the strategy as it is. -/
structure FixedOthers (t : Target) (w w' : Cluster) : Prop extends TaintOthers t w w' where
  strategy : SameStrategy w w'

theorem FixedOthers.safe {t : Target} {w w' : Cluster} (hm : t.machine = none)
    (h : FixedOthers t w w') : SafeOthers t w w' where
  toTaintOthers := h.toTaintOthers
  found _ _ _ _ hkey := nomatch hm.symm.trans hkey
  strategy _ := h.strategy

/-- The runs of `ReconcileManager` with fresh reads on one SelfNodeRemediation
whose node name is resolved without a Machine and whose strategy is fixed. -/
def TaintRun (r : Reconciler) (nodeName : String) (w₀ : Cluster)
    (s : State Call Resp Cluster Reconciled) : Prop :=
  Reachable (Exec false) (FixedOthers ⟨nodeName, none⟩) (reconcileManager r) w₀ s

theorem taintRun_inv {r : Reconciler} {nodeName : String} {w₀ : Cluster}
    {s : State Call Resp Cluster Reconciled} (h₀ : TaintStart ⟨nodeName, none⟩ w₀)
    (h : TaintRun r nodeName w₀ s) : TaintInv ⟨nodeName, none⟩ s.world :=
  (taintOutline ⟨nodeName, none⟩).reachable_inv (fun w _ => reconcileManager_taints r w) h₀.inv
    (h.mono fun _ _ => FixedOthers.safe rfl)

/-- In every state of every run, a taint that is on the target node is owned: the
SelfNodeRemediation exists and has its finalizer, and for the out-of-service
taint it has the phase Reboot-Completed. -/
theorem taints_owned (r : Reconciler) {nodeName : String} {w₀ : Cluster}
    (h₀ : TaintStart ⟨nodeName, none⟩ w₀) {s : State Call Resp Cluster Reconciled}
    (h : TaintRun r nodeName w₀ s) :
    (Tainted s.world nodeName nodeNoScheduleTaint →
      s.world.gone = false ∧ containsFinalizer s.world.snr.current snrFinalizer = true) ∧
    (Tainted s.world nodeName outOfServiceTaint →
      s.world.gone = false ∧ containsFinalizer s.world.snr.current snrFinalizer = true ∧
        s.world.snr.current.status.phase = some rebootCompletedPhase) := by
  have hi := taintRun_inv h₀ h
  refine ⟨fun ht => ?_, fun ht => ?_⟩
  · obtain ⟨hfin, -⟩ := hi.taints.1 ht
    exact ⟨hi.gone hfin, hfin⟩
  · obtain ⟨⟨hfin, -⟩, hphase, -⟩ := hi.taints.2 ht
    exact ⟨hi.gone hfin, hfin, hphase⟩

/-- Whether a taint is on a node can be computed. -/
theorem tainted_of_any {w : Cluster} {nodeName : String} {taint : Taint}
    (h : (w.nodes nodeName).any (fun node => taintExists node.taints taint) = true) :
    Tainted w nodeName taint := by
  cases hnode : w.nodes nodeName with
  | none => cases hnode ▸ h
  | some node =>
    rw [hnode] at h
    exact ⟨node, hnode, h⟩

/-! The small cluster with the other strategy, and with a volume attached to the
node, so that the out-of-service taint stays. -/

def taintCluster : Cluster :=
  { smallCluster with
    snr := ⟨{ smallSNR with remediationStrategy := .outOfServiceTaint }, []⟩
    volumeAttachments := [⟨"volume-1", "worker-1"⟩] }

/-- The cluster when the assumed reboot time has come. -/
def taintRebooted : Cluster :=
  { reconcileAlone (reconcileAlone taintCluster) with now := 2000000000000 }

def taintAdded : Cluster := reconcileAlone (reconcileAlone taintRebooted)

theorem taintStart_small : TaintStart ⟨"worker-1", none⟩ taintCluster := by
  have hno (taint : Taint) : ¬ Tainted taintCluster "worker-1" taint := by
    rintro ⟨node, hnode, htaint⟩
    cases hnode
    cases htaint
  refine ⟨⟨⟨.inr rfl, rfl⟩, nofun, ?_⟩, rfl, rfl, hno _, hno _⟩
  intro node hnode
  cases hnode
  rfl

theorem taintRun_reconcileAlone {nodeName : String} {w₀ w : Cluster}
    (h : TaintRun smallManager nodeName w₀ ⟨w, none⟩) :
    TaintRun smallManager nodeName w₀ ⟨reconcileAlone w, none⟩ :=
  reachable_alone (fun _ => true) (fun _ _ _ => .served) (Prog.passes_true _ w) h

theorem taintRun_small : TaintRun smallManager "worker-1" taintCluster ⟨taintAdded, none⟩ := by
  have hstart : TaintRun smallManager "worker-1" taintCluster ⟨taintCluster, none⟩ := .refl
  have htwice := taintRun_reconcileAlone (taintRun_reconcileAlone hstart)
  have hfixed := (taintRun_inv taintStart_small htwice).fixed
  have hrebooted : TaintRun smallManager "worker-1" taintCluster ⟨taintRebooted, none⟩ :=
    htwice.tail (.env ⟨⟨⟨hfixed.names, hfixed.nodeRef, hfixed.nodes⟩, id, .inl, id, id, .inl rfl⟩,
      rfl, rfl⟩)
  exact taintRun_reconcileAlone (taintRun_reconcileAlone hrebooted)

theorem taints_owned_small :
    Tainted taintAdded "worker-1" nodeNoScheduleTaint ∧
    Tainted taintAdded "worker-1" outOfServiceTaint ∧
    containsFinalizer taintAdded.snr.current snrFinalizer = true ∧
    taintAdded.snr.current.status.phase = some rebootCompletedPhase := by
  have hns : Tainted taintAdded "worker-1" nodeNoScheduleTaint :=
    tainted_of_any (by decide +kernel)
  have hoos : Tainted taintAdded "worker-1" outOfServiceTaint :=
    tainted_of_any (by decide +kernel)
  have howned := taints_owned smallManager taintStart_small taintRun_small
  dsimp only at howned
  obtain ⟨-, hfin, hphase⟩ := howned.2 hoos
  exact ⟨hns, hoos, hfin, hphase⟩

end SelfNodeRemediation
