import SelfNodeRemediation.SharedTaintOutline
import SelfNodeRemediation.Walk

/-!
# A shared NoSchedule taint

`reconcileManager_shield` proves `ReconcileManager` against the outline of a shared
NoSchedule taint, function by function: a reconcile stores a phase under way only when
the taint is on the node, and it sends a list of taints without it only for a cleanup
that is due.
-/

namespace SelfNodeRemediation.SharedTaint

open Interaction Versioned

/-! ## 1. What the copies know -/

theorem shieldOutline_client (t : Target) : Client false (shieldOutline t) where
  exec h := h.1
  reads {c w} h _ := by cases c <;> trivial

/-- A fact that stays true as long as what has happened to the object has happened. -/
def Lasting (P : Cluster → Prop) : Prop := ∀ w w', Settles w w' → P w → P w'

theorem Lasting.robust {t : Target} {P : Cluster → Prop} (h : Lasting P) :
    Robust (shieldOutline t) P where
  stable w w' hw he := h w w' (Neighbours.settles he) hw
  aside hc he hw := h _ _ (settles_of_snr_eq (Exec.aside he.1 hc).1) hw

theorem Lasting.beside {t : Target} {P : Cluster → Prop} (h : Lasting P) :
    Beside (shieldOutline t) AnyError P :=
  (shieldOutline_client t).beside (fun _ _ => trivial) h.robust

theorem Lasting.and {P R : Cluster → Prop} (hP : Lasting P) (hR : Lasting R) :
    Lasting fun w => P w ∧ R w :=
  fun w w' hs h => ⟨hP w w' hs h.1, hR w w' hs h.2⟩

/-- The copy is fresh, and what only the reconcile changes is stored as the copy has
it. -/
structure Holds (t : Target) (snr : Revision SNR) (w : Cluster) : Prop where
  fresh : Fresh w snr
  names : t.Names snr.value
  phase : w.snr.current.status.phase = snr.value.status.phase
  finalizer : Finalized w ↔ containsFinalizer snr.value snrFinalizer = true
  deleted : snr.value.deletionTimestamp.isSome = true → Deleted w

theorem holds_lasting (t : Target) (snr : Revision SNR) : Lasting (Holds t snr) :=
  fun _ _ hs h => ⟨h.fresh.mono hs.versions, h.names, hs.phase.trans h.phase,
    hs.finalized.trans h.finalizer, fun hdel => hs.deleted (h.deleted hdel)⟩

theorem due_lasting : Lasting CleanupDue := fun _ _ hs h => h.mono hs

theorem sendable_lasting (taints : List Taint) : Lasting (Sendable taints) :=
  fun _ _ hs h => h.mono hs

/-- The copy as it is read. -/
theorem holds_read {t : Target} {w : Cluster} (hi : ShieldInv t w) : Holds t w.snr.read w where
  fresh := ⟨w.snr.current, w.snr.current.status.conditions, Store.version_resourceVersion, rfl⟩
  names := hi.fixed.names
  phase := rfl
  finalizer := Iff.rfl
  deleted := id

section Copies

variable {t : Target} {snr : Revision SNR} {w : Cluster}

theorem Holds.storable (h : Holds t snr w) (hi : ShieldInv t w) :
    Storable t snr.value.status.phase w :=
  h.phase ▸ hi.storable

/-- A copy that was read as stopped is one of the versions. -/
theorem Holds.hadStop (h : Holds t snr w) (hstop : isStoppedByNHC snr.value = true) :
    HadStop w := by
  obtain ⟨read, conditions, hv, hcopy⟩ := h.fresh
  rw [hcopy] at hstop
  exact ⟨_, read, hv, hstop⟩

theorem Holds.withConditions {m : Mem} (h : Holds t m.snr w) (conditions : List Condition)
    (reason : Option ConditionReason) : Holds t (m.withConditions conditions reason).snr w :=
  ⟨h.fresh.withConditions conditions reason, h.names, h.phase, h.finalizer, h.deleted⟩

end Copies

/-! ## 2. The target node -/

/-- A copy of the target node. While the SelfNodeRemediation is active a taint that the
copy has is on the node, and from Pre-Reboot-Completed on the copy has it. -/
structure Seen (t : Target) (node : Node) (w : Cluster) : Prop where
  name : node.name = t.nodeName
  shows : Active w → taintExists node.taints nodeNoScheduleTaint = true → Unschedulable t w
  shown : Finalized w → Underway w.snr.current.status.phase →
    taintExists node.taints nodeNoScheduleTaint = true

section Nodes

variable {t : Target} {m : Mem} {w : Cluster}

theorem seen_stable (t : Target) (node : Node) : (shieldOutline t).Stable (Seen t node) := by
  intro w w' h he
  have hs := Neighbours.settles he
  refine ⟨h.name, fun hactive hnode => ?_, fun hf hu => ?_⟩
  · -- the neighbours take the taint away only from objects that are not active
    have hactive := hs.active.mp hactive
    exact Neighbours.taint he hactive (h.shows hactive hnode)
  · exact h.shown (hs.finalized.mp hf) (hs.phase ▸ hu)

/-- The node as it is read. -/
theorem seen_read {node : Node} (hi : ShieldInv t w) (h : w.nodes t.nodeName = some node) :
    Seen t node w := by
  refine ⟨hi.fixed.nodes node h, fun _ htaint => ⟨node, h, htaint⟩, fun hf hu => ?_⟩
  obtain ⟨node', hnode', htaint⟩ := hi.shielded hf hu
  rw [h] at hnode'
  cases hnode'
  exact htaint

/-- Under way the list of the copy may be sent. -/
theorem Seen.sendable {node : Node} (h : Seen t node w) (hi : ShieldInv t w)
    (hu : Underway w.snr.current.status.phase) : Sendable node.taints w :=
  (hi.underway hu).imp (fun hf => h.shown hf hu) fun hstop => ⟨hstop.1, .inr hstop.2⟩

theorem holds_reading (t : Target) (snr : Revision SNR) :
    Reading (shieldOutline t) AnyError (Holds t snr) :=
  (holds_lasting t snr).beside.toReading

theorem holds_stable (t : Target) (snr : Revision SNR) :
    (shieldOutline t).Stable (Holds t snr) :=
  (holds_reading t snr).stable

theorem shield_reading {t : Target} {P : Cluster → Prop} (hP : (shieldOutline t).Stable P) :
    Reading (shieldOutline t) AnyError P :=
  (shieldOutline_client t).reading (fun _ _ => trivial) hP

/-- What `getNodeFromSnr` finds is a copy of the target node. -/
theorem wp_getNodeFromSnr (h : Holds t m.snr w) :
    (shieldOutline t).wp (getNodeFromSnr m)
      (Leaves (fun node w => Holds t m.snr w ∧ Seen t node w) (fun _ => Holds t m.snr) m) w := by
  have hholds := holds_stable t m.snr
  have hG (name : String) : (shieldOutline t).Stable fun w =>
      name = t.nodeName ∧ Holds t m.snr w := Outline.stable_const.and hholds
  refine wp_getNodeFromSnr_leaves (fun _ => hholds) (fun name => shield_reading (hG name))
    (fun node => hholds.and (seen_stable t node)) ?_ ?_
  · refine wp_getNodeName_leaves (fun _ => hholds) (holds_reading t m.snr) hG h
      (fun hdirect => ⟨(h.names.direct hdirect).2, h⟩) ?_
    intro ref hnhc howner answer w w' hi h he
    obtain rfl := Exec.read he.1 rfl
    refine ⟨fun machine name hanswer hnodeRef => ⟨?_, h⟩, fun _ _ _ _ _ => h, fun _ _ => h⟩
    exact hi.fixed.nodeRef _ _ machine name (h.names.machine hnhc howner)
      ((Exec.getMachine he.1).1 machine hanswer) hnodeRef
  · rintro name answer w w' hi ⟨rfl, h⟩ he
    obtain rfl := Exec.read he.1 rfl
    exact ⟨fun node hanswer => ⟨h, seen_read hi ((Exec.getNode he.1).1 node hanswer)⟩,
      fun _ _ => h⟩

end Nodes

/-! ## 3. Taints -/

section Taints

variable {t : Target} {m : Mem} {w : Cluster} {r : Reconciler} {node : Node}

/-- A function of the taints ends with a copy whose list may be sent. -/
def Sent (t : Target) (m : Mem) (node : Node) (w : Cluster) : Prop :=
  Holds t m.snr w ∧ Sendable node.taints w

theorem sent_robust (node : Node) : Robust (shieldOutline t) (Sent t m node) :=
  ((holds_lasting t m.snr).and (sendable_lasting node.taints)).robust

/-- A patch of a node's taints with a list that may be sent. -/
theorem patches_sendable {taints : List Taint} (hne : node.taints ≠ taints)
    (hsend : ∀ w, Sendable node.taints w → Sendable taints w) (mode : DecodeMode) :
    Patches (shieldOutline t) mode node { node with taints := taints } (Sent t m node) (Sent t m)
      fun _ => Holds t m.snr where
  allowed _ hw := hsend _ hw.2
  done _ hw he := by
    have hw' := (sent_robust node).aside rfl he hw
    cases Exec.patchNode he.1 with
    | done _ =>
      refine ⟨hw'.1, ?_⟩
      rw [(decode_patched hne mode).2]
      exact hsend _ hw'.2
  failed _ hw he := ((sent_robust node).aside rfl he hw).1

theorem wp_addOutOfServiceTaint (h : Sent t m node w) :
    (shieldOutline t).wp (addOutOfServiceTaint r node m)
      (Leaves (Sent t m) (fun _ => Holds t m.snr) m) w := by
  refine wp_addTaint_leaves (fun _ => holds_stable t m.snr)
    (shield_reading (sent_robust node).stable) (fun node => (sent_robust node).stable)
    (fun _ => h) (fun now => ?_) h
  refine patches_sendable (fun heq => ?_) (fun w hsend => hsend.imp (fun htaint => ?_) id) r.decode
  · exact List.cons_ne_nil _ _ (List.self_eq_append_right.mp heq)
  · rw [taintExists_append, htaint]
    rfl

theorem wp_removeOutOfServiceTaint (h : Sent t m node w) :
    (shieldOutline t).wp (removeOutOfServiceTaint r node m)
      (Leaves (Sent t m) (fun _ => Holds t m.snr) m) w := by
  refine wp_removeTaint_leaves (sent_robust node).stable (fun node => (sent_robust node).stable)
    (fun _ => holds_stable t m.snr) (fun _ => h) (fun hexists => ?_) h
  refine patches_sendable (deleteTaint_of_exists hexists).2
    (fun w hsend => hsend.imp (fun htaint => ?_) id) r.decode
  exact taintExists_deleteTaint_of_ne (by decide) htaint

/-- What `useOutOfServiceTaint` sends keeps the NoSchedule taint. -/
theorem wp_useOutOfServiceTaint (h : Sent t m node w) :
    (shieldOutline t).wp (useOutOfServiceTaint r node m)
      (Leaves (fun _ => Holds t m.snr) (fun _ => Holds t m.snr) m) w := by
  have hholds := holds_stable t m.snr
  exact wp_useOutOfServiceTaint_leaves (fun _ => hholds)
    (fun node => shield_reading (sent_robust node).stable) (fun _ => hholds) fails_any
    (wp_addOutOfServiceTaint h)
    (fun _ _ _ h => Leaves.wp_mono (wp_removeOutOfServiceTaint h) (fun _ _ _ h => h.1)
      fun _ _ _ h => h) (fun _ _ _ _ h => h.1) fun _ _ _ _ h => h.1

end Taints

/-! ## 4. The finalizer -/

/-- What is known of the copy on the way, until its phase may be stored. -/
def shieldStages (t : Target) : Stages Cluster where
  read m := Holds t m.snr
  checked m _ := Holds t m.snr
  begun m := Holds t m.snr
  missing m _ := Holds t m.snr
  found m node w := Holds t m.snr w ∧ Seen t node w
  chosen m node _ w := Holds t m.snr w ∧ Seen t node w
  ended m w := Storable t m.snr.value.status.phase w

section Finalizers

variable {t : Target} {m : Mem} {w : Cluster} {r : Reconciler} {node : Node}

theorem shield_storing (t : Target) :
    Storing false (shieldOutline t) AnyError (shieldStages t).ended := by
  refine .of_phase (S := Storable t) (shieldOutline_client t) ?_ ?_ id id ?_
  · exact fun _ _ _ h he => h.mono he.settles he.taint
  · exact fun hi => ShieldInv.storable hi
  · intro base changed phase w a w' he hsame h
    rcases he.1.patchSNRStatus.world with rfl | ⟨-, rfl⟩
    · exact h
    · exact h.mono (settles_storeStatus (if_pos hsame.symm)) fun _ h => h

/-- An `Update` of a copy in which only the finalizers were changed. -/
theorem updates_held (t : Target) (r : Reconciler) (m : Mem) :
    Updates (shieldOutline t) r AnyError (shieldStages t).ended m fun w =>
      w.snr.current.status.phase = m.snr.value.status.phase ∧ FinalizerEdit w m.snr ∧
        (containsFinalizer m.snr.value snrFinalizer = false →
          Underway m.snr.value.status.phase → HadStop w) := by
  refine (shield_storing t).updates (Lasting.robust ?_).stable
    (fun _ hw => ⟨hw.2.1, fun hno hu => hw.2.2 hno (hw.1 ▸ hu)⟩) ?_
  · rintro w w' hs ⟨hphase, ⟨snr, status, hv, hedit⟩, hrelease⟩
    exact ⟨hs.phase.trans hphase, ⟨snr, status, hs.versions _ snr hv, hedit⟩,
      fun hno hu => (hrelease hno hu).mono hs⟩
  · intro w a w' hw he hi'
    show Storable t m.snr.value.status.phase w'
    rw [← hw.1, ← Exec.updateSNR_status he.1]
    exact ShieldInv.storable hi'

theorem Holds.failed {e : GoErr} (hi : ShieldInv t w) (h : Holds t m.snr w) :
    Failed AnyError (shieldStages t).ended m e w :=
  ⟨h.storable hi, trivial⟩

theorem wp_addFinalizer (hi : ShieldInv t w) (h : Holds t m.snr w) :
    (shieldOutline t).wp (addFinalizer r m) (Ends AnyError (shieldStages t).ended) w := by
  refine wp_addFinalizer_ends (shield_storing t).stable (fun _ => h.storable hi)
    (updates_held t r _) fun hdel => ⟨?_, h.fresh.edit_add hdel, fun hno => ?_⟩
  · exact h.phase.trans
      (congrArg Status.phase (status_addFinalizerTo m.snr.value snrFinalizer)).symm
  · exact nomatch (contains_addFinalizerTo _ _).symm.trans hno

/-- The finalizer is removed from a remediation under way only if it was stopped. -/
theorem wp_removeFinalizer (h : Holds t m.snr w)
    (hstop : Underway m.snr.value.status.phase → HadStop w)
    (hdel : m.snr.value.deletionTimestamp.isSome = true) :
    (shieldOutline t).wp (removeFinalizer r m) (Ends AnyError (shieldStages t).ended) w :=
  wp_removeFinalizer_ends (shield_storing t).stable (updates_held t r _)
    ⟨h.phase, h.fresh.edit_remove hdel, fun _ => hstop⟩

/-- The cleanup of a SelfNodeRemediation. -/
theorem wp_recoverNode (h : Holds t m.snr w) (hdue : CleanupDue w)
    (hstop : Underway m.snr.value.status.phase → HadStop w)
    (hdel : m.snr.value.deletionTimestamp.isSome = true) :
    (shieldOutline t).wp (recoverNode r node m) (Ends AnyError (shieldStages t).ended) w := by
  have hlasting : Lasting fun w => (Holds t m.snr w ∧ CleanupDue w) ∧
      (Underway m.snr.value.status.phase → HadStop w) :=
    ((holds_lasting t m.snr).and due_lasting).and fun _ _ hs h hu => (h hu).mono hs
  have hremove := keeps_removeTaint (m := m) (hlasting.beside (t := t)) r nodeNoScheduleTaint node
    ⟨⟨h, hdue⟩, hstop⟩ fun _ _ hw => .inr hw.1.2
  -- the patch leaves the object alone, so what was known of the copy still holds
  exact wp_recoverNode_ends (shield_storing t).stable
    (hremove.failed fun _ hi hw => hw.1.1.storable hi)
    (fun _ _ hw => wp_removeFinalizer hw.1.1 hw.2 hdel) fun _ hi hw => hw.1.1.storable hi

theorem wp_stoppedByNHC (hi : ShieldInv t w) (h : Holds t m.snr w)
    (hstop : isStoppedByNHC m.snr.value = true) :
    (shieldOutline t).wp (stoppedByNHC r m) (Ends AnyError (shieldStages t).ended) w := by
  have hS := shield_storing t
  cases hdel : m.snr.value.deletionTimestamp with
  | none =>
    refine wp_stoppedByNHC_live hS.stable hdel ?_
    exact wp_updateConditions_ends (hS.reading (hS.stable m)) (h.storable hi) rfl
      fun _ _ _ _ h _ => h
  | some _ =>
    have hdel : m.snr.value.deletionTimestamp.isSome = true := hdel ▸ rfl
    -- the object may be under way here: the stop makes its cleanup due
    have hdue {w : Cluster} (h : Holds t m.snr w) : CleanupDue w :=
      ⟨h.deleted hdel, .inr (h.hadStop hstop)⟩
    exact wp_stoppedByNHC_deleted hS.stable hdel (wp_getNodeFromSnr h)
      (fun _ _ _ h _ => wp_removeFinalizer h (fun _ => h.hadStop hstop) hdel)
      (fun _ _ hi h => h.failed hi)
      (fun _ _ _ h => Leaves.wp_mono (wp_removeOutOfServiceTaint ⟨h.1, .inr (hdue h.1)⟩)
        (fun _ _ _ h => h) fun _ _ hi h => h.failed hi)
      fun _ _ _ h => wp_recoverNode h.1 (hdue h.1) (fun _ => h.1.hadStop hstop) hdel

end Finalizers

/-! ## 5. The phases -/

section Phases

variable {t : Target} {m : Mem} {w : Cluster} {r : Reconciler} {node : Node}

/-- The taint is on the node, and stays while the SelfNodeRemediation is active. -/
def Guarded (t : Target) (m : Mem) (w : Cluster) : Prop :=
  Holds t m.snr w ∧ Active w ∧ Unschedulable t w

theorem guarded_stable : (shieldOutline t).Stable (Guarded t m) := by
  rintro w w' ⟨h, hactive, htaint⟩ he
  have hs := Neighbours.settles he
  exact ⟨holds_lasting t m.snr w w' hs h, hs.active.mpr hactive,
    Neighbours.taint he hactive htaint⟩

/-- With its finalizer, and before the first phase, the copy is of an active object. -/
theorem Holds.active {snr : Revision SNR} (h : Holds t snr w)
    (hcontains : containsFinalizer snr.value snrFinalizer = true)
    (hphase : snr.value.status.phase = none) : Active w :=
  ⟨h.finalizer.mpr hcontains, .inl (h.phase.trans hphase)⟩

theorem unschedulable_patched {base node : Node} {taints : List Taint}
    (hname : base.name = t.nodeName) (hne : base.taints ≠ taints)
    (htaint : taintExists taints nodeNoScheduleTaint = true) :
    Unschedulable t (w.setNode base.name
      (patchedNode base { base with taints := taints } node)) := by
  rw [patchedNode_of_ne hne, hname]
  exact ⟨_, Function.update_self _ _ _, htaint⟩

/-- After `addNoScheduleTaint` the taint is on the node. -/
theorem wp_addNoScheduleTaint (h : Holds t m.snr w) (hseen : Seen t node w)
    (hcontains : containsFinalizer m.snr.value snrFinalizer = true)
    (hphase : m.snr.value.status.phase = none) :
    (shieldOutline t).wp (addNoScheduleTaint r node m)
      (Leaves (fun _ => Guarded t m) (fun _ => Holds t m.snr) m) w := by
  have hheld := (holds_lasting t m.snr).robust (t := t)
  have hactive := h.active hcontains hphase
  refine wp_addTaint_leaves (fun _ => hheld.stable) (holds_reading t m.snr)
    (fun _ => guarded_stable)
    (fun hexists => ⟨h, hactive, hseen.shows hactive hexists⟩) (fun now => ?_) h
  have hadded : taintExists (withTaint nodeNoScheduleTaint now node).taints
      nodeNoScheduleTaint = true := by
    unfold withTaint
    rw [taintExists_append]
    exact Bool.or_eq_true_iff.mpr (.inr rfl)
  have hne : node.taints ≠ (withTaint nodeNoScheduleTaint now node).taints := fun heq =>
    List.cons_ne_nil _ _ (List.self_eq_append_right.mp heq)
  refine ⟨fun _ _ => .inl hadded, fun _ h he => ?_, fun _ h he => hheld.aside rfl he h⟩
  have h' : Holds t m.snr _ := hheld.aside rfl he h
  cases Exec.patchNode he.1 with
  | done _ =>
    exact ⟨h', h'.active hcontains hphase, unschedulable_patched hseen.name hne hadded⟩

/-- The log entry of the assumed reboot time leaves the taint on the node. -/
theorem guarded_log {now : Time} {d : Duration} {w' : Cluster} {a : Unit}
    (he : (shieldOutline t).exec (.logTimeAssumedRebooted now d) w a w') (h : Guarded t m w) :
    Guarded t m w' := by
  have hs := settles_of_snr_eq (Exec.aside he.1 rfl).1
  have htaint : Unschedulable t w' := by
    rcases Exec.world he.1 with rfl | rfl
    · exact h.2.2
    · exact h.2.2
  exact ⟨holds_lasting t _ _ _ hs h.1, hs.active.mpr h.2.1, htaint⟩

theorem wp_prepareReboot (h : Holds t m.snr w) (hseen : Seen t node w)
    (hphase : m.snr.value.status.phase = none) :
    (shieldOutline t).wp (prepareReboot r node m) (Ends AnyError (shieldStages t).ended) w := by
  have hS := shield_storing t
  -- a reconcile that adds the finalizer ends with it, so the taint comes in a later one
  refine wp_prepareReboot_ends hS.stable (G := fun _ => Guarded t m)
    (Keeps.failed (keeps_isNodeRebootCapable
      (hS.reading ((holds_stable t m.snr).and (seen_stable t node))) node ⟨h, hseen⟩)
      fun _ hi h => h.1.storable hi) (fun _ _ => trivial) (fun _ hi h => h.1.storable hi)
    (fun _ _ hi h => wp_addFinalizer hi h.1) (fun hcontains _ _ h => ?_) ?_
  · exact Leaves.wp_mono (wp_addNoScheduleTaint h.1 h.2 hcontains hphase) (fun _ _ _ h => h)
      fun _ _ hi h => h.failed hi
  · intro _ node' w _ h
    refine Outline.wp_mono (wp_setTimeAssumedRebooted (hS.reading guarded_stable) node'
      (fun _ _ _ _ _ => trivial) (fun _ _ _ _ _ _ h he => guarded_log he h) h) ?_
    rintro res w hi ⟨⟨h, hactive, htaint⟩, ⟨e, rfl⟩ | ⟨time, rfl⟩⟩
    · exact ⟨nofun, fun _ _ => h.failed hi⟩
    · exact ⟨fun _ _ => ⟨fun _ => ⟨hactive, htaint⟩, .inl hactive.1⟩, nofun⟩

theorem wp_waitForNodeRebooted (h : Holds t m.snr w)
    (hphase : m.snr.value.status.phase = some preRebootCompletedPhase) :
    (shieldOutline t).wp (waitForNodeRebooted m) (Ends AnyError (shieldStages t).ended) w := by
  have hS := shield_storing t
  have hkeeps : Keeps (shieldOutline t) AnyError (Holds t m.snr) m w wasNodeRebooted :=
    keeps_wasNodeRebooted (holds_reading t m.snr) fails_any h
  -- what is stored is under way already
  exact wp_waitForNodeRebooted_ends hS.stable (hkeeps.failed fun _ hi h => h.storable hi)
    (fun _ _ hi h => h.storable hi)
    fun _ _ hi h _ => ShieldInv.storable hi (.inl (h.phase.trans hphase))

theorem wp_handleRebootCompletedPhase {rmNodeResources : Node → M Duration}
    (hrm : (shieldOutline t).wp (rmNodeResources node m)
      (Leaves (fun _ => Holds t m.snr) (fun _ => Holds t m.snr) m) w) :
    (shieldOutline t).wp (handleRebootCompletedPhase rmNodeResources node m)
      (Ends AnyError (shieldStages t).ended) w := by
  have hS := shield_storing t
  refine wp_handleRebootCompletedPhase_ends hS.stable
    (Leaves.wp_mono hrm (fun _ _ _ h => h) fun _ _ hi h => h.failed hi)
    (fun _ _ hi h => h.storable hi) fun w _ _ => ?_
  have hstored : Storable t (some fencingCompletedPhase) w :=
    fun hu => absurd hu not_underway_fencingCompleted
  exact wp_updateConditions_ends (hS.reading (hS.stable (m.setPhase fencingCompletedPhase)))
    hstored rfl fun _ _ _ _ h _ => h

theorem wp_handleFencingCompletedPhase (hi : ShieldInv t w) (h : Holds t m.snr w)
    (hphase : m.snr.value.status.phase = some fencingCompletedPhase) :
    (shieldOutline t).wp (handleFencingCompletedPhase r node m)
      (Ends AnyError (shieldStages t).ended) w := by
  refine wp_handleFencingCompletedPhase_ends (shield_storing t).stable (fun _ => h.storable hi)
    fun hdel => ?_
  refine wp_recoverNode h ⟨h.deleted hdel, .inl (h.phase.trans hphase)⟩ ?_ hdel
  rw [hphase]
  exact fun hu => absurd hu not_underway_fencingCompleted

end Phases

/-! ## 6. The manager -/

theorem shield_walk (t : Target) (r : Reconciler) :
    Walk (shieldOutline t) r AnyError (shieldStages t) where
  values _ _ := trivial
  stable := (shield_storing t).stable
  config {m _} h := Keeps.failed (keeps_isConfigurationExist (holds_reading t m.snr) h)
    fun _ hi h => h.storable hi
  disabled {m _} hi h := wp_disabledNoConfig_ends
    (shield_reading ((shield_storing t).stable m)) (Holds.storable h hi) (shield_storing t).stable
    fun _ _ _ h _ => h
  stopped hstop hi h := wp_stoppedByNHC hi h hstop
  start {m _} _ h := wp_markStarted_ends (holds_reading t m.snr) h
    (fun m => holds_stable t m.snr)
    (fun _ conditions set _ _ h _ => h.withConditions conditions set) fun _ => h
  target h := wp_getNodeFromSnr h
  absent {m _ _} hi h := wp_nodeNotFound_ends (shield_storing t).stable
    (fun _ => wp_updateConditions_ends (shield_reading ((shield_storing t).stable m))
      (Holds.storable h hi) rfl fun _ _ _ _ h _ => h) fun _ => Holds.storable h hi
  excluded hi h := h.1.storable hi
  strategy {m node _} h := Keeps.failed (keeps_getRuntimeStrategy
    (shield_reading ((holds_stable t m.snr).and (seen_stable t node))) _ h)
    fun _ hi h => h.1.storable hi
  unhandled hi h := h.1.storable hi
  prepare hp _ h := wp_prepareReboot h.1 h.2 ((phase_of_getPhase _).1 hp)
  wait hp _ h := wp_waitForNodeRebooted h.1 ((phase_of_getPhase _).2.1 hp)
  delete {m node _} _ _ h := wp_handleRebootCompletedPhase
    ((keeps_deleteResourcesWrapper (holds_lasting t m.snr).beside node h.1 (fun _ _ _ => trivial)
      fun _ _ _ _ => trivial).leaves fun _ _ _ h _ => h)
  evict {m node _} hp hi h := by
    have hunderway : Underway _ := .inr (h.1.phase.trans ((phase_of_getPhase _).2.2.1 hp))
    exact wp_handleRebootCompletedPhase
      (wp_useOutOfServiceTaint ⟨h.1, h.2.sendable hi hunderway⟩)
  finish hp hi h := wp_handleFencingCompletedPhase hi h.1 ((phase_of_getPhase _).2.2.2 hp)

theorem reconcileManager_shield {t : Target} (r : Reconciler) (w : Cluster) :
    (shieldOutline t).wp (reconcileManager r) (fun _ _ => True) w := by
  refine Outline.wp_mono ((shield_storing t).reconcileManager (shield_walk t r) ?_ w)
    fun _ _ _ _ => trivial
  intro snr w hi he
  obtain ⟨-, rfl⟩ := (Exec.getSNR he.1 rfl).2 rfl
  exact holds_read hi

end SelfNodeRemediation.SharedTaint
