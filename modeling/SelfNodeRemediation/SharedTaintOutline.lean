import SelfNodeRemediation.TaintOutline

/-!
# A proof outline for a shared NoSchedule taint

The NoSchedule taint of a node that several SelfNodeRemediations target, from the side
of one of them. The others may add the taint at any time. They may remove it, but not
while this one is active: stored with its finalizer, and not done with fencing. Reads
are fresh, and any call may fail.

* `ShieldInv` is the invariant: from Pre-Reboot-Completed to Reboot-Completed the taint
  is on the node while the finalizer is there. Who has lost the finalizer in these
  phases is deleted, and was stopped by NHC.
* `CleanupDue` is what a reconcile needs to take the taint from the node, and `Granted`
  what it needs of its own object then.
* `Neighbours` are the moves of everything else.
-/

namespace SelfNodeRemediation.SharedTaint

open Interaction Versioned

/-! ## 1. The invariant -/

/-- The SelfNodeRemediation is about to be deleted. -/
def Deleted (w : Cluster) : Prop := w.snr.current.deletionTimestamp.isSome = true

instance (w : Cluster) : Decidable (Deleted w) := inferInstanceAs (Decidable (_ = true))

/-- Some version of it was stopped by NHC. -/
def HadStop (w : Cluster) : Prop :=
  ∃ n snr, w.snr.version n = some snr ∧ isStoppedByNHC snr = true

/-- It is deleted, and fencing is completed or NHC has stopped it. -/
def CleanupDue (w : Cluster) : Prop :=
  Deleted w ∧ (w.snr.current.status.phase = some fencingCompletedPhase ∨ HadStop w)

/-- It has the finalizer, and is in a phase before Fencing-Completed. -/
def Active (w : Cluster) : Prop :=
  Finalized w ∧ (w.snr.current.status.phase = none ∨ Underway w.snr.current.status.phase)

/-- The NoSchedule taint is on the target node. -/
def Unschedulable (t : Target) (w : Cluster) : Prop := Tainted w t.nodeName nodeNoScheduleTaint

structure ShieldInv (t : Target) (w : Cluster) : Prop where
  fixed : Fixed t w
  shielded : Finalized w → Underway w.snr.current.status.phase → Unschedulable t w
  underway : Underway w.snr.current.status.phase → Finalized w ∨ Deleted w ∧ HadStop w

/-! ## 2. What each call needs -/

/-- The phase may be stored: under way the taint is on the node, and stays there. -/
def Storable (t : Target) (phase : Option String) (w : Cluster) : Prop :=
  Underway phase →
    (Finalized w → Active w ∧ Unschedulable t w) ∧ (Finalized w ∨ Deleted w ∧ HadStop w)

/-- The list of taints may be put on the target node. -/
def Sendable (taints : List Taint) (w : Cluster) : Prop :=
  taintExists taints nodeNoScheduleTaint = true ∨ CleanupDue w

def ShieldAllowed (t : Target) : Call → Cluster → Prop
  | .updateSNR sent, w => FinalizerEdit w sent ∧
      (containsFinalizer sent.value snrFinalizer = false →
        Underway w.snr.current.status.phase → HadStop w)
  | .updateSNRStatus sent, w => Storable t sent.value.status.phase w
  | .patchSNRStatus base changed, _ => changed.status.phase = base.status.phase
  | .patchNode _ changed, w => Sendable changed.taints w
  | _, _ => True

/-- Where a cleanup is due, the node is patched only when the SelfNodeRemediation itself
is not under way with its finalizer. -/
def Granted : Call → Cluster → Prop
  | .patchNode _ _, w => CleanupDue w → Finalized w → ¬ Underway w.snr.current.status.phase
  | _, _ => True

/-- Moves of everything but the reconcile. -/
structure Neighbours (t : Target) (w w' : Cluster) : Prop where
  fixed : Fixed t w'
  taint : Active w → Unschedulable t w → Unschedulable t w'
  snr : w'.snr = w.snr ∨ ∃ new, w'.snr = w.snr.put new ∧
    new.status.phase = w.snr.current.status.phase ∧
    containsFinalizer new snrFinalizer = containsFinalizer w.snr.current snrFinalizer ∧
    (Deleted w → new.deletionTimestamp.isSome = true)

/-! ## 3. What stays -/

/-- The phase and the finalizer are kept, and what has happened to the object has
happened. -/
structure Settles (w w' : Cluster) : Prop where
  versions : w.snr.Extends w'.snr
  phase : w'.snr.current.status.phase = w.snr.current.status.phase
  finalized : Finalized w' ↔ Finalized w
  deleted : Deleted w → Deleted w'

theorem settles_of_snr_eq {w w' : Cluster} (h : w'.snr = w.snr) : Settles w w' := by
  constructor
  · rw [h]
    exact .refl _
  · rw [h]
  · unfold Finalized
    rw [h]
  · unfold Deleted
    rw [h]
    exact id

theorem settles_storeStatus {w : Cluster} {status : Status}
    (h : status.phase = w.snr.current.status.phase) : Settles w (w.storeStatus status) := by
  have hcurrent : (w.storeStatus status).snr.current = { w.snr.current with status := status } :=
    Store.putIfChanged_current
  refine ⟨Store.extends_putIfChanged _ _, by rw [hcurrent, h], ?_, ?_⟩
  · unfold Finalized
    rw [hcurrent]
    rfl
  · unfold Deleted
    rw [hcurrent]
    exact id

theorem Neighbours.settles {t : Target} {w w' : Cluster} (h : Neighbours t w w') :
    Settles w w' := by
  rcases h.snr with hsnr | ⟨new, hput, hphase, hfin, hdel⟩
  · exact settles_of_snr_eq hsnr
  · have hcurrent : w'.snr.current = new := by rw [hput]; rfl
    refine ⟨by rw [hput]; exact Store.extends_put _ _, by rw [hcurrent, hphase], ?_, ?_⟩
    · unfold Finalized
      rw [hcurrent, hfin]
    · unfold Deleted at *
      rw [hcurrent]
      exact hdel

theorem HadStop.mono {w w' : Cluster} (h : HadStop w) (hs : Settles w w') : HadStop w' := by
  obtain ⟨n, snr, hv, hstop⟩ := h
  exact ⟨n, snr, hs.versions n snr hv, hstop⟩

theorem Settles.stopped {w w' : Cluster} (hs : Settles w w')
    (h : Finalized w ∨ Deleted w ∧ HadStop w) : Finalized w' ∨ Deleted w' ∧ HadStop w' :=
  h.imp hs.finalized.mpr fun h => ⟨hs.deleted h.1, h.2.mono hs⟩

theorem CleanupDue.mono {w w' : Cluster} (h : CleanupDue w) (hs : Settles w w') :
    CleanupDue w' :=
  ⟨hs.deleted h.1, h.2.imp hs.phase.trans fun h => h.mono hs⟩

theorem Settles.active {w w' : Cluster} (hs : Settles w w') : Active w' ↔ Active w := by
  unfold Active
  rw [hs.finalized, hs.phase]

theorem Sendable.mono {w w' : Cluster} {taints : List Taint} (h : Sendable taints w)
    (hs : Settles w w') : Sendable taints w' :=
  h.imp id fun h => h.mono hs

/-- A phase that may be stored may be stored later, if the taint stays. -/
theorem Storable.mono {t : Target} {w w' : Cluster} {phase : Option String}
    (h : Storable t phase w) (hs : Settles w w')
    (ht : Active w → Unschedulable t w → Unschedulable t w') : Storable t phase w' := by
  intro hu
  obtain ⟨htaint, hstop⟩ := h hu
  refine ⟨fun hf => ?_, hs.stopped hstop⟩
  obtain ⟨hactive, htaint⟩ := htaint (hs.finalized.mp hf)
  exact ⟨hs.active.mpr hactive, ht hactive htaint⟩

theorem ShieldInv.mono {t : Target} {w w' : Cluster} (h : ShieldInv t w) (hs : Settles w w')
    (hfixed : Fixed t w') (ht : Active w → Unschedulable t w → Unschedulable t w') :
    ShieldInv t w' := by
  refine ⟨hfixed, fun hf hu => ?_, fun hu => hs.stopped (h.underway (hs.phase ▸ hu))⟩
  have hu : Underway w.snr.current.status.phase := hs.phase ▸ hu
  have hf := hs.finalized.mp hf
  exact ht ⟨hf, .inr hu⟩ (h.shielded hf hu)

/-- The stored phase may be stored again. -/
theorem ShieldInv.storable {t : Target} {w : Cluster} (h : ShieldInv t w) :
    Storable t w.snr.current.status.phase w :=
  fun hu => ⟨fun hf => ⟨⟨hf, .inr hu⟩, h.shielded hf hu⟩, h.underway hu⟩

/-! ## 4. The invariant is kept -/

theorem shieldInv_env {t : Target} {w w' : Cluster} (h : ShieldInv t w)
    (he : Neighbours t w w') : ShieldInv t w' :=
  h.mono he.settles he.fixed he.taint

/-- The taint on a node after a patch. -/
theorem unschedulable_patchNode {t : Target} {w : Cluster} {base changed node : Node}
    (hnode : w.nodes changed.name = some node)
    (hsend : changed.name = t.nodeName → taintExists changed.taints nodeNoScheduleTaint = true)
    (h : Unschedulable t w) :
    Unschedulable t (w.setNode changed.name (patchedNode base changed node)) := by
  obtain ⟨node', hnode', htaint⟩ := h
  rcases eq_or_ne t.nodeName changed.name with heq | hne
  · refine ⟨patchedNode base changed node, ?_, ?_⟩
    · show Function.update w.nodes changed.name _ t.nodeName = _
      rw [heq, Function.update_self]
    · unfold patchedNode
      split
      · rw [heq, hnode] at hnode'
        cases hnode'
        exact htaint
      · exact hsend heq.symm
  · refine ⟨node', ?_, htaint⟩
    show Function.update w.nodes changed.name _ t.nodeName = _
    rw [Function.update_of_ne hne, hnode']

theorem shieldInv_patchNode {t : Target} {w : Cluster} {base changed node : Node}
    (h : ShieldInv t w) (ha : Sendable changed.taints w)
    (hg : CleanupDue w → Finalized w → ¬ Underway w.snr.current.status.phase)
    (hnode : w.nodes changed.name = some node) :
    ShieldInv t (w.setNode changed.name (patchedNode base changed node)) := by
  refine ⟨⟨h.fixed.names, h.fixed.nodeRef, named_patchNode h.fixed.nodes hnode⟩,
    fun hf hu => ?_, fun hu => h.underway hu⟩
  rcases ha with htaint | hdue
  · exact unschedulable_patchNode hnode (fun _ => htaint) (h.shielded hf hu)
  · exact absurd hu (hg hdue hf)

theorem shieldInv_storeStatus {t : Target} {w : Cluster} {status : Status} (h : ShieldInv t w)
    (hw : Storable t status.phase w) : ShieldInv t (w.storeStatus status) := by
  have hcurrent : (w.storeStatus status).snr.current = { w.snr.current with status := status } :=
    Store.putIfChanged_current
  have hfin : Finalized (w.storeStatus status) ↔ Finalized w := by
    unfold Finalized
    rw [hcurrent]
    rfl
  have hstop (hh : HadStop w) : HadStop (w.storeStatus status) := by
    obtain ⟨n, snr, hv, hs⟩ := hh
    exact ⟨n, snr, Store.extends_putIfChanged _ _ n snr hv, hs⟩
  have hdel (hd : Deleted w) : Deleted (w.storeStatus status) := by
    unfold Deleted
    rw [hcurrent]
    exact hd
  refine ⟨⟨?_, h.fixed.nodeRef, h.fixed.nodes⟩, fun hf hu => ?_, fun hu => ?_⟩
  · rw [hcurrent]
    exact names_of_same rfl rfl rfl rfl h.fixed.names
  · rw [hcurrent] at hu
    exact ((hw hu).1 (hfin.mp hf)).2
  · rw [hcurrent] at hu
    exact (hw hu).2.imp hfin.mpr fun hh => ⟨hdel hh.1, hstop hh.2⟩

/-- The write of another list of finalizers. To a remediation under way the finalizer is
not added, and it is taken only from one that is deleted and was stopped. -/
theorem shieldInv_store {t : Target} {w : Cluster} {finalizers : List String} (h : ShieldInv t w)
    (hadd : finalizers.contains snrFinalizer = true → Underway w.snr.current.status.phase →
      Finalized w)
    (hremove : finalizers.contains snrFinalizer = false → Underway w.snr.current.status.phase →
      Deleted w ∧ HadStop w) :
    ShieldInv t (w.store { w.snr.current with finalizers := finalizers }) := by
  have hcurrent : (w.store { w.snr.current with finalizers := finalizers }).snr.current =
      { w.snr.current with finalizers := finalizers } := Store.putIfChanged_current
  have hfin : Finalized (w.store { w.snr.current with finalizers := finalizers }) ↔
      finalizers.contains snrFinalizer = true := by
    unfold Finalized
    rw [hcurrent]
    rfl
  have hdel (hd : Deleted w) :
      Deleted (w.store { w.snr.current with finalizers := finalizers }) := by
    unfold Deleted
    rw [hcurrent]
    exact hd
  refine ⟨⟨?_, h.fixed.nodeRef, h.fixed.nodes⟩, fun hf hu => ?_, fun hu => ?_⟩
  · rw [hcurrent]
    exact names_of_same rfl rfl rfl rfl h.fixed.names
  · rw [hcurrent] at hu
    exact h.shielded (hadd (hfin.mp hf) hu) hu
  · rw [hcurrent] at hu
    cases hc : finalizers.contains snrFinalizer with
    | true => exact .inl (hfin.mpr hc)
    | false =>
      obtain ⟨hd, n, snr, hv, hs⟩ := hremove hc hu
      exact .inr ⟨hdel hd, n, snr, Store.extends_putIfChanged _ _ n snr hv, hs⟩

theorem shieldInv_updateSNR {t : Target} {w : Cluster} {sent : Revision SNR} (hi : ShieldInv t w)
    (hedit : FinalizerEdit w sent) (hrelease : containsFinalizer sent.value snrFinalizer = false →
      Underway w.snr.current.status.phase → HadStop w)
    (hv : sent.resourceVersion = w.snr.resourceVersion) :
    ShieldInv t (w.store (updated w.snr.current sent.value)) := by
  have hsent : (updated w.snr.current sent.value).finalizers = sent.value.finalizers := rfl
  rcases hedit.stores hv with ⟨hlive, hnew⟩ | ⟨hdeleted, hnew⟩
  · rw [hnew, addFinalizerTo_eq]
    refine shieldInv_store hi (fun _ hu => ?_) fun hno => ?_
    · -- under way and not deleted, it has the finalizer already
      refine (hi.underway hu).resolve_right fun h => ?_
      have hsome := h.1
      unfold Deleted at hsome
      rw [hlive] at hsome
      cases hsome
    · have hadded := contains_addFinalizerTo w.snr.current snrFinalizer
      unfold containsFinalizer at hadded
      rw [addFinalizerTo_eq] at hadded
      exact nomatch hadded.symm.trans hno
  · rw [hnew] at hsent ⊢
    refine shieldInv_store hi (fun hyes _ => ?_) fun hno hu => ⟨hdeleted, hrelease ?_ hu⟩
    · have hremoved := contains_removeFinalizerFrom w.snr.current snrFinalizer
      exact nomatch hremoved.symm.trans hyes
    · unfold containsFinalizer
      rw [← hsent]
      exact hno

theorem shieldInv_exec {t : Target} {lagging : Bool} {c : Call} {w w' : Cluster} {r : Resp c}
    (hi : ShieldInv t w) (ha : ShieldAllowed t c w) (hg : Granted c w)
    (he : Exec lagging c w r w') : ShieldInv t w' := by
  rcases he.change with rfl | hchange
  · exact hi
  · cases hchange with
    | updateSNRStatus _ _ => exact shieldInv_storeStatus hi ha
    | updateSNR _ hv => exact shieldInv_updateSNR hi ha.1 ha.2 hv
    | @patchSNRStatus base changed _ =>
      refine shieldInv_storeStatus hi ?_
      rw [show (merged base.status.serialize changed.status.serialize
        w.snr.current.status).phase = w.snr.current.status.phase from if_pos ha.symm]
      exact hi.storable
    | patchNode hnode => exact shieldInv_patchNode hi ha hg hnode
    | logTimeAssumedRebooted | deleteAllOf | reboot =>
      exact hi.mono (settles_of_snr_eq rfl) ⟨hi.fixed.names, hi.fixed.nodeRef, hi.fixed.nodes⟩
        fun _ h => h

def shieldOutline (t : Target) : Outline Call Resp Cluster where
  exec c w r w' := Exec false c w r w' ∧ Granted c w
  env := Neighbours t
  inv := ShieldInv t
  allowed := ShieldAllowed t
  inv_env := shieldInv_env
  inv_exec hi ha he := shieldInv_exec hi ha he.2 he.1

end SelfNodeRemediation.SharedTaint
