import SelfNodeRemediation.Walk

/-!
# What a reconcile keeps of its copy

A relation between the copy a reconcile works on and the world survives the whole
reconcile if it survives what the reconcile does with the copy: assignments that
leave the conditions alone, conditions other than `Disabled`, an `Update`, the patch
of the last error, and calls about other objects. `Upkeep` lists these, and `Persists`
those of them that leave all but the conditions of the copy alone. With them the
functions of a reconcile end as `Walk` wants them to.
-/

namespace SelfNodeRemediation

open Interaction Versioned

/-- The copy with another condition. -/
def Mem.withCondition (now : Time) (condition : Condition) (m : Mem) : Mem :=
  m.setStatus fun s => { s with conditions := setStatusCondition now condition s.conditions }

/-- A relation between the copy and the world that survives calls about other objects, and
conditions other than `Disabled` in the copy. -/
structure Persists {W : Type} (O : Outline Call Resp W) (I : Mem → W → Prop) : Prop where
  stable : ∀ m, O.Stable (I m)
  beside : ∀ {c m w}, c.isBeside = true → O.inv w → I m w →
    O.allowed c w ∧ ∀ a w', O.exec c w a w' → I m w'
  condition : ∀ {m w now condition}, condition.type ≠ .disabled → I m w →
    I (m.withCondition now condition) w
  noted : ∀ {m w reason}, I m w → I { m with conditionsSet := reason } w

/-- A relation between the copy and the world that survives what a reconcile does. -/
structure Upkeep {W : Type} (O : Outline Call Resp W) (r : Reconciler)
    (I : Mem → W → Prop) : Prop extends Persists O I where
  assign : ∀ {m m' w}, I m w → m'.snr.resourceVersion = m.snr.resourceVersion →
    m'.snr.value.status.conditions = m.snr.value.status.conditions → I m' w
  update : ∀ {m w}, O.inv w → I m w → O.allowed (.updateSNR m.snr) w ∧
    ∀ a w', O.exec (.updateSNR m.snr) w a w' → I (m.answered r a) w'
  patch : ∀ {m w} lastError, O.inv w → I m w →
    O.allowed (.patchSNRStatus m.snr.value (m.withLastError lastError).snr.value) w ∧
    ∀ a w', O.exec (.patchSNRStatus m.snr.value (m.withLastError lastError).snr.value) w a w' →
      I ((m.withLastError lastError).answered r a) w'

variable {W : Type} {O : Outline Call Resp W} {r : Reconciler} {I : Mem → W → Prop} {m : Mem}
  {w : W} {node : Node}

/-- A session that keeps the relation keeps it when it fails. -/
theorem Keeps.upheld {α : Type} {x : M α} (hx : Keeps O AnyError (I m) m w x) :
    O.wp (x m) (Leaves (fun _ => I m) (Failed AnyError I m) m) w :=
  hx.failed fun _ _ h => h

namespace Persists

variable (hP : Persists O I)

include hP

theorem toBeside (m : Mem) : Beside O AnyError (I m) where
  stable := hP.stable m
  values _ _ := trivial
  allowed hc hi h := (hP.beside (Call.isBeside_of_isLookup hc) hi h).1
  answered hc hi h he :=
    ⟨(hP.beside (Call.isBeside_of_isLookup hc) hi h).2 _ _ he, fun _ _ => trivial⟩
  kept hc hi h he := ⟨(hP.beside hc hi h).2 _ _ he, fun _ _ => trivial⟩

theorem reading (m : Mem) : Reading O AnyError (I m) :=
  (hP.toBeside m).toReading

theorem updateConditions {reason : ConditionReason} {processing succeeded : ConditionStatus}
    (hr : reason.statuses = some (processing, succeeded)) (h : I m w) :
    O.wp (updateConditions reason m) (fun res w => res.1 = .ok () ∧ I res.2 w) w := by
  refine Outline.wp_mono (wp_updateConditions_set (hP.reading m) h hr) ?_
  rintro ⟨res, s⟩ w - ⟨hres, h, ⟨(rfl : s = m), -⟩ | ⟨t, u, (rfl : s = _)⟩⟩
  · exact ⟨hres, h⟩
  · have hprocessing : ConditionType.processing ≠ .disabled := by decide
    have hsucceeded : ConditionType.succeeded ≠ .disabled := by decide
    exact ⟨hres, hP.noted (hP.condition hsucceeded (hP.condition hprocessing h))⟩

theorem markStarted (h : I m w) :
    O.wp (markStarted m) (fun res w => res.1 = .ok () ∧ I res.2 w) w := by
  refine wp_theSNR ?_
  split
  · exact hP.updateConditions rfl h
  · exact Session.wp_pure (Outline.stable_const.and (hP.stable m)) ⟨rfl, h⟩

/-- The conditions are set on the way to the end. -/
theorem updateConditions_ends {reason : ConditionReason}
    {processing succeeded : ConditionStatus}
    (hr : reason.statuses = some (processing, succeeded)) (h : I m w) :
    O.wp (SelfNodeRemediation.updateConditions reason m) (Ends AnyError I) w :=
  Outline.wp_mono (hP.updateConditions hr h) fun _ _ _ h => ⟨h.2, fails_any⟩

theorem nodeNotFound (e : GoErr) (h : I m w) :
    O.wp (nodeNotFound e m) (Ends AnyError I) w :=
  wp_nodeNotFound_ends hP.stable (fun _ => hP.updateConditions_ends rfl h) fun _ => h

theorem removeTaint (r : Reconciler) (taint : Taint) (node : Node) (h : I m w) :
    Keeps O AnyError (I m) m w (removeTaint r taint node) :=
  keeps_removeTaint (hP.toBeside m) r taint node h fun _ hi h => (hP.beside rfl hi h).1

theorem addTaint (r : Reconciler) (taint : Taint) (node : Node) (h : I m w) :
    Keeps O AnyError (I m) m w (addTaint r taint node) :=
  keeps_addTaint (hP.toBeside m) r taint node h fun _ _ hi h => (hP.beside rfl hi h).1

theorem deleteResourcesWrapper (node : Node) (h : I m w) :
    Keeps O AnyError (I m) m w (deleteResourcesWrapper node) :=
  keeps_deleteResourcesWrapper (hP.toBeside m) node h (fun _ hi h => (hP.beside rfl hi h).1)
    fun _ _ hi h => (hP.beside rfl hi h).1

theorem useOutOfServiceTaint (r : Reconciler) (node : Node) (h : I m w) :
    Keeps O AnyError (I m) m w (useOutOfServiceTaint r node) :=
  keeps_useOutOfServiceTaint (hP.toBeside m) r node h fails_any
    (fun _ _ hi h => (hP.beside rfl hi h).1) fun _ _ hi h => (hP.beside rfl hi h).1

end Persists

namespace Upkeep

variable (hU : Upkeep O r I)

include hU

theorem updates (m : Mem) : Updates O r AnyError I m (I m) where
  stable := hU.stable m
  allowed hi h := (hU.update hi h).1
  answered hi h he _ := ⟨(hU.update hi h).2 _ _ he, fails_any⟩

theorem removeFinalizer (h : I m w) : O.wp (removeFinalizer r m) (Ends AnyError I) w :=
  wp_removeFinalizer_ends hU.stable (hU.updates _) (hU.assign h rfl rfl)

theorem addFinalizer (h : I m w) : O.wp (addFinalizer r m) (Ends AnyError I) w := by
  refine wp_addFinalizer_ends hU.stable (fun _ => h) (hU.updates _) fun _ => hU.assign h rfl ?_
  exact congrArg Status.conditions (status_addFinalizerTo m.snr.value snrFinalizer)

theorem recoverNode (node : Node) (h : I m w) :
    O.wp (recoverNode r node m) (Ends AnyError I) w :=
  wp_recoverNode_ends hU.stable (Keeps.upheld (hU.removeTaint r _ node h))
    (fun _ _ h => hU.removeFinalizer h) fun _ _ h => h

theorem stoppedByNHC (h : I m w) : O.wp (stoppedByNHC r m) (Ends AnyError I) w := by
  cases hdel : m.snr.value.deletionTimestamp with
  | none => exact wp_stoppedByNHC_live hU.stable hdel (hU.updateConditions_ends rfl h)
  | some _ =>
    exact wp_stoppedByNHC_deleted hU.stable (hdel ▸ rfl)
      (Keeps.upheld (keeps_getNodeFromSnr (hU.reading m) h))
      (fun _ _ _ h _ => hU.removeFinalizer h.1) (fun _ _ _ h => h)
      (fun node _ _ h => Keeps.upheld (hU.removeTaint r _ node h))
      fun node _ _ h => hU.recoverNode node h

theorem prepareReboot (hlog : ∀ {now d m w}, O.inv w → I m w →
      O.allowed (.logTimeAssumedRebooted now d) w ∧
        ∀ a w', O.exec (.logTimeAssumedRebooted now d) w a w' → I m w')
    (node : Node) (h : I m w) : O.wp (prepareReboot r node m) (Ends AnyError I) w := by
  refine wp_prepareReboot_ends hU.stable (P := I m) (G := fun _ => I m)
    (Keeps.upheld (keeps_isNodeRebootCapable (hU.reading m) node h)) (fun _ _ => trivial)
    (fun _ _ h => h) (fun _ _ _ h => hU.addFinalizer h)
    (fun _ _ _ h => Keeps.upheld (hU.addTaint r _ node h)) fun _ node w _ h => ?_
  refine Outline.wp_mono (wp_setTimeAssumedRebooted (hU.reading m) node
    (fun _ _ _ hi h => (hlog hi h).1) (fun _ _ _ a w' hi h he => (hlog hi h).2 a w' he) h) ?_
  rintro res w - ⟨h, ⟨e, rfl⟩ | ⟨t, rfl⟩⟩
  · exact ⟨nofun, fun _ _ => ⟨h, trivial⟩⟩
  · exact ⟨fun _ => hU.assign h rfl rfl, nofun⟩

theorem waitForNodeRebooted (h : I m w) : O.wp (waitForNodeRebooted m) (Ends AnyError I) w :=
  wp_waitForNodeRebooted_ends hU.stable
    (Keeps.upheld (keeps_wasNodeRebooted (hU.reading m) fails_any h)) (fun _ _ _ h => h)
    fun _ _ _ h => hU.assign h rfl rfl

theorem handleRebootCompletedPhase {rmNodeResources : Node → M Duration}
    (hrm : Keeps O AnyError (I m) m w (rmNodeResources node)) :
    O.wp (handleRebootCompletedPhase rmNodeResources node m) (Ends AnyError I) w :=
  wp_handleRebootCompletedPhase_ends hU.stable (Keeps.upheld hrm) (fun _ _ _ h => h)
    fun _ _ h => hU.updateConditions_ends rfl (hU.assign h rfl rfl)

theorem handleFencingCompletedPhase (node : Node) (h : I m w) :
    O.wp (handleFencingCompletedPhase r node m) (Ends AnyError I) w :=
  wp_handleFencingCompletedPhase_ends hU.stable (fun _ => h) fun _ => hU.recoverNode node h

/-- The copy may be stored in the end, if `hupdate` allows the deferred update. -/
theorem closes (hupdate : ∀ {m w}, O.inv w → I m w → O.allowed (.updateSNRStatus m.snr) w) :
    Closes O r I where
  stable := hU.stable
  update := hupdate
  patch lastError hi h := (hU.patch lastError hi h).1
  patched lastError hi h he _ := (hU.patch lastError hi h).2 _ _ he

end Upkeep

end SelfNodeRemediation
