import SelfNodeRemediation.Walk

/-!
# What becomes of a status that a reconcile assigns

`ReconcileManager` changes phase and conditions in its copy and writes them with
the deferred status update at the end. On the way the copy may be overwritten:
the answer to a write is decoded over it. This module follows the copy through a
reconcile that nobody disturbs and in which every call succeeds.

* `Outcome` is what the steps before the return leave of copy and world.
* `status_kept_iff`: phase and conditions that were assigned are stored at the
  end, exactly if `LastError` is not patched after them, and no finalizer is added
  after the conditions, or the server had nothing to overwrite them with.
* `status_lost`: the reconcile that recovers from an earlier error loses the
  phase it has reached.
-/

namespace SelfNodeRemediation

open Interaction Versioned

/-! ## 1. A world without others -/

abbrev alone : Outline Call Resp Cluster := Outline.alone serve

theorem alone_client : Client false alone where
  exec {c w r w'} h := by
    have h : serve c w = (r, w') := h
    have hserved : Exec false c w (serve c w).1 (serve c w).2 := .served
    rw [h] at hserved
    exact hserved
  reads _ _ := trivial

theorem reading_alone (P : Cluster → Prop) : Reading alone AnyError P :=
  alone_client.reading (fun _ _ => trivial) (Outline.alone_stable P)

theorem serve_updateSNR {w : Cluster} {snr : Revision SNR} (hgone : w.gone = false)
    (hv : snr.resourceVersion = w.snr.resourceVersion) :
    serve (.updateSNR snr) w = (.ok (w.store (updated w.snr.current snr.value)).snr.read,
      w.store (updated w.snr.current snr.value)) := by
  simp [serve, Cluster.updateSNR, Cluster.locked, Cluster.answer, hgone, hv]

theorem serve_updateSNRStatus {w : Cluster} {snr : Revision SNR} (hgone : w.gone = false)
    (hv : snr.resourceVersion = w.snr.resourceVersion) :
    serve (.updateSNRStatus snr) w = (.ok (w.storeStatus snr.value.status.serialize).snr.read,
      w.storeStatus snr.value.status.serialize) := by
  simp [serve, Cluster.updateSNRStatus, Cluster.locked, Cluster.answer, hgone, hv]

theorem serve_patchSNRStatus {w : Cluster} {base changed : SNR} (hgone : w.gone = false) :
    serve (.patchSNRStatus base changed) w = (.ok (w.storeStatus
        (merged base.status.serialize changed.status.serialize w.snr.current.status)).snr.read,
      w.storeStatus
        (merged base.status.serialize changed.status.serialize w.snr.current.status)) := by
  simp [serve, Cluster.patchSNRStatus, Cluster.answer, hgone]

/-! ## 2. The copy before the return -/

/-- The object is there, as it was read. -/
def Unwritten (w₀ w : Cluster) : Prop := w.snr = w₀.snr ∧ w.gone = false

theorem robust_unwritten (w₀ : Cluster) : Robust alone (Unwritten w₀) where
  stable := Outline.alone_stable _
  aside {c w r w'} hc he h := by
    obtain ⟨hsnr, hgone⟩ := (alone_client.exec he).aside hc
    exact ⟨hsnr.trans h.1, hgone.trans h.2⟩

/-- Only conditions have been assigned to the copy. -/
structure Copied (w₀ : Cluster) (m : Mem) : Prop where
  copy : ∃ conditions, m.snr = ⟨w₀.snr.resourceVersion, { w₀.snr.current with
    status := { w₀.snr.current.status with conditions := conditions } }⟩
  phaseSet : m.phaseSet = none
  conditionsSet : ∀ reason, m.conditionsSet = some reason →
    reason.Shown m.snr.value.status.conditions

/-- What has been assigned to the copy is in it. -/
structure Assigned (stored : Status) (m : Mem) : Prop where
  lastError : m.snr.value.status.lastError = stored.lastError
  phaseSet : ∀ phase, m.phaseSet = some phase →
    m.snr.value.status.phase = some phase ∧ stored.phase ≠ some phase
  conditionsSet : ∀ reason, m.conditionsSet = some reason →
    reason.Shown m.snr.value.status.conditions

/-- What the steps before the return leave: the copy with all that was assigned
to it; or the answer to the write of the finalizer decoded over it; or nothing
was assigned at all. -/
inductive Outcome (r : Reconciler) (w₀ : Cluster) : Mem → Cluster → Prop
  | assigned {m : Mem} {w : Cluster} : Unwritten w₀ w →
      m.snr.resourceVersion = w₀.snr.resourceVersion →
      Assigned w₀.snr.current.status m → Outcome r w₀ m w
  | finalizerAdded {m : Mem} {w : Cluster} : w.gone = false → w.snr ≠ w₀.snr →
      w.snr.current.status = w₀.snr.current.status → m.phaseSet = none →
      Assigned w₀.snr.current.status m → Outcome r w₀ (m.decode r.decode w.snr.read) w
  | finalizerRemoved {m : Mem} {w : Cluster} : m.phaseSet = none → m.conditionsSet = none →
      Outcome r w₀ m w

theorem Copied.resourceVersion {w₀ : Cluster} {m : Mem} (h : Copied w₀ m) :
    m.snr.resourceVersion = w₀.snr.resourceVersion := by
  obtain ⟨conditions, hcopy⟩ := h.copy
  rw [hcopy]

theorem Copied.assigned {w₀ : Cluster} {m : Mem} (h : Copied w₀ m) :
    Assigned w₀.snr.current.status m where
  lastError := by
    obtain ⟨conditions, hcopy⟩ := h.copy
    rw [hcopy]
  phaseSet := fun _ hp => nomatch h.phaseSet.symm.trans hp
  conditionsSet := h.conditionsSet

theorem Copied.outcome {r : Reconciler} {w₀ w : Cluster} {m : Mem} (h : Copied w₀ m)
    (hw : Unwritten w₀ w) : Outcome r w₀ m w :=
  .assigned hw h.resourceVersion h.assigned

theorem Copied.withConditions {w₀ : Cluster} {m : Mem} (h : Copied w₀ m)
    {conditions : List Condition} {reason : ConditionReason} (hs : reason.Shown conditions) :
    Copied w₀ (m.withConditions conditions (some reason)) where
  copy := by
    obtain ⟨cs, hcopy⟩ := h.copy
    refine ⟨conditions, ?_⟩
    show Revision.mk m.snr.resourceVersion _ = _
    rw [hcopy]
  phaseSet := h.phaseSet
  conditionsSet := fun reason' hr => Option.some.inj hr ▸ hs

/-! ## 3. The handlers -/

/-- The copy has conditions at most, until the phase handler, and in the last phase not
even these. -/
def aloneStages (r : Reconciler) (w₀ : Cluster) : Stages Cluster where
  read m w := Copied w₀ m ∧ m.conditionsSet = none ∧ Unwritten w₀ w
  checked m _ w := Copied w₀ m ∧ m.conditionsSet = none ∧ Unwritten w₀ w
  begun m w := Copied w₀ m ∧ (getPhase m.snr.value = .fencingCompleted → m.conditionsSet = none) ∧
    Unwritten w₀ w
  missing m _ w := Copied w₀ m ∧ Unwritten w₀ w
  found m _ w := Copied w₀ m ∧
    (getPhase m.snr.value = .fencingCompleted → m.conditionsSet = none) ∧ Unwritten w₀ w
  chosen m _ _ w := Copied w₀ m ∧
    (getPhase m.snr.value = .fencingCompleted → m.conditionsSet = none) ∧ Unwritten w₀ w
  ended := Outcome r w₀

theorem unwritten_beside (w₀ : Cluster) : Beside alone AnyError (Unwritten w₀) :=
  alone_client.beside (fun _ _ => trivial) (robust_unwritten w₀)

section Handlers

variable {α : Type} {r : Reconciler} {w₀ w : Cluster} {m : Mem} {node : Node}

theorem stable_outcome (m : Mem) : alone.Stable (Outcome r w₀ m) := Outline.alone_stable _

/-- A session that leaves copy and object alone. -/
theorem Keeps.copied {x : M α} (hx : Keeps alone AnyError (Unwritten w₀) m w x)
    (hm : Copied w₀ m) :
    alone.wp (x m) (Leaves (fun _ => Unwritten w₀) (Failed AnyError (Outcome r w₀) m) m) w :=
  hx.failed fun _ _ hw => hm.outcome hw

theorem alone_removeTaint (taint : Taint) (node : Node) (hw : Unwritten w₀ w) :
    Keeps alone AnyError (Unwritten w₀) m w (removeTaint r taint node) :=
  keeps_removeTaint (unwritten_beside w₀) r taint node hw fun _ _ _ => trivial

/-- The conditions are assigned, or have their statuses already. -/
theorem alone_updateConditions {reason : ConditionReason} {processing succeeded : ConditionStatus}
    (hr : reason.statuses = some (processing, succeeded)) (hm : Copied w₀ m)
    (hw : Unwritten w₀ w) :
    alone.wp (updateConditions reason m) (Ends AnyError (Outcome r w₀)) w := by
  refine Outline.wp_mono (wp_updateConditions (reading_alone (Unwritten w₀)) hw hr) ?_
  rintro ⟨res, s⟩ w - ⟨-, hw, (rfl : s = m) | ⟨conditions, hs, (rfl : s = _)⟩⟩
  · exact ⟨hm.outcome hw, fails_any⟩
  · exact ⟨(hm.withConditions hs).outcome hw, fails_any⟩

/-- The write of the finalizer changes the object, but not its status. -/
theorem store_addFinalizer (hm : Copied w₀ m) (hw : Unwritten w₀ w)
    (hlive : m.snr.value.deletionTimestamp = none)
    (hnot : containsFinalizer m.snr.value snrFinalizer = false) :
    (w.store (updated w.snr.current (addFinalizerTo m.snr.value snrFinalizer))).gone = false ∧
    (w.store (updated w.snr.current (addFinalizerTo m.snr.value snrFinalizer))).snr ≠ w₀.snr ∧
    (w.store (updated w.snr.current
      (addFinalizerTo m.snr.value snrFinalizer))).snr.current.status =
        w₀.snr.current.status := by
  obtain ⟨conditions, hcopy⟩ := hm.copy
  have hdeletion : w.snr.current.deletionTimestamp = none := by
    rw [hcopy] at hlive
    rw [hw.1]
    exact hlive
  have hfinalizers : (addFinalizerTo m.snr.value snrFinalizer).finalizers =
      w.snr.current.finalizers ++ [snrFinalizer] := by
    unfold addFinalizerTo
    rw [hnot, hcopy, hw.1]
    rfl
  have hne : updated w.snr.current (addFinalizerTo m.snr.value snrFinalizer) ≠
      w.snr.current := by
    intro heq
    have hf := congrArg SNR.finalizers heq
    change (addFinalizerTo m.snr.value snrFinalizer).finalizers = _ at hf
    rw [hfinalizers] at hf
    simp at hf
  refine ⟨?_, ?_, ?_⟩
  · show (w.gone || (w.snr.current.deletionTimestamp.isSome && _)) = false
    rw [hw.2, hdeletion]
    rfl
  · show w.snr.putIfChanged _ ≠ w₀.snr
    rw [Store.putIfChanged_of_ne hne, ← hw.1]
    exact Store.put_ne _ _
  · show (w.snr.putIfChanged _).current.status = _
    rw [Store.putIfChanged_current, ← hw.1]
    rfl

/-- The write of the finalizer leaves the stored status, and its answer is
decoded over the copy. -/
theorem alone_addFinalizer (hm : Copied w₀ m) (hw : Unwritten w₀ w)
    (hnot : containsFinalizer m.snr.value snrFinalizer = false) :
    alone.wp (addFinalizer r m) (Ends AnyError (Outcome r w₀)) w := by
  have hassigned : Assigned w₀.snr.current.status
      (m.modify fun snr => addFinalizerTo snr snrFinalizer) := by
    have hsame : (m.modify fun snr => addFinalizerTo snr snrFinalizer).snr.value.status =
        m.snr.value.status := status_addFinalizerTo _ _
    have h := hm.assigned
    refine ⟨?_, ?_, ?_⟩
    · rw [hsame]
      exact h.lastError
    · rw [hsame]
      exact h.phaseSet
    · rw [hsame]
      exact h.conditionsSet
  refine wp_addFinalizer_ends stable_outcome (fun _ => hm.outcome hw)
    (P := fun w => m.snr.value.deletionTimestamp = none ∧ Unwritten w₀ w)
    ⟨Outline.alone_stable _, fun _ _ => trivial, ?_⟩ fun hdel => ⟨hdel, hw⟩
  rintro w answer w' - ⟨hdel, hw⟩ he -
  have hserve : serve (.updateSNR (m.modify fun snr => addFinalizerTo snr snrFinalizer).snr) w =
      _ := serve_updateSNR hw.2 (hm.resourceVersion.trans (by rw [hw.1]))
  obtain ⟨rfl, rfl⟩ := Prod.mk.inj (hserve.symm.trans he)
  obtain ⟨hgone, hne, hstatus⟩ := store_addFinalizer hm hw hdel hnot
  exact ⟨.finalizerAdded hgone hne hstatus hm.phaseSet hassigned, fails_any⟩

theorem alone_removeFinalizer (hp : m.phaseSet = none) (hc : m.conditionsSet = none) :
    alone.wp (removeFinalizer r m) (Ends AnyError (Outcome r w₀)) w := by
  refine wp_removeFinalizer_ends stable_outcome (P := fun _ => True)
    ⟨Outline.alone_stable _, fun _ _ => trivial, ?_⟩ trivial
  intro w answer w' _ _ _ _
  cases answer with
  | ok answer => exact ⟨.finalizerRemoved hp hc, fails_any⟩
  | error e => exact ⟨.finalizerRemoved hp hc, fails_any⟩

theorem alone_recoverNode (hm : Copied w₀ m) (hc : m.conditionsSet = none)
    (hw : Unwritten w₀ w) : alone.wp (recoverNode r node m) (Ends AnyError (Outcome r w₀)) w :=
  wp_recoverNode_ends stable_outcome (Keeps.copied (alone_removeTaint _ node hw) hm)
    (fun _ _ _ => alone_removeFinalizer hm.phaseSet hc) fun _ _ hw => hm.outcome hw

/-- Another phase is assigned. -/
theorem Copied.setPhase (hm : Copied w₀ m) {phase : String}
    (hne : m.snr.value.status.phase ≠ some phase) {t : Option Time} :
    Assigned w₀.snr.current.status
      ((m.setStatus fun s => { s with timeAssumedRebooted := t }).setPhase phase) := by
  refine ⟨hm.assigned.lastError, ?_, hm.conditionsSet⟩
  rintro _ ⟨⟩
  obtain ⟨conditions, hcopy⟩ := hm.copy
  rw [hcopy] at hne
  exact ⟨rfl, hne⟩

theorem Assigned.withConditions {stored : Status} (h : Assigned stored m)
    {conditions : List Condition} {reason : ConditionReason} (hs : reason.Shown conditions) :
    Assigned stored (m.withConditions conditions (some reason)) :=
  ⟨h.lastError, h.phaseSet, fun _ hr => Option.some.inj hr ▸ hs⟩

theorem alone_prepareReboot (hm : Copied w₀ m) (hp : getPhase m.snr.value = .fencingStarted)
    (hw : Unwritten w₀ w) :
    alone.wp (prepareReboot r node m) (Ends AnyError (Outcome r w₀)) w := by
  refine wp_prepareReboot_ends stable_outcome (G := fun _ => Unwritten w₀)
    (Keeps.copied (keeps_isNodeRebootCapable (reading_alone (Unwritten w₀)) node hw) hm)
    (fun _ _ => trivial) (fun _ _ hw => hm.outcome hw)
    (fun hnot _ _ hw => alone_addFinalizer hm hw hnot) (fun _ _ _ hw => ?_) ?_
  · exact Keeps.copied
      (keeps_addTaint (unwritten_beside w₀) r _ node hw fun _ _ _ _ => trivial) hm
  · intro _ node w _ hw
    refine Outline.wp_mono (wp_setTimeAssumedRebooted (reading_alone (Unwritten w₀)) node
      (fun _ _ _ _ _ => trivial)
      (fun _ _ _ _ _ _ hw he => (robust_unwritten w₀).aside rfl he hw) hw) ?_
    rintro res w - ⟨hw, ⟨e, rfl⟩ | ⟨t, rfl⟩⟩
    · exact ⟨nofun, fun _ _ => ⟨hm.outcome hw, trivial⟩⟩
    · refine ⟨fun _ => .assigned hw hm.resourceVersion (hm.setPhase fun h => ?_), nofun⟩
      rw [getPhase_preReboot h] at hp
      cases hp

theorem alone_waitForNodeRebooted (hm : Copied w₀ m)
    (hp : getPhase m.snr.value = .preRebootCompleted) (hw : Unwritten w₀ w) :
    alone.wp (waitForNodeRebooted m) (Ends AnyError (Outcome r w₀)) w := by
  refine wp_waitForNodeRebooted_ends stable_outcome
    (Keeps.copied (keeps_wasNodeRebooted (reading_alone (Unwritten w₀)) fails_any hw) hm)
    (fun _ _ _ hw => hm.outcome hw) fun _ w _ hw => .assigned hw hm.resourceVersion
      (hm.setPhase (t := m.snr.value.status.timeAssumedRebooted) fun h => ?_)
  rw [getPhase_reboot h] at hp
  cases hp

theorem alone_handleRebootCompletedPhase {rmNodeResources : Node → M Duration}
    (hm : Copied w₀ m) (hp : getPhase m.snr.value = .rebootCompleted)
    (hrm : Keeps alone AnyError (Unwritten w₀) m w (rmNodeResources node)) :
    alone.wp (handleRebootCompletedPhase rmNodeResources node m)
      (Ends AnyError (Outcome r w₀)) w := by
  have hne : m.snr.value.status.phase ≠ some fencingCompletedPhase := by
    intro h
    rw [getPhase_fencing h] at hp
    cases hp
  have hset := hm.setPhase (t := m.snr.value.status.timeAssumedRebooted) hne
  refine wp_handleRebootCompletedPhase_ends stable_outcome (Keeps.copied hrm hm)
    (fun _ _ _ hw => hm.outcome hw) fun w _ hw => ?_
  refine Outline.wp_mono (wp_updateConditions (reading_alone (Unwritten w₀)) hw rfl) ?_
  rintro ⟨res, s⟩ w - ⟨-, hw, (rfl : s = _) | ⟨conditions, hs, (rfl : s = _)⟩⟩
  · exact ⟨.assigned hw hm.resourceVersion hset, fails_any⟩
  · exact ⟨.assigned hw hm.resourceVersion (hset.withConditions hs), fails_any⟩

/-- The conditions are assigned before the phase handler, but not in the last
phase. -/
theorem alone_markStarted (h : (aloneStages r w₀).read m w) :
    alone.wp (markStarted m)
      (fun res w => res.1 = .ok () ∧ (aloneStages r w₀).begun res.2 w) w := by
  obtain ⟨hm, hc, hw⟩ := h
  refine wp_theSNR ?_
  split
  · next hp =>
    refine Outline.wp_mono (wp_updateConditions (reading_alone (Unwritten w₀)) hw rfl) ?_
    rintro ⟨res, s⟩ w - ⟨hok, hw, (rfl : s = m) | ⟨conditions, hs, (rfl : s = _)⟩⟩
    · exact ⟨hok, hm, fun _ => hc, hw⟩
    · exact ⟨hok, hm.withConditions hs, fun h => absurd h hp, hw⟩
  · exact Session.wp_pure (Outline.alone_stable _) ⟨rfl, hm, fun _ => hc, hw⟩

theorem alone_stoppedByNHC (h : (aloneStages r w₀).read m w) :
    alone.wp (stoppedByNHC r m) (Ends AnyError (Outcome r w₀)) w := by
  obtain ⟨hm, hc, hw⟩ := h
  cases hdel : m.snr.value.deletionTimestamp with
  | none => exact wp_stoppedByNHC_live stable_outcome hdel (alone_updateConditions rfl hm hw)
  | some _ =>
    exact wp_stoppedByNHC_deleted stable_outcome (hdel ▸ rfl)
      (Keeps.copied (keeps_getNodeFromSnr (reading_alone (Unwritten w₀)) hw) hm)
      (fun _ _ _ _ _ => alone_removeFinalizer hm.phaseSet hc) (fun _ _ _ h => h)
      (fun node _ _ hw => Keeps.copied (alone_removeTaint _ node hw) hm)
      fun _ _ _ hw => alone_recoverNode hm hc hw

theorem alone_disabledNoConfig (h : (aloneStages r w₀).read m w) :
    alone.wp (disabledNoConfig m) (Ends AnyError (Outcome r w₀)) w := by
  obtain ⟨hm, hc, hw⟩ := h
  refine wp_disabledNoConfig_ends (reading_alone (Unwritten w₀)) hw stable_outcome
    fun _ _ _ hw _ => ?_
  refine .assigned hw hm.resourceVersion ⟨hm.assigned.lastError, ?_, ?_⟩
  · exact fun _ hp => nomatch hm.phaseSet.symm.trans hp
  · exact fun _ hr => nomatch hc.symm.trans hr

end Handlers

theorem alone_walk (r : Reconciler) (w₀ : Cluster) :
    Walk alone r AnyError (aloneStages r w₀) where
  values _ _ := trivial
  stable := stable_outcome
  config h := Leaves.wp_mono
    (Keeps.copied (keeps_isConfigurationExist (reading_alone (Unwritten w₀)) h.2.2) h.1)
    (fun _ _ _ hw => ⟨h.1, h.2.1, hw⟩) fun _ _ _ h => h
  disabled _ h := alone_disabledNoConfig h
  stopped _ _ h := alone_stoppedByNHC h
  start _ h := alone_markStarted (r := r) h
  target {m _} h := by
    have hnode := (keeps_getNodeFromSnr (m := m) (reading_alone (Unwritten w₀)) h.2.2).leaves
      (F := fun _ => Unwritten w₀) fun _ _ _ hw _ => hw
    exact Leaves.wp_mono hnode (fun _ _ _ hw => ⟨h.1, h.2.1, hw⟩) fun _ _ _ hw => ⟨h.1, hw⟩
  absent _ h := wp_nodeNotFound_ends stable_outcome
    (fun _ => alone_updateConditions rfl h.1 h.2) fun _ => h.1.outcome h.2
  excluded _ h := h.1.outcome h.2.2
  strategy h := Leaves.wp_mono
    (Keeps.copied (keeps_getRuntimeStrategy (reading_alone (Unwritten w₀)) _ h.2.2) h.1)
    (fun _ _ _ hw => ⟨h.1, h.2.1, hw⟩) fun _ _ _ h => h
  unhandled _ h := h.1.outcome h.2.2
  prepare hp _ h := alone_prepareReboot h.1 hp h.2.2
  wait hp _ h := alone_waitForNodeRebooted h.1 hp h.2.2
  delete {_ node _} hp _ h := alone_handleRebootCompletedPhase h.1 hp
    (keeps_deleteResourcesWrapper (unwritten_beside w₀) node h.2.2 (fun _ _ _ => trivial)
      fun _ _ _ _ => trivial)
  evict {_ node _} hp _ h := alone_handleRebootCompletedPhase h.1 hp
    (keeps_useOutOfServiceTaint (unwritten_beside w₀) r node h.2.2 fails_any
      (fun _ _ _ _ => trivial) fun _ _ _ _ => trivial)
  finish hp _ h := wp_handleFencingCompletedPhase_ends stable_outcome
    (fun _ => h.1.outcome h.2.2) fun _ => alone_recoverNode h.1 (h.2.1 hp) h.2.2

/-! ## 4. Decoding -/

/-- How the status of an answer is decoded over the one of the copy. -/
def DecodeMode.status : DecodeMode → Status → Status → Status
  | .zeroFirst, answer, _ => answer
  | .overwrite, answer, copy => overlayStatus answer copy

theorem decode_status (mode : DecodeMode) (answer copy : SNR) :
    (mode.snr answer copy).status = mode.status answer.status copy.status := by
  cases mode <;> rfl

/-- A phase survives only where the answer has none. -/
theorem decode_phase_iff {mode : DecodeMode} {answer copy : Status} {phase : String}
    (hc : copy.phase = some phase) (ha : answer.phase ≠ some phase) :
    (mode.status answer copy).phase = some phase ↔ mode = .overwrite ∧ answer.phase = none := by
  cases mode with
  | zeroFirst => exact ⟨fun h => absurd h ha, fun h => nomatch h.1⟩
  | overwrite =>
    show answer.phase.or copy.phase = some phase ↔ _
    cases hp : answer.phase with
    | none => exact ⟨fun _ => ⟨rfl, rfl⟩, fun _ => hc⟩
    | some other => exact ⟨fun h => absurd (hp.trans h) ha, fun h => nomatch h.2⟩

/-- Conditions survive where the answer has none, or has them already. -/
theorem decode_shown_iff {mode : DecodeMode} {answer copy : Status} {reason : ConditionReason}
    (hc : reason.Shown copy.conditions) :
    reason.Shown (mode.status answer copy).conditions ↔
      (mode = .overwrite ∧ answer.conditions = []) ∨ reason.Shown answer.conditions := by
  cases mode with
  | zeroFirst => exact ⟨.inr, fun h => h.resolve_left fun h => nomatch h.1⟩
  | overwrite =>
    show reason.Shown (overlayList answer.conditions copy.conditions) ↔ _
    unfold overlayList
    by_cases hnil : answer.conditions = []
    · rw [if_pos hnil]
      exact ⟨fun _ => .inl ⟨rfl, hnil⟩, fun _ => hc⟩
    · rw [if_neg hnil]
      exact ⟨.inr, fun h => h.resolve_left fun h => hnil h.2⟩

/-- Decoding the same conditions once more changes nothing. -/
theorem decode_conditions_twice {mode : DecodeMode} {answer answer' copy copy' : Status}
    (h : answer'.conditions = answer.conditions)
    (hc : copy'.conditions = (mode.status answer copy).conditions) :
    (mode.status answer' copy').conditions = (mode.status answer copy).conditions := by
  cases mode with
  | zeroFirst => exact h
  | overwrite =>
    show overlayList answer'.conditions copy'.conditions = overlayList answer.conditions _
    rw [h, hc]
    show overlayList answer.conditions (overlayList answer.conditions copy.conditions) = _
    unfold overlayList
    split <;> rfl

theorem findStatusCondition_serialize (cs : List Condition) (type : ConditionType) :
    findStatusCondition (cs.map fun c =>
        { c with lastTransitionTime := Time.truncate c.lastTransitionTime }) type =
      (findStatusCondition cs type).map fun c =>
        { c with lastTransitionTime := Time.truncate c.lastTransitionTime } := by
  unfold findStatusCondition
  rw [List.find?_map]
  rfl

/-- The server keeps statuses and reasons. -/
theorem presentAndEqual_serialize (s : Status) (type : ConditionType) (status : ConditionStatus) :
    isStatusConditionPresentAndEqual s.serialize.conditions type status =
      isStatusConditionPresentAndEqual s.conditions type status := by
  unfold isStatusConditionPresentAndEqual Status.serialize
  dsimp only
  rw [findStatusCondition_serialize]
  cases findStatusCondition s.conditions type <;> rfl

theorem shown_serialize {reason : ConditionReason} {s : Status} :
    reason.Shown s.serialize.conditions ↔ reason.Shown s.conditions := by
  unfold ConditionReason.Shown Status.serialize
  dsimp only
  simp only [findStatusCondition_serialize, Option.map_eq_some_iff]
  constructor
  · rintro ⟨p, q, hr, ⟨c, ⟨c', hc, rfl⟩, hcond⟩, ⟨d, ⟨d', hd, rfl⟩, hdond⟩⟩
    exact ⟨p, q, hr, ⟨c', hc, hcond⟩, d', hd, hdond⟩
  · rintro ⟨p, q, hr, ⟨c, hc, hcond⟩, d, hd, hdond⟩
    exact ⟨p, q, hr, ⟨_, ⟨c, hc, rfl⟩, hcond⟩, _, ⟨d, hd, rfl⟩, hdond⟩

/-! ## 5. The status writes -/

/-- The copy's status when the deferred function runs. -/
def returned (mode : DecodeMode) (stored copy : Status) : Except GoErr Ending → Status
  | .ok (.lastError _ err) =>
    if copy.lastError = lastErrorVal err then copy
    else mode.status { stored with lastError := lastErrorVal err }
      { copy with lastError := lastErrorVal err }
  | _ => copy

/-- The patch of `LastError` sets nothing else. -/
theorem merged_lastError {s stored : Status} {lastError : String} (h : s.lastError ≠ lastError) :
    merged s.serialize { s with lastError := lastError }.serialize stored =
      { stored with lastError := lastError } := by
  unfold merged Status.serialize
  dsimp only
  rw [if_pos rfl, if_pos rfl, if_neg h, if_pos rfl]

section Writes

variable {α : Type} {r : Reconciler} {w : Cluster} {m : Mem}

/-- The copy is of the current version. -/
def Current (m : Mem) (w : Cluster) : Prop :=
  w.gone = false ∧ m.snr.resourceVersion = w.snr.resourceVersion

/-- A call that is served. -/
theorem wp_served {c : Call} {f : Resp c → M α} {R : Except GoErr α × Mem → Cluster → Prop}
    (h : alone.wp (f (serve c w).1 m) R (serve c w).2) : alone.wp ((call c >>= f) m) R w := by
  refine Session.wp_call (Outline.alone_stable (· = w)) rfl (fun _ _ _ => trivial) ?_
  intro w₁ answer w' _ hw he _
  have he : serve c w = (answer, w') := hw ▸ he
  rw [he] at h
  exact h

theorem alone_updateSnrStatusLastError (err : Option GoErr) (result : Result)
    (hcur : Current m w) :
    alone.wp (updateSnrStatusLastError r err m) (fun res w' => Current res.2 w' ∧
      (∃ e, res.1 = .ok e) ∧ res.2.snr.value.status = returned r.decode w.snr.current.status
        m.snr.value.status (.ok (.lastError result err))) w := by
  unfold updateSnrStatusLastError
  refine Session.wp_read ?_
  unfold returned
  split
  · next hne =>
    refine Session.wp_update (Session.wp_read (wp_served ?_))
    rw [serve_patchSNRStatus hcur.1]
    refine Session.wp_ret (Outline.alone_stable _) ⟨⟨hcur.1, rfl⟩, ⟨_, rfl⟩, ?_⟩
    show (r.decode.snr (w.snr.putIfChanged _).current _).status = _
    rw [decode_status, Store.putIfChanged_current]
    refine Eq.trans ?_ (if_neg hne).symm
    exact congrArg (fun s => r.decode.status s _) (merged_lastError hne)
  · next heq =>
    rw [not_not] at heq
    exact Session.wp_pure (Outline.alone_stable _) ⟨hcur, ⟨_, rfl⟩, (if_pos heq).symm⟩

theorem alone_reconcileReturn (ending : Except GoErr Ending) (hcur : Current m w) :
    alone.wp (reconcileReturn r ending m) (fun res w' => Current res.2 w' ∧
      (∃ ret, res.1 = .ok ret) ∧ res.2.snr.value.status =
        returned r.decode w.snr.current.status m.snr.value.status ending) w := by
  have hplain (ret : Return) : alone.wp ((pure ret : M Return) m) (fun res w' =>
      Current res.2 w' ∧ (∃ ret, res.1 = .ok ret) ∧
        res.2.snr.value.status = m.snr.value.status) w :=
    Session.wp_pure (Outline.alone_stable _) ⟨hcur, ⟨_, rfl⟩, rfl⟩
  match ending with
  | .error e => exact hplain _
  | .ok (.plain result) => exact hplain _
  | .ok (.lastError result err) =>
    refine Session.wp_bind (alone_updateSnrStatusLastError err result hcur) ?_ ?_
    · rintro e s w' - ⟨hcur, -, hstatus⟩
      exact Session.wp_pure (Outline.alone_stable _) ⟨hcur, ⟨_, rfl⟩, hstatus⟩
    · rintro e s w' - ⟨-, ⟨_, heq⟩, -⟩
      cases heq

/-- The deferred function writes the copy's status. -/
theorem alone_deferredUpdate (ret : Return) (hcur : Current m w) :
    alone.wp (deferredUpdate r ret m) (fun res w' => res.1 = .ok ret ∧
      w'.snr.current.status = m.snr.value.status.serialize) w := by
  refine Session.wp_read (wp_served ?_)
  rw [serve_updateSNRStatus hcur.1 hcur.2]
  refine Session.wp_ret (Outline.alone_stable _) ⟨rfl, ?_⟩
  show (w.snr.putIfChanged _).current.status = _
  rw [Store.putIfChanged_current]

/-- The status that is stored in the end. -/
theorem alone_reconcileEnd (ending : Except GoErr Ending) (hcur : Current m w) :
    alone.wp (reconcileEnd r ending m) (fun _ w' => w'.snr.current.status =
      (returned r.decode w.snr.current.status m.snr.value.status ending).serialize) w := by
  refine Session.wp_bind (alone_reconcileReturn ending hcur) ?_ ?_
  · rintro ret s w' - ⟨hcur, -, hstatus⟩
    refine Session.wp_bind (alone_deferredUpdate ret hcur) ?_ ?_
    · rintro ret' s' w'' - ⟨-, hstored⟩
      rw [hstatus] at hstored
      unfold repanic
      split
      · split <;> exact Session.wp_ret (Outline.alone_stable _) hstored
      · exact Session.wp_pure (Outline.alone_stable _) hstored
    · rintro e s' w'' - ⟨heq, -⟩
      cases heq
  · rintro e s w' - ⟨-, ⟨_, heq⟩, -⟩
    cases heq

end Writes

/-- The calls that write the status. -/
def Call.isStatusWrite : Call → Bool
  | .updateSNRStatus _ | .patchSNRStatus _ _ => true
  | _ => false

theorem only_updateSnrStatusLastError (r : Reconciler) (err : Option GoErr) :
    Session.Only (fun c => c.isStatusWrite = true) (updateSnrStatusLastError r err) := by
  refine Session.only_read fun org => ?_
  split
  · refine Session.only_bind Session.only_update fun _ => Session.only_read fun changed => ?_
    refine Session.only_call rfl fun answer => ?_
    cases answer with
    | error e => exact Session.only_pure
    | ok answer => exact Session.only_bind Session.only_update fun _ => Session.only_pure
  · exact Session.only_pure

theorem only_deferredUpdate (r : Reconciler) (ret : Return) :
    Session.Only (fun c => c.isStatusWrite = true) (deferredUpdate r ret) := by
  refine Session.only_read fun m => Session.only_call rfl fun answer => ?_
  cases answer with
  | ok answer => exact Session.only_bind Session.only_update fun _ => Session.only_pure
  | error e =>
    dsimp only
    split
    · exact Session.only_pure
    · exact Session.only_pure

/-- After the steps, only the status is written. -/
theorem only_reconcileEnd (r : Reconciler) (ending : Except GoErr Ending) :
    Session.Only (fun c => c.isStatusWrite = true) (reconcileEnd r ending) := by
  refine Session.only_bind ?_ fun ret => Session.only_bind (only_deferredUpdate r ret) fun ret => ?_
  · rcases ending with e | result | ⟨result, err⟩
    · exact Session.only_pure
    · exact Session.only_pure
    · refine Session.only_bind (only_updateSnrStatusLastError r err) fun _ => Session.only_pure
  · unfold repanic
    split
    · split
      · exact Session.only_ofExcept
      · exact Session.only_pure
    · exact Session.only_pure

/-- The session assigns neither a phase nor conditions. -/
def AssignsNothing {α : Type} (x : M α) : Prop :=
  ∀ m w, alone.wp (x m) (fun res _ => res.2.phaseSet = m.phaseSet ∧
    res.2.conditionsSet = m.conditionsSet) w

section AssignsNothing

variable {α β : Type} {r : Reconciler}

theorem assignsNothing_ofExcept (res : Except GoErr α) :
    AssignsNothing (Session.ofExcept res) :=
  fun _ _ => Session.wp_ret (Outline.alone_stable _) ⟨rfl, rfl⟩

theorem assignsNothing_bind {x : M α} {f : α → M β} (hx : AssignsNothing x)
    (hf : ∀ a, AssignsNothing (f a)) : AssignsNothing (x >>= f) := by
  intro m w
  refine Session.wp_bind (hx m w) ?_ ?_
  · rintro a s w' - ⟨hp, hc⟩
    refine Outline.wp_mono (hf a s w') ?_
    rintro res w'' - ⟨hp', hc'⟩
    exact ⟨hp'.trans hp, hc'.trans hc⟩
  · rintro e s w' - h
    exact Session.wp_ret (Outline.alone_stable _) h

theorem assignsNothing_call {c : Call} {f : Resp c → M β}
    (hf : ∀ answer, AssignsNothing (f answer)) :
    AssignsNothing (call c >>= f) :=
  fun m _ => wp_served (hf _ m _)

theorem assignsNothing_read {f : Mem → M β} (hf : ∀ m, AssignsNothing (f m)) :
    AssignsNothing (Session.read >>= f) :=
  fun m w => hf m m w

/-- The answer to a write is decoded over the copy. -/
theorem assignsNothing_decode {answer : Revision SNR} {a : α} :
    AssignsNothing (do Session.update fun m => m.decode r.decode answer; return a) :=
  fun _ _ => Session.wp_ret (Outline.alone_stable _) ⟨rfl, rfl⟩

theorem assignsNothing_updateSnrStatusLastError (err : Option GoErr) :
    AssignsNothing (updateSnrStatusLastError r err) := by
  refine assignsNothing_read fun org => ?_
  split
  · refine assignsNothing_bind (fun _ _ => Session.wp_ret (Outline.alone_stable _) ⟨rfl, rfl⟩)
      fun _ => assignsNothing_read fun changed => assignsNothing_call fun answer => ?_
    cases answer with
    | ok answer => exact assignsNothing_decode
    | error e => exact assignsNothing_ofExcept _
  · exact assignsNothing_ofExcept _

theorem assignsNothing_reconcileReturn (ending : Except GoErr Ending) :
    AssignsNothing (reconcileReturn r ending) :=
  match ending with
  | .error _ => assignsNothing_ofExcept _
  | .ok (.plain _) => assignsNothing_ofExcept _
  | .ok (.lastError _ err) => assignsNothing_bind (assignsNothing_updateSnrStatusLastError err)
      fun _ => assignsNothing_ofExcept _

theorem assignsNothing_deferredUpdate (ret : Return) : AssignsNothing (deferredUpdate r ret) := by
  refine assignsNothing_read fun m => assignsNothing_call fun answer => ?_
  cases answer with
  | ok answer => exact assignsNothing_decode
  | error e =>
    dsimp only
    split
    · exact assignsNothing_ofExcept _
    · exact assignsNothing_ofExcept _

/-- Nothing is assigned after the steps. -/
theorem assignsNothing_reconcileEnd (ending : Except GoErr Ending) :
    AssignsNothing (reconcileEnd r ending) := by
  refine assignsNothing_bind (assignsNothing_reconcileReturn ending) fun ret => ?_
  refine assignsNothing_bind (assignsNothing_deferredUpdate ret) fun ret => ?_
  unfold repanic
  split
  · split
    · exact assignsNothing_ofExcept _
    · exact assignsNothing_ofExcept _
  · exact assignsNothing_ofExcept _

end AssignsNothing

/-! ## 6. Whole reconciles -/

/-- The steps of `ReconcileManager` on the stored object, when every call is
served: how they end, the copy, and the cluster. -/
def stepsAlone (r : Reconciler) (w : Cluster) : (Except GoErr Ending × Mem) × Cluster :=
  (reconcileSteps r ⟨w.snr.read, none, none⟩).eval serve w

theorem eval_reconcileManager (r : Reconciler) {w : Cluster} (hlive : w.gone = false) :
    (reconcileManager r).eval serve w =
      (⟨((reconcileEnd r (stepsAlone r w).1.1 (stepsAlone r w).1.2).eval serve
          (stepsAlone r w).2).1.1,
        some ((reconcileEnd r (stepsAlone r w).1.1 (stepsAlone r w).1.2).eval serve
          (stepsAlone r w).2).1.2⟩,
        ((reconcileEnd r (stepsAlone r w).1.1 (stepsAlone r w).1.2).eval serve
          (stepsAlone r w).2).2) := by
  have hread : serve .getSNR w = (.ok w.snr.read, w) := by simp [serve, hlive]
  have hend : (reconcileRead r ⟨w.snr.read, none, none⟩).eval serve w =
      (reconcileEnd r (stepsAlone r w).1.1 (stepsAlone r w).1.2).eval serve (stepsAlone r w).2 :=
    Session.eval_attempt rfl
  unfold reconcileManager
  rw [Prog.eval_call, hread]
  dsimp only
  rw [Prog.eval_bind, hend]
  rfl

theorem outcome_stepsAlone (r : Reconciler) {w : Cluster} (hlive : w.gone = false) :
    Outcome r w (stepsAlone r w).1.2 (stepsAlone r w).2 := by
  have hm : Copied w ⟨w.snr.read, none, none⟩ := ⟨⟨_, rfl⟩, rfl, fun _ h => nomatch h⟩
  exact (Outline.alone_wp ((alone_walk r w).reconcileSteps ⟨hm, rfl, rfl, hlive⟩)).1

/-- `updateSnrStatusLastError` patches the status: the steps end in a return
through it, with another error, or none, than the stored `LastError`. -/
def patchesLastError (stored : Status) : Except GoErr Ending → Bool
  | .ok (.lastError _ err) => stored.lastError ≠ lastErrorVal err
  | _ => false

theorem returned_unpatched {mode : DecodeMode} {stored copy : Status}
    {ending : Except GoErr Ending} (hl : copy.lastError = stored.lastError)
    (h : patchesLastError stored ending = false) : returned mode stored copy ending = copy := by
  match ending with
  | .error _ => rfl
  | .ok (.plain _) => rfl
  | .ok (.lastError _ err) => exact if_pos (hl.trans (not_not.mp (of_decide_eq_false h)))

theorem returned_patched (mode : DecodeMode) {stored copy : Status}
    {ending : Except GoErr Ending} (hl : copy.lastError = stored.lastError)
    (h : patchesLastError stored ending = true) : ∃ text, returned mode stored copy ending =
      mode.status { stored with lastError := text } { copy with lastError := text } := by
  match ending with
  | .error _ => cases h
  | .ok (.plain _) => cases h
  | .ok (.lastError _ err) =>
    exact ⟨lastErrorVal err, if_neg fun heq => of_decide_eq_true h (hl.symm.trans heq)⟩

/-- The phase and the conditions that a reconcile has assigned are stored. -/
def StatusKept (m : Mem) (stored : Status) : Prop :=
  (∀ phase, m.phaseSet = some phase → stored.phase = some phase) ∧
    ∀ reason, m.conditionsSet = some reason → reason.Shown stored.conditions

/-- What is assigned is not overwritten: a phase where `LastError` is patched, and
conditions where it is patched or the object was edited, only if the server has
nothing to overwrite them with, or the same. -/
def Survives (mode : DecodeMode) (stored : Status) (m : Mem) (patched edited : Prop) : Prop :=
  (patched → ∀ phase, m.phaseSet = some phase → mode = .overwrite ∧ stored.phase = none) ∧
    (patched ∨ edited → ∀ reason, m.conditionsSet = some reason →
      (mode = .overwrite ∧ stored.conditions = []) ∨ reason.Shown stored.conditions)

section Kept

variable {mode : DecodeMode} {stored : Status} {m : Mem} {ending : Except GoErr Ending}

/-- The phase is kept, if the object is stored as the copy is when the deferred
function runs. -/
theorem phase_kept_iff (h : Assigned stored m) :
    (∀ phase, m.phaseSet = some phase →
      (returned mode stored m.snr.value.status ending).phase = some phase) ↔
    (patchesLastError stored ending = true → ∀ phase, m.phaseSet = some phase →
      mode = .overwrite ∧ stored.phase = none) := by
  cases hpatch : patchesLastError stored ending with
  | false =>
    rw [returned_unpatched h.lastError hpatch]
    exact ⟨fun _ hp => absurd hp nofun, fun _ phase hp => (h.phaseSet phase hp).1⟩
  | true =>
    obtain ⟨text, heq⟩ := returned_patched mode h.lastError hpatch
    rw [heq]
    have hiff (phase : String) (hp : m.phaseSet = some phase) :
        (mode.status { stored with lastError := text }
          { m.snr.value.status with lastError := text }).phase = some phase ↔
            mode = .overwrite ∧ stored.phase = none :=
      decode_phase_iff (h.phaseSet phase hp).1 (h.phaseSet phase hp).2
    exact ⟨fun hk _ phase hp => (hiff phase hp).mp (hk phase hp),
      fun hk phase hp => (hiff phase hp).mpr (hk rfl phase hp)⟩

theorem conditions_kept_iff (h : Assigned stored m) :
    (∀ reason, m.conditionsSet = some reason →
      reason.Shown (returned mode stored m.snr.value.status ending).conditions) ↔
    (patchesLastError stored ending = true → ∀ reason, m.conditionsSet = some reason →
      (mode = .overwrite ∧ stored.conditions = []) ∨ reason.Shown stored.conditions) := by
  cases hpatch : patchesLastError stored ending with
  | false =>
    rw [returned_unpatched h.lastError hpatch]
    exact ⟨fun _ hp => absurd hp nofun, fun _ => h.conditionsSet⟩
  | true =>
    obtain ⟨text, heq⟩ := returned_patched mode h.lastError hpatch
    rw [heq]
    have hiff (reason : ConditionReason) (hr : m.conditionsSet = some reason) :
        reason.Shown (mode.status { stored with lastError := text }
          { m.snr.value.status with lastError := text }).conditions ↔
            (mode = .overwrite ∧ stored.conditions = []) ∨ reason.Shown stored.conditions :=
      decode_shown_iff (h.conditionsSet reason hr)
    exact ⟨fun hk _ reason hr => (hiff reason hr).mp (hk reason hr),
      fun hk reason hr => (hiff reason hr).mpr (hk rfl reason hr)⟩

/-- After the write of the finalizer, the conditions have been overwritten once
already. -/
theorem conditions_decoded_iff (h : Assigned stored m) :
    (∀ reason, m.conditionsSet = some reason → reason.Shown
      (returned mode stored (mode.status stored m.snr.value.status) ending).conditions) ↔
    (∀ reason, m.conditionsSet = some reason →
      (mode = .overwrite ∧ stored.conditions = []) ∨ reason.Shown stored.conditions) := by
  have hlast : (mode.status stored m.snr.value.status).lastError = stored.lastError := by
    cases mode with
    | zeroFirst => rfl
    | overwrite =>
      show (if stored.lastError = "" then m.snr.value.status.lastError else _) = _
      rw [h.lastError]
      split <;> rfl
  have hconditions : (returned mode stored (mode.status stored m.snr.value.status)
      ending).conditions = (mode.status stored m.snr.value.status).conditions := by
    cases hpatch : patchesLastError stored ending with
    | false => rw [returned_unpatched hlast hpatch]
    | true =>
      obtain ⟨text, heq⟩ := returned_patched mode hlast hpatch
      rw [heq]
      exact decode_conditions_twice rfl rfl
  rw [hconditions]
  exact forall₂_congr fun reason hr => decode_shown_iff (h.conditionsSet reason hr)

end Kept

/-- A phase and conditions that a reconcile has assigned are stored when it
returns, if and only if they are not overwritten on the way: by the answer to the
patch of `LastError`, or, for the conditions, to the write of the finalizer. -/
theorem status_kept_iff (r : Reconciler) {w : Cluster} (hlive : w.gone = false) {m : Mem}
    (hm : ((reconcileManager r).eval serve w).1.mem = some m) :
    StatusKept m ((reconcileManager r).eval serve w).2.snr.current.status ↔
      Survives r.decode w.snr.current.status (stepsAlone r w).1.2
        (patchesLastError w.snr.current.status (stepsAlone r w).1.1 = true)
        ((stepsAlone r w).2.snr ≠ w.snr) := by
  rw [eval_reconcileManager r hlive] at hm ⊢
  have houtcome := outcome_stepsAlone r hlive
  generalize hsteps : stepsAlone r w = o at hm houtcome ⊢
  obtain ⟨⟨ending, m₁⟩, w₁⟩ := o
  obtain ⟨hphase, hcond⟩ := Outline.alone_wp (assignsNothing_reconcileEnd (r := r) ending m₁ w₁)
  obtain rfl := Option.some.inj hm
  have hsets : ∀ stored, StatusKept ((reconcileEnd r ending m₁).eval serve w₁).1.2 stored ↔
      StatusKept m₁ stored := by
    intro stored
    unfold StatusKept
    rw [hphase, hcond]
  rw [hsets]
  dsimp only at houtcome ⊢
  cases houtcome with
  | assigned hw hv hassigned =>
    have hstatus := Outline.alone_wp (alone_reconcileEnd (r := r) ending
      (m := m₁) (w := w₁) ⟨hw.2, hv.trans (by rw [hw.1])⟩)
    rw [hstatus, hw.1]
    unfold StatusKept Survives
    simp only [serialize_phase, shown_serialize, ne_eq, not_true_eq_false, or_false]
    exact and_congr (phase_kept_iff hassigned) (conditions_kept_iff hassigned)
  | @finalizerAdded m _ hgone hne hs hp hassigned =>
    have hstatus := Outline.alone_wp (alone_reconcileEnd (r := r) ending
      (m := m.decode r.decode w₁.snr.read) (w := w₁) ⟨hgone, rfl⟩)
    have hphase : (m.decode r.decode w₁.snr.read).phaseSet = none := hp
    have hcopy : (m.decode r.decode w₁.snr.read).snr.value.status =
        r.decode.status w.snr.current.status m.snr.value.status :=
      (decode_status _ _ _).trans (congrArg (r.decode.status · _) hs)
    rw [hstatus, hs, hcopy]
    unfold StatusKept Survives
    simp only [hphase, serialize_phase, shown_serialize, ne_eq, hne, not_false_eq_true, or_true,
      true_imp_iff, reduceCtorEq, false_imp_iff, implies_true, true_and]
    exact conditions_decoded_iff hassigned
  | finalizerRemoved hp hc =>
    unfold StatusKept Survives
    simp only [hp, hc, reduceCtorEq, false_imp_iff, implies_true, and_self]

/-- The first reconcile: its conditions survive the write of the finalizer,
because there were none before. -/
theorem status_kept_small : ∃ m,
    ((reconcileManager overwritingManager).eval serve smallCluster).1.mem = some m ∧
    m.conditionsSet = some .remediationStarted ∧
    StatusKept m
      ((reconcileManager overwritingManager).eval serve smallCluster).2.snr.current.status := by
  have hset : ((reconcileManager overwritingManager).eval serve smallCluster).1.mem.any
      (fun m => m.conditionsSet = some .remediationStarted) = true := by decide +kernel
  cases hm : ((reconcileManager overwritingManager).eval serve smallCluster).1.mem with
  | none =>
    rw [hm] at hset
    cases hset
  | some m =>
    rw [hm] at hset
    refine ⟨m, rfl, of_decide_eq_true hset, ?_⟩
    exact (status_kept_iff overwritingManager rfl hm).mpr
      ⟨fun _ _ _ => ⟨rfl, rfl⟩, fun _ _ _ => .inl ⟨rfl, rfl⟩⟩

/-- The small cluster when its pods can be deleted, after an attempt that had
failed. -/
def recoveringCluster : Cluster :=
  { smallCluster with
    now := 2000000000000
    snr := ⟨{ smallSNR with
      finalizers := [snrFinalizer]
      status :=
        ⟨some 1500000000000, some rebootCompletedPhase, "failed to delete pods", []⟩ }, []⟩ }

/-- The reconcile deletes the pods and assigns the phase Fencing-Completed, but
stores Reboot-Completed again. -/
theorem status_lost : ∃ m,
    ((reconcileManager overwritingManager).eval serve recoveringCluster).1.mem = some m ∧
    m.phaseSet = some fencingCompletedPhase ∧
    ¬ StatusKept m
      ((reconcileManager overwritingManager).eval serve
        recoveringCluster).2.snr.current.status := by
  have hset : ((reconcileManager overwritingManager).eval serve recoveringCluster).1.mem.any
      (fun m => m.phaseSet = some fencingCompletedPhase) = true := by decide +kernel
  have hstored : ((reconcileManager overwritingManager).eval serve
      recoveringCluster).2.snr.current.status.phase = some rebootCompletedPhase := by
    decide +kernel
  cases hm : ((reconcileManager overwritingManager).eval serve recoveringCluster).1.mem with
  | none =>
    rw [hm] at hset
    cases hset
  | some m =>
    rw [hm] at hset
    have hphase : m.phaseSet = some fencingCompletedPhase := of_decide_eq_true hset
    refine ⟨m, rfl, hphase, fun hkept => ?_⟩
    have h := hstored.symm.trans (hkept.1 _ hphase)
    exact absurd h (by decide)

end SelfNodeRemediation
