import SelfNodeRemediation.PhaseMachine
import SelfNodeRemediation.StatusWrites

/-!
# Reported success

The Succeeded condition and the phase Fencing-Completed over whole runs of
`ReconcileManager`, with the failures, lagging reads and moves of others of the
phase machine. Others leave the status of the Succeeded condition alone.

* `Truthful` is how phase and condition of a stored version go together, and
  `Reports` what a reconcile knows of its copy: it reports success only in phase
  Fencing-Completed, and if it does not although it is in that phase, a newer
  version is stored, so that the optimistic lock rejects it.
* `reports_decode`: this survives the decoding of an answer over the copy.
* `success_final`: a version reports success if and only if it is in phase
  Fencing-Completed, and later versions then do too, if NHC does not stop a
  finished remediation that is not being deleted, and its node is found.
* `success_retracted`: otherwise the report is taken back.
-/

namespace SelfNodeRemediation

open Interaction Versioned

/-! ## 1. Phase and condition -/

/-- `meta.IsStatusConditionTrue` of the Succeeded condition. -/
def reportsSuccess (snr : SNR) : Prop :=
  isStatusConditionPresentAndEqual snr.status.conditions .succeeded .true_ = true

theorem reportsSuccess_iff {snr : SNR} :
    reportsSuccess snr ↔ succeededStatus snr.status.conditions = some .true_ :=
  presentAndEqual_iff

/-- Success is reported in the last phase only, and from Reboot-Completed on there
is a Succeeded condition. -/
structure Consistent (snr : SNR) : Prop where
  reported : reportsSuccess snr → getPhase snr = .fencingCompleted
  present : 2 ≤ (getPhase snr).rank → (succeededStatus snr.status.conditions).isSome = true

structure Truthful (snr : SNR) : Prop extends Consistent snr where
  finished : getPhase snr = .fencingCompleted → reportsSuccess snr

def SuccessInv (w : Cluster) : Prop := w.snr.All Truthful

/-- What a reconcile knows of its copy. -/
structure ReportOf (w : Cluster) (snr : SNR) (copy : Revision SNR) : Prop
    extends Consistent copy.value where
  version : w.snr.version copy.resourceVersion = some snr
  rank : (getPhase copy.value).rank ≤ (getPhase snr).rank + 1
  finished : getPhase copy.value = .fencingCompleted →
    reportsSuccess copy.value ∨ copy.resourceVersion < w.snr.resourceVersion

def Reports (w : Cluster) (copy : Revision SNR) : Prop := ∃ snr, ReportOf w snr copy

/-- Only phase and Succeeded condition count. -/
theorem Consistent.congr {a b : SNR} (h : Consistent a) (hp : b.status.phase = a.status.phase)
    (hs : succeededStatus b.status.conditions = succeededStatus a.status.conditions) :
    Consistent b := by
  refine ⟨fun hr => ?_, fun hrank => ?_⟩
  · rw [getPhase_congr hp]
    exact h.reported (reportsSuccess_iff.mpr (hs ▸ reportsSuccess_iff.mp hr))
  · rw [hs]
    rw [getPhase_congr hp] at hrank
    exact h.present hrank

theorem Truthful.congr {a b : SNR} (h : Truthful a) (hp : b.status.phase = a.status.phase)
    (hs : succeededStatus b.status.conditions = succeededStatus a.status.conditions) :
    Truthful b := by
  refine ⟨h.toConsistent.congr hp hs, fun hfin => ?_⟩
  rw [getPhase_congr hp] at hfin
  exact reportsSuccess_iff.mpr (hs ▸ reportsSuccess_iff.mp (h.finished hfin))

theorem Reports.congr {w : Cluster} {copy copy' : Revision SNR} (h : Reports w copy)
    (hv : copy'.resourceVersion = copy.resourceVersion)
    (hp : copy'.value.status.phase = copy.value.status.phase)
    (hs : succeededStatus copy'.value.status.conditions =
      succeededStatus copy.value.status.conditions) : Reports w copy' := by
  obtain ⟨snr, hsnr⟩ := h
  refine ⟨snr, hsnr.toConsistent.congr hp hs, hv ▸ hsnr.version, ?_, fun hfin => ?_⟩
  · rw [getPhase_congr hp]
    exact hsnr.rank
  · rw [getPhase_congr hp] at hfin
    refine (hsnr.finished hfin).imp (fun hr => ?_) fun hlt => hv ▸ hlt
    exact reportsSuccess_iff.mpr (hs ▸ reportsSuccess_iff.mp hr)

theorem resourceVersion_mono {w w' : Cluster} (hg : Grows w w') :
    w.snr.resourceVersion ≤ w'.snr.resourceVersion :=
  Store.version_le (hg.versions _ _ Store.version_resourceVersion)

theorem lasting_reports (copy : Revision SNR) : Lasting fun w => Reports w copy := by
  rintro w w' hg ⟨snr, h⟩
  refine ⟨snr, h.toConsistent, hg.versions _ snr h.version, h.rank, fun hfin => ?_⟩
  exact (h.finished hfin).imp id fun hlt => Nat.lt_of_lt_of_le hlt (resourceVersion_mono hg)

theorem succeededStatus_serialize (s : Status) :
    succeededStatus s.serialize.conditions = succeededStatus s.conditions := by
  unfold succeededStatus Status.serialize
  dsimp only
  rw [findStatusCondition_serialize, Option.map_map]
  rfl

/-- Conditions of the answer hide those of the copy, if there are any. -/
theorem succeededStatus_overlay (answer copy : List Condition) :
    succeededStatus (overlayList answer copy) = succeededStatus answer ∨
      (succeededStatus answer = none ∧
        succeededStatus (overlayList answer copy) = succeededStatus copy) := by
  unfold overlayList
  split
  · next hnil =>
    rw [hnil]
    exact .inr ⟨rfl, rfl⟩
  · exact .inl rfl

/-- A copy that reports success is of an object that has come to Reboot-Completed. -/
theorem Reports.late {w : Cluster} {copy : Revision SNR} (h : Reports w copy) (hp : PhaseInv w)
    (hr : succeededStatus copy.value.status.conditions = some .true_) :
    2 ≤ (getPhase w.snr.current).rank := by
  obtain ⟨snr, h⟩ := h
  have hrank := h.rank
  rw [h.reported (reportsSuccess_iff.mpr hr)] at hrank
  exact Nat.le_trans (Nat.le_of_succ_le_succ hrank) (hp.forward.current h.version).1

section Overwrite

variable {w : Cluster} {m : Mem} (hp : PhaseInv w) (hi : SuccessInv w) (h : Reports w m.snr)

include hp hi h

/-- A stored phase overwrites the copy's. -/
theorem reports_overwrite_stored {phase : String}
    (hphase : w.snr.current.status.phase = some phase) :
    Reports w (m.decode .overwrite w.snr.read).snr := by
  have hcur : Truthful w.snr.current := hi.current
  have hover := succeededStatus_overlay w.snr.current.status.conditions
    m.snr.value.status.conditions
  have hnew : getPhase (DecodeMode.overwrite.snr w.snr.current m.snr.value) =
      getPhase w.snr.current := by
    apply getPhase_congr
    show w.snr.current.status.phase.or m.snr.value.status.phase = w.snr.current.status.phase
    rw [hphase]
    rfl
  -- from Reboot-Completed on the condition is the stored one
  have hkept (hlate : 2 ≤ (getPhase w.snr.current).rank) :
      succeededStatus (DecodeMode.overwrite.snr w.snr.current m.snr.value).status.conditions =
        succeededStatus w.snr.current.status.conditions := by
    rcases hover with heq | ⟨hnone, -⟩
    · exact heq
    · have hsome := hcur.present hlate
      rw [hnone] at hsome
      cases hsome
  refine ⟨w.snr.current, ⟨fun hr => ?_, fun hlate => ?_⟩, Store.version_resourceVersion, ?_,
    fun hfin => ?_⟩
  · rw [show getPhase (m.decode .overwrite w.snr.read).snr.value = _ from hnew]
    have hr := reportsSuccess_iff.mp hr
    have hreports : succeededStatus w.snr.current.status.conditions = some .true_ := by
      rcases hover with heq | ⟨-, heq⟩
      · exact heq.symm.trans hr
      · exact (hkept (h.late hp (heq.symm.trans hr))).symm.trans hr
    exact hcur.reported (reportsSuccess_iff.mpr hreports)
  · have hlate : 2 ≤ (getPhase w.snr.current).rank := hnew ▸ hlate
    exact (congrArg Option.isSome (hkept hlate)).trans (hcur.present hlate)
  · exact Nat.le_succ_of_le (Nat.le_of_eq (congrArg RemediationPhase.rank hnew))
  · have hfin : getPhase w.snr.current = .fencingCompleted := hnew.symm.trans hfin
    have hlate : 2 ≤ (getPhase w.snr.current).rank := by rw [hfin]; decide
    exact .inl (reportsSuccess_iff.mpr
      ((hkept hlate).trans (reportsSuccess_iff.mp (hcur.finished hfin))))

/-- Where no phase is stored, the copy is of an object at the beginning. -/
theorem reports_overwrite_unset (hphase : w.snr.current.status.phase = none) :
    Reports w (m.decode .overwrite w.snr.read).snr := by
  have hstarted := getPhase_started hphase
  have hnew : getPhase (DecodeMode.overwrite.snr w.snr.current m.snr.value) =
      getPhase m.snr.value := by
    apply getPhase_congr
    show w.snr.current.status.phase.or m.snr.value.status.phase = m.snr.value.status.phase
    rw [hphase]
    rfl
  have hrank : (getPhase m.snr.value).rank ≤ (getPhase w.snr.current).rank + 1 := by
    obtain ⟨snr, h⟩ := h
    exact Nat.le_trans h.rank (Nat.succ_le_succ (hp.forward.current h.version).1)
  have hearly : (getPhase m.snr.value).rank ≤ 1 := by
    rw [hstarted] at hrank
    exact hrank
  refine ⟨w.snr.current, ⟨fun hr => ?_, fun hlate => ?_⟩, Store.version_resourceVersion, ?_,
    fun hfin => ?_⟩
  · have hr := reportsSuccess_iff.mp hr
    rcases succeededStatus_overlay w.snr.current.status.conditions
      m.snr.value.status.conditions with heq | ⟨-, heq⟩
    · have hfin := hi.current.reported (reportsSuccess_iff.mpr (heq.symm.trans hr))
      rw [hstarted] at hfin
      cases hfin
    · have hlate := h.late hp (heq.symm.trans hr)
      rw [hstarted] at hlate
      cases hlate
  · have hlate : 2 ≤ (getPhase m.snr.value).rank := hnew ▸ hlate
    exact absurd (Nat.le_trans hlate hearly) (by decide)
  · exact Nat.le_trans (Nat.le_of_eq (congrArg RemediationPhase.rank hnew)) hrank
  · have hfin : getPhase m.snr.value = .fencingCompleted := hnew.symm.trans hfin
    rw [hfin] at hearly
    exact absurd hearly (by decide)

/-- The answer to a write is decoded over the copy. -/
theorem reports_decode (mode : DecodeMode) : Reports w (m.decode mode w.snr.read).snr := by
  have hcur : Truthful w.snr.current := hi.current
  cases mode with
  | zeroFirst =>
    exact ⟨w.snr.current, hcur.toConsistent, Store.version_resourceVersion, Nat.le_succ _,
      fun hfin => .inl (hcur.finished hfin)⟩
  | overwrite =>
    cases hphase : w.snr.current.status.phase with
    | some phase => exact reports_overwrite_stored hp hi h hphase
    | none => exact reports_overwrite_unset hp hi h hphase

end Overwrite

/-! ## 2. The outline -/

/-- A finished remediation that is stored has been stopped by NHC. -/
def StoppedIfFinished (w : Cluster) : Prop :=
  getPhase w.snr.current = .fencingCompleted → isStoppedByNHC w.snr.current = true

/-- NHC does not stop a finished remediation that is not being deleted, and as long
as it does not stop it, the node is found. -/
def SuccessLasts : (c : Call) → Cluster → Resp c → Prop
  | .getSNR, _, r => ∀ snr, r = .ok snr → getPhase snr.value = .fencingCompleted →
      isStoppedByNHC snr.value = true → snr.value.deletionTimestamp.isSome = true
  | .getNode _, w, r => ∀ e, r = .error e → e.isNotFound = true → StoppedIfFinished w
  | .getMachine _ _, w, r => ∀ e, r = .error e → e.isNotFound = true → StoppedIfFinished w
  | _, _, _ => True

/-- Others leave the Succeeded condition alone. -/
structure SuccessOthers (w w' : Cluster) : Prop extends Others w w' where
  succeeded : succeededStatus w'.snr.current.status.conditions =
    succeededStatus w.snr.current.status.conditions

def SuccessAllowed : Call → Cluster → Prop
  | .updateSNRStatus sent, w => Reports w sent
  | .patchSNRStatus base changed, _ => changed.status.phase = base.status.phase ∧
      changed.status.conditions = base.status.conditions
  | _, _ => True

/-- A write that leaves phase and Succeeded condition alone. -/
theorem successInv_same {w : Cluster} {store : Store SNR} {snr : SNR} (hi : SuccessInv w)
    (hput : store = w.snr.putIfChanged snr) (hp : snr.status.phase = w.snr.current.status.phase)
    (hs : succeededStatus snr.status.conditions =
      succeededStatus w.snr.current.status.conditions) : store.All Truthful := by
  rw [hput]
  exact Store.all_putIfChanged hi (hi.current.congr hp hs)

theorem successInv_env {w w' : Cluster} (hi : SuccessInv w) (he : SuccessOthers w w') :
    SuccessInv w' := by
  rcases he.snr with hs | ⟨snr, hs, hsame⟩
  · exact show w'.snr.All Truthful from hs ▸ hi
  · have hcurrent : w'.snr.current = snr := by rw [hs]; rfl
    show w'.snr.All Truthful
    rw [hs]
    refine Store.all_put hi (hi.current.congr hsame.1 ?_)
    rw [← hcurrent]
    exact he.succeeded

/-- A status update from a copy of the current version. -/
theorem Reports.truthful {w : Cluster} {sent : Revision SNR} (h : Reports w sent)
    (hv : sent.resourceVersion = w.snr.resourceVersion) : Truthful sent.value := by
  obtain ⟨snr, h⟩ := h
  refine ⟨h.toConsistent, fun hfin => (h.finished hfin).resolve_right ?_⟩
  rw [hv]
  exact Nat.lt_irrefl _

theorem successInv_exec {lagging : Bool} {c : Call} {w w' : Cluster} {r : Resp c}
    (hi : SuccessInv w) (ha : SuccessAllowed c w) (he : Exec lagging c w r w') :
    SuccessInv w' := by
  rcases he.change with rfl | hchange
  · exact hi
  · cases hchange with
    | updateSNRStatus _ hv =>
      refine Store.all_putIfChanged hi ?_
      exact (Reports.truthful ha hv).congr rfl (succeededStatus_serialize _)
    | updateSNR _ _ => exact successInv_same hi rfl rfl rfl
    | patchSNRStatus _ =>
      refine successInv_same hi rfl (if_pos ha.1.symm) (congrArg succeededStatus (if_pos ?_))
      exact congrArg (List.map _) ha.2.symm
    | patchNode | logTimeAssumedRebooted | deleteAllOf | reboot => exact hi

/-- The outline relies on the one of the phases. -/
def successOutline : Outline Call Resp Cluster where
  exec c w r w' := Exec true c w r w' ∧ SuccessLasts c w r ∧ PhaseInv w ∧ PhaseInv w'
  env := SuccessOthers
  inv := SuccessInv
  allowed := SuccessAllowed
  inv_env := successInv_env
  inv_exec hi ha he := successInv_exec hi ha he.1

theorem successOutline_client : Client true successOutline where
  exec h := h.1
  reads {c w} h _ := by cases c <;> trivial

theorem Lasting.success {P : Cluster → Prop} (h : Lasting P) : Robust successOutline P :=
  ⟨fun _ _ hp he => h _ _ he.grows hp, fun _ he => h _ _ (grows_exec he.1)⟩

theorem Lasting.beside_success {P : Cluster → Prop} (h : Lasting P) :
    Beside successOutline AnyError P :=
  successOutline_client.beside (fun _ _ => trivial) h.success

theorem Lasting.reading_success {P : Cluster → Prop} (h : Lasting P) :
    Reading successOutline AnyError P :=
  h.beside_success.toReading

/-! ## 3. The copy -/

section Copy

variable {m : Mem} {w : Cluster}

/-- A copy that was read, with a phase at most one step ahead. -/
theorem reports_assigned {m' : Mem} (hf : Fresh w m.snr)
    (hv : m'.snr.resourceVersion = m.snr.resourceVersion)
    (hrank : (getPhase m'.snr.value).rank ≤ (getPhase m.snr.value).rank + 1)
    (ht : Truthful m'.snr.value) : Reports w m'.snr := by
  obtain ⟨snr, conditions, hversion, hcopy⟩ := hf
  have hphase : getPhase m.snr.value = getPhase snr := getPhase_congr (by rw [hcopy])
  exact ⟨snr, ht.toConsistent, hv ▸ hversion, hphase ▸ hrank, fun hfin => .inl (ht.finished hfin)⟩

theorem reports_fresh (hf : Fresh w m.snr) (ht : Truthful m.snr.value) : Reports w m.snr :=
  reports_assigned hf rfl (Nat.le_succ _) ht

/-- No success is reported before the last phase. -/
theorem truthful_unfinished {snr : SNR} {status : ConditionStatus}
    (hp : getPhase snr ≠ .fencingCompleted)
    (hs : succeededStatus snr.status.conditions = some status) (hne : status ≠ .true_) :
    Truthful snr := by
  refine ⟨⟨fun hr => ?_, fun _ => ?_⟩, fun hfin => absurd hfin hp⟩
  · exact absurd (Option.some.inj (hs.symm.trans (reportsSuccess_iff.mp hr))) hne
  · rw [hs]
    rfl

/-- Another phase is assigned, not the last one. -/
theorem Truthful.advance {snr snr' : SNR} (h : Truthful snr)
    (hconditions : snr'.status.conditions = snr.status.conditions)
    (hp : getPhase snr ≠ .fencingCompleted) (hp' : getPhase snr' ≠ .fencingCompleted)
    (hs : 2 ≤ (getPhase snr').rank → (succeededStatus snr.status.conditions).isSome = true) :
    Truthful snr' := by
  refine ⟨⟨fun hr => ?_, fun hlate => ?_⟩, fun hfin => absurd hfin hp'⟩
  · rw [reportsSuccess_iff, hconditions] at hr
    exact absurd (h.reported (reportsSuccess_iff.mpr hr)) hp
  · rw [hconditions]
    exact hs hlate

/-- A copy in the last phase is not of the current version. -/
def Outdated (m : Mem) (w : Cluster) : Prop :=
  getPhase m.snr.value = .fencingCompleted → m.snr.resourceVersion < w.snr.resourceVersion

theorem lasting_outdated (m : Mem) : Lasting (Outdated m) :=
  fun _ _ hg h hfin => Nat.lt_of_lt_of_le (h hfin) (resourceVersion_mono hg)

/-- The copy was not stopped by NHC when it was read, but the stored object is. -/
theorem outdated_of_stopped (hi : PhaseInv w) (hf : Fresh w m.snr)
    (hm : isStoppedByNHC m.snr.value = false) (hw : StoppedIfFinished w) : Outdated m w := by
  intro hfin
  obtain ⟨snr, conditions, hv, hcopy⟩ := hf
  have hphase : getPhase m.snr.value = getPhase snr := getPhase_congr (by rw [hcopy])
  have hstopped := hw (hi.finished (Store.version_le hv) hv
    Store.version_resourceVersion (hphase.symm.trans hfin))
  refine Nat.lt_of_le_of_ne (Store.version_le hv) fun heq => ?_
  rw [heq] at hv
  rw [Store.current_of_version hv] at hstopped
  rw [hcopy] at hm
  exact nomatch hm.symm.trans hstopped

/-- The copy as it was read. NHC does not stop a finished remediation that is not being
deleted. -/
structure ReadCopy (m : Mem) (w : Cluster) : Prop where
  fresh : Fresh w m.snr
  truthful : Truthful m.snr.value
  stopped : getPhase m.snr.value = .fencingCompleted → isStoppedByNHC m.snr.value = true →
    m.snr.value.deletionTimestamp.isSome = true

/-- The copy after the start of a remediation is recorded. -/
structure Begun (m : Mem) (w : Cluster) : Prop where
  fresh : Fresh w m.snr
  truthful : Truthful m.snr.value
  present : getPhase m.snr.value ≠ .fencingCompleted →
    (succeededStatus m.snr.value.status.conditions).isSome = true
  stopped : isStoppedByNHC m.snr.value = false

theorem lasting_readCopy (m : Mem) : Lasting (ReadCopy m) :=
  fun _ _ hg h => ⟨h.fresh.mono hg.versions, h.truthful, h.stopped⟩

theorem lasting_begun (m : Mem) : Lasting (Begun m) :=
  fun _ _ hg h => ⟨h.fresh.mono hg.versions, h.truthful, h.present, h.stopped⟩

theorem ReadCopy.reports (h : ReadCopy m w) : Reports w m.snr := reports_fresh h.fresh h.truthful

theorem Begun.reports (h : Begun m w) : Reports w m.snr := reports_fresh h.fresh h.truthful

/-- What is known of the copy on the way, until its report is stored. -/
def successStages : Stages Cluster where
  read := ReadCopy
  checked m _ := ReadCopy m
  begun := Begun
  missing m e w := Begun m w ∧ (e.isNotFound = true → Outdated m w)
  found m _ := Begun m
  chosen m _ _ := Begun m
  ended m w := Reports w m.snr

theorem success_storing : Storing true successOutline AnyError successStages.ended where
  toClient := successOutline_client
  values _ _ := trivial
  stable m := (lasting_reports m.snr).success.stable
  decode mode he hi h := reports_decode he.2.2.2 hi h mode
  update h := h
  lastError _ h := h.congr rfl rfl rfl
  patch _ _ := ⟨rfl, rfl⟩
  patched _ he h := lasting_reports _ _ _ (grows_exec he.1) h

theorem updates_reported (r : Reconciler) (m : Mem) :
    Updates successOutline r AnyError successStages.ended m fun w => Reports w m.snr :=
  success_storing.updates (lasting_reports m.snr).success.stable (fun _ _ => trivial)
    fun h he _ => lasting_reports m.snr _ _ (grows_exec he.1) h

end Copy

/-! ## 4. The handlers -/

section Handlers

variable {r : Reconciler} {m : Mem} {w : Cluster} {node : Node}

theorem removeTaint_reported (taint : Taint) (h : Reports w m.snr) :
    successOutline.wp (removeTaint r taint node m)
      (Leaves (fun _ w => Reports w m.snr) (Failed AnyError successStages.ended m) m) w :=
  (keeps_removeTaint (lasting_reports m.snr).beside_success r taint node h
    fun _ _ _ => trivial).failed fun _ _ h => h

theorem wp_removeFinalizer_reported (h : Reports w m.snr) :
    successOutline.wp (removeFinalizer r m) (Ends AnyError successStages.ended) w :=
  wp_removeFinalizer_ends success_storing.stable (updates_reported r _) (h.congr rfl rfl rfl)

theorem wp_addFinalizer_reported (h : Reports w m.snr) :
    successOutline.wp (addFinalizer r m) (Ends AnyError successStages.ended) w := by
  refine wp_addFinalizer_ends success_storing.stable (fun _ => h) (updates_reported r _)
    fun _ => h.congr rfl ?_ ?_
  · exact congrArg Status.phase (status_addFinalizerTo m.snr.value snrFinalizer)
  · exact congrArg (fun s : Status => succeededStatus s.conditions)
      (status_addFinalizerTo m.snr.value snrFinalizer)

theorem wp_recoverNode_reported (h : Reports w m.snr) :
    successOutline.wp (recoverNode r node m) (Ends AnyError successStages.ended) w :=
  wp_recoverNode_ends success_storing.stable (removeTaint_reported _ h)
    (fun _ _ h => wp_removeFinalizer_reported h) fun _ _ h => h

theorem wp_prepareReboot_reported (h : Begun m w) (hp : getPhase m.snr.value = .fencingStarted) :
    successOutline.wp (prepareReboot r node m) (Ends AnyError successStages.ended) w := by
  have hB := (lasting_begun m).beside_success
  refine wp_prepareReboot_ends success_storing.stable (G := fun _ => Begun m)
    (Keeps.failed (keeps_isNodeRebootCapable hB.toReading node h) fun _ _ => Begun.reports)
    (fun _ _ => trivial) (fun _ _ h => h.reports)
    (fun _ _ _ h => wp_addFinalizer_reported h.reports) (fun _ _ _ h => ?_) ?_
  · exact (keeps_addTaint hB r _ node h fun _ _ _ _ => trivial).failed fun _ _ => Begun.reports
  · intro _ node w _ h
    refine Outline.wp_mono (wp_setTimeAssumedRebooted hB.toReading node
      (fun _ _ _ _ _ => trivial)
      (fun _ _ _ _ _ _ h he => (lasting_begun m).success.aside rfl he h) h) ?_
    rintro res w - ⟨h, ⟨e, rfl⟩ | ⟨t, rfl⟩⟩
    · exact ⟨nofun, fun _ _ => ⟨h.reports, trivial⟩⟩
    · refine ⟨fun _ => reports_assigned h.fresh rfl ?_ (h.truthful.advance rfl ?_ ?_ ?_), nofun⟩
      · rw [hp, getPhase_preReboot rfl]
        decide
      · rw [hp]
        decide
      · rw [getPhase_preReboot rfl]
        decide
      · rw [getPhase_preReboot rfl]
        exact fun hlate => absurd hlate (by decide)

theorem wp_waitForNodeRebooted_reported (h : Begun m w)
    (hp : getPhase m.snr.value = .preRebootCompleted) :
    successOutline.wp (waitForNodeRebooted m) (Ends AnyError successStages.ended) w := by
  have hunfinished : getPhase m.snr.value ≠ .fencingCompleted := by
    rw [hp]
    decide
  have hwas : Keeps successOutline AnyError (Begun m) m w wasNodeRebooted :=
    keeps_wasNodeRebooted (lasting_begun m).reading_success fails_any h
  refine wp_waitForNodeRebooted_ends success_storing.stable
    (hwas.failed fun _ _ => Begun.reports) (fun _ _ _ => Begun.reports) ?_
  intro _ w _ h
  refine reports_assigned h.fresh rfl ?_
    (h.truthful.advance rfl hunfinished ?_ fun _ => h.present hunfinished)
  · rw [hp, getPhase_reboot rfl]
    decide
  · rw [getPhase_reboot rfl]
    decide

/-- The last phase is assigned together with the report. -/
theorem wp_handleRebootCompletedPhase_reported {rmNodeResources : Node → M Duration}
    (hp : getPhase m.snr.value = .rebootCompleted)
    (hrm : Keeps successOutline AnyError (Begun m) m w (rmNodeResources node)) :
    successOutline.wp (handleRebootCompletedPhase rmNodeResources node m)
      (Ends AnyError successStages.ended) w := by
  refine wp_handleRebootCompletedPhase_ends success_storing.stable
    (hrm.failed fun _ _ => Begun.reports) (fun _ _ _ => Begun.reports) fun w _ h => ?_
  refine wp_updateConditions_ends (lasting_begun m).reading_success h rfl ?_
  intro conditions set w _ h hs
  have hfin : getPhase ((m.setPhase fencingCompletedPhase).withConditions conditions
      set).snr.value = .fencingCompleted := getPhase_fencing rfl
  refine reports_assigned h.fresh rfl ?_ ⟨⟨fun _ => hfin, fun _ => ?_⟩, fun _ => ?_⟩
  · rw [hp, hfin]
    decide
  · exact congrArg Option.isSome hs
  · exact reportsSuccess_iff.mpr hs

theorem wp_stoppedByNHC_reported (h : ReadCopy m w) (hstopped : isStoppedByNHC m.snr.value = true) :
    successOutline.wp (stoppedByNHC r m) (Ends AnyError successStages.ended) w := by
  have hS := success_storing
  cases hdel : m.snr.value.deletionTimestamp with
  | none =>
    refine wp_stoppedByNHC_live hS.stable hdel ?_
    refine wp_updateConditions_ends (lasting_readCopy m).reading_success h rfl ?_
    intro conditions set w _ h hs
    refine reports_fresh (h.fresh.withConditions conditions set)
      (truthful_unfinished (fun hfin => ?_) hs (by decide))
    have hdeleted := h.stopped ((getPhase_congr rfl).trans hfin) hstopped
    rw [hdel] at hdeleted
    cases hdeleted
  | some t =>
    have hR := (lasting_reports m.snr).reading_success
    exact wp_stoppedByNHC_deleted hS.stable (hdel ▸ rfl)
      (Keeps.failed (keeps_getNodeFromSnr hR h.reports) fun _ _ h => h)
      (fun _ _ _ h _ => wp_removeFinalizer_reported h.1) (fun _ _ _ h => h)
      (fun _ _ _ h => removeTaint_reported _ h)
      fun _ _ _ h => wp_recoverNode_reported h

end Handlers

/-! ## 5. The manager -/

section Manager

variable {r : Reconciler} {m : Mem} {w : Cluster}

/-- A lookup of the node, in which the copy is outdated where nothing is found. -/
def LooksUp {α : Type} (m : Mem) : Except GoErr α × Mem → Cluster → Prop :=
  Leaves (fun _ => Begun m) (fun e w => Begun m w ∧ (e.isNotFound = true → Outdated m w)) m

theorem wp_getNodeFromSnr_looksUp (h : Begun m w) :
    successOutline.wp (getNodeFromSnr m) (LooksUp m) w := by
  have hR := (lasting_begun m).reading_success
  have hF (e : GoErr) : successOutline.Stable fun w =>
      Begun m w ∧ (e.isNotFound = true → Outdated m w) :=
    hR.stable.and (Outline.stable_forall fun _ => (lasting_outdated m).success.stable)
  -- what is not found for a copy that was not read as stopped is of a stopped object
  have hnotFound {e : GoErr} {w : Cluster} (hi : PhaseInv w) (h : Begun m w)
      (hlasts : e.isNotFound = true → StoppedIfFinished w) :
      Begun m w ∧ (e.isNotFound = true → Outdated m w) :=
    ⟨h, fun hnot => outdated_of_stopped hi h.fresh h.stopped (hlasts hnot)⟩
  refine wp_getNodeFromSnr_leaves hF (G := fun _ => Begun m) (fun _ => hR) (fun _ => hR.stable)
    (wp_getNodeName_leaves hF hR (fun _ => hR.stable) h (fun _ => h) ?_) ?_
  · intro ref _ _ answer w w' _ h he
    obtain rfl := Exec.read he.1 rfl
    exact ⟨fun _ _ _ _ => h, fun _ e _ _ hvalue => ⟨h, fun hnot => nomatch hvalue.symm.trans hnot⟩,
      fun e heq => hnotFound he.2.2.1 h (he.2.1 e heq)⟩
  · intro name answer w w' _ h he
    obtain rfl := Exec.read he.1 rfl
    exact ⟨fun _ _ => h, fun e heq => hnotFound he.2.2.1 h (he.2.1 e heq)⟩

/-- The report is taken back, in a copy that is not stored. -/
theorem wp_nodeNotFound_reported {e : GoErr} (h : Begun m w)
    (hout : e.isNotFound = true → Outdated m w) :
    successOutline.wp (nodeNotFound e m) (Ends AnyError successStages.ended) w := by
  refine wp_nodeNotFound_ends success_storing.stable (fun hnot => ?_) fun _ => h.reports
  have hstable := (lasting_begun m).success.stable.and (lasting_outdated m).success.stable
  refine wp_updateConditions_ends (success_storing.reading hstable) ⟨h, hout hnot⟩ rfl ?_
  rintro conditions set w - ⟨h, hout⟩ hs
  obtain ⟨snr, hreport⟩ := h.reports
  refine ⟨snr, ⟨fun hr => ?_, fun _ => ?_⟩, hreport.version, hreport.rank,
    fun hfin => .inr (hout hfin)⟩
  · exact nomatch Option.some.inj (hs.symm.trans (reportsSuccess_iff.mp hr))
  · exact congrArg Option.isSome hs

theorem begun_withConditions (h : ReadCopy m w) (hstopped : isStoppedByNHC m.snr.value = false)
    (hp : getPhase m.snr.value ≠ .fencingCompleted) {conditions : List Condition}
    (set : Option ConditionReason) (hs : succeededStatus conditions = some .unknown) :
    Begun (m.withConditions conditions set) w := by
  have hphase : getPhase (m.withConditions conditions set).snr.value = getPhase m.snr.value :=
    getPhase_congr rfl
  exact ⟨h.fresh.withConditions conditions set,
    truthful_unfinished (hphase ▸ hp) hs (by decide), fun _ => congrArg Option.isSome hs, hstopped⟩

theorem success_walk (r : Reconciler) : Walk successOutline r AnyError successStages where
  values _ _ := trivial
  stable := success_storing.stable
  config {m _} h := Keeps.failed
    (keeps_isConfigurationExist (lasting_readCopy m).reading_success h) fun _ _ => ReadCopy.reports
  disabled {m _} _ h :=
    wp_disabledNoConfig_ends (lasting_readCopy m).reading_success h
      success_storing.stable fun _ _ _ h hs => h.reports.congr rfl rfl hs
  stopped hstopped _ h := wp_stoppedByNHC_reported h hstopped
  start {m _} hstopped h :=
    wp_markStarted_ends (lasting_readCopy m).reading_success h
      (fun m => (lasting_begun m).success.stable)
      (fun hp _ set _ _ h hs => begun_withConditions h hstopped hp set hs)
      fun hp => ⟨h.fresh, h.truthful, fun hne => absurd hp hne, hstopped⟩
  target h := wp_getNodeFromSnr_looksUp h
  absent _ h := wp_nodeNotFound_reported h.1 h.2
  excluded _ h := h.reports
  strategy {m _ _} h := Keeps.failed
    (keeps_getRuntimeStrategy (lasting_begun m).reading_success _ h) fun _ _ => Begun.reports
  unhandled _ h := h.reports
  prepare hp _ h := wp_prepareReboot_reported h hp
  wait hp _ h := wp_waitForNodeRebooted_reported h hp
  delete {m node _} hp _ h := wp_handleRebootCompletedPhase_reported hp
    (keeps_deleteResourcesWrapper (lasting_begun m).beside_success node h
      (fun _ _ _ => trivial) fun _ _ _ _ => trivial)
  evict {m node _} hp _ h := wp_handleRebootCompletedPhase_reported hp
    (keeps_useOutOfServiceTaint (lasting_begun m).beside_success r node h fails_any
      (fun _ _ _ _ => trivial) fun _ _ _ _ => trivial)
  finish _ _ h := wp_handleFencingCompletedPhase_ends success_storing.stable
    (fun _ => h.reports) fun _ => wp_recoverNode_reported h.reports

theorem reconcileManager_success (r : Reconciler) (w : Cluster) :
    successOutline.wp (reconcileManager r) (fun _ _ => True) w := by
  refine Outline.wp_mono (success_storing.reconcileManager (success_walk r) ?_ w)
    fun _ _ _ _ => trivial
  intro snr w hi he
  have hv := (he.1.getSNR rfl).1
  exact ⟨⟨snr.value, snr.value.status.conditions, hv, rfl⟩, hi _ _ hv, he.2.1 snr rfl⟩

end Manager

/-! ## 6. Whole runs -/

/-- The runs of `ReconcileManager` in which success lasts. -/
def SuccessRun (r : Reconciler) (w₀ : Cluster) (s : State Call Resp Cluster Reconciled) : Prop :=
  Reachable (fun c w a w' => Exec true c w a w' ∧ SuccessLasts c w a) SuccessOthers
    (reconcileManager r) w₀ s

theorem successOutline_relies : Outline.Relies
    (fun c w a w' => Exec true c w a w' ∧ SuccessLasts c w a) SuccessOthers phaseOutline
    successOutline where
  call h := h.1
  move h := h.toOthers
  relies_call hi _ hj h := ⟨h.1, h.2, hi, hj⟩
  relies_move _ _ h := h

/-- A SelfNodeRemediation that was just created reports nothing. -/
theorem successInv_created {w : Cluster} (h : Created w)
    (hs : w.snr.current.status.conditions = []) : SuccessInv w := by
  have hsnr : w.snr = ⟨w.snr.current, []⟩ := by rw [← h.versions]
  have hp := getPhase_started h.phase
  show w.snr.All Truthful
  rw [hsnr]
  refine Store.all_new ⟨⟨fun hr => ?_, fun hlate => ?_⟩, fun hfin => ?_⟩
  · rw [reportsSuccess_iff, hs] at hr
    cases hr
  · rw [hp] at hlate
    cases hlate
  · exact nomatch hp.symm.trans hfin

/-- In every state of every such run: a stored version reports success if and only
if it is in phase Fencing-Completed, and every later version does too. -/
theorem success_final (r : Reconciler) {w₀ : Cluster} (h₀ : Created w₀)
    (hs : w₀.snr.current.status.conditions = []) {s : State Call Resp Cluster Reconciled}
    (h : SuccessRun r w₀ s) :
    (∀ n snr, s.world.snr.version n = some snr →
      (reportsSuccess snr ↔ getPhase snr = .fencingCompleted)) ∧
    ∀ i j a b, i ≤ j → s.world.snr.version i = some a → s.world.snr.version j = some b →
      reportsSuccess a → reportsSuccess b := by
  obtain ⟨⟨hi, -⟩, hsuccess, -⟩ := Outline.stateInv_relies successOutline_relies
    (fun w _ => reconcileManager_phases r w) (fun w _ _ => reconcileManager_success r w)
    (phaseInv_created h₀) (successInv_created h₀ hs) h
  refine ⟨fun n snr hv => ⟨(hsuccess n snr hv).reported, (hsuccess n snr hv).finished⟩, ?_⟩
  intro i j a b hij ha hb hr
  exact (hsuccess j b hb).finished (hi.finished hij ha hb ((hsuccess i a ha).reported hr))

/-! The small cluster until its remediation is finished: up to the last status
update nothing can go wrong, as the last phase is not stored yet. -/

/-- The phase Fencing-Completed is not stored. -/
def Cluster.isUnfinished (w : Cluster) : Bool := getPhase w.snr.current ≠ .fencingCompleted

theorem successLasts_served {c : Call} {w : Cluster} (h : (serve c w).2.isUnfinished = true) :
    SuccessLasts c w (serve c w).1 := by
  have hne := of_decide_eq_true h
  cases c with
  | getSNR =>
    intro snr hsnr hfin
    simp only [serve] at hsnr
    split at hsnr
    · cases hsnr
    · cases hsnr
      exact absurd hfin hne
  | getNode name => exact fun _ _ _ hfin => absurd hfin hne
  | getMachine ns name => exact fun _ _ _ hfin => absurd hfin hne
  | _ => trivial

theorem SuccessOthers.tick {w : Cluster} (now : Time) (h : w.now ≤ now) :
    SuccessOthers w { w with now := now } :=
  ⟨⟨h, rfl, id, .inl rfl⟩, rfl⟩

/-- A write of the object that keeps its status. -/
theorem SuccessOthers.edit {w : Cluster} {f : SNR → SNR}
    (h : ∀ snr, (f snr).status = snr.status) : SuccessOthers w (w.edit f) :=
  ⟨⟨Int.le_refl _, rfl, id, .inr ⟨_, rfl, congrArg Status.phase (h _),
    congrArg Status.timeAssumedRebooted (h _)⟩⟩,
    congrArg (fun s : Status => succeededStatus s.conditions) (h _)⟩

theorem SuccessOthers.lostNodes {w : Cluster} :
    SuccessOthers w { w with nodes := fun _ => none } :=
  ⟨⟨Int.le_refl _, rfl, id, .inl rfl⟩, rfl⟩

theorem successRun_ready : SuccessRun smallManager smallCluster
    ⟨reconcileAlone smallRebooted, none⟩ := by
  have hserve (c : Call) (w : Cluster) (h : (serve c w).2.isUnfinished = true) :
      Exec true c w (serve c w).1 (serve c w).2 ∧ SuccessLasts c w (serve c w).1 :=
    ⟨.served, successLasts_served h⟩
  have hstart : SuccessRun smallManager smallCluster ⟨smallCluster, none⟩ := .refl
  have honce := reachable_alone Cluster.isUnfinished hserve (by decide +kernel) hstart
  have htwice := reachable_alone Cluster.isUnfinished hserve (by decide +kernel) honce
  have hrebooted := htwice.tail (.env (SuccessOthers.tick 2000000000000 (by decide +kernel)))
  exact reachable_alone Cluster.isUnfinished hserve (by decide +kernel) hrebooted

theorem success_final_small : ∃ s, SuccessRun smallManager smallCluster s ∧
    reportsSuccess s.world.snr.current ∧
    getPhase s.world.snr.current = .fencingCompleted := by
  obtain ⟨c, k, w, hc, hcheck, h⟩ := reachable_upTo Cluster.isUnfinished Call.isStatusWrite
    (fun p => isStatusConditionPresentAndEqual
      (serve p.1 p.2).2.snr.current.status.conditions .succeeded .true_)
    (fun c w h => ⟨.served, successLasts_served h⟩) (by decide +kernel) successRun_ready
  have hlasts : SuccessLasts c w (serve c w).1 := by
    cases c with
    | updateSNRStatus _ => trivial
    | patchSNRStatus _ _ => trivial
    | _ => cases hc
  have hrun : SuccessRun smallManager smallCluster ⟨(serve c w).2, some (k (serve c w).1)⟩ :=
    h.tail (.call ⟨.served, hlasts⟩)
  have hfinal := success_final smallManager ⟨rfl, rfl, rfl, rfl⟩ rfl hrun
  exact ⟨_, hrun, hcheck, (hfinal.1 _ _ Store.version_resourceVersion).mp hcheck⟩

/-- The runs among others that leave the Succeeded condition alone. -/
def ReportRun (r : Reconciler) (w₀ : Cluster) (s : State Call Resp Cluster Reconciled) : Prop :=
  Reachable (Exec true) SuccessOthers (reconcileManager r) w₀ s

theorem reportRun_reconcileAlone {w₀ w : Cluster} (h : ReportRun smallManager w₀ ⟨w, none⟩) :
    ReportRun smallManager w₀ ⟨reconcileAlone w, none⟩ :=
  reachable_alone (fun _ => true) (fun _ _ _ => .served) (Prog.passes_true _ w) h

/-- A stored version reported success, and the current one does not, in the same
phase. -/
def Retracted (w : Cluster) : Prop :=
  (∃ n snr, w.snr.version n = some snr ∧ reportsSuccess snr) ∧ ¬ reportsSuccess w.snr.current ∧
    getPhase w.snr.current = .fencingCompleted

/-- The report is taken back when NHC stops the finished remediation, and when its
node is gone. -/
theorem success_retracted :
    (∃ s, ReportRun smallManager smallCluster s ∧ Retracted s.world ∧
      isStoppedByNHC s.world.snr.current = true) ∧
    ∃ s, ReportRun smallManager smallCluster s ∧ Retracted s.world ∧
      isStoppedByNHC s.world.snr.current = false := by
  have hfinished : ReportRun smallManager smallCluster ⟨smallFenced, none⟩ :=
    reportRun_reconcileAlone (Reachable.weaken (fun _ _ _ _ h => h.1) successRun_ready)
  have hreported : reportsSuccess smallFenced.snr.current := by
    unfold reportsSuccess
    decide +kernel
  constructor
  · refine ⟨_, reportRun_reconcileAlone
        (hfinished.tail (.env (.edit (f := withTimeout) fun _ => rfl))),
      ⟨⟨4, smallFenced.snr.current, ?_, hreported⟩, ?_, ?_⟩, ?_⟩
    · decide +kernel
    · unfold reportsSuccess
      decide +kernel
    · decide +kernel
    · decide +kernel
  · -- the first reconcile records the error, whose answer overwrites its conditions
    refine ⟨_, reportRun_reconcileAlone
        (reportRun_reconcileAlone (hfinished.tail (.env .lostNodes))),
      ⟨⟨4, smallFenced.snr.current, ?_, hreported⟩, ?_, ?_⟩, ?_⟩
    · decide +kernel
    · unfold reportsSuccess
      decide +kernel
    · decide +kernel
    · decide +kernel

end SelfNodeRemediation
