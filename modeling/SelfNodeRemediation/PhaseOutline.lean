import SelfNodeRemediation.Reads

/-!
# A proof outline for the phases

The phases of one SelfNodeRemediation over whole runs of `ReconcileManager`:
any reconcile may crash, any call may fail before or after it took effect, the
SelfNodeRemediation may be read from a lagging cache, and between any two calls
the rest of the cluster changes, time passes, and others write to the
SelfNodeRemediation, as long as they leave its phase and its assumed reboot time
alone.

* `Progress` is what the status of a stored version looks like, and `Forward`
  how a later version differs from an earlier one.
* `Held` is what a reconcile knows about its copy all along: the version it was
  read as, and that the copy is at most one phase ahead of it. A status update
  is accepted only if that version is still the current one, so it moves the
  stored phase by at most one step (`phaseInv_statusUpdate`).
* `phaseOutline` puts the invariant and what each call needs together.
-/

namespace SelfNodeRemediation

open Interaction Versioned

/-! ## 1. Stored versions -/

def RemediationPhase.rank : RemediationPhase → Nat
  | .fencingStarted => 0
  | .preRebootCompleted => 1
  | .rebootCompleted => 2
  | .fencingCompleted => 3
  | .unknown => 4

/-- The time was computed by a `prepareReboot` and cut to whole seconds. -/
def Origin (w : Cluster) (t : Time) : Prop :=
  ∃ a ∈ w.assumed, t = Time.truncate (a.time + a.rebootDuration.toInt)

/-- The phase and the assumed reboot time of a stored version. -/
inductive Progress (w : Cluster) : RemediationPhase → Option Time → Prop
  | started : Progress w .fencingStarted none
  | preReboot {t : Time} : Origin w t → Progress w .preRebootCompleted (some t)
  | reboot {t : Time} : Origin w t → t ≤ w.now → Progress w .rebootCompleted (some t)
  | fencing {t : Time} : Origin w t → t ≤ w.now → Progress w .fencingCompleted (some t)

def Stored (w : Cluster) (snr : SNR) : Prop :=
  Progress w (getPhase snr) snr.status.timeAssumedRebooted

/-- The phase is not behind, and an assumed reboot time that is set stays. -/
def Forward (old new : SNR) : Prop :=
  (getPhase old).rank ≤ (getPhase new).rank ∧
    ∀ t, old.status.timeAssumedRebooted = some t → new.status.timeAssumedRebooted = some t

theorem forward_refl (snr : SNR) : Forward snr snr := ⟨Nat.le_refl _, fun _ h => h⟩

theorem forward_trans (a b c : SNR) (h : Forward a b) (h' : Forward b c) : Forward a c :=
  ⟨Nat.le_trans h.1 h'.1, fun t ht => h'.2 t (h.2 t ht)⟩

/-- One version after another: forward, by one phase at most. -/
def Next (old new : SNR) : Prop :=
  (getPhase new).rank ≤ (getPhase old).rank + 1 ∧ Forward old new

/-- The phase and the assumed reboot time are untouched. -/
def SamePhase (old new : Status) : Prop :=
  new.phase = old.phase ∧ new.timeAssumedRebooted = old.timeAssumedRebooted

theorem next_of_samePhase {old new : SNR} (h : SamePhase old.status new.status) :
    Next old new := by
  unfold Next Forward
  rw [getPhase_congr h.1]
  exact ⟨Nat.le_succ _, Nat.le_refl _, fun t ht => h.2.trans ht⟩

theorem stored_of_samePhase {w : Cluster} {old new : SNR} (h : SamePhase old.status new.status)
    (hs : Stored w old) : Stored w new := by
  unfold Stored
  rw [getPhase_congr h.1, h.2]
  exact hs

structure PhaseInv (w : Cluster) : Prop where
  stored : w.snr.All (Stored w)
  steps : w.snr.Steps Next
  assumed : ∀ a ∈ w.assumed, a.time ≤ w.now

theorem PhaseInv.forward {w : Cluster} (h : PhaseInv w) : w.snr.Ordered Forward := by
  have hsteps : w.snr.Steps Forward := fun n a b ha hb => (h.steps n a b ha hb).2
  exact hsteps.ordered forward_refl forward_trans

/-! ## 2. What only grows -/

/-- Time passes, versions and log entries are added. -/
structure Grows (w w' : Cluster) : Prop where
  time : w.now ≤ w'.now
  assumed : ∀ a ∈ w.assumed, a ∈ w'.assumed
  versions : w.snr.Extends w'.snr

theorem Origin.mono {w w' : Cluster} {t : Time} (h : Origin w t) (hg : Grows w w') :
    Origin w' t := by
  obtain ⟨a, ha, ht⟩ := h
  exact ⟨a, hg.assumed a ha, ht⟩

theorem Progress.mono {w w' : Cluster} {phase : RemediationPhase} {t : Option Time}
    (h : Progress w phase t) (hg : Grows w w') : Progress w' phase t := by
  cases h with
  | started => exact .started
  | preReboot ho => exact .preReboot (ho.mono hg)
  | reboot ho ht => exact .reboot (ho.mono hg) (Int.le_trans ht hg.time)
  | fencing ho ht => exact .fencing (ho.mono hg) (Int.le_trans ht hg.time)

/-- One write, or none. -/
theorem PhaseInv.write {w w' : Cluster} (h : PhaseInv w) (hg : Grows w w')
    (ha : ∀ a ∈ w'.assumed, a.time ≤ w'.now)
    (hs : w'.snr = w.snr ∨
      ∃ snr, w'.snr = w.snr.put snr ∧ Stored w snr ∧ Next w.snr.current snr) :
    PhaseInv w' := by
  have hstored : w.snr.All (Stored w') := fun n a hv => (h.stored n a hv).mono hg
  rcases hs with hs | ⟨snr, hs, hsnr, hf⟩
  · exact ⟨hs ▸ hstored, hs ▸ h.steps, ha⟩
  · refine ⟨?_, ?_, ha⟩
    · rw [hs]
      exact Store.all_put hstored (hsnr.mono hg)
    · rw [hs]
      exact Store.steps_put h.steps hf

/-! ## 3. The copy of a reconcile -/

/-- Some version had the finalizer. -/
def HadFinalizer (w : Cluster) : Prop :=
  ∃ n snr, w.snr.version n = some snr ∧ containsFinalizer snr snrFinalizer = true

/-- The phase and the assumed reboot time of a copy that was read as `snr`: the
same phase, or one step ahead. -/
inductive Advance (w : Cluster) (snr : SNR) : RemediationPhase → Option Time → Prop
  | same : Advance w snr (getPhase snr) snr.status.timeAssumedRebooted
  | prepared {a : Assumption} : getPhase snr = .fencingStarted → HadFinalizer w →
      a ∈ w.assumed →
      Advance w snr .preRebootCompleted (some (a.time + a.rebootDuration.toInt))
  | rebooted {t : Time} : getPhase snr = .preRebootCompleted →
      snr.status.timeAssumedRebooted = some t → t ≤ w.now →
      Advance w snr .rebootCompleted (some t)
  | fenced {t : Time} : getPhase snr = .rebootCompleted →
      snr.status.timeAssumedRebooted = some t → Advance w snr .fencingCompleted (some t)

/-- What a reconcile knows about its copy from the read to the end. -/
def Held (w : Cluster) (copy : Revision SNR) : Prop :=
  ∃ snr, w.snr.version copy.resourceVersion = some snr ∧
    Advance w snr (getPhase copy.value) copy.value.status.timeAssumedRebooted

/-- The copy is as it was read, but for the conditions. -/
def Fresh (w : Cluster) (copy : Revision SNR) : Prop :=
  ∃ snr conditions, w.snr.version copy.resourceVersion = some snr ∧
    copy.value = { snr with status := { snr.status with conditions := conditions } }

theorem HadFinalizer.mono {w w' : Cluster} (h : HadFinalizer w) (hg : Grows w w') :
    HadFinalizer w' := by
  obtain ⟨n, snr, hv, hf⟩ := h
  exact ⟨n, snr, hg.versions n snr hv, hf⟩

theorem Advance.mono {w w' : Cluster} {snr : SNR} {phase : RemediationPhase} {t : Option Time}
    (h : Advance w snr phase t) (hg : Grows w w') : Advance w' snr phase t := by
  cases h with
  | same => exact .same
  | prepared hp hf ha => exact .prepared hp (hf.mono hg) (hg.assumed _ ha)
  | rebooted hp ht hnow => exact .rebooted hp ht (Int.le_trans hnow hg.time)
  | fenced hp ht => exact .fenced hp ht

theorem Held.mono {w w' : Cluster} {copy : Revision SNR} (h : Held w copy) (hg : Grows w w') :
    Held w' copy := by
  obtain ⟨snr, hv, ha⟩ := h
  exact ⟨snr, hg.versions _ snr hv, ha.mono hg⟩

theorem Fresh.mono {w w' : Cluster} {copy : Revision SNR} (h : Fresh w copy)
    (hv : w.snr.Extends w'.snr) : Fresh w' copy := by
  obtain ⟨snr, conditions, hsnr, hc⟩ := h
  exact ⟨snr, conditions, hv _ snr hsnr, hc⟩

/-- Other conditions do not count. -/
theorem Fresh.withConditions {w : Cluster} {m : Mem} (hf : Fresh w m.snr)
    (conditions : List Condition) (reason : Option ConditionReason) :
    Fresh w (m.withConditions conditions reason).snr := by
  obtain ⟨snr, cs, hv, hc⟩ := hf
  refine ⟨snr, conditions, hv, ?_⟩
  show { m.snr.value with status := { m.snr.value.status with conditions := conditions } } = _
  rw [hc]

theorem Fresh.held {w : Cluster} {copy : Revision SNR} (h : Fresh w copy) : Held w copy := by
  obtain ⟨snr, conditions, hv, hc⟩ := h
  refine ⟨snr, hv, ?_⟩
  rw [hc]
  exact .same

/-- The version as it was read has the copy's phase. -/
theorem Fresh.stored {w : Cluster} {copy : Revision SNR} (h : Fresh w copy) (hi : PhaseInv w) :
    Stored w copy.value := by
  obtain ⟨snr, conditions, hv, hc⟩ := h
  rw [hc]
  exact hi.stored _ snr hv

/-! ## 4. What each call needs -/

/-- Cleanup may start: the stored assumed reboot time has come. -/
def Ready (w : Cluster) : Prop :=
  ∃ t, w.snr.current.status.timeAssumedRebooted = some t ∧ t ≤ w.now ∧ Origin w t

/-- The patch puts the out-of-service taint on the node. -/
def AddsOutOfService (base changed : Node) : Prop :=
  taintExists changed.taints outOfServiceTaint = true ∧
    taintExists base.taints outOfServiceTaint = false

/-- An `Update` adds the finalizer to a version that is not being deleted, or
takes it from one that is, and changes nothing else. -/
def FinalizerEdit (w : Cluster) (sent : Revision SNR) : Prop :=
  ∃ snr status, w.snr.version sent.resourceVersion = some snr ∧
    ((snr.deletionTimestamp = none ∧
        sent.value = { addFinalizerTo snr snrFinalizer with status := status }) ∨
      (snr.deletionTimestamp.isSome = true ∧
        sent.value = { removeFinalizerFrom snr snrFinalizer with status := status }))

/-- What `addFinalizer` sends. -/
theorem Fresh.edit_add {w : Cluster} {m : Mem} (h : Fresh w m.snr)
    (hdel : m.snr.value.deletionTimestamp = none) :
    FinalizerEdit w (m.modify fun snr => addFinalizerTo snr snrFinalizer).snr := by
  obtain ⟨snr, conditions, hv, hc⟩ := h
  refine ⟨snr, { snr.status with conditions := conditions }, hv, .inl ⟨?_, ?_⟩⟩
  · rw [hc] at hdel
    exact hdel
  · show addFinalizerTo m.snr.value snrFinalizer = _
    rw [hc, addFinalizerTo_status]

/-- What `removeFinalizer` sends. -/
theorem Fresh.edit_remove {w : Cluster} {m : Mem} (h : Fresh w m.snr)
    (hdel : m.snr.value.deletionTimestamp.isSome = true) :
    FinalizerEdit w (m.modify fun snr => removeFinalizerFrom snr snrFinalizer).snr := by
  obtain ⟨snr, conditions, hv, hc⟩ := h
  refine ⟨snr, { snr.status with conditions := conditions }, hv, .inr ⟨?_, ?_⟩⟩
  · rw [hc] at hdel
    exact hdel
  · show removeFinalizerFrom m.snr.value snrFinalizer = _
    rw [hc]
    rfl

/-- What an `Update` that goes through stores. -/
theorem FinalizerEdit.stores {w : Cluster} {sent : Revision SNR} (h : FinalizerEdit w sent)
    (hv : sent.resourceVersion = w.snr.resourceVersion) :
    (w.snr.current.deletionTimestamp = none ∧
      updated w.snr.current sent.value = addFinalizerTo w.snr.current snrFinalizer) ∨
    (w.snr.current.deletionTimestamp.isSome = true ∧
      updated w.snr.current sent.value = removeFinalizerFrom w.snr.current snrFinalizer) := by
  obtain ⟨snr, status, hsnr, hsent⟩ := h
  rw [hv] at hsnr
  obtain rfl := Store.current_of_version hsnr
  rcases hsent with ⟨hlive, hsent⟩ | ⟨hdeleted, hsent⟩
  · refine .inl ⟨hlive, ?_⟩
    rw [hsent]
    unfold addFinalizerTo
    split <;> rfl
  · refine .inr ⟨hdeleted, ?_⟩
    rw [hsent]
    rfl

def PhaseAllowed : Call → Cluster → Prop
  | .updateSNRStatus sent, w => Held w sent
  | .updateSNR sent, w => FinalizerEdit w sent
  | .patchSNRStatus base changed, _ => SamePhase base.status changed.status
  | .patchNode base changed, w => AddsOutOfService base changed → Ready w
  | .listNamespaces, w => Ready w
  | .deleteAllOf _ _, w => Ready w
  | .logTimeAssumedRebooted now _, w => now ≤ w.now
  | _, _ => True

/-- Moves of everything but the reconcile. -/
structure Others (w w' : Cluster) : Prop where
  time : w.now ≤ w'.now
  assumed : w'.assumed = w.assumed
  gone : w.gone = true → w'.gone = true
  snr : w'.snr = w.snr ∨
    ∃ snr, w'.snr = w.snr.put snr ∧ SamePhase w.snr.current.status snr.status

theorem Others.grows {w w' : Cluster} (h : Others w w') : Grows w w' := by
  refine ⟨h.time, fun a ha => h.assumed ▸ ha, ?_⟩
  rcases h.snr with hs | ⟨snr, hs, _⟩
  · rw [hs]
    exact .refl _
  · rw [hs]
    exact Store.extends_put _ _

/-! ## 5. The invariant is kept -/

theorem truncate_truncate (t : Time) : Time.truncate (Time.truncate t) = Time.truncate t := by
  have h (n : Int) : n - n % 1000000000 - (n - n % 1000000000) % 1000000000 =
      n - n % 1000000000 := by
    omega
  exact h t

theorem Origin.truncate {w : Cluster} {t : Time} (h : Origin w t) : Time.truncate t = t := by
  obtain ⟨a, _, rfl⟩ := h
  exact truncate_truncate _

/-- A stored assumed reboot time is in whole seconds already. -/
theorem Progress.truncate {w : Cluster} {phase : RemediationPhase} {t : Option Time}
    (h : Progress w phase t) : t.map Time.truncate = t := by
  cases h with
  | started => rfl
  | preReboot ho => exact congrArg some ho.truncate
  | reboot ho _ => exact congrArg some ho.truncate
  | fencing ho _ => exact congrArg some ho.truncate

/-- The last phase. -/
theorem Progress.finished {w : Cluster} {phase : RemediationPhase} {t : Option Time}
    (h : Progress w phase t) (hrank : RemediationPhase.fencingCompleted.rank ≤ phase.rank) :
    phase = .fencingCompleted := by
  cases h with
  | started => cases hrank
  | preReboot _ => exact absurd hrank (by decide)
  | reboot _ _ => exact absurd hrank (by decide)
  | fencing _ _ => rfl

/-- A stored version that is no earlier than one in the last phase is in it too. -/
theorem PhaseInv.finished {w : Cluster} (hi : PhaseInv w) {i j : Nat} {a b : SNR} (hij : i ≤ j)
    (ha : w.snr.version i = some a) (hb : w.snr.version j = some b)
    (hp : getPhase a = .fencingCompleted) : getPhase b = .fencingCompleted := by
  have hstored : Progress w (getPhase b) b.status.timeAssumedRebooted := hi.stored j b hb
  exact hstored.finished (hp ▸ (hi.forward i j a b hij ha hb).1)

/-- A copy that is one step ahead of the version it was read as is stored as the
next phase. -/
theorem Advance.progress {w : Cluster} {snr : SNR} {phase : RemediationPhase} {t : Option Time}
    (h : Advance w snr phase t) (hs : Stored w snr) :
    Progress w phase (t.map Time.truncate) ∧ phase.rank ≤ (getPhase snr).rank + 1 ∧
      (getPhase snr).rank ≤ phase.rank ∧
        ∀ u, snr.status.timeAssumedRebooted = some u → t.map Time.truncate = some u := by
  have htrunc := hs.truncate
  unfold Stored at hs
  cases h with
  | same => exact ⟨htrunc.symm ▸ hs, Nat.le_succ _, Nat.le_refl _, fun u hu => htrunc.trans hu⟩
  | prepared hp _ ha =>
    rw [hp] at hs ⊢
    generalize ht : snr.status.timeAssumedRebooted = t at hs
    cases hs with
    | started => exact ⟨.preReboot ⟨_, ha, rfl⟩, by decide, by decide, fun u hu => nomatch hu⟩
  | rebooted hp ht hnow =>
    rw [ht] at htrunc hs
    rw [hp] at hs ⊢
    cases hs with
    | preReboot ho =>
      exact ⟨htrunc.symm ▸ .reboot ho hnow, by decide, by decide,
        fun u hu => htrunc.trans (ht.symm.trans hu)⟩
  | fenced hp ht =>
    rw [ht] at htrunc hs
    rw [hp] at hs ⊢
    cases hs with
    | reboot ho hnow =>
      exact ⟨htrunc.symm ▸ .fencing ho hnow, by decide, by decide,
        fun u hu => htrunc.trans (ht.symm.trans hu)⟩

/-- A status update from a copy that is held. -/
theorem phaseInv_statusUpdate {w : Cluster} {sent : Revision SNR} (hi : PhaseInv w)
    (hh : Held w sent) (hv : sent.resourceVersion = w.snr.resourceVersion) :
    PhaseInv (w.storeStatus sent.value.status.serialize) := by
  obtain ⟨snr, hsnr, ha⟩ := hh
  rw [hv] at hsnr
  obtain rfl := Store.current_of_version hsnr
  obtain ⟨hp, hnext, hrank, htime⟩ := ha.progress hi.stored.current
  have hphase : getPhase { w.snr.current with status := sent.value.status.serialize } =
      getPhase sent.value := getPhase_congr rfl
  refine hi.write ⟨Int.le_refl _, fun a ha => ha, Store.extends_putIfChanged _ _⟩ hi.assumed ?_
  refine (Store.putIfChanged_cases _ _).imp id fun hput => ⟨_, hput, ?_, ?_, ?_, htime⟩
  · unfold Stored
    rw [hphase]
    exact hp
  · rw [hphase]
    exact hnext
  · rw [hphase]
    exact hrank

/-- A write that leaves phase and assumed reboot time alone. -/
theorem phaseInv_samePhase {w w' : Cluster} {snr : SNR} (hi : PhaseInv w)
    (hnow : w'.now = w.now) (hassumed : w'.assumed = w.assumed)
    (hsnr : w'.snr = w.snr.putIfChanged snr) (hs : SamePhase w.snr.current.status snr.status) :
    PhaseInv w' := by
  refine hi.write ⟨hnow ▸ Int.le_refl _, fun a ha => hassumed ▸ ha, ?_⟩ ?_ ?_
  · rw [hsnr]
    exact Store.extends_putIfChanged _ _
  · rw [hnow, hassumed]
    exact hi.assumed
  · rw [hsnr]
    exact (Store.putIfChanged_cases _ _).imp id fun hput =>
      ⟨snr, hput, stored_of_samePhase hs hi.stored.current, next_of_samePhase hs⟩

theorem samePhase_merged {base changed stored : Status} (h : SamePhase base changed) :
    SamePhase stored (merged base.serialize changed.serialize stored) := by
  constructor
  · exact if_pos h.1.symm
  · exact if_pos (congrArg (Option.map Time.truncate) h.2.symm)

/-- Where the world keeps its clock, its log and its SelfNodeRemediation. -/
theorem PhaseInv.frame {w w' : Cluster} (hi : PhaseInv w) (hnow : w'.now = w.now)
    (hassumed : w'.assumed = w.assumed) (hsnr : w'.snr = w.snr) : PhaseInv w' := by
  refine hi.write ⟨hnow ▸ Int.le_refl _, fun a ha => hassumed ▸ ha, hsnr ▸ .refl _⟩ ?_ (.inl hsnr)
  rw [hnow, hassumed]
  exact hi.assumed

theorem phaseInv_env {w w' : Cluster} (hi : PhaseInv w) (he : Others w w') : PhaseInv w' := by
  refine hi.write he.grows (fun a ha => ?_) ?_
  · exact Int.le_trans (hi.assumed a (he.assumed ▸ ha)) he.time
  · exact he.snr.imp id fun ⟨snr, hput, hs⟩ =>
      ⟨snr, hput, stored_of_samePhase hs hi.stored.current, next_of_samePhase hs⟩

theorem phaseInv_exec {lagging : Bool} {c : Call} {w w' : Cluster} {r : Resp c} (hi : PhaseInv w)
    (ha : PhaseAllowed c w) (he : Exec lagging c w r w') : PhaseInv w' := by
  rcases he.change with rfl | hchange
  · exact hi
  · cases hchange with
    | updateSNRStatus _ hv => exact phaseInv_statusUpdate hi ha hv
    | updateSNR _ _ => exact phaseInv_samePhase hi rfl rfl rfl ⟨rfl, rfl⟩
    | patchSNRStatus _ => exact phaseInv_samePhase hi rfl rfl rfl (samePhase_merged ha)
    | logTimeAssumedRebooted =>
      refine hi.write ⟨Int.le_refl _, fun a => List.mem_cons_of_mem _, .refl _⟩ ?_ (.inl rfl)
      intro a hmem
      rcases List.mem_cons.mp hmem with rfl | hmem
      · exact ha
      · exact hi.assumed a hmem
    | patchNode | deleteAllOf | reboot => exact hi.frame rfl rfl rfl

def phaseOutline : Outline Call Resp Cluster where
  exec := Exec true
  env := Others
  inv := PhaseInv
  allowed := PhaseAllowed
  inv_env := phaseInv_env
  inv_exec := phaseInv_exec

end SelfNodeRemediation
