import SelfNodeRemediation.RebootTime
import SelfNodeRemediation.Walk

/-!
# The phase machine

`reconcileManager_phases` proves `ReconcileManager` against the outline of the
phases, function by function, and `phase_machine` reads off what holds over
whole runs: the stored phase only moves forward, a stored assumed reboot time
stays, it is set from Pre-Reboot-Completed on, so no reconcile panics, and
cleanup starts only when it has come. By `RebootTime` it is then the clock of a
`prepareReboot` plus the reboot duration of its target node.
-/

namespace SelfNodeRemediation

open Interaction Versioned

/-! ## 1. Taints and cleanup -/

theorem phaseOutline_client : Client true phaseOutline where
  exec h := h
  reads {c w} h _ := by cases c <;> trivial

theorem grows_exec {lagging : Bool} {c : Call} {w w' : Cluster} {r : Resp c}
    (h : Exec lagging c w r w') : Grows w w' := by
  have hversions := h.extends
  rcases h.change with rfl | hchange
  · exact ⟨Int.le_refl _, fun _ h => h, hversions⟩
  · cases hchange with
    | logTimeAssumedRebooted =>
      exact ⟨Int.le_refl _, fun _ => List.mem_cons_of_mem _, hversions⟩
    | _ => exact ⟨Int.le_refl _, fun _ h => h, hversions⟩

/-- A fact that stays true in a world that grows. -/
def Lasting (P : Cluster → Prop) : Prop := ∀ w w', Grows w w' → P w → P w'

theorem Lasting.stable {P : Cluster → Prop} (h : Lasting P) : phaseOutline.Stable P :=
  fun w w' hp he => h w w' he.grows hp

theorem lasting_fresh (copy : Revision SNR) : Lasting fun w => Fresh w copy :=
  fun _ _ hg h => h.mono hg.versions

theorem lasting_held (copy : Revision SNR) : Lasting fun w => Held w copy :=
  fun _ _ hg h => h.mono hg

theorem Lasting.beside {P : Cluster → Prop} (h : Lasting P) :
    Beside phaseOutline GoErr.IsValue P :=
  phaseOutline_client.beside (fun _ he => he) ⟨h.stable, fun _ he => h _ _ (grows_exec he)⟩

theorem fresh_beside (m : Mem) : Beside phaseOutline GoErr.IsValue fun w => Fresh w m.snr :=
  (lasting_fresh m.snr).beside

theorem fresh_reading (m : Mem) : Reading phaseOutline GoErr.IsValue fun w => Fresh w m.snr :=
  (fresh_beside m).toReading

/-- Only adding the out-of-service taint adds it. -/
theorem AddsOutOfService.of_withTaint {taint : Taint} {node : Node} {now : Time}
    (h : AddsOutOfService node (withTaint taint now node)) :
    taint.matchTaint outOfServiceTaint = true := by
  obtain ⟨hchanged, hbase⟩ := h
  unfold withTaint at hchanged
  rw [taintExists_append, hbase, Bool.false_or] at hchanged
  simpa [taintExists, Taint.matchTaint] using hchanged

theorem not_addsOutOfService_withoutTaint (taint : Taint) (node : Node) :
    ¬ AddsOutOfService node (withoutTaint taint node) := by
  rintro ⟨hchanged, hbase⟩
  rw [taintExists_of_deleteTaint hchanged] at hbase
  cases hbase

/-- Only the out-of-service taint needs the assumed reboot time to have come. -/
theorem allowed_withTaint {w : Cluster} {taint : Taint} {node : Node} {now : Time}
    (h : taint.matchTaint outOfServiceTaint = true → Ready w) :
    PhaseAllowed (.patchNode node (withTaint taint now node)) w :=
  fun hadds => h hadds.of_withTaint

theorem allowed_withoutTaint (w : Cluster) (taint : Taint) (node : Node) :
    PhaseAllowed (.patchNode node (withoutTaint taint node)) w :=
  fun hadds => absurd hadds (not_addsOutOfService_withoutTaint taint node)

theorem keeps_removeTaint_fresh (r : Reconciler) (taint : Taint) (node : Node) {m : Mem}
    {w : Cluster} (hf : Fresh w m.snr) :
    Keeps phaseOutline GoErr.IsValue (fun w => Fresh w m.snr) m w (removeTaint r taint node) :=
  keeps_removeTaint (fresh_beside m) r taint node hf fun w _ _ => allowed_withoutTaint w taint node

/-! ## 2. What the copy becomes -/

/-- In phase Reboot-Completed the assumed reboot time has come, and it is the one
that is stored now, whatever version the copy is. -/
theorem ready_of_fresh {w : Cluster} {copy : Revision SNR} (hi : PhaseInv w) (hf : Fresh w copy)
    (hp : getPhase copy.value = .rebootCompleted) : Ready w := by
  have hs := hf.stored hi
  obtain ⟨snr, conditions, hv, hc⟩ := hf
  have htime : copy.value.status.timeAssumedRebooted = snr.status.timeAssumedRebooted := by rw [hc]
  unfold Stored at hs
  rw [hp, htime] at hs
  generalize ht : snr.status.timeAssumedRebooted = t at hs
  cases hs with
  | reboot ho hnow => exact ⟨_, (hi.forward.current hv).2 _ ht, hnow, ho⟩

/-- Only the phase and the assumed reboot time of a copy count. -/
theorem Held.congr {w : Cluster} {copy copy' : Revision SNR} (h : Held w copy)
    (hv : copy'.resourceVersion = copy.resourceVersion)
    (hs : SamePhase copy.value.status copy'.value.status) : Held w copy' := by
  obtain ⟨snr, hsnr, ha⟩ := h
  refine ⟨snr, hv ▸ hsnr, ?_⟩
  rw [getPhase_congr hs.1, hs.2]
  exact ha

/-- A copy of a version without a phase, when none is stored yet. -/
theorem Advance.of_started {w : Cluster} {snr : SNR} {phase : RemediationPhase} {t : Option Time}
    (ha : Advance w snr phase t) (hi : PhaseInv w) {n : Nat} (hsnr : w.snr.version n = some snr)
    (hp : getPhase w.snr.current = .fencingStarted)
    (ht : w.snr.current.status.timeAssumedRebooted = none) : Advance w w.snr.current phase t := by
  have hrank := (hi.forward.current hsnr).1
  have hstored : Progress w (getPhase snr) snr.status.timeAssumedRebooted := hi.stored n snr hsnr
  rw [hp] at hrank
  cases ha with
  | same =>
    have hstarted : getPhase snr = getPhase w.snr.current := by
      rw [hp]
      generalize getPhase snr = phase at hrank
      cases phase <;> first | rfl | cases hrank
    have htime : snr.status.timeAssumedRebooted = w.snr.current.status.timeAssumedRebooted := by
      rw [ht]
      rw [hstarted, hp] at hstored
      generalize snr.status.timeAssumedRebooted = t at hstored
      cases hstored
      rfl
    rw [hstarted, htime]
    exact .same
  | prepared _ hf ha => exact .prepared hp hf ha
  | rebooted h _ _ => rw [h] at hrank; cases hrank
  | fenced h _ => rw [h] at hrank; cases hrank

/-- A stored object without a phase answers nothing that the copy would lose;
one with a phase overwrites the copy. -/
theorem held_decode {w : Cluster} {m : Mem} (hi : PhaseInv w) (hh : Held w m.snr)
    (mode : DecodeMode) : Held w (m.decode mode w.snr.read).snr := by
  obtain ⟨snr, hsnr, ha⟩ := hh
  refine ⟨w.snr.current, Store.version_resourceVersion, ?_⟩
  cases mode with
  | zeroFirst => exact .same
  | overwrite =>
    show Advance w w.snr.current (getPhase { w.snr.current with
      status := overlayStatus w.snr.current.status m.snr.value.status })
      (w.snr.current.status.timeAssumedRebooted.or m.snr.value.status.timeAssumedRebooted)
    have hcurrent : Progress w (getPhase w.snr.current)
      w.snr.current.status.timeAssumedRebooted := hi.stored.current
    cases hphase : w.snr.current.status.phase with
    | none =>
      have hp := getPhase_started hphase
      rw [hp] at hcurrent
      have ht : w.snr.current.status.timeAssumedRebooted = none := by
        generalize w.snr.current.status.timeAssumedRebooted = t at hcurrent
        cases hcurrent
        rfl
      have hcopy : getPhase { w.snr.current with
          status := overlayStatus w.snr.current.status m.snr.value.status } =
          getPhase m.snr.value := by
        apply getPhase_congr
        show w.snr.current.status.phase.or m.snr.value.status.phase = m.snr.value.status.phase
        rw [hphase]
        rfl
      rw [hcopy, ht]
      exact ha.of_started hi hsnr hp ht
    | some phase =>
      have hp : getPhase w.snr.current ≠ .fencingStarted := fun hp =>
        nomatch ((phase_of_getPhase _).1 hp).symm.trans hphase
      have ht : w.snr.current.status.timeAssumedRebooted.or
          m.snr.value.status.timeAssumedRebooted =
          w.snr.current.status.timeAssumedRebooted := by
        generalize getPhase w.snr.current = phase at hcurrent hp
        generalize w.snr.current.status.timeAssumedRebooted = t at hcurrent
        cases hcurrent with
        | started => exact absurd rfl hp
        | preReboot _ => rfl
        | reboot _ _ => rfl
        | fencing _ _ => rfl
      have hanswer : getPhase { w.snr.current with
          status := overlayStatus w.snr.current.status m.snr.value.status } =
          getPhase w.snr.current := by
        apply getPhase_congr
        show w.snr.current.status.phase.or m.snr.value.status.phase = w.snr.current.status.phase
        rw [hphase]
        rfl
      rw [hanswer, ht]
      exact .same

/-! ## 3. The handlers -/

/-- The copy stays as it was read, and in the end it is held. -/
def phaseStages : Stages Cluster :=
  .steady (fun m w => Fresh w m.snr) fun m w => Held w m.snr

theorem phase_storing : Storing true phaseOutline GoErr.IsValue phaseStages.ended where
  toClient := phaseOutline_client
  values _ he := he
  stable m := (lasting_held m.snr).stable
  decode mode _ hi hh := held_decode hi hh mode
  update hh := hh
  lastError _ hh := hh.congr rfl ⟨rfl, rfl⟩
  patch _ _ := ⟨rfl, rfl⟩
  patched _ he hh := hh.mono (grows_exec he)

/-- An edit of the finalizer that is sent with a copy that is held. -/
theorem updates_finalizer (r : Reconciler) (m : Mem) :
    Updates phaseOutline r GoErr.IsValue phaseStages.ended m
      (fun w => Held w m.snr ∧ FinalizerEdit w m.snr) := by
  have hlasting : Lasting fun w => Held w m.snr ∧ FinalizerEdit w m.snr := by
    rintro w w' hg ⟨hh, snr, status, hv, hedit⟩
    exact ⟨hh.mono hg, snr, status, hg.versions _ snr hv, hedit⟩
  exact phase_storing.updates hlasting.stable (fun _ hw => hw.2)
    fun hw he _ => hw.1.mono (grows_exec he)

section Handlers

variable {α : Type} {m : Mem} {w : Cluster}

/-- A session that keeps the copy as it was read. -/
theorem Keeps.fresh {x : M α}
    (hx : Keeps phaseOutline GoErr.IsValue (fun w => Fresh w m.snr) m w x) :
    phaseOutline.wp (x m) (Leaves (fun _ w => Fresh w m.snr)
      (Failed GoErr.IsValue phaseStages.ended m) m) w :=
  hx.failed fun _ _ hf => hf.held

theorem wp_addFinalizer (r : Reconciler) (hf : Fresh w m.snr) :
    phaseOutline.wp (addFinalizer r m) (Ends GoErr.IsValue phaseStages.ended) w := by
  refine wp_addFinalizer_ends phase_storing.stable (fun _ => hf.held) (updates_finalizer r _)
    fun hdel => ⟨hf.held.congr rfl ?_, hf.edit_add hdel⟩
  show SamePhase _ (addFinalizerTo m.snr.value snrFinalizer).status
  rw [status_addFinalizerTo]
  exact ⟨rfl, rfl⟩

/-- The finalizer is removed from an object that is being deleted. -/
theorem wp_removeFinalizer (r : Reconciler) (hf : Fresh w m.snr)
    (hdel : m.snr.value.deletionTimestamp.isSome = true) :
    phaseOutline.wp (removeFinalizer r m) (Ends GoErr.IsValue phaseStages.ended) w :=
  wp_removeFinalizer_ends phase_storing.stable (updates_finalizer r _)
    ⟨hf.held.congr rfl ⟨rfl, rfl⟩, hf.edit_remove hdel⟩

theorem wp_recoverNode (r : Reconciler) (node : Node) (hf : Fresh w m.snr)
    (hdel : m.snr.value.deletionTimestamp.isSome = true) :
    phaseOutline.wp (recoverNode r node m) (Ends GoErr.IsValue phaseStages.ended) w :=
  wp_recoverNode_ends phase_storing.stable (Keeps.fresh (keeps_removeTaint_fresh r _ node hf))
    (fun _ _ hf => wp_removeFinalizer r hf hdel) fun _ _ hf => hf.held

theorem wp_stoppedByNHC (r : Reconciler) (hf : Fresh w m.snr) :
    phaseOutline.wp (stoppedByNHC r m) (Ends GoErr.IsValue phaseStages.ended) w := by
  have hS := phase_storing
  cases hdel : m.snr.value.deletionTimestamp with
  | none =>
    refine wp_stoppedByNHC_live hS.stable hdel ?_
    exact wp_updateConditions_ends (hS.reading (hS.stable m)) hf.held rfl
      fun _ _ _ _ hh _ => hh.congr rfl ⟨rfl, rfl⟩
  | some t =>
    have hdel : m.snr.value.deletionTimestamp.isSome = true := hdel ▸ rfl
    have htarget := (keeps_getNodeFromSnr (m := m) (fresh_reading m) hf).leaves
      (F := fun e w => Fresh w m.snr ∧ e.IsValue) fun _ _ _ hf he => ⟨hf, he⟩
    exact wp_stoppedByNHC_deleted hS.stable hdel htarget
      (fun _ _ _ h _ => wp_removeFinalizer r h.1 hdel) (fun _ _ _ h => ⟨h.1.held, h.2⟩)
      (fun node _ _ hf => Keeps.fresh (keeps_removeTaint_fresh r _ node hf))
      fun node _ _ hf => wp_recoverNode r node hf hdel

/-- The copy gets an assumed reboot time that is logged, or stays as it is. -/
def TimeSet (m : Mem) (r : Except GoErr Unit × Mem) (w : Cluster) : Prop :=
  Fresh w m.snr ∧
    ((∃ a ∈ w.assumed, r = (.ok (), m.setStatus fun s =>
        { s with timeAssumedRebooted := some (a.time + a.rebootDuration.toInt) })) ∨
      ∃ e, e.IsValue ∧ r = (.error e, m))

theorem lasting_timeSet (m : Mem) (r : Except GoErr Unit × Mem) : Lasting (TimeSet m r) := by
  rintro w w' hg ⟨hf, ⟨a, ha, hr⟩ | he⟩
  · exact ⟨hf.mono hg.versions, .inl ⟨a, hg.assumed a ha, hr⟩⟩
  · exact ⟨hf.mono hg.versions, .inr he⟩

theorem wp_setTimeAssumedRebooted_timeSet (node : Node) (hf : Fresh w m.snr)
    (ht : m.snr.value.status.timeAssumedRebooted = none) :
    phaseOutline.wp (setTimeAssumedRebooted node m) (TimeSet m) w := by
  have hO := phaseOutline_client
  refine wp_theSNR ?_
  rw [ht]
  refine (keeps_calculateRebootDuration (fresh_reading m) node (hO.rebootDuration node)
    hf).wp_bind ?_ ?_
  · intro d w _ hf
    refine wp_now hO (lasting_fresh m.snr).stable hf fun w _ hf => ?_
    have hlasting : Lasting fun w' => Fresh w' m.snr ∧ w.now ≤ w'.now := fun w₁ w₂ hg h =>
      ⟨h.1.mono hg.versions, Int.le_trans h.2 hg.time⟩
    refine Session.wp_call hlasting.stable ⟨hf, Int.le_refl _⟩ (fun w _ hw => hw.2) ?_
    intro w₁ _ w₂ _ hw he _
    have hlogged : ⟨w.now, d⟩ ∈ w₂.assumed := by
      cases he with
      | served => exact List.mem_cons_self
      | failed _ hr => cases hr
      | lost _ hr => cases hr
    exact Session.wp_ret (lasting_timeSet _ _).stable
      ⟨hw.1.mono (grows_exec he).versions, .inl ⟨⟨w.now, d⟩, hlogged, rfl⟩⟩
  · intro e w _ hf he
    exact Session.wp_ret (lasting_timeSet _ _).stable ⟨hf, .inr ⟨e, he, rfl⟩⟩

/-- A version that is fresh has the copy's finalizers. -/
theorem Fresh.hadFinalizer {copy : Revision SNR} (hf : Fresh w copy)
    (hc : containsFinalizer copy.value snrFinalizer = true) : HadFinalizer w := by
  obtain ⟨snr, conditions, hv, hcopy⟩ := hf
  rw [hcopy] at hc
  exact ⟨_, snr, hv, hc⟩

theorem Fresh.timeAssumedRebooted_none {copy : Revision SNR} (hf : Fresh w copy)
    (hi : PhaseInv w) (hp : getPhase copy.value = .fencingStarted) :
    copy.value.status.timeAssumedRebooted = none := by
  have hs : Progress w (getPhase copy.value) copy.value.status.timeAssumedRebooted := hf.stored hi
  rw [hp] at hs
  generalize copy.value.status.timeAssumedRebooted = t at hs
  cases hs
  rfl

/-- The copy goes to Pre-Reboot-Completed. -/
theorem held_prepared {a : Assumption} (hf : Fresh w m.snr)
    (hp : getPhase m.snr.value = .fencingStarted) (hfin : HadFinalizer w) (ha : a ∈ w.assumed) :
    Held w ((m.setStatus fun s =>
      { s with timeAssumedRebooted := some (a.time + a.rebootDuration.toInt) }).setPhase
        preRebootCompletedPhase).snr := by
  obtain ⟨snr, conditions, hv, hc⟩ := hf
  refine ⟨snr, hv, ?_⟩
  rw [getPhase_preReboot rfl]
  refine .prepared ?_ hfin ha
  rw [hc] at hp
  exact (getPhase_congr rfl).trans hp

theorem wp_prepareReboot (r : Reconciler) (node : Node) (hf : Fresh w m.snr)
    (hp : getPhase m.snr.value = .fencingStarted) :
    phaseOutline.wp (prepareReboot r node m) (Ends GoErr.IsValue phaseStages.ended) w := by
  refine wp_prepareReboot_ends phase_storing.stable (G := fun _ w => Fresh w m.snr)
    (Keeps.fresh (keeps_isNodeRebootCapable (fresh_reading m) node hf)) (fun _ he => he)
    (fun _ _ hf => hf.held) (fun _ _ _ hf => wp_addFinalizer r hf) (fun _ _ _ hf => ?_) ?_
  · refine Keeps.fresh (keeps_addTaint (fresh_beside m) r _ node hf
      fun _ _ _ _ => allowed_withTaint fun hmatch => ?_)
    exact absurd hmatch (by decide)
  · intro hcontains node w hi hf
    refine Outline.wp_mono
      (wp_setTimeAssumedRebooted_timeSet node hf (hf.timeAssumedRebooted_none hi hp)) ?_
    rintro res w - ⟨hf, ⟨a, ha, rfl⟩ | ⟨e, he, rfl⟩⟩
    · exact ⟨fun _ => held_prepared hf hp (hf.hadFinalizer hcontains) ha, nofun⟩
    · exact ⟨nofun, fun _ heq => ⟨hf.held, Except.error.inj heq ▸ he⟩⟩

/-- The copy of a version that is past `prepareReboot` has its assumed reboot
time. -/
theorem Fresh.timeAssumedRebooted_some {copy : Revision SNR} (hf : Fresh w copy)
    (hi : PhaseInv w)
    (hp : getPhase copy.value = .preRebootCompleted ∨ getPhase copy.value = .rebootCompleted) :
    ∃ t, copy.value.status.timeAssumedRebooted = some t := by
  have hs : Progress w (getPhase copy.value) copy.value.status.timeAssumedRebooted := hf.stored hi
  generalize copy.value.status.timeAssumedRebooted = t at hs
  rcases hp with hp | hp
  · rw [hp] at hs
    cases hs with
    | preReboot _ => exact ⟨_, rfl⟩
  · rw [hp] at hs
    cases hs with
    | reboot _ _ => exact ⟨_, rfl⟩

/-- The copy goes to Reboot-Completed. -/
theorem held_rebooted {t : Time} (hf : Fresh w m.snr)
    (hp : getPhase m.snr.value = .preRebootCompleted)
    (ht : m.snr.value.status.timeAssumedRebooted = some t) (hnow : t ≤ w.now) :
    Held w (m.setPhase rebootCompletedPhase).snr := by
  obtain ⟨snr, conditions, hv, hc⟩ := hf
  refine ⟨snr, hv, ?_⟩
  rw [getPhase_reboot rfl]
  show Advance w snr .rebootCompleted m.snr.value.status.timeAssumedRebooted
  rw [ht]
  rw [hc] at hp ht
  exact .rebooted ((getPhase_congr rfl).trans hp) ht hnow

/-- The copy goes to Fencing-Completed. -/
theorem held_fenced {t : Time} (hf : Fresh w m.snr)
    (hp : getPhase m.snr.value = .rebootCompleted)
    (ht : m.snr.value.status.timeAssumedRebooted = some t) :
    Held w (m.setPhase fencingCompletedPhase).snr := by
  obtain ⟨snr, conditions, hv, hc⟩ := hf
  refine ⟨snr, hv, ?_⟩
  rw [getPhase_fencing rfl]
  show Advance w snr .fencingCompleted m.snr.value.status.timeAssumedRebooted
  rw [ht]
  rw [hc] at hp ht
  exact .fenced ((getPhase_congr rfl).trans hp) ht

theorem wp_waitForNodeRebooted (hi : PhaseInv w) (hf : Fresh w m.snr)
    (hp : getPhase m.snr.value = .preRebootCompleted) :
    phaseOutline.wp (waitForNodeRebooted m) (Ends GoErr.IsValue phaseStages.ended) w := by
  obtain ⟨t, ht⟩ := hf.timeAssumedRebooted_some hi (.inl hp)
  have hnow : Lasting fun w => t ≤ w.now := fun _ _ hg h => Int.le_trans h hg.time
  have hwas := wp_wasNodeRebooted phaseOutline_client (lasting_fresh m.snr).stable hf ht
    hnow.stable
  refine wp_waitForNodeRebooted_ends phase_storing.stable
    (G := fun was w => Fresh w m.snr ∧ (was.1 = true → t ≤ w.now)) (Outline.wp_mono hwas ?_)
    (fun _ _ _ h => h.1.held) fun _ _ _ h => held_rebooted h.1 hp ht (h.2 rfl)
  rintro ⟨res, s⟩ w - ⟨hm, hf, hres, hcome⟩
  refine ⟨hm, ?_, fun e heq => ⟨hf.held, hres e heq⟩⟩
  rintro ⟨was, timeLeft⟩ heq
  exact ⟨hf, fun hwas => hcome timeLeft (heq.trans (by rw [show was = true from hwas]))⟩

theorem wp_handleRebootCompletedPhase {rmNodeResources : Node → M Duration} {node : Node}
    (hi : PhaseInv w) (hf : Fresh w m.snr) (hp : getPhase m.snr.value = .rebootCompleted)
    (hrm : ∀ t, m.snr.value.status.timeAssumedRebooted = some t →
      Keeps phaseOutline GoErr.IsValue (fun w => Fresh w m.snr) m w (rmNodeResources node)) :
    phaseOutline.wp (handleRebootCompletedPhase rmNodeResources node m)
      (Ends GoErr.IsValue phaseStages.ended) w := by
  obtain ⟨t, ht⟩ := hf.timeAssumedRebooted_some hi (.inr hp)
  have hS := phase_storing
  refine wp_handleRebootCompletedPhase_ends hS.stable (Keeps.fresh (hrm t ht))
    (fun _ _ _ hf => hf.held) fun w _ hf => ?_
  exact wp_updateConditions_ends (hS.reading (hS.stable _)) (held_fenced hf hp ht) rfl
    fun _ _ _ _ hh _ => hh.congr rfl ⟨rfl, rfl⟩

end Handlers

/-! ## 4. The manager -/

theorem phase_walk (r : Reconciler) : Walk phaseOutline r GoErr.IsValue phaseStages where
  values _ he := he
  stable := phase_storing.stable
  config hf := Keeps.fresh (keeps_isConfigurationExist (fresh_reading _) hf)
  disabled {m _} _ hf :=
    wp_disabledNoConfig_ends (fresh_reading m) hf phase_storing.stable
      fun conditions _ _ hf _ => (hf.withConditions conditions _).held
  stopped _ _ hf := wp_stoppedByNHC r hf
  start {m _} _ hf :=
    wp_markStarted_ends (fresh_reading m) hf (fun m => (lasting_fresh m.snr).stable)
      (fun _ conditions set _ _ hf _ => hf.withConditions conditions set) fun _ => hf
  target {m w} hf :=
    (keeps_getNodeFromSnr (fresh_reading m) hf).leaves fun _ _ _ hf _ => hf
  absent {m e w} _ hf := by
    refine wp_nodeNotFound_ends phase_storing.stable (fun _ => ?_) fun _ => hf.held
    exact wp_updateConditions_ends (fresh_reading m) hf rfl
      fun conditions set _ _ hf _ => (hf.withConditions conditions set).held
  excluded _ hf := hf.held
  strategy hf := Keeps.fresh (keeps_getRuntimeStrategy (fresh_reading _) _ hf)
  unhandled _ hf := hf.held
  prepare hp _ hf := wp_prepareReboot r _ hf hp
  wait hp hi hf := wp_waitForNodeRebooted hi hf hp
  delete {m node w} hp hi hf := wp_handleRebootCompletedPhase hi hf hp fun _ _ =>
    keeps_deleteResourcesWrapper (fresh_beside m) node hf
      (fun _ hi hf => ready_of_fresh hi hf hp) fun _ _ hi hf => ready_of_fresh hi hf hp
  evict {m node w} hp hi hf := wp_handleRebootCompletedPhase hi hf hp fun _ ht =>
    keeps_useOutOfServiceTaint (fresh_beside m) r node hf (ht ▸ fails_ok)
      (fun _ _ hi hf => allowed_withTaint fun _ => ready_of_fresh hi hf hp)
      fun node w _ _ => allowed_withoutTaint w _ node
  finish {m node _ w} _ _ hf := wp_handleFencingCompletedPhase_ends phase_storing.stable
    (fun _ => hf.held) fun hdel => wp_recoverNode r node hf hdel

/-- A reconcile that does not panic. -/
def Reconciled.Returned (a : Reconciled) : Prop := ∃ ret, a.ret = .ok ret

/-- Every call of a reconcile is allowed, and it does not panic. -/
theorem reconcileManager_phases (r : Reconciler) (w : Cluster) :
    phaseOutline.wp (reconcileManager r) (fun a _ => a.Returned) w := by
  refine Outline.wp_mono (phase_storing.reconcileManager (phase_walk r) ?_ w) ?_
  · intro snr w _ he
    exact ⟨snr.value, snr.value.status.conditions, (he.getSNR rfl).1, rfl⟩
  · rintro ⟨ret, m⟩ w - hret
    cases ret with
    | ok ret => exact ⟨ret, rfl⟩
    | error e => exact absurd (hret e rfl).1 (hret e rfl).2

/-! ## 5. Whole runs -/

/-- A SelfNodeRemediation that was just created. -/
structure Created (w : Cluster) : Prop where
  versions : w.snr.past = []
  phase : w.snr.current.status.phase = none
  timeAssumedRebooted : w.snr.current.status.timeAssumedRebooted = none
  assumed : w.assumed = []

theorem phaseInv_created {w : Cluster} (h : Created w) : PhaseInv w := by
  have hsnr : w.snr = ⟨w.snr.current, []⟩ := by rw [← h.versions]
  have hstored : Stored w w.snr.current := by
    unfold Stored
    rw [getPhase_started h.phase, h.timeAssumedRebooted]
    exact .started
  refine ⟨?_, ?_, ?_⟩
  · rw [hsnr]
    exact Store.all_new hstored
  · rw [hsnr]
    exact Store.steps_new _
  · rw [h.assumed]
    exact nofun

/-- `DeletePods`, or a patch that adds the out-of-service taint. -/
def IsCleanup : Call → Prop
  | .listNamespaces => True
  | .deleteAllOf _ _ => True
  | .patchNode base changed => AddsOutOfService base changed
  | _ => False

theorem ready_of_allowed {c : Call} {w : Cluster} (hc : IsCleanup c) (ha : PhaseAllowed c w) :
    Ready w := by
  cases c with
  | listNamespaces => exact ha
  | deleteAllOf _ _ => exact ha
  | patchNode _ _ => exact ha hc
  | _ => cases hc

/-- The runs of `ReconcileManager` on one SelfNodeRemediation. -/
def ManagerRun (r : Reconciler) (w₀ : Cluster) (s : State Call Resp Cluster Reconciled) : Prop :=
  Reachable (Exec true) Others (reconcileManager r) w₀ s

theorem managerRun_inv {r : Reconciler} {w₀ : Cluster} {s : State Call Resp Cluster Reconciled}
    (h₀ : Created w₀) (h : ManagerRun r w₀ s) : PhaseInv s.world :=
  phaseOutline.reachable_inv (fun w _ => reconcileManager_phases r w) (phaseInv_created h₀) h

theorem managerRun_ready {r : Reconciler} {w₀ : Cluster}
    {s : State Call Resp Cluster Reconciled} (h₀ : Created w₀) (h : ManagerRun r w₀ s) {c : Call}
    {k : Resp c → Prog Call Resp Reconciled} (hr : s.running = some (.call c k))
    (hc : IsCleanup c) : Ready s.world :=
  ready_of_allowed hc (phaseOutline.reachable_allowed
    (fun w _ => reconcileManager_phases r w) (phaseInv_created h₀) h hr)

theorem managerRun_returned {r : Reconciler} {w₀ : Cluster}
    {s : State Call Resp Cluster Reconciled} (h₀ : Created w₀) (h : ManagerRun r w₀ s)
    {a : Reconciled} (hr : s.running = some (.ret a)) : a.Returned :=
  phaseOutline.reachable_ret (fun w _ => reconcileManager_phases r w) (phaseInv_created h₀) h hr

/-- The runs of `ReconcileManager`, with a record of its calls. -/
def RecordedRun (r : Reconciler) (w₀ : Cluster)
    (s : State Call Resp RecordedCluster Reconciled) : Prop :=
  Reachable (recordExec (Exec true)) (recordEnv Others) (reconcileManager r) ⟨w₀, []⟩ s

theorem recordedRun_prepared {r : Reconciler} {w₀ : Cluster}
    {s : State Call Resp RecordedCluster Reconciled} (h₀ : Created w₀) (h : RecordedRun r w₀ s) :
    AllPrepared s.world := by
  refine prepareOutline.reachable_inv (fun w _ => reconcileManager_prepares r w) ?_ h
  intro a ha
  rw [h₀.assumed] at ha
  cases ha

/-- In every state of every run: the stored phase is one of the four and moves
forward, one at a time; a stored assumed reboot time never changes; it is set
from Pre-Reboot-Completed on, and no reconcile panics; cleanup is called only
when the stored assumed reboot time has come, and that time is the clock of a
`prepareReboot`, as the record has it, plus the reboot duration of the target node
with the calculator's configuration and the worker nodes that it read. -/
theorem phase_machine (r : Reconciler) {w₀ : Cluster} (h₀ : Created w₀)
    {s : State Call Resp RecordedCluster Reconciled} (h : RecordedRun r w₀ s) :
    (∀ n a, s.world.world.snr.version n = some a → getPhase a ≠ .unknown) ∧
    (∀ n a b, s.world.world.snr.version n = some a → s.world.world.snr.version (n + 1) = some b →
      (getPhase a).rank ≤ (getPhase b).rank ∧ (getPhase b).rank ≤ (getPhase a).rank + 1) ∧
    (∀ i j a b t, i ≤ j → s.world.world.snr.version i = some a →
      s.world.world.snr.version j = some b →
      a.status.timeAssumedRebooted = some t → b.status.timeAssumedRebooted = some t) ∧
    (∀ n a, s.world.world.snr.version n = some a → getPhase a ≠ .fencingStarted →
      a.status.timeAssumedRebooted.isSome = true) ∧
    (∀ a, s.running = some (.ret a) → a.Returned) ∧
    ∀ c k, s.running = some (.call c k) → IsCleanup c →
      ∃ t, s.world.world.snr.current.status.timeAssumedRebooted = some t ∧
        t ≤ s.world.world.now ∧
        ∃ record a, record <:+ s.world.record ∧ Prepares record a ∧
          a.time ≤ s.world.world.now ∧ t = Time.truncate (a.time + a.rebootDuration.toInt) := by
  have hrun : ManagerRun r w₀ ⟨s.world.world, s.running⟩ := h.forget
  have hi : PhaseInv s.world.world := managerRun_inv h₀ hrun
  have hprogress : ∀ n a, s.world.world.snr.version n = some a →
      Progress s.world.world (getPhase a) a.status.timeAssumedRebooted := hi.stored
  refine ⟨fun n a ha hp => ?_, fun n a b ha hb => ?_, fun i j a b t hij ha hb => ?_,
    fun n a ha hp => ?_, fun a => managerRun_returned h₀ hrun, fun c k hr hc => ?_⟩
  · have hs := hprogress n a ha
    rw [hp] at hs
    cases hs
  · have hnext := hi.steps n a b ha hb
    exact ⟨hnext.2.1, hnext.1⟩
  · exact (hi.forward i j a b hij ha hb).2 t
  · have hs := hprogress n a ha
    generalize getPhase a = phase at hs hp
    generalize a.status.timeAssumedRebooted = t at hs
    cases hs with
    | started => exact absurd rfl hp
    | preReboot _ => rfl
    | reboot _ _ => rfl
    | fencing _ _ => rfl
  · obtain ⟨t, ht, hnow, a, ha, horigin⟩ := managerRun_ready h₀ hrun hr hc
    obtain ⟨record, hrecord, hprepares⟩ := recordedRun_prepared h₀ h a ha
    exact ⟨t, ht, hnow, record, a, hrecord, hprepares, hi.assumed a ha, horigin⟩

/-! The small cluster through its remediation: the finalizer, the phase
Pre-Reboot-Completed, then time, the phase Reboot-Completed, and cleanup. -/

theorem managerRun_reconcileAlone {w₀ w : Cluster} (h : ManagerRun smallManager w₀ ⟨w, none⟩) :
    ManagerRun smallManager w₀ ⟨reconcileAlone w, none⟩ :=
  reachable_alone (fun _ => true) (fun _ _ _ => .served) (Prog.passes_true _ w) h

/-- The calls that start `DeletePods`. -/
def Call.isListNamespaces : Call → Bool
  | .listNamespaces => true
  | _ => false

theorem managerRun_small : ∃ c k w, IsCleanup c ∧
    ManagerRun smallManager smallCluster ⟨w, some (.call c k)⟩ := by
  have hcreated : ManagerRun smallManager smallCluster ⟨smallCluster, none⟩ := .refl
  have htwice := managerRun_reconcileAlone (managerRun_reconcileAlone hcreated)
  have hrebooted : ManagerRun smallManager smallCluster ⟨smallRebooted, none⟩ :=
    htwice.tail (.env ⟨by decide +kernel, rfl, id, .inl rfl⟩)
  obtain ⟨c, k, w, hstop, -, h⟩ := reachable_upTo (fun _ => true) Call.isListNamespaces
    (fun _ => true) (fun _ _ _ => .served) (by decide +kernel)
    (managerRun_reconcileAlone hrebooted)
  refine ⟨c, k, w, ?_, h⟩
  cases c with
  | listNamespaces => trivial
  | _ => cases hstop

theorem phase_machine_small : ∃ s c k, RecordedRun smallManager smallCluster s ∧
    s.running = some (.call c k) ∧ IsCleanup c ∧
    ∃ t, s.world.world.snr.current.status.timeAssumedRebooted = some t ∧
      t ≤ s.world.world.now ∧ ∃ record a, record <:+ s.world.record ∧ Prepares record a ∧
        t = Time.truncate (a.time + a.rebootDuration.toInt) := by
  obtain ⟨c, k, w, hc, hrun⟩ := managerRun_small
  obtain ⟨record, h⟩ := Reachable.record hrun
  obtain ⟨-, -, -, -, -, hcleanup⟩ := phase_machine smallManager ⟨rfl, rfl, rfl, rfl⟩ h
  obtain ⟨t, ht, hnow, record', a, hrecord, ha, -, horigin⟩ := hcleanup c k rfl hc
  exact ⟨_, c, k, h, rfl, hc, t, ht, hnow, record', a, hrecord, ha, horigin⟩

end SelfNodeRemediation
