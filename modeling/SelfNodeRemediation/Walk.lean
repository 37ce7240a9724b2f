import SelfNodeRemediation.Removal

/-!
# The way through a reconcile

The control flow of `ReconcileManager`, walked once for every proof outline.

* `wp_prepareReboot_ends`, `wp_recoverNode_ends` and the like: a function ends well if
  those that it calls do.
* `Stages` is what is known of the copy and the world at each stage of a reconcile, and
  `Walk` that each function leads from one stage to the next; `Walk.reconcileSteps` is
  the way through all of them.
* `Closes` is what the two writes of the status at the end need, a patch of the last
  error and the update that stores the copy; with it `Walk.reconcileManager` is about the
  whole reconcile.
* `Storing` is the same for an outline of the cluster itself, where the answers of the
  API server are known.
-/

namespace SelfNodeRemediation

open Interaction Versioned

/-! ## 1. The functions -/

section Functions

variable {W : Type} {O : Outline Call Resp W} {V : GoErr → Prop} {E : Mem → W → Prop}
  {P : W → Prop} {m : Mem} {w : W} {r : Reconciler} {node : Node}
  (hE : ∀ m, O.Stable (E m))

include hE

theorem wp_handled_ends {handler : M Result} (h : O.wp (handler m) (Ends V E) w) :
    O.wp (handled handler m) (Ends V E) w := by
  refine Session.wp_attempt h ?_
  rintro (e | result) s w - ⟨hs, he⟩
  · dsimp only
    split
    · exact wp_ends hE hs (fails_error (he e rfl))
    · exact wp_ends hE hs fails_ok
  · exact wp_ends hE hs fails_ok

/-- The taint is added before the time is assumed, and that before the phase is set. -/
theorem wp_prepareReboot_ends {G : Node → W → Prop}
    (hcapable : O.wp (isNodeRebootCapable node m) (Leaves (fun _ => P) (Failed V E m) m) w)
    (hvalues : ∀ e, e.IsValue → V e) (hincapable : ∀ w, O.inv w → P w → E m w)
    (hadd : containsFinalizer m.snr.value snrFinalizer = false → ∀ w, O.inv w → P w →
      O.wp (addFinalizer r m) (Ends V E) w)
    (htaint : containsFinalizer m.snr.value snrFinalizer = true → ∀ w, O.inv w → P w →
      O.wp (addNoScheduleTaint r node m) (Leaves G (Failed V E m) m) w)
    (htime : containsFinalizer m.snr.value snrFinalizer = true → ∀ node w, O.inv w → G node w →
      O.wp (setTimeAssumedRebooted node m) (fun res w =>
        (res.1 = .ok () → E (res.2.setPhase preRebootCompletedPhase) w) ∧
          ∀ e, res.1 = .error e → E res.2 w ∧ V e) w) :
    O.wp (prepareReboot r node m) (Ends V E) w := by
  refine Leaves.bind_ends hE hcapable fun capable w hi hw => ?_
  cases capable with
  | false =>
    have hincapableErr : (GoErr.new "Node is not capable to reboot itself").IsValue := nofun
    exact wp_ends hE (hincapable w hi hw) (fails_error (hvalues _ hincapableErr))
  | true =>
    refine wp_theSNR ?_
    cases hcontains : containsFinalizer m.snr.value snrFinalizer with
    | false => exact hadd hcontains w hi hw
    | true =>
      refine Leaves.bind_ends hE (htaint hcontains w hi hw) fun node w hi hw => ?_
      refine Session.wp_bind (htime hcontains node w hi hw) ?_ ?_
      · intro _ s w _ h
        exact wp_ends hE (h.1 rfl) fails_ok
      · intro e s w _ h
        exact wp_ends hE (h.2 e rfl).1 (fails_error (h.2 e rfl).2)

theorem wp_waitForNodeRebooted_ends {G : Bool × Duration → W → Prop}
    (hwas : O.wp (wasNodeRebooted m) (Leaves G (Failed V E m) m) w)
    (hwait : ∀ timeLeft w, O.inv w → G (false, timeLeft) w → E m w)
    (hnext : ∀ timeLeft w, O.inv w → G (true, timeLeft) w →
      E (m.setPhase rebootCompletedPhase) w) :
    O.wp (waitForNodeRebooted m) (Ends V E) w := by
  refine Leaves.bind_ends hE hwas ?_
  rintro ⟨wasRebooted, timeLeft⟩ w hi hw
  cases wasRebooted with
  | false => exact wp_ends hE (hwait timeLeft w hi hw) fails_ok
  | true => exact wp_ends hE (hnext timeLeft w hi hw) fails_ok

theorem wp_handleRebootCompletedPhase_ends {rmNodeResources : Node → M Duration}
    {G : Duration → W → Prop}
    (hrm : O.wp (rmNodeResources node m) (Leaves G (Failed V E m) m) w)
    (hwait : ∀ waitTime w, O.inv w → G waitTime w → E m w)
    (hnext : ∀ w, O.inv w → G 0 w →
      O.wp (updateConditions .remediationFinishedSuccessfully (m.setPhase fencingCompletedPhase))
        (Ends V E) w) :
    O.wp (handleRebootCompletedPhase rmNodeResources node m) (Ends V E) w := by
  refine Leaves.bind_ends hE hrm fun waitTime w hi hw => ?_
  split
  · exact wp_ends hE (hwait waitTime w hi hw) fails_ok
  · next hzero =>
    obtain rfl := not_not.mp hzero
    exact Session.wp_update (Ends.wp_return hE (hnext w hi hw))

theorem wp_recoverNode_ends
    (htaint : O.wp (removeNoScheduleTaint r node m) (Leaves (fun _ => P) (Failed V E m) m) w)
    (hremove : ∀ w, O.inv w → P w → O.wp (removeFinalizer r m) (Ends V E) w)
    (habsent : ∀ w, O.inv w → P w → E m w) :
    O.wp (recoverNode r node m) (Ends V E) w := by
  refine Leaves.bind_ends hE htaint fun _ w hi hw => ?_
  refine wp_theSNR ?_
  split
  · exact Ends.wp_return hE (hremove w hi hw)
  · exact wp_ends hE (habsent w hi hw) fails_ok

theorem wp_handleFencingCompletedPhase_ends
    (hlive : m.snr.value.deletionTimestamp = none → E m w)
    (hrecover : m.snr.value.deletionTimestamp.isSome = true →
      O.wp (recoverNode r node m) (Ends V E) w) :
    O.wp (handleFencingCompletedPhase r node m) (Ends V E) w := by
  refine wp_theSNR ?_
  cases hdel : m.snr.value.deletionTimestamp with
  | none => exact wp_ends hE (hlive hdel) fails_ok
  | some _ => exact hrecover (hdel ▸ rfl)

/-- A stopped remediation that is not deleted only gets other conditions. -/
theorem wp_stoppedByNHC_live (hdel : m.snr.value.deletionTimestamp = none)
    (htimeout : O.wp (updateConditions .remediationTimeoutByNHC m) (Ends V E) w) :
    O.wp (stoppedByNHC r m) (Ends V E) w := by
  refine wp_theSNR ?_
  rw [hdel]
  exact Ends.wp_return hE htimeout

/-- One that is deleted is cleaned up, whether its node is there or not. -/
theorem wp_stoppedByNHC_deleted {N G : Node → W → Prop} {F : GoErr → W → Prop}
    (hdel : m.snr.value.deletionTimestamp.isSome = true)
    (htarget : O.wp (getNodeFromSnr m) (Leaves N F m) w)
    (hmissing : ∀ e w, O.inv w → F e w → e.isNotFound = true →
      O.wp (removeFinalizer r m) (Ends V E) w)
    (hfailed : ∀ e w, O.inv w → F e w → Failed V E m e w)
    (htaint : ∀ node w, O.inv w → N node w →
      O.wp (removeOutOfServiceTaint r node m) (Leaves G (Failed V E m) m) w)
    (hrecover : ∀ node w, O.inv w → G node w → O.wp (recoverNode r node m) (Ends V E) w) :
    O.wp (stoppedByNHC r m) (Ends V E) w := by
  refine wp_theSNR ?_
  rw [hdel]
  refine Leaves.wp_attempt htarget ?_ ?_
  · intro node w hi hw
    refine Leaves.bind_ends hE (htaint node w hi hw) fun node w hi hw => ?_
    exact Ends.wp_return hE (hrecover node w hi hw)
  · intro e w hi hw
    dsimp only
    split
    · next hnot => exact Ends.wp_return hE (hmissing e w hi hw hnot)
    · exact wp_ends hE (hfailed e w hi hw).1 (fails_error (hfailed e w hi hw).2)

theorem wp_nodeNotFound_ends {e : GoErr}
    (hskipped : e.isNotFound = true →
      O.wp (updateConditions .remediationSkippedNodeNotFound m) (Ends V E) w)
    (hother : e.isNotFound = false → E m w) :
    O.wp (nodeNotFound e m) (Ends V E) w := by
  unfold nodeNotFound
  cases hnot : e.isNotFound with
  | true => exact Ends.wp_return hE (hskipped hnot)
  | false => exact wp_ends hE (hother hnot) fails_ok

end Functions

/-! ## 2. The stages -/

/-- What is known of the copy and the world on the way through a reconcile. -/
structure Stages (W : Type) where
  /-- after the read -/
  read : Mem → W → Prop
  /-- after the look at the configuration, by what it has shown -/
  checked : Mem → Bool → W → Prop
  /-- after the start is recorded in the conditions -/
  begun : Mem → W → Prop
  /-- after a lookup of the node that has failed -/
  missing : Mem → GoErr → W → Prop
  /-- after one that has found it -/
  found : Mem → Node → W → Prop
  /-- when the strategy is known -/
  chosen : Mem → Node → RemediationStrategyType → W → Prop
  /-- at the end of the steps -/
  ended : Mem → W → Prop

/-- One thing is known until the end. -/
def Stages.steady {W : Type} (I E : Mem → W → Prop) : Stages W where
  read := I
  checked m _ := I m
  begun := I
  missing m _ := I m
  found m _ := I m
  chosen m _ _ := I m
  ended := E

/-- Each function of the reconcile leads to the next stage. -/
structure Walk {W : Type} (O : Outline Call Resp W) (r : Reconciler) (V : GoErr → Prop)
    (K : Stages W) : Prop where
  values : ∀ e, e.IsValue → V e
  stable : ∀ m, O.Stable (K.ended m)
  config : ∀ {m w}, K.read m w →
    O.wp (isConfigurationExist m) (Leaves (K.checked m) (Failed V K.ended m) m) w
  disabled : ∀ {m w}, O.inv w → K.checked m false w →
    O.wp (disabledNoConfig m) (Ends V K.ended) w
  stopped : ∀ {m w}, isStoppedByNHC m.snr.value = true → O.inv w → K.checked m true w →
    O.wp (stoppedByNHC r m) (Ends V K.ended) w
  start : ∀ {m w}, isStoppedByNHC m.snr.value = false → K.checked m true w →
    O.wp (markStarted m) (fun res w => res.1 = .ok () ∧ K.begun res.2 w) w
  target : ∀ {m w}, K.begun m w →
    O.wp (getNodeFromSnr m) (Leaves (K.found m) (K.missing m) m) w
  absent : ∀ {m e w}, O.inv w → K.missing m e w → O.wp (nodeNotFound e m) (Ends V K.ended) w
  excluded : ∀ {m node w}, O.inv w → K.found m node w → K.ended m w
  strategy : ∀ {m node w}, K.found m node w →
    O.wp (getRuntimeStrategy m.snr.value m) (Leaves (K.chosen m node) (Failed V K.ended m) m) w
  unhandled : ∀ {m node strategy w}, O.inv w → K.chosen m node strategy w → K.ended m w
  prepare : ∀ {m node strategy w}, getPhase m.snr.value = .fencingStarted → O.inv w →
    K.chosen m node strategy w → O.wp (prepareReboot r node m) (Ends V K.ended) w
  wait : ∀ {m node strategy w}, getPhase m.snr.value = .preRebootCompleted → O.inv w →
    K.chosen m node strategy w → O.wp (waitForNodeRebooted m) (Ends V K.ended) w
  delete : ∀ {m node w}, getPhase m.snr.value = .rebootCompleted → O.inv w →
    K.chosen m node .resourceDeletion w →
    O.wp (handleRebootCompletedPhase deleteResourcesWrapper node m) (Ends V K.ended) w
  evict : ∀ {m node w}, getPhase m.snr.value = .rebootCompleted → O.inv w →
    K.chosen m node .outOfServiceTaint w →
    O.wp (handleRebootCompletedPhase (useOutOfServiceTaint r) node m) (Ends V K.ended) w
  finish : ∀ {m node strategy w}, getPhase m.snr.value = .fencingCompleted → O.inv w →
    K.chosen m node strategy w →
    O.wp (handleFencingCompletedPhase r node m) (Ends V K.ended) w

namespace Walk

variable {W : Type} {O : Outline Call Resp W} {V : GoErr → Prop} {K : Stages W} {m : Mem} {w : W}
  {r : Reconciler} {node : Node} {strategy : RemediationStrategyType} (hW : Walk O r V K)

include hW

/-- The phase decides, and one handler depends on the strategy. -/
theorem remediateWithResourceRemoval {rmNodeResources : Node → M Duration} (hi : O.inv w)
    (h : K.chosen m node strategy w)
    (hrm : getPhase m.snr.value = .rebootCompleted →
      O.wp (handleRebootCompletedPhase rmNodeResources node m) (Ends V K.ended) w) :
    O.wp (remediateWithResourceRemoval r rmNodeResources node m) (Ends V K.ended) w := by
  refine wp_theSNR ?_
  cases hp : getPhase m.snr.value with
  | fencingStarted => exact hW.prepare hp hi h
  | preRebootCompleted => exact hW.wait hp hi h
  | rebootCompleted => exact hrm hp
  | fencingCompleted => exact hW.finish hp hi h
  | unknown =>
    have hunknown : (GoErr.new "unknown phase").IsValue := nofun
    exact wp_ends hW.stable (hW.unhandled hi h) (fails_error (hW.values _ hunknown))

theorem remediateNode (hi : O.inv w) (h : K.found m node w) :
    O.wp (remediateNode r node m) (Ends V K.ended) w := by
  refine wp_theSNR ?_
  split
  · exact wp_ends hW.stable (hW.excluded hi h) fails_ok
  · refine Leaves.bind_ends hW.stable (hW.strategy h) fun strategy w hi h => ?_
    cases strategy with
    | resourceDeletion =>
      exact wp_handled_ends hW.stable
        (hW.remediateWithResourceRemoval hi h fun hp => hW.delete hp hi h)
    | outOfServiceTaint =>
      exact wp_handled_ends hW.stable
        (hW.remediateWithResourceRemoval hi h fun hp => hW.evict hp hi h)
    | automatic => exact wp_ends hW.stable (hW.unhandled hi h) fails_ok
    | unsupported _ => exact wp_ends hW.stable (hW.unhandled hi h) fails_ok

theorem remediate (hstop : isStoppedByNHC m.snr.value = false) (h : K.checked m true w) :
    O.wp (remediate r m) (Ends V K.ended) w := by
  refine Session.wp_bind (hW.start hstop h) ?_ fun _ _ _ _ h => nomatch h.1
  rintro _ s w - ⟨-, h⟩
  exact Leaves.wp_attempt (hW.target h) (fun node w hi h => hW.remediateNode hi h)
    fun e w hi h => hW.absent hi h

theorem reconcileSteps (h : K.read m w) : O.wp (reconcileSteps r m) (Ends V K.ended) w := by
  refine Leaves.bind_ends hW.stable (hW.config h) fun exist w hi h => ?_
  cases exist with
  | false => exact hW.disabled hi h
  | true =>
    refine wp_theSNR ?_
    cases hstop : isStoppedByNHC m.snr.value with
    | true => exact hW.stopped hstop hi h
    | false => exact hW.remediate hstop h

end Walk

/-! ## 3. Conditions -/

section Conditions

variable {W : Type} {O : Outline Call Resp W} {V E₀ : GoErr → Prop} {E : Mem → W → Prop}
  {P : W → Prop} {m : Mem} {w : W} (hR : Reading O E₀ P) (hw : P w)

include hR hw

theorem wp_updateConditions_ends {reason : ConditionReason}
    {processing succeeded : ConditionStatus} (hr : reason.statuses = some (processing, succeeded))
    (hset : ∀ conditions set w, O.inv w → P w → succeededStatus conditions = some succeeded →
      E (m.withConditions conditions set) w) :
    O.wp (updateConditions reason m) (Ends V E) w := by
  refine Outline.wp_mono (wp_updateConditions_succeeded hR hw hr) ?_
  rintro ⟨res, s⟩ w hi ⟨(rfl : res = .ok ()), hw, conditions, set, (rfl : s = _), hs⟩
  exact ⟨hset conditions set w hi hw hs, fails_ok⟩

theorem wp_markStarted_ends (hE : ∀ m, O.Stable (E m))
    (hset : getPhase m.snr.value ≠ .fencingCompleted → ∀ conditions set w, O.inv w → P w →
      succeededStatus conditions = some .unknown → E (m.withConditions conditions set) w)
    (hskip : getPhase m.snr.value = .fencingCompleted → E m w) :
    O.wp (markStarted m) (fun res w => res.1 = .ok () ∧ E res.2 w) w := by
  refine wp_theSNR ?_
  split
  · next hp =>
    refine Outline.wp_mono (wp_updateConditions_succeeded hR hw rfl) ?_
    rintro ⟨res, s⟩ w hi ⟨hres, hw, conditions, set, (rfl : s = _), hs⟩
    exact ⟨hres, hset hp conditions set w hi hw hs⟩
  · next hp =>
    exact Session.wp_pure (Outline.stable_const.and (hE m)) ⟨rfl, hskip (not_not.mp hp)⟩

theorem wp_disabledNoConfig_ends (hE : ∀ m, O.Stable (E m))
    (hset : ∀ conditions w, O.inv w → P w →
      succeededStatus conditions = succeededStatus m.snr.value.status.conditions →
      E (m.withConditions conditions m.conditionsSet) w) :
    O.wp (disabledNoConfig m) (Ends V E) w := by
  refine Session.wp_bind (wp_setCondition hR hw _) ?_ fun _ _ _ _ h => nomatch h.1
  rintro _ s w hi ⟨-, hw, now, (rfl : s = _)⟩
  refine wp_ends hE (hset _ w hi hw (succeededStatus_set_other ?_)) fails_ok
  decide

end Conditions

/-! ## 4. The finalizer -/

/-- The copy after the answer to a write. -/
def Mem.answered (r : Reconciler) : Except GoErr (Revision SNR) → Mem → Mem
  | .ok answer, m => m.decode r.decode answer
  | .error _, m => m

/-- An `Update` of the copy is allowed as long as `P` holds, and then `E` is true of the
copy. -/
structure Updates {W : Type} (O : Outline Call Resp W) (r : Reconciler) (V : GoErr → Prop)
    (E : Mem → W → Prop) (m : Mem) (P : W → Prop) : Prop where
  stable : O.Stable P
  allowed : ∀ {w}, O.inv w → P w → O.allowed (.updateSNR m.snr) w
  answered : ∀ {w a w'}, O.inv w → P w → O.exec (.updateSNR m.snr) w a w' → O.inv w' →
    E (m.answered r a) w' ∧ Fails V a

section Finalizer

variable {W : Type} {O : Outline Call Resp W} {V : GoErr → Prop} {E : Mem → W → Prop}
  {P : W → Prop} {m : Mem} {w : W} {r : Reconciler} (hE : ∀ m, O.Stable (E m))

include hE

theorem wp_removeFinalizer_ends
    (hP : Updates O r V E (m.modify fun snr => removeFinalizerFrom snr snrFinalizer) P)
    (hw : P w) : O.wp (removeFinalizer r m) (Ends V E) w := by
  refine Session.wp_update (Session.wp_read (Session.wp_call hP.stable hw (fun _ => hP.allowed) ?_))
  intro w answer w' hi hw he hi'
  obtain ⟨h, hanswer⟩ := hP.answered hi hw he hi'
  cases answer with
  | ok answer => exact wp_ends hE h fails_ok
  | error e => exact wp_ends hE h (fails_error (hanswer e rfl))

theorem wp_addFinalizer_ends (hdeleted : m.snr.value.deletionTimestamp.isSome = true → E m w)
    (hP : Updates O r V E (m.modify fun snr => addFinalizerTo snr snrFinalizer) P)
    (hw : m.snr.value.deletionTimestamp = none → P w) :
    O.wp (addFinalizer r m) (Ends V E) w := by
  refine wp_theSNR ?_
  cases hdel : m.snr.value.deletionTimestamp with
  | some _ => exact wp_ends hE (hdeleted (hdel ▸ rfl)) fails_ok
  | none =>
    refine Session.wp_update
      (Session.wp_read (Session.wp_call hP.stable (hw hdel) (fun _ => hP.allowed) ?_))
    intro w answer w' hi hw he hi'
    obtain ⟨h, hanswer⟩ := hP.answered hi hw he hi'
    cases answer with
    | ok answer => exact wp_ends hE h fails_ok
    | error e =>
      dsimp only
      split
      · exact wp_ends hE h fails_ok
      · exact wp_ends hE h (fails_error (hanswer e rfl))

end Finalizer

/-! ## 5. How a reconcile ends -/

/-- The copy with another last error. -/
def Mem.withLastError (lastError : String) (m : Mem) : Mem :=
  m.setStatus fun s => { s with lastError := lastError }

/-- A copy of which `E` is true may be stored in the end. -/
structure Closes {W : Type} (O : Outline Call Resp W) (r : Reconciler) (E : Mem → W → Prop) :
    Prop where
  stable : ∀ m, O.Stable (E m)
  update : ∀ {m w}, O.inv w → E m w → O.allowed (.updateSNRStatus m.snr) w
  patch : ∀ {m w} (lastError : String), O.inv w → E m w →
    O.allowed (.patchSNRStatus m.snr.value (m.withLastError lastError).snr.value) w
  patched : ∀ {m w a w'} (lastError : String), O.inv w → E m w →
    O.exec (.patchSNRStatus m.snr.value (m.withLastError lastError).snr.value) w a w' →
    O.inv w' → E ((m.withLastError lastError).answered r a) w'

/-- What follows the steps. -/
def reconcileEnd (r : Reconciler) (ending : Except GoErr Ending) : M Return := do
  let ret ← reconcileReturn r ending
  let ret ← deferredUpdate r ret
  repanic ending ret

section Closes

variable {W : Type} {O : Outline Call Resp W} {V : GoErr → Prop} {E : Mem → W → Prop}
  {m : Mem} {w : W} {r : Reconciler} (hC : Closes O r E)

include hC

/-- The status patch is about the last error only. -/
theorem wp_updateSnrStatusLastError_ends (err : Option GoErr) (h : E m w) :
    O.wp (updateSnrStatusLastError r err m)
      (fun res w => E res.2 w ∧ ∃ err, res.1 = .ok err) w := by
  have hend {err : Option GoErr} {s : Mem} {w : W} (h : E s w) :
      O.wp ((pure err : M (Option GoErr)) s) (fun res w => E res.2 w ∧ ∃ err, res.1 = .ok err) w :=
    Session.wp_ret ((hC.stable s).and Outline.stable_const) ⟨h, err, rfl⟩
  refine Session.wp_read ?_
  split
  · refine Session.wp_update (Session.wp_read ?_)
    refine Session.wp_call (hC.stable m) h (fun _ hi hw => hC.patch _ hi hw) ?_
    intro w answer w' hi hw he hi'
    have hw' := hC.patched (lastErrorVal err) hi hw he hi'
    cases answer with
    | ok answer => exact hend hw'
    | error e => exact hend hw'
  · exact hend h

theorem wp_reconcileReturn_ends (ending : Except GoErr Ending) (h : E m w) :
    O.wp (reconcileReturn r ending m) (fun res w => E res.2 w ∧ ∃ ret, res.1 = .ok ret) w := by
  have hend {ret : Return} {s : Mem} {w : W} (h : E s w) :
      O.wp ((pure ret : M Return) s) (fun res w => E res.2 w ∧ ∃ ret, res.1 = .ok ret) w :=
    Session.wp_ret ((hC.stable s).and Outline.stable_const) ⟨h, ret, rfl⟩
  rcases ending with e | result | ⟨result, err⟩
  · exact hend h
  · exact hend h
  · refine Session.wp_bind (wp_updateSnrStatusLastError_ends hC err h) ?_ ?_
    · exact fun _ _ _ _ h => hend h.1
    · rintro e s w - ⟨-, _, heq⟩
      cases heq

theorem wp_deferredUpdate_ends (ret : Return) (h : E m w) :
    O.wp (deferredUpdate r ret m) (fun res _ => ∃ ret, res.1 = .ok ret) w := by
  have hend {ret : Return} {s : Mem} {w : W} :
      O.wp ((pure ret : M Return) s) (fun res _ => ∃ ret, res.1 = .ok ret) w :=
    Session.wp_ret Outline.stable_const ⟨ret, rfl⟩
  refine Session.wp_read ?_
  refine Session.wp_call (hC.stable m) h (fun _ hi hw => hC.update hi hw) ?_
  intro w answer w' _ _ _ _
  cases answer with
  | ok _ => exact hend
  | error e =>
    dsimp only
    split
    · exact hend
    · exact hend

/-- Every call at the end of a reconcile is allowed, and only a panic goes on. -/
theorem wp_reconcileEnd_ends {ending : Except GoErr Ending} (h : E m w)
    (hending : Fails V ending) :
    O.wp (reconcileEnd r ending m)
      (fun res _ => ∀ e, res.1 = .error e → V e ∧ ¬ e.IsValue) w := by
  refine Session.wp_bind (wp_reconcileReturn_ends hC ending h) ?_ ?_
  · rintro ret s w - ⟨h, -⟩
    refine Session.wp_bind (wp_deferredUpdate_ends hC ret h) ?_ ?_
    · intro ret s w _ _
      cases ending with
      | ok _ => exact Session.wp_ret Outline.stable_const nofun
      | error e =>
        show O.wp ((if e.kind = _ then Session.fail e else pure ret : M Return) s) _ w
        split
        · next hpanic =>
          refine Session.wp_ret Outline.stable_const fun e' heq => ?_
          cases heq
          exact ⟨hending e rfl, fun hvalue => hvalue hpanic⟩
        · exact Session.wp_ret Outline.stable_const nofun
    · rintro e s w - ⟨_, heq⟩
      cases heq
  · rintro e s w - ⟨-, _, heq⟩
    cases heq

end Closes

/-- A whole reconcile: `hread` leads to the first stage, and with a copy of the last one it
ends. -/
theorem Walk.reconcileManager {W : Type} {O : Outline Call Resp W} {V : GoErr → Prop}
    {K : Stages W} {P : W → Prop} {w : W} {r : Reconciler} (hW : Walk O r V K)
    (hC : Closes O r K.ended) (hP : O.Stable P) (hw : P w)
    (hget : ∀ w, O.inv w → P w → O.allowed .getSNR w)
    (hread : ∀ {snr w w'}, O.inv w → P w → O.exec .getSNR w (.ok snr) w' → O.inv w' →
      K.read ⟨snr, none, none⟩ w') :
    O.wp (reconcileManager r) (fun a _ => ∀ e, a.ret = .error e → V e ∧ ¬ e.IsValue) w := by
  refine Outline.wp_call hP hw hget ?_
  intro w answer w' hi hw he hi'
  have hret {a : Reconciled} {w : W} (ha : ∀ e, a.ret = .error e → V e ∧ ¬ e.IsValue) :
      O.wp (Prog.ret a) (fun a _ => ∀ e, a.ret = .error e → V e ∧ ¬ e.IsValue) w :=
    Outline.wp_ret Outline.stable_const ha fun _ _ h => h
  cases answer with
  | error e => exact hret nofun
  | ok snr =>
    have hrest : O.wp (reconcileRead r ⟨snr, none, none⟩)
        (fun res _ => ∀ e, res.1 = .error e → V e ∧ ¬ e.IsValue) w' :=
      Session.wp_attempt (hW.reconcileSteps (hread hi hw he hi')) fun _ _ _ _ h =>
        wp_reconcileEnd_ends hC h.1 h.2
    exact Outline.wp_bind (Outline.wp_mono hrest fun res _ _ hres => hret hres)

/-! ## 6. One cluster -/

/-- `E` is true of the copies that the handlers end with, and of what an answer of the
API server makes of them; and then they may be stored. -/
structure Storing (lagging : Bool) (O : Outline Call Resp Cluster) (V : GoErr → Prop)
    (E : Mem → Cluster → Prop) : Prop extends Client lagging O where
  values : ∀ e, e.IsValue → V e
  stable : ∀ m, O.Stable (E m)
  decode : ∀ {c w₀ a m w} (mode : DecodeMode), O.exec c w₀ a w → O.inv w → E m w →
    E (m.decode mode w.snr.read) w
  update : ∀ {m w}, E m w → O.allowed (.updateSNRStatus m.snr) w
  lastError : ∀ {m w} (lastError : String), E m w → E (m.withLastError lastError) w
  patch : ∀ {m w} (lastError : String), E m w →
    O.allowed (.patchSNRStatus m.snr.value (m.withLastError lastError).snr.value) w
  patched : ∀ {m w a w'} (lastError : String),
    O.exec (.patchSNRStatus m.snr.value (m.withLastError lastError).snr.value) w a w' →
    E m w → E m w'

/-- Where it only matters which phase is stored. -/
theorem Storing.of_phase {lagging : Bool} {O : Outline Call Resp Cluster}
    {S : Option String → Cluster → Prop} (hO : Client lagging O)
    (hstable : ∀ phase, O.Stable (S phase))
    (hcurrent : ∀ {w}, O.inv w → S w.snr.current.status.phase w)
    (hupdate : ∀ {sent w}, S sent.value.status.phase w → O.allowed (.updateSNRStatus sent) w)
    (hpatch : ∀ {base changed : SNR} {w}, changed.status.phase = base.status.phase →
      O.allowed (.patchSNRStatus base changed) w)
    (hpatched : ∀ {base changed : SNR} {phase w a w'},
      O.exec (.patchSNRStatus base changed) w a w' →
      changed.status.phase = base.status.phase → S phase w → S phase w') :
    Storing lagging O AnyError fun m w => S m.snr.value.status.phase w where
  toClient := hO
  values _ _ := trivial
  stable m := hstable _
  decode {_ _ _ m w} mode _ hi h := by
    cases mode with
    | zeroFirst => exact hcurrent hi
    | overwrite =>
      show S (w.snr.current.status.phase.or m.snr.value.status.phase) w
      have hstored := hcurrent hi
      cases hphase : w.snr.current.status.phase with
      | none => exact h
      | some phase =>
        rw [hphase] at hstored
        exact hstored
  update h := hupdate h
  lastError _ h := h
  patch _ _ := hpatch rfl
  patched _ he h := hpatched he rfl h

section Storing

variable {lagging : Bool} {O : Outline Call Resp Cluster} {V : GoErr → Prop}
  {E : Mem → Cluster → Prop} {P : Cluster → Prop} {m : Mem} (hS : Storing lagging O V E)

include hS

theorem Storing.reading (hP : O.Stable P) : Reading O V P :=
  hS.toClient.reading hS.values hP

theorem Storing.beside (hP : Robust O P) : Beside O V P :=
  hS.toClient.beside hS.values hP

/-- An `Update`, if it leaves `E` true of the copy that was sent. -/
theorem Storing.updates {r : Reconciler} (hP : O.Stable P)
    (hallowed : ∀ {w}, O.inv w → P w → O.allowed (.updateSNR m.snr) w)
    (hupdated : ∀ {w a w'}, P w → O.exec (.updateSNR m.snr) w a w' → O.inv w' → E m w') :
    Updates O r V E m P where
  stable := hP
  allowed := hallowed
  answered {w a w'} _ hw he hi' := by
    have h := hupdated hw he hi'
    cases (hS.exec he).updateSNR with
    | done _ => exact ⟨hS.decode r.decode he hi' h, fails_ok⟩
    | error hv => exact ⟨h, fails_error (hS.values _ hv)⟩
    | lost hv _ => exact ⟨h, fails_error (hS.values _ hv)⟩

theorem Storing.closes (r : Reconciler) : Closes O r E where
  stable := hS.stable
  update _ h := hS.update h
  patch _ _ h := hS.patch _ h
  patched lastError _ h he hi' := by
    have h' := hS.lastError lastError (hS.patched _ he h)
    cases Exec.patchSNRStatus (hS.exec he) with
    | done _ => exact hS.decode r.decode he hi' h'
    | error _ => exact h'
    | lost _ _ => exact h'

end Storing

/-- A whole reconcile of which every copy that is stored satisfies the last stage. -/
theorem Storing.reconcileManager {lagging : Bool} {O : Outline Call Resp Cluster}
    {V : GoErr → Prop} {K : Stages Cluster} {r : Reconciler} (hS : Storing lagging O V K.ended)
    (hW : Walk O r V K)
    (hread : ∀ {snr w}, O.inv w → O.exec .getSNR w (.ok snr) w → K.read ⟨snr, none, none⟩ w)
    (w : Cluster) :
    O.wp (reconcileManager r) (fun a _ => ∀ e, a.ret = .error e → V e ∧ ¬ e.IsValue) w := by
  refine hW.reconcileManager (hS.closes r) (Outline.stable_const (p := True)) trivial
    (fun w hi _ => hS.reads rfl hi) ?_
  intro snr w w' hi _ he _
  obtain rfl := (hS.exec he).read rfl
  exact hread hi he

end SelfNodeRemediation
