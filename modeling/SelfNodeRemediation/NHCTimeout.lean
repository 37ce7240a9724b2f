import SelfNodeRemediation.Lib.Threads
import SelfNodeRemediation.PeerHealth
import SelfNodeRemediation.Walk

/-!
# Remediations stopped by NHC

A SelfNodeRemediation with the timeout annotation of NHC is stopped: the manager
only cleans up after it. The agents do not look at the annotation.

* `nhc_stops`: over all runs of the manager and any number of agents in which the
  manager reads a version that is annotated, and no agent reads one of its own
  node, live and in the phase Pre-Reboot-Completed: nothing is rebooted, no taint
  is added, no pods are deleted and the stored phase stays.
* `stopped_rebooted`: an agent that does read it reboots the node.

Manager and agents reconcile one at a time, each for itself; a reconcile may be
abandoned at any call, calls may fail, and a read may be answered with any version
that was ever stored.
-/

namespace SelfNodeRemediation

open Interaction Versioned

/-! ## 1. The system -/

inductive Party
  | manager
  | agent (n : Nat)
deriving DecidableEq

/-- Time passes, and others change what they like, but no taints and not where the
remediation stands. -/
structure StopOthers (w w' : Cluster) : Prop where
  now : w.now ≤ w'.now
  machines : w'.machines = w.machines
  nodes : ∀ name node', w'.nodes name = some node' →
    ∃ node, w.nodes name = some node ∧ node'.name = node.name ∧ node'.taints = node.taints
  snr : w'.snr = w.snr ∨ ∃ snr, w'.snr = w.snr.put snr ∧
    (isStoppedByNHC w.snr.current = true → isStoppedByNHC snr = true) ∧
    snr.status.phase = w.snr.current.status.phase

/-- The manager and the agents, by their reconcilers. What is read may lag; `reads` is
what is known of the answers. -/
def stopSystem (manager : Reconciler) (agents : Nat → Reconciler)
    (reads : Party → (c : Call) → Cluster → Resp c → Prop) :
    Interaction.System Party Call Resp Cluster Unit where
  main
    | .manager => do
      let _ ← reconcileManager manager
      return ()
    | .agent n => do
      let _ ← reconcileAgent (agents n)
      return ()
  ready _ _ := True
  exec i c w r w' := Exec true c w r w' ∧ reads i c w r
  crash _ _ _ _ := False
  env := StopOthers
  again _ := True

/-- No reboot, no pods deleted, no taint added. -/
def Harmless : Call → Cluster → Prop
  | .reboot, _ => False
  | .deleteAllOf _ _, _ => False
  | .patchNode base changed, w =>
    ∀ node, w.nodes changed.name = some node → (patchedNode base changed node).taints ⊆ node.taints
  | _, _ => True

/-- An agent has no reason to reboot: the phase, a deletion, or another node. -/
def Spared (agent : Reconciler) (snr : SNR) (w : Cluster) : Prop :=
  getPhase snr ≠ .preRebootCompleted ∨ snr.deletionTimestamp.isSome = true ∨
    ¬ Matched serve w agent.myNodeName "" snr

/-- What is read of the SelfNodeRemediation satisfies `P`. -/
def ReadsOnly (P : SNR → Cluster → Prop) : (c : Call) → Cluster → Resp c → Prop
  | .getSNR, w, r => ∀ snr, r = .ok snr → P snr.value w
  | _, _, _ => True

/-- The manager reads versions that are annotated, and the agents versions that spare
them. -/
def StopReads (agents : Nat → Reconciler) : Party → (c : Call) → Cluster → Resp c → Prop
  | .manager => ReadsOnly fun snr _ => isStoppedByNHC snr = true
  | .agent n => ReadsOnly (Spared (agents n))

/-! ## 2. The manager -/

/-- The object is stopped, in the phase it was in. Nodes are stored by their names. -/
structure Stopped (phase : Option String) (w : Cluster) : Prop where
  stopped : isStoppedByNHC w.snr.current = true
  phase : w.snr.current.status.phase = phase
  named : ∀ name node, w.nodes name = some node → node.name = name

/-- What the manager still does. A write that names an old version is rejected. -/
def StopAllowed (phase : Option String) : Call → Cluster → Prop
  | .patchNode base changed, w => Harmless (.patchNode base changed) w
  | .updateSNR sent, _ => isStoppedByNHC sent.value = true
  | .updateSNRStatus sent, w =>
    sent.resourceVersion = w.snr.resourceVersion → sent.value.status.phase = phase
  | c, _ => c.isRead = true

theorem harmless_read {c : Call} {w : Cluster} (h : c.isRead = true) : Harmless c w := by
  cases c with
  | patchNode _ _ => cases h
  | deleteAllOf _ _ => cases h
  | reboot => cases h
  | _ => trivial

theorem StopAllowed.harmless {phase : Option String} {c : Call} {w : Cluster}
    (h : StopAllowed phase c w) : Harmless c w := by
  cases c with
  | patchNode _ _ => exact h
  | updateSNR _ => trivial
  | updateSNRStatus _ => trivial
  | _ => exact harmless_read h

theorem StopOthers.extends {w w' : Cluster} (h : StopOthers w w') : w.snr.Extends w'.snr := by
  rcases h.snr with hs | ⟨snr, hs, -⟩
  · rw [hs]
    exact .refl _
  · rw [hs]
    exact Store.extends_put _ _

theorem stopped_others {phase : Option String} {w w' : Cluster} (h : Stopped phase w)
    (ho : StopOthers w w') : Stopped phase w' := by
  have hnamed (name : String) (node' : Node) (hnode' : w'.nodes name = some node') :
      node'.name = name := by
    obtain ⟨node, hnode, hname, -⟩ := ho.nodes name node' hnode'
    exact hname.trans (h.named name node hnode)
  rcases ho.snr with hs | ⟨snr, hs, hstopped, hphase⟩
  · exact ⟨hs ▸ h.stopped, hs ▸ h.phase, hnamed⟩
  · exact ⟨hs ▸ hstopped h.stopped, hs ▸ hphase.trans h.phase, hnamed⟩

theorem stopped_setNode {phase : Option String} {w : Cluster} {base changed node : Node}
    (h : Stopped phase w) (hnode : w.nodes changed.name = some node) :
    Stopped phase (w.setNode changed.name (patchedNode base changed node)) :=
  ⟨h.stopped, h.phase, fun name => named_patchNode (h.named name) hnode⟩

theorem stopped_exec {phase : Option String} {c : Call} {w w' : Cluster} {r : Resp c}
    (h : Stopped phase w) (ha : StopAllowed phase c w) (he : Exec true c w r w') :
    Stopped phase w' := by
  cases c with
  | patchNode base changed =>
    cases he.patchNode with
    | done hnode => exact stopped_setNode h hnode
    | error _ => exact h
    | lost _ hnode => exact stopped_setNode h hnode
  | updateSNR sent =>
    rcases he.updateSNR.world with rfl | ⟨-, rfl⟩
    · exact h
    · have hcurrent : (w.store (updated w.snr.current sent.value)).snr.current =
          updated w.snr.current sent.value := Store.putIfChanged_current
      refine ⟨?_, ?_, h.named⟩
      · rw [hcurrent]
        exact ha
      · rw [hcurrent]
        exact h.phase
  | updateSNRStatus sent =>
    rcases he.updateSNRStatus.world with rfl | ⟨⟨-, hversion⟩, rfl⟩
    · exact h
    · have hcurrent : (w.storeStatus sent.value.status.serialize).snr.current =
          { w.snr.current with status := sent.value.status.serialize } :=
        Store.putIfChanged_current
      refine ⟨?_, ?_, h.named⟩
      · rw [hcurrent]
        exact h.stopped
      · rw [hcurrent]
        exact ha hversion
  | _ => exact he.read ha ▸ h

/-- The manager among the others; the agents only read. -/
def stopOutline (phase : Option String) : Outline Call Resp Cluster where
  exec c w r w' := Exec true c w r w' ∧ ReadsOnly (fun snr _ => isStoppedByNHC snr = true) c w r
  env := StopOthers
  inv := Stopped phase
  allowed := StopAllowed phase
  inv_env := stopped_others
  inv_exec h ha he := stopped_exec h ha he.1

theorem stopOutline_client (phase : Option String) : Client true (stopOutline phase) where
  exec he := he.1
  reads := by
    intro c w hc _
    cases c with
    | patchNode _ _ => cases hc
    | updateSNR _ => cases hc
    | updateSNRStatus _ => cases hc
    | _ => exact Call.isRead_of_isPlainRead hc

/-- The copy is of a stopped object, in the phase of the version it was read as. -/
def MemStopped (m : Mem) (w : Cluster) : Prop :=
  isStoppedByNHC m.snr.value = true ∧
    ∃ snr, w.snr.version m.snr.resourceVersion = some snr ∧
      m.snr.value.status.phase = snr.status.phase

/-- The copy of a node has the stored taints, if the node is still there. -/
def TaintsKnown (node : Node) (w : Cluster) : Prop :=
  ∀ stored, w.nodes node.name = some stored → stored.taints = node.taints

theorem MemStopped.mono {m : Mem} {w w' : Cluster} (h : MemStopped m w)
    (hv : w.snr.Extends w'.snr) : MemStopped m w' := by
  obtain ⟨hs, snr, hversion, hphase⟩ := h
  exact ⟨hs, snr, hv _ snr hversion, hphase⟩

section Manager

variable {phase : Option String} {m : Mem} {w : Cluster} {α β : Type}

/-- The copy that a status update is sent from has the stored phase, if it is let through. -/
theorem MemStopped.current_phase (hm : MemStopped m w) (hw : Stopped phase w)
    (hversion : m.snr.resourceVersion = w.snr.resourceVersion) :
    m.snr.value.status.phase = phase := by
  obtain ⟨-, snr, hsnr, hphase⟩ := hm
  rw [hversion] at hsnr
  rw [hphase, ← Store.current_of_version hsnr]
  exact hw.phase

/-- The answer to a write that went through. -/
theorem memStopped_decode (hw : Stopped phase w) (hm : m.snr.value.status.phase = phase)
    (mode : DecodeMode) : MemStopped (m.decode mode w.snr.read) w := by
  have hversion : w.snr.version (m.decode mode w.snr.read).snr.resourceVersion =
      some w.snr.current := Store.version_resourceVersion
  cases mode with
  | zeroFirst => exact ⟨hw.stopped, w.snr.current, hversion, rfl⟩
  | overwrite =>
    refine ⟨?_, w.snr.current, hversion, ?_⟩
    · show (List.lookup _ (overlayMap w.snr.current.annotations _)).isSome = true
      unfold overlayMap
      rw [List.lookup_append]
      have hstopped : (w.snr.current.annotations.lookup nhcTimeOutAnnotation).isSome = true :=
        hw.stopped
      rw [Option.isSome_or, hstopped]
      rfl
    · show w.snr.current.status.phase.or m.snr.value.status.phase = w.snr.current.status.phase
      rw [hw.phase, hm, Option.or_self]

theorem stable_memStopped (m : Mem) : (stopOutline phase).Stable (MemStopped m) :=
  fun _ _ h ho => h.mono (StopOthers.extends ho)

theorem memStopped_reading (phase : Option String) (m : Mem) :
    Reading (stopOutline phase) AnyError (MemStopped m) :=
  (stopOutline_client phase).reading (fun _ _ => trivial) (stable_memStopped m)

theorem stable_taintsKnown (node : Node) : (stopOutline phase).Stable (TaintsKnown node) := by
  intro w w' h ho stored' hstored'
  obtain ⟨stored, hstored, -, htaints⟩ := StopOthers.nodes ho node.name stored' hstored'
  exact htaints.trans (h stored hstored)

theorem stable_known (node : Node) :
    (stopOutline phase).Stable fun w => MemStopped m w ∧ TaintsKnown node w :=
  (stable_memStopped m).and (stable_taintsKnown node)

/-- The node after one taint was removed, as far as others leave it alone. -/
theorem wp_removeTaint_known (r : Reconciler) (taint : Taint) {node : Node}
    (h : MemStopped m w ∧ TaintsKnown node w) :
    (stopOutline phase).wp (removeTaint r taint node m)
      (Leaves (fun node w => MemStopped m w ∧ TaintsKnown node w)
        (Failed AnyError MemStopped m) m) w := by
  refine wp_removeTaint_leaves (stable_known node) stable_known
    (fun _ => (stable_memStopped m).and Outline.stable_const) (fun _ => h) (fun hexists => ?_) h
  have hne : node.taints ≠ (deleteTaint node.taints taint).1 := (deleteTaint_of_exists hexists).2
  refine ⟨fun {w} _ h stored hstored => ?_, fun {answer w w'} hi h he => ?_,
    fun _ h he => ⟨h.1.mono he.1.extends, trivial⟩⟩
  · unfold withoutTaint
    rw [patchedNode_of_ne hne, h.2 stored hstored]
    exact deleteTaint_subset node.taints taint
  · refine ⟨h.1.mono he.1.extends, fun stored' hstored' => ?_⟩
    cases he.1.patchNode with
    | @done stored hstored =>
      unfold withoutTaint at hstored'
      obtain ⟨hname, htaints⟩ := decode_patched (n := stored) hne r.decode
      rw [hname, hi.named _ _ hstored] at hstored'
      change Function.update w.nodes node.name _ node.name = some stored' at hstored'
      rw [Function.update_self] at hstored'
      cases hstored'
      unfold withoutTaint
      rw [htaints, patchedNode_of_ne hne]

theorem wp_removeFinalizer_stopped (r : Reconciler) (hm : MemStopped m w) :
    (stopOutline phase).wp (removeFinalizer r m) (Ends AnyError MemStopped) w := by
  have hm : MemStopped (m.modify fun snr => removeFinalizerFrom snr snrFinalizer) w := hm
  refine wp_removeFinalizer_ends stable_memStopped
    ⟨stable_memStopped _, fun _ hm => hm.1, fun {w a w'} hi hm he hi' => ⟨?_, fails_any⟩⟩ hm
  have hm' := hm.mono he.1.extends
  cases he.1.updateSNR with
  | done hguard => exact memStopped_decode hi' (hm.current_phase hi hguard.2) r.decode
  | error _ => exact hm'
  | lost _ _ => exact hm'

theorem wp_recoverNode_stopped (r : Reconciler) {node : Node}
    (h : MemStopped m w ∧ TaintsKnown node w) :
    (stopOutline phase).wp (recoverNode r node m) (Ends AnyError MemStopped) w :=
  wp_recoverNode_ends stable_memStopped (P := MemStopped m)
    (Leaves.wp_mono (wp_removeTaint_known r _ h) (fun _ _ _ h => h.1) fun _ _ _ h => h)
    (fun _ _ hm => wp_removeFinalizer_stopped r hm) fun _ _ hm => hm

/-- The target node as it is read. -/
theorem wp_getNodeFromSnr_known (hm : MemStopped m w) :
    (stopOutline phase).wp (getNodeFromSnr m)
      (Leaves (fun node w => MemStopped m w ∧ TaintsKnown node w) (fun _ => MemStopped m) m) w := by
  have hR := memStopped_reading phase m
  refine wp_getNodeFromSnr_leaves (fun _ => hR.stable) (fun _ => hR) stable_known
    ((keeps_getNodeName hR hm).leaves fun _ _ _ hm _ => hm) ?_
  intro nodeName answer w w' hi hm he
  obtain rfl := he.1.read rfl
  refine ⟨fun node hanswer => ⟨hm, fun stored hstored => ?_⟩, fun _ _ => hm⟩
  have hnode := he.1.getNode.1 node hanswer
  rw [hi.named nodeName node hnode, hnode] at hstored
  cases hstored
  rfl

theorem wp_updateConditions_stopped {reason : ConditionReason}
    {processing succeeded : ConditionStatus} (hr : reason.statuses = some (processing, succeeded))
    (hm : MemStopped m w) :
    (stopOutline phase).wp (updateConditions reason m) (Ends AnyError MemStopped) w :=
  wp_updateConditions_ends (memStopped_reading phase m) hm hr fun _ _ _ _ hm _ => hm

/-- A reconcile that ends with an error, or plainly: no error is recorded in the
status. The patch that records one names no version, and its answer could bring an old
phase into the copy. -/
def PlainEnd (res : Except GoErr Ending × Mem) (w : Cluster) : Prop :=
  MemStopped res.2 w ∧ ∀ ending, res.1 = .ok ending → ∃ result, ending = .plain result

theorem stable_plainEnd (res : Except GoErr Ending × Mem) :
    (stopOutline phase).Stable (PlainEnd res) :=
  (stable_memStopped res.2).and Outline.stable_const

theorem wp_plainEnd {result : Result} (hm : MemStopped m w) :
    (stopOutline phase).wp (Prog.ret (.ok (.plain result), m)) PlainEnd w :=
  Session.wp_ret (stable_plainEnd _) ⟨hm, fun _ h => ⟨result, (Except.ok.inj h).symm⟩⟩

theorem wp_errorEnd {e : GoErr} (hm : MemStopped m w) :
    (stopOutline phase).wp (Prog.ret (.error e, m)) PlainEnd w :=
  Session.wp_ret (stable_plainEnd _) ⟨hm, nofun⟩

theorem Ends.wp_plainEnd {x : M α} {f : α → M Ending}
    (hx : (stopOutline phase).wp (x m) (Ends AnyError MemStopped) w)
    (hf : ∀ a s w, MemStopped s w → (stopOutline phase).wp (f a s) PlainEnd w) :
    (stopOutline phase).wp ((x >>= f) m) PlainEnd w :=
  Session.wp_bind hx (fun a s w _ hs => hf a s w hs.1) fun _ _ _ _ hs => wp_errorEnd hs.1

theorem wp_stoppedByNHC_stopped (r : Reconciler) (hm : MemStopped m w) :
    (stopOutline phase).wp (stoppedByNHC r m) PlainEnd w := by
  refine wp_theSNR ?_
  split
  · refine Leaves.wp_attempt (wp_getNodeFromSnr_known hm) ?_ ?_
    · intro node w _ h
      refine Leaves.wp_bind (wp_removeTaint_known r outOfServiceTaint h) ?_
        fun _ _ _ h => wp_errorEnd h.1
      exact fun _ _ _ h => Ends.wp_plainEnd (wp_recoverNode_stopped r h)
        fun _ _ _ hs => wp_plainEnd hs
    · intro e w _ hm
      dsimp only
      split
      · exact Ends.wp_plainEnd (wp_removeFinalizer_stopped r hm) fun _ _ _ hs => wp_plainEnd hs
      · exact wp_errorEnd hm
  · exact Ends.wp_plainEnd (wp_updateConditions_stopped rfl hm) fun _ _ _ hs => wp_plainEnd hs

theorem wp_disabledNoConfig_stopped (hm : MemStopped m w) :
    (stopOutline phase).wp (disabledNoConfig m) PlainEnd w := by
  refine Session.wp_bind (wp_setCondition (memStopped_reading phase m) hm _) ?_
    fun _ _ _ _ h => nomatch h.1
  rintro _ s w - ⟨-, hm, now, (rfl : s = _)⟩
  exact wp_plainEnd hm

theorem wp_reconcileSteps_stopped (r : Reconciler) (hm : MemStopped m w) :
    (stopOutline phase).wp (reconcileSteps r m) PlainEnd w := by
  have hexist := keeps_isConfigurationExist (m := m) (memStopped_reading phase m) hm
  refine hexist.wp_bind (fun exists_ w _ hm => ?_) fun _ _ _ hm _ => wp_errorEnd hm
  cases exists_ with
  | false => exact wp_disabledNoConfig_stopped hm
  | true =>
    refine wp_theSNR ?_
    rw [if_pos hm.1]
    exact wp_stoppedByNHC_stopped r hm

theorem wp_end {a : α} : (stopOutline phase).wp (Prog.ret a) (fun _ _ => True) w :=
  Outline.wp_ret Outline.stable_const trivial fun _ _ _ => trivial

/-- The deferred update stores the phase that is stored already, or is rejected. -/
theorem wp_deferredUpdate_stopped (r : Reconciler) (ret : Return) (hm : MemStopped m w) :
    (stopOutline phase).wp (deferredUpdate r ret m) (fun _ _ => True) w := by
  refine Session.wp_read
    (Session.wp_call (stable_memStopped m) hm (fun _ hi hm => hm.current_phase hi) ?_)
  rintro w (e | answer) w' - - - -
  · dsimp only
    split
    · exact wp_end
    · exact wp_end
  · exact wp_end

theorem wp_reconcileRead_stopped (r : Reconciler) (hm : MemStopped m w) :
    (stopOutline phase).wp (reconcileRead r m) (fun _ _ => True) w := by
  refine Session.wp_attempt (wp_reconcileSteps_stopped r hm) ?_
  rintro ending s w - ⟨hs, hplain⟩
  have hupdate (ret : Return) :
      (stopOutline phase).wp ((deferredUpdate r ret >>= repanic ending) s) (fun _ _ => True) w := by
    refine Session.wp_bind (wp_deferredUpdate_stopped r ret hs) ?_ fun _ _ _ _ _ => wp_end
    intro ret s w _ _
    unfold repanic
    split
    · split
      · exact wp_end
      · exact wp_end
    · exact wp_end
  rcases ending with e | ending
  · exact hupdate _
  · obtain ⟨result, rfl⟩ := hplain ending rfl
    exact hupdate _

/-- The manager reads a stopped object, and does no more than what is allowed. -/
theorem wp_reconcileManager_stopped (r : Reconciler) :
    (stopOutline phase).wp (reconcileManager r) (fun _ _ => True) w := by
  refine Outline.wp_call Outline.stable_const trivial (fun _ _ _ => rfl) ?_
  rintro w (e | snr) w' - - ⟨he, hread⟩ -
  · exact wp_end
  · obtain rfl := he.read rfl
    have hm : MemStopped ⟨snr, none, none⟩ w' :=
      ⟨hread snr rfl, snr.value, (he.getSNR rfl).1, rfl⟩
    exact Outline.wp_bind (Outline.wp_mono (wp_reconcileRead_stopped r hm) fun _ _ _ _ => wp_end)

end Manager

/-! ## 3. The agents -/

/-- An agent that only reads, while nobody changes the Machines. -/
def readOutline (agent : Reconciler) : Outline Call Resp Cluster where
  exec c w r w' := Exec true c w r w' ∧ ReadsOnly (Spared agent) c w r
  env w w' := w'.machines = w.machines
  inv _ := True
  allowed c _ := c.isRead = true
  inv_env _ _ := trivial
  inv_exec _ _ _ := trivial

section Agent

variable {agent : Reconciler} {w : Cluster} {m : Mem}

theorem wp_agent_end {α : Type} {a : α} : (readOutline agent).wp (Prog.ret a) (fun _ _ => True) w :=
  Outline.wp_ret Outline.stable_const trivial fun _ _ _ => trivial

theorem readOutline_client (agent : Reconciler) : Client true (readOutline agent) where
  exec he := he.1
  reads hc _ := Call.isRead_of_isPlainRead hc

/-- A node name that is found is the one the SelfNodeRemediation resolves to. -/
theorem wp_getNodeName_resolves :
    (readOutline agent).wp (getNodeName m)
      (Leaves (fun name _ => Resolves serve w m.snr.value name) (fun _ _ => True) m) w := by
  have hstable : (readOutline agent).Stable fun w' => w'.machines = w.machines :=
    fun _ _ h he => Eq.trans he h
  have hR : Reading (readOutline agent) AnyError fun w' => w'.machines = w.machines :=
    (readOutline_client agent).reading (fun _ _ => trivial) hstable
  refine wp_getNodeName_leaves (fun _ => Outline.stable_const) hR
    (fun _ => Outline.stable_const) rfl (fun hdirect => ?_) ?_
  · cases hnhc : isOwnedByNHC m.snr.value with
    | true => exact .nhc hnhc
    | false => exact .direct hnhc (hdirect.resolve_left (Bool.eq_false_iff.mp hnhc))
  · intro ref hnhc href answer w₁ w₂ _ hmachines he
    refine ⟨fun machine name hanswer hname => ?_, fun _ _ _ _ _ => trivial, fun _ _ => trivial⟩
    have hstored := he.1.getMachine.1 machine hanswer
    rw [hmachines] at hstored
    have hserve : (serve (.getMachine m.snr.value.namespace_ ref.name) w).1 = .ok machine :=
      congrArg (found machineKind ref.name) hstored
    exact .machine hnhc href hserve hname

theorem wp_isSNRMatching_matched (nodeName machineName : String) :
    (readOutline agent).wp (isSNRMatching nodeName machineName m)
      (fun res _ => res.2 = m ∧
        (res.1 = .ok true → Matched serve w nodeName machineName m.snr.value)) w := by
  refine wp_theSNR ?_
  split
  · next howned =>
    exact Session.wp_ret Outline.stable_const ⟨rfl, fun _ => .inl (any_owner_iff.mp howned)⟩
  · refine Leaves.wp_bind wp_getNodeName_resolves ?_ ?_
    · intro name w' _ hresolves
      refine Session.wp_ret Outline.stable_const ⟨rfl, fun h => .inr ?_⟩
      have hname : name = nodeName := beq_iff_eq.mp (Except.ok.inj h)
      exact hname ▸ hresolves
    · intro e w' _ _
      exact Session.wp_ret Outline.stable_const ⟨rfl, nofun⟩

/-- An agent that is spared only reads. -/
theorem wp_agentSteps_spared (h : Spared agent m.snr.value w) :
    (readOutline agent).wp (agentSteps agent m) (fun _ _ => True) w := by
  refine wp_theSNR ?_
  split
  · exact wp_agent_end
  · next hlive =>
    refine Session.wp_bind (wp_isSNRMatching_matched agent.myNodeName "") ?_
      fun _ _ _ _ _ => wp_agent_end
    rintro (_ | _) s w' - ⟨(rfl : s = m), hmatched⟩
    · exact wp_agent_end
    · rcases h with hphase | hdeleted | hother
      · cases hp : getPhase s.snr.value with
        | preRebootCompleted => exact absurd hp hphase
        | _ => exact wp_agent_end
      · exact absurd hdeleted hlive
      · exact absurd (hmatched rfl) hother

theorem wp_reconcileAgent_spared :
    (readOutline agent).wp (reconcileAgent agent) (fun _ _ => True) w := by
  refine Outline.wp_call Outline.stable_const trivial (fun _ _ _ => rfl) ?_
  rintro w (e | snr) w' - - ⟨he, hread⟩ -
  · exact wp_agent_end
  · obtain rfl := he.read rfl
    have hsteps := wp_agentSteps_spared (m := ⟨snr, none, none⟩) (hread snr rfl)
    exact Outline.wp_bind (Outline.wp_mono hsteps fun _ _ _ _ => wp_agent_end)

end Agent

/-- No call changes a Machine. -/
theorem Exec.machines {lagging : Bool} {c : Call} {w w' : Cluster} {r : Resp c}
    (h : Exec lagging c w r w') : w'.machines = w.machines := by
  rcases h.change with rfl | hchange
  · rfl
  · cases hchange <;> rfl

/-! ## 4. All of them -/

section Whole

variable {manager : Reconciler} {agents : Nat → Reconciler} {phase : Option String}

/-- What each of them has left to do. -/
def StopAsserts (agents : Nat → Reconciler) (phase : Option String) :
    Party → Prog Call Resp Unit → Cluster → Prop
  | .manager, p, w => (stopOutline phase).wp p (fun _ _ => True) w
  | .agent n, p, w => (readOutline (agents n)).wp p (fun _ _ => True) w

theorem StopAsserts.agent_read {n : Nat} {c : Call} {k : Resp c → Prog Call Resp Unit}
    {w : Cluster} (h : StopAsserts agents phase (.agent n) (.call c k) w) : c.isRead = true :=
  (h w .refl trivial).1

theorem StopAsserts.harmless {i : Party} {c : Call} {k : Resp c → Prog Call Resp Unit}
    {w : Cluster} (hi : Stopped phase w) (h : StopAsserts agents phase i (.call c k) w) :
    Harmless c w := by
  cases i with
  | manager => exact ((h w .refl hi).1 : StopAllowed phase c w).harmless
  | agent n => exact harmless_read h.agent_read

/-- An agent's calls leave the world alone, the manager's do what is allowed. -/
theorem StopAsserts.exec {i : Party} {c : Call} {k : Resp c → Prog Call Resp Unit}
    {w w' : Cluster} {r : Resp c} (hi : Stopped phase w)
    (h : StopAsserts agents phase i (.call c k) w) (he : Exec true c w r w') :
    Stopped phase w' := by
  cases i with
  | manager => exact stopped_exec hi (h w .refl hi).1 he
  | agent n => exact he.read h.agent_read ▸ hi

theorem StopAsserts.free {i j : Party} {p : Prog Call Resp Unit} {c : Call}
    {k : Resp c → Prog Call Resp Unit} {w w' : Cluster} {r : Resp c} (hne : i ≠ j)
    (hp : StopAsserts agents phase i p w) (h : StopAsserts agents phase j (.call c k) w)
    (he : Exec true c w r w') : StopAsserts agents phase i p w' := by
  cases j with
  | agent n => exact he.read h.agent_read ▸ hp
  | manager =>
    cases i with
    | manager => exact absurd rfl hne
    | agent n => exact Outline.wp_later (.single he.machines) hp

def stopProof (manager : Reconciler) (agents : Nat → Reconciler) (phase : Option String) :
    Annotation (stopSystem manager agents (StopReads agents)) Interaction.System.AnyStep where
  inv := Stopped phase
  asserts := StopAsserts agents phase
  inv_env := stopped_others
  inv_exec hi h he := h.exec hi he.1
  inv_crash _ _ h := h.elim
  start {i w} _ _ := by
    cases i with
    | manager =>
      exact Outline.wp_bind (Outline.wp_mono (wp_reconcileManager_stopped manager)
        fun _ _ _ _ => wp_end)
    | agent n =>
      exact Outline.wp_bind (Outline.wp_mono wp_reconcileAgent_spared fun _ _ _ _ => wp_agent_end)
  next {i c k w r w' t} hi _ h he _ := by
    cases i with
    | manager => exact (h w .refl hi).2 r w' he
    | agent n => exact (h w .refl trivial).2 r w' he
  env {i p w w'} _ h he := by
    cases i with
    | manager => exact Outline.wp_later (.single he) h
    | agent n => exact Outline.wp_later (.single he.machines) h
  free hne _ _ hp h he _ := hp.free hne h he.1
  crash _ _ _ _ h _ := h.elim

/-- While the manager reads annotated versions and each agent versions that spare it,
nothing happens to the node of a stopped remediation, and its phase stays. -/
theorem nhc_stops {w₀ : Cluster} {s : Pool Party Call Resp Cluster Unit}
    (hstopped : isStoppedByNHC w₀.snr.current = true)
    (hnamed : ∀ name node, w₀.nodes name = some node → node.name = name)
    (h : (stopSystem manager agents (StopReads agents)).Run Interaction.System.AnyStep w₀ s) :
    s.world.snr.current.status.phase = w₀.snr.current.status.phase ∧
    ∀ i c k, s.threads i = some (.call c k) → Harmless c s.world := by
  obtain ⟨hi, hasserts⟩ :=
    (stopProof manager agents w₀.snr.current.status.phase).reachable
      ⟨hstopped, rfl, hnamed⟩ h
  exact ⟨hi.phase, fun i c k hc => (hasserts i _ hc).harmless hi⟩

end Whole

/-- A remediation that is stopped while the node is to reboot. -/
def stoppedSNR : SNR :=
  { smallSNR with
    annotations := [Prod.mk nhcTimeOutAnnotation "2024-01-01T00:00:00Z"]
    finalizers := [snrFinalizer]
    status := ⟨some 1000100000000, some preRebootCompletedPhase, "", []⟩ }

def stoppedCluster : Cluster :=
  { smallCluster with
    snr := ⟨stoppedSNR, []⟩
    nodes := fun name =>
      if name = "worker-1" then some { smallNode with taints := [nodeNoScheduleTaint] } else none }

/-- The same remediation, deleted. -/
def stoppedDeleted : Cluster :=
  { stoppedCluster with snr := ⟨{ stoppedSNR with deletionTimestamp := some 1000400000000 }, []⟩ }

/-- The agent of the node. -/
def workerAgent (_ : Nat) : Reconciler := ⟨"worker-1", .zeroFirst⟩

/-- The agent of the node reads the deleted remediation, which spares it, and the manager
gets as far as removing a taint. -/
theorem nhc_stops_small : ∃ s : Pool Party Call Resp Cluster Unit,
    (stopSystem smallManager workerAgent (StopReads workerAgent)).Run Interaction.System.AnyStep
      stoppedDeleted s ∧
    (∃ base changed k, s.threads .manager = some (.call (.patchNode base changed) k) ∧
      Harmless (.patchNode base changed) s.world) ∧
    s.world.snr.current.status.phase = some preRebootCompletedPhase := by
  have hstart : (stopSystem smallManager workerAgent (StopReads workerAgent)).Run
      Interaction.System.AnyStep stoppedDeleted ⟨stoppedDeleted, fun _ => none⟩ := .refl
  have hspared : ReadsOnly (Spared (workerAgent 0)) .getSNR stoppedDeleted
      (serve .getSNR stoppedDeleted).1 := by
    intro snr hsnr
    cases hsnr
    exact .inr (.inl rfl)
  have hannotated : ReadsOnly (fun snr _ => isStoppedByNHC snr = true) .getSNR stoppedDeleted
      (serve .getSNR stoppedDeleted).1 := by
    intro snr hsnr
    cases hsnr
    rfl
  have hagent := (hstart.start (.agent 0) rfl trivial trivial).call (.agent 0) rfl
    ⟨.served, hspared⟩ trivial
  have hread := (hagent.start .manager rfl trivial trivial).call .manager rfl
    ⟨.served, hannotated⟩ trivial
  have hrun := ((hread.call .manager rfl ⟨.served, trivial⟩ trivial).call .manager rfl
    ⟨.served, trivial⟩ trivial).call .manager rfl ⟨.served, trivial⟩ trivial
  have hnamed : ∀ name node, stoppedDeleted.nodes name = some node → node.name = name :=
    named_single { smallNode with taints := [nodeNoScheduleTaint] }
  obtain ⟨hphase, hharmless⟩ := nhc_stops rfl hnamed hrun
  exact ⟨_, hrun, ⟨_, _, _, rfl, hharmless .manager _ _ rfl⟩, hphase⟩

/-- The agent reboots the node although the remediation is stopped. -/
theorem stopped_rebooted : isStoppedByNHC stoppedCluster.snr.current = true ∧
    ∃ s : Pool Party Call Resp Cluster Unit, ∃ k,
      (stopSystem smallManager workerAgent fun _ _ _ _ => True).Run Interaction.System.AnyStep
        stoppedCluster s ∧
      s.threads (.agent 0) = some (.call .reboot k) ∧
      s.world.snr.current = stoppedCluster.snr.current := by
  have hstart : (stopSystem smallManager workerAgent fun _ _ _ _ => True).Run
      Interaction.System.AnyStep stoppedCluster ⟨stoppedCluster, fun _ => none⟩ := .refl
  have hread := ((hstart.start (.agent 0) rfl trivial trivial).call (.agent 0) rfl
    ⟨.served, trivial⟩ trivial).call (.agent 0) rfl ⟨.served, trivial⟩ trivial
  have hrun := (hread.call (.agent 0) rfl ⟨.served, trivial⟩ trivial).call (.agent 0) rfl
    ⟨.served, trivial⟩ trivial
  exact ⟨rfl, _, _, hrun, rfl, rfl⟩

end SelfNodeRemediation
