import SelfNodeRemediation.PhaseMachine

/-!
# The agent among stored changes

The agent reconciles on the target node while the manager, and others, store
changes to the SelfNodeRemediation. `AgentWorld` is the cluster with what the
timing of the agent's reconciles is judged by: when the last one was started,
and which stored changes came before.

* `agent_reboots`: a reconcile of the agent that is not overtaken by a change
  leaves a rebooted node, if the SelfNodeRemediation is in the phase
  Pre-Reboot-Completed and not being deleted.

The agent compares its uptime with the age of the SelfNodeRemediation, and reads
the two one after the other. A node that was up for less time before the
creation than this takes counts as rebooted (`Brief` excludes it).
-/

namespace SelfNodeRemediation

open Interaction Versioned

/-! ## 1. The world of the agent -/

structure AgentWorld where
  cluster : Cluster
  /-- When the agent's last reconcile was started. -/
  since : Time
  /-- No change was stored since then. -/
  sees : Bool
  /-- There is a change, stored before the assumed reboot time had come, and no
  reconcile of the agent was started after it and has ended. -/
  unseen : Bool

/-- The stored assumed reboot time has come. -/
def Cluster.passed (w : Cluster) : Bool :=
  w.snr.current.status.timeAssumedRebooted.any fun t => t ≤ w.now

/-- The world when the cluster changes. -/
def AgentWorld.after (w : AgentWorld) (cluster : Cluster) : AgentWorld :=
  { w with
    cluster := cluster
    sees := w.sees && cluster.snr = w.cluster.snr
    unseen := w.unseen || (cluster.snr ≠ w.cluster.snr && !w.cluster.passed) }

theorem after_of_snr_eq {w : AgentWorld} {cluster : Cluster} (h : cluster.snr = w.cluster.snr) :
    w.after cluster = { w with cluster := cluster } := by
  unfold AgentWorld.after
  simp [h]

/-- The node has booted since the SelfNodeRemediation was created. -/
def Rebooted (w : Cluster) : Prop := w.snr.current.creationTimestamp ≤ w.bootTime

/-- A live object in the phase in which the agent reboots. -/
def Awaiting (w : Cluster) : Prop :=
  getPhase w.snr.current = .preRebootCompleted ∧ w.snr.current.deletionTimestamp = none ∧
    w.gone = false

/-- What `getNodeName` returns. -/
def targetName (w : Cluster) (snr : SNR) : Except GoErr String :=
  if isOwnedByNHC snr then .ok (getNodeNameDirect snr)
  else
    match isOwnedByMachine snr with
    | none => .ok (getNodeNameDirect snr)
    | some ref =>
      match w.machines snr.namespace_ ref.name with
      | none => .error (notFound machineKind ref.name)
      | some machine =>
        match machine.nodeRef with
        | none => .error (.new "nodeRef is nil")
        | some name => .ok name

/-- The agent runs on the target node, whose uptime fits into a duration. -/
structure OnTarget (agent : Reconciler) (w : Cluster) : Prop where
  target : targetName w w.snr.current = .ok agent.myNodeName
  node : (w.nodes agent.myNodeName).isSome = true
  created : w.snr.current.creationTimestamp ≤ w.now
  booted : w.bootTime ≤ w.now
  uptime : w.now - w.bootTime ≤ 2 ^ 63 - 1000000000

/-- The agent's reconcile has not taken longer so far than the node had been up
when the SelfNodeRemediation was created. -/
def Brief (w : AgentWorld) : Prop :=
  Rebooted w.cluster ∨
    w.cluster.now - w.since ≤ w.cluster.snr.current.creationTimestamp - w.cluster.bootTime

/-! ## 2. Uptime and age -/

/-- A difference that is cut to the range of a duration. -/
theorem toInt_sub_le {t u : Int} (h : -2 ^ 63 < (Time.sub t u).toInt) :
    (Time.sub t u).toInt ≤ t - u := by
  unfold Time.sub at h ⊢
  by_cases hmax : 2 ^ 63 - 1 < t - u
  · rw [if_pos hmax]
    exact Int.le_of_lt hmax
  · rw [if_neg hmax] at h ⊢
    by_cases hmin : t - u < -2 ^ 63
    · rw [if_pos hmin] at h
      exact absurd h (by decide)
    · rw [if_neg hmin, Int64.toInt_ofInt]
      have hrange : (t - u).bmod (2 ^ 64) = t - u := by
        apply Int.bmod_eq_of_le <;> omega
      exact Int.le_of_eq hrange

/-- The uptime in begun seconds is no less than the uptime. -/
theorem le_toInt_uptime {now bootTime : Int} (hb : bootTime ≤ now)
    (hup : now - bootTime ≤ 2 ^ 63 - 1000000000) :
    now - bootTime ≤ (uptimeSeconds now bootTime * second).toInt := by
  have hseconds : (uptimeSeconds now bootTime * second).toInt =
      (-((bootTime - now) / 1000000000) * 1000000000).bmod (2 ^ 64) := by
    unfold uptimeSeconds
    rw [Int64.toInt_mul, Int64.toInt_ofInt]
    exact Int.bmod_mul_bmod
  have hrange : (-((bootTime - now) / 1000000000) * 1000000000).bmod (2 ^ 64) =
      -((bootTime - now) / 1000000000) * 1000000000 := by
    apply Int.bmod_eq_of_le <;> omega
  rw [hseconds, hrange]
  omega

/-- The uptime, read at `since` or later, is not less than the age, if the node
was up for longer before the creation than the two readings take. -/
theorem not_uptime_lt {now since bootTime creation : Int} {uptime : Duration}
    (hup : since - bootTime ≤ uptime.toInt) (hbrief : now - since ≤ creation - bootTime) :
    ¬ uptime < Time.sub now creation := by
  intro h
  have hlt := Int64.lt_iff_toInt_lt.mp h
  have hmin := Int64.le_toInt uptime
  have hsub := toInt_sub_le (t := now) (u := creation) (by omega)
  omega

/-! ## 3. The outline of a reconcile -/

/-- What the others do during a reconcile of the agent. -/
structure Disturbs (w w' : AgentWorld) : Prop where
  since : w'.since = w.since
  machines : w'.cluster.machines = w.cluster.machines
  gone : w.cluster.gone = true → w'.cluster.gone = true
  bootTime : w.cluster.bootTime ≤ w'.cluster.bootTime
  creation : w'.cluster.snr.current.creationTimestamp = w.cluster.snr.current.creationTimestamp
  sees : w'.sees = true → w.sees = true ∧ w'.cluster.snr = w.cluster.snr

structure AgentInv (agent : Reconciler) (w : AgentWorld) : Prop where
  onTarget : OnTarget agent w.cluster
  since : w.since ≤ w.cluster.now
  brief : Brief w

theorem Rebooted.disturbs {w w' : AgentWorld} (h : Rebooted w.cluster) (hd : Disturbs w w') :
    Rebooted w'.cluster := by
  unfold Rebooted at h ⊢
  rw [hd.creation]
  exact Int.le_trans h hd.bootTime

theorem targetName_congr {w w' : Cluster} {snr : SNR} (h : w'.machines = w.machines) :
    targetName w' snr = targetName w snr := by
  unfold targetName
  rw [h]

theorem targetName_direct {w : Cluster} {snr : SNR}
    (h : isOwnedByNHC snr = true ∨ isOwnedByMachine snr = none) :
    targetName w snr = .ok (getNodeNameDirect snr) := by
  unfold targetName
  split
  · rfl
  · next hnhc => rw [h.resolve_left hnhc]

theorem targetName_machine {w : Cluster} {snr : SNR} {ref : OwnerReference} {name : String}
    (hnhc : isOwnedByNHC snr = false) (href : isOwnedByMachine snr = some ref) :
    targetName w snr = .ok name ↔
      ∃ machine, w.machines snr.namespace_ ref.name = some machine ∧
        machine.nodeRef = some name := by
  unfold targetName
  rw [if_neg (Bool.eq_false_iff.mp hnhc), href]
  dsimp only
  rcases w.machines snr.namespace_ ref.name with _ | ⟨_ | nodeName⟩
  · simp
  · simp
  · simp

theorem onTarget_reboot {agent : Reconciler} {w : Cluster} (h : OnTarget agent w) :
    OnTarget agent { w with bootTime := w.now } where
  target := h.target
  node := h.node
  created := h.created
  booted := Int.le_refl _
  uptime := by
    show w.now - w.now ≤ _
    rw [Int.sub_self]
    decide

/-- The calls of the agent. -/
def Call.isAgents (c : Call) : Prop := c.isRead = true ∨ c = .reboot

theorem agentInv_call {agent : Reconciler} {c : Call} {w : AgentWorld} (h : AgentInv agent w)
    (hc : c.isAgents) : AgentInv agent (w.after (serve c w.cluster).2) := by
  rcases hc with hc | rfl
  · rw [serve_read hc, after_of_snr_eq rfl]
    exact h
  · have hsnr : (serve .reboot w.cluster).2.snr = w.cluster.snr := rfl
    rw [after_of_snr_eq hsnr]
    exact ⟨onTarget_reboot h.onTarget, h.since, .inl h.onTarget.created⟩

def agentOutline (agent : Reconciler) : Outline Call Resp AgentWorld where
  exec c w r w' := r = (serve c w.cluster).1 ∧ w' = w.after (serve c w.cluster).2
  env w w' := Disturbs w w' ∧ AgentInv agent w'
  inv := AgentInv agent
  allowed c _ := c.isAgents
  inv_env _ he := he.2
  inv_exec hi ha he := he.2 ▸ agentInv_call hi ha

/-! ## 4. A reconcile of the agent -/

section Agent

variable {agent : Reconciler} {α β : Type} {m : Mem} {w : AgentWorld} {snr : SNR}
  {P : AgentWorld → Prop}

/-- The agent's copy is current, unless a change has overtaken it. -/
def Sees (snr : SNR) (w : AgentWorld) : Prop := w.sees = true → w.cluster.snr.current = snr

theorem stable_sees (snr : SNR) : (agentOutline agent).Stable (Sees snr) := by
  intro w w' h hd hsees
  obtain ⟨hsees, hsnr⟩ := hd.1.sees hsees
  rw [hsnr]
  exact h hsees

/-- The session has left the memory alone, and its end is as `ok` says unless a
change has overtaken it. -/
def Answers (m : Mem) (ok : Except GoErr α → Prop) (r : Except GoErr α × Mem)
    (w : AgentWorld) : Prop :=
  r.2 = m ∧ Sees m.snr.value w ∧ (w.sees = true → ok r.1)

theorem stable_answers (ok : Except GoErr α → Prop) (r : Except GoErr α × Mem) :
    (agentOutline agent).Stable (Answers m ok r) := by
  refine Outline.stable_const.and ((stable_sees _).and ?_)
  exact fun w w' h hd hsees => h (hd.1.sees hsees).1

/-- What a reconcile that is not overtaken leaves. -/
def Settled (w : AgentWorld) : Prop := w.sees = true → Awaiting w.cluster → Rebooted w.cluster

theorem stable_settled : (agentOutline agent).Stable Settled := by
  intro w w' h hd hsees hawait
  obtain ⟨hsees, hsnr⟩ := hd.1.sees hsees
  refine (h hsees ?_).disturbs hd.1
  unfold Awaiting at hawait ⊢
  rw [hsnr] at hawait
  refine ⟨hawait.1, hawait.2.1, ?_⟩
  cases hgone : w.cluster.gone with
  | false => rfl
  | true => exact (hd.1.gone hgone).symm.trans hawait.2.2

theorem wp_settled {r : Except GoErr α} (h : Settled w) :
    (agentOutline agent).wp (Prog.ret (r, m)) (fun _ => Settled) w :=
  Session.wp_ret stable_settled h

theorem agent_read {c : Call} {a : Resp c} {w' : AgentWorld} (hc : c.isRead = true)
    (he : (agentOutline agent).exec c w a w') : w' = w := by
  rw [he.2, serve_read hc]
  exact after_of_snr_eq rfl

theorem agent_reading (hP : (agentOutline agent).Stable P) :
    Reading (agentOutline agent) AnyError P where
  stable := hP
  values _ _ := trivial
  allowed hc _ _ := .inl (Call.isRead_of_isPlainRead (Call.isPlainRead_of_isLookup hc))
  answered hc _ hw he := by
    have hread := Call.isRead_of_isPlainRead (Call.isPlainRead_of_isLookup hc)
    exact ⟨agent_read hread he ▸ hw, fun _ _ => trivial⟩

/-- A read of the agent. -/
theorem wp_agentRead {c : Call} {f : Resp c → M β} {R : Except GoErr β × Mem → AgentWorld → Prop}
    (hc : c.isRead = true) (hP : (agentOutline agent).Stable P) (hw : P w)
    (hk : ∀ w, AgentInv agent w → P w →
      (agentOutline agent).wp (f (serve c w.cluster).1 m) R w) :
    (agentOutline agent).wp ((call c >>= f) m) R w := by
  refine Session.wp_call hP hw (fun _ _ _ => .inl hc) ?_
  rintro w r w' hi hw he -
  obtain rfl := agent_read hc he
  rw [he.1]
  exact hk w' hi hw

theorem stable_targetName (p : Except GoErr String → Prop) :
    (agentOutline agent).Stable fun w => p (targetName w.cluster snr) := by
  intro w w' h hd
  rw [targetName_congr hd.1.machines]
  exact h

/-- The name is found if there is one. -/
theorem wp_getNodeName_targetName (hP : (agentOutline agent).Stable P) (hw : P w) :
    (agentOutline agent).wp (getNodeName m)
      (Leaves (fun name w => targetName w.cluster m.snr.value = .ok name ∧ P w)
        (fun _ w => (∀ name, targetName w.cluster m.snr.value ≠ .ok name) ∧ P w) m) w := by
  refine wp_getNodeName_leaves (fun _ => (stable_targetName fun r => ∀ name, r ≠ .ok name).and hP)
    (agent_reading hP) (fun name => (stable_targetName (· = .ok name)).and hP) hw
    (fun hdirect => ⟨targetName_direct hdirect, hw⟩) ?_
  intro ref hnhc href answer w w' _ hw he
  obtain rfl := agent_read rfl he
  have hstored := getAnswer_found machineKind ref.name
    (w'.cluster.machines m.snr.value.namespace_ ref.name)
  obtain ⟨rfl, -⟩ := he
  refine ⟨fun machine name hanswer hname => ⟨?_, hw⟩,
    fun machine e hanswer hname _ => ⟨fun name hok => ?_, hw⟩,
    fun e hanswer => ⟨fun name hok => ?_, hw⟩⟩
  · exact (targetName_machine hnhc href).mpr ⟨machine, hstored.1 machine hanswer, hname⟩
  · obtain ⟨_, hmachine, hname'⟩ := (targetName_machine hnhc href).mp hok
    cases (hstored.1 machine hanswer).symm.trans hmachine
    cases hname.symm.trans hname'
  · obtain ⟨machine, hmachine, -⟩ := (targetName_machine hnhc href).mp hok
    cases hanswer.symm.trans (congrArg (found machineKind ref.name) hmachine)

theorem wp_getNodeName_agent (hw : Sees m.snr.value w) :
    (agentOutline agent).wp (getNodeName m) (Answers m (· = .ok agent.myNodeName)) w := by
  refine Outline.wp_mono (wp_getNodeName_targetName (stable_sees _) hw) ?_
  rintro ⟨res, s⟩ w hi ⟨(rfl : s = m), hok, herror⟩
  cases res with
  | ok name =>
    obtain ⟨hname, hw⟩ := hok name rfl
    refine ⟨rfl, hw, fun hsees => ?_⟩
    rw [← hw hsees, hi.onTarget.target] at hname
    exact hname.symm
  | error e =>
    obtain ⟨hnone, hw⟩ := herror e rfl
    refine ⟨rfl, hw, fun hsees => absurd ?_ (hnone agent.myNodeName)⟩
    rw [← hw hsees]
    exact hi.onTarget.target

theorem wp_isSNRMatching (hw : Sees m.snr.value w) :
    (agentOutline agent).wp (isSNRMatching agent.myNodeName "" m) (Answers m (· = .ok true)) w := by
  unfold isSNRMatching
  refine wp_theSNR ?_
  split
  · exact Session.wp_pure (stable_answers _ _) ⟨rfl, hw, fun _ => rfl⟩
  · refine Session.wp_bind (wp_getNodeName_agent hw) ?_ ?_
    · rintro name s w - ⟨(rfl : s = m), hw, hname⟩
      refine Session.wp_pure (stable_answers _ _) ⟨rfl, hw, fun hsees => ?_⟩
      obtain rfl := Except.ok.inj (hname hsees)
      exact congrArg Except.ok (beq_self_eq_true _)
    · rintro e s w - ⟨(rfl : s = m), hw, hname⟩
      refine Session.wp_ret (stable_answers _ _) ⟨rfl, hw, fun hsees => ?_⟩
      cases hname hsees

theorem wp_getNodeFromSnr (hw : Sees m.snr.value w) :
    (agentOutline agent).wp (getNodeFromSnr m) (Answers m (·.toOption.isSome = true)) w := by
  refine Session.wp_bind (wp_getNodeName_agent hw) ?_ ?_
  · rintro name s w - hname
    refine wp_agentRead rfl (stable_answers _ (.ok name, s)) hname ?_
    rintro w hi ⟨(rfl : s = m), hw, hname⟩
    refine Session.wp_ret (stable_answers _ _) ⟨rfl, hw, fun hsees => ?_⟩
    obtain rfl := Except.ok.inj (hname hsees)
    obtain ⟨node, hnode⟩ := Option.isSome_iff_exists.mp hi.onTarget.node
    simp only [serve, hnode]
    rfl
  · rintro e s w - ⟨(rfl : s = m), hw, hname⟩
    refine Session.wp_ret (stable_answers _ _) ⟨rfl, hw, fun hsees => ?_⟩
    cases hname hsees

/-- The uptime was read during the reconcile. -/
def Measured (uptime : Duration) (w : AgentWorld) : Prop :=
  w.since - w.cluster.bootTime ≤ uptime.toInt

theorem stable_measured (uptime : Duration) :
    (agentOutline agent).Stable (Measured uptime) := by
  intro w w' h hd
  unfold Measured
  rw [hd.1.since]
  exact Int.le_trans (Int.sub_le_sub_left hd.1.bootTime _) h

theorem wp_getLinuxUptime (hP : (agentOutline agent).Stable P) (hw : P w) :
    (agentOutline agent).wp (getLinuxUptime m)
      (fun r w => ∃ uptime, r = (.ok uptime, m) ∧ Measured uptime w ∧ P w) w := by
  refine wp_agentRead rfl hP hw fun w hi hw => Session.wp_ofExcept_ok ?_
  have hup : Measured (uptimeSeconds w.cluster.now w.cluster.bootTime * second) w :=
    Int.le_trans (Int.sub_le_sub_right hi.since _)
      (le_toInt_uptime hi.onTarget.booted hi.onTarget.uptime)
  refine Outline.wp_ret ((stable_measured _).and hP) ⟨hup, hw⟩ ?_
  exact fun w _ h => ⟨_, rfl, h⟩

/-- The node has booted since the creation, if the answer is that it has. -/
def Judged (m : Mem) (r : Except GoErr Bool × Mem) (w : AgentWorld) : Prop :=
  r.2 = m ∧ ∃ rebooted, r.1 = .ok rebooted ∧
    (rebooted = true → w.sees = true → Rebooted w.cluster)

theorem stable_judged (r : Except GoErr Bool × Mem) :
    (agentOutline agent).Stable (Judged m r) := by
  refine Outline.stable_const.and ?_
  rintro w w' ⟨rebooted, hr, h⟩ hd
  exact ⟨rebooted, hr, fun hreb hsees => (h hreb (hd.1.sees hsees).1).disturbs hd.1⟩

theorem wp_didIRebootMyself (hP : (agentOutline agent).Stable P) (hw : P w)
    (hsnr : ∀ w, P w → Sees m.snr.value w) :
    (agentOutline agent).wp (didIRebootMyself m) (fun r w => Judged m r w ∧ P w) w := by
  refine Session.wp_bind (wp_getLinuxUptime hP hw) ?_ ?_
  · rintro uptime s w - ⟨_, heq, hw⟩
    cases heq
    refine wp_theSNR (wp_agentRead rfl ((stable_measured uptime).and hP) hw ?_)
    rintro w hi ⟨hup, hw⟩
    refine Session.wp_pure ((stable_judged _).and hP) ⟨⟨rfl, _, rfl, fun hlt hsees => ?_⟩, hw⟩
    refine hi.brief.resolve_right fun hbrief => ?_
    rw [hsnr w hw hsees] at hbrief
    exact not_uptime_lt hup hbrief (of_decide_eq_true hlt)
  · rintro e s w - ⟨_, heq, -⟩
    cases heq

theorem wp_rebootIfNeeded {node : Option Node} (hw : Sees m.snr.value w)
    (hnode : w.sees = true → node.isSome = true) :
    (agentOutline agent).wp (rebootIfNeeded node m) (fun _ => Settled) w := by
  have hP : (agentOutline agent).Stable fun w => Sees m.snr.value w ∧
      (w.sees = true → node.isSome = true) :=
    (stable_sees _).and fun w w' h hd hsees => h (hd.1.sees hsees).1
  refine Session.wp_bind (wp_didIRebootMyself hP ⟨hw, hnode⟩ fun w h => h.1) ?_ ?_
  · rintro b s w - ⟨⟨(rfl : s = m), _, heq, hb⟩, -, hnode⟩
    cases heq
    cases b with
    | true => exact wp_settled fun hsees _ => hb rfl hsees
    | false =>
      cases node with
      | none => exact wp_settled fun hsees => nomatch hnode hsees
      | some node =>
        refine Session.wp_call Outline.stable_const trivial (fun _ _ _ => .inr rfl) ?_
        rintro w r w' hi - ⟨rfl, rfl⟩ -
        have hsnr : (serve .reboot w.cluster).2.snr = w.cluster.snr := rfl
        rw [after_of_snr_eq hsnr]
        exact wp_settled fun _ _ => hi.onTarget.created
  · rintro e s w - ⟨⟨-, _, heq, -⟩, -⟩
    cases heq

theorem wp_agentSteps (hw : Sees m.snr.value w) :
    (agentOutline agent).wp (agentSteps agent m) (fun _ => Settled) w := by
  unfold agentSteps
  refine wp_theSNR ?_
  split
  · next hdeleted =>
    refine wp_settled fun hsees hawait => ?_
    rw [← hw hsees, hawait.2.1] at hdeleted
    cases hdeleted
  · refine Session.wp_bind (wp_isSNRMatching hw) ?_ ?_
    · rintro b s w - ⟨(rfl : s = m), hw, hb⟩
      cases b with
      | false =>
        refine wp_settled fun hsees => ?_
        cases hb hsees
      | true =>
        rw [if_pos rfl]
        cases hphase : getPhase s.snr.value with
        | preRebootCompleted =>
          refine Session.wp_attempt (wp_getNodeFromSnr hw) ?_
          rintro node s' w - ⟨(rfl : s' = s), hw, hnode⟩
          exact wp_rebootIfNeeded hw hnode
        | _ =>
          refine wp_settled fun hsees hawait => ?_
          rw [← hw hsees, hawait.1] at hphase
          cases hphase
    · rintro e s w - ⟨-, -, hb⟩
      refine wp_settled fun hsees => ?_
      cases hb hsees

/-- A reconcile of the agent that no change overtakes leaves a rebooted node, if
the object is live and in the phase Pre-Reboot-Completed. -/
theorem agent_reboots (w : AgentWorld) :
    (agentOutline agent).wp (reconcileAgent agent) (fun _ => Settled) w := by
  refine Outline.wp_call Outline.stable_const trivial (fun _ _ _ => .inl rfl) ?_
  rintro w r w' - - ⟨rfl, rfl⟩ -
  rw [serve_read (c := .getSNR) rfl, after_of_snr_eq rfl]
  cases hgone : w.cluster.gone with
  | true =>
    have hsettled : Settled w := fun _ hawait => nomatch hgone.symm.trans hawait.2.2
    simp only [serve, hgone, if_true]
    exact Outline.wp_ret stable_settled hsettled fun _ _ h => h
  | false =>
    simp only [serve, hgone]
    refine Outline.wp_bind (Outline.wp_mono (wp_agentSteps fun _ => rfl) ?_)
    rintro ⟨ret, m⟩ w - h
    exact Outline.wp_ret stable_settled h fun _ _ h => h

end Agent

end SelfNodeRemediation
