import SelfNodeRemediation.Agent

/-!
# Fencing across manager and agent

The manager cleans up the node's resources when the assumed reboot time has
come; that the node has rebooted by then is the agent's doing. `System` has both
reconcilers: each runs call by call, and in between time passes and the
SelfNodeRemediation may be deleted. The runs considered are those where the
agent keeps up with the stored changes (`Prompt`).

* `fencing_safe`: cleanup finds a rebooted node in every run where a deletion
  comes before the finalizer or after the reboot, and the agent is not slower
  than the node's uptime allows (`SafeMove`).
* `deleted_not_fenced`: the agent ignores an object that is being deleted, while
  the manager goes on with it, and cleans up a node that was never rebooted.
-/

namespace SelfNodeRemediation

open Interaction Versioned

/-! ## 1. The system -/

/-- The world, and the rest of the agent's reconcile, if one is under way. -/
structure System where
  world : AgentWorld
  agent : Option (Prog Call Resp (Except GoErr Result))

/-- The agent has reconciled after every change that was stored before the
assumed reboot time, by the time it comes. -/
def Prompt (w : AgentWorld) : Prop := w.cluster.passed = true → w.unseen = false

instance (w : AgentWorld) : Decidable (Prompt w) := inferInstanceAs (Decidable (_ → _))

/-- Someone deletes the object: the deletion timestamp is set, and the object is
removed if there are no finalizers. -/
def Cluster.delete (w : Cluster) : Cluster :=
  if w.gone || w.snr.current.deletionTimestamp.isSome then w
  else w.store { w.snr.current with deletionTimestamp := some (Time.truncate w.now) }

/-- The moves besides the calls of the manager. -/
inductive Move
  | tick (t : Time)
  | delete
  | agentStart
  | agentCall
  | agentEnd

def AgentWorld.tick (w : AgentWorld) (t : Time) : AgentWorld :=
  { w with cluster := { w.cluster with now := t } }

/-- The calls of the agent are answered: it is alive and connected, and the
reboot takes place at once. -/
def System.move (agent : Reconciler) : Move → System → Option System
  | .tick t, s => if s.world.cluster.now ≤ t then some { s with world := s.world.tick t } else none
  | .delete, s => some { s with world := s.world.after s.world.cluster.delete }
  | .agentStart, s =>
    match s.agent with
    | none =>
      some ⟨{ s.world with since := s.world.cluster.now, sees := true },
        some (reconcileAgent agent)⟩
    | some _ => none
  | .agentCall, s =>
    match s.agent with
    | some (.call c k) =>
      some ⟨s.world.after (serve c s.world.cluster).2, some (k (serve c s.world.cluster).1)⟩
    | _ => none
  | .agentEnd, s =>
    match s.agent with
    | some (.ret _) => some ⟨{ s.world with unseen := s.world.unseen && !s.world.sees }, none⟩
    | _ => none

/-- A call of the manager. -/
def ManagerCall (c : Call) (s : System) (r : Resp c) (s' : System) : Prop :=
  ∃ cluster, Exec true c s.world.cluster r cluster ∧
    s' = { s with world := s.world.after cluster } ∧ Prompt s'.world

/-- The other moves, as far as `ok` lets them. -/
def OtherMove (agent : Reconciler) (ok : Move → System → Prop) (s s' : System) : Prop :=
  ∃ move, ok move s ∧ s.move agent move = some s' ∧ Prompt s'.world

/-- The runs of manager and agent on one SelfNodeRemediation. -/
def FencingRun (manager agent : Reconciler) (ok : Move → System → Prop) (s₀ : System)
    (s : State Call Resp System Reconciled) : Prop :=
  Reachable ManagerCall (OtherMove agent ok) (reconcileManager manager) s₀ s

/-- A deletion comes before the finalizer or after the reboot, the uptime fits
into a duration, and the agent's reconcile does not take longer than the node
had been up when the SelfNodeRemediation was created. -/
def SafeMove : Move → System → Prop
  | .delete, s =>
    containsFinalizer s.world.cluster.snr.current snrFinalizer = false ∨ Rebooted s.world.cluster
  | .tick t, s =>
    t - s.world.cluster.bootTime ≤ 2 ^ 63 - 1000000000 ∧
      (s.agent.isSome = true → Brief (s.world.tick t))
  | _, _ => True

/-- The start of a run: an object as it is created, and the agent idle. -/
structure FencingStart (agent : Reconciler) (s : System) : Prop where
  created : Created s.world.cluster
  deletionTimestamp : s.world.cluster.snr.current.deletionTimestamp = none
  onTarget : OnTarget agent s.world.cluster
  idle : s.agent = none

/-! ## 2. What a call of the manager does -/

/-- What nobody changes. -/
structure SameObject (old new : SNR) : Prop where
  name : new.name = old.name
  namespace_ : new.namespace_ = old.namespace_
  creationTimestamp : new.creationTimestamp = old.creationTimestamp
  annotations : new.annotations = old.annotations
  ownerReferences : new.ownerReferences = old.ownerReferences

/-- One version after another: the finalizer is added or removed, the phase
Pre-Reboot-Completed is reached, the assumed reboot time has come already, or
phase and time stay. -/
inductive Edit (w : Cluster) (new : SNR) : Prop
  | added : new.status = w.snr.current.status → w.snr.current.deletionTimestamp = none →
      containsFinalizer new snrFinalizer = true → Edit w new
  | removed : new.status = w.snr.current.status →
      w.snr.current.deletionTimestamp.isSome = true →
      containsFinalizer new snrFinalizer = false → Edit w new
  | prepared : new.finalizers = w.snr.current.finalizers →
      w.snr.current.status.timeAssumedRebooted = none → HadFinalizer w →
      getPhase new = .preRebootCompleted → Edit w new
  | passed : new.finalizers = w.snr.current.finalizers → w.passed = true → Edit w new
  | status : new.finalizers = w.snr.current.finalizers →
      getPhase new = getPhase w.snr.current →
      new.status.timeAssumedRebooted = w.snr.current.status.timeAssumedRebooted → Edit w new

/-- What a call of the manager does to the SelfNodeRemediation. -/
structure Effect (w w' : Cluster) : Prop where
  kept : w.gone = true → w'.gone = true
  gone : w'.gone = true → w.gone = true ∨ w.snr.current.deletionTimestamp.isSome = true
  snr : w'.snr = w.snr ∨
    ∃ new, w.gone = false ∧ w'.snr = w.snr.put new ∧ SameObject w.snr.current new ∧
      new.deletionTimestamp = w.snr.current.deletionTimestamp ∧ Edit w new

theorem passed_iff {w : Cluster} : w.passed = true ↔
    ∃ t, w.snr.current.status.timeAssumedRebooted = some t ∧ t ≤ w.now := by
  unfold Cluster.passed
  cases w.snr.current.status.timeAssumedRebooted with
  | none => exact ⟨nofun, fun ⟨_, h, _⟩ => nomatch h⟩
  | some t =>
    refine ⟨fun h => ⟨t, rfl, of_decide_eq_true h⟩, ?_⟩
    rintro ⟨_, ht, h⟩
    cases ht
    exact decide_eq_true h

theorem Advance.edit {w : Cluster} {phase : RemediationPhase} {t : Option Time} {new : SNR}
    (h : Advance w w.snr.current phase t) (hs : Stored w w.snr.current)
    (hf : new.finalizers = w.snr.current.finalizers) (hphase : getPhase new = phase)
    (ht : new.status.timeAssumedRebooted = t.map Time.truncate) : Edit w new := by
  have htrunc := hs.truncate
  unfold Stored at hs
  cases h with
  | same => exact .status hf hphase (ht.trans htrunc)
  | prepared hstarted hfin _ =>
    rw [hstarted] at hs
    generalize hnone : w.snr.current.status.timeAssumedRebooted = t at hs
    cases hs with
    | started => exact .prepared hf hnone hfin hphase
  | rebooted _ htime hnow => exact .passed hf (passed_iff.mpr ⟨_, htime, hnow⟩)
  | fenced hreboot htime =>
    rw [hreboot, htime] at hs
    cases hs with
    | reboot _ hnow => exact .passed hf (passed_iff.mpr ⟨_, htime, hnow⟩)

/-- An `Update` that goes through. -/
theorem FinalizerEdit.edit {w : Cluster} {sent : Revision SNR} (h : FinalizerEdit w sent)
    (hv : sent.resourceVersion = w.snr.resourceVersion) :
    SameObject w.snr.current (updated w.snr.current sent.value) ∧
      Edit w (updated w.snr.current sent.value) := by
  rcases h.stores hv with ⟨hlive, hnew⟩ | ⟨hdeleted, hnew⟩
  · refine ⟨?_, .added rfl hlive ?_⟩
    · rw [hnew, addFinalizerTo_eq]
      exact ⟨rfl, rfl, rfl, rfl, rfl⟩
    · rw [hnew]
      exact contains_addFinalizerTo w.snr.current snrFinalizer
  · refine ⟨?_, .removed rfl hdeleted ?_⟩
    · rw [hnew]
      exact ⟨rfl, rfl, rfl, rfl, rfl⟩
    · rw [hnew]
      exact contains_removeFinalizerFrom w.snr.current snrFinalizer

theorem Effect.frame {w w' : Cluster} (hsnr : w'.snr = w.snr) (hgone : w'.gone = w.gone) :
    Effect w w' :=
  ⟨fun h => hgone.trans h, fun h => .inl (hgone.symm.trans h), .inl hsnr⟩

/-- A write of a status that goes through. -/
theorem effect_storeStatus {w : Cluster} {status : Status} (hgone : w.gone = false)
    (he : Edit w { w.snr.current with status := status }) : Effect w (w.storeStatus status) := by
  refine ⟨id, .inl, ?_⟩
  rcases Store.putIfChanged_cases w.snr { w.snr.current with status := status } with hput | hput
  · exact .inl hput
  · exact .inr ⟨_, hgone, hput, ⟨rfl, rfl, rfl, rfl, rfl⟩, rfl, he⟩

/-- An `Update` that goes through. -/
theorem effect_store {w : Cluster} {snr : SNR} (hgone : w.gone = false)
    (hsame : SameObject w.snr.current snr)
    (hdel : snr.deletionTimestamp = w.snr.current.deletionTimestamp) (he : Edit w snr) :
    Effect w (w.store snr) := by
  refine ⟨fun h => absurd (hgone.symm.trans h) nofun, fun h => ?_, ?_⟩
  · rcases Bool.or_eq_true_iff.mp h with h | h
    · exact .inl h
    · exact .inr (hdel ▸ (Bool.and_eq_true_iff.mp h).1)
  · exact (Store.putIfChanged_cases w.snr snr).imp id fun hput =>
      ⟨snr, hgone, hput, hsame, hdel, he⟩

theorem effect_call {c : Call} {w w' : Cluster} {r : Resp c} (hi : PhaseInv w)
    (ha : PhaseAllowed c w) (he : Exec true c w r w') : Effect w w' := by
  rcases he.change with rfl | hchange
  · exact .frame rfl rfl
  · cases hchange with
    | updateSNRStatus hgone hv =>
      obtain ⟨snr, hsnr, hadvance⟩ := ha
      rw [hv] at hsnr
      obtain rfl := Store.current_of_version hsnr
      exact effect_storeStatus hgone
        (hadvance.edit hi.stored.current rfl (getPhase_congr rfl) rfl)
    | updateSNR hgone hv =>
      obtain ⟨hsame, hedit⟩ := FinalizerEdit.edit ha hv
      exact effect_store hgone hsame rfl hedit
    | patchSNRStatus hgone =>
      have hsame : SamePhase w.snr.current.status _ := samePhase_merged ha
      exact effect_storeStatus hgone (.status rfl (getPhase_congr hsame.1) hsame.2)
    | patchNode | logTimeAssumedRebooted | deleteAllOf | reboot => exact .frame rfl rfl

/-- What a call of the manager leaves of the rest. -/
structure Surroundings (w w' : Cluster) : Prop where
  now : w'.now = w.now
  machines : w'.machines = w.machines
  bootTime : w'.bootTime = w.bootTime ∨ w'.bootTime = w.now
  nodes : ∀ name, (w.nodes name).isSome = true → (w'.nodes name).isSome = true

theorem Surroundings.refl (w : Cluster) : Surroundings w w := ⟨rfl, rfl, .inl rfl, fun _ h => h⟩

theorem surroundings_setNode (w : Cluster) (name : String) (node : Node) :
    Surroundings w (w.setNode name node) := by
  refine ⟨rfl, rfl, .inl rfl, fun name' h => ?_⟩
  show (Function.update w.nodes name (some node) name').isSome = true
  rcases eq_or_ne name' name with rfl | hne
  · rw [Function.update_self]
    rfl
  · rw [Function.update_of_ne hne]
    exact h

theorem surroundings_call {c : Call} {w w' : Cluster} {r : Resp c} (he : Exec true c w r w') :
    Surroundings w w' := by
  rcases he.change with rfl | hchange
  · exact .refl _
  · cases hchange with
    | patchNode _ => exact surroundings_setNode w _ _
    | reboot => exact ⟨rfl, rfl, .inr rfl, fun _ h => h⟩
    | _ => exact ⟨rfl, rfl, .inl rfl, fun _ h => h⟩

/-! ## 3. The invariant -/

theorem sameObject_refl (snr : SNR) : SameObject snr snr := ⟨rfl, rfl, rfl, rfl, rfl⟩

theorem targetName_sameObject {w : Cluster} {old new : SNR} (h : SameObject old new) :
    targetName w new = targetName w old := by
  unfold targetName isOwnedByNHC isOwnedByMachine getNodeNameDirect
  rw [h.name, h.namespace_, h.annotations, h.ownerReferences]

theorem Rebooted.surroundings {w w' : Cluster} (h : Rebooted w)
    (hs : SameObject w.snr.current w'.snr.current)
    (hc : w.snr.current.creationTimestamp ≤ w.now) (hsur : Surroundings w w') : Rebooted w' := by
  unfold Rebooted at h ⊢
  rw [hs.creationTimestamp]
  rcases hsur.bootTime with hb | hb
  · rw [hb]
    exact h
  · rw [hb]
    exact hc

theorem OnTarget.surroundings {agent : Reconciler} {w w' : Cluster} (h : OnTarget agent w)
    (hs : SameObject w.snr.current w'.snr.current) (hsur : Surroundings w w') :
    OnTarget agent w' where
  target := by
    rw [targetName_sameObject hs, targetName_congr hsur.machines]
    exact h.target
  node := hsur.nodes _ h.node
  created := by
    rw [hs.creationTimestamp, hsur.now]
    exact h.created
  booted := by
    rw [hsur.now]
    rcases hsur.bootTime with hb | hb
    · rw [hb]
      exact h.booted
    · exact Int.le_of_eq hb
  uptime := by
    rw [hsur.now]
    rcases hsur.bootTime with hb | hb
    · rw [hb]
      exact h.uptime
    · rw [hb, Int.sub_self]
      decide

/-- An assumed reboot time is stored only after the finalizer was, and then the
node has rebooted or the agent still has to see it. What is deleted had the node
rebooted before, or never had the finalizer; who had it keeps it until then. -/
structure FencingInv (agent : Reconciler) (w : AgentWorld) : Prop where
  prompt : Prompt w
  onTarget : OnTarget agent w.cluster
  prepared : ∀ t, w.cluster.snr.current.status.timeAssumedRebooted = some t →
    HadFinalizer w.cluster ∧
      (Rebooted w.cluster ∨ (w.unseen = true ∧ Awaiting w.cluster))
  deleted : w.cluster.snr.current.deletionTimestamp.isSome = true →
    Rebooted w.cluster ∨ ¬ HadFinalizer w.cluster
  finalizer : HadFinalizer w.cluster →
    containsFinalizer w.cluster.snr.current snrFinalizer = true ∨
      w.cluster.snr.current.deletionTimestamp.isSome = true

/-- When the assumed reboot time has come, the node has rebooted. -/
theorem FencingInv.rebooted {agent : Reconciler} {w : AgentWorld} (h : FencingInv agent w)
    (hp : w.cluster.passed = true) : Rebooted w.cluster := by
  obtain ⟨t, ht, -⟩ := passed_iff.mp hp
  rcases (h.prepared t ht).2 with hreb | ⟨hunseen, -⟩
  · exact hreb
  · exact absurd (hunseen.symm.trans (h.prompt hp)) nofun

theorem hadFinalizer_put {w w' : Cluster} {new : SNR} (h : w'.snr = w.snr.put new) :
    HadFinalizer w' ↔ HadFinalizer w ∨ containsFinalizer new snrFinalizer = true := by
  unfold HadFinalizer
  rw [h]
  constructor
  · rintro ⟨n, snr, hv, hf⟩
    rcases Store.version_put hv with ⟨_, hv⟩ | ⟨_, rfl⟩
    · exact .inl ⟨n, snr, hv, hf⟩
    · exact .inr hf
  · rintro (⟨n, snr, hv, hf⟩ | hf)
    · exact ⟨n, snr, Store.extends_put _ _ n snr hv, hf⟩
    · exact ⟨_, new, Store.version_resourceVersion, hf⟩

theorem hadFinalizer_current {w : Cluster}
    (h : containsFinalizer w.snr.current snrFinalizer = true) : HadFinalizer w :=
  ⟨_, _, Store.version_resourceVersion, h⟩

/-- A live object is not removed. -/
theorem gone_false {w w' : Cluster} (h : w'.gone = true → w.gone = true ∨
      w.snr.current.deletionTimestamp.isSome = true) (hgone : w.gone = false)
    (hlive : w.snr.current.deletionTimestamp = none) : w'.gone = false := by
  refine Bool.eq_false_iff.mpr fun hg => ?_
  rw [hgone, hlive] at h
  rcases h hg with hg | hg <;> cases hg

/-- A new version. Its assumed reboot time comes after the finalizer, and with a
rebooted node or with the phase in which the agent reboots; a finalizer is added
to a live object only, and removed only from one that is being deleted. -/
theorem fencingInv_put {agent : Reconciler} {w : AgentWorld} {cluster : Cluster} {new : SNR}
    (h : FencingInv agent w) (hp : Prompt (w.after cluster))
    (hsur : Surroundings w.cluster cluster) (hput : cluster.snr = w.cluster.snr.put new)
    (hsame : SameObject w.cluster.snr.current new)
    (htime : ∀ t, new.status.timeAssumedRebooted = some t → HadFinalizer w.cluster ∧
      (Rebooted w.cluster ∨ ((w.after cluster).unseen = true ∧ Awaiting cluster)))
    (hdel : new.deletionTimestamp.isSome = true →
      Rebooted w.cluster ∨ ¬ HadFinalizer w.cluster ∧ containsFinalizer new snrFinalizer = false)
    (hfin : HadFinalizer w.cluster → containsFinalizer new snrFinalizer = true ∨
      new.deletionTimestamp.isSome = true) : FencingInv agent (w.after cluster) := by
  have hcurrent : cluster.snr.current = new := by rw [hput]; rfl
  have hobject : SameObject w.cluster.snr.current cluster.snr.current := hcurrent ▸ hsame
  have hreb : Rebooted w.cluster → Rebooted cluster := fun hr =>
    hr.surroundings hobject h.onTarget.created hsur
  have hhad := hadFinalizer_put hput
  refine ⟨hp, h.onTarget.surroundings hobject hsur, fun t ht => ?_, fun hd => ?_, fun hf => ?_⟩
  · obtain ⟨hf, hr⟩ := htime t (hcurrent ▸ ht)
    exact ⟨hhad.mpr (.inl hf), hr.imp_left hreb⟩
  · rcases hdel (hcurrent ▸ hd) with hr | ⟨hnot, hno⟩
    · exact .inl (hreb hr)
    · refine .inr fun hf => ?_
      rcases hhad.mp hf with hf | hf
      · exact hnot hf
      · exact absurd (hno.symm.trans hf) nofun
  · show containsFinalizer cluster.snr.current snrFinalizer = true ∨
      cluster.snr.current.deletionTimestamp.isSome = true
    rw [hcurrent]
    rcases hhad.mp hf with hf | hf
    · exact hfin hf
    · exact .inl hf

/-- The cluster changes, but the object does not. -/
theorem fencingInv_frame {agent : Reconciler} {w : AgentWorld} {cluster : Cluster}
    (h : FencingInv agent w) (hp : Prompt { w with cluster := cluster })
    (hon : OnTarget agent cluster) (hsnr : cluster.snr = w.cluster.snr)
    (hreb : Rebooted w.cluster → Rebooted cluster)
    (hgone : cluster.gone = true → w.cluster.gone = true ∨
      w.cluster.snr.current.deletionTimestamp.isSome = true) :
    FencingInv agent { w with cluster := cluster } := by
  have hhad : HadFinalizer cluster ↔ HadFinalizer w.cluster := by
    unfold HadFinalizer
    rw [hsnr]
  refine ⟨hp, hon, fun t ht => ?_, fun hd => ?_, fun hf => ?_⟩
  · obtain ⟨hf, hr⟩ := h.prepared t (hsnr ▸ ht)
    refine ⟨hhad.mpr hf, hr.imp hreb fun ⟨hunseen, hphase, hlive, hgone'⟩ => ⟨hunseen, ?_⟩⟩
    show getPhase cluster.snr.current = _ ∧ cluster.snr.current.deletionTimestamp = none ∧ _
    rw [hsnr]
    exact ⟨hphase, hlive, gone_false hgone hgone' hlive⟩
  · exact (h.deleted (hsnr ▸ hd)).imp hreb (mt hhad.mp)
  · have hfin := h.finalizer (hhad.mp hf)
    rw [← hsnr] at hfin
    exact hfin

theorem after_unseen {w : AgentWorld} {cluster : Cluster} (h : w.unseen = true) :
    (w.after cluster).unseen = true := by
  show (w.unseen || _) = true
  rw [h, Bool.true_or]

/-- A version that is stored before there is an assumed reboot time. -/
theorem after_unseen_put {w : AgentWorld} {cluster : Cluster} {new : SNR}
    (hput : cluster.snr = w.cluster.snr.put new)
    (ht : w.cluster.snr.current.status.timeAssumedRebooted = none) :
    (w.after cluster).unseen = true := by
  have hpassed : w.cluster.passed = false := by
    unfold Cluster.passed
    rw [ht]
    rfl
  have hne : cluster.snr ≠ w.cluster.snr := hput ▸ Store.put_ne _ _
  show (w.unseen || (decide (cluster.snr ≠ w.cluster.snr) && !w.cluster.passed)) = true
  rw [decide_eq_true hne, hpassed]
  exact Bool.or_true _

/-- The new version keeps phase and assumed reboot time. -/
theorem FencingInv.prepared_put {agent : Reconciler} {w : AgentWorld} {cluster : Cluster}
    {new : SNR} (h : FencingInv agent w) (hcurrent : cluster.snr.current = new)
    (hdel : new.deletionTimestamp = w.cluster.snr.current.deletionTimestamp)
    (hgone : cluster.gone = true → w.cluster.gone = true ∨
      w.cluster.snr.current.deletionTimestamp.isSome = true)
    (hphase : getPhase new = getPhase w.cluster.snr.current)
    (htime : new.status.timeAssumedRebooted = w.cluster.snr.current.status.timeAssumedRebooted)
    (t : Time) (ht : new.status.timeAssumedRebooted = some t) : HadFinalizer w.cluster ∧
      (Rebooted w.cluster ∨ ((w.after cluster).unseen = true ∧ Awaiting cluster)) := by
  obtain ⟨hf, hr⟩ := h.prepared t (htime.symm.trans ht)
  refine ⟨hf, hr.imp_right fun ⟨hunseen, hpre, hlive, hg⟩ => ⟨after_unseen hunseen, ?_⟩⟩
  unfold Awaiting
  rw [hcurrent, hphase, hdel]
  exact ⟨hpre, hlive, gone_false hgone hg hlive⟩

/-- An edit that leaves the finalizers leaves what is known of a deletion. -/
theorem FencingInv.deletion_put {agent : Reconciler} {w : AgentWorld} {new : SNR}
    (h : FencingInv agent w)
    (hdel : new.deletionTimestamp = w.cluster.snr.current.deletionTimestamp)
    (hf : new.finalizers = w.cluster.snr.current.finalizers) :
    (new.deletionTimestamp.isSome = true → Rebooted w.cluster ∨
      ¬ HadFinalizer w.cluster ∧ containsFinalizer new snrFinalizer = false) ∧
    (HadFinalizer w.cluster → containsFinalizer new snrFinalizer = true ∨
      new.deletionTimestamp.isSome = true) := by
  have hcontains : containsFinalizer new snrFinalizer =
      containsFinalizer w.cluster.snr.current snrFinalizer := by
    unfold containsFinalizer
    rw [hf]
  rw [hdel, hcontains]
  refine ⟨fun hd => (h.deleted hd).imp_right fun hnot => ⟨hnot, ?_⟩, h.finalizer⟩
  exact Bool.eq_false_iff.mpr fun hc => hnot (hadFinalizer_current hc)

theorem fencingInv_edit {agent : Reconciler} {w : AgentWorld} {cluster : Cluster} {new : SNR}
    (h : FencingInv agent w) (hp : Prompt (w.after cluster))
    (hsur : Surroundings w.cluster cluster)
    (hgone : cluster.gone = true → w.cluster.gone = true ∨
      w.cluster.snr.current.deletionTimestamp.isSome = true)
    (hlive : w.cluster.gone = false) (hput : cluster.snr = w.cluster.snr.put new)
    (hsame : SameObject w.cluster.snr.current new)
    (hdel : new.deletionTimestamp = w.cluster.snr.current.deletionTimestamp)
    (he : Edit w.cluster new) : FencingInv agent (w.after cluster) := by
  have hcurrent : cluster.snr.current = new := by rw [hput]; rfl
  cases he with
  | added hstatus hnone hcontains =>
    refine fencingInv_put h hp hsur hput hsame (h.prepared_put hcurrent hdel hgone
      (getPhase_congr (congrArg Status.phase hstatus)) (by rw [hstatus])) (fun hd => ?_)
      (fun _ => .inl hcontains)
    rw [hdel, hnone] at hd
    cases hd
  | removed hstatus hsome hcontains =>
    refine fencingInv_put h hp hsur hput hsame (h.prepared_put hcurrent hdel hgone
      (getPhase_congr (congrArg Status.phase hstatus)) (by rw [hstatus])) (fun _ => ?_)
      (fun _ => .inr (hdel ▸ hsome))
    exact (h.deleted hsome).imp_right fun hnot => ⟨hnot, hcontains⟩
  | prepared hf hnone hhad hphase =>
    refine fencingInv_put h hp hsur hput hsame (fun t _ => ⟨hhad, ?_⟩) (h.deletion_put hdel hf).1
      (h.deletion_put hdel hf).2
    cases hdeleted : w.cluster.snr.current.deletionTimestamp with
    | some _ =>
      have hsome : w.cluster.snr.current.deletionTimestamp.isSome = true := by
        rw [hdeleted]
        rfl
      exact .inl ((h.deleted hsome).resolve_right (not_not.mpr hhad))
    | none =>
      refine .inr ⟨after_unseen_put hput hnone, ?_⟩
      unfold Awaiting
      rw [hcurrent, hdel]
      exact ⟨hphase, hdeleted, gone_false hgone hlive hdeleted⟩
  | passed hf hpassed =>
    obtain ⟨t, ht, -⟩ := passed_iff.mp hpassed
    exact fencingInv_put h hp hsur hput hsame
      (fun _ _ => ⟨(h.prepared t ht).1, .inl (h.rebooted hpassed)⟩) (h.deletion_put hdel hf).1
      (h.deletion_put hdel hf).2
  | status hf hphase htime =>
    exact fencingInv_put h hp hsur hput hsame (h.prepared_put hcurrent hdel hgone hphase htime)
      (h.deletion_put hdel hf).1 (h.deletion_put hdel hf).2

/-- A call of the manager. -/
theorem fencingInv_call {agent : Reconciler} {w : AgentWorld} {cluster : Cluster}
    (h : FencingInv agent w) (hp : Prompt (w.after cluster)) (he : Effect w.cluster cluster)
    (hsur : Surroundings w.cluster cluster) : FencingInv agent (w.after cluster) := by
  rcases he.snr with hsnr | ⟨new, hlive, hput, hsame, hdel, hedit⟩
  · have hobject : SameObject w.cluster.snr.current cluster.snr.current := by
      rw [hsnr]
      exact sameObject_refl _
    rw [after_of_snr_eq hsnr] at hp ⊢
    exact fencingInv_frame h hp (h.onTarget.surroundings hobject hsur) hsnr
      (fun hr => hr.surroundings hobject h.onTarget.created hsur) he.gone
  · exact fencingInv_edit h hp hsur he.gone hlive hput hsame hdel hedit

/-- A deletion before the finalizer or after the reboot. -/
theorem fencingInv_delete {agent : Reconciler} {w : AgentWorld} (h : FencingInv agent w)
    (hp : Prompt (w.after w.cluster.delete))
    (hsafe : containsFinalizer w.cluster.snr.current snrFinalizer = false ∨ Rebooted w.cluster) :
    FencingInv agent (w.after w.cluster.delete) := by
  unfold Cluster.delete at hp ⊢
  split
  · rw [after_of_snr_eq rfl]
    exact h
  · next hlive =>
    rw [if_neg hlive] at hp
    rw [Bool.not_eq_true, Bool.or_eq_false_iff, Option.isSome_eq_false_iff,
      Option.isNone_iff_eq_none] at hlive
    have hhad : HadFinalizer w.cluster → Rebooted w.cluster := by
      intro hf
      rcases h.finalizer hf with hc | hd
      · exact hsafe.resolve_left fun hno => absurd (hno.symm.trans hc) nofun
      · rw [hlive.2] at hd
        cases hd
    have hput : (w.cluster.store { w.cluster.snr.current with
        deletionTimestamp := some (Time.truncate w.cluster.now) }).snr =
        w.cluster.snr.put { w.cluster.snr.current with
          deletionTimestamp := some (Time.truncate w.cluster.now) } := by
      refine if_neg fun heq => ?_
      have hd := congrArg SNR.deletionTimestamp heq
      rw [hlive.2] at hd
      cases hd
    refine fencingInv_put h hp ⟨rfl, rfl, .inl rfl, fun _ hn => hn⟩ hput
      ⟨rfl, rfl, rfl, rfl, rfl⟩ (fun t ht => ?_) (fun _ => ?_) (fun _ => .inr rfl)
    · have hf := (h.prepared t ht).1
      exact ⟨hf, .inl (hhad hf)⟩
    · by_cases hf : HadFinalizer w.cluster
      · exact .inl (hhad hf)
      · exact .inr ⟨hf, Bool.eq_false_iff.mpr fun hc => hf (hadFinalizer_current hc)⟩

theorem fencingInv_tick {agent : Reconciler} {w : AgentWorld} {t : Time} (h : FencingInv agent w)
    (hp : Prompt (w.tick t)) (ht : w.cluster.now ≤ t)
    (hup : t - w.cluster.bootTime ≤ 2 ^ 63 - 1000000000) : FencingInv agent (w.tick t) :=
  fencingInv_frame h hp ⟨h.onTarget.target, h.onTarget.node, Int.le_trans h.onTarget.created ht,
    Int.le_trans h.onTarget.booted ht, hup⟩ rfl id .inl

theorem fencingInv_agentCall {agent : Reconciler} {w : AgentWorld} {c : Call}
    (h : FencingInv agent w) (hc : c.isAgents) :
    FencingInv agent (w.after (serve c w.cluster).2) := by
  rcases hc with hc | rfl
  · rw [serve_read hc, after_of_snr_eq rfl]
    exact h
  · have hsnr : (serve .reboot w.cluster).2.snr = w.cluster.snr := rfl
    rw [after_of_snr_eq hsnr]
    exact fencingInv_frame h h.prompt (onTarget_reboot h.onTarget) rfl
      (fun _ => h.onTarget.created) .inl

/-- The end of a reconcile of the agent. -/
theorem fencingInv_agentEnd {agent : Reconciler} {w : AgentWorld} (h : FencingInv agent w)
    (hs : Settled w) : FencingInv agent { w with unseen := w.unseen && !w.sees } := by
  refine ⟨fun hp => ?_, h.onTarget, fun t ht => ?_, h.deleted, h.finalizer⟩
  · show (w.unseen && _) = false
    rw [h.prompt hp, Bool.false_and]
  · obtain ⟨hf, hr⟩ := h.prepared t ht
    refine ⟨hf, ?_⟩
    rcases hr with hr | ⟨hunseen, hawait⟩
    · exact .inl hr
    · cases hsees : w.sees with
      | true => exact .inl (hs hsees hawait)
      | false => exact .inr ⟨by rw [hunseen]; rfl, hawait⟩

/-! ## 4. Whole runs -/

/-- The invariant, and the agent's reconcile that is under way is still proved
against its outline. -/
def SystemInv (agent : Reconciler) (s : System) : Prop :=
  FencingInv agent s.world ∧ ∀ p, s.agent = some p →
    AgentInv agent s.world ∧ (agentOutline agent).wp p (fun _ => Settled) s.world

theorem disturbs_after {agent : Reconciler} {w : AgentWorld} {cluster : Cluster}
    (h : AgentInv agent w) (hsur : Surroundings w.cluster cluster)
    (hobject : SameObject w.cluster.snr.current cluster.snr.current)
    (hkept : w.cluster.gone = true → cluster.gone = true) :
    Disturbs w (w.after cluster) ∧ AgentInv agent (w.after cluster) := by
  refine ⟨⟨rfl, hsur.machines, hkept, ?_, hobject.creationTimestamp, fun hsees => ?_⟩,
    h.onTarget.surroundings hobject hsur, ?_, ?_⟩
  · rcases hsur.bootTime with hb | hb
    · exact Int.le_of_eq hb.symm
    · exact hb.symm ▸ h.onTarget.booted
  · obtain ⟨hsees, hsnr⟩ := Bool.and_eq_true_iff.mp hsees
    exact ⟨hsees, of_decide_eq_true hsnr⟩
  · exact hsur.now.symm ▸ h.since
  · show Rebooted cluster ∨
      cluster.now - w.since ≤ cluster.snr.current.creationTimestamp - cluster.bootTime
    rcases h.brief with hr | hbrief
    · exact .inl (hr.surroundings hobject h.onTarget.created hsur)
    · rw [hsur.now, hobject.creationTimestamp]
      rcases hsur.bootTime with hb | hb
      · exact .inr (hb.symm ▸ hbrief)
      · refine .inl ?_
        unfold Rebooted
        rw [hobject.creationTimestamp, hb]
        exact h.onTarget.created

/-- The world is disturbed in the middle of a reconcile of the agent, or not. -/
theorem SystemInv.disturb {agent : Reconciler} {s : System} {w : AgentWorld}
    (h : SystemInv agent s) (hw : FencingInv agent w)
    (hd : AgentInv agent s.world → s.agent.isSome = true → Disturbs s.world w ∧ AgentInv agent w) :
    SystemInv agent { s with world := w } := by
  refine ⟨hw, fun p hp => ?_⟩
  obtain ⟨hinv, hwp⟩ := h.2 p hp
  have hsome : s.agent.isSome = true := by
    rw [show s.agent = some p from hp]
    rfl
  obtain ⟨hd, hinv'⟩ := hd hinv hsome
  exact ⟨hinv', Outline.wp_later (.single ⟨hd, hinv'⟩) hwp⟩

theorem Effect.sameObject {w w' : Cluster} (h : Effect w w') :
    SameObject w.snr.current w'.snr.current := by
  rcases h.snr with hsnr | ⟨new, _, hput, hsame, _⟩
  · rw [hsnr]
    exact sameObject_refl _
  · rw [hput]
    exact hsame

theorem systemInv_managerCall {agent : Reconciler} {s s' : System} {c : Call} {r : Resp c}
    (h : SystemInv agent s) (hi : PhaseInv s.world.cluster)
    (ha : PhaseAllowed c s.world.cluster) (hc : ManagerCall c s r s') : SystemInv agent s' := by
  obtain ⟨cluster, he, rfl, hp⟩ := hc
  have heffect := effect_call hi ha he
  have hsur := surroundings_call he
  exact h.disturb (fencingInv_call h.1 hp heffect hsur) fun hinv _ =>
    disturbs_after hinv hsur heffect.sameObject heffect.kept

theorem others_refl (w : Cluster) : Others w w := ⟨Int.le_refl _, rfl, id, .inl rfl⟩

/-- What a deletion does to the rest, and that it leaves the phase alone. -/
theorem delete_frame (w : Cluster) : Surroundings w w.delete ∧
    SameObject w.snr.current w.delete.snr.current ∧ Others w w.delete := by
  unfold Cluster.delete
  split
  · exact ⟨.refl w, sameObject_refl _, others_refl w⟩
  · refine ⟨⟨rfl, rfl, .inl rfl, fun _ h => h⟩, ?_, Int.le_refl _, rfl, fun h => ?_, ?_⟩
    · show SameObject _ (Store.putIfChanged _ _).current
      rw [Store.putIfChanged_current]
      exact ⟨rfl, rfl, rfl, rfl, rfl⟩
    · show (w.gone || _) = true
      rw [h, Bool.true_or]
    · rcases Store.putIfChanged_cases w.snr { w.snr.current with
        deletionTimestamp := some (Time.truncate w.now) } with hput | hput
      · exact .inl hput
      · exact .inr ⟨_, hput, rfl, rfl⟩

theorem others_agentCall {c : Call} (hc : c.isAgents) (w : Cluster) : Others w (serve c w).2 := by
  rcases hc with hc | rfl
  · rw [serve_read hc]
    exact others_refl w
  · exact ⟨Int.le_refl _, rfl, id, .inl rfl⟩

/-- One of the other moves, if it is safe. It leaves phase and assumed reboot
time alone. -/
theorem systemInv_move {agent : Reconciler} {s s' : System} {move : Move}
    (h : SystemInv agent s) (hok : SafeMove move s) (hm : s.move agent move = some s')
    (hp : Prompt s'.world) :
    SystemInv agent s' ∧ Others s.world.cluster s'.world.cluster := by
  cases move with
  | tick t =>
    by_cases ht : s.world.cluster.now ≤ t
    · obtain rfl := Option.some.inj ((if_pos ht).symm.trans hm)
      have hw := fencingInv_tick h.1 hp ht hok.1
      refine ⟨h.disturb hw fun hinv hsome => ⟨?_, hw.onTarget, ?_, hok.2 hsome⟩,
        ht, rfl, id, .inl rfl⟩
      · exact ⟨rfl, rfl, id, Int.le_refl _, rfl, fun hsees => ⟨hsees, rfl⟩⟩
      · exact Int.le_trans hinv.since ht
    · exact nomatch (if_neg ht).symm.trans hm
  | delete =>
    obtain rfl := Option.some.inj hm
    obtain ⟨hsur, hobject, hothers⟩ := delete_frame s.world.cluster
    exact ⟨h.disturb (fencingInv_delete h.1 hp hok) fun hinv _ =>
      disturbs_after hinv hsur hobject hothers.gone, hothers⟩
  | agentStart =>
    simp only [System.move] at hm
    split at hm
    · next hidle =>
      obtain rfl := Option.some.inj hm
      have hw := h.1
      refine ⟨⟨⟨hw.prompt, hw.onTarget, hw.prepared, hw.deleted, hw.finalizer⟩, ?_⟩, others_refl _⟩
      rintro p ⟨⟩
      refine ⟨⟨hw.onTarget, Int.le_refl _, ?_⟩, agent_reboots _⟩
      show Rebooted _ ∨ s.world.cluster.now - s.world.cluster.now ≤ _
      rw [Int.sub_self]
      rcases Int.le_total s.world.cluster.snr.current.creationTimestamp
        s.world.cluster.bootTime with hle | hle
      · exact .inl hle
      · exact .inr (Int.sub_nonneg_of_le hle)
    · cases hm
  | agentCall =>
    simp only [System.move] at hm
    split at hm
    · next c k hrun =>
      obtain rfl := Option.some.inj hm
      obtain ⟨hinv, hwp⟩ := h.2 _ hrun
      obtain ⟨hc, hk⟩ := hwp _ .refl hinv
      refine ⟨⟨fencingInv_agentCall h.1 hc, ?_⟩, others_agentCall hc _⟩
      rintro p ⟨⟩
      exact ⟨agentInv_call hinv hc, hk _ _ ⟨rfl, rfl⟩⟩
    · cases hm
  | agentEnd =>
    simp only [System.move] at hm
    split at hm
    · next a hrun =>
      obtain rfl := Option.some.inj hm
      obtain ⟨hinv, hwp⟩ := h.2 _ hrun
      exact ⟨⟨fencingInv_agentEnd h.1 (hwp _ .refl hinv), nofun⟩, others_refl _⟩
    · cases hm

theorem systemInv_start {agent : Reconciler} {s : System} (h : FencingStart agent s) :
    SystemInv agent s := by
  refine ⟨⟨fun hp => ?_, h.onTarget, fun t ht => ?_, fun hd => ?_, fun hf => .inl ?_⟩,
    fun p hp => ?_⟩
  · obtain ⟨t, ht, -⟩ := passed_iff.mp hp
    exact nomatch h.created.timeAssumedRebooted.symm.trans ht
  · exact nomatch h.created.timeAssumedRebooted.symm.trans ht
  · rw [h.deletionTimestamp] at hd
    cases hd
  · obtain ⟨n, snr, hv, hf⟩ := hf
    have hn := Store.version_le hv
    unfold Store.resourceVersion at hn
    rw [h.created.versions] at hn
    obtain rfl := Nat.le_zero.mp hn
    have hzero : s.world.cluster.snr.resourceVersion = 0 := by
      unfold Store.resourceVersion
      rw [h.created.versions]
      rfl
    rw [Store.current_of_version (hzero.symm ▸ hv)]
    exact hf
  · exact nomatch h.idle.symm.trans hp

/-- In every run, the manager's part is a run of `ReconcileManager`, and the
invariant holds. -/
theorem fencingRun_inv {manager agent : Reconciler} {s₀ : System}
    {s : State Call Resp System Reconciled} (h₀ : FencingStart agent s₀)
    (h : FencingRun manager agent SafeMove s₀ s) :
    ManagerRun manager s₀.world.cluster ⟨s.world.world.cluster, s.running⟩ ∧
      SystemInv agent s.world := by
  induction h with
  | refl => exact ⟨.refl, systemInv_start h₀⟩
  | tail _ hstep ih =>
    obtain ⟨hrun, hinv⟩ := ih
    cases hstep with
    | env he =>
      obtain ⟨move, hok, hm, hp⟩ := he
      obtain ⟨hinv', hothers⟩ := systemInv_move hinv hok hm hp
      exact ⟨hrun.tail (.env hothers), hinv'⟩
    | start => exact ⟨hrun.tail .start, hinv⟩
    | call hc =>
      have hallowed := phaseOutline.reachable_allowed
        (fun w _ => reconcileManager_phases manager w) (phaseInv_created h₀.created) hrun rfl
      have hinv' := systemInv_managerCall hinv (managerRun_inv h₀.created hrun) hallowed hc
      obtain ⟨cluster, he, rfl, -⟩ := hc
      exact ⟨hrun.tail (.call he), hinv'⟩
    | finish => exact ⟨hrun.tail .finish, hinv⟩
    | crash => exact ⟨hrun.tail .crash, hinv⟩

/-! ## 5. Turns

Runs in which the manager's reconciles are not interrupted, to be evaluated. -/

inductive Turn
  | move (move : Move)
  | reconcile

/-- The manager's calls, served. -/
def serveSystem (c : Call) (s : System) : Resp c × System :=
  ((serve c s.world.cluster).1, { s with world := s.world.after (serve c s.world.cluster).2 })

section Turns

variable (manager agent : Reconciler) (ok : Move → System → Prop) [∀ move s, Decidable (ok move s)]

def System.play : List Turn → System → Option System
  | [], s => some s
  | .move move :: turns, s =>
    if ok move s then
      match s.move agent move with
      | some s' => if Prompt s'.world then s'.play turns else none
      | none => none
    else none
  | .reconcile :: turns, s =>
    if (reconcileManager manager).passes serveSystem (fun s => decide (Prompt s.world)) s then
      ((reconcileManager manager).eval serveSystem s).2.play turns
    else none

variable {manager agent ok} {s₀ s s' : System}

theorem managerCall_serve {c : Call} {s : System}
    (h : decide (Prompt (serveSystem c s).2.world) = true) :
    ManagerCall c s (serveSystem c s).1 (serveSystem c s).2 :=
  ⟨_, .served, rfl, of_decide_eq_true h⟩

theorem fencingRun_play {turns : List Turn} (h : FencingRun manager agent ok s₀ ⟨s, none⟩)
    (hplay : s.play manager agent ok turns = some s') :
    FencingRun manager agent ok s₀ ⟨s', none⟩ := by
  induction turns generalizing s with
  | nil =>
    cases hplay
    exact h
  | cons turn turns ih =>
    cases turn with
    | move move =>
      simp only [System.play] at hplay
      split at hplay
      · next hok =>
        split at hplay
        · next hm =>
          split at hplay
          · next hp => exact ih (h.tail (.env ⟨move, hok, hm, hp⟩)) hplay
          · cases hplay
        · cases hplay
      · cases hplay
    | reconcile =>
      simp only [System.play] at hplay
      split at hplay
      · next hpasses =>
        exact ih (reachable_alone _ (fun c s => managerCall_serve) hpasses h) hplay
      · cases hplay

variable (manager agent ok s₀) in
/-- The turns, and then the manager up to `DeletePods`. -/
theorem fencingRun_cleanup (turns : List Turn) (check : System → Bool)
    (h : (s₀.play manager agent ok turns).any (fun s =>
      ((reconcileManager manager).upTo serveSystem (fun s => decide (Prompt s.world))
        Call.isListNamespaces s).any fun x => check x.2) = true) :
    ∃ c k s, IsCleanup c ∧ check s = true ∧
      FencingRun manager agent ok s₀ ⟨s, some (.call c k)⟩ := by
  cases hplay : s₀.play manager agent ok turns with
  | none =>
    rw [hplay] at h
    cases h
  | some s =>
    rw [hplay] at h
    have hs : FencingRun manager agent ok s₀ ⟨s, none⟩ := fencingRun_play .refl hplay
    obtain ⟨c, k, s', hstop, hcheck, hrun⟩ := reachable_upTo _ Call.isListNamespaces
      (fun x => check x.2) (fun c s => managerCall_serve) h hs
    refine ⟨c, k, s', ?_, hcheck, hrun⟩
    cases c with
    | listNamespaces => trivial
    | _ => cases hstop

end Turns

/-! ## 6. Fencing -/

/-- In every run of safe moves, cleanup finds a node that has rebooted since the
SelfNodeRemediation was created. -/
theorem fencing_safe {manager agent : Reconciler} {s₀ : System}
    {s : State Call Resp System Reconciled} (h₀ : FencingStart agent s₀)
    (h : FencingRun manager agent SafeMove s₀ s) {c : Call}
    {k : Resp c → Prog Call Resp Reconciled} (hr : s.running = some (.call c k))
    (hc : IsCleanup c) : Rebooted s.world.world.cluster := by
  obtain ⟨hrun, hinv⟩ := fencingRun_inv h₀ h
  obtain ⟨t, ht, hnow, -⟩ := managerRun_ready h₀.created hrun hr hc
  exact hinv.1.rebooted (passed_iff.mpr ⟨t, ht, hnow⟩)

/-! The small cluster through its remediation, with the agent on its node. -/

instance (w : Cluster) : Decidable (Rebooted w) := inferInstanceAs (Decidable (_ ≤ _))

instance (w : AgentWorld) : Decidable (Brief w) := inferInstanceAs (Decidable (_ ∨ _))

instance (move : Move) (s : System) : Decidable (SafeMove move s) :=
  match move with
  | .delete => inferInstanceAs (Decidable (_ ∨ _))
  | .tick _ => inferInstanceAs (Decidable (_ ∧ _))
  | .agentStart | .agentCall | .agentEnd => inferInstanceAs (Decidable True)

def smallAgent : Reconciler := ⟨"worker-1", .zeroFirst⟩

def smallSystem : System := ⟨⟨smallCluster, 0, false, false⟩, none⟩

theorem fencingStart_small : FencingStart smallAgent smallSystem where
  created := ⟨rfl, rfl, rfl, rfl⟩
  deletionTimestamp := rfl
  onTarget := ⟨rfl, rfl, by decide, by decide, by decide⟩
  idle := rfl

/-- A reconcile of the agent with the given number of calls. -/
def agentTurns (calls : Nat) : List Turn :=
  .move .agentStart :: List.replicate calls (.move .agentCall) ++ [.move .agentEnd]

/-- Finalizer, Pre-Reboot-Completed, reboot, then time and Reboot-Completed. -/
def smallFencing : List Turn :=
  [.reconcile] ++ agentTurns 1 ++ [.reconcile] ++ agentTurns 5 ++
    [.move (.tick 2000000000000), .reconcile]

theorem fencing_safe_small : ∃ s c k, FencingRun smallManager smallAgent SafeMove smallSystem s ∧
    s.running = some (.call c k) ∧ IsCleanup c ∧ Rebooted s.world.world.cluster := by
  obtain ⟨c, k, s, hc, -, h⟩ := fencingRun_cleanup smallManager smallAgent SafeMove
    smallSystem smallFencing (fun _ => true) (by decide +kernel)
  exact ⟨⟨s, some (.call c k)⟩, c, k, h, rfl, hc, fencing_safe fencingStart_small h rfl hc⟩

/-- The object is deleted when it has the finalizer. The agent reconciles after
each change from then on. -/
def smallDeletion : List Turn :=
  [.reconcile] ++ agentTurns 1 ++ [.move .delete] ++ agentTurns 1 ++ [.reconcile] ++
    agentTurns 1 ++ [.move (.tick 2000000000000), .reconcile] ++ agentTurns 1

/-- Cleanup of a node that has not rebooted since long before the
SelfNodeRemediation was created. -/
theorem deleted_not_fenced : FencingStart smallAgent smallSystem ∧
    isStoppedByNHC smallSystem.world.cluster.snr.current = false ∧
    ∃ s c k, FencingRun smallManager smallAgent (fun _ _ => True) smallSystem s ∧
      s.running = some (.call c k) ∧ IsCleanup c ∧ ¬ Rebooted s.world.world.cluster := by
  obtain ⟨c, k, s, hc, hcheck, h⟩ := fencingRun_cleanup smallManager smallAgent
    (fun _ _ => True) smallSystem smallDeletion
    (fun s => decide (¬ Rebooted s.world.cluster)) (by decide +kernel)
  refine ⟨fencingStart_small, rfl, ?_⟩
  exact ⟨⟨s, some (.call c k)⟩, c, k, h, rfl, hc, of_decide_eq_true hcheck⟩

end SelfNodeRemediation
