import SelfNodeRemediation.Deletion

/-!
# Deleted SelfNodeRemediations that are stuck

When a reconcile gets a deleted SelfNodeRemediation closer to its removal, in a
cluster where every call succeeds.

* `moves_iff`: for which objects and clusters there is a time at which a reconcile
  removes the finalizer or stores a later phase.
* `stuck_absent`: without its Node the object keeps its finalizer forever.
-/

namespace SelfNodeRemediation

open Interaction Versioned

/-! ## 1. One reconcile -/

/-- A deleted object with the finalizer, in a cluster with a configuration. -/
structure DeletionStart (w : Cluster) (ns : String) : Prop where
  live : w.gone = false
  deleted : w.snr.current.deletionTimestamp.isSome = true
  finalizer : containsFinalizer w.snr.current snrFinalizer = true
  namespace_ : w.deploymentNamespace = some ns
  named : ∀ name node, w.nodes name = some node → node.name = name

theorem DeletionStart.present {w : Cluster} {ns : String} (h : DeletionStart w ns) :
    w.Present := by
  refine ⟨h.live, fun _ hnone => ?_, h.named⟩
  have hfin := h.finalizer
  unfold containsFinalizer at hfin
  rw [hnone] at hfin
  cases hfin

/-- A reconcile at one time. -/
theorem movedOn_iff_move (r : Reconciler) {w : Cluster} {ns : String} (h : DeletionStart w ns)
    (hconfig : w.config ns = some none) :
    MovedOn w ((reconcileManager r).eval serve w).2 ↔
      w.move = .release ∨ (w.move = .advance ∧ KeepsPhase r w) := by
  have hconfigured : configured w = true := by
    unfold configured
    rw [h.namespace_, Option.any_some, hconfig]
    rfl
  exact movedOn_iff_makes r h.present h.finalizer
    (makes_plan h.deleted h.finalizer hconfigured)

/-- With a configuration that is being deleted a reconcile does nothing. -/
theorem not_movedOn_of_deleted_config (r : Reconciler) {w : Cluster} {ns : String} {t : Time}
    (h : DeletionStart w ns) (hconfig : w.config ns = some (some t)) :
    ¬ MovedOn w ((reconcileManager r).eval serve w).2 := by
  have hstay : Makes w w.plan .stay := by
    unfold Cluster.plan configured
    rw [h.namespace_, Option.any_some, hconfig]
    exact ⟨rfl, rfl⟩
  intro hmoved
  exact ((movedOn_iff_makes r h.present h.finalizer hstay).mp hmoved).elim nofun nofun

/-! ## 2. Moving on -/

/-- The Machine that the node is named by is there, but has no reference to it. -/
def Unreferenced (w : Cluster) (snr : SNR) : Prop :=
  isOwnedByNHC snr = false ∧ ∃ ref machine, isOwnedByMachine snr = some ref ∧
    w.machines snr.namespace_ ref.name = some machine ∧ machine.nodeRef = none

/-- The node is remediated by the phase handlers. -/
def Handled (w : Cluster) (node : Node) : Prop :=
  node.labels.lookup excludeRemediationLabel ≠ some "true" ∧
    (w.runtimeStrategy = .resourceDeletion ∨ w.runtimeStrategy = .outOfServiceTaint)

/-- The phase handler gets to the next phase, if it is given time. -/
def CanAdvance (w : Cluster) (node : Node) : Prop :=
  match getPhase w.snr.current with
  | .fencingStarted => canPrepare w node = true
  | .preRebootCompleted => w.snr.current.status.timeAssumedRebooted.isSome = true
  | .rebootCompleted => w.runtimeStrategy = .resourceDeletion ∨
      resourcesGone w node.name = true ∨ w.snr.current.status.timeAssumedRebooted.isSome = true
  | _ => False

/-- The node is there to be remediated, and the remediation can go on. -/
structure Remediable (r : Reconciler) (w : Cluster) (node : Node) : Prop where
  target : targetName w w.snr.current = .ok node.name
  known : w.nodes node.name = some node
  handled : Handled w node
  phase : getPhase w.snr.current = .fencingCompleted ∨ (CanAdvance w node ∧ KeepsPhase r w)

/-- A deleted object gets rid of its finalizer, or gets closer to it. -/
def Unstuck (r : Reconciler) (w : Cluster) : Prop :=
  (isStoppedByNHC w.snr.current = true ∧ ¬ Unreferenced w w.snr.current) ∨
    (isStoppedByNHC w.snr.current = false ∧ ∃ node, Remediable r w node)

section Moves

variable {w : Cluster} {node : Node}

theorem exists_hasCome (w : Cluster) (wait : Duration) :
    (∃ t, w.now ≤ t ∧ hasCome (w.at t) wait = true) ↔
      w.snr.current.status.timeAssumedRebooted.isSome = true := by
  unfold hasCome
  show (∃ t, _ ∧ (w.snr.current.status.timeAssumedRebooted.any _) = true) ↔ _
  cases w.snr.current.status.timeAssumedRebooted with
  | none => exact ⟨fun ⟨_, _, h⟩ => absurd h nofun, nofun⟩
  | some assumed =>
    refine ⟨fun _ => rfl, fun _ => ⟨max w.now (assumed + wait.toInt), le_max_left _ _, ?_⟩⟩
    exact decide_eq_true (le_max_right w.now (assumed + wait.toInt))

theorem advance_iff (b : Bool) :
    (if b then DeletionMove.advance else .stay) = .advance ↔ b = true := by
  cases b <;> decide

theorem not_release (b : Bool) : (if b then DeletionMove.advance else .stay) ≠ .release := by
  cases b <;> decide

theorem phaseMove_release_iff (removed : Bool) :
    phaseMove w node removed = .release ↔ getPhase w.snr.current = .fencingCompleted := by
  unfold phaseMove
  cases getPhase w.snr.current with
  | fencingStarted => exact ⟨fun h => absurd h (not_release _), nofun⟩
  | preRebootCompleted => exact ⟨fun h => absurd h (not_release _), nofun⟩
  | rebootCompleted => exact ⟨fun h => absurd h (not_release _), nofun⟩
  | fencingCompleted => exact ⟨fun _ => rfl, fun _ => rfl⟩
  | unknown => exact ⟨nofun, nofun⟩

/-- The phase handlers move on at some time, where `removed` is whether the
resources count as removed at a time. -/
theorem exists_phaseMove_advance {removed : Time → Bool} {Removable : Prop}
    (hremoved : (∃ t, w.now ≤ t ∧ removed t = true) ↔ Removable) :
    (∃ t, w.now ≤ t ∧ phaseMove (w.at t) node (removed t) = .advance) ↔
      match getPhase w.snr.current with
      | .fencingStarted => canPrepare w node = true
      | .preRebootCompleted => w.snr.current.status.timeAssumedRebooted.isSome = true
      | .rebootCompleted => Removable
      | _ => False := by
  -- the phase and the node's state are the same at every time
  have hphase (t : Time) : getPhase (w.at t).snr.current = getPhase w.snr.current := rfl
  have hprepare (t : Time) : canPrepare (w.at t) node = canPrepare w node := rfl
  unfold phaseMove
  simp only [hphase]
  cases getPhase w.snr.current with
  | fencingStarted =>
    simp only [advance_iff, hprepare]
    constructor
    · rintro ⟨_, _, h⟩
      exact h
    · intro h
      exact ⟨w.now, le_rfl, h⟩
  | preRebootCompleted =>
    simp only [advance_iff]
    exact exists_hasCome w 0
  | rebootCompleted =>
    simp only [advance_iff]
    exact hremoved
  | fencingCompleted =>
    refine ⟨?_, False.elim⟩
    rintro ⟨_, _, h⟩
    cases h
  | unknown =>
    refine ⟨?_, False.elim⟩
    rintro ⟨_, _, h⟩
    cases h

/-- Under the out-of-service strategy the resources count as removed at some time. -/
theorem exists_removed (w : Cluster) (nodeName : String) :
    (∃ t, w.now ≤ t ∧
      (resourcesGone w nodeName || hasCome (w.at t) outOfServiceTimeoutDuration) = true) ↔
      resourcesGone w nodeName = true ∨
        w.snr.current.status.timeAssumedRebooted.isSome = true := by
  rw [← exists_hasCome w outOfServiceTimeoutDuration]
  constructor
  · rintro ⟨t, ht, h⟩
    exact (Bool.or_eq_true_iff.mp h).imp id fun h => ⟨t, ht, h⟩
  · rintro (h | ⟨t, ht, h⟩)
    · exact ⟨w.now, le_rfl, Bool.or_eq_true_iff.mpr (.inl h)⟩
    · exact ⟨t, ht, Bool.or_eq_true_iff.mpr (.inr h)⟩

theorem nodeMove_resourceDeletion
    (hincluded : node.labels.lookup excludeRemediationLabel ≠ some "true")
    (hstrategy : w.runtimeStrategy = .resourceDeletion) :
    nodeMove w node = phaseMove w node true := by
  unfold nodeMove
  rw [if_neg hincluded, hstrategy]

theorem nodeMove_outOfServiceTaint
    (hincluded : node.labels.lookup excludeRemediationLabel ≠ some "true")
    (hstrategy : w.runtimeStrategy = .outOfServiceTaint) :
    nodeMove w node = phaseMove w node
      (resourcesGone w node.name || hasCome w outOfServiceTimeoutDuration) := by
  unfold nodeMove
  rw [if_neg hincluded, hstrategy]

theorem nodeMove_stay (h : ¬ Handled w node) : nodeMove w node = .stay := by
  unfold nodeMove
  split
  · rfl
  · next hincluded =>
    cases hstrategy : w.runtimeStrategy with
    | resourceDeletion => exact absurd ⟨hincluded, .inl hstrategy⟩ h
    | outOfServiceTaint => exact absurd ⟨hincluded, .inr hstrategy⟩ h
    | _ => rfl

theorem nodeMove_release_iff (h : Handled w node) :
    nodeMove w node = .release ↔ getPhase w.snr.current = .fencingCompleted := by
  rcases h.2 with hstrategy | hstrategy
  · rw [nodeMove_resourceDeletion h.1 hstrategy]
    exact phaseMove_release_iff true
  · rw [nodeMove_outOfServiceTaint h.1 hstrategy]
    exact phaseMove_release_iff _

theorem exists_nodeMove_advance (h : Handled w node) :
    (∃ t, w.now ≤ t ∧ nodeMove (w.at t) node = .advance) ↔ CanAdvance w node := by
  unfold CanAdvance
  rcases h.2 with hstrategy | hstrategy
  · have hmove (t : Time) := nodeMove_resourceDeletion (w := w.at t) h.1 hstrategy
    simp only [hmove]
    rw [hstrategy]
    exact exists_phaseMove_advance ⟨fun _ => .inl rfl, fun _ => ⟨w.now, le_rfl, rfl⟩⟩
  · have hmove (t : Time) := nodeMove_outOfServiceTaint (w := w.at t) h.1 hstrategy
    simp only [hmove]
    rw [hstrategy]
    exact exists_phaseMove_advance ((exists_removed w node.name).trans
      ⟨.inr, fun h => h.resolve_left nofun⟩)

/-- The node that is remediated is released or moves on at some time. -/
theorem exists_nodeMove (r : Reconciler) :
    (∃ t, w.now ≤ t ∧ (nodeMove (w.at t) node = .release ∨
      (nodeMove (w.at t) node = .advance ∧ KeepsPhase r w))) ↔
      Handled w node ∧ (getPhase w.snr.current = .fencingCompleted ∨
        (CanAdvance w node ∧ KeepsPhase r w)) := by
  by_cases hhandled : Handled w node
  · have hrelease (t : Time) := nodeMove_release_iff (w := w.at t) hhandled
    constructor
    · rintro ⟨t, ht, h | ⟨h, hkeeps⟩⟩
      · exact ⟨hhandled, .inl ((hrelease t).mp h)⟩
      · exact ⟨hhandled, .inr ⟨(exists_nodeMove_advance hhandled).mp ⟨t, ht, h⟩, hkeeps⟩⟩
    · rintro ⟨-, h | ⟨h, hkeeps⟩⟩
      · exact ⟨w.now, le_rfl, .inl ((hrelease w.now).mpr h)⟩
      · obtain ⟨t, ht, h⟩ := (exists_nodeMove_advance hhandled).mpr h
        exact ⟨t, ht, .inr ⟨h, hkeeps⟩⟩
  · have hstay (t : Time) : nodeMove (w.at t) node = .stay := nodeMove_stay hhandled
    simp only [hstay]
    exact ⟨fun ⟨_, _, h⟩ => h.elim nofun fun h => absurd h.1 nofun, fun h => absurd h.1 hhandled⟩

/-- The one error of `getNodeName` that is no `NotFound`. -/
theorem unreferenced_iff_targetName (w : Cluster) (snr : SNR) :
    Unreferenced w snr ↔ ∃ e, targetName w snr = .error e ∧ e.isNotFound = false := by
  have hmissing (name : String) : (notFound machineKind name).isNotFound = true := rfl
  have hnil : (GoErr.new "nodeRef is nil").isNotFound = false := rfl
  unfold Unreferenced targetName
  cases isOwnedByNHC snr with
  | true => simp
  | false =>
    cases isOwnedByMachine snr with
    | none => simp
    | some ref =>
      cases hmachine : w.machines snr.namespace_ ref.name with
      | none => simp [hmachine, hmissing]
      | some machine =>
        cases hnodeRef : machine.nodeRef with
        | none => simp [hmachine, hnodeRef, hnil]
        | some name => simp [hmachine, hnodeRef]

/-- The one error of `getNodeFromSnr` that is no `NotFound`. -/
theorem unreferenced_iff (w : Cluster) (snr : SNR) :
    Unreferenced w snr ↔ ∃ e, targetNode w snr = .error e ∧ e.isNotFound = false := by
  rw [unreferenced_iff_targetName]
  unfold targetNode
  cases targetName w snr with
  | error e => simp [Except.bind]
  | ok name =>
    refine ⟨fun ⟨_, h, _⟩ => absurd h nofun, fun ⟨e, (h : found nodeKind name _ = _), hnot⟩ => ?_⟩
    cases hnode : w.nodes name with
    | none =>
      rw [hnode] at h
      cases h
      cases hnot
    | some node =>
      rw [hnode] at h
      cases h

/-- A remediation that NHC has stopped. -/
theorem move_stopped (h : isStoppedByNHC w.snr.current = true) :
    w.move = .release ∧ ¬ Unreferenced w w.snr.current ∨
      w.move = .stay ∧ Unreferenced w w.snr.current := by
  rw [unreferenced_iff]
  unfold Cluster.move
  rw [h]
  cases targetNode w w.snr.current with
  | ok node => exact .inl ⟨rfl, fun ⟨_, h, _⟩ => absurd h nofun⟩
  | error e =>
    cases hfound : e.isNotFound with
    | true =>
      refine .inl ⟨by simp [hfound], ?_⟩
      rintro ⟨_, ⟨⟩, hnot⟩
      rw [hfound] at hnot
      cases hnot
    | false => exact .inr ⟨by simp [hfound], e, rfl, hfound⟩

/-- A live remediation. -/
theorem move_live (h : isStoppedByNHC w.snr.current = false) :
    w.move = match targetNode w w.snr.current with
      | .ok node => nodeMove w node
      | .error _ => .stay := by
  unfold Cluster.move
  rw [h]
  rfl

/-- At some time the object is released or moves on. -/
theorem exists_move (r : Reconciler)
    (hnamed : ∀ name node, w.nodes name = some node → node.name = name) :
    (∃ t, w.now ≤ t ∧ ((w.at t).move = .release ∨
      ((w.at t).move = .advance ∧ KeepsPhase r w))) ↔ Unstuck r w := by
  unfold Unstuck
  cases hstopped : isStoppedByNHC w.snr.current with
  | true =>
    -- no phase handler runs, so that the time plays no role
    refine ⟨fun ⟨t, _, h⟩ => .inl ⟨rfl, ?_⟩, fun h => ⟨w.now, le_rfl, .inl ?_⟩⟩
    · obtain ⟨-, href⟩ | ⟨hmove, -⟩ := move_stopped (w := w.at t) hstopped
      · exact href
      · rw [hmove] at h
        exact h.elim nofun fun h => absurd h.1 nofun
    · obtain ⟨hmove, -⟩ | ⟨-, href⟩ := move_stopped (w := w.at w.now) hstopped
      · exact hmove
      · exact h.elim (fun h => absurd href h.2) fun h => absurd h.1 nofun
  | false =>
    have hmove (t : Time) := move_live (w := w.at t) hstopped
    have hremediable : (∃ node, Remediable r w node) ↔ ∃ node,
        targetNode w w.snr.current = .ok node ∧ Handled w node ∧
          (getPhase w.snr.current = .fencingCompleted ∨ (CanAdvance w node ∧ KeepsPhase r w)) := by
      refine exists_congr fun node => ?_
      rw [targetNode_ok_iff hnamed]
      exact ⟨fun h => ⟨⟨h.target, h.known⟩, h.handled, h.phase⟩,
        fun h => ⟨h.1.1, h.1.2, h.2.1, h.2.2⟩⟩
    have htarget (t : Time) : targetNode (w.at t) (w.at t).snr.current =
        targetNode w w.snr.current := rfl
    simp only [hmove, htarget, hremediable]
    cases targetNode w w.snr.current with
    | error e =>
      refine ⟨fun ⟨_, _, h⟩ => h.elim nofun fun h => absurd h.1 nofun, fun h => ?_⟩
      exact h.elim (fun h => absurd h.1 nofun) fun ⟨_, _, h, _⟩ => absurd h nofun
    | ok node =>
      refine (exists_nodeMove r).trans ⟨fun h => .inr ⟨trivial, node, rfl, h⟩, fun h => ?_⟩
      rcases h with h | ⟨-, _, ⟨⟩, h⟩
      · exact absurd h.1 nofun
      · exact h

end Moves

theorem DeletionStart.at {w : Cluster} {ns : String} (h : DeletionStart w ns) (t : Time) :
    DeletionStart (w.at t) ns :=
  ⟨h.live, h.deleted, h.finalizer, h.namespace_, h.named⟩

/-- A deleted object with the finalizer, in a cluster that nothing else changes and
where every call succeeds: there is a later time at which a reconcile removes the
finalizer or stores a later phase exactly if the configuration is not deleted itself
and the object is not stuck. -/
theorem moves_iff (r : Reconciler) {w : Cluster} {ns : String} {deletion : Option Time}
    (h : DeletionStart w ns) (hconfig : w.config ns = some deletion) :
    (∃ t, w.now ≤ t ∧ MovedOn w ((reconcileManager r).eval serve (w.at t)).2) ↔
      deletion = none ∧ Unstuck r w := by
  cases deletion with
  | some deleted =>
    refine ⟨fun ⟨t, _, hmoved⟩ => ?_, fun h => absurd h.1 nofun⟩
    exact absurd hmoved (not_movedOn_of_deleted_config r (h.at t) hconfig)
  | none =>
    rw [← exists_move r h.named]
    constructor
    · rintro ⟨t, ht, hmoved⟩
      exact ⟨rfl, t, ht, (movedOn_iff_move r (h.at t) hconfig).mp hmoved⟩
    · rintro ⟨-, t, ht, hmove⟩
      exact ⟨t, ht, (movedOn_iff_move r (h.at t) hconfig).mpr hmove⟩

/-- The small cluster's SelfNodeRemediation, deleted while the reboot is awaited. -/
def deletedSNR : SNR :=
  { smallSNR with
    deletionTimestamp := some 1000400000000
    finalizers := [snrFinalizer]
    status := ⟨some 1000900000000, some preRebootCompletedPhase, "", []⟩ }

def deletedCluster : Cluster := { smallCluster with snr := ⟨deletedSNR, []⟩ }

theorem moves_iff_small : ∃ t, deletedCluster.now ≤ t ∧
    MovedOn deletedCluster
      ((reconcileManager smallManager).eval serve (deletedCluster.at t)).2 := by
  have hstart : DeletionStart deletedCluster "snr" := ⟨rfl, rfl, rfl, rfl, named_single smallNode⟩
  have hphase : getPhase deletedCluster.snr.current = .preRebootCompleted := getPhase_preReboot rfl
  refine (moves_iff smallManager hstart rfl).mpr ⟨rfl, .inr ⟨rfl, smallNode, ?_⟩⟩
  refine ⟨rfl, rfl, ⟨nofun, .inl rfl⟩, .inr ⟨?_, .inl rfl⟩⟩
  unfold CanAdvance
  rw [hphase]
  rfl

/-- The same object, without its Node. -/
def absentCluster : Cluster := { deletedCluster with nodes := fun _ => none }

/-- Whatever the time and the reconciler, an object whose Node is absent keeps its
finalizer and its phase. -/
theorem stuck_absent : DeletionStart absentCluster "snr" ∧
    absentCluster.config "snr" = some none ∧
    ∀ (r : Reconciler) (t : Time), ¬ MovedOn absentCluster
      ((reconcileManager r).eval serve (absentCluster.at t)).2 := by
  have hstart : DeletionStart absentCluster "snr" := ⟨rfl, rfl, rfl, rfl, nofun⟩
  refine ⟨hstart, rfl, fun r t hmoved => ?_⟩
  rcases (movedOn_iff_move r (hstart.at t) rfl).mp hmoved with hmove | ⟨hmove, -⟩
  · cases hmove
  · cases hmove

end SelfNodeRemediation
