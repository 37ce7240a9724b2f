import SelfNodeRemediation.SharedTaint
import SelfNodeRemediation.Remediations

/-!
# Several SelfNodeRemediations for one node

The reconciles of any number of SelfNodeRemediations that target one node, interleaved
call by call. Reads are fresh, any call may fail, and nobody else takes the NoSchedule
taint from the node.

* `shared_taint_kept`: the taint is on the node while one of them has its finalizer and
  is in phase Pre-Reboot-Completed or Reboot-Completed, in every run in which no cleanup
  gets in the way of a remediation (`Apart`).
* `shared_taint_lost`: a cleanup takes the taint from a node that another
  SelfNodeRemediation is fencing.
-/

namespace SelfNodeRemediation.SharedTaint

open Interaction Versioned

/-! ## 1. The team -/

section Team

variable {ι : Type} [DecidableEq ι] (nodeName : String) (machine : ι → Option (String × String))

/-- All of them target one node, some of them through a Machine. -/
def target (i : ι) : Target := ⟨nodeName, machine i⟩

/-- Moves of everything but the reconciles. The objects may be deleted and annotated, but
their phases and finalizers are left alone, and so is the NoSchedule taint. -/
structure Bystanders (w w' : Remediations ι) : Prop where
  fixed : ∀ i, Fixed (target nodeName machine i) (w'.view i)
  taint : Tainted w.shared nodeName nodeNoScheduleTaint →
    Tainted w'.shared nodeName nodeNoScheduleTaint
  snr : ∀ i, (w'.view i).snr = (w.view i).snr ∨ ∃ new, (w'.view i).snr = (w.view i).snr.put new ∧
    new.status.phase = (w.view i).snr.current.status.phase ∧
    containsFinalizer new snrFinalizer =
      containsFinalizer (w.view i).snr.current snrFinalizer ∧
    (Deleted (w.view i) → new.deletionTimestamp.isSome = true)

/-- The reconciles of the manager, one for each SelfNodeRemediation. -/
def reconciles (r : Reconciler) :
    Team (fun _ : ι => Call) (fun _ => Resp) (fun _ => Reconciled) (Remediations ι) where
  main _ := reconcileManager r
  ready _ _ := True
  start _ w := w
  exec i c w a w' := ∃ cluster, Exec false c (w.view i) a cluster ∧ w' = w.put i cluster
  finish _ _ w := w
  env := Bystanders nodeName machine

/-- A SelfNodeRemediation whose cleanup is due patches the node only when it is not itself
under way with its finalizer, and no other one is active. -/
def Apart : Act (fun _ : ι => Call) → Remediations ι → Remediations ι → Prop
  | .call i (.patchNode _ _), w, _ => CleanupDue (w.view i) →
      (Finalized (w.view i) → ¬ Underway (w.view i).snr.current.status.phase) ∧
        ∀ j, j ≠ i → ¬ Active (w.view j)
  | _, _, _ => True

/-- None of them has a phase yet. -/
structure SharedStart (w : Remediations ι) : Prop where
  fixed : ∀ i, Fixed (target nodeName machine i) (w.view i)
  phase : ∀ i, (w.view i).snr.current.status.phase = none

/-- What the reconciles rely on and guarantee. -/
def assertions : Assertions (fun _ : ι => Call) (fun _ => Reconciled) (Remediations ι) where
  inv w := ∀ i, ShieldInv (target nodeName machine i) (w.view i)
  rely i w w' := Neighbours (target nodeName machine i) (w.view i) (w'.view i)
  allowed i c w := ShieldAllowed (target nodeName machine i) c (w.view i)
  post _ _ _ := True

end Team

/-! ## 2. Whole runs -/

section Runs

variable {ι : Type} [DecidableEq ι] {nodeName : String} {machine : ι → Option (String × String)}
  {w : Remediations ι}

omit [DecidableEq ι] in
theorem Apart.granted {i : ι} {c : Call} {w' : Remediations ι} (h : Apart (.call i c) w w') :
    Granted c (w.view i) := by
  cases c with
  | patchNode base changed => exact fun hdue => (h hdue).1
  | _ => trivial

/-- What a call of one reconcile is for another one. -/
theorem neighbours_put {i j : ι} {c : Call} {a : Resp c} {cluster : Cluster} (hne : j ≠ i)
    (hi : ShieldInv (target nodeName machine j) (w.view j))
    (ha : ShieldAllowed (target nodeName machine i) c (w.view i))
    (he : Exec false c (w.view i) a cluster) (hok : Apart (.call i c) w (w.put i cluster)) :
    Neighbours (target nodeName machine j) (w.view j) ((w.put i cluster).view j) := by
  rw [Remediations.view_put_of_ne w cluster hne]
  obtain ⟨hmachines, hnodes⟩ := he.nodes
  refine ⟨⟨hi.fixed.names, ?_, ?_⟩, ?_, .inl rfl⟩
  · show ∀ ns name machine _, _ → cluster.machines ns name = some machine → _
    rw [hmachines]
    exact hi.fixed.nodeRef
  · show ∀ node, cluster.nodes nodeName = some node → node.name = nodeName
    rcases hnodes with hnodes | ⟨base, changed, node, -, hnode, hnodes⟩
    · rw [hnodes]
      exact hi.fixed.nodes
    · rw [hnodes]
      exact named_patchNode (w := w.view i) hi.fixed.nodes hnode
  · intro hactive htaint
    show ∃ node, cluster.nodes nodeName = some node ∧ _
    rcases hnodes with hnodes | ⟨base, changed, node, rfl, hnode, hnodes⟩
    · rw [hnodes]
      exact htaint
    · -- the list has the taint, or the cleanup of `i` is due and `j` is not active
      rw [hnodes]
      rcases ha with hsend | hdue
      · exact @unschedulable_patchNode (target nodeName machine j) (w.view i) _ _ _ hnode
          (fun _ => hsend) htaint
      · exact absurd hactive ((hok hdue).2 j hne)

theorem proved (r : Reconciler) :
    (assertions nodeName machine).Proved (reconciles nodeName machine r) Apart where
  env {w w'} hi he _ := by
    have hrely (i : ι) : Neighbours (target nodeName machine i) (w.view i) (w'.view i) :=
      ⟨he.fixed i, fun _ => he.taint, he.snr i⟩
    exact ⟨fun i => shieldInv_env (hi i) (hrely i), hrely⟩
  start {i w} hi _ := by
    -- a reconcile is proved against the cluster as it sees it
    have hview : Outline.View (fun w : Remediations ι => w.view i)
        (shieldOutline (target nodeName machine i))
        ((assertions nodeName machine).outline (reconciles nodeName machine r) Apart i) :=
      { exec := by
          rintro c w a w' ⟨⟨cluster, he, rfl⟩, hok, -⟩
          rw [Remediations.view_put_self]
          exact ⟨he, hok.granted⟩
        env := fun he => he.1
        inv := fun hi => hi i
        allowed := fun _ ha => ha }
    refine ⟨hi, hview.wp (reconcileManager_shield r (w.view i)), fun j _ => ?_⟩
    exact ⟨(hi j).fixed, fun _ h => h, .inl rfl⟩
  call {i c w a w'} hi ha he hok := by
    obtain ⟨cluster, he, rfl⟩ := he
    have hrely (j : ι) (hne : j ≠ i) := neighbours_put hne (hi j) ha he hok
    refine ⟨fun j => ?_, hrely⟩
    by_cases hj : j = i
    · subst hj
      rw [Remediations.view_put_self]
      exact shieldInv_exec (hi j) ha hok.granted he
    · exact shieldInv_env (hi j) (hrely j hj)
  finish {i a w} hi _ := ⟨hi, fun j _ => ⟨(hi j).fixed, fun _ h => h, .inl rfl⟩⟩

omit [DecidableEq ι] in
theorem SharedStart.inv (h : SharedStart nodeName machine w) :
    (assertions nodeName machine).inv w := by
  have hnot (i : ι) : ¬ Underway (w.view i).snr.current.status.phase := by
    rw [h.phase i]
    exact fun hu => hu.elim nofun nofun
  exact fun i => ⟨h.fixed i, fun _ hu => absurd hu (hnot i), fun hu => absurd hu (hnot i)⟩

end Runs

/-! ## 3. A pair -/

inductive Pair
  | first
  | second
deriving DecidableEq

namespace Pair

/-- The second one has another name, and names the node by an annotation. -/
def secondSNR : SNR :=
  { smallSNR with name := "snr-2", annotations := [Prod.mk nodeNameAnnotation "worker-1"] }

/-- The small cluster with two SelfNodeRemediations for its node. -/
def start : Remediations Pair where
  shared := smallCluster
  stored
    | first => ⟨⟨smallSNR, []⟩, false⟩
    | second => ⟨⟨secondSNR, []⟩, false⟩

/-- Every call of a reconcile is served. -/
def serveFor (i : Pair) (c : Call) (w : Remediations Pair) : Resp c × Remediations Pair :=
  ((serve c (w.view i)).1, w.put i (serve c (w.view i)).2)

/-- One reconcile that nothing disturbs. -/
def reconciled (i : Pair) (w : Remediations Pair) : Remediations Pair :=
  ((reconcileManager smallManager).eval (serveFor i) w).2

/-- The first one is prepared for its reboot. -/
def prepared : Remediations Pair := reconciled first (reconciled first start)

/-- So is the second one. -/
def bothPrepared : Remediations Pair := reconciled second (reconciled second prepared)

def elapsed (w : Remediations Pair) : Remediations Pair :=
  { w with shared := { w.shared with now := 2000000000000 } }

/-- The first one waits for the reboot and is done with fencing. -/
def fenced (w : Remediations Pair) : Remediations Pair :=
  reconciled first (reconciled first (elapsed w))

def deleted (w : Remediations Pair) : Remediations Pair :=
  w.put first ((w.view first).edit withDeletion)

/-- The first one is deleted when the second one is prepared, and its cleanup is done. -/
def cleaned : Remediations Pair := reconciled first (deleted (fenced bothPrepared))

/-- The node is back, and its agent runs again. -/
def recovered (w : Remediations Pair) : Remediations Pair :=
  { w with shared := { w.shared with pods := start.shared.pods } }

/-- The cleanup of the first one is done before the second one begins. -/
def handedOver : Remediations Pair :=
  reconciled second (reconciled second (recovered (reconciled first (deleted (fenced prepared)))))

/-- Whether the objects are for the node can be computed. -/
def named (w : Remediations Pair) (i : Pair) : Bool :=
  ((w.view i).snr.current.ownerReferences.isEmpty &&
    getNodeNameDirect (w.view i).snr.current == "worker-1") &&
  (w.shared.nodes "worker-1").all fun node => node.name == "worker-1"

theorem fixed_of_named {w : Remediations Pair} {i : Pair} (h : named w i = true) :
    Fixed (target "worker-1" (fun _ => none) i) (w.view i) := by
  obtain ⟨h, hnodes⟩ := Bool.and_eq_true_iff.mp h
  obtain ⟨howners, hname⟩ := Bool.and_eq_true_iff.mp h
  refine ⟨⟨.inr ?_, eq_of_beq hname⟩, nofun, fun node hnode => ?_⟩
  · unfold isOwnedByMachine
    rw [List.isEmpty_iff.mp howners]
    rfl
  · have hstored : w.shared.nodes "worker-1" = some node := hnode
    rw [hstored] at hnodes
    exact eq_of_beq hnodes

theorem start_shared : SharedStart "worker-1" (fun _ => none) start where
  fixed i := fixed_of_named (by cases i <;> decide +kernel)
  phase i := by cases i <;> rfl

/-- What one of them patches now is `Apart`. -/
def MayPatch (i : Pair) (w : Remediations Pair) : Prop :=
  Deleted (w.view i) → ¬ Underway (w.view i).snr.current.status.phase ∧
    ∀ j ∈ [first, second], j ≠ i → ¬ Active (w.view j)

instance (i : Pair) (w : Remediations Pair) : Decidable (MayPatch i w) := by
  unfold MayPatch Active Underway
  infer_instance

theorem MayPatch.apart {i : Pair} {w w' : Remediations Pair} (h : MayPatch i w) (c : Call) :
    Apart (.call i c) w w' := by
  cases c with
  | patchNode base changed =>
    intro hdue
    obtain ⟨hphase, hothers⟩ := h hdue.1
    exact ⟨fun _ => hphase, fun j => hothers j (by cases j <;> decide)⟩
  | _ => trivial

theorem reconciled_apart {w : Remediations Pair} (i : Pair) (hw : MayPatch i w)
    (hp : (reconcileManager smallManager).passes (serveFor i) (fun w => decide (MayPatch i w)) w =
      true)
    (h : (reconciles "worker-1" (fun _ => none) smallManager).Reachable Apart start
      ⟨w, fun _ => none⟩) :
    (reconciles "worker-1" (fun _ => none) smallManager).Reachable Apart start
      ⟨reconciled i w, fun _ => none⟩ :=
  h.pass (fun w => decide (MayPatch i w)) (fun _ _ => ⟨_, .served, rfl⟩)
    (fun c _ hw => (of_decide_eq_true hw).apart c) (fun _ _ => trivial) rfl trivial trivial
    (decide_eq_true hw) hp

theorem reconciled_run {w : Remediations Pair} (i : Pair)
    (h : (reconciles "worker-1" (fun _ => none) smallManager).Reachable (fun _ _ _ => True) start
      ⟨w, fun _ => none⟩) :
    (reconciles "worker-1" (fun _ => none) smallManager).Reachable (fun _ _ _ => True) start
      ⟨reconciled i w, fun _ => none⟩ := by
  have hserved : Team.Served (reconciles "worker-1" (fun _ => none) smallManager)
      (fun _ _ _ => True) (fun _ => True) i (serveFor i) :=
    ⟨fun _ _ _ => ⟨_, .served, rfl⟩, fun _ _ _ => trivial, fun _ _ _ => trivial⟩
  exact h.run hserved rfl (fun _ _ _ => trivial) trivial trivial trivial

theorem bystanders_elapsed (w : Remediations Pair) (h : ∀ i, named w i = true) :
    Bystanders "worker-1" (fun _ => none) w (elapsed w) where
  fixed i := fixed_of_named (h i)
  taint := id
  snr _ := .inl rfl

theorem bystanders_recovered (w : Remediations Pair) (h : ∀ i, named w i = true) :
    Bystanders "worker-1" (fun _ => none) w (recovered w) where
  fixed i := fixed_of_named (h i)
  taint := id
  snr _ := .inl rfl

theorem bystanders_deleted (w : Remediations Pair) (h : ∀ i, named (deleted w) i = true) :
    Bystanders "worker-1" (fun _ => none) w (deleted w) where
  fixed i := fixed_of_named (h i)
  taint := id
  snr i := by
    unfold deleted
    cases i with
    | first =>
      rw [Remediations.view_put_self]
      exact .inr ⟨_, rfl, rfl, rfl, fun _ => rfl⟩
    | second =>
      rw [Remediations.view_put_of_ne _ _ (by decide)]
      exact .inl rfl

theorem reached_prepared :
    (reconciles "worker-1" (fun _ => none) smallManager).Reachable Apart start
      ⟨prepared, fun _ => none⟩ := by
  have honce := reconciled_apart first (by decide +kernel) (by decide +kernel) .refl
  exact reconciled_apart first (by decide +kernel) (by decide +kernel) honce

theorem reached_bothPrepared :
    (reconciles "worker-1" (fun _ => none) smallManager).Reachable Apart start
      ⟨bothPrepared, fun _ => none⟩ := by
  have honce := reconciled_apart second (by decide +kernel) (by decide +kernel) reached_prepared
  exact reconciled_apart second (by decide +kernel) (by decide +kernel) honce

theorem reached_handedOver :
    (reconciles "worker-1" (fun _ => none) smallManager).Reachable Apart start
      ⟨handedOver, fun _ => none⟩ := by
  have helapsed := reached_prepared.tail ⟨_, .env (bystanders_elapsed _
    (fun i => by cases i <;> decide +kernel)), trivial⟩
  have hwaited := reconciled_apart first (by decide +kernel) (by decide +kernel) helapsed
  have hfenced := reconciled_apart first (by decide +kernel) (by decide +kernel) hwaited
  have hdeleted := hfenced.tail ⟨_, .env (bystanders_deleted _
    (fun i => by cases i <;> decide +kernel)), trivial⟩
  -- the cleanup is permitted: the second one does not have its finalizer yet
  have hcleaned := reconciled_apart first (by decide +kernel) (by decide +kernel) hdeleted
  have hrecovered := hcleaned.tail ⟨_, .env (bystanders_recovered _
    (fun i => by cases i <;> decide +kernel)), trivial⟩
  have hbegun := reconciled_apart second (by decide +kernel) (by decide +kernel) hrecovered
  exact reconciled_apart second (by decide +kernel) (by decide +kernel) hbegun

end Pair

/-- In every state of every run whose steps are `Apart`, the NoSchedule taint is on the
node while one of the SelfNodeRemediations is stored with its finalizer in phase
Pre-Reboot-Completed or Reboot-Completed. -/
theorem shared_taint_kept {ι : Type} [DecidableEq ι] {nodeName : String}
    {machine : ι → Option (String × String)} (r : Reconciler) {w₀ : Remediations ι}
    (h₀ : SharedStart nodeName machine w₀)
    {s : TeamState (fun _ : ι => Call) (fun _ => Resp) (fun _ => Reconciled) (Remediations ι)}
    (h : (reconciles nodeName machine r).Reachable Apart w₀ s) (i : ι)
    (hfinalizer : containsFinalizer (s.world.view i).snr.current snrFinalizer = true)
    (hphase : (s.world.view i).snr.current.status.phase = some preRebootCompletedPhase ∨
      (s.world.view i).snr.current.status.phase = some rebootCompletedPhase) :
    Tainted s.world.shared nodeName nodeNoScheduleTaint :=
  (((proved r).reachable h₀.inv h).1 i).shielded hfinalizer hphase

/-- Both are prepared one after the other, or the first one is fenced, deleted and cleaned
up before the second one begins. -/
theorem shared_taint_kept_prepared :
    (∀ i, containsFinalizer (Pair.bothPrepared.view i).snr.current snrFinalizer = true ∧
      (Pair.bothPrepared.view i).snr.current.status.phase = some preRebootCompletedPhase) ∧
    Tainted Pair.bothPrepared.shared "worker-1" nodeNoScheduleTaint ∧
    containsFinalizer (Pair.handedOver.view .first).snr.current snrFinalizer = false ∧
    containsFinalizer (Pair.handedOver.view .second).snr.current snrFinalizer = true ∧
    Tainted Pair.handedOver.shared "worker-1" nodeNoScheduleTaint := by
  have hboth : ∀ i, containsFinalizer (Pair.bothPrepared.view i).snr.current snrFinalizer = true ∧
      (Pair.bothPrepared.view i).snr.current.status.phase = some preRebootCompletedPhase := by
    intro i
    cases i <;> exact ⟨by decide +kernel, by decide +kernel⟩
  have hgone : containsFinalizer (Pair.handedOver.view .first).snr.current
      snrFinalizer = false := by
    decide +kernel
  have hfinalizer : containsFinalizer (Pair.handedOver.view .second).snr.current snrFinalizer =
      true := by decide +kernel
  have hphase : (Pair.handedOver.view .second).snr.current.status.phase =
      some preRebootCompletedPhase := by decide +kernel
  refine ⟨hboth, ?_, hgone, hfinalizer, ?_⟩
  · exact shared_taint_kept smallManager Pair.start_shared Pair.reached_bothPrepared .first
      (hboth .first).1 (.inl (hboth .first).2)
  · have hreached := Pair.reached_handedOver
    generalize Pair.handedOver = w at hreached hfinalizer hphase ⊢
    exact shared_taint_kept smallManager Pair.start_shared hreached .second hfinalizer (.inl hphase)

/-- The first one is deleted when the second one is prepared for its reboot: its cleanup
takes the taint from the node. -/
theorem shared_taint_lost :
    SharedStart "worker-1" (fun _ => none) Pair.start ∧
      (reconciles "worker-1" (fun _ => none) smallManager).Reachable (fun _ _ _ => True)
        Pair.start ⟨Pair.cleaned, fun _ => none⟩ ∧
      containsFinalizer (Pair.cleaned.view .second).snr.current snrFinalizer = true ∧
      (Pair.cleaned.view .second).snr.current.status.phase = some preRebootCompletedPhase ∧
      ¬ Tainted Pair.cleaned.shared "worker-1" nodeNoScheduleTaint := by
  refine ⟨Pair.start_shared, ?_, by decide +kernel, by decide +kernel, ?_⟩
  · have hprepared := Pair.reconciled_run .first (Pair.reconciled_run .first .refl)
    have hboth := Pair.reconciled_run .second (Pair.reconciled_run .second hprepared)
    have helapsed := hboth.tail ⟨_, .env (Pair.bystanders_elapsed Pair.bothPrepared
      (fun i => by cases i <;> decide +kernel)), trivial⟩
    have hfenced := Pair.reconciled_run .first (Pair.reconciled_run .first helapsed)
    have hdeleted := hfenced.tail ⟨_, .env (Pair.bystanders_deleted (Pair.fenced Pair.bothPrepared)
      (fun i => by cases i <;> decide +kernel)), trivial⟩
    exact Pair.reconciled_run .first hdeleted
  · rintro ⟨node, hnode, htaint⟩
    have hnone : (Pair.cleaned.shared.nodes "worker-1").all
        (fun node => !taintExists node.taints nodeNoScheduleTaint) = true := by decide +kernel
    rw [hnode] at hnone
    rw [Option.all_some, htaint] at hnone
    cases hnone

end SelfNodeRemediation.SharedTaint
