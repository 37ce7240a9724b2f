import SelfNodeRemediation.Taints

/-!
# The finalizer is removed from a clean node

`ReconcileManager` removes the finalizer on three paths. `released_clean`: in
every run among the moves `SafeOthers`, when it does so neither taint is on the
target node. The moves that are excluded matter (`released_tainted`): once its
Machine is deleted the target counts as gone, and a strategy that is changed in
phase Reboot-Completed leaves the out-of-service taint behind.
-/

namespace SelfNodeRemediation

open Interaction Versioned

/-! ## 1. Runs -/

/-- The moves of the others, where a changed strategy has passed the webhook. -/
structure CleanupOthers (isOutOfServiceTaintSupported : Bool) (t : Target) (w w' : Cluster) :
    Prop extends TaintOthers t w w' where
  admitted : w'.snr.current.remediationStrategy ≠ w.snr.current.remediationStrategy →
    validateStrategy isOutOfServiceTaintSupported w'.snr.current.remediationStrategy = .ok ()

/-- The runs of `ReconcileManager` with fresh reads on one SelfNodeRemediation. -/
def CleanupRun (r : Reconciler) (isOutOfServiceTaintSupported : Bool) (t : Target) (w₀ : Cluster)
    (s : State Call Resp Cluster Reconciled) : Prop :=
  Reachable (Exec false) (CleanupOthers isOutOfServiceTaintSupported t) (reconcileManager r) w₀ s

/-- The runs in which every move of the others is safe. -/
def SafeRun (r : Reconciler) (t : Target) (w₀ : Cluster)
    (s : State Call Resp Cluster Reconciled) : Prop :=
  Reachable (Exec false) (SafeOthers t) (reconcileManager r) w₀ s

theorem safeRun_inv {r : Reconciler} {t : Target} {w₀ : Cluster}
    {s : State Call Resp Cluster Reconciled} (h₀ : TaintStart t w₀) (h : SafeRun r t w₀ s) :
    TaintInv t s.world :=
  (taintOutline t).reachable_inv (fun w _ => reconcileManager_taints r w) h₀.inv h

theorem safeRun_fixed {r : Reconciler} {t : Target} {w₀ w : Cluster}
    {p : Option (Prog Call Resp Reconciled)} (h₀ : TaintStart t w₀) (h : SafeRun r t w₀ ⟨w, p⟩) :
    Fixed t w :=
  (safeRun_inv h₀ h).fixed

/-- In every run of safe moves, an `Update` without the finalizer is sent only when
neither taint is on the target node. -/
theorem released_clean (r : Reconciler) {t : Target} {w₀ : Cluster} (h₀ : TaintStart t w₀)
    {s : State Call Resp Cluster Reconciled} (h : SafeRun r t w₀ s) {sent : Revision SNR}
    {k : Resp (.updateSNR sent) → Prog Call Resp Reconciled}
    (hrunning : s.running = some (.call (.updateSNR sent) k))
    (hremoved : containsFinalizer sent.value snrFinalizer = false) :
    ¬ Tainted s.world t.nodeName nodeNoScheduleTaint ∧
      ¬ Tainted s.world t.nodeName outOfServiceTaint := by
  have hallowed : TaintAllowed t (.updateSNR sent) s.world := (taintOutline t).reachable_allowed
    (fun w _ => reconcileManager_taints r w) h₀.inv h hrunning
  exact (hallowed.2 hremoved).1

/-! ## 2. Small runs -/

/-- A call that removes the finalizer. -/
def Call.isRelease : Call → Bool
  | .updateSNR sent => !containsFinalizer sent.value snrFinalizer
  | _ => false

theorem isRelease_eq {c : Call} (h : c.isRelease = true) :
    ∃ sent, c = .updateSNR sent ∧ containsFinalizer sent.value snrFinalizer = false := by
  cases c with
  | updateSNR sent => exact ⟨sent, rfl, by simpa [Call.isRelease] using h⟩
  | _ => cases h

/-- A move of time. -/
theorem SafeOthers.tick {t : Target} {w : Cluster} (h : Fixed t w) (now : Time) :
    SafeOthers t w { w with now := now } :=
  ⟨⟨⟨h.names, h.nodeRef, h.nodes⟩, id, .inl, id, id, .inl rfl⟩, fun _ h => h, fun _ => ⟨rfl, rfl⟩⟩

/-- A write of the object that keeps its status, its finalizers and a stop. -/
theorem TaintOthers.edit {t : Target} {w : Cluster} {f : SNR → SNR} (h : Fixed t w)
    (hnames : t.Names (f w.snr.current)) (hstatus : (f w.snr.current).status = w.snr.current.status)
    (hfinalizers : (f w.snr.current).finalizers = w.snr.current.finalizers)
    (hstop : isStoppedByNHC w.snr.current = true → isStoppedByNHC (f w.snr.current) = true) :
    TaintOthers t w (w.edit f) := by
  refine ⟨⟨hnames, h.nodeRef, h.nodes⟩, id, .inl, id, id,
    .inr ⟨f w.snr.current, rfl, ?_, ?_, hstop⟩⟩
  · rw [hstatus]
  · unfold containsFinalizer
    rw [hfinalizers]

/-- Another strategy is chosen. -/
def withStrategy (strategy : RemediationStrategyType) (snr : SNR) : SNR :=
  { snr with remediationStrategy := strategy }

theorem TaintOthers.deletion {t : Target} {w : Cluster} (h : Fixed t w) :
    TaintOthers t w (w.edit withDeletion) :=
  .edit h (names_of_same rfl rfl rfl rfl h.names) rfl rfl id

theorem SafeOthers.deletion {t : Target} {w : Cluster} (h : Fixed t w) :
    SafeOthers t w (w.edit withDeletion) :=
  ⟨.deletion h, fun _ h => h, fun _ => ⟨rfl, rfl⟩⟩

theorem CleanupOthers.strategy {t : Target} {w : Cluster} (h : Fixed t w)
    {strategy : RemediationStrategyType} (hadmitted : validateStrategy true strategy = .ok ()) :
    CleanupOthers true t w (w.edit (withStrategy strategy)) :=
  ⟨.edit h (names_of_same rfl rfl rfl rfl h.names) rfl rfl id, fun _ => hadmitted⟩

theorem CleanupOthers.of_same {t : Target} {w w' : Cluster} (h : TaintOthers t w w')
    (hsame : w'.snr.current.remediationStrategy = w.snr.current.remediationStrategy) :
    CleanupOthers true t w w' :=
  ⟨h, fun hne => absurd hsame hne⟩

theorem CleanupOthers.deletion {t : Target} {w : Cluster} (h : Fixed t w) :
    CleanupOthers true t w (w.edit withDeletion) :=
  .of_same (.deletion h) rfl

/-- A Machine is deleted. -/
theorem CleanupOthers.lostMachine {t : Target} {w : Cluster} (h : Fixed t w) :
    CleanupOthers true t w { w with machines := fun _ _ => none } :=
  .of_same ⟨⟨h.names, nofun, h.nodes⟩, id, .inl, id, id, .inl rfl⟩ rfl

theorem safeRun_reconcileAlone {t : Target} {w₀ w : Cluster}
    (h : SafeRun smallManager t w₀ ⟨w, none⟩) :
    SafeRun smallManager t w₀ ⟨reconcileAlone w, none⟩ :=
  reachable_alone (fun _ => true) (fun _ _ _ => .served) (Prog.passes_true _ w) h

theorem cleanupRun_reconcileAlone {t : Target} {w₀ w : Cluster}
    (h : CleanupRun smallManager true t w₀ ⟨w, none⟩) :
    CleanupRun smallManager true t w₀ ⟨reconcileAlone w, none⟩ :=
  reachable_alone (fun _ => true) (fun _ _ _ => .served) (Prog.passes_true _ w) h

theorem taintStart_smallCluster : TaintStart ⟨"worker-1", none⟩ smallCluster := by
  have hno (taint : Taint) : ¬ Tainted smallCluster "worker-1" taint := by
    rintro ⟨node, hnode, htaint⟩
    cases hnode
    cases htaint
  refine ⟨⟨⟨.inr rfl, rfl⟩, nofun, ?_⟩, rfl, rfl, hno _, hno _⟩
  intro node hnode
  cases hnode
  rfl

theorem safeRun_small : SafeRun smallManager ⟨"worker-1", none⟩ smallCluster
    ⟨smallFenced.edit withDeletion, none⟩ := by
  have hstart : SafeRun smallManager ⟨"worker-1", none⟩ smallCluster ⟨smallCluster, none⟩ := .refl
  have htwice := safeRun_reconcileAlone (safeRun_reconcileAlone hstart)
  have htick : SafeOthers ⟨"worker-1", none⟩ (reconcileAlone (reconcileAlone smallCluster))
      smallRebooted := .tick (safeRun_fixed taintStart_smallCluster htwice) 2000000000000
  have hrebooted := htwice.tail (.env htick)
  have hfenced := safeRun_reconcileAlone (safeRun_reconcileAlone hrebooted)
  exact hfenced.tail (.env (.deletion (safeRun_fixed taintStart_smallCluster hfenced)))

theorem released_clean_small : ∃ s sent k,
    SafeRun smallManager ⟨"worker-1", none⟩ smallCluster s ∧
    s.running = some (.call (.updateSNR sent) k) ∧
    containsFinalizer sent.value snrFinalizer = false ∧
    ¬ Tainted s.world "worker-1" nodeNoScheduleTaint ∧
    ¬ Tainted s.world "worker-1" outOfServiceTaint := by
  obtain ⟨c, k, w, hc, -, h⟩ := reachable_upTo (fun _ => true) Call.isRelease (fun _ => true)
    (fun _ _ _ => .served) (by decide +kernel) safeRun_small
  obtain ⟨sent, rfl, hno⟩ := isRelease_eq hc
  have hclean := released_clean smallManager taintStart_smallCluster h rfl hno
  exact ⟨⟨w, some (.call (.updateSNR sent) k)⟩, sent, k, h, rfl, hno, hclean⟩

/-! ## 3. A Machine that is deleted, and a strategy that is changed -/

/-- The small cluster, with the SelfNodeRemediation owned by a Machine. -/
def machineCluster : Cluster :=
  { smallCluster with
    snr := ⟨{ smallSNR with ownerReferences := [⟨"Machine", "machine-1"⟩] }, []⟩
    machines := fun ns name =>
      if ns = "snr" ∧ name = "machine-1" then some ⟨some "worker-1"⟩ else none }

def machineTarget : Target := ⟨"worker-1", some ("snr", "machine-1")⟩

/-- The NoSchedule taint is on the node when NHC stops the remediation. -/
def machineStopped : Cluster := (reconcileAlone (reconcileAlone machineCluster)).edit withTimeout

def machineDeleted : Cluster := machineStopped.edit withDeletion

def machineLost : Cluster := { machineDeleted with machines := fun _ _ => none }

theorem taintStart_machine : TaintStart machineTarget machineCluster := by
  have hno (taint : Taint) : ¬ Tainted machineCluster "worker-1" taint := by
    rintro ⟨node, hnode, htaint⟩
    cases hnode
    cases htaint
  refine ⟨⟨⟨rfl, rfl, rfl⟩, ?_, ?_⟩, rfl, rfl, hno _, hno _⟩
  · rintro ns name machine nodeName ⟨⟩ hmachine hnodeRef
    cases hmachine
    cases hnodeRef
    rfl
  · intro node hnode
    cases hnode
    rfl

theorem cleanupRun_machine :
    CleanupRun smallManager true machineTarget machineCluster ⟨machineLost, none⟩ := by
  have hstart : SafeRun smallManager machineTarget machineCluster ⟨machineCluster, none⟩ := .refl
  have htwice := safeRun_reconcileAlone (safeRun_reconcileAlone hstart)
  have hfixed := safeRun_fixed taintStart_machine htwice
  have hrun : CleanupRun smallManager true machineTarget machineCluster
      ⟨reconcileAlone (reconcileAlone machineCluster), none⟩ :=
    cleanupRun_reconcileAlone (cleanupRun_reconcileAlone .refl)
  have htimeout : TaintOthers machineTarget _ machineStopped :=
    .edit hfixed hfixed.names rfl rfl fun _ => rfl
  have hdeletion : CleanupOthers true machineTarget machineStopped machineDeleted :=
    .deletion htimeout.fixed
  have hlost : CleanupOthers true machineTarget machineDeleted machineLost :=
    .lostMachine hdeletion.fixed
  exact ((hrun.tail (.env (.of_same htimeout rfl))).tail (.env hdeletion)).tail (.env hlost)

/-- The small cluster with the out-of-service taint on the node, when the strategy
is changed. -/
def strategyChanged : Cluster := taintAdded.edit (withStrategy .resourceDeletion)

def strategyDeleted : Cluster := strategyChanged.edit withDeletion

theorem cleanupRun_strategy : CleanupRun smallManager true ⟨"worker-1", none⟩ taintCluster
    ⟨reconcileAlone (reconcileAlone strategyDeleted), none⟩ := by
  have hadded : CleanupRun smallManager true ⟨"worker-1", none⟩ taintCluster ⟨taintAdded, none⟩ :=
    Reachable.mono (fun _ _ h => .of_same h.toTaintOthers h.strategy.1) taintRun_small
  have hsafe : SafeRun smallManager ⟨"worker-1", none⟩ taintCluster ⟨taintAdded, none⟩ :=
    Reachable.mono (fun _ _ => FixedOthers.safe rfl) taintRun_small
  have hchanged : CleanupOthers true ⟨"worker-1", none⟩ taintAdded strategyChanged :=
    .strategy (safeRun_fixed taintStart_small hsafe) rfl
  have hdeletion : CleanupOthers true ⟨"worker-1", none⟩ strategyChanged strategyDeleted :=
    .deletion hchanged.fixed
  exact cleanupRun_reconcileAlone
    (cleanupRun_reconcileAlone ((hadded.tail (.env hchanged)).tail (.env hdeletion)))

/-- An `Update` without the finalizer is about to be sent, with the taint on the
node. -/
def ReleasedUnder (taint : Taint) (s : State Call Resp Cluster Reconciled) : Prop :=
  (∃ sent k, s.running = some (.call (.updateSNR sent) k) ∧
    containsFinalizer sent.value snrFinalizer = false) ∧ Tainted s.world "worker-1" taint

/-- The finalizer is removed under the NoSchedule taint once the Machine is
deleted, and under the out-of-service taint once the strategy is changed. -/
theorem released_tainted :
    (∃ s, CleanupRun smallManager true machineTarget machineCluster s ∧
      ReleasedUnder nodeNoScheduleTaint s) ∧
    ∃ s, CleanupRun smallManager true ⟨"worker-1", none⟩ taintCluster s ∧
      ReleasedUnder outOfServiceTaint s := by
  have hstop {taint : Taint} {t : Target} {w₀ w : Cluster}
      (h : CleanupRun smallManager true t w₀ ⟨w, none⟩)
      (hcheck : ((reconcileManager smallManager).upTo serve (fun _ => true) Call.isRelease w).any
        (fun p => (p.2.nodes "worker-1").any fun node => taintExists node.taints taint) = true) :
      ∃ s, CleanupRun smallManager true t w₀ s ∧ ReleasedUnder taint s := by
    obtain ⟨c, k, w', hc, htaint, hrun⟩ := reachable_upTo (fun _ => true) Call.isRelease _
      (fun _ _ _ => .served) hcheck h
    obtain ⟨sent, rfl, hno⟩ := isRelease_eq hc
    exact ⟨_, hrun, ⟨sent, k, rfl, hno⟩, tainted_of_any htaint⟩
  exact ⟨hstop cleanupRun_machine (by decide +kernel),
    hstop cleanupRun_strategy (by decide +kernel)⟩

end SelfNodeRemediation
