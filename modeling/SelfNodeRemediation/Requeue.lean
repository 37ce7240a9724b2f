import SelfNodeRemediation.Completion

/-!
# What a reconcile returns

What makes the manager reconcile a SelfNodeRemediation again: a watch on the object
itself and on nothing else, and what `reconcileHandler` of controller-runtime does
with the result of the last reconcile.

1. `requeue_reconciled`: what becomes of the request after a reconcile is what the plan
   says, for every stored object and every cluster.
2. `manager_rests`: the states in which the manager does nothing more on its own are
   those listed in `Rests`.
-/

namespace SelfNodeRemediation

open Interaction Versioned

/-! ## 1. What becomes of a request -/

/-- The end of `reconcileHandler`. A panic is recovered, and is an error then. -/
def reconcileHandler : Except GoErr Return → Requeue
  | .error _ => .rateLimited
  | .ok ret => if ret.err.isSome then .rateLimited else ret.result.requeued

section End

variable {r : Reconciler} {w : Cluster} {m : Mem}

/-- The status writes change neither the result nor the error. -/
theorem requeue_reconcileReturn (ending : Except GoErr Ending) (hcur : Current m w) :
    alone.wp (reconcileReturn r ending m) (fun res w' => Current res.2 w' ∧
      ∃ ret, res.1 = .ok ret ∧ reconcileHandler (.ok ret) = (reportIn ending).requeue) w := by
  match ending with
  | .error e => exact Session.wp_ret (Outline.alone_stable _) ⟨hcur, _, rfl, rfl⟩
  | .ok (.plain result) => exact Session.wp_ret (Outline.alone_stable _) ⟨hcur, _, rfl, rfl⟩
  | .ok (.lastError result err) =>
    have hreturned : alone.wp (updateSnrStatusLastError r err m) (fun res w' =>
        Current res.2 w' ∧ res.1 = .ok (returnedErr err)) w := by
      unfold updateSnrStatusLastError
      refine Session.wp_read ?_
      split
      · refine Session.wp_update (Session.wp_read (wp_served ?_))
        rw [serve_patchSNRStatus hcur.1]
        exact Session.wp_ret (Outline.alone_stable _) ⟨⟨hcur.1, rfl⟩, rfl⟩
      · exact Session.wp_ret (Outline.alone_stable _) ⟨hcur, rfl⟩
    refine Session.wp_bind hreturned ?_ fun _ _ _ _ h => absurd h.2 (by simp)
    rintro e s w' - ⟨hcur, he⟩
    cases he
    exact Session.wp_ret (Outline.alone_stable _) ⟨hcur, _, rfl, rfl⟩

theorem requeue_reconcileEnd (ending : Except GoErr Ending) (hcur : Current m w) :
    alone.wp (reconcileEnd r ending m)
      (fun res _ => reconcileHandler res.1 = (reportIn ending).requeue) w := by
  refine Session.wp_bind (requeue_reconcileReturn ending hcur) ?_ ?_
  · rintro ret s w' - ⟨hcur, ret', hret, hq⟩
    cases hret
    refine Session.wp_bind (alone_deferredUpdate ret hcur) ?_ ?_
    · rintro ret' s' w'' - ⟨hret, -⟩
      cases hret
      unfold repanic
      split
      · split
        · exact Session.wp_ret (Outline.alone_stable _) rfl
        · exact Session.wp_ret (Outline.alone_stable _) hq
      · exact Session.wp_ret (Outline.alone_stable _) hq
    · rintro e s' w'' - ⟨heq, -⟩
      cases heq
  · rintro e s w' - ⟨-, _, heq, -⟩
    cases heq

end End

/-- What becomes of the request after one reconcile that nothing disturbs. -/
def Cluster.requeued (w : Cluster) (r : Reconciler) : Requeue :=
  reconcileHandler ((reconcileManager r).eval serve w).1.ret

section Reconciled

variable {w : Cluster} {r : Reconciler}

/-- It is what the plan says. -/
theorem requeue_reconciled (r : Reconciler) (hw : w.Regular) (hf : w.plan.finalizes = false) :
    w.requeued r = w.plan.requeue w.now := by
  have hdoes := reconciled_does (r := r) hw.present
  unfold Does at hdoes
  rw [hf] at hdoes
  obtain ⟨hreport, hversion, -, assumed, hworld⟩ := hdoes
  have hcurrent : Current (stepsAlone r w).1.2 (stepsAlone r w).2 := by
    rw [hworld]
    exact ⟨(performed_gone _ _).trans hw.live, hversion.trans (by rw [performed_snr])⟩
  have hend := Outline.alone_wp (requeue_reconcileEnd (r := r) (stepsAlone r w).1.1 hcurrent)
  unfold Cluster.requeued
  rw [eval_reconcileManager r hw.live]
  exact hend.trans (congrArg Report.requeue hreport)

end Reconciled

/-! ## 2. Where the manager rests -/

/-- The states in which the manager does nothing more, until the object changes. -/
inductive Rests (w : Cluster) : Prop
  /-- Nothing watches the configuration. -/
  | disabled : w.deploymentNamespace.isSome = true → configured w = false → Rests w
  | stopped : configured w = true → isStoppedByNHC w.snr.current = true →
      (w.snr.current.deletionTimestamp = none ∨
        (containsFinalizer w.snr.current snrFinalizer = false ∧
          ∀ e, targetNode w w.snr.current = .error e → e.isNotFound = true)) → Rests w
  /-- Nothing watches the node and its label. -/
  | excluded {node : Node} : w.Running node →
      node.labels.lookup excludeRemediationLabel = some "true" → Rests w
  | unsupported {node : Node} : w.Running node → w.runtimeStrategy ≠ .resourceDeletion →
      w.runtimeStrategy ≠ .outOfServiceTaint → Rests w
  /-- The object is deleted before the remediation has started. -/
  | unprepared {node : Node} : w.Running node → Handled w node →
      getPhase w.snr.current = .fencingStarted → isRebootCapable w node = true →
      containsFinalizer w.snr.current snrFinalizer = false →
      w.snr.current.deletionTimestamp.isSome = true → Rests w
  /-- The wait overflows. -/
  | tooFar {node : Node} {t : Time} : w.Running node → Handled w node →
      getPhase w.snr.current = .preRebootCompleted →
      w.snr.current.status.timeAssumedRebooted = some t → w.now < t →
      Time.sub t w.now + second ≤ 0 → Rests w
  | completed {node : Node} : w.Running node → Handled w node →
      getPhase w.snr.current = .fencingCompleted →
      (w.snr.current.deletionTimestamp = none ∨
        containsFinalizer w.snr.current snrFinalizer = false) → Rests w

section Rest

variable {w : Cluster} {node : Node} {r : Reconciler}

/-- A cleanup that leaves the finalizers alone has no finalizer to remove. -/
theorem finalizer_absent {edits : List TaintEdit} {recorded : Option String}
    (h : (recoverNodePlan w edits recorded).finalizes = false) :
    containsFinalizer w.snr.current snrFinalizer = false := by
  unfold recoverNodePlan at h
  cases hfin : containsFinalizer w.snr.current snrFinalizer with
  | false => rfl
  | true =>
    rw [hfin] at h
    cases h

/-- A wait that is not positive is none. -/
theorem requeued_wait {d : Duration} (h : Result.requeued ⟨false, d⟩ = .forget) : d ≤ 0 := by
  unfold Result.requeued at h
  split at h
  · cases h
  · next hd => exact Int64.not_lt.mp hd

/-- A plan after which nothing happens on its own. -/
structure Plan.Idle (plan : Plan) (now : Time) : Prop where
  requeue : plan.requeue now = .forget
  finalizes : plan.finalizes = false
  phase : plan.phase = none

/-- Where the taint's end is not waited for, and there is no error, the resources
count as removed. -/
theorem useOutOfServiceTaint_busy : ¬ (useOutOfServiceTaintPlan w node).Idle w.now := by
  rintro ⟨hq, -, hp⟩
  unfold useOutOfServiceTaintPlan at hq hp
  split at hq
  · next hgone =>
    rw [if_pos hgone] at hp
    cases hp
  · next hleft =>
    rw [if_neg hleft] at hp
    cases ht : w.snr.current.status.timeAssumedRebooted with
    | none =>
      rw [ht] at hq
      cases hq
    | some t =>
      rw [ht] at hq hp
      dsimp only at hq hp
      split at hq
      · next hcome =>
        rw [if_pos hcome] at hp
        split at hq
        · next hdeleted =>
          rw [if_pos hdeleted] at hp
          cases hp
        · cases hq
      · cases hq

/-- The preparation assigns the next phase, or there is an error, unless the object is
deleted and has no finalizer. -/
theorem rests_prepareReboot (h : w.Running node) (hh : Handled w node)
    (hphase : getPhase w.snr.current = .fencingStarted)
    (hidle : (prepareRebootPlan w node).Idle w.now) : Rests w := by
  obtain ⟨hq, hf, hp⟩ := hidle
  unfold prepareRebootPlan at hq hf hp
  cases hcapable : isRebootCapable w node with
  | false =>
    rw [hcapable] at hq
    cases hq
  | true =>
    rw [hcapable] at hq hf hp
    cases hfin : containsFinalizer w.snr.current snrFinalizer with
    | true =>
      rw [hfin] at hq hp
      cases hset : w.snr.current.status.timeAssumedRebooted.isSome || w.calculatorConfig.isSome
        with
      | true =>
        rw [hset] at hp
        cases hp
      | false =>
        rw [hset] at hq
        cases hq
    | false =>
      rw [hfin] at hf
      cases hdeleted : w.snr.current.deletionTimestamp.isSome with
      | true => exact .unprepared h hh hphase hcapable hfin hdeleted
      | false =>
        rw [hdeleted] at hf
        cases hf

/-- The wait is for a time that is still to come, and not positive. -/
theorem rests_waitForNodeRebooted (h : w.Running node) (hh : Handled w node)
    (hphase : getPhase w.snr.current = .preRebootCompleted)
    (hidle : (waitForNodeRebootedPlan w).Idle w.now) : Rests w := by
  obtain ⟨hq, -, hp⟩ := hidle
  unfold waitForNodeRebootedPlan at hq hp
  cases ht : w.snr.current.status.timeAssumedRebooted with
  | none =>
    rw [ht] at hq
    cases hq
  | some t =>
    rw [ht] at hq hp
    dsimp only at hq hp
    by_cases hcome : t ≤ w.now
    · rw [if_pos hcome] at hp
      cases hp
    · rw [if_neg hcome, Plan.requeue_hold] at hq
      exact .tooFar h hh hphase ht (Int.not_le.mp hcome) (requeued_wait hq)

/-- A phase handler after which nothing happens on its own. -/
theorem rests_phase {removal : Plan} (h : w.Running node) (hh : Handled w node)
    (hremoval : ¬ removal.Idle w.now) (hidle : (phasePlan w node removal).Idle w.now) :
    Rests w := by
  unfold phasePlan at hidle
  cases hphase : getPhase w.snr.current with
  | fencingStarted =>
    rw [hphase] at hidle
    exact rests_prepareReboot h hh hphase hidle
  | preRebootCompleted =>
    rw [hphase] at hidle
    exact rests_waitForNodeRebooted h hh hphase hidle
  | rebootCompleted =>
    rw [hphase] at hidle
    exact absurd hidle hremoval
  | fencingCompleted =>
    rw [hphase] at hidle
    refine .completed h hh hphase ?_
    cases hdeleted : w.snr.current.deletionTimestamp.isSome with
    | false => exact .inl (by simpa using hdeleted)
    | true =>
      dsimp only at hidle
      rw [hdeleted] at hidle
      exact .inr (finalizer_absent hidle.finalizes)
  | unknown =>
    rw [hphase] at hidle
    exact nomatch hidle.requeue

theorem rests_running (h : w.Running node) (hidle : (remediateNodePlan w node).Idle w.now) :
    Rests w := by
  by_cases hexcluded : node.labels.lookup excludeRemediationLabel = some "true"
  · exact .excluded h hexcluded
  · by_cases hh : Handled w node
    · unfold remediateNodePlan at hidle
      rw [if_neg hexcluded] at hidle
      rcases hh.2 with hstrategy | hstrategy
      · rw [hstrategy] at hidle
        exact rests_phase h hh (fun hremoval => Option.some_ne_none _ hremoval.phase) hidle
      · rw [hstrategy] at hidle
        exact rests_phase h hh useOutOfServiceTaint_busy hidle
    · have hstrategy := not_or.mp fun hknown => hh ⟨hexcluded, hknown⟩
      exact .unsupported h hstrategy.1 hstrategy.2

theorem rests_stopped (hc : configured w = true) (hs : isStoppedByNHC w.snr.current = true)
    (hidle : (stoppedByNHCPlan w).Idle w.now) : Rests w := by
  refine .stopped hc hs ?_
  unfold stoppedByNHCPlan at hidle
  cases hdeleted : w.snr.current.deletionTimestamp.isSome with
  | false => exact .inl (by simpa using hdeleted)
  | true =>
    right
    rw [hdeleted] at hidle
    cases htarget : targetNode w w.snr.current with
    | ok node =>
      rw [htarget] at hidle
      exact ⟨finalizer_absent hidle.finalizes, by simp⟩
    | error e =>
      rw [htarget] at hidle
      dsimp only at hidle
      cases hmissing : e.isNotFound with
      | false =>
        rw [hmissing] at hidle
        exact nomatch hidle.requeue
      | true =>
        rw [hmissing] at hidle
        exact ⟨finalizer_absent hidle.finalizes, fun _ he => Except.error.inj he ▸ hmissing⟩

theorem rests_of_idle (hidle : w.plan.Idle w.now) : Rests w := by
  cases hconfigured : configured w with
  | false =>
    unfold Cluster.plan at hidle
    cases hns : w.deploymentNamespace.isNone with
    | true =>
      rw [hns] at hidle
      exact nomatch hidle.requeue
    | false => exact .disabled (by simpa [Option.isNone_eq_false_iff] using hns) hconfigured
  | true =>
    have hns := deploymentNamespace_of_configured hconfigured
    cases hstopped : isStoppedByNHC w.snr.current with
    | true =>
      unfold Cluster.plan at hidle
      rw [hns, hconfigured, hstopped] at hidle
      exact rests_stopped hconfigured hstopped hidle
    | false =>
      cases htarget : targetNode w w.snr.current with
      | ok node =>
        have hrunning : w.Running node := ⟨hconfigured, hstopped, htarget⟩
        rw [hrunning.plan] at hidle
        exact rests_running hrunning ⟨hidle.requeue, hidle.finalizes, hidle.phase⟩
      | error e =>
        unfold Cluster.plan remediatePlan at hidle
        rw [hns, hconfigured, hstopped, htarget] at hidle
        exact nomatch hidle.requeue

/-- A plan that leaves the finalizers alone, and after which the request is forgotten. -/
def Plan.Forgets (plan : Plan) (now : Time) : Prop :=
  plan.requeue now = .forget ∧ plan.finalizes = false

theorem forgets_handled (h : w.Running node) (hh : Handled w node)
    (hphase : ∀ removal, (phasePlan w node removal).Forgets w.now) : w.plan.Forgets w.now := by
  rw [h.plan]
  show (remediateNodePlan w node).Forgets w.now
  unfold remediateNodePlan
  rw [if_neg hh.1]
  rcases hh.2 with hstrategy | hstrategy
  · rw [hstrategy]
    exact hphase _
  · rw [hstrategy]
    exact hphase _

theorem forgets_stopped (hconfigured : configured w = true)
    (hstopped : isStoppedByNHC w.snr.current = true)
    (hrests : w.snr.current.deletionTimestamp = none ∨
      (containsFinalizer w.snr.current snrFinalizer = false ∧
        ∀ e, targetNode w w.snr.current = .error e → e.isNotFound = true)) :
    w.plan.Forgets w.now := by
  unfold Cluster.plan stoppedByNHCPlan recoverNodePlan
  rw [deploymentNamespace_of_configured hconfigured, hconfigured, hstopped]
  rcases hrests with hlive | ⟨hfin, hmissing⟩
  · rw [hlive]
    exact ⟨rfl, rfl⟩
  · rw [hfin]
    cases w.snr.current.deletionTimestamp.isSome with
    | false => exact ⟨rfl, rfl⟩
    | true =>
      cases htarget : targetNode w w.snr.current with
      | ok node => exact ⟨rfl, rfl⟩
      | error e =>
        dsimp only
        rw [hmissing e htarget]
        exact ⟨rfl, rfl⟩

theorem forgets_of_rests (h : Rests w) : w.plan.Forgets w.now := by
  cases h with
  | disabled hns hconfigured =>
    unfold Cluster.plan
    rw [hconfigured, Option.isNone_eq_false_iff.mpr hns]
    exact ⟨rfl, rfl⟩
  | stopped hconfigured hstopped hrests => exact forgets_stopped hconfigured hstopped hrests
  | @excluded node hrunning hexcluded =>
    rw [hrunning.plan]
    show (remediateNodePlan w node).Forgets w.now
    unfold remediateNodePlan
    rw [if_pos hexcluded]
    exact ⟨rfl, rfl⟩
  | @unsupported node hrunning hdeletion htaint =>
    rw [hrunning.plan]
    show (remediateNodePlan w node).Forgets w.now
    unfold remediateNodePlan
    split
    · exact ⟨rfl, rfl⟩
    · cases hstrategy : w.runtimeStrategy with
      | resourceDeletion => exact absurd hstrategy hdeletion
      | outOfServiceTaint => exact absurd hstrategy htaint
      | automatic => exact ⟨rfl, rfl⟩
      | unsupported _ => exact ⟨rfl, rfl⟩
  | unprepared hrunning hh hphase hcapable hfin hdeleted =>
    refine forgets_handled hrunning hh fun removal => ?_
    unfold phasePlan prepareRebootPlan
    rw [hphase]
    dsimp only
    rw [hcapable, hfin, hdeleted]
    exact ⟨rfl, rfl⟩
  | tooFar hrunning hh hphase ht hlt hwait =>
    refine forgets_handled hrunning hh fun removal => ?_
    unfold phasePlan waitForNodeRebootedPlan
    rw [hphase]
    dsimp only
    rw [ht]
    dsimp only
    rw [if_neg (Int.not_le.mpr hlt)]
    refine ⟨?_, rfl⟩
    rw [Plan.requeue_hold]
    exact if_neg (Int64.not_lt.mpr hwait)
  | completed hrunning hh hphase hrests =>
    refine forgets_handled hrunning hh fun removal => ?_
    unfold phasePlan recoverNodePlan
    rw [hphase]
    dsimp only
    rcases hrests with hlive | hfin
    · rw [hlive]
      exact ⟨rfl, rfl⟩
    · rw [hfin]
      split
      · exact ⟨rfl, rfl⟩
      · exact ⟨rfl, rfl⟩

/-- A phase that is assigned is stored, or an earlier error is cleared: either way the
object changes. -/
theorem changed_of_phase (hw : w.Regular) {next : String} (hp : w.plan.phase = some next) :
    (w.reconciled r).snr.current ≠ w.snr.current := by
  obtain ⟨hrec, hwait, hf, hnext⟩ := (sound_plan w).advance next hp
  intro hsame
  rcases phase_advanced (r := r) hw ⟨hp, hf, hwait, hrec⟩ with hstored | ⟨-, herror⟩
  · rw [hsame] at hstored
    exact hnext hstored
  · have hcleared := lastError_reconciled (r := r) hw hf
    rw [hsame, hrec] at hcleared
    exact herror hcleared

theorem rests_of_unchanged (hw : w.Regular) (hq : w.requeued r = .forget)
    (hsame : (w.reconciled r).snr.current = w.snr.current) : Rests w := by
  have hf : w.plan.finalizes = false := by
    by_contra hf
    rw [Bool.not_eq_false] at hf
    exact finalizers_reconciled (r := r) hw.present hf (congrArg SNR.finalizers hsame)
  have hp : w.plan.phase = none := by
    cases hp : w.plan.phase with
    | none => rfl
    | some next => exact absurd hsame (changed_of_phase hw hp)
  rw [requeue_reconciled r hw hf] at hq
  exact rests_of_idle ⟨hq, hf, hp⟩

end Rest

/-- No wake-up is lost: a reconcile after which the request is neither requeued nor
added by an event on the object has found one of the states that are listed. In all of
them the request is forgotten, whatever becomes of the configuration and the node. -/
theorem manager_rests (r : Reconciler) {w : Cluster} (hw : w.Regular) :
    (w.requeued r = .forget → (w.reconciled r).snr.current = w.snr.current → Rests w) ∧
      (Rests w → w.requeued r = .forget) := by
  refine ⟨rests_of_unchanged hw, fun h => ?_⟩
  obtain ⟨hq, hf⟩ := forgets_of_rests h
  exact (requeue_reconciled r hw hf).trans hq

/-- A SelfNodeRemediation that is created before the configuration. -/
def unconfiguredCluster : Cluster := { smallCluster with config := fun _ => none }

/-- The first reconcile sets the condition, and the second one changes nothing. -/
theorem manager_rests_unconfigured :
    Rests unconfiguredCluster ∧ unconfiguredCluster.requeued smallManager = .forget ∧
      (unconfiguredCluster.reconciled smallManager).snr.current ≠ unconfiguredCluster.snr.current ∧
      Rests (unconfiguredCluster.reconciled smallManager) := by
  have hregular : unconfiguredCluster.Regular :=
    ⟨rfl, by simp [unconfiguredCluster, smallCluster, smallSNR], by decide, named_single smallNode⟩
  have hrests : Rests unconfiguredCluster := .disabled rfl rfl
  refine ⟨hrests, (manager_rests smallManager hregular).2 hrests, by decide +kernel, ?_⟩
  exact (manager_rests smallManager (regular_reconciled hregular rfl)).1 (by decide +kernel)
    (by decide +kernel)

end SelfNodeRemediation
