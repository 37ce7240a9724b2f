import Mathlib.Tactic.Ring
import SelfNodeRemediation.Config
import SelfNodeRemediation.Peers

/-!
# The reboot-time calculator

`internal/reboot/calculator.go`: how long the manager waits before it assumes
that the unhealthy node has rebooted. The worker nodes that the calculator
lists are an argument here.

* `peerRequestsDuration_ok`: the peer budget of a configuration that has its
  times is the longer of the 64-bit product and the time without peers.
* `calculateMinimumRebootDuration_ok`: when the workers can be listed, the
  minimum is the sum of its three parts.
* `getRebootDuration_ok`: a configured safe time never lowers the minimum.
-/

namespace SelfNodeRemediation

/-! ## 1. Exact durations -/

/-- A 64-bit sum that does not overflow is the sum. -/
theorem toInt_add_of_lt {a b : Duration} (h₁ : -2 ^ 63 ≤ a.toInt + b.toInt)
    (h₂ : a.toInt + b.toInt < 2 ^ 63) : (a + b).toInt = a.toInt + b.toInt := by
  rw [Int64.toInt_add]
  apply Int.bmod_eq_of_le <;> omega

/-- A number of equal 64-bit durations that does not overflow is the product,
even when it is computed as the 64-bit product with a 64-bit sum. -/
theorem toInt_mul_add_of_lt {n : Nat} {a b : Duration} (h₀ : 0 ≤ a.toInt + b.toInt)
    (h : n * (a.toInt + b.toInt) < 2 ^ 63) :
    (Int64.ofNat n * (a + b)).toInt = n * (a.toInt + b.toInt) := by
  have hn : 0 ≤ (n : Int) * (a.toInt + b.toInt) := Int.mul_nonneg (Int.natCast_nonneg n) h₀
  have hmod : (Int64.ofNat n * (a + b)).toInt = (n * (a.toInt + b.toInt)).bmod (2 ^ 64) := by
    rw [Int64.toInt_mul, Int64.toInt_add, Int64.toInt_ofNat', Int.mul_bmod_bmod]
    exact Int.bmod_mul_bmod
  rw [hmod]
  apply Int.bmod_eq_of_le <;> omega

/-! ## 2. The calculator -/

/-- `WorkerRole`, the label of a worker node. -/
def workerRole : String := "node-role.kubernetes.io/worker"

/-- `WatchdogTimeoutSecondsAnnotation` -/
def watchdogTimeoutSecondsAnnotation : String := "self-node-remediation.medik8s.io/watchdog-timeout"

/-- `reboot.MaxTimeForNoPeersResponse`, used when the field is unset. -/
def defaultMaxTimeForNoPeersResponse : Duration := 30 * second

/-- The time a node may go without an answer of its peers; the same default is
used for the agents and in the calculator. -/
def SelfNodeRemediationConfigSpec.timeForNoPeersResponse
    (spec : SelfNodeRemediationConfigSpec) : Duration :=
  spec.maxTimeForNoPeersResponse.getD defaultMaxTimeForNoPeersResponse

/-- `GetWatchdogTimeout`. The error is only logged by its caller. -/
def getWatchdogTimeout (node : Node) : Option Duration :=
  match atoi ((node.annotations.lookup watchdogTimeoutSecondsAnnotation).getD "") with
  | some timeout => some (timeout * second)
  | none => none

/-- `errors.Wrap` on a result. -/
def wrapErr {α : Type} (msg : String) : Except GoErr α → Except GoErr α
  | .ok a => .ok a
  | .error e => .error (e.wrap msg)

/-- `calcNumOfBatches`, given the listed worker nodes. -/
def calcNumOfBatches (nodes : Except GoErr (List Node)) : Except GoErr Nat := do
  let items ← wrapErr "failed to list worker nodes" nodes
  return getNrOfBatches items.length

/-- The time to detect the API connectivity issue. -/
def apiCheckDuration (spec : SelfNodeRemediationConfigSpec) : Except GoErr Duration := do
  let apiCheckInterval ← deref spec.apiCheckInterval
  let apiServerTimeout ← deref spec.apiServerTimeout
  return (apiCheckInterval + apiServerTimeout) * spec.maxApiErrorThreshold

/-- The time to confirm the issue with the peers: the number of batches times
the longest peer request, but at least the time without peers. -/
def peerRequestsDuration (spec : SelfNodeRemediationConfigSpec) (numBatches : Nat) :
    Except GoErr Duration := do
  let peerDialTimeout ← deref spec.peerDialTimeout
  let peerRequestTimeout ← deref spec.peerRequestTimeout
  let duration := Int64.ofNat numBatches * (peerDialTimeout + peerRequestTimeout)
  return if duration < spec.timeForNoPeersResponse then spec.timeForNoPeersResponse else duration

/-- The time to trigger the reboot. -/
def rebootDuration (watchdogTimeout : Duration) : Duration := watchdogTimeout + 30 * second

def calculateMinimumRebootDuration (spec : SelfNodeRemediationConfigSpec)
    (watchdogTimeout : Duration) (nodes : Except GoErr (List Node)) : Except GoErr Duration := do
  let apiCheck ← apiCheckDuration spec
  let numBatches ← wrapErr "failed to calculate number of batches" (calcNumOfBatches nodes)
  let peerRequests ← peerRequestsDuration spec numBatches
  return apiCheck + peerRequests + rebootDuration watchdogTimeout

/-- The part of `GetRebootDuration` after the check that a configuration is set. -/
def getRebootDuration (spec : SelfNodeRemediationConfigSpec) (node : Node)
    (nodes : Except GoErr (List Node)) : Except GoErr Duration := do
  -- 60s is the maximum default watchdog timeout
  let watchdogTimeout := (getWatchdogTimeout node).getD (60 * second)
  let minimum ← wrapErr "failed to calculate minimum reboot duration"
    (calculateMinimumRebootDuration spec watchdogTimeout nodes)
  match spec.safeTimeToAssumeNodeRebootedSeconds with
  | none => return minimum
  | some seconds =>
    -- in case users specified a lower reboot time, ignore it
    return if seconds * second < minimum then minimum else seconds * second

/-! ## 3. What it computes for a configuration with its times -/

section
variable {spec : SelfNodeRemediationConfigSpec} {t : Times}

theorem peerRequestsDuration_ok (h : spec.HasTimes t) (numBatches : Nat) :
    peerRequestsDuration spec numBatches = .ok
      (if Int64.ofNat numBatches * (t.peerDialTimeout + t.peerRequestTimeout) <
          spec.timeForNoPeersResponse
        then spec.timeForNoPeersResponse
        else Int64.ofNat numBatches * (t.peerDialTimeout + t.peerRequestTimeout)) := by
  unfold peerRequestsDuration
  rw [h.peerDialTimeout, h.peerRequestTimeout]
  rfl

theorem apiCheckDuration_ok (h : spec.HasTimes t) :
    apiCheckDuration spec =
      .ok ((t.apiCheckInterval + t.apiServerTimeout) * spec.maxApiErrorThreshold) := by
  unfold apiCheckDuration
  rw [h.apiCheckInterval, h.apiServerTimeout]
  rfl

theorem calculateMinimumRebootDuration_ok (h : spec.HasTimes t) (watchdogTimeout : Duration)
    (nodes : List Node) :
    ∃ apiCheck peerRequests,
      apiCheckDuration spec = .ok apiCheck ∧
      peerRequestsDuration spec (getNrOfBatches nodes.length) = .ok peerRequests ∧
      calculateMinimumRebootDuration spec watchdogTimeout (.ok nodes) =
        .ok (apiCheck + peerRequests + rebootDuration watchdogTimeout) := by
  refine ⟨_, _, apiCheckDuration_ok h, peerRequestsDuration_ok h _, ?_⟩
  unfold calculateMinimumRebootDuration calcNumOfBatches wrapErr
  rw [apiCheckDuration_ok h]
  simp only [bind, Except.bind, pure, Except.pure]
  rw [peerRequestsDuration_ok h]

/-- A configured safe time that is too short is ignored. -/
theorem getRebootDuration_ok (h : spec.HasTimes t) (node : Node) (nodes : List Node) :
    ∃ minimum duration,
      calculateMinimumRebootDuration spec ((getWatchdogTimeout node).getD (60 * second))
        (.ok nodes) = .ok minimum ∧
      getRebootDuration spec node (.ok nodes) = .ok duration ∧ minimum ≤ duration := by
  obtain ⟨apiCheck, peerRequests, _, _, hmin⟩ :=
    calculateMinimumRebootDuration_ok h ((getWatchdogTimeout node).getD (60 * second)) nodes
  unfold getRebootDuration wrapErr
  simp only [hmin]
  cases spec.safeTimeToAssumeNodeRebootedSeconds with
  | none => exact ⟨_, _, rfl, rfl, Int64.le_refl _⟩
  | some seconds =>
    refine ⟨_, _, rfl, rfl, ?_⟩
    split
    · exact Int64.le_refl _
    · next hlt => exact Int64.not_lt.mp hlt

/-- The time of a configuration without a peer answer is positive. -/
theorem timeForNoPeersResponse_pos (h : spec.HasTimes t) :
    1000000000 ≤ spec.timeForNoPeersResponse.toInt := by
  unfold SelfNodeRemediationConfigSpec.timeForNoPeersResponse
  rw [h.maxTimeForNoPeersResponse]
  cases hm : t.maxTimeForNoPeersResponse with
  | none => decide
  | some m => exact Int64.le_iff_toInt_le.mp (t.min_maxTimeForNoPeersResponse m hm)

end

end SelfNodeRemediation
