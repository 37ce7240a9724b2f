import SelfNodeRemediation.PeerBudget

/-!
# The reboot duration as a number

The calculator adds and multiplies 64-bit nanoseconds. This module compares what
it computes with the numbers it is meant to compute, `detectionPart` to
`rebootNumber`. `ComputesExactly` says that every product and sum of the
calculator is the number it stands for, and that the result covers the detection
part and the 30 seconds for the reboot.

* `toInt_add_eq_iff`, `toInt_mul_eq_iff`: a 64-bit operation is exact if and only
  if its result fits.
* `rebootDuration_exact_iff`: the calculator is exact if and only if the numbers
  fit and the annotation of the node is not negative, or a longer safe time makes
  up for it.
* `rebootDuration_wraps`: an annotation of ten thousand million seconds makes the
  product wrap around.
-/

namespace SelfNodeRemediation

/-! ## 1. Exact operations -/

/-- A number that a 64-bit integer can be. -/
def FitsInt64 (x : Int) : Prop := -2 ^ 63 ≤ x ∧ x < 2 ^ 63

theorem bmod_eq_self_iff (x : Int) : x.bmod (2 ^ 64) = x ↔ FitsInt64 x := by
  unfold FitsInt64
  rw [Int.bmod_def]
  constructor
  · intro h
    split at h <;> omega
  · intro h
    split <;> omega

theorem toInt_add_eq_iff (a b : Int64) :
    (a + b).toInt = a.toInt + b.toInt ↔ FitsInt64 (a.toInt + b.toInt) := by
  rw [Int64.toInt_add, bmod_eq_self_iff]

theorem toInt_mul_eq_iff (a b : Int64) :
    (a * b).toInt = a.toInt * b.toInt ↔ FitsInt64 (a.toInt * b.toInt) := by
  rw [Int64.toInt_mul, bmod_eq_self_iff]

/-- The number of batches is small. -/
theorem getNrOfBatches_le (n : Nat) : getNrOfBatches n ≤ 14 := by
  rcases Nat.lt_or_ge 42 n with hn | hn
  · have hb : 4 ≤ (n - 3) / 10 := by omega
    have hleft : (n - 3) % 10 + (n - 3) / 10 - 1 < 4 * ((n - 3) / 10) := by omega
    have := Nat.div_lt_of_lt_mul (Nat.mul_comm 4 ((n - 3) / 10) ▸ hleft)
    rw [getNrOfBatches_large (by omega)]
    unfold leftoverBatches
    omega
  · rw [getNrOfBatches_small hn]
    omega

theorem toInt_numBatches (n : Nat) : (Int64.ofNat (getNrOfBatches n)).toInt = getNrOfBatches n := by
  have := getNrOfBatches_le n
  rw [Int64.toInt_ofNat']
  exact (bmod_eq_self_iff _).mpr ⟨by omega, by omega⟩

/-! ## 2. The numbers -/

/-- One second, in nanoseconds. -/
abbrev nanoseconds : Int := 1000000000

section Numbers

variable (spec : SelfNodeRemediationConfigSpec) (t : Times) (node : Node) (n : Nat)

/-- One API check. -/
def Times.apiCheck : Int := t.apiCheckInterval.toInt + t.apiServerTimeout.toInt

/-- One peer request. -/
def Times.peerRequest : Int := t.peerDialTimeout.toInt + t.peerRequestTimeout.toInt

/-- The detection part: the API checks, and the peer requests of `n` workers. -/
def detectionPart : Int :=
  t.apiCheck * spec.maxApiErrorThreshold.toInt +
    max (getNrOfBatches n * t.peerRequest) spec.timeForNoPeersResponse.toInt

/-- The watchdog timeout of the annotation, 60s if it does not parse. -/
def watchdogNumber : Int :=
  match atoi ((node.annotations.lookup watchdogTimeoutSecondsAnnotation).getD "") with
  | some timeout => timeout.toInt * nanoseconds
  | none => 60 * nanoseconds

def minimumNumber : Int := detectionPart spec t n + (watchdogNumber node + 30 * nanoseconds)

/-- The safe time, if it is longer than the minimum. -/
def rebootNumber : Int :=
  match spec.safeTimeToAssumeNodeRebootedSeconds with
  | some seconds => max (seconds.toInt * nanoseconds) (minimumNumber spec t node n)
  | none => minimumNumber spec t node n

/-- Every product and sum is the number it stands for, and the duration covers the
detection part and 30s. -/
structure ComputesExactly (nodes : List Node) : Prop where
  apiCheck : (t.apiCheckInterval + t.apiServerTimeout).toInt = t.apiCheck
  apiChecks : ∃ apiCheck, apiCheckDuration spec = .ok apiCheck ∧
    apiCheck.toInt = t.apiCheck * spec.maxApiErrorThreshold.toInt
  peerRequest : (t.peerDialTimeout + t.peerRequestTimeout).toInt = t.peerRequest
  peerRequests : (Int64.ofNat (getNrOfBatches nodes.length) *
    (t.peerDialTimeout + t.peerRequestTimeout)).toInt =
      getNrOfBatches nodes.length * t.peerRequest
  detection : ∃ apiCheck peerRequests, apiCheckDuration spec = .ok apiCheck ∧
    peerRequestsDuration spec (getNrOfBatches nodes.length) = .ok peerRequests ∧
    (apiCheck + peerRequests).toInt = detectionPart spec t nodes.length
  watchdog : ((getWatchdogTimeout node).getD (60 * second)).toInt = watchdogNumber node
  reboot : (rebootDuration ((getWatchdogTimeout node).getD (60 * second))).toInt =
    watchdogNumber node + 30 * nanoseconds
  minimum : ∃ minimum, calculateMinimumRebootDuration spec
    ((getWatchdogTimeout node).getD (60 * second)) (.ok nodes) = .ok minimum ∧
    minimum.toInt = minimumNumber spec t node nodes.length
  safe : ∀ seconds ∈ spec.safeTimeToAssumeNodeRebootedSeconds,
    (seconds * second).toInt = seconds.toInt * nanoseconds
  duration : ∃ duration, getRebootDuration spec node (.ok nodes) = .ok duration ∧
    duration.toInt = rebootNumber spec t node nodes.length ∧
    detectionPart spec t nodes.length + 30 * nanoseconds ≤ duration.toInt

/-- The numbers fit, and no negative annotation shortens the wait. -/
structure NumbersFit : Prop where
  peerRequest : t.peerRequest < 2 ^ 63
  detection : detectionPart spec t n < 2 ^ 63
  watchdog : -2 ^ 63 ≤ watchdogNumber node
  minimum : minimumNumber spec t node n < 2 ^ 63
  safe : ∀ seconds ∈ spec.safeTimeToAssumeNodeRebootedSeconds,
    FitsInt64 (seconds.toInt * nanoseconds)
  covered : 0 ≤ watchdogNumber node ∨ ∃ seconds ∈ spec.safeTimeToAssumeNodeRebootedSeconds,
    detectionPart spec t n + 30 * nanoseconds ≤ seconds.toInt * nanoseconds

end Numbers

/-! ## 3. When the calculator is exact -/

section Exact

variable {spec : SelfNodeRemediationConfigSpec} {t : Times} {node : Node}

theorem Times.apiCheck_pos (t : Times) : 0 < t.apiCheck := by
  have hI : 1000000000 ≤ t.apiCheckInterval.toInt :=
    Int64.le_iff_toInt_le.mp t.min_apiCheckInterval
  have hS := toInt_pos_of_min t.min_apiServerTimeout
  unfold Times.apiCheck
  omega

theorem Times.peerRequest_pos (t : Times) : 0 < t.peerRequest := by
  have hD := toInt_pos_of_min t.min_peerDialTimeout
  have hR := toInt_pos_of_min t.min_peerRequestTimeout
  unfold Times.peerRequest
  omega

theorem second_toInt : second.toInt = nanoseconds := by decide

theorem seconds_eq_iff (seconds : Int64) :
    (seconds * second).toInt = seconds.toInt * nanoseconds ↔
      FitsInt64 (seconds.toInt * nanoseconds) := by
  have h := toInt_mul_eq_iff seconds second
  rw [second_toInt] at h
  exact h

theorem watchdog_eq_iff : ((getWatchdogTimeout node).getD (60 * second)).toInt =
    watchdogNumber node ↔ FitsInt64 (watchdogNumber node) := by
  unfold getWatchdogTimeout watchdogNumber
  cases atoi ((node.annotations.lookup watchdogTimeoutSecondsAnnotation).getD "") with
  | none => exact ⟨fun _ => ⟨by decide, by decide⟩, fun _ => by decide⟩
  | some timeout => exact seconds_eq_iff timeout

theorem thirty_toInt : (30 * second : Duration).toInt = 30 * nanoseconds := by decide

/-- The detection part is positive, and so are its summands. -/
theorem detectionPart_bounds (ht : spec.HasTimes t) (hT : 1 ≤ spec.maxApiErrorThreshold.toInt)
    (n : Nat) :
    t.apiCheck ≤ t.apiCheck * spec.maxApiErrorThreshold.toInt ∧
      t.apiCheck * spec.maxApiErrorThreshold.toInt < detectionPart spec t n ∧
      0 ≤ (getNrOfBatches n : Int) * t.peerRequest ∧
      getNrOfBatches n * t.peerRequest < detectionPart spec t n := by
  have hcheck := t.apiCheck_pos
  have hchecks : t.apiCheck ≤ t.apiCheck * spec.maxApiErrorThreshold.toInt := by
    simpa using Int.mul_le_mul_of_nonneg_left hT hcheck.le
  have hrequests : 0 ≤ (getNrOfBatches n : Int) * t.peerRequest :=
    Int.mul_nonneg (Int.natCast_nonneg _) t.peerRequest_pos.le
  have hnoPeers := timeForNoPeersResponse_pos ht
  unfold detectionPart
  omega

/-- The detection part is computed exactly if it fits. -/
theorem detection_exact (ht : spec.HasTimes t) (hT : 1 ≤ spec.maxApiErrorThreshold.toInt)
    {n : Nat} (hfits : detectionPart spec t n < 2 ^ 63) :
    (t.apiCheckInterval + t.apiServerTimeout).toInt = t.apiCheck ∧
      ∃ apiCheck peerRequests, apiCheckDuration spec = .ok apiCheck ∧
        apiCheck.toInt = t.apiCheck * spec.maxApiErrorThreshold.toInt ∧
        peerRequestsDuration spec (getNrOfBatches n) = .ok peerRequests ∧
        (apiCheck + peerRequests).toInt = detectionPart spec t n := by
  have hpos := t.apiCheck_pos
  obtain ⟨hcheck, hchecks, -, hrequests⟩ := detectionPart_bounds ht hT n
  have hone : (t.apiCheckInterval + t.apiServerTimeout).toInt = t.apiCheck :=
    (toInt_add_eq_iff _ _).mpr ⟨le_trans (by decide) hpos.le,
      lt_of_le_of_lt hcheck (lt_trans hchecks hfits)⟩
  have hall : ((t.apiCheckInterval + t.apiServerTimeout) * spec.maxApiErrorThreshold).toInt =
      t.apiCheck * spec.maxApiErrorThreshold.toInt := by
    rw [← hone]
    refine (toInt_mul_eq_iff _ _).mpr ?_
    rw [hone]
    exact ⟨by omega, by omega⟩
  obtain ⟨peerRequests, hok, -, hmax⟩ := budget_bounds ht (getNrOfBatches n)
  have hpeers : peerRequests.toInt =
      max (getNrOfBatches n * t.peerRequest) spec.timeForNoPeersResponse.toInt :=
    hmax (lt_trans hrequests hfits)
  have hnoPeers := timeForNoPeersResponse_pos ht
  refine ⟨hone, _, peerRequests, apiCheckDuration_ok ht, hall, hok, ?_⟩
  refine ((toInt_add_eq_iff _ _).mpr ?_).trans (by rw [hall, hpeers]; rfl)
  rw [hall, hpeers]
  exact ⟨by omega, hfits⟩

/-- The safe time is used if it is longer. -/
theorem getRebootDuration_eq {nodes : List Node} {minimum : Duration}
    (h : calculateMinimumRebootDuration spec ((getWatchdogTimeout node).getD (60 * second))
      (.ok nodes) = .ok minimum) :
    getRebootDuration spec node (.ok nodes) = .ok
      (spec.safeTimeToAssumeNodeRebootedSeconds.elim minimum fun seconds =>
        if seconds * second < minimum then minimum else seconds * second) := by
  unfold getRebootDuration wrapErr
  simp only [h]
  cases spec.safeTimeToAssumeNodeRebootedSeconds with
  | none => rfl
  | some seconds => rfl

theorem toInt_if_lt (a b : Duration) : (if a < b then b else a).toInt = max a.toInt b.toInt := by
  split
  · next h => exact (max_eq_right (Int64.lt_iff_toInt_lt.mp h).le).symm
  · next h => exact (max_eq_left (Int64.le_iff_toInt_le.mp (Int64.not_lt.mp h))).symm

theorem duration_exact {minimum : Duration} {n : Nat}
    (hminimum : minimum.toInt = minimumNumber spec t node n)
    (hsafe : ∀ seconds ∈ spec.safeTimeToAssumeNodeRebootedSeconds,
      FitsInt64 (seconds.toInt * nanoseconds)) :
    (spec.safeTimeToAssumeNodeRebootedSeconds.elim minimum fun seconds =>
      if seconds * second < minimum then minimum else seconds * second).toInt =
        rebootNumber spec t node n := by
  unfold rebootNumber
  cases hs : spec.safeTimeToAssumeNodeRebootedSeconds with
  | none => exact hminimum
  | some seconds =>
    have hseconds := (seconds_eq_iff seconds).mpr (hsafe seconds hs)
    exact (toInt_if_lt _ _).trans (congrArg₂ max hseconds hminimum)

/-- The result covers the detection part and 30s unless a negative annotation
lowers it. -/
theorem covered_iff (n : Nat) :
    detectionPart spec t n + 30 * nanoseconds ≤ rebootNumber spec t node n ↔
      0 ≤ watchdogNumber node ∨ ∃ seconds ∈ spec.safeTimeToAssumeNodeRebootedSeconds,
        detectionPart spec t n + 30 * nanoseconds ≤ seconds.toInt * nanoseconds := by
  have hminimum : detectionPart spec t n + 30 * nanoseconds ≤ minimumNumber spec t node n ↔
      0 ≤ watchdogNumber node := by
    unfold minimumNumber
    omega
  unfold rebootNumber
  cases spec.safeTimeToAssumeNodeRebootedSeconds with
  | none => simp [hminimum]
  | some seconds => simp [hminimum, or_comm]

theorem computesExactly_of_fit (ht : spec.HasTimes t)
    (hT : 1 ≤ spec.maxApiErrorThreshold.toInt) {nodes : List Node}
    (h : NumbersFit spec t node nodes.length) : ComputesExactly spec t node nodes := by
  obtain ⟨hone, apiCheck, peerRequests, hok, hchecks, hpeers, hdetection⟩ :=
    detection_exact ht hT h.detection
  obtain ⟨hcheck, hchecksLt, hrequests, hrequestsLt⟩ := detectionPart_bounds ht hT nodes.length
  have hcheckPos := t.apiCheck_pos
  have hdetectionLt := h.detection
  have hwatchdogLe := h.watchdog
  have hminimumLt := h.minimum
  have hnanoseconds : nanoseconds = 1000000000 := rfl
  unfold minimumNumber at hminimumLt
  have hminimumLe : -2 ^ 63 ≤
      detectionPart spec t nodes.length + (watchdogNumber node + 30 * nanoseconds) := by omega
  have hrequest : (t.peerDialTimeout + t.peerRequestTimeout).toInt = t.peerRequest :=
    (toInt_add_eq_iff _ _).mpr ⟨le_trans (by decide) t.peerRequest_pos.le, h.peerRequest⟩
  have hallRequests : (Int64.ofNat (getNrOfBatches nodes.length) *
      (t.peerDialTimeout + t.peerRequestTimeout)).toInt =
        getNrOfBatches nodes.length * t.peerRequest := by
    have hmul := toInt_mul_eq_iff (Int64.ofNat (getNrOfBatches nodes.length))
      (t.peerDialTimeout + t.peerRequestTimeout)
    rw [toInt_numBatches, hrequest] at hmul
    exact hmul.mpr ⟨by omega, by omega⟩
  have hwatchdog : ((getWatchdogTimeout node).getD (60 * second)).toInt = watchdogNumber node :=
    watchdog_eq_iff.mpr ⟨h.watchdog, by omega⟩
  have hreboot : (rebootDuration ((getWatchdogTimeout node).getD (60 * second))).toInt =
      watchdogNumber node + 30 * nanoseconds := by
    have hadd := toInt_add_eq_iff ((getWatchdogTimeout node).getD (60 * second)) (30 * second)
    rw [hwatchdog, thirty_toInt] at hadd
    exact hadd.mpr ⟨by omega, by omega⟩
  obtain ⟨apiCheck', peerRequests', hok', hpeers', hminimum⟩ :=
    calculateMinimumRebootDuration_ok ht ((getWatchdogTimeout node).getD (60 * second)) nodes
  obtain rfl : apiCheck = apiCheck' := Except.ok.inj (hok.symm.trans hok')
  obtain rfl : peerRequests = peerRequests' := Except.ok.inj (hpeers.symm.trans hpeers')
  have hsum : (apiCheck + peerRequests +
      rebootDuration ((getWatchdogTimeout node).getD (60 * second))).toInt =
        minimumNumber spec t node nodes.length := by
    have hadd := toInt_add_eq_iff (apiCheck + peerRequests)
      (rebootDuration ((getWatchdogTimeout node).getD (60 * second)))
    rw [hdetection, hreboot] at hadd
    exact hadd.mpr ⟨hminimumLe, hminimumLt⟩
  exact {
    apiCheck := hone
    apiChecks := ⟨apiCheck, hok, hchecks⟩
    peerRequest := hrequest
    peerRequests := hallRequests
    detection := ⟨apiCheck, peerRequests, hok, hpeers, hdetection⟩
    watchdog := hwatchdog
    reboot := hreboot
    minimum := ⟨_, hminimum, hsum⟩
    safe := fun seconds hs => (seconds_eq_iff seconds).mpr (h.safe seconds hs)
    duration := by
      have hexact := duration_exact hsum h.safe
      refine ⟨_, getRebootDuration_eq hminimum, hexact, ?_⟩
      rw [hexact]
      exact (covered_iff nodes.length).mpr h.covered }

theorem ComputesExactly.fit {nodes : List Node} (h : ComputesExactly spec t node nodes) :
    NumbersFit spec t node nodes.length where
  peerRequest := h.peerRequest ▸ Int64.toInt_lt _
  detection := by
    obtain ⟨_, _, -, -, heq⟩ := h.detection
    exact heq ▸ Int64.toInt_lt _
  watchdog := (watchdog_eq_iff.mp h.watchdog).1
  minimum := by
    obtain ⟨_, -, heq⟩ := h.minimum
    exact heq ▸ Int64.toInt_lt _
  safe := fun seconds hs => (seconds_eq_iff seconds).mp (h.safe seconds hs)
  covered := by
    obtain ⟨duration, -, heq, hcovers⟩ := h.duration
    exact (covered_iff nodes.length).mp (heq ▸ hcovers)

end Exact

/-- Exactly when the calculator computes what it is meant to compute, for a
configuration that the webhook accepts. -/
theorem rebootDuration_exact_iff {snrConfig : SelfNodeRemediationConfig}
    (h : Accepted snrConfig) (hT : 1 ≤ snrConfig.spec.maxApiErrorThreshold.toInt) (node : Node)
    (nodes : List Node) :
    ∃ t, snrConfig.spec.HasTimes t ∧ (ComputesExactly snrConfig.spec t node nodes ↔
      NumbersFit snrConfig.spec t node nodes.length) := by
  obtain ⟨t, ht⟩ := (validateTimes_none_iff snrConfig).mp (validateTimes_of_accepted h)
  exact ⟨t, ht, ComputesExactly.fit, computesExactly_of_fit ht hT⟩

/-- The times of the default configuration. -/
theorem defaultTimes_eq {t : Times} (ht : defaultSpec.HasTimes t) :
    t.apiCheck = 20 * nanoseconds ∧ t.peerRequest = 12 * nanoseconds := by
  have hI : 15 * second = t.apiCheckInterval := Option.some.inj ht.apiCheckInterval
  have hS : 5 * second = t.apiServerTimeout := Option.some.inj ht.apiServerTimeout
  have hD : 5 * second = t.peerDialTimeout := Option.some.inj ht.peerDialTimeout
  have hR : 7 * second = t.peerRequestTimeout := Option.some.inj ht.peerRequestTimeout
  unfold Times.apiCheck Times.peerRequest
  rw [← hI, ← hS, ← hD, ← hR]
  decide

theorem default_detectionPart {t : Times} (ht : defaultSpec.HasTimes t) :
    detectionPart defaultSpec t 3 = 90 * nanoseconds := by
  obtain ⟨hcheck, hrequest⟩ := defaultTimes_eq ht
  have hbatches : getNrOfBatches 3 = 1 := getNrOfBatches_small (by decide)
  unfold detectionPart
  rw [hcheck, hrequest, hbatches]
  decide

/-- Three workers without the annotation, with the default configuration. -/
theorem rebootDuration_exact_default :
    Accepted defaultConfig ∧ 1 ≤ defaultConfig.spec.maxApiErrorThreshold.toInt ∧
      ∃ t, defaultConfig.spec.HasTimes t ∧
        ComputesExactly defaultConfig.spec t plainWorker (List.replicate 3 plainWorker) := by
  have hT : 1 ≤ defaultConfig.spec.maxApiErrorThreshold.toInt := by decide
  obtain ⟨t, ht, hiff⟩ := rebootDuration_exact_iff defaultConfig_accepted hT plainWorker
    (List.replicate 3 plainWorker)
  refine ⟨defaultConfig_accepted, hT, t, ht, hiff.mpr ?_⟩
  have hdetection : detectionPart defaultConfig.spec t 3 = 90 * nanoseconds :=
    default_detectionPart ht
  have hwatchdog : watchdogNumber plainWorker = 60 * nanoseconds := by decide
  rw [List.length_replicate]
  refine ⟨?_, ?_, ?_, ?_, nofun, .inl ?_⟩
  · rw [(defaultTimes_eq ht).2]
    decide
  · rw [hdetection]
    decide
  · rw [hwatchdog]
    decide
  · unfold minimumNumber
    rw [hdetection, hwatchdog]
    decide
  · rw [hwatchdog]
    decide

/-- A worker whose annotation is a number that Go parses, of ten thousand million
seconds. -/
def patientWorker : Node :=
  ⟨"worker", [(workerRole, "")], [Prod.mk watchdogTimeoutSecondsAnnotation "10000000000"], []⟩

/-- The watchdog timeout of the annotation wraps around, and the duration that is
returned is negative. -/
theorem rebootDuration_wraps :
    Accepted defaultConfig ∧ 1 ≤ defaultConfig.spec.maxApiErrorThreshold.toInt ∧
      (∀ t, defaultConfig.spec.HasTimes t →
        ¬ ComputesExactly defaultConfig.spec t patientWorker (List.replicate 3 plainWorker)) ∧
      ∃ duration, getRebootDuration defaultConfig.spec patientWorker
        (.ok (List.replicate 3 plainWorker)) = .ok duration ∧ duration.toInt < 0 := by
  refine ⟨defaultConfig_accepted, by decide, ?_, ?_⟩
  · intro t _ h
    have hfits : FitsInt64 (watchdogNumber patientWorker) := watchdog_eq_iff.mp h.watchdog
    exact absurd hfits.2 (by decide)
  · have hbatches : getNrOfBatches 3 = 1 := getNrOfBatches_small (by decide)
    unfold getRebootDuration calculateMinimumRebootDuration calcNumOfBatches wrapErr
    simp only [List.length_replicate, bind, Except.bind, pure, Except.pure, hbatches]
    exact ⟨_, rfl, by decide⟩

end SelfNodeRemediation
