import Mathlib.Tactic.IntervalCases
import SelfNodeRemediation.ApiCheck
import SelfNodeRemediation.Calculator

/-!
# The manager's time budget against the agent's checks

The manager waits for the time its calculator computes and then assumes that
the unhealthy node has rebooted, so this time "must include the time for an
unhealthy node without api-server access to reach the conclusion that it's
unhealthy" (`Calculator`). Here the calculator's parts are compared with what
the agent does with the same configuration.

* `numBatches_cover_iff`: when the calculator's number of batches covers the
  batches of an undecided peer round. `numBatches_short` is a cluster where it
  does not: the number of batches is not monotone.
* `peerRound_covered_iff`: when the peer budget covers one full peer round.
  `peerRound_short`: the agent raises a peer request timeout that is too short,
  the calculator does not.
* `isolation_covered_iff`: when the isolation verdict of a node that is cut off
  falls inside the budget. `isolation_late`: the agent looks at the elapsed time
  only at the end of a check, so the verdict can come one check too late.
-/

namespace SelfNodeRemediation

/-! ## 1. The number of batches -/

/-- An undecided round goes through all the batches of its peers. -/
theorem length_asked_of_undecided {clock : RoundClock} {c : Checker} {peers : List Peer}
    (h : (askPeers peers.length clock 0 c 0 peers).response = none) :
    (askPeers peers.length clock 0 c 0 peers).asked.length = getNrOfBatches peers.length := by
  rw [(askPeers_spec clock c peers).all h, length_timed, Chunks.length_split]
  rfl

/-- The calculator's number of batches for `nodes` worker nodes is at least the
number of batches that an undecided peer round over `peers` goes through. -/
def NumBatchesCover (nodes : List Node) (peers : List Peer) : Prop :=
  ∃ numBatches, calcNumOfBatches (.ok nodes) = .ok numBatches ∧
    getNrOfBatches peers.length ≤ numBatches ∧
    ∀ clock c, (askPeers peers.length clock 0 c 0 peers).response = none →
      (askPeers peers.length clock 0 c 0 peers).asked.length ≤ numBatches

/-- Exactly when the calculator's number of batches is enough for the agent's
peers: at most 33 peers, or the peers beyond ten equal batches need no more
batches than those of the larger cluster do. -/
theorem numBatches_cover_iff {nodes : List Node} {peers : List Peer}
    (h : peers.length ≤ nodes.length) :
    NumBatchesCover nodes peers ↔
      peers.length ≤ 33 ∨ leftoverBatches peers.length ≤ leftoverBatches nodes.length := by
  rw [← getNrOfBatches_le_iff h]
  constructor
  · rintro ⟨numBatches, hcalc, hle, _⟩
    cases hcalc
    exact hle
  · intro hle
    refine ⟨getNrOfBatches nodes.length, rfl, hle, ?_⟩
    intro clock c hnone
    rw [length_asked_of_undecided hnone]
    exact hle

/-- A worker node without a watchdog annotation. -/
def plainWorker : Node := ⟨"worker", [(workerRole, "")], [], []⟩

/-- Three nodes and the two peers of one of them. -/
theorem numBatches_cover_three :
    NumBatchesCover (List.replicate 3 plainWorker) (List.replicate 2 silentPeer) := by
  have hle : (List.replicate 2 silentPeer).length ≤ (List.replicate 3 plainWorker).length := by
    decide
  exact (numBatches_cover_iff hle).mpr (.inl (by decide))

/-- With 43 workers the calculator counts 11 batches, but the 42 peers of the
unhealthy node take 14. -/
theorem numBatches_short :
    (List.replicate 42 silentPeer).length ≤ (List.replicate 43 plainWorker).length ∧
      ¬ NumBatchesCover (List.replicate 43 plainWorker) (List.replicate 42 silentPeer) := by
  refine ⟨by decide, ?_⟩
  rintro ⟨numBatches, hcalc, hle, _⟩
  cases hcalc
  rw [List.length_replicate, List.length_replicate] at hle
  have h42 : getNrOfBatches 42 = 14 := getNrOfBatches_small (by decide)
  have h43 : getNrOfBatches 43 = 11 := getNrOfBatches_large (by decide)
  omega

/-! ## 2. One peer round -/

/-- The configuration of the agents: what the config controller renders into the
DaemonSet and the agent reads from its environment. -/
def agentConfig (spec : SelfNodeRemediationConfigSpec) :
    Except GoErr ApiConnectivityCheckConfig := do
  let checkInterval ← deref spec.apiCheckInterval
  let apiServerTimeout ← deref spec.apiServerTimeout
  let peerDialTimeout ← deref spec.peerDialTimeout
  let peerRequestTimeout ← deref spec.peerRequestTimeout
  return {
    checkInterval := checkInterval
    maxErrorsThreshold := spec.maxApiErrorThreshold
    apiServerTimeout := apiServerTimeout
    peerDialTimeout := peerDialTimeout
    peerRequestTimeout := peerRequestTimeout
    maxTimeForNoPeersResponse := spec.timeForNoPeersResponse
    minPeersForRemediation := spec.minPeersForRemediation }

/-- How long a peer round over `n` peers takes at most, in nanoseconds: every
batch may use up the dial timeout and the effective request timeout. -/
def ApiConnectivityCheckConfig.peerRoundTime (agent : ApiConnectivityCheckConfig) (n : Nat) : Int :=
  getNrOfBatches n *
    (agent.peerDialTimeout.toInt + agent.getEffectivePeerRequestTimeout.toInt)

/-- The peer budget of the calculator for `nodes` covers a peer round over as
many peers. -/
def PeerRoundCovered (spec : SelfNodeRemediationConfigSpec) (nodes : List Node) : Prop :=
  ∃ agent numBatches budget, agentConfig spec = .ok agent ∧
    calcNumOfBatches (.ok nodes) = .ok numBatches ∧
    peerRequestsDuration spec numBatches = .ok budget ∧
    agent.peerRoundTime nodes.length ≤ budget.toInt

section
variable {spec : SelfNodeRemediationConfigSpec} {t : Times}

theorem agentConfig_ok (h : spec.HasTimes t) :
    agentConfig spec = .ok ⟨t.apiCheckInterval, spec.maxApiErrorThreshold, t.apiServerTimeout,
      t.peerDialTimeout, t.peerRequestTimeout, spec.timeForNoPeersResponse,
      spec.minPeersForRemediation⟩ := by
  unfold agentConfig
  rw [h.apiCheckInterval, h.apiServerTimeout, h.peerDialTimeout, h.peerRequestTimeout]
  rfl

/-- A time that meets a positive minimum is positive. -/
theorem toInt_pos_of_min {d : Duration} (h : 10 * millisecond ≤ d) : 10000000 ≤ d.toInt :=
  Int64.le_iff_toInt_le.mp h

/-- The buffer is added without an overflow, unless the sum is negative. -/
theorem toInt_add_minimumBuffer {a : Duration} (h : 10 * millisecond ≤ a) :
    (a.toInt + 2000000000 < 2 ^ 63 ∧ (a + minimumBuffer).toInt = a.toInt + 2000000000) ∨
      (2 ^ 63 ≤ a.toInt + 2000000000 ∧ (a + minimumBuffer).toInt < 0) := by
  have hpos := toInt_pos_of_min h
  have hbuf : minimumBuffer.toInt = 2000000000 := by decide
  have hlt := Int64.toInt_lt a
  rcases lt_or_ge (a.toInt + 2000000000) (2 ^ 63) with hsum | hsum
  · refine .inl ⟨hsum, ?_⟩
    rw [toInt_add_of_lt (by omega) (by omega), hbuf]
  · refine .inr ⟨hsum, ?_⟩
    rw [Int64.toInt_add, hbuf, Int.bmod_def]
    omega

/-- The peer budget is the product of the calculator, unless this overflows,
and at least the time without peers. -/
theorem budget_bounds (h : spec.HasTimes t) (numBatches : Nat) :
    ∃ budget, peerRequestsDuration spec numBatches = .ok budget ∧
      spec.timeForNoPeersResponse.toInt ≤ budget.toInt ∧
      (numBatches * (t.peerDialTimeout.toInt + t.peerRequestTimeout.toInt) < 2 ^ 63 →
        budget.toInt = max (numBatches * (t.peerDialTimeout.toInt + t.peerRequestTimeout.toInt))
          spec.timeForNoPeersResponse.toInt) := by
  have hD := toInt_pos_of_min t.min_peerDialTimeout
  have hR := toInt_pos_of_min t.min_peerRequestTimeout
  refine ⟨_, peerRequestsDuration_ok h numBatches, ?_, ?_⟩
  · split
    · exact Int.le_refl _
    · next hlt => exact Int64.le_iff_toInt_le.mp (Int64.not_lt.mp hlt)
  · intro hfits
    have hprod := toInt_mul_add_of_lt (by omega) hfits
    split
    · next hlt =>
      rw [Int64.lt_iff_toInt_lt, hprod] at hlt
      rw [max_eq_right (by omega)]
    · next hlt =>
      rw [Int64.lt_iff_toInt_lt, hprod] at hlt
      rw [hprod, max_eq_left (by omega)]

end

/-- The webhook does not warn exactly when the agent uses the configured peer
request timeout. -/
theorem validatePeerTimeoutSafety_nil_iff {snrConfig : SelfNodeRemediationConfig} {t : Times}
    (h : snrConfig.spec.HasTimes t) :
    validatePeerTimeoutSafety snrConfig = [] ↔
      ¬ t.peerRequestTimeout < t.apiServerTimeout + minimumBuffer := by
  unfold validatePeerTimeoutSafety
  rw [h.peerRequestTimeout, h.apiServerTimeout]
  dsimp only
  split
  · next hlt => simp [hlt]
  · next hlt => simp [hlt]

/-- The covered round, with the agent's and the calculator's values put in. -/
theorem peerRoundCovered_iff {spec : SelfNodeRemediationConfigSpec} {t : Times}
    {nodes : List Node} {budget : Duration} (ht : spec.HasTimes t)
    (hbudget : peerRequestsDuration spec (getNrOfBatches nodes.length) = .ok budget) :
    PeerRoundCovered spec nodes ↔
      getNrOfBatches nodes.length * (t.peerDialTimeout.toInt +
        (if t.peerRequestTimeout < t.apiServerTimeout + minimumBuffer
          then t.apiServerTimeout + minimumBuffer else t.peerRequestTimeout).toInt) ≤
        budget.toInt := by
  constructor
  · rintro ⟨agent, numBatches, budget', hagent, hnum, hb, hle⟩
    rw [agentConfig_ok ht] at hagent
    cases hagent
    cases hnum
    rw [hbudget] at hb
    cases hb
    exact hle
  · intro hle
    exact ⟨_, _, budget, agentConfig_ok ht, rfl, hbudget, hle⟩

/-- A round of `b` batches that takes longer than the calculator takes it to be,
`short` for `long` a batch, is covered by the time without peers only. -/
theorem raised_covered_iff {b short long noPeers budget : Int} (hb : 0 ≤ b)
    (hlt : short < long) (hnoPeers : 0 ≤ noPeers) (hle : noPeers ≤ budget)
    (hbound : budget < 2 ^ 63)
    (hmax : b * short < 2 ^ 63 → budget = max (b * short) noPeers) :
    b * long ≤ budget ↔ b * long ≤ noPeers := by
  have hmul : b * short + b ≤ b * long := by
    have := Int.mul_le_mul_of_nonneg_left (Int.add_one_le_of_lt hlt) hb
    rwa [Int.mul_add, Int.mul_one] at this
  constructor
  · intro hcovered
    by_contra hgt
    have hbudget := hmax (by omega)
    have hne : b ≠ 0 := by
      rintro rfl
      rw [Int.zero_mul] at hgt
      exact hgt hnoPeers
    omega
  · exact fun h => h.trans hle

/-- What a peer round of `n` peers takes, and the condition under which the
calculator covers it: the product of the calculator does not overflow, and the
agent uses the request timeout of the configuration (the webhook does not warn);
otherwise the round with the raised timeout must fit the time without peers. -/
theorem peerRound_covered_iff {snrConfig : SelfNodeRemediationConfig} (h : Accepted snrConfig)
    (nodes : List Node) :
    ∃ t : Times, snrConfig.spec.HasTimes t ∧
      (PeerRoundCovered snrConfig.spec nodes ↔
        if validatePeerTimeoutSafety snrConfig = [] then
          getNrOfBatches nodes.length *
            (t.peerDialTimeout.toInt + t.peerRequestTimeout.toInt) < 2 ^ 63
        else
          getNrOfBatches nodes.length *
            (t.peerDialTimeout.toInt + (t.apiServerTimeout.toInt + 2000000000)) ≤
            snrConfig.spec.timeForNoPeersResponse.toInt) := by
  obtain ⟨t, ht⟩ := (validateTimes_none_iff snrConfig).mp (validateTimes_of_accepted h)
  refine ⟨t, ht, ?_⟩
  have hD := toInt_pos_of_min t.min_peerDialTimeout
  have hR := toInt_pos_of_min t.min_peerRequestTimeout
  have hM := timeForNoPeersResponse_pos ht
  obtain ⟨budget, hbudget, hMle, hmax⟩ := budget_bounds ht (getNrOfBatches nodes.length)
  have hlt := Int64.toInt_lt budget
  rw [peerRoundCovered_iff ht hbudget]
  generalize hb : (getNrOfBatches nodes.length : Int) = b at hmax ⊢
  have hb0 : 0 ≤ b := by omega
  by_cases hwarn : t.peerRequestTimeout < t.apiServerTimeout + minimumBuffer
  · -- the agent raises the timeout
    rw [if_pos hwarn, if_neg (by rw [validatePeerTimeoutSafety_nil_iff ht]; simpa using hwarn)]
    rw [Int64.lt_iff_toInt_lt] at hwarn
    obtain ⟨_, hsafe⟩ : t.apiServerTimeout.toInt + 2000000000 < 2 ^ 63 ∧
        (t.apiServerTimeout + minimumBuffer).toInt = t.apiServerTimeout.toInt + 2000000000 := by
      rcases toInt_add_minimumBuffer t.min_apiServerTimeout with hok | hover
      · exact hok
      · omega
    rw [hsafe] at hwarn ⊢
    exact raised_covered_iff hb0 (Int.add_lt_add_left hwarn _) (by omega) hMle hlt hmax
  · rw [if_neg hwarn, if_pos ((validatePeerTimeoutSafety_nil_iff ht).mpr hwarn)]
    constructor
    · intro hle
      omega
    · intro hfits
      rw [hmax hfits]
      exact le_max_left _ _

/-- The default configuration. -/
def defaultConfig : SelfNodeRemediationConfig := ⟨configCRName, "default", defaultSpec⟩

theorem defaultConfig_accepted : Accepted defaultConfig := .inr ⟨[], default_accepted "default"⟩

/-- The default configuration covers the peer round of a cluster of three. -/
theorem peerRound_covered_default :
    Accepted defaultConfig ∧ PeerRoundCovered defaultSpec (List.replicate 3 plainWorker) := by
  refine ⟨defaultConfig_accepted, ?_⟩
  obtain ⟨t, ht, hiff⟩ :=
    peerRound_covered_iff defaultConfig_accepted (List.replicate 3 plainWorker)
  have hD : 5 * second = t.peerDialTimeout := Option.some.inj ht.peerDialTimeout
  have hR : 7 * second = t.peerRequestTimeout := Option.some.inj ht.peerRequestTimeout
  have hbatches : getNrOfBatches 3 = 1 := getNrOfBatches_small (by decide)
  refine hiff.mpr ?_
  rw [if_pos (by decide), List.length_replicate, hbatches, ← hD, ← hR]
  decide

/-- The default configuration with a longer API server timeout. The webhook
accepts it with a warning. -/
def slowApiConfig : SelfNodeRemediationConfig :=
  ⟨configCRName, "default", { defaultSpec with apiServerTimeout := some (10 * second) }⟩

/-- With four workers there are two batches. The agent waits up to 12s for an
answer, so its round takes up to 34s, but the calculator budgets 30s. -/
theorem peerRound_short :
    Accepted slowApiConfig ∧
      ¬ PeerRoundCovered slowApiConfig.spec (List.replicate 4 plainWorker) := by
  refine ⟨.inr ⟨_, rfl⟩, ?_⟩
  rintro ⟨agent, numBatches, budget, hagent, hnum, hbudget, hle⟩
  have hbatches : getNrOfBatches 4 = 2 := getNrOfBatches_small (by decide)
  cases hagent
  cases hnum
  rw [List.length_replicate, hbatches] at hbudget
  cases hbudget
  unfold ApiConnectivityCheckConfig.peerRoundTime at hle
  rw [List.length_replicate, hbatches] at hle
  exact absurd hle (by decide)

/-! ## 3. The isolation verdict -/

/-- The time from the end of a check to the end of the next when only the readyz
request is made and times out. -/
def ApiConnectivityCheckConfig.cycle (agent : ApiConnectivityCheckConfig) : Int :=
  agent.checkInterval.toInt + agent.apiServerTimeout.toInt

/-- The time the calculator takes for a peer round over `n` peers, in exact
arithmetic. -/
def ApiConnectivityCheckConfig.budgetedRoundTime (agent : ApiConnectivityCheckConfig) (n : Nat) :
    Int :=
  getNrOfBatches n * (agent.peerDialTimeout.toInt + agent.peerRequestTimeout.toInt)

/-- When the `k`-th check of a worker ends that is cut off from time 0 on. From
the threshold on, a peer round over `n` peers that all time out is added to every
check. -/
def ApiConnectivityCheckConfig.cutOffEnd (agent : ApiConnectivityCheckConfig) (n k : Nat) : Int :=
  if k < agent.maxErrorsThreshold.toInt then k * agent.cycle
  else k * agent.cycle + (k - agent.maxErrorsThreshold.toInt + 1) * agent.peerRoundTime n

/-- The checker after `k` checks; its last answer, at time 0, was healthy. -/
def cutOffChecker (agent : ApiConnectivityCheckConfig) (peers : List Peer)
    (clock : Nat → RoundClock) : Nat → Checker
  | 0 => Checker.new 0
  | k + 1 =>
    (getWorkerPeersResponse agent (cutOffChecker agent peers clock k) peers (clock (k + 1))).checker

/-- The worker verdict of the `k`-th check, counted from one. -/
def cutOffVerdict (agent : ApiConnectivityCheckConfig) (peers : List Peer)
    (clock : Nat → RoundClock) : Nat → Option Reason
  | 0 => none
  | k + 1 => some (getWorkerPeersResponse agent (cutOffChecker agent peers clock k) peers
      (clock (k + 1))).response.reason

/-- The `k`-th check is the first with an isolation verdict. -/
def FirstIsolated (agent : ApiConnectivityCheckConfig) (peers : List Peer)
    (clock : Nat → RoundClock) (k : Nat) : Prop :=
  cutOffVerdict agent peers clock k = some .unHealthyBecauseNodeIsIsolated ∧
    ∀ i < k, cutOffVerdict agent peers clock i ≠ some .unHealthyBecauseNodeIsIsolated

/-- The detection part of the minimum reboot duration, in exact arithmetic. -/
def ApiConnectivityCheckConfig.detectionTime (agent : ApiConnectivityCheckConfig) (n : Nat) : Int :=
  agent.maxErrorsThreshold.toInt * agent.cycle +
    max (agent.budgetedRoundTime n) agent.maxTimeForNoPeersResponse.toInt

/-- It is the sum of the calculator's first two parts when these do not overflow. -/
theorem detectionTime_eq {spec : SelfNodeRemediationConfigSpec} {t : Times} (h : spec.HasTimes t)
    {agent : ApiConnectivityCheckConfig} (hagent : agentConfig spec = .ok agent) (n : Nat)
    (hapi : ((t.apiCheckInterval + t.apiServerTimeout) * spec.maxApiErrorThreshold).toInt =
      spec.maxApiErrorThreshold.toInt * (t.apiCheckInterval.toInt + t.apiServerTimeout.toInt))
    (hpeers : getNrOfBatches n * (t.peerDialTimeout.toInt + t.peerRequestTimeout.toInt) < 2 ^ 63) :
    ∃ apiCheck budget, apiCheckDuration spec = .ok apiCheck ∧
      peerRequestsDuration spec (getNrOfBatches n) = .ok budget ∧
      apiCheck.toInt + budget.toInt = agent.detectionTime n := by
  obtain ⟨budget, hbudget, _, hmax⟩ := budget_bounds h (getNrOfBatches n)
  rw [agentConfig_ok h] at hagent
  cases hagent
  refine ⟨_, budget, apiCheckDuration_ok h, hbudget, ?_⟩
  rw [hapi, hmax hpeers]
  rfl

section
variable {agent : ApiConnectivityCheckConfig} {peers : List Peer} (clock : Nat → RoundClock)

/-- Without an answer every check only adds an error. -/
theorem cutOffChecker_eq (hpeers : peers ≠ [])
    (hsilent : ∀ p ∈ peers, p.answer.answered = false) (k : Nat) :
    cutOffChecker agent peers clock k = ⟨k, 0⟩ := by
  induction k with
  | zero => rfl
  | succ k ih =>
    have h := getWorkerPeersResponse_outcome agent ⟨k, 0⟩ peers (clock (k + 1))
    rw [cutOffChecker, ih, (h.silent hpeers hsilent).1]
    rfl

/-- The node is isolated at the `k`-th check when the error threshold is reached,
there are enough peers, and the check ends after the time without peers. -/
theorem cutOffVerdict_isolated_iff (hT : 1 ≤ agent.maxErrorsThreshold.toInt) (hpeers : peers ≠ [])
    (hsilent : ∀ p ∈ peers, p.answer.answered = false) (k : Nat) :
    cutOffVerdict agent peers clock k = some .unHealthyBecauseNodeIsIsolated ↔
      agent.maxErrorsThreshold.toInt ≤ k ∧
        agent.minPeersForRemediation.toInt ≤ peers.length ∧
        agent.maxTimeForNoPeersResponse.toInt < (clock k).ended := by
  cases k with
  | zero =>
    constructor
    · intro h
      cases h
    · rintro ⟨hle, _⟩
      omega
  | succ k =>
    have h := getWorkerPeersResponse_outcome agent ⟨k, 0⟩ peers (clock (k + 1))
    rw [cutOffVerdict, cutOffChecker_eq clock hpeers hsilent, Option.some.injEq,
      (h.silent hpeers hsilent).2]
    constructor
    · rintro ⟨hasked, hlate⟩
      exact ⟨by exact_mod_cast hasked.threshold, hasked.enough, by simpa using hlate⟩
    · rintro ⟨hle, henough, hlate⟩
      exact ⟨⟨by exact_mod_cast hle, henough, hpeers⟩, by simpa using hlate⟩

end

/-- Take the first of the times `S + P`, `S + P + (c + P)`, ... that lies after
`M`. It is at most `S` after the later of `P` and `M` exactly when it is the first
of them, or what is left of `M` in its last cycle makes up for the cycle. -/
theorem first_exceeding_le_iff {S P c M : Int} {j : Nat} (hS : 0 ≤ S) (hc : 0 < c) (hP : 0 < P)
    (hj : M < S + P + j * (c + P)) (hmin : ∀ i < j, S + P + i * (c + P) ≤ M) :
    S + P + j * (c + P) ≤ S + max P M ↔
      M < S + P ∨ P ≤ S - c + (M - S - P) % (c + P) := by
  have hcP : 0 < c + P := Int.add_pos hc hP
  cases j with
  | zero =>
    have hlt : M < S + P := by simpa using hj
    refine ⟨fun _ => .inl hlt, fun _ => ?_⟩
    have := le_max_left P M
    simp only [Nat.cast_zero, Int.zero_mul]
    omega
  | succ i =>
    have hle := hmin i (by omega)
    have hstep : ((i + 1 : Nat) : Int) * (c + P) = i * (c + P) + (c + P) := by
      rw [Nat.cast_add, Nat.cast_one, Int.add_mul, Int.one_mul]
    have hnn : 0 ≤ (i : Int) * (c + P) := Int.mul_nonneg (by omega) (by omega)
    rw [hstep] at hj ⊢
    have hmod : (M - S - P) % (c + P) = M - S - P - i * (c + P) := by
      have hsplit : M - S - P = (M - S - P - i * (c + P)) + i * (c + P) := by omega
      rw [hsplit, Int.add_mul_emod_self_right, Int.emod_eq_of_lt (by omega) (by omega)]
      omega
    rw [hmod, max_eq_right (by omega)]
    constructor
    · intro h
      exact .inr (by omega)
    · rintro (h | h)
      · omega
      · omega

/-- Some time of such a sequence lies after `M`, and so there is a first. -/
theorem exists_first_exceeding (a M : Int) {d : Int} (hd : 0 < d) :
    ∃ j : Nat, M < a + j * d ∧ ∀ i < j, a + i * d ≤ M := by
  have hex : ∃ j : Nat, M < a + j * d := by
    refine ⟨(M - a).toNat + 1, ?_⟩
    have hge := Int.mul_le_mul_of_nonneg_left
      (show (1 : Int) ≤ d by omega) (show (0 : Int) ≤ (M - a).toNat + 1 by omega)
    rw [Int.mul_one] at hge
    push_cast
    omega
  refine ⟨Nat.find hex, Nat.find_spec hex, ?_⟩
  intro i hi
  exact not_lt.mp (Nat.find_min hex hi)

/-- The values behind the times of an agent whose configuration was accepted: they
are positive, and with the buffer the agent uses the configured request timeout. -/
theorem agent_times {snrConfig : SelfNodeRemediationConfig} (h : Accepted snrConfig)
    {agent : ApiConnectivityCheckConfig} (hagent : agentConfig snrConfig.spec = .ok agent)
    (hR : agent.apiServerTimeout.toInt + 2000000000 ≤ agent.peerRequestTimeout.toInt)
    {n : Nat} (hn : 0 < n) :
    0 < agent.cycle ∧ 0 < agent.budgetedRoundTime n ∧
      agent.peerRoundTime n = agent.budgetedRoundTime n := by
  obtain ⟨t, ht⟩ := (validateTimes_none_iff snrConfig).mp (validateTimes_of_accepted h)
  rw [agentConfig_ok ht] at hagent
  cases hagent
  dsimp only at hR
  have hI : 1000000000 ≤ t.apiCheckInterval.toInt := Int64.le_iff_toInt_le.mp t.min_apiCheckInterval
  have hA := toInt_pos_of_min t.min_apiServerTimeout
  have hD := toInt_pos_of_min t.min_peerDialTimeout
  have hB : 1 ≤ getNrOfBatches n := by
    rw [getNrOfBatches_eq hn]
    exact Nat.le_add_right 1 _
  have hlt := Int64.toInt_lt t.peerRequestTimeout
  have hsafe : ¬ t.peerRequestTimeout < t.apiServerTimeout + minimumBuffer := by
    rw [Int64.lt_iff_toInt_lt]
    rcases toInt_add_minimumBuffer t.min_apiServerTimeout with ⟨_, hsum⟩ | ⟨hover, _⟩
    · omega
    · omega
  refine ⟨?_, ?_, ?_⟩
  · unfold ApiConnectivityCheckConfig.cycle
    dsimp only
    omega
  · unfold ApiConnectivityCheckConfig.budgetedRoundTime
    dsimp only
    exact Int.mul_pos (by omega) (by omega)
  · unfold ApiConnectivityCheckConfig.peerRoundTime ApiConnectivityCheckConfig.budgetedRoundTime
      ApiConnectivityCheckConfig.getEffectivePeerRequestTimeout
    dsimp only
    rw [if_neg hsafe]

/-- The first isolation verdict, when from check `T` on it depends on the end of the
check only: the first check from there on that ends late. -/
theorem firstIsolated_iff {agent : ApiConnectivityCheckConfig} {peers : List Peer}
    {clock : Nat → RoundClock} {T j : Nat} {M : Int}
    (hiso : ∀ k, cutOffVerdict agent peers clock k = some .unHealthyBecauseNodeIsIsolated ↔
      T ≤ k ∧ M < (clock k).ended)
    (hj : M < (clock (T + j)).ended) (hmin : ∀ i < j, (clock (T + i)).ended ≤ M) (k : Nat) :
    FirstIsolated agent peers clock k ↔ k = T + j := by
  have hlate {i : Nat} (h : T ≤ i ∧ M < (clock i).ended) : T + j ≤ i := by
    by_contra hlt
    have hi := hmin (i - T) (by omega)
    rw [Nat.add_sub_cancel' h.1] at hi
    exact absurd h.2 (not_lt.mpr hi)
  constructor
  · rintro ⟨hk, hkmin⟩
    refine le_antisymm ?_ (hlate ((hiso k).mp hk))
    by_contra hgt
    exact hkmin (T + j) (not_le.mp hgt) ((hiso (T + j)).mpr ⟨Nat.le_add_right T j, hj⟩)
  · rintro rfl
    refine ⟨(hiso (T + j)).mpr ⟨Nat.le_add_right T j, hj⟩, fun i hi hisoi => ?_⟩
    exact absurd (hlate ((hiso i).mp hisoi)) (not_le.mpr hi)

/-- Exactly when the first isolation verdict of a worker that is cut off comes
within the detection part of the calculator: there are too few peers for such a
verdict; or the first peer round already ends after the time without peers; or
the errors that are counted before it leave room for the cycle in which this time
runs out. -/
theorem isolation_covered_iff {snrConfig : SelfNodeRemediationConfig} (h : Accepted snrConfig)
    {agent : ApiConnectivityCheckConfig} (hagent : agentConfig snrConfig.spec = .ok agent)
    (hT : 1 ≤ agent.maxErrorsThreshold.toInt)
    (hR : agent.apiServerTimeout.toInt + 2000000000 ≤ agent.peerRequestTimeout.toInt)
    {peers : List Peer} (hpeers : peers ≠ [])
    (hsilent : ∀ p ∈ peers, p.answer.answered = false) (clock : Nat → RoundClock)
    (hclock : ∀ k, (clock k).ended = agent.cutOffEnd peers.length k) :
    (∀ k, FirstIsolated agent peers clock k →
        (clock k).ended ≤ agent.detectionTime peers.length) ↔
      peers.length < agent.minPeersForRemediation.toInt ∨
        agent.maxTimeForNoPeersResponse.toInt <
          agent.maxErrorsThreshold.toInt * agent.cycle + agent.budgetedRoundTime peers.length ∨
        agent.budgetedRoundTime peers.length ≤
          (agent.maxErrorsThreshold.toInt - 1) * agent.cycle +
          (agent.maxTimeForNoPeersResponse.toInt - agent.maxErrorsThreshold.toInt * agent.cycle -
            agent.budgetedRoundTime peers.length) %
          (agent.cycle + agent.budgetedRoundTime peers.length) := by
  obtain ⟨hc, hP, hround⟩ := agent_times h hagent hR (List.length_pos_iff.mpr hpeers)
  have hiso := cutOffVerdict_isolated_iff clock hT hpeers hsilent
  rcases lt_or_ge (peers.length : Int) agent.minPeersForRemediation.toInt with hfew | henough
  · -- too few peers: there is no isolation verdict
    refine ⟨fun _ => .inl hfew, fun _ k hk => ?_⟩
    exact absurd ((hiso k).mp hk.1).2.1 (not_le.mpr hfew)
  · unfold ApiConnectivityCheckConfig.detectionTime
    unfold ApiConnectivityCheckConfig.cutOffEnd at hclock
    rw [hround] at hclock
    generalize agent.maxTimeForNoPeersResponse.toInt = M at hiso ⊢
    generalize agent.budgetedRoundTime peers.length = P at hP hclock ⊢
    generalize agent.cycle = c at hc hclock ⊢
    obtain ⟨T, hTeq⟩ : ∃ T : Nat, agent.maxErrorsThreshold.toInt = T :=
      ⟨agent.maxErrorsThreshold.toInt.toNat, by omega⟩
    rw [hTeq] at hT hiso hclock ⊢
    -- the checks from the threshold on end at equal distances
    have hend : ∀ j : Nat, (clock (T + j)).ended = T * c + P + j * (c + P) := by
      intro j
      rw [hclock, if_neg (by omega)]
      push_cast
      ring
    obtain ⟨j, hj, hmin⟩ := exists_first_exceeding (T * c + P) M (Int.add_pos hc hP)
    have hfirst := firstIsolated_iff (M := M)
      (fun k => (hiso k).trans ⟨fun h => ⟨Int.ofNat_le.mp h.1, h.2.2⟩,
        fun h => ⟨Int.ofNat_le.mpr h.1, henough, h.2⟩⟩)
      (by rw [hend]; exact hj) (fun i hi => by rw [hend]; exact hmin i hi)
    have hS : 0 ≤ (T : Int) * c := Int.mul_nonneg (by omega) (by omega)
    have hpred : ((T : Int) - 1) * c = T * c - c := by rw [Int.sub_mul, Int.one_mul]
    have hlast := first_exceeding_le_iff hS hc hP hj hmin
    simp only [hfirst, forall_eq, hend, hpred]
    rw [hlast]
    exact ⟨.inr, fun hor => hor.resolve_left (not_lt.mpr henough)⟩

/-- The clock of a cut-off worker with few enough peers for one batch. -/
def cutOffClock (agent : ApiConnectivityCheckConfig) (n k : Nat) : RoundClock :=
  ⟨fun _ => agent.cutOffEnd n k - agent.peerRoundTime n, fun _ => agent.cutOffEnd n k,
    agent.cutOffEnd n k⟩

/-- With the default configuration and one peer the third check, which ends after
72s, brings the verdict, and the calculator allows 90s. -/
theorem isolation_covered_default :
    Accepted defaultConfig ∧ agentConfig defaultConfig.spec = .ok defaultAgent ∧
      ∀ k, FirstIsolated defaultAgent [silentPeer] (cutOffClock defaultAgent 1) k →
        (cutOffClock defaultAgent 1 k).ended ≤ defaultAgent.detectionTime 1 := by
  refine ⟨defaultConfig_accepted, rfl, ?_⟩
  have hsilent : ∀ p ∈ [silentPeer], p.answer.answered = false := by decide
  refine (isolation_covered_iff defaultConfig_accepted rfl (by decide) (by decide)
    (List.cons_ne_nil _ _) hsilent (cutOffClock defaultAgent 1) (fun _ => rfl)).mpr ?_
  have hone : getNrOfBatches 1 = 1 := getNrOfBatches_small (by decide)
  refine .inr (.inl ?_)
  unfold ApiConnectivityCheckConfig.budgetedRoundTime
  rw [List.length_singleton, hone]
  decide

/-- The default configuration with an error threshold of one and a slightly
longer time without peers. -/
def lateConfig : SelfNodeRemediationConfig :=
  ⟨configCRName, "default",
    { defaultSpec with
      maxApiErrorThreshold := 1
      maxTimeForNoPeersResponse := some (33 * second) }⟩

def lateAgent : ApiConnectivityCheckConfig :=
  ⟨15 * second, 1, 5 * second, 5 * second, 7 * second, 33 * second, 1⟩

/-- With one peer the first check ends after 32s, one second before the time
without peers runs out; the second one brings the verdict after 64s, but the
calculator allows 53s for it. -/
theorem isolation_late :
    Accepted lateConfig ∧ agentConfig lateConfig.spec = .ok lateAgent ∧
      1 ≤ lateAgent.maxErrorsThreshold.toInt ∧
      lateAgent.apiServerTimeout.toInt + 2000000000 ≤ lateAgent.peerRequestTimeout.toInt ∧
      FirstIsolated lateAgent [silentPeer] (cutOffClock lateAgent 1) 2 ∧
      lateAgent.detectionTime 1 < (cutOffClock lateAgent 1 2).ended := by
  have hone : getNrOfBatches 1 = 1 := getNrOfBatches_small (by decide)
  have hround : lateAgent.peerRoundTime 1 = 12000000000 := by
    unfold ApiConnectivityCheckConfig.peerRoundTime
    rw [hone]
    decide
  have hend : ∀ k, (cutOffClock lateAgent 1 k).ended =
      if (k : Int) < 1 then (k : Int) * 20000000000
      else (k : Int) * 20000000000 + ((k : Int) - 1 + 1) * 12000000000 := by
    intro k
    rw [← hround]
    rfl
  have hT : 1 ≤ lateAgent.maxErrorsThreshold.toInt := by decide
  have hsilent : ∀ p ∈ [silentPeer], p.answer.answered = false := by decide
  have hiso := cutOffVerdict_isolated_iff (cutOffClock lateAgent 1) hT (List.cons_ne_nil _ _)
    hsilent
  have hM : lateAgent.maxTimeForNoPeersResponse.toInt = 33000000000 := by decide
  refine ⟨.inr ⟨[], rfl⟩, rfl, hT, by decide, ⟨?_, ?_⟩, ?_⟩
  · rw [hiso, hend, hM]
    decide
  · intro i hi
    rw [Ne, hiso, hend, hM]
    interval_cases i <;> decide
  · rw [hend]
    unfold ApiConnectivityCheckConfig.detectionTime ApiConnectivityCheckConfig.budgetedRoundTime
    rw [hone]
    decide

end SelfNodeRemediation
