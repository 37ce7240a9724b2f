import SelfNodeRemediation.Config
import SelfNodeRemediation.Peers

/-!
# The agent's API connectivity check

`internal/apicheck/check.go` with the control-plane verdict of
`internal/controlplane/manager.go`. One check is a function of the checker's
state and of what the check meets: the readyz result, the peers with the answer
each of them gives, the readings of the clock and the diagnostics. It also
returns what it asked, so that results can speak of the peers that were asked.

* `askPeers_eq`: the batch loop of the source, which pops batches off a list,
  goes through the batches of `Chunks.split` until one is decisive.
* `askBatches_spec`: what a peer round asks, how it can end, and what it leaves behind.
* `getWorkerPeersResponse_outcome`: the ways to a worker verdict, and what the answers
  were in each of them.
-/

namespace SelfNodeRemediation

/-! ## 1. Answers and verdicts -/

/-- `HealthCheckResponseCode`; `unexpected` is any other code of a peer. -/
inductive HealthCheckResponseCode
  | requestFailed
  | healthy
  | unhealthy
  | apiError
  | unexpected (code : Int)
deriving DecidableEq, Repr

/-- The peer replied with one of the three codes that count as an answer. -/
def HealthCheckResponseCode.answered : HealthCheckResponseCode → Bool
  | .healthy | .unhealthy | .apiError => true
  | .requestFailed | .unexpected _ => false

/-- The reasons of a `peers.Response`. -/
inductive Reason
  | healthyBecauseCRNotFound
  | healthyBecauseErrorsThresholdNotReached
  | healthyBecauseNoPeersResponseNotReachedTimeout
  | healthyBecauseNoPeersWereFound
  | healthyBecauseMostPeersCantAccessAPIServer
  | unHealthyBecausePeersResponse
  | unHealthyBecauseNodeIsIsolated
deriving DecidableEq, Repr

structure Response where
  isHealthy : Bool
  reason : Reason
deriving DecidableEq, Repr

/-- A peer address with the answer a request to it gets in this check. -/
structure Peer where
  ip : String
  answer : HealthCheckResponseCode
deriving DecidableEq, Repr

/-- A peer that does not answer. -/
def silentPeer : Peer := ⟨"10.0.0.1", .requestFailed⟩

/-- The tallies of `sumPeersResponses`. -/
structure Tally where
  healthyResponses : Nat
  unhealthyResponses : Nat
  apiErrorsResponses : Nat
  noResponse : Nat
deriving DecidableEq, Repr

def Tally.add (s : Tally) : HealthCheckResponseCode → Tally
  | .unhealthy => { s with unhealthyResponses := s.unhealthyResponses + 1 }
  | .healthy => { s with healthyResponses := s.healthyResponses + 1 }
  | .apiError => { s with apiErrorsResponses := s.apiErrorsResponses + 1 }
  | .requestFailed => { s with noResponse := s.noResponse + 1 }
  | .unexpected _ => s

def sumPeersResponses (responses : List HealthCheckResponseCode) : Tally :=
  responses.foldl Tally.add ⟨0, 0, 0, 0⟩

/-- Every address is asked, and the responses are summed. -/
def getHealthStatusFromPeers (addresses : List Peer) : Tally :=
  sumPeersResponses (addresses.map Peer.answer)

/-- The number of peers with the given answer. -/
def countAnswers (code : HealthCheckResponseCode) (peers : List Peer) : Nat :=
  peers.countP fun p => p.answer = code

/-- The tallies count the answers. -/
theorem getHealthStatusFromPeers_eq (peers : List Peer) :
    getHealthStatusFromPeers peers =
      ⟨countAnswers .healthy peers, countAnswers .unhealthy peers, countAnswers .apiError peers,
        countAnswers .requestFailed peers⟩ := by
  have hfold : ∀ s : Tally, (peers.map Peer.answer).foldl Tally.add s =
      ⟨s.healthyResponses + countAnswers .healthy peers,
        s.unhealthyResponses + countAnswers .unhealthy peers,
        s.apiErrorsResponses + countAnswers .apiError peers,
        s.noResponse + countAnswers .requestFailed peers⟩ := by
    induction peers with
    | nil => simp [countAnswers]
    | cons p peers ih =>
      intro s
      rw [List.map_cons, List.foldl_cons, ih]
      cases h : p.answer <;> simp [Tally.add, countAnswers, h] <;> omega
  unfold getHealthStatusFromPeers sumPeersResponses
  rw [hfold]
  simp

theorem countAnswers_pos_iff {code : HealthCheckResponseCode} {peers : List Peer} :
    0 < countAnswers code peers ↔ ∃ p ∈ peers, p.answer = code := by
  simp [countAnswers, List.countP_pos_iff]

theorem countAnswers_append (code : HealthCheckResponseCode) (ps qs : List Peer) :
    countAnswers code (ps ++ qs) = countAnswers code ps + countAnswers code qs :=
  List.countP_append

/-- Some peer of the list answered. -/
def anyAnswered (peers : List Peer) : Bool := peers.any fun p => p.answer.answered

/-- The code's test for an answer: one of the three tallies is not zero. -/
theorem tally_pos_iff (peers : List Peer) :
    0 < countAnswers .healthy peers + countAnswers .unhealthy peers +
      countAnswers .apiError peers ↔ anyAnswered peers = true := by
  have hcases : ∀ c : HealthCheckResponseCode,
      c.answered = true ↔ c = .healthy ∨ c = .unhealthy ∨ c = .apiError := by
    intro c
    cases c <;> simp [HealthCheckResponseCode.answered]
  have hsum : 0 < countAnswers .healthy peers + countAnswers .unhealthy peers +
      countAnswers .apiError peers ↔ 0 < countAnswers .healthy peers ∨
        0 < countAnswers .unhealthy peers ∨ 0 < countAnswers .apiError peers := by
    omega
  rw [hsum, countAnswers_pos_iff, countAnswers_pos_iff, countAnswers_pos_iff]
  simp only [anyAnswered, List.any_eq_true, hcases]
  constructor
  · rintro (⟨p, hp, h⟩ | ⟨p, hp, h⟩ | ⟨p, hp, h⟩)
    · exact ⟨p, hp, .inl h⟩
    · exact ⟨p, hp, .inr (.inl h)⟩
    · exact ⟨p, hp, .inr (.inr h)⟩
  · rintro ⟨p, hp, h | h | h⟩
    · exact .inl ⟨p, hp, h⟩
    · exact .inr (.inl ⟨p, hp, h⟩)
    · exact .inr (.inr ⟨p, hp, h⟩)

/-! ## 2. The peer round -/

/-- `ApiConnectivityCheckConfig`, by the fields that decide a check and when the
next one starts. -/
structure ApiConnectivityCheckConfig where
  checkInterval : Duration
  maxErrorsThreshold : Int64
  apiServerTimeout : Duration
  peerDialTimeout : Duration
  peerRequestTimeout : Duration
  maxTimeForNoPeersResponse : Duration
  minPeersForRemediation : Int64
deriving DecidableEq, Repr

/-- The peer request timeout in use: a too short one is raised to the API server
timeout plus the buffer. -/
def ApiConnectivityCheckConfig.getEffectivePeerRequestTimeout
    (c : ApiConnectivityCheckConfig) : Duration :=
  let minimumSafeTimeout := c.apiServerTimeout + minimumBuffer
  if c.peerRequestTimeout < minimumSafeTimeout then minimumSafeTimeout else c.peerRequestTimeout

/-- The configuration of the agents under the defaults of the CRD. -/
def defaultAgent : ApiConnectivityCheckConfig :=
  ⟨15 * second, 3, 5 * second, 5 * second, 7 * second, 30 * second, 1⟩

/-- The state a checker keeps between checks (`ApiConnectivityCheck`). -/
structure Checker where
  errorCount : Nat
  timeOfLastPeerResponse : Time
deriving DecidableEq, Repr

/-- `New`, at the given time. -/
def Checker.new (now : Time) : Checker := ⟨0, now⟩

/-- The clock during a peer round: when the requests of the `i`-th batch are
issued, when its responses have been collected, and when the round ends. -/
structure RoundClock where
  issued : Nat → Time
  collected : Nat → Time
  ended : Time

/-- A batch that was asked. -/
structure Batch where
  peers : List Peer
  issued : Time
  collected : Time

/-- The result of a peer round: the checker, a verdict unless the round was
undecided, and the batches that were asked. -/
structure Round where
  checker : Checker
  response : Option Response
  asked : List Batch

/-- The checker after a batch: an answer refreshes the time of the last one. -/
def Checker.afterBatch (c : Checker) (batch : Batch) : Checker :=
  let tally := getHealthStatusFromPeers batch.peers
  if tally.healthyResponses + tally.unhealthyResponses + tally.apiErrorsResponses > 0 then
    { c with timeOfLastPeerResponse := batch.collected }
  else c

/-- The verdict of a batch, given the API errors of the batches before it. -/
def batchVerdict (nrAllPeers apiErrorsResponsesSum : Nat) (peers : List Peer) : Option Response :=
  let tally := getHealthStatusFromPeers peers
  if tally.healthyResponses > 0 then some ⟨true, .healthyBecauseCRNotFound⟩
  else if tally.unhealthyResponses > 0 then some ⟨false, .unHealthyBecausePeersResponse⟩
  else if tally.apiErrorsResponses > 0 ∧
      apiErrorsResponsesSum + tally.apiErrorsResponses > nrAllPeers / 2 then
    some ⟨true, .healthyBecauseMostPeersCantAccessAPIServer⟩
  else none

/-- The loop of `getWorkerPeersResponse`, from its `i`-th iteration on: pop the
next batch off the peers to ask, until one is decisive or no peer is left. A
popped address that is empty is asked all the same (`popPeerIPs`). -/
def askPeers (nrAllPeers : Nat) (clock : RoundClock) (i : Nat) (c : Checker)
    (apiErrorsResponsesSum : Nat) (peersToAsk : List Peer) : Round :=
  if 0 < peersToAsk.length then
    let batchSize := getNextBatchSize nrAllPeers peersToAsk.length
    let batch : Batch := ⟨peersToAsk.take batchSize, clock.issued i, clock.collected i⟩
    let c := c.afterBatch batch
    match batchVerdict nrAllPeers apiErrorsResponsesSum batch.peers with
    | some response =>
      -- a healthy answer also resets the error count
      let c := if response.reason = .healthyBecauseCRNotFound then { c with errorCount := 0 } else c
      ⟨c, some response, [batch]⟩
    | none =>
      let sum := apiErrorsResponsesSum +
        (getHealthStatusFromPeers batch.peers).apiErrorsResponses
      let rest := askPeers nrAllPeers clock (i + 1) c sum (peersToAsk.drop batchSize)
      { rest with asked := batch :: rest.asked }
  else ⟨c, none, []⟩
termination_by peersToAsk.length
decreasing_by
  have := getNextBatchSize_pos nrAllPeers ‹0 < peersToAsk.length›
  simp only [List.length_drop]
  omega

/-- The same loop over the list of the batches. -/
def askBatches (nrAllPeers : Nat) (clock : RoundClock) :
    Nat → Checker → Nat → List (List Peer) → Round
  | _, c, _, [] => ⟨c, none, []⟩
  | i, c, apiErrorsResponsesSum, peers :: batches =>
    let batch : Batch := ⟨peers, clock.issued i, clock.collected i⟩
    let c := c.afterBatch batch
    match batchVerdict nrAllPeers apiErrorsResponsesSum peers with
    | some response =>
      let c := if response.reason = .healthyBecauseCRNotFound then { c with errorCount := 0 } else c
      ⟨c, some response, [batch]⟩
    | none =>
      let sum := apiErrorsResponsesSum + (getHealthStatusFromPeers peers).apiErrorsResponses
      let rest := askBatches nrAllPeers clock (i + 1) c sum batches
      { rest with asked := batch :: rest.asked }

/-- Popping batches off the list is going through its batches. -/
theorem askPeers_eq (n : Nat) (clock : RoundClock) (i : Nat) (c : Checker) (sum : Nat)
    (peers : List Peer) :
    askPeers n clock i c sum peers =
      askBatches n clock i c sum (Chunks.split (batchSizes n) peers) := by
  induction peers using Chunks.split.induct (batchSizes n) generalizing i c sum with
  | case1 peers h ih =>
    rw [askPeers, if_pos h, Chunks.split_of_pos h, askBatches]
    simp only [batchSizes] at ih ⊢
    simp only [ih]
  | case2 peers h =>
    have hnil : peers = [] := List.length_eq_zero_iff.mp (by omega)
    subst hnil
    rw [askPeers, if_neg (by simp), Chunks.split_nil, askBatches]

/-- A single peer is one batch. -/
theorem askPeers_one (clock : RoundClock) (c : Checker) (p : Peer) :
    askPeers 1 clock 0 c 0 [p] = askBatches 1 clock 0 c 0 [[p]] := by
  rw [askPeers_eq, Chunks.split_of_pos (by simp)]
  have hsize : (batchSizes 1).size [p].length = 1 := getNextBatchSize_first 1
  rw [hsize, List.take_succ_cons, List.take_zero, List.drop_succ_cons, List.drop_zero,
    Chunks.split_nil]

/-- The verdict of `getWorkerPeersResponse`, with the checker after it and the
batches it asked. -/
structure WorkerVerdict where
  checker : Checker
  response : Response
  asked : List Batch

def getWorkerPeersResponse (config : ApiConnectivityCheckConfig) (c : Checker)
    (peersToAsk : List Peer) (clock : RoundClock) : WorkerVerdict :=
  let c := { c with errorCount := c.errorCount + 1 }
  if c.errorCount < config.maxErrorsThreshold.toInt then
    ⟨c, ⟨true, .healthyBecauseErrorsThresholdNotReached⟩, []⟩
  else if peersToAsk.length < config.minPeersForRemediation.toInt then
    ⟨c, ⟨true, .healthyBecauseNoPeersWereFound⟩, []⟩
  else if peersToAsk.length = 0 then
    ⟨c, ⟨false, .unHealthyBecauseNodeIsIsolated⟩, []⟩
  else
    let round := askPeers peersToAsk.length clock 0 c 0 peersToAsk
    match round.response with
    | some response => ⟨round.checker, response, round.asked⟩
    | none =>
      -- all peers were asked
      if clock.ended > round.checker.timeOfLastPeerResponse +
          config.maxTimeForNoPeersResponse.toInt then
        ⟨round.checker, ⟨false, .unHealthyBecauseNodeIsIsolated⟩, round.asked⟩
      else
        ⟨round.checker, ⟨true, .healthyBecauseNoPeersResponseNotReachedTimeout⟩, round.asked⟩

/-! ## 3. The check -/

/-- One call of `getControlPlanePeersStatus`: the control-plane peers of the first
dial, whether the refresh after a failed dial succeeds, and the peers after it. -/
structure StatusQuery where
  first : List Peer
  refreshed : Bool
  second : List Peer

/-- Whether a control-plane peer could be reached, and whether one considers
this node unhealthy. -/
def dialControlPlanePeers (peersToAsk : List Peer) : Bool × Bool :=
  if peersToAsk.length = 0 then (false, false)
  else
    let tally := getHealthStatusFromPeers peersToAsk
    (tally.healthyResponses + tally.unhealthyResponses + tally.apiErrorsResponses > 0,
      tally.unhealthyResponses > 0)

/-- The result of `getControlPlanePeersStatus` and the dials it made. -/
structure ControlPlaneStatus where
  canBeReached : Bool
  consideredUnhealthy : Bool
  dials : List (List Peer)

def getControlPlanePeersStatus (q : StatusQuery) : ControlPlaneStatus :=
  let (canBeReached, consideredUnhealthy) := dialControlPlanePeers q.first
  if !canBeReached then
    if q.refreshed then
      let (canBeReached, consideredUnhealthy) := dialControlPlanePeers q.second
      ⟨canBeReached, consideredUnhealthy, [q.first, q.second]⟩
    else ⟨canBeReached, consideredUnhealthy, [q.first]⟩
  else ⟨canBeReached, consideredUnhealthy, [q.first]⟩

/-- What the diagnostics of a control-plane node find. -/
structure Diagnostics where
  wasEndpointAccessibleAtStart : Bool
  isEndpointAccessible : Bool
  isKubeletServiceRunning : Bool
deriving DecidableEq, Repr

def Diagnostics.isEndpointAccessLost (d : Diagnostics) : Bool :=
  if !d.wasEndpointAccessibleAtStart then false else !d.isEndpointAccessible

def Diagnostics.isDiagnosticsPassed (d : Diagnostics) : Bool :=
  if d.isEndpointAccessLost then false
  else if !d.isKubeletServiceRunning then false
  else true

def isControlPlaneHealthy (d : Diagnostics) (workerPeerResponse : Response)
    (canOtherControlPlanesBeReached : Bool) : Bool :=
  match workerPeerResponse.reason with
  | .unHealthyBecausePeersResponse => false
  | .unHealthyBecauseNodeIsIsolated => canOtherControlPlanesBeReached
  | .healthyBecauseErrorsThresholdNotReached
  | .healthyBecauseCRNotFound
  | .healthyBecauseNoPeersResponseNotReachedTimeout => true
  | .healthyBecauseMostPeersCantAccessAPIServer => d.isDiagnosticsPassed
  | .healthyBecauseNoPeersWereFound => d.isDiagnosticsPassed && canOtherControlPlanesBeReached

/-- The result of the readyz request. -/
inductive Readyz
  | error
  | statusCode (code : Int)
deriving DecidableEq, Repr

def Readyz.failed : Readyz → Bool
  | .error => true
  | .statusCode code => code != 200

/-- What one check meets. `readyzPassed` is the status query of a control-plane
node whose readyz passed and `controlPlanePeers` the list it looks at after it;
`status` is the status query of `isConsideredHealthy`. -/
structure CheckInput where
  readyz : Readyz
  workerPeers : List Peer
  clock : RoundClock
  readyzPassed : StatusQuery
  controlPlanePeers : List Peer
  status : StatusQuery
  diagnostics : Diagnostics

/-- What `isConsideredHealthy` concludes, with the worker verdict and the
control-plane dials behind it. -/
structure Consideration where
  isHealthy : Bool
  worker : WorkerVerdict
  dials : List (List Peer)

def isConsideredHealthy (config : ApiConnectivityCheckConfig) (isControlPlane : Bool)
    (c : Checker) (x : CheckInput) : Consideration :=
  let worker := getWorkerPeersResponse config c x.workerPeers x.clock
  if !isControlPlane then ⟨worker.response.isHealthy, worker, []⟩
  else
    let status := getControlPlanePeersStatus x.status
    if status.consideredUnhealthy then ⟨false, worker, status.dials⟩
    else
      ⟨isControlPlaneHealthy x.diagnostics worker.response status.canBeReached, worker,
        status.dials⟩

/-- The outcome of a check: the checker after it, whether `Rebooter.Reboot` was
called, the worker verdict if there was one, and whom it asked. -/
structure CheckResult where
  checker : Checker
  rebooted : Bool
  verdict : Option Response
  asked : List Batch
  dials : List (List Peer)

/-- The node is rebooted unless it is considered healthy. -/
def Consideration.result (h : Consideration) : CheckResult :=
  ⟨h.worker.checker, !h.isHealthy, some h.worker.response, h.worker.asked, h.dials⟩

/-- The body of the loop of `Start`. -/
def check (config : ApiConnectivityCheckConfig) (isControlPlane : Bool) (c : Checker)
    (x : CheckInput) : CheckResult :=
  if x.readyz.failed then (isConsideredHealthy config isControlPlane c x).result
  else if isControlPlane then
    let status := getControlPlanePeersStatus x.readyzPassed
    if status.consideredUnhealthy then ⟨c, true, none, [], status.dials⟩
    else
      let peersExist := x.controlPlanePeers.length > 0
      if !status.canBeReached ∧ peersExist then
        let result := (isConsideredHealthy config isControlPlane c x).result
        { result with dials := status.dials ++ result.dials }
      else ⟨{ c with errorCount := 0 }, false, none, [], status.dials⟩
  else ⟨{ c with errorCount := 0 }, false, none, [], []⟩

/-! ## 4. How a peer round ends -/

/-- The peers of the batches that were asked. -/
def askedPeers (asked : List Batch) : List Peer := asked.flatMap Batch.peers

@[simp] theorem askedPeers_nil : askedPeers [] = [] := rfl

@[simp] theorem askedPeers_cons (b : Batch) (bs : List Batch) :
    askedPeers (b :: bs) = b.peers ++ askedPeers bs := rfl

/-- When the last answer came, given when the last one before these batches did. -/
def lastAnswer (time : Time) (asked : List Batch) : Time :=
  asked.foldl (fun time b => if anyAnswered b.peers then b.collected else time) time

/-- How a round can end when `asked` are the peers that were asked and `sum` API
errors were counted before it. -/
inductive RoundEnd (n sum : Nat) (asked : List Peer) : Option Response → Prop
  | healthy :
      (∃ p ∈ asked, p.answer = .healthy) →
      RoundEnd n sum asked (some ⟨true, .healthyBecauseCRNotFound⟩)
  | unhealthy :
      (∃ p ∈ asked, p.answer = .unhealthy) → (∀ p ∈ asked, p.answer ≠ .healthy) →
      RoundEnd n sum asked (some ⟨false, .unHealthyBecausePeersResponse⟩)
  | apiErrors :
      (∀ p ∈ asked, p.answer ≠ .healthy ∧ p.answer ≠ .unhealthy) →
      n / 2 < sum + countAnswers .apiError asked →
      RoundEnd n sum asked (some ⟨true, .healthyBecauseMostPeersCantAccessAPIServer⟩)
  | undecided :
      (∀ p ∈ asked, p.answer ≠ .healthy ∧ p.answer ≠ .unhealthy) →
      sum + countAnswers .apiError asked ≤ n / 2 → RoundEnd n sum asked none

@[simp] theorem lastAnswer_nil (time : Time) : lastAnswer time [] = time := rfl

theorem lastAnswer_cons (time : Time) (b : Batch) (bs : List Batch) :
    lastAnswer time (b :: bs) =
      lastAnswer (if anyAnswered b.peers then b.collected else time) bs := rfl

theorem lastAnswer_append (time : Time) (bs bs' : List Batch) :
    lastAnswer time (bs ++ bs') = lastAnswer (lastAnswer time bs) bs' := List.foldl_append

@[simp] theorem afterBatch_errorCount (c : Checker) (b : Batch) :
    (c.afterBatch b).errorCount = c.errorCount := by
  unfold Checker.afterBatch
  dsimp only
  split <;> rfl

@[simp] theorem afterBatch_time (c : Checker) (b : Batch) :
    (c.afterBatch b).timeOfLastPeerResponse =
      if anyAnswered b.peers then b.collected else c.timeOfLastPeerResponse := by
  unfold Checker.afterBatch
  simp only [getHealthStatusFromPeers_eq, gt_iff_lt, tally_pos_iff]
  split <;> rfl

/-- A batch ends the round as its own answers say, or leaves it undecided. -/
theorem batchVerdict_cases {n sum : Nat} (peers : List Peer) (h : sum ≤ n / 2) :
    RoundEnd n sum peers (batchVerdict n sum peers) := by
  unfold batchVerdict
  simp only [getHealthStatusFromPeers_eq, gt_iff_lt]
  by_cases hh : 0 < countAnswers .healthy peers
  · rw [if_pos hh]
    exact .healthy (countAnswers_pos_iff.mp hh)
  · have hno : ∀ p ∈ peers, p.answer ≠ .healthy := by
      intro p hp he
      exact hh (countAnswers_pos_iff.mpr ⟨p, hp, he⟩)
    rw [if_neg hh]
    by_cases hu : 0 < countAnswers .unhealthy peers
    · rw [if_pos hu]
      exact .unhealthy (countAnswers_pos_iff.mp hu) hno
    · have hno' : ∀ p ∈ peers, p.answer ≠ .healthy ∧ p.answer ≠ .unhealthy := by
        intro p hp
        exact ⟨hno p hp, fun he => hu (countAnswers_pos_iff.mpr ⟨p, hp, he⟩)⟩
      rw [if_neg hu]
      split
      · next hm => exact .apiErrors hno' hm.2
      · next hm => exact .undecided hno' (by omega)

/-- A round that is undecided after `peers` ends as the peers after them say. -/
theorem RoundEnd.after {n sum : Nat} {peers rest : List Peer} {response : Option Response}
    (hno : ∀ p ∈ peers, p.answer ≠ .healthy ∧ p.answer ≠ .unhealthy)
    (h : RoundEnd n (sum + countAnswers .apiError peers) rest response) :
    RoundEnd n sum (peers ++ rest) response := by
  have hboth : ∀ {q : Peer → Prop}, (∀ p ∈ peers, q p) → (∀ p ∈ rest, q p) →
      ∀ p ∈ peers ++ rest, q p := by
    intro q h₁ h₂ p hp
    rcases List.mem_append.mp hp with hp | hp
    · exact h₁ p hp
    · exact h₂ p hp
  cases h with
  | healthy hex =>
    obtain ⟨p, hp, he⟩ := hex
    exact .healthy ⟨p, List.mem_append_right peers hp, he⟩
  | unhealthy hex hall =>
    obtain ⟨p, hp, he⟩ := hex
    exact .unhealthy ⟨p, List.mem_append_right peers hp, he⟩
      (hboth (fun p hp => (hno p hp).1) hall)
  | apiErrors hall hlt =>
    refine .apiErrors (hboth hno hall) ?_
    rw [countAnswers_append]
    omega
  | undecided hall hle =>
    refine .undecided (hboth hno hall) ?_
    rw [countAnswers_append]
    omega

/-- The batches as they are asked, from the `i`-th iteration on. -/
def timed (clock : RoundClock) : Nat → List (List Peer) → List Batch
  | _, [] => []
  | i, peers :: batches => ⟨peers, clock.issued i, clock.collected i⟩ :: timed clock (i + 1) batches

theorem length_timed (clock : RoundClock) (i : Nat) (batches : List (List Peer)) :
    (timed clock i batches).length = batches.length := by
  induction batches generalizing i with
  | nil => rfl
  | cons peers batches ih => rw [timed, List.length_cons, List.length_cons, ih]

theorem askedPeers_timed (clock : RoundClock) (i : Nat) (batches : List (List Peer)) :
    askedPeers (timed clock i batches) = batches.flatten := by
  induction batches generalizing i with
  | nil => rfl
  | cons peers batches ih => rw [timed, askedPeers_cons, ih, List.flatten_cons]

/-- What a round does: it ends as the answers say, it asks its batches in order
and all of them when it stays undecided, an answer is remembered, and only a
healthy one resets the error count. -/
structure RoundSpec (n : Nat) (clock : RoundClock) (i : Nat) (c : Checker) (sum : Nat)
    (batches : List (List Peer)) (r : Round) : Prop where
  ends : RoundEnd n sum (askedPeers r.asked) r.response
  asked : ∃ k, r.asked = timed clock i (batches.take k)
  all : r.response = none → r.asked = timed clock i batches
  time : r.checker.timeOfLastPeerResponse = lastAnswer c.timeOfLastPeerResponse r.asked
  errors : r.checker.errorCount =
    if r.response = some ⟨true, .healthyBecauseCRNotFound⟩ then 0 else c.errorCount

theorem askBatches_spec {n : Nat} {clock : RoundClock} (batches : List (List Peer)) (i : Nat)
    (c : Checker) (sum : Nat) (h : sum ≤ n / 2) :
    RoundSpec n clock i c sum batches (askBatches n clock i c sum batches) := by
  induction batches generalizing i c sum with
  | nil =>
    refine ⟨.undecided (by simp [askBatches]) (by simpa [askBatches, countAnswers] using h),
      ⟨0, rfl⟩, fun _ => rfl, rfl, rfl⟩
  | cons peers batches ih =>
    have hend := batchVerdict_cases peers h
    rw [askBatches]
    cases hv : batchVerdict n sum peers with
    | some response =>
      rw [hv] at hend
      refine ⟨?_, ⟨1, rfl⟩, by simp, ?_, ?_⟩
      · simpa using hend
      · rw [lastAnswer_cons, lastAnswer_nil]
        cases hend <;> simp
      · cases hend <;> simp
    | none =>
      rw [hv] at hend
      cases hend with
      | undecided hno hle =>
        simp only [getHealthStatusFromPeers_eq]
        obtain ⟨hends, ⟨k, hk⟩, hall, htime, herrors⟩ :=
          ih (i + 1) (c.afterBatch ⟨peers, clock.issued i, clock.collected i⟩)
            (sum + countAnswers .apiError peers) hle
        refine ⟨hends.after hno, ⟨k + 1, ?_⟩, ?_, ?_, ?_⟩
        · simp only [hk, List.take_succ_cons, timed]
        · intro hnone
          simp only [hall hnone, timed]
        · rw [lastAnswer_cons, htime, afterBatch_time]
        · rw [herrors, afterBatch_errorCount]

/-- Only the peers of the batches are asked. -/
theorem RoundSpec.mem_of_asked {n : Nat} {clock : RoundClock} {i : Nat} {c : Checker} {sum : Nat}
    {batches : List (List Peer)} {r : Round} (h : RoundSpec n clock i c sum batches r) {p : Peer}
    (hp : p ∈ askedPeers r.asked) : p ∈ batches.flatten := by
  obtain ⟨k, hk⟩ := h.asked
  rw [hk, askedPeers_timed] at hp
  obtain ⟨peers, hpeers, hmem⟩ := List.mem_flatten.mp hp
  exact List.mem_flatten.mpr ⟨peers, List.mem_of_mem_take hpeers, hmem⟩

/-- A peer is asked at most once. -/
theorem RoundSpec.countAnswers_le {n : Nat} {clock : RoundClock} {i : Nat} {c : Checker}
    {sum : Nat} {batches : List (List Peer)} {r : Round}
    (h : RoundSpec n clock i c sum batches r) (code : HealthCheckResponseCode) :
    countAnswers code (askedPeers r.asked) ≤ countAnswers code batches.flatten := by
  obtain ⟨k, hk⟩ := h.asked
  have hsplit : batches.flatten = (batches.take k).flatten ++ (batches.drop k).flatten := by
    rw [← List.flatten_append, List.take_append_drop]
  rw [hk, askedPeers_timed, hsplit, countAnswers_append]
  exact Nat.le_add_right _ _

/-- When nobody answers, the last answer is the one before. -/
theorem lastAnswer_of_unanswered {asked : List Batch} (time : Time)
    (h : ∀ p ∈ askedPeers asked, p.answer.answered = false) : lastAnswer time asked = time := by
  induction asked with
  | nil => rfl
  | cons b bs ih =>
    have hnone : anyAnswered b.peers = false := by
      simp only [anyAnswered, List.any_eq_false, Bool.not_eq_true]
      exact fun p hp => h p (List.mem_append_left _ hp)
    rw [lastAnswer_cons, hnone]
    exact ih fun p hp => h p (List.mem_append_right _ hp)

/-- A round ends undecided when nobody answers. -/
theorem RoundEnd.none_of_unanswered {n : Nat} {asked : List Peer} {response : Option Response}
    (h : RoundEnd n 0 asked response) (hno : ∀ p ∈ asked, p.answer.answered = false) :
    response = none := by
  have habs : ∀ {code : HealthCheckResponseCode}, code.answered = true →
      ¬ ∃ p ∈ asked, p.answer = code := by
    rintro code hcode ⟨p, hp, he⟩
    have hnot := hno p hp
    rw [he, hcode] at hnot
    cases hnot
  cases h with
  | healthy hex => exact absurd hex (habs rfl)
  | unhealthy hex _ => exact absurd hex (habs rfl)
  | apiErrors _ hlt =>
    have hpos : 0 < countAnswers .apiError asked := by omega
    exact absurd (countAnswers_pos_iff.mp hpos) (habs rfl)
  | undecided _ _ => rfl

/-- The spec of the source's loop over `peers`. -/
theorem askPeers_spec (clock : RoundClock) (c : Checker) (peers : List Peer) :
    RoundSpec peers.length clock 0 c 0 (Chunks.split (batchSizes peers.length) peers)
      (askPeers peers.length clock 0 c 0 peers) := by
  rw [askPeers_eq]
  exact askBatches_spec _ 0 c 0 (Nat.zero_le _)

/-! ## 5. How a worker verdict comes about -/

/-- The checker with one more error. -/
def Checker.fail (c : Checker) : Checker := { c with errorCount := c.errorCount + 1 }

/-- The peers are asked: enough errors, enough peers, and at least one. -/
structure PeersAsked (config : ApiConnectivityCheckConfig) (c : Checker) (peers : List Peer) :
    Prop where
  threshold : config.maxErrorsThreshold.toInt ≤ c.errorCount + 1
  enough : config.minPeersForRemediation.toInt ≤ peers.length
  nonempty : peers ≠ []

/-- The ways to a worker verdict. -/
inductive WorkerOutcome (config : ApiConnectivityCheckConfig) (c : Checker) (peers : List Peer)
    (clock : RoundClock) : WorkerVerdict → Prop
  | belowThreshold :
      c.errorCount + 1 < config.maxErrorsThreshold.toInt →
      WorkerOutcome config c peers clock
        ⟨c.fail, ⟨true, .healthyBecauseErrorsThresholdNotReached⟩, []⟩
  | tooFewPeers :
      config.maxErrorsThreshold.toInt ≤ c.errorCount + 1 →
      peers.length < config.minPeersForRemediation.toInt →
      WorkerOutcome config c peers clock ⟨c.fail, ⟨true, .healthyBecauseNoPeersWereFound⟩, []⟩
  | noPeers :
      config.maxErrorsThreshold.toInt ≤ c.errorCount + 1 →
      config.minPeersForRemediation.toInt ≤ peers.length → peers = [] →
      WorkerOutcome config c peers clock ⟨c.fail, ⟨false, .unHealthyBecauseNodeIsIsolated⟩, []⟩
  | decided {r : Round} {response : Response} :
      PeersAsked config c peers →
      RoundSpec peers.length clock 0 c.fail 0 (Chunks.split (batchSizes peers.length) peers) r →
      r.response = some response →
      WorkerOutcome config c peers clock ⟨r.checker, response, r.asked⟩
  | isolated {r : Round} :
      PeersAsked config c peers →
      RoundSpec peers.length clock 0 c.fail 0 (Chunks.split (batchSizes peers.length) peers) r →
      r.response = none →
      r.checker.timeOfLastPeerResponse + config.maxTimeForNoPeersResponse.toInt < clock.ended →
      WorkerOutcome config c peers clock
        ⟨r.checker, ⟨false, .unHealthyBecauseNodeIsIsolated⟩, r.asked⟩
  | waiting {r : Round} :
      PeersAsked config c peers →
      RoundSpec peers.length clock 0 c.fail 0 (Chunks.split (batchSizes peers.length) peers) r →
      r.response = none →
      clock.ended ≤ r.checker.timeOfLastPeerResponse + config.maxTimeForNoPeersResponse.toInt →
      WorkerOutcome config c peers clock
        ⟨r.checker, ⟨true, .healthyBecauseNoPeersResponseNotReachedTimeout⟩, r.asked⟩

theorem getWorkerPeersResponse_outcome (config : ApiConnectivityCheckConfig) (c : Checker)
    (peers : List Peer) (clock : RoundClock) :
    WorkerOutcome config c peers clock (getWorkerPeersResponse config c peers clock) := by
  unfold getWorkerPeersResponse
  dsimp only
  split
  · next h => exact .belowThreshold (by exact_mod_cast h)
  next hT =>
  have hthreshold : config.maxErrorsThreshold.toInt ≤ c.errorCount + 1 := by
    exact_mod_cast not_lt.mp hT
  split
  · next h => exact .tooFewPeers hthreshold h
  next hmin =>
  split
  · next h => exact .noPeers hthreshold (not_lt.mp hmin) (List.length_eq_zero_iff.mp h)
  next hlen =>
  have hasked : PeersAsked config c peers :=
    ⟨hthreshold, not_lt.mp hmin, fun h => hlen (List.length_eq_zero_iff.mpr h)⟩
  have hspec := askPeers_spec clock c.fail peers
  unfold Checker.fail at hspec
  split
  · next response h => exact .decided hasked hspec h
  · next h =>
    split
    · next hlate => exact .isolated hasked hspec h hlate
    · next hlate => exact .waiting hasked hspec h (not_lt.mp hlate)

/-- After every verdict the checker remembers the last answer. -/
theorem WorkerOutcome.time {config : ApiConnectivityCheckConfig} {c : Checker} {peers : List Peer}
    {clock : RoundClock} {v : WorkerVerdict} (h : WorkerOutcome config c peers clock v) :
    v.checker.timeOfLastPeerResponse = lastAnswer c.timeOfLastPeerResponse v.asked := by
  cases h with
  | belowThreshold _ => rfl
  | tooFewPeers _ _ => rfl
  | noPeers _ _ _ => rfl
  | decided _ hr _ => exact hr.time
  | isolated _ hr _ _ => exact hr.time
  | waiting _ hr _ _ => exact hr.time

/-- A verdict adds at most one error. -/
theorem WorkerOutcome.errorCount_le {config : ApiConnectivityCheckConfig} {c : Checker}
    {peers : List Peer} {clock : RoundClock} {v : WorkerVerdict}
    (h : WorkerOutcome config c peers clock v) : v.checker.errorCount ≤ c.errorCount + 1 := by
  have hround : ∀ {r : Round},
      RoundSpec peers.length clock 0 c.fail 0 (Chunks.split (batchSizes peers.length) peers) r →
      r.checker.errorCount ≤ c.errorCount + 1 := by
    intro r hr
    rw [hr.errors]
    split
    · omega
    · exact Nat.le_refl _
  cases h with
  | belowThreshold _ => exact Nat.le_refl _
  | tooFewPeers _ _ => exact Nat.le_refl _
  | noPeers _ _ _ => exact Nat.le_refl _
  | decided _ hr _ => exact hround hr
  | isolated _ hr _ _ => exact hround hr
  | waiting _ hr _ _ => exact hround hr

/-- The verdict over peers none of which answers: the checker counts one more
error, and the node is isolated when the peers were asked and the time since the
last answer has run out. -/
theorem WorkerOutcome.silent {config : ApiConnectivityCheckConfig} {c : Checker}
    {peers : List Peer} {clock : RoundClock} {v : WorkerVerdict}
    (h : WorkerOutcome config c peers clock v) (hpeers : peers ≠ [])
    (hsilent : ∀ p ∈ peers, p.answer.answered = false) :
    v.checker = c.fail ∧
      (v.response.reason = .unHealthyBecauseNodeIsIsolated ↔
        PeersAsked config c peers ∧
          c.timeOfLastPeerResponse + config.maxTimeForNoPeersResponse.toInt < clock.ended) := by
  -- in a round nobody answers, so it is undecided and changes nothing
  have hround : ∀ {r : Round},
      RoundSpec peers.length clock 0 c.fail 0 (Chunks.split (batchSizes peers.length) peers) r →
      r.response = none ∧ r.checker = c.fail := by
    intro r hr
    have hno : ∀ p ∈ askedPeers r.asked, p.answer.answered = false := by
      intro p hp
      have hmem := hr.mem_of_asked hp
      rw [Chunks.flatten_split] at hmem
      exact hsilent p hmem
    have hnone := hr.ends.none_of_unanswered hno
    have htime := hr.time
    have herrors := hr.errors
    rw [lastAnswer_of_unanswered _ hno] at htime
    rw [hnone, if_neg (by simp)] at herrors
    refine ⟨hnone, ?_⟩
    cases hc : r.checker with
    | mk errorCount time =>
      rw [hc] at htime herrors
      simp only at htime herrors
      rw [htime, herrors]
  cases h with
  | belowThreshold hlt =>
    refine ⟨rfl, by simp, ?_⟩
    rintro ⟨hasked, _⟩
    exact absurd hasked.threshold (not_le.mpr hlt)
  | tooFewPeers _ hlt =>
    refine ⟨rfl, by simp, ?_⟩
    rintro ⟨hasked, _⟩
    exact absurd hasked.enough (not_le.mpr hlt)
  | noPeers _ _ hnil => exact absurd hnil hpeers
  | decided _ hr hsome =>
    rw [(hround hr).1] at hsome
    cases hsome
  | isolated hasked hr _ hlate =>
    rw [(hround hr).2] at hlate
    exact ⟨(hround hr).2, fun _ => ⟨hasked, hlate⟩, fun _ => rfl⟩
  | waiting hasked hr _ hle =>
    rw [(hround hr).2] at hle
    refine ⟨(hround hr).2, by simp, ?_⟩
    rintro ⟨_, hlate⟩
    exact absurd hlate (not_lt.mpr hle)

end SelfNodeRemediation
