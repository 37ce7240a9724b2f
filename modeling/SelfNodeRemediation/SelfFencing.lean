import Mathlib.Data.List.Induction
import SelfNodeRemediation.ApiCheck

/-!
# When an agent reboots its own node

Soundness of the reboots that the API connectivity check triggers, over whole
runs of the check loop.

* `worker_reboot_sound`: what must have happened before an agent on a worker
  reboots it.
* `controlPlane_reboot_sound`: the same for one check on a control-plane node.
* `grace_kept_iff`: exactly when `MaxTimeForNoPeersResponse` is a grace window
  from the first unanswered query on. `grace_lost`: the time of the last answer
  is not refreshed while the API server is reachable, so after a long healthy
  time the first unanswered query is enough.
-/

namespace SelfNodeRemediation

/-! ## 1. Runs of the check loop -/

/-- A checker with the history of its run, oldest entry first: the checks so far
and the batches that were asked in them. -/
structure CheckRun where
  checker : Checker
  checks : List CheckInput
  asked : List Batch

/-- A checker that was created at time `start`. -/
def CheckRun.init (start : Time) : CheckRun := ⟨Checker.new start, [], []⟩

def CheckRun.step (config : ApiConnectivityCheckConfig) (isControlPlane : Bool) (r : CheckRun)
    (x : CheckInput) : CheckRun :=
  let result := check config isControlPlane r.checker x
  ⟨result.checker, r.checks ++ [x], r.asked ++ result.asked⟩

/-- The run of the given checks. -/
def runChecks (config : ApiConnectivityCheckConfig) (isControlPlane : Bool) (start : Time)
    (xs : List CheckInput) : CheckRun :=
  xs.foldl (CheckRun.step config isControlPlane) (CheckRun.init start)

section
variable (config : ApiConnectivityCheckConfig) {isControlPlane : Bool} (start : Time)

theorem runChecks_append (past : List CheckInput) (x : CheckInput) :
    runChecks config isControlPlane start (past ++ [x]) =
      (runChecks config isControlPlane start past).step config isControlPlane x := by
  unfold runChecks
  rw [List.foldl_append, List.foldl_cons, List.foldl_nil]

/-- The check gets to `isConsideredHealthy`: readyz failed, or it passed on a
control-plane node whose peers exist and cannot be reached. -/
def CheckInput.considered (x : CheckInput) (isControlPlane : Bool) : Bool :=
  x.readyz.failed ||
    (isControlPlane && !(getControlPlanePeersStatus x.readyzPassed).consideredUnhealthy &&
      !(getControlPlanePeersStatus x.readyzPassed).canBeReached &&
      decide (x.controlPlanePeers.length > 0))

theorem check_of_considered (c : Checker) {x : CheckInput}
    (h : x.considered isControlPlane = true) :
    (check config isControlPlane c x).checker =
        (isConsideredHealthy config isControlPlane c x).worker.checker ∧
      (check config isControlPlane c x).asked =
        (isConsideredHealthy config isControlPlane c x).worker.asked ∧
      (check config isControlPlane c x).verdict =
        some (isConsideredHealthy config isControlPlane c x).worker.response := by
  unfold check
  unfold CheckInput.considered at h
  cases hz : x.readyz.failed with
  | true => exact ⟨rfl, rfl, rfl⟩
  | false =>
    rw [hz] at h
    simp only [Bool.false_or, Bool.and_eq_true, decide_eq_true_eq] at h
    obtain ⟨⟨⟨hcp, hunhealthy⟩, hreached⟩, hexist⟩ := h
    dsimp only
    rw [if_neg (by simp), if_pos hcp, if_neg (by simpa using hunhealthy),
      if_pos ⟨hreached, hexist⟩]
    exact ⟨rfl, rfl, rfl⟩

theorem check_of_not_considered (c : Checker) {x : CheckInput}
    (h : x.considered isControlPlane = false) :
    (check config isControlPlane c x).checker.timeOfLastPeerResponse = c.timeOfLastPeerResponse ∧
      (isControlPlane = false → (check config isControlPlane c x).checker.errorCount = 0) ∧
      (check config isControlPlane c x).asked = [] ∧
      (check config isControlPlane c x).verdict = none := by
  unfold check
  unfold CheckInput.considered at h
  rw [Bool.or_eq_false_iff] at h
  obtain ⟨hz, h⟩ := h
  rw [if_neg (by simp [hz])]
  cases isControlPlane with
  | false => exact ⟨rfl, fun _ => rfl, rfl, rfl⟩
  | true =>
    rw [if_pos rfl]
    dsimp only
    split
    · exact ⟨rfl, fun hcp => (by cases hcp), rfl, rfl⟩
    · split
      · next hunhealthy hboth => simp [hunhealthy, hboth.1, hboth.2] at h
      · exact ⟨rfl, fun hcp => (by cases hcp), rfl, rfl⟩

theorem isConsideredHealthy_worker (isControlPlane : Bool) (c : Checker) (x : CheckInput) :
    (isConsideredHealthy config isControlPlane c x).worker =
      getWorkerPeersResponse config c x.workerPeers x.clock := by
  unfold isConsideredHealthy
  dsimp only
  split
  · rfl
  · split <;> rfl

/-- The worker verdict behind a check. -/
theorem isConsideredHealthy_outcome (isControlPlane : Bool) (c : Checker) (x : CheckInput) :
    WorkerOutcome config c x.workerPeers x.clock
      (isConsideredHealthy config isControlPlane c x).worker := by
  rw [isConsideredHealthy_worker]
  exact getWorkerPeersResponse_outcome config c x.workerPeers x.clock

/-- One check keeps the time of the last answer. -/
theorem check_time (isControlPlane : Bool) (c : Checker) (x : CheckInput) :
    (check config isControlPlane c x).checker.timeOfLastPeerResponse =
      lastAnswer c.timeOfLastPeerResponse (check config isControlPlane c x).asked := by
  cases h : x.considered isControlPlane with
  | true =>
    obtain ⟨hchecker, hasked, _⟩ := check_of_considered config c h
    rw [hchecker, hasked]
    exact (isConsideredHealthy_outcome config isControlPlane c x).time
  | false =>
    obtain ⟨htime, _, hasked, _⟩ := check_of_not_considered config c h
    rw [htime, hasked, lastAnswer_nil]

/-- Over a whole run the checker remembers the last answer, or its start. -/
theorem runChecks_time (isControlPlane : Bool) (start : Time) (xs : List CheckInput) :
    (runChecks config isControlPlane start xs).checker.timeOfLastPeerResponse =
      lastAnswer start (runChecks config isControlPlane start xs).asked := by
  induction xs using List.reverseRecOn with
  | nil => rfl
  | append_singleton past x ih =>
    rw [runChecks_append, CheckRun.step, check_time, ih, lastAnswer_append]

end

/-! ## 2. Reboots of a worker -/

/-- The last `k` checks are there and failed readyz. -/
def LastFailed (k : Nat) (checks : List CheckInput) : Prop :=
  k ≤ checks.length ∧ ∀ y ∈ checks.drop (checks.length - k), y.readyz.failed = true

theorem LastFailed.mono {j k : Nat} {checks : List CheckInput} (h : LastFailed k checks)
    (hjk : j ≤ k) : LastFailed j checks := by
  refine ⟨Nat.le_trans hjk h.1, ?_⟩
  intro y hy
  have hdrop : checks.drop (checks.length - j) =
      (checks.drop (checks.length - k)).drop (k - j) := by
    rw [List.drop_drop]
    congr 1
    have := h.1
    omega
  rw [hdrop] at hy
  exact h.2 y (List.mem_of_mem_drop hy)

theorem LastFailed.snoc {k : Nat} {checks : List CheckInput} {x : CheckInput}
    (h : LastFailed k checks) (hx : x.readyz.failed = true) :
    LastFailed (k + 1) (checks ++ [x]) := by
  have hk := h.1
  refine ⟨by rw [List.length_append, List.length_singleton]; omega, ?_⟩
  intro y hy
  rw [List.length_append, List.length_singleton, List.drop_append_of_le_length (by omega)] at hy
  rcases List.mem_append.mp hy with hy | hy
  · have hsame : checks.length + 1 - (k + 1) = checks.length - k := by omega
    rw [hsame] at hy
    exact h.2 y hy
  · rw [List.mem_singleton.mp hy]
    exact hx

section
variable (config : ApiConnectivityCheckConfig) (start : Time)

/-- On a worker only a failed readyz leads to the peers. -/
theorem considered_worker (x : CheckInput) : x.considered false = x.readyz.failed := by
  simp [CheckInput.considered]

/-- On a worker the error count never exceeds the number of checks that failed
readyz in a row. -/
theorem runChecks_errors (xs : List CheckInput) :
    LastFailed (runChecks config false start xs).checker.errorCount xs := by
  induction xs using List.reverseRecOn with
  | nil => exact ⟨Nat.le_refl 0, fun y hy => (by cases hy)⟩
  | append_singleton past x ih =>
    rw [runChecks_append, CheckRun.step]
    dsimp only
    cases h : x.considered false with
    | true =>
      obtain ⟨hchecker, _, _⟩ := check_of_considered config
        (runChecks config false start past).checker h
      rw [hchecker]
      rw [considered_worker] at h
      exact (ih.snoc h).mono (isConsideredHealthy_outcome config false _ x).errorCount_le
    | false =>
      obtain ⟨_, hzero, _, _⟩ := check_of_not_considered config
        (runChecks config false start past).checker h
      rw [hzero rfl]
      refine ⟨Nat.zero_le _, ?_⟩
      intro y hy
      rw [Nat.sub_zero, List.drop_length] at hy
      cases hy

end

/-- When the answers of the given batches were collected. -/
def answerTimes (asked : List Batch) : List Time :=
  (asked.filter fun b => anyAnswered b.peers).map Batch.collected

/-- No answer came within the last `window` before `ended`: the last one is older,
and if the readings of the clock never went back, so is every one. -/
def NoAnswerWithin (window : Int) (start : Time) (asked : List Batch) (ended : Time) : Prop :=
  lastAnswer start asked + window < ended ∧
    ((answerTimes asked).Pairwise (· ≤ ·) →
      ∀ time ∈ answerTimes asked, time + window < ended)

/-- The last answer is the latest one when the clock does not go back. -/
theorem le_lastAnswer {asked : List Batch} (start : Time)
    (hsorted : (answerTimes asked).Pairwise (· ≤ ·)) :
    ∀ time ∈ answerTimes asked, time ≤ lastAnswer start asked := by
  induction asked using List.reverseRecOn with
  | nil =>
    intro time htime
    cases htime
  | append_singleton asked b ih =>
    intro time htime
    have happ : answerTimes (asked ++ [b]) = answerTimes asked ++ answerTimes [b] := by
      unfold answerTimes
      rw [List.filter_append, List.map_append]
    rw [happ] at hsorted htime
    rw [List.pairwise_append] at hsorted
    rw [lastAnswer_append, lastAnswer_cons, lastAnswer_nil]
    cases hb : anyAnswered b.peers with
    | true =>
      have hone : answerTimes [b] = [b.collected] := by simp [answerTimes, hb]
      rw [hone] at hsorted htime
      rcases List.mem_append.mp htime with htime | htime
      · exact hsorted.2.2 time htime b.collected (List.mem_singleton_self _)
      · rw [List.mem_singleton.mp htime]
        exact le_refl _
    | false =>
      have hnone : answerTimes [b] = [] := by simp [answerTimes, hb]
      rw [hnone, List.append_nil] at htime
      exact ih hsorted.1 time htime

/-- What must have happened before the check `x` reboots a worker after the checks
`past`. -/
structure WorkerRebootJustified (config : ApiConnectivityCheckConfig) (start : Time)
    (past : List CheckInput) (x : CheckInput) (asked : List Batch) : Prop where
  failed : x.readyz.failed = true
  lastFailed : LastFailed config.maxErrorsThreshold.toInt.toNat (past ++ [x])
  enough : config.minPeersForRemediation.toInt ≤ x.workerPeers.length
  reason :
    x.workerPeers = [] ∨
    ((∃ p ∈ askedPeers asked, p.answer = .unhealthy) ∧
      ∀ p ∈ askedPeers asked, p.answer ≠ .healthy) ∨
    (askedPeers asked = x.workerPeers ∧
      (∀ p ∈ x.workerPeers, p.answer ≠ .healthy ∧ p.answer ≠ .unhealthy) ∧
      2 * countAnswers .apiError x.workerPeers ≤ x.workerPeers.length ∧
      NoAnswerWithin config.maxTimeForNoPeersResponse.toInt start
        ((runChecks config false start past).asked ++ asked) x.clock.ended)

/-- An agent reboots its worker only after as many failed checks in a row as the
threshold says, with enough peers, and when there are no peers at all, or a peer
it asked says unhealthy and none healthy, or no peer says either, at most half of
them report API errors and nobody has answered for the configured time. -/
theorem worker_reboot_sound (config : ApiConnectivityCheckConfig) (start : Time)
    (past : List CheckInput) (x : CheckInput)
    (h : (check config false (runChecks config false start past).checker x).rebooted = true) :
    WorkerRebootJustified config start past x
      (check config false (runChecks config false start past).checker x).asked := by
  have herrors := runChecks_errors config start past
  have htime := runChecks_time config false start past
  generalize hrun : runChecks config false start past = run at h herrors htime ⊢
  cases hz : x.readyz.failed with
  | false => simp [check, hz] at h
  | true =>
    obtain ⟨_, hasked, _⟩ := check_of_considered config run.checker
      (show x.considered false = true by rw [considered_worker]; exact hz)
    have hworker : (check config false run.checker x).rebooted =
        !(isConsideredHealthy config false run.checker x).worker.response.isHealthy := by
      simp [check, hz, Consideration.result, isConsideredHealthy]
    rw [hworker] at h
    have houtcome := isConsideredHealthy_outcome config false run.checker x
    rw [hasked]
    generalize (isConsideredHealthy config false run.checker x).worker = v at houtcome h
    -- the last checks failed as soon as the error count has reached the threshold
    have hlast : config.maxErrorsThreshold.toInt ≤ run.checker.errorCount + 1 →
        LastFailed config.maxErrorsThreshold.toInt.toNat (past ++ [x]) :=
      fun hle => (herrors.snoc hz).mono (by omega)
    cases houtcome with
    | belowThreshold _ => cases h
    | tooFewPeers _ _ => cases h
    | noPeers hle henough hnil => exact ⟨hz, hlast hle, henough, .inl hnil⟩
    | decided hpeers hr hresponse =>
      refine ⟨hz, hlast hpeers.threshold, hpeers.enough, .inr (.inl ?_)⟩
      have hend := hr.ends
      rw [hresponse] at hend
      cases hend with
      | healthy _ => cases h
      | unhealthy hex hall => exact ⟨hex, hall⟩
      | apiErrors _ _ => cases h
    | @isolated r hpeers hr hnone hlate =>
      refine ⟨hz, hlast hpeers.threshold, hpeers.enough, .inr (.inr ?_)⟩
      rw [hrun]
      dsimp only
      have hall : askedPeers r.asked = x.workerPeers := by
        rw [hr.all hnone, askedPeers_timed, Chunks.flatten_split]
      have hend := hr.ends
      rw [hnone, hall] at hend
      have hlastAnswer : lastAnswer start (run.asked ++ r.asked) +
          config.maxTimeForNoPeersResponse.toInt < x.clock.ended := by
        rw [lastAnswer_append, ← htime]
        rw [hr.time] at hlate
        exact hlate
      cases hend with
      | undecided hno hle =>
        refine ⟨hall, hno, by omega, hlastAnswer, ?_⟩
        intro hsorted time hmem
        have hle := le_lastAnswer start hsorted time hmem
        exact lt_of_le_of_lt (Int.add_le_add_right hle _) hlastAnswer
    | waiting _ _ _ _ => cases h

/-- A check on a worker whose readyz request fails. -/
def failedCheck (peers : List Peer) (clock : RoundClock) : CheckInput :=
  ⟨.error, peers, clock, ⟨[], false, []⟩, [], ⟨[], false, []⟩, ⟨false, false, true⟩⟩

/-- A peer that has seen the remediation of this node. -/
def unhealthyPeer : Peer := ⟨"10.0.0.2", .unhealthy⟩

def twoFailedChecks : List CheckInput :=
  List.replicate 2 (failedCheck [unhealthyPeer] ⟨fun _ => 1, fun _ => 2, 3⟩)

def thirdFailedCheck : CheckInput := failedCheck [unhealthyPeer] ⟨fun _ => 4, fun _ => 5, 6⟩

def thirdFailedResult : CheckResult :=
  check defaultAgent false (runChecks defaultAgent false 0 twoFailedChecks).checker
    thirdFailedCheck

/-- The third failed check in a row, and the only peer says unhealthy. -/
theorem worker_reboot_sound_unhealthy :
    thirdFailedResult.rebooted = true ∧
      WorkerRebootJustified defaultAgent 0 twoFailedChecks thirdFailedCheck
        thirdFailedResult.asked := by
  have hworker : getWorkerPeersResponse defaultAgent ⟨2, 0⟩ [unhealthyPeer]
      thirdFailedCheck.clock =
        ⟨⟨3, 5⟩, ⟨false, .unHealthyBecausePeersResponse⟩, [⟨[unhealthyPeer], 4, 5⟩]⟩ := by
    unfold getWorkerPeersResponse
    dsimp only [List.length_singleton]
    rw [askPeers_one]
    rfl
  have hreboot : thirdFailedResult.rebooted = true := by
    show (!(getWorkerPeersResponse defaultAgent ⟨2, 0⟩ [unhealthyPeer]
      thirdFailedCheck.clock).response.isHealthy) = true
    rw [hworker]
    rfl
  exact ⟨hreboot, worker_reboot_sound defaultAgent 0 twoFailedChecks thirdFailedCheck hreboot⟩

/-! ## 3. Reboots of a control-plane node -/

/-- Some peer answered unhealthy in one of the dials. -/
def ReportedUnhealthy (dials : List (List Peer)) : Prop :=
  ∃ peers ∈ dials, ∃ p ∈ peers, p.answer = .unhealthy

/-- No peer of the list answered. -/
def NobodyAnswered (peers : List Peer) : Prop := ∀ p ∈ peers, p.answer.answered = false

/-- A dial reaches a peer when one answers, and reports unhealthy when one says so. -/
theorem dialControlPlanePeers_eq (peers : List Peer) :
    dialControlPlanePeers peers =
      (anyAnswered peers, decide (0 < countAnswers .unhealthy peers)) := by
  unfold dialControlPlanePeers
  split
  · next h =>
    rw [List.length_eq_zero_iff.mp h]
    rfl
  · simp only [getHealthStatusFromPeers_eq, gt_iff_lt, tally_pos_iff, Bool.decide_eq_true]

theorem nobodyAnswered_iff (peers : List Peer) :
    NobodyAnswered peers ↔ anyAnswered peers = false := by
  simp [NobodyAnswered, anyAnswered]

/-- What a status query says about the dials it made. -/
structure StatusSpec (s : ControlPlaneStatus) : Prop where
  unhealthy : s.consideredUnhealthy = true → ReportedUnhealthy s.dials
  unreached : s.canBeReached = false → ∀ peers ∈ s.dials, NobodyAnswered peers
  dialed : s.dials ≠ []

theorem getControlPlanePeersStatus_spec (q : StatusQuery) :
    StatusSpec (getControlPlanePeersStatus q) := by
  have hunhealthy : ∀ {peers : List Peer} {dials : List (List Peer)}, peers ∈ dials →
      decide (0 < countAnswers .unhealthy peers) = true → ReportedUnhealthy dials := by
    intro peers dials hmem h
    rw [decide_eq_true_eq, countAnswers_pos_iff] at h
    exact ⟨peers, hmem, h⟩
  unfold getControlPlanePeersStatus
  simp only [dialControlPlanePeers_eq]
  cases hfirst : anyAnswered q.first with
  | true =>
    refine ⟨hunhealthy (List.mem_singleton_self _), fun h => (by cases h), List.cons_ne_nil _ _⟩
  | false =>
    have hnone := (nobodyAnswered_iff q.first).mpr hfirst
    cases hrefreshed : q.refreshed with
    | true =>
      refine ⟨hunhealthy (List.mem_cons_of_mem _ (List.mem_singleton_self _)), ?_,
        List.cons_ne_nil _ _⟩
      intro hsecond peers hpeers
      rcases List.mem_cons.mp hpeers with rfl | hpeers
      · exact hnone
      · rw [List.mem_singleton.mp hpeers]
        exact (nobodyAnswered_iff q.second).mpr hsecond
    | false =>
      refine ⟨hunhealthy (List.mem_singleton_self _), ?_, List.cons_ne_nil _ _⟩
      intro _ peers hpeers
      rw [List.mem_singleton.mp hpeers]
      exact hnone

/-- The last of the dials reached nobody. -/
def LastDialUnanswered (dials : List (List Peer)) : Prop :=
  ∃ peers, dials.getLast? = some peers ∧ NobodyAnswered peers

theorem StatusSpec.lastDial {s : ControlPlaneStatus} (h : StatusSpec s)
    (hunreached : s.canBeReached = false) (before : List (List Peer)) :
    LastDialUnanswered (before ++ s.dials) := by
  refine ⟨s.dials.getLast h.dialed, ?_, h.unreached hunreached _ (List.getLast_mem h.dialed)⟩
  rw [List.getLast?_append, List.getLast?_eq_some_getLast h.dialed]
  rfl

/-- A verdict by the answers of the peers rests on an unhealthy answer. -/
theorem WorkerOutcome.unhealthy {config : ApiConnectivityCheckConfig} {c : Checker}
    {peers : List Peer} {clock : RoundClock} {v : WorkerVerdict}
    (h : WorkerOutcome config c peers clock v)
    (hreason : v.response.reason = .unHealthyBecausePeersResponse) :
    ∃ p ∈ askedPeers v.asked, p.answer = .unhealthy := by
  cases h with
  | belowThreshold _ => cases hreason
  | tooFewPeers _ _ => cases hreason
  | noPeers _ _ _ => cases hreason
  | decided _ hr hresponse =>
    have hend := hr.ends
    rw [hresponse] at hend
    cases hend with
    | healthy _ => cases hreason
    | unhealthy hex _ => exact hex
    | apiErrors _ _ => cases hreason
  | isolated _ _ _ _ => cases hreason
  | waiting _ _ _ _ => cases hreason

/-- The causes of a reboot on a control-plane node: a control-plane peer or a worker
says unhealthy; the last dial reached no control-plane peer and the worker verdict
is isolated or too few peers; or that verdict is too few peers or a majority of
API errors, and the diagnostics failed. -/
def RebootCause (x : CheckInput) (verdict : Option Response) (asked : List Batch)
    (dials : List (List Peer)) : Prop :=
  ReportedUnhealthy dials ∨
  (∃ p ∈ askedPeers asked, p.answer = .unhealthy) ∨
  (LastDialUnanswered dials ∧ ∃ response, verdict = some response ∧
    (response.reason = .unHealthyBecauseNodeIsIsolated ∨
      response.reason = .healthyBecauseNoPeersWereFound)) ∨
  (x.diagnostics.isDiagnosticsPassed = false ∧ ∃ response, verdict = some response ∧
    (response.reason = .healthyBecauseNoPeersWereFound ∨
      response.reason = .healthyBecauseMostPeersCantAccessAPIServer))

theorem isConsideredHealthy_controlPlane {config : ApiConnectivityCheckConfig} {c : Checker}
    {x : CheckInput} (before : List (List Peer))
    (h : (isConsideredHealthy config true c x).isHealthy = false) :
    RebootCause x (some (isConsideredHealthy config true c x).worker.response)
      (isConsideredHealthy config true c x).worker.asked
      (before ++ (isConsideredHealthy config true c x).dials) := by
  have houtcome := isConsideredHealthy_outcome config true c x
  have hstatus := getControlPlanePeersStatus_spec x.status
  rw [isConsideredHealthy_worker] at houtcome ⊢
  have hdials : (isConsideredHealthy config true c x).dials =
      (getControlPlanePeersStatus x.status).dials := by
    unfold isConsideredHealthy
    dsimp only
    rw [if_neg (by simp)]
    split <;> rfl
  rw [hdials]
  cases hunhealthy : (getControlPlanePeersStatus x.status).consideredUnhealthy with
  | true =>
    obtain ⟨peers, hmem, hp⟩ := hstatus.unhealthy hunhealthy
    exact .inl ⟨peers, List.mem_append_right before hmem, hp⟩
  | false =>
    have hcp : isControlPlaneHealthy x.diagnostics
        (getWorkerPeersResponse config c x.workerPeers x.clock).response
        (getControlPlanePeersStatus x.status).canBeReached = false := by
      rw [← h]
      simp [isConsideredHealthy, hunhealthy]
    generalize getWorkerPeersResponse config c x.workerPeers x.clock = v at houtcome hcp ⊢
    unfold isControlPlaneHealthy at hcp
    cases hreason : v.response.reason with
    | unHealthyBecausePeersResponse => exact .inr (.inl (houtcome.unhealthy hreason))
    | unHealthyBecauseNodeIsIsolated =>
      rw [hreason] at hcp
      exact .inr (.inr (.inl ⟨hstatus.lastDial hcp before, _, rfl, .inl hreason⟩))
    | healthyBecauseMostPeersCantAccessAPIServer =>
      rw [hreason] at hcp
      exact .inr (.inr (.inr ⟨hcp, _, rfl, .inr hreason⟩))
    | healthyBecauseNoPeersWereFound =>
      rw [hreason] at hcp
      rcases Bool.and_eq_false_iff.mp hcp with hdiag | hreach
      · exact .inr (.inr (.inr ⟨hdiag, _, rfl, .inl hreason⟩))
      · exact .inr (.inr (.inl ⟨hstatus.lastDial hreach before, _, rfl, .inr hreason⟩))
    | healthyBecauseErrorsThresholdNotReached => simp [hreason] at hcp
    | healthyBecauseCRNotFound => simp [hreason] at hcp
    | healthyBecauseNoPeersResponseNotReachedTimeout => simp [hreason] at hcp

/-- A check reboots a control-plane node only for one of the causes; and when readyz
passed, only if a control-plane peer says unhealthy, or there are control-plane peers
and none of them answered the first status query. -/
theorem controlPlane_reboot_sound (config : ApiConnectivityCheckConfig) (c : Checker)
    (x : CheckInput) (h : (check config true c x).rebooted = true) :
    RebootCause x (check config true c x).verdict (check config true c x).asked
        (check config true c x).dials ∧
      (x.readyz.failed = false →
        ReportedUnhealthy (check config true c x).dials ∨
        (x.controlPlanePeers ≠ [] ∧
          ∀ peers ∈ (getControlPlanePeersStatus x.readyzPassed).dials, NobodyAnswered peers)) := by
  have hstatus := getControlPlanePeersStatus_spec x.readyzPassed
  cases hz : x.readyz.failed with
  | true =>
    have hcheck : check config true c x = (isConsideredHealthy config true c x).result := by
      simp [check, hz]
    rw [hcheck] at h ⊢
    have hhealth : (isConsideredHealthy config true c x).isHealthy = false := by
      simpa [Consideration.result] using h
    exact ⟨isConsideredHealthy_controlPlane [] hhealth, fun hpassed => (by cases hpassed)⟩
  | false =>
    cases hunhealthy : (getControlPlanePeersStatus x.readyzPassed).consideredUnhealthy with
    | true =>
      have hcheck : check config true c x =
          ⟨c, true, none, [], (getControlPlanePeersStatus x.readyzPassed).dials⟩ := by
        simp [check, hz, hunhealthy]
      rw [hcheck]
      exact ⟨.inl (hstatus.unhealthy hunhealthy), fun _ => .inl (hstatus.unhealthy hunhealthy)⟩
    | false =>
      by_cases hisolated : (!(getControlPlanePeersStatus x.readyzPassed).canBeReached) = true ∧
          x.controlPlanePeers.length > 0
      · have hcheck : check config true c x =
            { (isConsideredHealthy config true c x).result with
              dials := (getControlPlanePeersStatus x.readyzPassed).dials ++
                (isConsideredHealthy config true c x).dials } := by
          unfold check
          dsimp only
          rw [if_neg (by simp [hz]), if_pos rfl, if_neg (by simp [hunhealthy]), if_pos hisolated]
          rfl
        rw [hcheck] at h ⊢
        have hhealth : (isConsideredHealthy config true c x).isHealthy = false := by
          simpa [Consideration.result] using h
        refine ⟨isConsideredHealthy_controlPlane _ hhealth, fun _ => .inr ⟨?_, ?_⟩⟩
        · exact List.length_pos_iff.mp hisolated.2
        · exact hstatus.unreached (by simpa using hisolated.1)
      · have hcheck : (check config true c x).rebooted = false := by
          unfold check
          dsimp only
          rw [if_neg (by simp [hz]), if_pos rfl, if_neg (by simp [hunhealthy]), if_neg hisolated]
        rw [hcheck] at h
        cases h

/-- A check on a control-plane node that passes readyz, with a control-plane peer
that says unhealthy. -/
def reportedCheck : CheckInput :=
  ⟨.statusCode 200, [], ⟨fun _ => 0, fun _ => 0, 0⟩, ⟨[unhealthyPeer], false, []⟩,
    [unhealthyPeer], ⟨[], false, []⟩, ⟨true, true, true⟩⟩

theorem controlPlane_reboot_sound_reported :
    (check defaultAgent true (Checker.new 0) reportedCheck).rebooted = true ∧
      RebootCause reportedCheck (check defaultAgent true (Checker.new 0) reportedCheck).verdict
        (check defaultAgent true (Checker.new 0) reportedCheck).asked
        (check defaultAgent true (Checker.new 0) reportedCheck).dials :=
  ⟨rfl, (controlPlane_reboot_sound defaultAgent (Checker.new 0) reportedCheck rfl).1⟩

/-! ## 4. The grace window -/

/-- When the first query was sent after the last answered one, if any was: an
answered batch forgets the queries before it. -/
def firstQuerySince (asked : List Batch) : Option Time :=
  asked.foldl (fun first b => if anyAnswered b.peers then none else some (first.getD b.issued)) none

/-- The isolation verdict of the check `x` after the run `r`, over a list of peers
that is not empty, comes only when the peers have been asked without an answer for
the configured time. -/
def IsolationAfterGrace (config : ApiConnectivityCheckConfig) (isControlPlane : Bool)
    (r : CheckRun) (x : CheckInput) : Prop :=
  x.workerPeers ≠ [] →
  (check config isControlPlane r.checker x).verdict =
    some ⟨false, .unHealthyBecauseNodeIsIsolated⟩ →
  ∃ first, firstQuerySince (r.asked ++ (check config isControlPlane r.checker x).asked) =
      some first ∧
    first ≤ x.clock.ended - config.maxTimeForNoPeersResponse.toInt

/-- All the batches of the worker peers of a check, as a round that stays undecided
asks them. -/
def CheckInput.fullRound (x : CheckInput) : List Batch :=
  timed x.clock 0 (Chunks.split (batchSizes x.workerPeers.length) x.workerPeers)

/-- The answers of the peers leave a round undecided. -/
def Undecided (peers : List Peer) : Prop :=
  (∀ p ∈ peers, p.answer ≠ .healthy ∧ p.answer ≠ .unhealthy) ∧
    countAnswers .apiError peers ≤ peers.length / 2

/-- The check sends an undecided round to its peers. -/
structure UndecidedRound (config : ApiConnectivityCheckConfig) (isControlPlane : Bool)
    (c : Checker) (x : CheckInput) : Prop where
  considered : x.considered isControlPlane = true
  peersAsked : PeersAsked config c x.workerPeers
  undecided : Undecided x.workerPeers

/-- No undecided round ends in the time from `MaxTimeForNoPeersResponse` after the
last answer, or the start, until as long after the first query since then. -/
def GraceKept (config : ApiConnectivityCheckConfig) (isControlPlane : Bool) (start : Time)
    (r : CheckRun) (x : CheckInput) : Prop :=
  UndecidedRound config isControlPlane r.checker x →
  lastAnswer start (r.asked ++ x.fullRound) + config.maxTimeForNoPeersResponse.toInt <
    x.clock.ended →
  ∃ first, firstQuerySince (r.asked ++ x.fullRound) = some first ∧
    first + config.maxTimeForNoPeersResponse.toInt ≤ x.clock.ended

section
variable {config : ApiConnectivityCheckConfig} {isControlPlane : Bool}

/-- A verdict over answers that leave the round undecided: it asks everybody, and the
node is isolated when the time since the last answer has run out. -/
theorem WorkerOutcome.undecided {c : Checker} {peers : List Peer} {clock : RoundClock}
    {v : WorkerVerdict} (h : WorkerOutcome config c peers clock v)
    (hasked : PeersAsked config c peers) (hpeers : Undecided peers) :
    v.asked = timed clock 0 (Chunks.split (batchSizes peers.length) peers) ∧
      (lastAnswer c.timeOfLastPeerResponse v.asked + config.maxTimeForNoPeersResponse.toInt <
        clock.ended → v.response = ⟨false, .unHealthyBecauseNodeIsIsolated⟩) := by
  cases h with
  | belowThreshold hlt => exact absurd hasked.threshold (not_le.mpr hlt)
  | tooFewPeers _ hlt => exact absurd hasked.enough (not_le.mpr hlt)
  | noPeers _ _ hnil => exact absurd hnil hasked.nonempty
  | decided _ hr hresponse =>
    have hend := hr.ends
    have hmem := fun p => hr.mem_of_asked (p := p)
    have hcount := hr.countAnswers_le .apiError
    rw [Chunks.flatten_split] at hmem hcount
    rw [hresponse] at hend
    cases hend with
    | healthy hex =>
      obtain ⟨p, hp, he⟩ := hex
      exact absurd he (hpeers.1 p (hmem p hp)).1
    | unhealthy hex _ =>
      obtain ⟨p, hp, he⟩ := hex
      exact absurd he (hpeers.1 p (hmem p hp)).2
    | apiErrors _ hlt =>
      have := hpeers.2
      omega
  | isolated _ hr hnone _ => exact ⟨hr.all hnone, fun _ => rfl⟩
  | waiting _ hr hnone hle =>
    refine ⟨hr.all hnone, fun hlate => ?_⟩
    rw [hr.time] at hle
    exact absurd hlate (not_lt.mpr hle)

/-- An isolation verdict over some peers comes from an undecided round that ends
after the time without peers. -/
theorem WorkerOutcome.isolated_inv {c : Checker} {peers : List Peer} {clock : RoundClock}
    {v : WorkerVerdict} (h : WorkerOutcome config c peers clock v) (hne : peers ≠ [])
    (hv : v.response = ⟨false, .unHealthyBecauseNodeIsIsolated⟩) :
    PeersAsked config c peers ∧ Undecided peers ∧
      lastAnswer c.timeOfLastPeerResponse v.asked + config.maxTimeForNoPeersResponse.toInt <
        clock.ended := by
  cases h with
  | belowThreshold _ => cases hv
  | tooFewPeers _ _ => cases hv
  | noPeers _ _ hnil => exact absurd hnil hne
  | decided _ hr hresponse =>
    have hend := hr.ends
    rw [hresponse] at hend
    cases hend with
    | healthy _ => cases hv
    | unhealthy _ _ => cases hv
    | apiErrors _ _ => cases hv
  | @isolated r hasked hr hnone hlate =>
    have hall : askedPeers r.asked = peers := by
      rw [hr.all hnone, askedPeers_timed, Chunks.flatten_split]
    have hend := hr.ends
    rw [hnone, hall] at hend
    rw [hr.time] at hlate
    cases hend with
    | undecided hno hle => exact ⟨hasked, ⟨hno, by omega⟩, hlate⟩
  | waiting _ _ _ _ => cases hv

/-- One check: the verdict respects the grace window exactly when the check is not an
undecided round that ends between the two deadlines. -/
theorem isolationAfterGrace_iff {start : Time} {r : CheckRun}
    (htime : r.checker.timeOfLastPeerResponse = lastAnswer start r.asked) (x : CheckInput) :
    IsolationAfterGrace config isControlPlane r x ↔
      GraceKept config isControlPlane start r x := by
  have houtcome := isConsideredHealthy_outcome config isControlPlane r.checker x
  constructor
  · intro h hround hlate
    obtain ⟨_, hasked, hverdict⟩ := check_of_considered config r.checker
      hround.considered
    obtain ⟨hall, hisolated⟩ := houtcome.undecided hround.peersAsked hround.undecided
    rw [lastAnswer_append, ← htime] at hlate
    have hresponse := hisolated (by rw [hall]; exact hlate)
    rw [hresponse] at hverdict
    obtain ⟨first, hfirst, hle⟩ := h hround.peersAsked.nonempty hverdict
    rw [hasked, hall] at hfirst
    exact ⟨first, hfirst, Int.add_le_of_le_sub_right hle⟩
  · intro h hne hverdict
    cases hc : x.considered isControlPlane with
    | false =>
      rw [(check_of_not_considered config r.checker hc).2.2.2] at hverdict
      cases hverdict
    | true =>
      obtain ⟨_, hasked, hsome⟩ := check_of_considered config r.checker hc
      rw [hsome, Option.some.injEq] at hverdict
      obtain ⟨hpeersAsked, hundecided, hlate⟩ := houtcome.isolated_inv hne hverdict
      obtain ⟨hall, _⟩ := houtcome.undecided hpeersAsked hundecided
      rw [hall, htime, ← lastAnswer_append] at hlate
      obtain ⟨first, hfirst, hle⟩ := h ⟨hc, hpeersAsked, hundecided⟩ hlate
      rw [hasked, hall]
      exact ⟨first, hfirst, Int.le_sub_right_of_add_le hle⟩

end

/-- In a run, every isolation verdict respects the grace window exactly when no
undecided round ends between the two deadlines: `MaxTimeForNoPeersResponse` after the
last answer, and as long after the first query since. -/
theorem grace_kept_iff (config : ApiConnectivityCheckConfig) (isControlPlane : Bool)
    (start : Time) (xs : List CheckInput) :
    (∀ past x, past ++ [x] <+: xs →
        IsolationAfterGrace config isControlPlane (runChecks config isControlPlane start past) x) ↔
      ∀ past x, past ++ [x] <+: xs →
        GraceKept config isControlPlane start (runChecks config isControlPlane start past) x := by
  constructor
  · intro h past x hpre
    exact (isolationAfterGrace_iff (runChecks_time config isControlPlane start past) x).mp
      (h past x hpre)
  · intro h past x hpre
    exact (isolationAfterGrace_iff (runChecks_time config isControlPlane start past) x).mpr
      (h past x hpre)

/-- A check on a worker that passes readyz and ends at the given time. -/
def passedCheck (ended : Time) : CheckInput :=
  ⟨.statusCode 200, [silentPeer], ⟨fun _ => ended, fun _ => ended, ended⟩, ⟨[], false, []⟩, [],
    ⟨[], false, []⟩, ⟨false, false, true⟩⟩

/-- Ten minutes after the start readyz still passes, then it fails twice. -/
def tenHealthyMinutes : List CheckInput :=
  [passedCheck 600000000000,
    failedCheck [silentPeer] ⟨fun _ => 620000000000, fun _ => 620000000000, 620000000000⟩,
    failedCheck [silentPeer] ⟨fun _ => 640000000000, fun _ => 640000000000, 640000000000⟩]

/-- The third failure: the only peer is asked after 660s and gives no answer until
672s. -/
def firstUnansweredQuery : CheckInput :=
  failedCheck [silentPeer] ⟨fun _ => 660000000000, fun _ => 672000000000, 672000000000⟩

/-- The first query that is not answered makes the node isolated after 12s, although
the configuration allows 30s without an answer. -/
theorem grace_lost :
    ¬ ∀ past x, past ++ [x] <+: tenHealthyMinutes ++ [firstUnansweredQuery] →
      IsolationAfterGrace defaultAgent false (runChecks defaultAgent false 0 past) x := by
  intro h
  have hworker : getWorkerPeersResponse defaultAgent ⟨2, 0⟩ [silentPeer]
      firstUnansweredQuery.clock =
        ⟨⟨3, 0⟩, ⟨false, .unHealthyBecauseNodeIsIsolated⟩,
          [⟨[silentPeer], 660000000000, 672000000000⟩]⟩ := by
    unfold getWorkerPeersResponse
    dsimp only [List.length_singleton]
    rw [askPeers_one]
    rfl
  have hcheck : check defaultAgent false (runChecks defaultAgent false 0 tenHealthyMinutes).checker
      firstUnansweredQuery =
        ⟨⟨3, 0⟩, true, some ⟨false, .unHealthyBecauseNodeIsIsolated⟩,
          [⟨[silentPeer], 660000000000, 672000000000⟩], []⟩ := by
    show (isConsideredHealthy defaultAgent false ⟨2, 0⟩ firstUnansweredQuery).result = _
    unfold isConsideredHealthy
    show Consideration.result (⟨(getWorkerPeersResponse defaultAgent ⟨2, 0⟩ [silentPeer]
      firstUnansweredQuery.clock).response.isHealthy, getWorkerPeersResponse defaultAgent ⟨2, 0⟩
      [silentPeer] firstUnansweredQuery.clock, []⟩ : Consideration) = _
    rw [hworker]
    rfl
  have hgrace := h tenHealthyMinutes firstUnansweredQuery (List.prefix_refl _)
  unfold IsolationAfterGrace at hgrace
  rw [hcheck] at hgrace
  obtain ⟨first, hfirst, hle⟩ := hgrace (List.cons_ne_nil _ _) rfl
  cases hfirst
  exact absurd hle (by decide)

end SelfNodeRemediation
