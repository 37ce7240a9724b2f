import SelfNodeRemediation.ApiCheck

/-!
# What a peer round asks, and in which order

The loop of `getWorkerPeersResponse` slices a list, the calculator's `GetNrOfBatches`
subtracts counts, and both take the next batch size from `GetNextBatchSize`.

* `batches_agree`: an undecided round asks every peer once, in as many batches as the
  calculator counts, and a decided one a prefix of the peers.
* `getWorkerPeersResponse_settled`: when the peers do not contradict each other and at
  most half of them have no API server either, the verdict is a function of how many
  peers gave which answer.
* `worker_verdict_perm`: it is then the same for every order of the peers.
-/

namespace SelfNodeRemediation

/-! ## 1. The batches of a round -/

/-- A clock that stands still during the round. -/
def RoundClock.still (now : Time) : RoundClock := ⟨fun _ => now, fun _ => now, now⟩

/-- The peers that were asked are a prefix of those to ask. -/
theorem RoundSpec.asked_isPrefix {n : Nat} {clock : RoundClock} {i : Nat} {c : Checker}
    {sum : Nat} {batches : List (List Peer)} {r : Round}
    (h : RoundSpec n clock i c sum batches r) : askedPeers r.asked <+: batches.flatten := by
  obtain ⟨k, hk⟩ := h.asked
  rw [hk, askedPeers_timed]
  refine ⟨(batches.drop k).flatten, ?_⟩
  rw [← List.flatten_append, List.take_append_drop]

theorem RoundSpec.length_asked_le {n : Nat} {clock : RoundClock} {i : Nat} {c : Checker}
    {sum : Nat} {batches : List (List Peer)} {r : Round}
    (h : RoundSpec n clock i c sum batches r) : r.asked.length ≤ batches.length := by
  obtain ⟨k, hk⟩ := h.asked
  rw [hk, length_timed]
  exact List.length_take_le' k batches

theorem length_split_batchSizes (peers : List Peer) :
    (Chunks.split (batchSizes peers.length) peers).length = getNrOfBatches peers.length :=
  Chunks.length_split peers

/-- The loop over any peers, with any answers, clock and checker. It ends after at most
as many iterations as the calculator counts batches. When no batch is decisive, the
batches in order are exactly the peers, and there are as many as the calculator
counts; when one is, the peers asked are a prefix of the list. -/
theorem batches_agree (peers : List Peer) (clock : RoundClock) (c : Checker) :
    (askPeers peers.length clock 0 c 0 peers).asked.length ≤ getNrOfBatches peers.length ∧
    ((askPeers peers.length clock 0 c 0 peers).response = none →
      askedPeers (askPeers peers.length clock 0 c 0 peers).asked = peers ∧
      (askPeers peers.length clock 0 c 0 peers).asked.length = getNrOfBatches peers.length) ∧
    ∀ response, (askPeers peers.length clock 0 c 0 peers).response = some response →
      askedPeers (askPeers peers.length clock 0 c 0 peers).asked <+: peers := by
  have hspec := askPeers_spec clock c peers
  refine ⟨?_, fun hnone => ?_, fun _ _ => ?_⟩
  · rw [← length_split_batchSizes]
    exact hspec.length_asked_le
  · rw [hspec.all hnone, askedPeers_timed, Chunks.flatten_split, length_timed,
      length_split_batchSizes]
    exact ⟨rfl, rfl⟩
  · have h := hspec.asked_isPrefix
    rwa [Chunks.flatten_split] at h

/-- Four silent peers are asked in two batches. -/
theorem batches_agree_silent :
    ∃ r, r = askPeers 4 (.still 0) 0 ⟨3, 0⟩ 0 (List.replicate 4 silentPeer) ∧
      r.response = none ∧ askedPeers r.asked = List.replicate 4 silentPeer ∧
      r.asked.length = 2 := by
  have hspec := askPeers_spec (.still 0) ⟨3, 0⟩ (List.replicate 4 silentPeer)
  have hsilent : ∀ p ∈ askedPeers
      (askPeers 4 (.still 0) 0 ⟨3, 0⟩ 0 (List.replicate 4 silentPeer)).asked,
      p.answer.answered = false := by
    intro p hp
    have hmem := hspec.mem_of_asked hp
    rw [Chunks.flatten_split] at hmem
    rw [List.eq_of_mem_replicate hmem]
    rfl
  have hnone := hspec.ends.none_of_unanswered hsilent
  obtain ⟨-, hall, -⟩ := batches_agree (List.replicate 4 silentPeer) (.still 0) ⟨3, 0⟩
  obtain ⟨hasked, hlength⟩ := hall hnone
  exact ⟨_, rfl, hnone, hasked, hlength.trans (getNrOfBatches_small (by decide))⟩

/-! ## 2. The verdict of peers that agree -/

/-- No two peers say `Healthy` and `Unhealthy`, and at most half of them have lost the
API server themselves. -/
structure PeersAgree (peers : List Peer) : Prop where
  agree : ¬ ((∃ p ∈ peers, p.answer = .healthy) ∧ ∃ p ∈ peers, p.answer = .unhealthy)
  minority : 2 * countAnswers .apiError peers ≤ peers.length

/-- What the answers decide when they are looked at all together. -/
def jointVerdict (peers : List Peer) : Option Response :=
  if 0 < countAnswers .healthy peers then some ⟨true, .healthyBecauseCRNotFound⟩
  else if 0 < countAnswers .unhealthy peers then some ⟨false, .unHealthyBecausePeersResponse⟩
  else none

/-- The verdict of a round over settled peers does not depend on the batches. -/
theorem RoundSpec.response_eq {clock : RoundClock} {i : Nat} {c : Checker} {peers : List Peer}
    {batches : List (List Peer)} {r : Round} (h : RoundSpec peers.length clock i c 0 batches r)
    (hpeers : batches.flatten = peers) (hsettled : PeersAgree peers) :
    r.response = jointVerdict peers := by
  have hmem : ∀ {code : HealthCheckResponseCode}, (∃ p ∈ askedPeers r.asked, p.answer = code) →
      ∃ p ∈ peers, p.answer = code :=
    fun ⟨p, hp, he⟩ => ⟨p, hpeers ▸ h.mem_of_asked hp, he⟩
  have hends := h.ends
  unfold jointVerdict
  cases hr : r.response with
  | none =>
    -- an undecided round has asked everybody
    rw [h.all hr, askedPeers_timed, hpeers, hr] at hends
    cases hends with
    | undecided hno _ =>
      rw [if_neg, if_neg]
      · rw [countAnswers_pos_iff]
        rintro ⟨p, hp, he⟩
        exact (hno p hp).2 he
      · rw [countAnswers_pos_iff]
        rintro ⟨p, hp, he⟩
        exact (hno p hp).1 he
  | some response =>
    rw [hr] at hends
    cases hends with
    | healthy hex => rw [if_pos (countAnswers_pos_iff.mpr (hmem hex))]
    | unhealthy hex _ =>
      rw [if_neg, if_pos (countAnswers_pos_iff.mpr (hmem hex))]
      rw [countAnswers_pos_iff]
      exact fun hhealthy => hsettled.agree ⟨hhealthy, hmem hex⟩
    | apiErrors _ hlt =>
      have hle := h.countAnswers_le .apiError
      rw [hpeers] at hle
      have hhalf := hsettled.minority
      omega

/-- With the clock standing still, an answer of any batch was given now. -/
theorem lastAnswer_still (now time : Time) (i : Nat) (batches : List (List Peer)) :
    lastAnswer time (timed (.still now) i batches) =
      if anyAnswered batches.flatten then now else time := by
  induction batches generalizing time i with
  | nil => rfl
  | cons peers batches ih =>
    rw [timed, lastAnswer_cons, ih, List.flatten_cons, anyAnswered, anyAnswered, anyAnswered,
      List.any_append]
    show (if _ then now else if _ then now else time) = _
    cases peers.any fun p => p.answer.answered <;> cases batches.flatten.any _ <;> rfl

/-- The verdict and the error count of `getWorkerPeersResponse` by the answers of all
peers together. -/
def settledVerdict (config : ApiConnectivityCheckConfig) (c : Checker) (now : Time)
    (peers : List Peer) : Response × Nat :=
  if c.errorCount + 1 < config.maxErrorsThreshold.toInt then
    (⟨true, .healthyBecauseErrorsThresholdNotReached⟩, c.errorCount + 1)
  else if peers.length < config.minPeersForRemediation.toInt then
    (⟨true, .healthyBecauseNoPeersWereFound⟩, c.errorCount + 1)
  else if peers.length = 0 then (⟨false, .unHealthyBecauseNodeIsIsolated⟩, c.errorCount + 1)
  else
    match jointVerdict peers with
    | some response =>
      (response, if response = ⟨true, .healthyBecauseCRNotFound⟩ then 0 else c.errorCount + 1)
    | none =>
      let time := if anyAnswered peers then now else c.timeOfLastPeerResponse
      if time + config.maxTimeForNoPeersResponse.toInt < now then
        (⟨false, .unHealthyBecauseNodeIsIsolated⟩, c.errorCount + 1)
      else (⟨true, .healthyBecauseNoPeersResponseNotReachedTimeout⟩, c.errorCount + 1)

/-- What is left of `settledVerdict` once the peers are asked. -/
theorem settledVerdict_asked {config : ApiConnectivityCheckConfig} {c : Checker}
    {peers : List Peer} (now : Time) (h : PeersAsked config c peers) :
    settledVerdict config c now peers =
      match jointVerdict peers with
      | some response =>
        (response, if response = ⟨true, .healthyBecauseCRNotFound⟩ then 0 else c.errorCount + 1)
      | none =>
        let time := if anyAnswered peers then now else c.timeOfLastPeerResponse
        if time + config.maxTimeForNoPeersResponse.toInt < now then
          (⟨false, .unHealthyBecauseNodeIsIsolated⟩, c.errorCount + 1)
        else (⟨true, .healthyBecauseNoPeersResponseNotReachedTimeout⟩, c.errorCount + 1) := by
  have hlength : peers.length ≠ 0 := fun hz => h.nonempty (List.length_eq_zero_iff.mp hz)
  rw [settledVerdict, if_neg (not_lt.mpr h.threshold), if_neg (not_lt.mpr h.enough),
    if_neg hlength]

/-- The verdict over settled peers, with the clock standing still. -/
theorem getWorkerPeersResponse_settled (config : ApiConnectivityCheckConfig) (c : Checker)
    {peers : List Peer} (hsettled : PeersAgree peers) (now : Time) :
    ((getWorkerPeersResponse config c peers (.still now)).response,
      (getWorkerPeersResponse config c peers (.still now)).checker.errorCount) =
      settledVerdict config c now peers := by
  have hflatten := @Chunks.flatten_split _ (batchSizes peers.length) peers
  -- an undecided round over the peers leaves the time of the last answer
  have htime : ∀ {r : Round}, RoundSpec peers.length (.still now) 0 c.fail 0
      (Chunks.split (batchSizes peers.length) peers) r → r.response = none →
      r.checker.timeOfLastPeerResponse =
        if anyAnswered peers then now else c.timeOfLastPeerResponse := by
    intro r hr hnone
    rw [hr.time, hr.all hnone, lastAnswer_still, hflatten]
    rfl
  have houtcome := getWorkerPeersResponse_outcome config c peers (.still now)
  generalize getWorkerPeersResponse config c peers (.still now) = v at houtcome ⊢
  cases houtcome with
  | belowThreshold hlt => rw [settledVerdict, if_pos hlt]; rfl
  | tooFewPeers hle hlt => rw [settledVerdict, if_neg (not_lt.mpr hle), if_pos hlt]; rfl
  | noPeers hle henough hnil =>
    rw [settledVerdict, if_neg (not_lt.mpr hle), if_neg (not_lt.mpr henough),
      if_pos (List.length_eq_zero_iff.mpr hnil)]
    rfl
  | decided hasked hr hsome =>
    rw [settledVerdict_asked now hasked, ← hr.response_eq hflatten hsettled, hr.errors, hsome]
    simp only [Option.some.injEq, Checker.fail]
  | isolated hasked hr hnone hlate =>
    rw [htime hr hnone] at hlate
    rw [settledVerdict_asked now hasked, ← hr.response_eq hflatten hsettled, hr.errors, hnone]
    exact (if_pos hlate).symm
  | waiting hasked hr hnone hle =>
    rw [htime hr hnone] at hle
    rw [settledVerdict_asked now hasked, ← hr.response_eq hflatten hsettled, hr.errors, hnone]
    exact (if_neg (not_lt.mpr hle)).symm

/-! ## 3. The order of the peers -/

theorem countAnswers_perm {peers peers' : List Peer} (h : peers.Perm peers')
    (code : HealthCheckResponseCode) : countAnswers code peers = countAnswers code peers' :=
  h.countP_eq _

theorem PeersAgree.perm {peers peers' : List Peer} (hsettled : PeersAgree peers)
    (h : peers.Perm peers') : PeersAgree peers' where
  agree hboth := by
    rw [← countAnswers_pos_iff, ← countAnswers_pos_iff, ← countAnswers_perm h,
      ← countAnswers_perm h, countAnswers_pos_iff, countAnswers_pos_iff] at hboth
    exact hsettled.agree hboth
  minority := by
    rw [← countAnswers_perm h, ← h.length_eq]
    exact hsettled.minority

/-- The verdict of all answers together does not see their order. -/
theorem settledVerdict_perm (config : ApiConnectivityCheckConfig) (c : Checker) (now : Time)
    {peers peers' : List Peer} (h : peers.Perm peers') :
    settledVerdict config c now peers = settledVerdict config c now peers' := by
  have hany : anyAnswered peers = anyAnswered peers' := h.any_eq
  unfold settledVerdict jointVerdict
  rw [h.length_eq, countAnswers_perm h, countAnswers_perm h, hany]

/-- Two orders of the same worker peers, no two of which say `Healthy` and `Unhealthy`
and at most half of which answer `ApiError`, give the same response and leave the same
error count. -/
theorem worker_verdict_perm (config : ApiConnectivityCheckConfig) (c : Checker)
    {peers peers' : List Peer} (hperm : peers.Perm peers')
    (hagree : ¬ ((∃ p ∈ peers, p.answer = .healthy) ∧ ∃ p ∈ peers, p.answer = .unhealthy))
    (hminority : 2 * countAnswers .apiError peers ≤ peers.length) (now : Time) :
    (getWorkerPeersResponse config c peers (.still now)).response =
        (getWorkerPeersResponse config c peers' (.still now)).response ∧
      (getWorkerPeersResponse config c peers (.still now)).checker.errorCount =
        (getWorkerPeersResponse config c peers' (.still now)).checker.errorCount := by
  have hsettled : PeersAgree peers := ⟨hagree, hminority⟩
  have heq := (getWorkerPeersResponse_settled config c hsettled now).trans
    ((settledVerdict_perm config c now hperm).trans
      (getWorkerPeersResponse_settled config c (hsettled.perm hperm) now).symm)
  exact ⟨congrArg Prod.fst heq, congrArg Prod.snd heq⟩

/-- One peer says `Unhealthy` and one has lost the API server, in both orders. -/
theorem worker_verdict_perm_pair :
    (getWorkerPeersResponse defaultAgent ⟨2, 0⟩ [⟨"10.0.0.1", .unhealthy⟩, ⟨"10.0.0.2", .apiError⟩]
        (.still 100)).response =
      (getWorkerPeersResponse defaultAgent ⟨2, 0⟩
        [⟨"10.0.0.2", .apiError⟩, ⟨"10.0.0.1", .unhealthy⟩] (.still 100)).response :=
  (worker_verdict_perm defaultAgent ⟨2, 0⟩ (.swap _ _ []) (by decide) (by decide) 100).1

end SelfNodeRemediation
