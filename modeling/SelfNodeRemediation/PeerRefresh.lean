import SelfNodeRemediation.Lib.Threads
import SelfNodeRemediation.PeerCache

/-!
# Concurrent refreshes of the peer cache

Any number of refreshes of every kind, interleaved at each of their calls, with
answers of the API server that are any snapshot or any error, and contexts that
expire at any time.

* `Place`: where a refresh is, and what is known there of its history.
* `refreshes`: the proof of the system. Its invariant is that the refresh that
  holds the semaphore is the only one, and that its requests are newer than those
  the cached control-plane addresses come from.
* `refreshes_safe`: what holds in every state of a run and at each of its steps.
-/

namespace SelfNodeRemediation.PeerCache

open Interaction

/-! ## 1. Any number of refreshes -/

structure Refresh where
  kind : Kind
  id : Nat
deriving DecidableEq, Repr

/-- What a refresh has done so far: how often it put a token into the semaphore and
took one out, when it sent its `List` calls, whether one of them failed (a node list
that is not found does not count), and whether it ran its setter. -/
structure History where
  acquires : Nat
  releases : Nat
  sent : List Nat
  failed : Bool
  committed : Bool

def History.fresh : History := ⟨0, 0, [], false, false⟩

/-- The fields of `Peers` and the contexts of the refreshes. The clock, the histories
and the refresh that the control-plane addresses come from only record the run. -/
structure World where
  caches : Caches
  selectorSet : Bool
  controlPlaneRefreshSem : Nat
  expired : Refresh → Bool
  clock : Nat
  history : Refresh → History
  source : Option Refresh

/-- Nothing is cached yet. -/
def newPeers : World where
  caches := ⟨[], []⟩
  selectorSet := false
  controlPlaneRefreshSem := 0
  expired _ := false
  clock := 0
  history _ := .fresh
  source := none

def World.note (w : World) (i : Refresh) (h : History) : World :=
  { w with history := Function.update w.history i h }

/-- A token is put into the semaphore. -/
def World.acquire (w : World) (i : Refresh) : World :=
  { w.note i { w.history i with acquires := (w.history i).acquires + 1 } with
    controlPlaneRefreshSem := w.controlPlaneRefreshSem + 1 }

/-- A token is taken out. -/
def World.release (w : World) (i : Refresh) : World :=
  { w.note i { w.history i with releases := (w.history i).releases + 1 } with
    controlPlaneRefreshSem := w.controlPlaneRefreshSem - 1 }

/-- A `List` call of the refresh is sent. -/
def World.send (w : World) (i : Refresh) : World :=
  { w.note i { w.history i with sent := (w.history i).sent ++ [w.clock] } with
    clock := w.clock + 1 }

/-- The setter runs, under the mutex. -/
def World.commit (w : World) (i : Refresh) (kind : Kind) (addresses : List PodIP) : World :=
  { w.note i { w.history i with committed := true } with
    caches := w.caches.setAddresses addresses kind
    source :=
      if kind = .worker ∨ w.caches.preserves addresses kind = true then w.source else some i }

/-- What a refresh can get as answers. The semaphore is a channel with room for one
token. -/
inductive Exec (i : Refresh) : (c : Call) → World → Resp c → World → Prop
  | selector {w : World} : Exec i .selector w w.selectorSet w
  | acquired {w : World} : w.controlPlaneRefreshSem < 1 →
      Exec i .acquire w none (w.acquire i)
  | done {w : World} {err : GoErr} : w.expired i = true → Exec i .acquire w (some err) w
  | live {w : World} : w.expired i = false → Exec i .ctxErr w none w
  | expired {w : World} {err : GoErr} : w.expired i = true → Exec i .ctxErr w (some err) w
  | release {w : World} : 0 < w.controlPlaneRefreshSem →
      Exec i .release w () (w.release i)
  | sendListNodes {w : World} : Exec i .sendListNodes w () (w.send i)
  | nodes {w : World} {nodes : List Node} : Exec i .listNodes w (.ok nodes) w
  | nodesNotFound {w : World} {err : GoErr} : err.isNotFound = true →
      Exec i .listNodes w (.error err) w
  | nodesFailed {w : World} {err : GoErr} : err.isNotFound = false →
      Exec i .listNodes w (.error err) (w.note i { w.history i with failed := true })
  | sendListPods {w : World} : Exec i .sendListPods w () (w.send i)
  | pods {w : World} {pods : List AgentPod} : Exec i .listPods w (.ok pods) w
  | podsFailed {w : World} {err : GoErr} :
      Exec i .listPods w (.error err) (w.note i { w.history i with failed := true })
  | setAddresses {w : World} {kind : Kind} {addresses : List PodIP} :
      Exec i (.setAddresses kind addresses) w () (w.commit i kind addresses)

/-- A context expires, or `Start` sets the selectors. -/
inductive Elapses (w : World) : World → Prop
  | expire (i : Refresh) : Elapses w { w with expired := Function.update w.expired i true }
  | select : Elapses w { w with selectorSet := true }

abbrev State := Pool Refresh Call Resp World (Option GoErr)

/-- Each refresh is started at most once, at any time. -/
def system : Interaction.System Refresh Call Resp World (Option GoErr) where
  main i := refresh i.kind
  ready i w := w.history i = .fresh
  exec := Exec
  crash _ _ _ _ := False
  env := Elapses
  again _ := False

/-! ## 2. Where a refresh is -/

/-- The end of a refresh after `updatePeers`. -/
def finish : Kind → Option GoErr → Routine
  | .worker => pure
  | .controlPlane | .isolationCheck => released

/-- The places in a refresh. -/
inductive Place
  | selecting
  | acquiring
  | checking
  | sendingNodes
  | listingNodes
  | sendingPods (nodes : List Node)
  | listingPods (nodes : List Node)
  | committing (addresses : List PodIP) (err : Option GoErr)
  | releasing (err : Option GoErr)
  | ended (err : Option GoErr)

/-- The rest of the refresh from the place on. -/
def Place.rest (kind : Kind) : Place → Routine
  | .selecting => refreshControlPlanePeersForIsolationCheck
  | .acquiring => updateControlPlanePeersWithSetter kind
  | .checking => acquired kind
  | .sendingNodes => updatePeers kind >>= finish kind
  | .listingNodes => (ask .listNodes >>= nodesListed kind) >>= finish kind
  | .sendingPods nodes =>
    (ask .sendListPods >>= fun _ => ask .listPods >>= podsListed kind nodes) >>= finish kind
  | .listingPods nodes => (ask .listPods >>= podsListed kind nodes) >>= finish kind
  | .committing addresses err => PeerCache.commit kind addresses err >>= finish kind
  | .releasing err => released err
  | .ended err => pure err

/-- The tokens that a refresh holds while it lists. -/
def Kind.tokens : Kind → Nat
  | .worker => 0
  | .controlPlane | .isolationCheck => 1

/-- The refresh has a token in the semaphore. -/
def World.Holds (w : World) (i : Refresh) : Prop :=
  (w.history i).acquires = 1 ∧ (w.history i).releases = 0

/-- The requests of the refresh are newer than those that the control-plane addresses
come from. -/
def World.Newer (w : World) (i : Refresh) : Prop :=
  i.kind ≠ .worker → ∀ j, w.source = some j →
    ∀ a ∈ (w.history j).sent, ∀ b ∈ (w.history i).sent, a < b

/-- The refresh has sent a request, and not failed or committed. -/
def World.Lists (w : World) (i : Refresh) : Prop :=
  (∃ sent, w.history i = ⟨i.kind.tokens, 0, sent, false, false⟩) ∧ w.Newer i

/-- What is known of a refresh by its place. -/
def Place.At (i : Refresh) (w : World) : Place → Prop
  | .selecting => i.kind = .isolationCheck ∧ w.history i = .fresh
  | .acquiring => i.kind ≠ .worker ∧ w.history i = .fresh
  | .checking => i.kind ≠ .worker ∧ w.history i = ⟨1, 0, [], false, false⟩
  | .sendingNodes => w.history i = ⟨i.kind.tokens, 0, [], false, false⟩
  | .listingNodes | .sendingPods _ | .listingPods _ => w.Lists i
  | .committing addresses _ => w.Lists i ∧ "" ∉ addresses
  | .releasing _ => w.Holds i
  | .ended _ => (w.history i).releases = (w.history i).acquires ∧ (w.history i).acquires ≤ 1

/-- What must hold when a refresh makes a call. -/
def Allowed (i : Refresh) (w : World) : Call → Prop
  | .acquire => w.history i = .fresh
  | .release => w.Holds i
  | .sendListNodes | .sendListPods | .listNodes | .listPods => (w.history i).committed = false
  | .setAddresses kind addresses => kind = i.kind ∧ w.Lists i ∧ "" ∉ addresses
  | .selector | .ctxErr => True

theorem World.Lists.committed {w : World} {i : Refresh} (h : w.Lists i) :
    (w.history i).committed = false := by
  obtain ⟨⟨sent, hsent⟩, -⟩ := h
  rw [hsent]

theorem Place.At.allowed {i : Refresh} {w : World} {place : Place} {c : Call}
    {k : Resp c → Routine} (hat : place.At i w) (hrest : .call c k = place.rest i.kind) :
    Allowed i w c := by
  cases place with
  | selecting =>
    cases hrest
    trivial
  | acquiring =>
    cases hrest
    exact hat.2
  | checking =>
    cases hrest
    trivial
  | sendingNodes =>
    cases hrest
    exact congrArg History.committed hat
  | listingNodes =>
    cases hrest
    exact hat.committed
  | sendingPods nodes =>
    cases hrest
    exact hat.committed
  | listingPods nodes =>
    cases hrest
    exact hat.committed
  | committing addresses err =>
    cases hrest
    exact ⟨rfl, hat⟩
  | releasing err =>
    cases hrest
    exact hat
  | ended err => cases hrest

/-! ## 3. What a call does -/

/-- What a call changes. -/
inductive Effect (i : Refresh) (w : World) : Call → World → Prop
  | none {c : Call} : Effect i w c w
  | acquired : w.controlPlaneRefreshSem < 1 →
      Effect i w .acquire (w.acquire i)
  | released : Effect i w .release (w.release i)
  | sent {c : Call} : c = .sendListNodes ∨ c = .sendListPods → Effect i w c (w.send i)
  | failed {c : Call} : c = .listNodes ∨ c = .listPods →
      Effect i w c (w.note i { w.history i with failed := true })
  | committed {kind : Kind} {addresses : List PodIP} :
      Effect i w (.setAddresses kind addresses) (w.commit i kind addresses)

theorem Exec.effect {i : Refresh} {c : Call} {w w' : World} {r : Resp c}
    (he : Exec i c w r w') : Effect i w c w' := by
  cases he with
  | acquired hfree => exact .acquired hfree
  | release _ => exact .released
  | sendListNodes => exact .sent (.inl rfl)
  | sendListPods => exact .sent (.inr rfl)
  | nodesFailed _ => exact .failed (.inl rfl)
  | podsFailed => exact .failed (.inr rfl)
  | setAddresses => exact .committed
  | _ => exact .none

section Effects

variable {i j : Refresh} {c : Call} {w w' : World}

@[simp] theorem note_history_self (w : World) (i : Refresh) (h : History) :
    (w.note i h).history i = h := by
  simp [World.note]

@[simp] theorem acquire_history_self (w : World) (i : Refresh) : (w.acquire i).history i =
    { w.history i with acquires := (w.history i).acquires + 1 } :=
  note_history_self w i _

@[simp] theorem release_history_self (w : World) (i : Refresh) : (w.release i).history i =
    { w.history i with releases := (w.history i).releases + 1 } :=
  note_history_self w i _

@[simp] theorem send_history_self (w : World) (i : Refresh) : (w.send i).history i =
    { w.history i with sent := (w.history i).sent ++ [w.clock] } :=
  note_history_self w i _

@[simp] theorem commit_history_self (w : World) (i : Refresh) (kind : Kind)
    (addresses : List PodIP) : (w.commit i kind addresses).history i =
      { w.history i with committed := true } :=
  note_history_self w i _

/-- The histories of the others stay. -/
theorem Effect.other (he : Effect i w c w') (h : j ≠ i) : w'.history j = w.history j := by
  cases he with
  | none => rfl
  | acquired _ => exact Function.update_of_ne h _ _
  | released => exact Function.update_of_ne h _ _
  | sent _ => exact Function.update_of_ne h _ _
  | failed _ => exact Function.update_of_ne h _ _
  | committed => exact Function.update_of_ne h _ _

/-- Only the setter changes the caches. -/
theorem Effect.caches (he : Effect i w c w') :
    w'.caches = w.caches ∧ w'.source = w.source ∨
      ∃ kind addresses, c = .setAddresses kind addresses ∧ w' = w.commit i kind addresses := by
  cases he with
  | committed => exact .inr ⟨_, _, rfl, rfl⟩
  | _ => exact .inl ⟨rfl, rfl⟩

/-- At most one refresh has put its token into the semaphore. -/
structure Semaphore (w : World) : Prop where
  token : ∀ i, w.Holds i → w.controlPlaneRefreshSem = 1
  one : ∀ i j, w.Holds i → w.Holds j → i = j

/-- A call that leaves the tokens alone. -/
theorem Semaphore.same (h : Semaphore w) (hother : ∀ j, j ≠ i → w'.history j = w.history j)
    (hacquires : (w'.history i).acquires = (w.history i).acquires)
    (hreleases : (w'.history i).releases = (w.history i).releases)
    (hsem : w'.controlPlaneRefreshSem = w.controlPlaneRefreshSem) : Semaphore w' := by
  have hholds : ∀ j, w'.Holds j → w.Holds j := by
    intro j hj
    rcases eq_or_ne j i with rfl | hne
    · exact ⟨hacquires.symm.trans hj.1, hreleases.symm.trans hj.2⟩
    · rw [World.Holds, hother j hne] at hj
      exact hj
  exact ⟨fun j hj => hsem.trans (h.token j (hholds j hj)),
    fun j k hj hk => h.one j k (hholds j hj) (hholds k hk)⟩

theorem Semaphore.effect (h : Semaphore w) (ha : Allowed i w c) (he : Effect i w c w') :
    Semaphore w' := by
  have hother : ∀ j, j ≠ i → w'.history j = w.history j := fun j hj => he.other hj
  cases he with
  | none => exact h
  | acquired hfree =>
    -- nobody holds a token, as there is none
    have hnobody : ∀ j, ¬ w.Holds j := by
      intro j hj
      rw [h.token j hj] at hfree
      exact absurd hfree (Nat.lt_irrefl 1)
    have honly : ∀ j, (w.acquire i).Holds j → j = i := by
      intro j hj
      by_contra hne
      rw [World.Holds, hother j hne] at hj
      exact hnobody j hj
    refine ⟨fun _ _ => ?_, fun j k hj hk => (honly j hj).trans (honly k hk).symm⟩
    show w.controlPlaneRefreshSem + 1 = 1
    omega
  | released =>
    have hnobody : ∀ j, ¬ (w.release i).Holds j := by
      intro j hj
      rcases eq_or_ne j i with rfl | hne
      · have hreleased := hj.2
        simp at hreleased
      · rw [World.Holds, hother j hne] at hj
        exact hne (h.one j i hj ha)
    exact ⟨fun j hj => absurd hj (hnobody j), fun j _ hj => absurd hj (hnobody j)⟩
  | sent _ => exact h.same hother (by simp) (by simp) rfl
  | failed _ => exact h.same hother (by simp) (by simp) rfl
  | committed => exact h.same hother (by simp) (by simp) rfl

/-- What is known of the history `h` of a refresh. -/
structure Entry (w : World) (i : Refresh) (h : History) : Prop where
  sent : ∀ t ∈ h.sent, t < w.clock
  source : w.source = some i → h.committed = true
  failed : h.failed = true → h.committed = false

/-- What the histories say, and that no cached address is empty. -/
structure Recorded (w : World) : Prop where
  entries : ∀ i, Entry w i (w.history i)
  worker : "" ∉ w.caches.workerPeersAddresses
  controlPlane : "" ∉ w.caches.controlPlanePeersAddresses

/-- The entries of the others stay. -/
theorem Recorded.update (h : Recorded w) (hother : ∀ j, j ≠ i → w'.history j = w.history j)
    (hclock : w.clock ≤ w'.clock) (hsource : ∀ j, j ≠ i → w'.source = some j → w.source = some j)
    (hentry : Entry w' i (w'.history i)) (j : Refresh) : Entry w' j (w'.history j) := by
  rcases eq_or_ne j i with rfl | hne
  · exact hentry
  · rw [hother j hne]
    obtain ⟨hsent, hcommitted, hfailed⟩ := h.entries j
    exact ⟨fun t ht => lt_of_lt_of_le (hsent t ht) hclock,
      fun hj => hcommitted (hsource j hne hj), hfailed⟩

theorem setAddresses_worker {caches : Caches} {addresses : List PodIP} {kind : Kind}
    (hkind : kind ≠ .worker) :
    (caches.setAddresses addresses kind).workerPeersAddresses = caches.workerPeersAddresses := by
  cases kind with
  | worker => exact absurd rfl hkind
  | controlPlane => rfl
  | isolationCheck =>
    unfold Caches.setAddresses
    dsimp only
    split
    · rfl
    · rfl

/-- The addresses are replaced, or the cache is kept. -/
theorem setAddresses_controlPlane (caches : Caches) (addresses : List PodIP) (kind : Kind) :
    (caches.setAddresses addresses kind).controlPlanePeersAddresses =
      if kind = .worker ∨ caches.preserves addresses kind = true then
        caches.controlPlanePeersAddresses
      else addresses := by
  cases kind with
  | worker => rfl
  | controlPlane => rfl
  | isolationCheck =>
    by_cases h : caches.preserves addresses .isolationCheck = true
    · simp [Caches.setAddresses, h]
    · simp [Caches.setAddresses, h]

theorem Recorded.effect (h : Recorded w) (ha : Allowed i w c) (he : Effect i w c w') :
    Recorded w' := by
  have hother : ∀ j, j ≠ i → w'.history j = w.history j := fun j hj => he.other hj
  obtain ⟨hsent, hsource, hfailed⟩ := h.entries i
  cases he with
  | none => exact h
  | acquired _ =>
    refine ⟨h.update hother le_rfl (fun _ _ hj => hj) ?_, h.worker, h.controlPlane⟩
    rw [acquire_history_self]
    exact ⟨hsent, hsource, hfailed⟩
  | released =>
    refine ⟨h.update hother le_rfl (fun _ _ hj => hj) ?_, h.worker, h.controlPlane⟩
    rw [release_history_self]
    exact ⟨hsent, hsource, hfailed⟩
  | sent _ =>
    refine ⟨h.update hother (Nat.le_succ _) (fun _ _ hj => hj) ?_, h.worker, h.controlPlane⟩
    rw [send_history_self]
    refine ⟨fun t ht => ?_, hsource, hfailed⟩
    rcases List.mem_append.mp ht with hold | hnew
    · exact Nat.lt_succ_of_lt (hsent t hold)
    · rw [List.mem_singleton.mp hnew]
      exact Nat.lt_succ_self w.clock
  | failed hc =>
    have hcommitted : (w.history i).committed = false := by
      rcases hc with rfl | rfl
      · exact ha
      · exact ha
    refine ⟨h.update hother le_rfl (fun _ _ hj => hj) ?_, h.worker, h.controlPlane⟩
    rw [note_history_self]
    exact ⟨hsent, hsource, fun _ => hcommitted⟩
  | @committed kind addresses =>
    obtain ⟨-, ⟨⟨sent, hlists⟩, -⟩, hip⟩ := ha
    refine ⟨h.update hother le_rfl (fun j hj hsource => ?_) ?_, ?_, ?_⟩
    · change (if _ then w.source else some i) = some j at hsource
      split at hsource
      · exact hsource
      · exact absurd (Option.some.inj hsource).symm hj
    · rw [commit_history_self]
      refine ⟨hsent, fun _ => rfl, fun hf => ?_⟩
      rw [hlists] at hf
      cases hf
    · show "" ∉ (w.caches.setAddresses addresses kind).workerPeersAddresses
      by_cases hkind : kind = .worker
      · rw [hkind]
        exact hip
      · rw [setAddresses_worker hkind]
        exact h.worker
    · show "" ∉ (w.caches.setAddresses addresses kind).controlPlanePeersAddresses
      rw [setAddresses_controlPlane]
      split
      · exact h.controlPlane
      · exact hip

end Effects

/-! ## 4. The assertions -/

section Assertions

variable {i j : Refresh} {c : Call} {w w' : World}

theorem Kind.tokens_of_ne {kind : Kind} (h : kind ≠ .worker) : kind.tokens = 1 := by
  cases kind with
  | worker => exact absurd rfl h
  | controlPlane => rfl
  | isolationCheck => rfl

theorem World.Lists.holds (h : w.Lists i) (hkind : i.kind ≠ .worker) : w.Holds i := by
  obtain ⟨⟨sent, hsent⟩, -⟩ := h
  rw [World.Holds, hsent]
  exact ⟨Kind.tokens_of_ne hkind, rfl⟩

/-- A request is newer than all that were sent before. -/
theorem World.Newer.send (hrec : Recorded w) (hcommitted : (w.history i).committed = false)
    (h : w.Newer i) : (w.send i).Newer i := by
  intro hkind j hj a ha b hb
  have hne : j ≠ i := by
    rintro rfl
    rw [(hrec.entries j).source hj] at hcommitted
    cases hcommitted
  have hsame : (w.send i).history j = w.history j := Function.update_of_ne hne _ _
  rw [hsame] at ha
  rw [send_history_self] at hb
  rcases List.mem_append.mp hb with hold | hnew
  · exact h hkind j hj a ha b hold
  · rw [List.mem_singleton.mp hnew]
    exact (hrec.entries j).sent a ha

/-- Nothing is sent after the commit. -/
theorem Effect.sent_of_committed (he : Effect i w c w') (ha : Allowed i w c)
    (hcommitted : (w.history i).committed = true) :
    (w'.history i).sent = (w.history i).sent := by
  cases he with
  | none => rfl
  | acquired _ => simp
  | released => simp
  | sent hc =>
    have hnot : (w.history i).committed = false := by
      rcases hc with rfl | rfl
      · exact ha
      · exact ha
    rw [hcommitted] at hnot
    cases hnot
  | failed _ => simp
  | committed => simp

/-- The refresh that holds the semaphore stays newer than the cache. -/
theorem World.Lists.other (hsem : Semaphore w) (hrec : Recorded w) (hne : i ≠ j)
    (h : w.Lists i) (ha : Allowed j w c) (he : Effect j w c w') : w'.Lists i := by
  have hself : w'.history i = w.history i := he.other hne
  obtain ⟨hlists, hnewer⟩ := h
  refine ⟨by rw [hself]; exact hlists, fun hkind k hk a hak b hb => ?_⟩
  rw [hself] at hb
  have hkept (hsource : w.source = some k) : a < b := by
    refine hnewer hkind k hsource a ?_ b hb
    rcases eq_or_ne k j with rfl | hkj
    · rwa [he.sent_of_committed ha ((hrec.entries k).source hsource)] at hak
    · rwa [he.other hkj] at hak
  rcases he.caches with ⟨-, hsource⟩ | ⟨kind, addresses, rfl, rfl⟩
  · exact hkept (hsource.symm.trans hk)
  · change (if _ then w.source else some j) = some k at hk
    split at hk
    · exact hkept hk
    · next hset =>
      -- the committing refresh holds the semaphore too
      obtain ⟨hjkind, hjlists, -⟩ := ha
      have hj : w.Holds j := hjlists.holds fun hworker => hset (.inl (hjkind.trans hworker))
      have hi : w.Holds i := World.Lists.holds ⟨hlists, hnewer⟩ hkind
      exact absurd (hsem.one i j hi hj) hne

theorem Place.At.other {place : Place} (hsem : Semaphore w) (hrec : Recorded w) (hne : i ≠ j)
    (hat : place.At i w) (ha : Allowed j w c) (he : Effect j w c w') : place.At i w' := by
  have hself : w'.history i = w.history i := he.other hne
  cases place with
  | selecting => exact ⟨hat.1, hself.trans hat.2⟩
  | acquiring => exact ⟨hat.1, hself.trans hat.2⟩
  | checking => exact ⟨hat.1, hself.trans hat.2⟩
  | sendingNodes => exact hself.trans hat
  | listingNodes => exact World.Lists.other hsem hrec hne hat ha he
  | sendingPods nodes => exact World.Lists.other hsem hrec hne hat ha he
  | listingPods nodes => exact World.Lists.other hsem hrec hne hat ha he
  | committing addresses err => exact ⟨hat.1.other hsem hrec hne ha he, hat.2⟩
  | releasing err =>
    show w'.Holds i
    rw [World.Holds, hself]
    exact hat
  | ended err =>
    show (w'.history i).releases = (w'.history i).acquires ∧ (w'.history i).acquires ≤ 1
    rw [hself]
    exact hat

/-- After `updatePeers` the token is released, if there is one. -/
theorem finish_at (err : Option GoErr) (hacquires : (w.history i).acquires = i.kind.tokens)
    (hreleases : (w.history i).releases = 0) :
    ∃ after : Place, finish i.kind err = after.rest i.kind ∧ after.At i w := by
  cases hkind : i.kind with
  | worker =>
    rw [hkind] at hacquires
    refine ⟨.ended err, rfl, hreleases.trans hacquires.symm, ?_⟩
    rw [hacquires]
    exact Nat.zero_le 1
  | controlPlane =>
    rw [hkind] at hacquires
    exact ⟨.releasing err, rfl, hacquires, hreleases⟩
  | isolationCheck =>
    rw [hkind] at hacquires
    exact ⟨.releasing err, rfl, hacquires, hreleases⟩

/-- A refresh that has not come to the semaphore may end. -/
theorem ended_fresh (err : Option GoErr) (h : w.history i = .fresh) :
    Place.At i w (.ended err) := by
  show (w.history i).releases = (w.history i).acquires ∧ (w.history i).acquires ≤ 1
  rw [h]
  exact ⟨rfl, Nat.zero_le 1⟩

/-- What is done with the answer about the nodes. -/
theorem nodesListed_at {r : Except GoErr (List Node)} (hat : w.Lists i)
    (he : Exec i .listNodes w r w') :
    ∃ after : Place, nodesListed i.kind r >>= finish i.kind = after.rest i.kind ∧
      after.At i w' := by
  obtain ⟨⟨sent, hhistory⟩, hnewer⟩ := hat
  cases he with
  | @nodes _ nodes =>
    cases nodes with
    | nil => exact ⟨.committing [] none, rfl, ⟨⟨sent, hhistory⟩, hnewer⟩, List.not_mem_nil⟩
    | cons node nodes => exact ⟨.sendingPods _, rfl, ⟨sent, hhistory⟩, hnewer⟩
  | @nodesNotFound _ err hfound =>
    refine ⟨.committing [] (some (err.wrap "failed to update peer list")), ?_,
      ⟨⟨sent, hhistory⟩, hnewer⟩, List.not_mem_nil⟩
    rw [nodesListed, hfound]
    rfl
  | @nodesFailed _ err hfound =>
    rw [nodesListed, hfound]
    refine finish_at _ ?_ ?_
    · rw [note_history_self, hhistory]
    · rw [note_history_self, hhistory]

/-- The next place. -/
theorem Place.next {place : Place} {k : Resp c → Routine} {r : Resp c} (hrec : Recorded w)
    (hat : place.At i w) (hrest : .call c k = place.rest i.kind) (he : Exec i c w r w') :
    ∃ after : Place, k r = after.rest i.kind ∧ after.At i w' := by
  cases place with
  | selecting =>
    cases hrest
    cases he
    obtain ⟨hkind, hfresh⟩ := hat
    cases hselector : w.selectorSet with
    | false =>
      exact ⟨.ended _, rfl, ended_fresh _ hfresh⟩
    | true =>
      refine ⟨.acquiring, ?_, ?_, hfresh⟩
      · rw [hkind]
        rfl
      · rw [hkind]
        nofun
  | acquiring =>
    cases hrest
    obtain ⟨hkind, hfresh⟩ := hat
    cases he with
    | acquired _ =>
      refine ⟨.checking, rfl, hkind, ?_⟩
      rw [acquire_history_self, hfresh]
      rfl
    | done _ =>
      exact ⟨.ended _, rfl, ended_fresh _ hfresh⟩
  | checking =>
    cases hrest
    obtain ⟨hkind, hhistory⟩ := hat
    cases he with
    | live _ =>
      refine ⟨.sendingNodes, ?_, ?_⟩
      · show updatePeers i.kind >>= released = updatePeers i.kind >>= finish i.kind
        cases hk : i.kind with
        | worker => exact absurd hk hkind
        | controlPlane => rfl
        | isolationCheck => rfl
      · show w.history i = ⟨i.kind.tokens, 0, [], false, false⟩
        rw [hhistory, Kind.tokens_of_ne hkind]
    | expired _ =>
      refine ⟨.releasing _, rfl, ?_⟩
      show w.Holds i
      rw [World.Holds, hhistory]
      exact ⟨rfl, rfl⟩
  | sendingNodes =>
    cases hrest
    cases he
    have hhistory : w.history i = ⟨i.kind.tokens, 0, [], false, false⟩ := hat
    refine ⟨.listingNodes, rfl, ⟨[w.clock], ?_⟩, World.Newer.send hrec ?_ ?_⟩
    · rw [send_history_self, hhistory]
      rfl
    · rw [hhistory]
    · intro _ j _ a _ b hb
      rw [hhistory] at hb
      cases hb
  | listingNodes =>
    cases hrest
    exact nodesListed_at hat he
  | sendingPods nodes =>
    cases hrest
    cases he
    obtain ⟨⟨sent, hhistory⟩, hnewer⟩ := hat
    refine ⟨.listingPods nodes, rfl, ⟨sent ++ [w.clock], ?_⟩, World.Newer.send hrec ?_ hnewer⟩
    · rw [send_history_self, hhistory]
    · rw [hhistory]
  | listingPods nodes =>
    cases hrest
    obtain ⟨⟨sent, hhistory⟩, hnewer⟩ := hat
    cases he with
    | @pods _ pods =>
      exact ⟨.committing _ _, rfl, ⟨⟨sent, hhistory⟩, hnewer⟩,
        empty_not_mem_mapNodesToPrimaryPodIPs nodes pods⟩
    | podsFailed =>
      refine finish_at _ ?_ ?_
      · rw [note_history_self, hhistory]
      · rw [note_history_self, hhistory]
  | committing addresses err =>
    cases hrest
    cases he
    obtain ⟨⟨⟨sent, hhistory⟩, -⟩, -⟩ := hat
    refine finish_at err ?_ ?_
    · rw [commit_history_self, hhistory]
    · rw [commit_history_self, hhistory]
  | releasing err =>
    cases hrest
    cases he
    refine ⟨.ended err, rfl, ?_⟩
    show ((w.release i).history i).releases = ((w.release i).history i).acquires ∧
      ((w.release i).history i).acquires ≤ 1
    rw [release_history_self]
    show (w.history i).releases + 1 = (w.history i).acquires ∧ (w.history i).acquires ≤ 1
    rw [hat.1, hat.2]
    exact ⟨rfl, le_rfl⟩
  | ended err => cases hrest

/-- Where a refresh can be. -/
def Refresh.At (i : Refresh) (q : Routine) (w : World) : Prop :=
  ∃ place : Place, q = place.rest i.kind ∧ place.At i w

theorem refresh_at (h : w.history i = .fresh) : i.At (refresh i.kind) w := by
  cases hkind : i.kind with
  | worker =>
    refine ⟨.sendingNodes, ?_, ?_⟩
    · rw [hkind]
      exact (Prog.bind_ret (updatePeers .worker)).symm
    · show w.history i = ⟨i.kind.tokens, 0, [], false, false⟩
      rw [h, hkind]
      rfl
  | controlPlane =>
    refine ⟨.acquiring, ?_, ?_, h⟩
    · rw [hkind]
      rfl
    · rw [hkind]
      nofun
  | isolationCheck => exact ⟨.selecting, rfl, hkind, h⟩

theorem Refresh.At.allowed {k : Resp c → Routine} (h : i.At (.call c k) w) : Allowed i w c := by
  obtain ⟨place, hrest, hat⟩ := h
  exact hat.allowed hrest

end Assertions

/-! ## 5. All interleavings -/

/-- The contexts and the selectors concern no history. -/
theorem elapses_same {w w' : World} (h : Elapses w w') :
    ∃ expired selectorSet, w' = { w with expired := expired, selectorSet := selectorSet } := by
  cases h with
  | expire i => exact ⟨_, w.selectorSet, rfl⟩
  | select => exact ⟨w.expired, true, rfl⟩

def refreshes : Annotation system Interaction.System.AnyStep where
  inv w := Semaphore w ∧ Recorded w
  asserts i q w := i.At q w
  inv_env := by
    rintro w w' ⟨⟨htoken, hone⟩, hentries, hworker, hcontrolPlane⟩ he
    obtain ⟨expired, selectorSet, rfl⟩ := elapses_same he
    refine ⟨⟨htoken, hone⟩, fun i => ?_, hworker, hcontrolPlane⟩
    obtain ⟨hsent, hsource, hfailed⟩ := hentries i
    exact ⟨hsent, hsource, hfailed⟩
  inv_exec := by
    rintro i c k w r w' ⟨hsem, hrec⟩ hat he
    exact ⟨hsem.effect hat.allowed he.effect, hrec.effect hat.allowed he.effect⟩
  inv_crash := by
    rintro i c k w w' - - he
    exact he.elim
  start _ hready := refresh_at hready
  next := by
    rintro i c k w r w' t ⟨-, hrec⟩ - ⟨place, hrest, hat⟩ he -
    exact Place.next hrec hat hrest he
  env := by
    rintro i q w w' - ⟨place, hrest, hat⟩ he
    obtain ⟨expired, selectorSet, rfl⟩ := elapses_same he
    refine ⟨place, hrest, ?_⟩
    cases place <;> exact hat
  free := by
    rintro i j q c k w r w' t hne ⟨hsem, hrec⟩ - ⟨place, hrest, hat⟩ hj he -
    exact ⟨place, hrest, hat.other hsem hrec hne hj.allowed he.effect⟩
  crash := by
    rintro i j q c k w w' t - - - - he -
    exact he.elim

theorem newPeers_inv : Semaphore newPeers ∧ Recorded newPeers := by
  refine ⟨⟨fun i h => ?_, fun i j h => ?_⟩, fun i => ⟨nofun, nofun, nofun⟩, List.not_mem_nil,
    List.not_mem_nil⟩
  · exact absurd h.1 nofun
  · exact absurd h.1 nofun

/-- The refresh is between acquiring the semaphore and committing. -/
def World.Between (w : World) (i : Refresh) : Prop :=
  w.Holds i ∧ (w.history i).committed = false

/-- What holds in every state. -/
structure SafeState (s : State) : Prop where
  exclusive : ∀ i j, s.world.Between i → s.world.Between j → i = j
  /-- Whoever ended has released its token once, if it had one. -/
  released : ∀ i err, s.threads i = some (.ret err) →
    (s.world.history i).releases = (s.world.history i).acquires ∧
      (s.world.history i).acquires ≤ 1
  /-- Whoever failed to list did not commit. -/
  failed : ∀ i, (s.world.history i).failed = true → (s.world.history i).committed = false
  worker : "" ∉ s.world.caches.workerPeersAddresses
  controlPlane : "" ∉ s.world.caches.controlPlanePeersAddresses

/-- What holds of every step, where `mover` is the refresh that moves. -/
structure SafeStep (mover : Option Refresh) (w w' : World) : Prop where
  /-- Only a refresh that commits, for the first time, changes the caches. -/
  commits : w'.caches ≠ w.caches → ∃ i, mover = some i ∧ (w.history i).committed = false ∧
    (w'.history i).committed = true
  failed : ∀ i, mover = some i → (w'.history i).failed = true → w'.caches = w.caches
  worker : ∀ i, mover = some i → i.kind = .worker →
    w'.caches.controlPlanePeersAddresses = w.caches.controlPlanePeersAddresses
  controlPlane : ∀ i, mover = some i → i.kind ≠ .worker →
    w'.caches.workerPeersAddresses = w.caches.workerPeersAddresses
  reactive : ∀ i, mover = some i → i.kind = .isolationCheck →
    w.caches.controlPlanePeersAddresses ≠ [] → w'.caches.controlPlanePeersAddresses ≠ []
  /-- The control-plane addresses come from the same refresh, or they were replaced by
  those of the refresh that moves, -/
  source : w'.source = w.source ∧
      w'.caches.controlPlanePeersAddresses = w.caches.controlPlanePeersAddresses ∨
    w'.source = mover ∧ mover.isSome = true
  /-- and then all its `List` calls were sent after those of the replaced ones. -/
  ordered : ∀ i j, w.source = some i → w'.source = some j → i ≠ j →
    ∀ a ∈ (w.history i).sent, ∀ b ∈ (w'.history j).sent, a < b

theorem safeStep_same {mover : Option Refresh} {w w' : World} (hcaches : w'.caches = w.caches)
    (hsource : w'.source = w.source) : SafeStep mover w w' where
  commits h := absurd hcaches h
  failed _ _ _ := hcaches
  worker _ _ _ := by rw [hcaches]
  controlPlane _ _ _ := by rw [hcaches]
  reactive _ _ _ h := by rwa [hcaches]
  source := .inl ⟨hsource, by rw [hcaches]⟩
  ordered i j hi hj hne := by
    rw [hsource, hi] at hj
    exact absurd (Option.some.inj hj) hne

theorem safeStep_commit {w : World} {i : Refresh} {addresses : List PodIP} (h : w.Lists i) :
    SafeStep (some i) w (w.commit i i.kind addresses) := by
  obtain ⟨⟨sent, hhistory⟩, hnewer⟩ := h
  have hself := commit_history_self w i i.kind addresses
  have hcp := setAddresses_controlPlane w.caches addresses i.kind
  have hsource : (w.commit i i.kind addresses).source =
      if i.kind = .worker ∨ w.caches.preserves addresses i.kind = true then w.source
      else some i := rfl
  constructor
  case commits => exact fun _ => ⟨i, rfl, by rw [hhistory], by rw [hself]⟩
  case failed =>
    rintro j ⟨⟩ hfailed
    rw [hself, hhistory] at hfailed
    cases hfailed
  case worker =>
    rintro j ⟨⟩ hkind
    exact hcp.trans (if_pos (.inl hkind))
  case controlPlane =>
    rintro j ⟨⟩ hkind
    exact setAddresses_worker hkind
  case reactive =>
    rintro j ⟨⟩ hkind hne
    change (w.caches.setAddresses addresses i.kind).controlPlanePeersAddresses ≠ []
    rw [hcp]
    split
    · exact hne
    · next hset =>
      rintro rfl
      refine hset (.inr ?_)
      rw [hkind]
      simpa [Caches.preserves, List.length_pos_iff] using hne
  case source =>
    rw [hsource]
    split
    · next hkept => exact .inl ⟨rfl, hcp.trans (if_pos hkept)⟩
    · exact .inr ⟨rfl, rfl⟩
  case ordered =>
    intro j k hj hk hne a ha b hb
    rw [hsource] at hk
    split at hk
    · rw [hj] at hk
      exact absurd (Option.some.inj hk) hne
    · next hset =>
      cases hk
      rw [hself] at hb
      exact hnewer (fun hkind => hset (.inl hkind)) j hj a ha b hb

/-- Any number of refreshes, in any interleaving: every state and every step is
safe. -/
theorem refreshes_safe {s : State} (h : system.Run Interaction.System.AnyStep newPeers s) :
    SafeState s ∧ ∀ mover s', system.Step mover s s' → SafeStep mover s.world s'.world := by
  obtain ⟨⟨hsem, hrec⟩, hat⟩ := refreshes.reachable newPeers_inv h
  refine ⟨⟨fun i j hi hj => hsem.one i j hi.1 hj.1, ?_, fun i => (hrec.entries i).failed,
    hrec.worker, hrec.controlPlane⟩, ?_⟩
  · intro i err hi
    obtain ⟨place, hrest, hplace⟩ := hat i _ hi
    cases place with
    | ended _ => exact hplace
    | _ => cases hrest
  · intro mover s' hstep
    cases hstep with
    | env he =>
      obtain ⟨expired, selectorSet, rfl⟩ := elapses_same he
      exact safeStep_same rfl rfl
    | start _ _ => exact safeStep_same rfl rfl
    | call hi he =>
      have hallowed := Refresh.At.allowed (hat _ _ hi)
      rcases he.effect.caches with ⟨hcaches, hsource⟩ | ⟨kind, addresses, rfl, rfl⟩
      · exact safeStep_same hcaches hsource
      · obtain ⟨rfl, hlists, -⟩ := hallowed
        exact safeStep_commit hlists
    | crash _ he => exact he.elim
    | abandon he => exact he.elim

/-- One refresh is running. -/
def inRefresh (i : Refresh) (place : Place) : Refresh → Option Routine :=
  Function.update (fun _ => none) i (some (place.rest i.kind))

theorem run_inRefresh {i : Refresh} {place : Place} (after : Place) {w w' : World} {c : Call}
    {k : Resp c → Routine} {r : Resp c}
    (h : system.Run Interaction.System.AnyStep newPeers ⟨w, inRefresh i place⟩)
    (hcall : place.rest i.kind = .call c k) (he : Exec i c w r w')
    (hafter : k r = after.rest i.kind) :
    system.Run Interaction.System.AnyStep newPeers ⟨w', inRefresh i after⟩ := by
  have hi : inRefresh i place i = some (.call c k) := by
    rw [inRefresh, Function.update_self, hcall]
  have hnext := h.call i hi he trivial
  rw [inRefresh, Function.update_idem, hafter] at hnext
  exact hnext

def firstRefresh : Refresh := ⟨.controlPlane, 0⟩

def otherNode : Node := ⟨"control-plane-2", [], [], []⟩

def otherAgent : AgentPod :=
  ⟨⟨"agent-2", "operators", "control-plane-2", [], [], none⟩, ["10.0.0.7"]⟩

/-- The first refresh has run to its end. -/
def afterFirstRefresh : State where
  world := ((((newPeers.acquire firstRefresh).send firstRefresh).send firstRefresh).commit
    firstRefresh .controlPlane ["10.0.0.7"]).release firstRefresh
  threads := inRefresh firstRefresh (.ended none)

theorem run_firstRefresh :
    system.Run Interaction.System.AnyStep newPeers afterFirstRefresh := by
  have h : system.Run Interaction.System.AnyStep newPeers
      ⟨newPeers, inRefresh firstRefresh .acquiring⟩ :=
    Interaction.System.Run.start .refl firstRefresh rfl rfl trivial
  have h := run_inRefresh .checking h rfl (.acquired Nat.zero_lt_one) rfl
  have h := run_inRefresh .sendingNodes h rfl (.live rfl) rfl
  have h := run_inRefresh .listingNodes h rfl .sendListNodes rfl
  have h := run_inRefresh (c := .listNodes) (r := .ok [otherNode]) (.sendingPods [otherNode]) h rfl
    .nodes rfl
  have h := run_inRefresh (.listingPods [otherNode]) h rfl .sendListPods rfl
  have h := run_inRefresh (c := .listPods) (r := .ok [otherAgent])
    (.committing ["10.0.0.7"] none) h rfl .pods rfl
  have h := run_inRefresh (.releasing none) h rfl .setAddresses rfl
  exact run_inRefresh (.ended none) h rfl (.release Nat.zero_lt_one) rfl

theorem refreshes_safe_first :
    afterFirstRefresh.world.caches.controlPlanePeersAddresses = ["10.0.0.7"] ∧
      SafeState afterFirstRefresh ∧
      ∀ mover s', system.Step mover afterFirstRefresh s' →
        SafeStep mover afterFirstRefresh.world s'.world :=
  ⟨rfl, refreshes_safe run_firstRefresh⟩

end SelfNodeRemediation.PeerCache
