import SelfNodeRemediation.Lib.Threads
import SelfNodeRemediation.ConfigReconciler

/-!
# The egress exception for the health check endpoint

The manager renders the agents' NetworkPolicy with the addresses it resolved for
`EndpointHealthCheckUrl`, and the agents of control-plane nodes write the addresses
they resolved into the same policy. The manager remembers its last resolution, but
only as long as its process lives.

* `ensureEndpointNetworkPolicyUpToDate`: what an agent does before it pings.
* `system`: reconciles of the manager, which may restart, and any number of agents.
* `failed_resolution_keeps`: a reconcile whose resolution fails leaves the endpoint
  rules alone, if the policy has the addresses that this process resolved last and
  no agent replaces them before the reconcile has read the policy.
  `egress_exception_lost`: after a restart it removes the exception.
-/

namespace SelfNodeRemediation.ConfigReconciler

open Interaction Versioned

/-! ## 1. The agents -/

/-- The CIDR of an endpoint rule. -/
def endpointCIDR (rule : PolicyRule) : Option String :=
  match rule.ports, rule.peers with
  | [], [peer] => peer.ipBlock.map IPBlock.cidr
  | _, _ => none

def endpointCIDRsFromEgress (egress : List PolicyRule) : List String :=
  sortStrings (egress.filterMap endpointCIDR)

def replaceEndpointCIDRRules (egress : List PolicyRule) (cidrs : List String) :
    List PolicyRule :=
  egress.filter (fun rule => !isEndpointCIDRRule rule) ++ cidrs.map endpointRule

def sameCIDRs (a b : List String) : Bool := a == b

/-- `ensureEndpointNetworkPolicyUpToDate` with the policy: whether it was patched. -/
def patchEndpointCIDRs (cidrs : List String) : Except GoErr (Revision NetworkPolicy) → P Bool
  | .error _ => pure false
  | .ok np =>
    if sameCIDRs (endpointCIDRsFromEgress np.value.egress) cidrs then pure false
    else do
      let changed := { np.value with egress := replaceEndpointCIDRRules np.value.egress cidrs }
      match ← ask (.updateNetworkPolicy ⟨np.resourceVersion, changed⟩) with
      | some _ => pure false
      | none => pure true

def ensureEndpointNetworkPolicyUpToDate (namespace_ endpointHealthCheckUrl : String) : P Bool :=
  if namespace_ = "" then pure false
  else do
    match ← resolveURLToSortedCIDRs endpointHealthCheckUrl with
    | .error _ => pure false
    | .ok cidrs => patchEndpointCIDRs cidrs (← ask .getNetworkPolicy)

/-! ## 2. The system -/

/-- The worker of a manager process, or a call of an agent. -/
inductive Thread
  | manager (process : Nat)
  | agent (id : Nat)
deriving DecidableEq, Repr

/-- The stored policy with its versions, the configuration, and the manager process
with its resolver. That the last resolution failed is only recorded. -/
structure World where
  process : Nat
  resolver : CachedCIDRResolver
  config : Option InstalledConfig
  networkPolicy : Option (Store NetworkPolicy)
  failed : Bool

/-- The policy is written if it still has the version that the writer has read. -/
def World.store (w : World) (store : Store NetworkPolicy) (np : NetworkPolicy) : World :=
  { w with networkPolicy := some (store.putIfChanged np) }

/-- What can be answered. A read of the policy can be late, and a write that is
answered with an error may still have been made. -/
inductive Exec : (c : Call) → World → Resp c → World → Prop
  | config {w : World} {c : InstalledConfig} : w.config = some c → Exec .getConfig w (.ok c) w
  | noConfig {w : World} {err : GoErr} : Exec .getConfig w (.error err) w
  | setCalculatorConfig {w : World} {c : InstalledConfig} : Exec (.setCalculatorConfig c) w () w
  | syncCerts {w : World} {r : Option GoErr} : Exec .syncCerts w r w
  | lookupIP {w : World} {url : String} {r : Except GoErr (List IP)} :
      Exec (.lookupIP url) w r w
  | cachedResolve {w : World} {url : String} {resolved : Except GoErr (List String)} :
      Exec (.cachedResolve url resolved) w (w.resolver.resolve url resolved).1
        { w with
          resolver := (w.resolver.resolve url resolved).2
          failed := !resolved.isOk }
  | syncDaemonSet {w : World} {c : InstalledConfig} {r : Option GoErr} :
      Exec (.syncDaemonSet c) w r w
  | policy {w : World} {store : Store NetworkPolicy} {n : Nat} {np : NetworkPolicy} :
      w.networkPolicy = some store → store.version n = some np →
      Exec .getNetworkPolicy w (.ok ⟨n, np⟩) w
  | noPolicy {w : World} {err : GoErr} : Exec .getNetworkPolicy w (.error err) w
  | created {w : World} {np : NetworkPolicy} {r : Option GoErr} : w.networkPolicy = none →
      Exec (.createNetworkPolicy np) w r { w with networkPolicy := some ⟨np, []⟩ }
  | notCreated {w : World} {np : NetworkPolicy} {err : GoErr} :
      Exec (.createNetworkPolicy np) w (some err) w
  | updated {w : World} {np : Revision NetworkPolicy} {store : Store NetworkPolicy}
      {r : Option GoErr} : w.networkPolicy = some store →
      np.resourceVersion = store.resourceVersion →
      Exec (.updateNetworkPolicy np) w r (w.store store np.value)
  | notUpdated {w : World} {np : Revision NetworkPolicy} {err : GoErr} :
      Exec (.updateNetworkPolicy np) w (some err) w
  | listSNRs {w : World} {r : Except GoErr (List (Revision SNR))} : Exec .listSNRs w r w
  | updateSNRStatus {w : World} {snr : Revision SNR} {r : Option GoErr} :
      Exec (.updateSNRStatus snr) w r w

/-- The manager restarts, or the configuration changes, but not its URL. -/
inductive Elapses (url : String) (w : World) : World → Prop
  | restart : Elapses url w { w with process := w.process + 1, resolver := newResolver }
  | configure (config : Option InstalledConfig) :
      (∀ c, config = some c → c.endpointHealthCheckUrl = url) →
      Elapses url w { w with config := config }

abbrev State := Pool Thread Call Resp World (Outcome ⊕ Bool)

def Thread.main (namespaces : Nat → String) (url : String) :
    Thread → P (Outcome ⊕ Bool)
  | .manager _ => reconcile >>= fun o => pure (.inl o)
  | .agent n => ensureEndpointNetworkPolicyUpToDate (namespaces n) url >>= fun b => pure (.inr b)

/-- Only the worker of the current process runs. -/
def Thread.Runs (w : World) : Thread → Prop
  | .manager process => process = w.process
  | .agent _ => True

/-- The worker of a manager process reconciles again and again, and may give up a
reconcile at any of its calls; the agents, whose deployment namespaces are
`namespaces`, resolve the same URL. -/
def system (namespaces : Nat → String) (url : String) :
    Interaction.System Thread Call Resp World (Outcome ⊕ Bool) where
  main := Thread.main namespaces url
  ready i w := i.Runs w
  exec i c w r w' := i.Runs w ∧ Exec c w r w'
  crash _ _ _ _ := False
  env := Elapses url
  again
    | .manager _ => True
    | .agent _ => False

/-! ## 3. When the rules are kept -/

/-- The endpoint rules of a stored policy stay. -/
def KeepsRules (w w' : World) : Prop :=
  ∀ store store', w.networkPolicy = some store → w'.networkPolicy = some store' →
    store'.current.endpointRules = store.current.endpointRules

/-- The stored policy has the addresses that this manager process resolved last for
the URL, and none if it has not resolved it yet. -/
def Remembered (url : String) (w : World) : Prop :=
  ∀ store, w.networkPolicy = some store →
    w.resolver.lastURL = url ∧
        store.current.endpointRules = w.resolver.lastCIDRs.map endpointRule ∨
      w.resolver.lastURL ≠ url ∧ store.current.endpointRules = []

/-- A reconcile of the current process whose resolution failed has not read the policy
yet. -/
def Pending (s : State) : Prop :=
  s.world.failed = true ∧
    ∃ c k, (c = .getNetworkPolicy ∨ ∃ config, c = .syncDaemonSet config) ∧
      s.threads (.manager s.world.process) = some (.call c k)

/-- When a resolution of the manager fails, the policy has the addresses that it
resolved last, and no agent replaces them until the manager has read the policy. -/
def Careful (url : String) (mover : Option Thread) (s s' : State) : Prop :=
  (∀ process err k, mover = some (.manager process) →
    s.threads (.manager process) = some (.call (.cachedResolve url (.error err)) k) →
    Remembered url s.world) ∧
  ∀ id, mover = some (.agent id) → Pending s → KeepsRules s.world s'.world

/-! ## 4. Where a reconcile is -/

/-- The end of the worker's program. -/
def endedWith (o : Outcome) : P (Outcome ⊕ Bool) := pure (.inl o)

/-- The reconcile after the policy was applied. -/
def applied (err : Option GoErr) : P (Outcome ⊕ Bool) :=
  reconcileSynced (err.map (·.wrap "failed to apply object")) >>= endedWith

/-- The places in a reconcile. -/
inductive Place
  | start
  | configured (config : InstalledConfig)
  | certs (config : InstalledConfig)
  | lookup (config : InstalledConfig)
  | resolving (config : InstalledConfig) (resolved : Except GoErr (List String))
  | syncing (config : InstalledConfig) (cidrs : List String)
  | reading (desired : NetworkPolicy)
  | creating (desired : NetworkPolicy)
  | updating (desired : Revision NetworkPolicy)
  | listing
  | enabling (cr : Revision SNR) (crs : List (Revision SNR))
  | ended (o : Outcome)

/-- `applied` with the errors of the writes. -/
def written (msg : String) (err : Option GoErr) : P (Outcome ⊕ Bool) :=
  applied (err.map (·.wrap msg))

/-- The reconcile after an update of a CR's status. -/
def enabled (crs : List (Revision SNR)) (err : Option GoErr) : P (Outcome ⊕ Bool) :=
  match err with
  | some err => endedWith (.failed err)
  | none => (enableCRs crs >>= fun err =>
      match err with
      | some err => pure (.failed err)
      | none => pure .done) >>= endedWith

def Place.rest : Place → P (Outcome ⊕ Bool)
  | .start => reconcile >>= endedWith
  | .configured config => reconcileConfig config >>= endedWith
  | .certs config =>
    ask .syncCerts >>= fun
      | some err => endedWith (.failed err)
      | none => (syncConfigDaemonSet config >>= reconcileSynced) >>= endedWith
  | .lookup config => (syncConfigDaemonSet config >>= reconcileSynced) >>= endedWith
  | .resolving config resolved =>
    (syncResolved config resolved >>= reconcileSynced) >>= endedWith
  | .syncing config cidrs =>
    (syncObjects config cidrs >>= reconcileSynced) >>= endedWith
  | .reading desired => applyObject desired >>= applied
  | .creating desired => ask (.createNetworkPolicy desired) >>=
      written "could not create NetworkPolicy"
  | .updating desired => ask (.updateNetworkPolicy desired) >>=
      written "could not update object NetworkPolicy"
  | .listing => reconcileSynced none >>= endedWith
  | .enabling cr crs => ask (.updateSNRStatus cr) >>= enabled crs
  | .ended o => endedWith o

/-- The endpoint rules of the stored policy are these. -/
def Matches (w : World) (rules : List PolicyRule) : Prop :=
  ∀ store, w.networkPolicy = some store → store.current.endpointRules = rules

/-- What is known of a reconcile by its place. -/
def Place.At (url : String) (w : World) : Place → Prop
  | .configured config | .certs config | .lookup config | .resolving config _ =>
    config.endpointHealthCheckUrl = url
  | .syncing config cidrs =>
    config.endpointHealthCheckUrl = url ∧ (w.failed = true → Matches w (cidrs.map endpointRule))
  | .reading desired => w.failed = true → Matches w desired.endpointRules
  | .updating desired => ∃ store, w.networkPolicy = some store ∧
      desired.resourceVersion ≤ store.resourceVersion ∧
      (w.failed = true → desired.resourceVersion = store.resourceVersion →
        store.current.endpointRules = desired.value.endpointRules)
  | .start | .creating _ | .listing | .enabling _ _ | .ended _ => True

section Steps

variable {url : String} {w w' : World} {c : Call} {r : Resp c}

/-- The next CR with the condition is updated. -/
theorem enableCRs_rest (crs : List (Revision SNR)) :
    ∃ after : Place, enabled crs none = after.rest ∧ after.At url w := by
  induction crs with
  | nil => exact ⟨.ended .done, rfl, trivial⟩
  | cons cr crs ih =>
    by_cases hdisabled : isDisabled cr.value = true
    · refine ⟨.enabling ⟨cr.resourceVersion, withoutDisabled cr.value⟩ crs, ?_, trivial⟩
      show (enableCRs (cr :: crs) >>= _) >>= endedWith = _
      rw [enableCRs, if_pos hdisabled]
      show Prog.call _ _ = Prog.call _ _
      congr 1
      funext err
      cases err with
      | none => rfl
      | some err => rfl
    · obtain ⟨after, hrest, hat⟩ := ih
      refine ⟨after, ?_, hat⟩
      rw [← hrest]
      show (enableCRs (cr :: crs) >>= _) >>= endedWith = _
      rw [enableCRs, if_neg hdisabled]
      rfl

theorem applied_eq (desired : NetworkPolicy) :
    ((applyObject desired >>= fun err => pure (err.map (·.wrap "failed to apply object"))) >>=
      reconcileSynced) >>= endedWith = applyObject desired >>= applied := by
  rw [Prog.bind_assoc, Prog.bind_assoc]
  rfl

theorem written_rest (msg : String) (err : Option GoErr) :
    ∃ after : Place, written msg err = after.rest ∧ after.At url w := by
  cases err with
  | none => exact ⟨.listing, rfl, trivial⟩
  | some err => exact ⟨.ended _, rfl, trivial⟩

/-- A failed resolution of a process that remembers what is stored. -/
theorem Remembered.fallback (h : Remembered url w) (err : GoErr) :
    Matches w ((w.resolver.resolve url (.error err)).1.map endpointRule) := by
  intro store hstore
  unfold CachedCIDRResolver.resolve applyEndpointCIDRFallback
  rcases h store hstore with ⟨hurl, hrules⟩ | ⟨hurl, hrules⟩
  · rw [if_pos hurl]
    exact hrules
  · rw [if_neg hurl]
    exact hrules

theorem syncConfigDaemonSet_eq {config : InstalledConfig}
    (hurl : config.endpointHealthCheckUrl ≠ "") :
    syncConfigDaemonSet config = ask (.lookupIP config.endpointHealthCheckUrl) >>= fun
      | .error e => syncResolved config (.error e)
      | .ok ips => syncResolved config (.ok (ipsToSortedCIDRs ips)) := by
  unfold syncConfigDaemonSet resolveURLToSortedCIDRs
  rw [if_neg hurl]
  show Prog.call _ _ = Prog.call _ _
  congr 1
  funext r
  cases r with
  | error e => rfl
  | ok ips => rfl

/-- What is done with the answer about the stored policy. -/
theorem applyOver_rest {desired : NetworkPolicy} {r : Except GoErr (Revision NetworkPolicy)}
    (hat : Place.At url w (.reading desired)) (he : Exec .getNetworkPolicy w r w') :
    ∃ after : Place, applyOver desired r >>= applied = after.rest ∧ after.At url w' := by
  cases he with
  | @policy _ store n np hstore hversion =>
    by_cases hsame : np = desired
    · rw [applyOver, if_pos hsame]
      exact ⟨.listing, rfl, trivial⟩
    · rw [applyOver, if_neg hsame]
      refine ⟨.updating ⟨n, desired⟩, rfl, store, hstore, Store.version_le hversion, ?_⟩
      exact fun hfailed _ => hat hfailed store hstore
  | @noPolicy _ err =>
    by_cases hfound : err.isNotFound = true
    · rw [applyOver, if_pos hfound]
      exact ⟨.creating desired, rfl, trivial⟩
    · rw [applyOver, if_neg hfound]
      exact ⟨.ended _, rfl, trivial⟩

/-- The next place. -/
theorem Place.next {place : Place} {k : Resp c → P (Outcome ⊕ Bool)} (hurl : url ≠ "")
    (hconfig : ∀ config, w.config = some config → config.endpointHealthCheckUrl = url)
    (hat : place.At url w) (hrest : .call c k = place.rest)
    (hremembered : ∀ err, c = .cachedResolve url (.error err) → Remembered url w)
    (he : Exec c w r w') : ∃ after : Place, k r = after.rest ∧ after.At url w' := by
  cases place with
  | start =>
    cases hrest
    cases he with
    | @config _ config hc =>
      cases hdeleted : config.deletionTimestamp.isSome with
      | true =>
        refine ⟨.ended .done, ?_, trivial⟩
        show (if config.deletionTimestamp.isSome = true then _ else _ : P Outcome) >>= _ = _
        rw [if_pos hdeleted]
        rfl
      | false =>
        refine ⟨.configured config, ?_, hconfig config hc⟩
        show (if config.deletionTimestamp.isSome = true then _ else _ : P Outcome) >>= _ = _
        rw [if_neg (by simp [hdeleted])]
        rfl
    | noConfig => exact ⟨.ended _, rfl, trivial⟩
  | configured config =>
    cases hrest
    cases he
    refine ⟨.certs config, ?_, hat⟩
    show Prog.call _ _ = Prog.call _ _
    congr 1
    funext err
    cases err with
    | none => rfl
    | some err => rfl
  | certs config =>
    cases hrest
    cases he
    cases r with
    | none => exact ⟨.lookup config, rfl, hat⟩
    | some err => exact ⟨.ended _, rfl, trivial⟩
  | lookup config =>
    have hne : config.endpointHealthCheckUrl ≠ "" := by
      rw [hat]
      exact hurl
    rw [Place.rest, syncConfigDaemonSet_eq hne] at hrest
    cases hrest
    cases he
    cases r with
    | error e => exact ⟨.resolving config (.error e), rfl, hat⟩
    | ok ips => exact ⟨.resolving config (.ok (ipsToSortedCIDRs ips)), rfl, hat⟩
  | resolving config resolved =>
    cases hrest
    cases he
    refine ⟨.syncing config _, rfl, hat, fun hfailed => ?_⟩
    cases resolved with
    | ok cidrs => cases hfailed
    | error err =>
      have hmatches := (hremembered err (by rw [hat])).fallback err
      rw [hat]
      exact hmatches
  | syncing config cidrs =>
    cases hrest
    cases he
    cases r with
    | some err => exact ⟨.ended _, rfl, trivial⟩
    | none =>
      obtain ⟨hc, hmatches⟩ := hat
      have hne : config.endpointHealthCheckUrl ≠ "" := by
        rw [hc]
        exact hurl
      refine ⟨.reading (networkPolicy config cidrs), applied_eq _, fun hfailed => ?_⟩
      rw [endpointRules_networkPolicy cidrs hne]
      exact hmatches hfailed
  | reading desired =>
    cases hrest
    exact applyOver_rest hat he
  | creating desired =>
    cases hrest
    exact written_rest _ _
  | updating desired =>
    cases hrest
    exact written_rest _ _
  | listing =>
    cases hrest
    cases he
    cases r with
    | error e => exact ⟨.ended _, rfl, trivial⟩
    | ok crs => exact enableCRs_rest crs
  | enabling cr crs =>
    cases hrest
    cases he
    cases r with
    | some err => exact ⟨.ended _, rfl, trivial⟩
    | none => exact enableCRs_rest crs
  | ended o => cases hrest

end Steps

/-! ## 5. All interleavings -/

/-- The calls of the agents. -/
def agentCall : Call → Prop
  | .lookupIP _ | .getNetworkPolicy | .updateNetworkPolicy _ => True
  | _ => False

theorem only_ensure (namespace_ url : String) :
    (ensureEndpointNetworkPolicyUpToDate namespace_ url >>=
      fun b => (pure (.inr b) : P (Outcome ⊕ Bool))).Only agentCall := by
  refine Prog.Only.bind ?_ fun _ => trivial
  unfold ensureEndpointNetworkPolicyUpToDate
  split
  · trivial
  · refine Prog.Only.bind ?_ fun resolved => ?_
    · unfold resolveURLToSortedCIDRs
      split
      · trivial
      · refine ⟨trivial, fun r => ?_⟩
        cases r with
        | error e => trivial
        | ok ips => trivial
    · cases resolved with
      | error e => trivial
      | ok cidrs =>
        refine ⟨trivial, fun np => ?_⟩
        show (patchEndpointCIDRs cidrs np).Only agentCall
        cases np with
        | error e => trivial
        | ok np =>
          rw [patchEndpointCIDRs]
          split
          · trivial
          · refine ⟨trivial, fun err => ?_⟩
            cases err with
            | none => trivial
            | some err => trivial

section Threads

variable {url : String} {w w' : World} {c : Call} {r : Resp c} {place : Place}

/-- An agent leaves everything as it is or writes a policy. -/
theorem Exec.agent (he : Exec c w r w') (hc : agentCall c) :
    w' = w ∨ ∃ store np, w.networkPolicy = some store ∧ w' = w.store store np := by
  cases he with
  | lookupIP => exact .inl rfl
  | policy _ _ => exact .inl rfl
  | noPolicy => exact .inl rfl
  | updated hstore _ => exact .inr ⟨_, _, hstore, rfl⟩
  | notUpdated => exact .inl rfl
  | _ => exact hc.elim

/-- A reconcile in which an agent writes: the version that was read is outdated, and
before the read the condition keeps the rules. -/
theorem Place.At.written {store : Store NetworkPolicy} {np : NetworkPolicy}
    (hat : place.At url w) (hstore : w.networkPolicy = some store)
    (hkept : w.failed = true → (∃ config cidrs, place = .syncing config cidrs) ∨
      (∃ desired, place = .reading desired) → KeepsRules w (w.store store np)) :
    place.At url (w.store store np) := by
  have hmatches {rules : List PolicyRule} (hold : Matches w rules)
      (hrules : KeepsRules w (w.store store np)) : Matches (w.store store np) rules := by
    intro store' hstore'
    rw [hrules store store' hstore hstore']
    exact hold store hstore
  cases place with
  | syncing config cidrs =>
    exact ⟨hat.1, fun hf => hmatches (hat.2 hf) (hkept hf (.inl ⟨config, cidrs, rfl⟩))⟩
  | reading desired => exact fun hf => hmatches (hat hf) (hkept hf (.inr ⟨desired, rfl⟩))
  | updating desired =>
    obtain ⟨store', hstore', hle, hrules⟩ := hat
    cases hstore.symm.trans hstore'
    refine ⟨_, rfl, ?_, fun hf hversion => ?_⟩
    · rcases Store.putIfChanged_cases store np with hsame | hput
      · rw [hsame]
        exact hle
      · rw [hput, Store.resourceVersion_put]
        exact Nat.le_succ_of_le hle
    · rcases Store.putIfChanged_cases store np with hsame | hput
      · rw [hsame] at hversion ⊢
        exact hrules hf hversion
      · rw [hput, Store.resourceVersion_put] at hversion
        omega
  | _ => exact hat

/-- Where a thread can be. The worker of an earlier process is stopped. -/
def Thread.At (url : String) (q : P (Outcome ⊕ Bool)) (w : World) : Thread → Prop
  | .manager process => process ≤ w.process ∧
      (process = w.process → ∃ place : Place, q = place.rest ∧ place.At url w)
  | .agent _ => q.Only agentCall

end Threads

/-- The URL of the configuration does not change. -/
def SameURL (url : String) (w : World) : Prop :=
  ∀ config, w.config = some config → config.endpointHealthCheckUrl = url

theorem Exec.sameURL {url : String} {w w' : World} {c : Call} {r : Resp c}
    (he : Exec c w r w') (h : SameURL url w) : SameURL url w' ∧ w'.process = w.process := by
  cases he <;> exact ⟨h, rfl⟩

def endpointPolicy {url : String} (hurl : url ≠ "") (namespaces : Nat → String) :
    Annotation (system namespaces url) (Careful url) where
  inv := SameURL url
  asserts i q w := i.At url q w
  inv_env := by
    intro w w' h he
    cases he with
    | restart => exact h
    | configure config hconfig => exact hconfig
  inv_exec := by
    rintro i c k w r w' h - ⟨-, he⟩
    exact (he.sameURL h).1
  inv_crash := by
    rintro i c k w w' - - he
    exact he.elim
  start := by
    rintro i w - hready
    cases i with
    | manager process => exact ⟨Nat.le_of_eq hready, fun _ => ⟨.start, rfl, trivial⟩⟩
    | agent id => exact only_ensure _ _
  next := by
    rintro i c k w r w' t h hi hat ⟨hruns, he⟩ ⟨hremembered, -⟩
    cases i with
    | manager process =>
      obtain ⟨hle, hplace⟩ := hat
      obtain ⟨place, hrest, hat⟩ := hplace hruns
      refine ⟨(he.sameURL h).2 ▸ hle, fun _ => ?_⟩
      refine Place.next hurl h hat hrest (fun err hc => ?_) he
      subst hc
      exact hremembered process err k rfl hi
    | agent id => exact hat.2 r
  env := by
    intro i q w w' _ hat he
    cases i with
    | manager process =>
      obtain ⟨hle, hplace⟩ := hat
      cases he with
      | restart =>
        refine ⟨Nat.le_succ_of_le hle, fun hp => ?_⟩
        change process = w.process + 1 at hp
        omega
      | configure config _ =>
        refine ⟨hle, fun hp => ?_⟩
        obtain ⟨place, hrest, hat⟩ := hplace hp
        refine ⟨place, hrest, ?_⟩
        cases place <;> exact hat
    | agent id => exact hat
  free := by
    rintro i j q c k w r w' t hne h hi hat hj ⟨hruns, he⟩ ⟨-, hkept⟩
    cases i with
    | agent id => exact hat
    | manager process =>
      obtain ⟨hle, hplace⟩ := hat
      refine ⟨(he.sameURL h).2 ▸ hle, fun hp => ?_⟩
      rw [(he.sameURL h).2] at hp
      cases j with
      | manager process' => exact absurd (congrArg Thread.manager (hp.trans hruns.symm)) hne
      | agent id =>
        obtain ⟨place, hrest, hat⟩ := hplace hp
        refine ⟨place, hrest, ?_⟩
        rcases he.agent hj.1 with rfl | ⟨store, np, hstore, rfl⟩
        · exact hat
        · refine hat.written hstore fun hf hpending => hkept id rfl ⟨hf, ?_⟩
          subst hp
          rcases hpending with ⟨config, cidrs, rfl⟩ | ⟨desired, rfl⟩
          · exact ⟨.syncDaemonSet config, _, .inr ⟨config, rfl⟩, hi.trans (congrArg some hrest)⟩
          · exact ⟨.getNetworkPolicy, _, .inl rfl, hi.trans (congrArg some hrest)⟩
  crash := by
    rintro i j q c k w w' t - - - - he -
    exact he.elim

theorem keepsRules_same {w w' : World} (h : w'.networkPolicy = w.networkPolicy) :
    KeepsRules w w' := by
  intro store store' hstore hstore'
  rw [h, hstore] at hstore'
  rw [Option.some.inj hstore']

/-- What a reconcile writes after a failed resolution. -/
theorem Place.At.keepsRules {url : String} {w w' : World} {c : Call} {r : Resp c} {place : Place}
    {k : Resp c → P (Outcome ⊕ Bool)} (hurl : url ≠ "") (hat : place.At url w)
    (hrest : .call c k = place.rest) (hfailed : w.failed = true) (he : Exec c w r w') :
    KeepsRules w w' := by
  cases he with
  | created hnone =>
    intro store store' hstore
    rw [hnone] at hstore
    cases hstore
  | @updated _ np store _ hstore hversion =>
    cases place with
    | updating desired =>
      cases hrest
      obtain ⟨store', hstore', -, hrules⟩ := hat
      cases hstore.symm.trans hstore'
      intro before after hbefore hafter
      cases hstore.symm.trans hbefore
      cases hafter
      rw [Store.putIfChanged_current]
      exact (hrules hfailed hversion).symm
    | lookup config =>
      have hne : config.endpointHealthCheckUrl ≠ "" := by
        rw [hat]
        exact hurl
      rw [Place.rest, syncConfigDaemonSet_eq hne] at hrest
      cases hrest
    | _ => cases hrest
  | _ => exact keepsRules_same rfl

/-- In a run in which every failed resolution of the manager meets the policy with the
addresses it resolved last, and no agent replaces them before the reconcile has read
the policy, no reconcile whose resolution failed changes the endpoint rules. -/
theorem failed_resolution_keeps {url : String} (hurl : url ≠ "") (namespaces : Nat → String)
    {w₀ : World} (hw₀ : SameURL url w₀) {s s' : State} {process : Nat}
    (hrun : (system namespaces url).Run (Careful url) w₀ s)
    (hstep : (system namespaces url).Step (some (.manager process)) s s')
    (hfailed : s.world.failed = true) : KeepsRules s.world s'.world := by
  obtain ⟨-, hat⟩ := (endpointPolicy hurl namespaces).reachable hw₀ hrun
  cases hstep with
  | call hi he =>
    obtain ⟨place, hrest, hplace⟩ := (hat _ _ hi).2 he.1
    exact hplace.keepsRules hurl hrest hfailed he.2
  | crash _ he => exact he.elim

/-! ## 6. Two reconciles -/

section Runs

variable {namespaces : Nat → String} {url : String}
  {ok : Option Thread → State → State → Prop} {w₀ w w' : World} {process : Nat}

/-- Only the worker of one process is running. -/
def inWorker (process : Nat) (place : Place) : Thread → Option (P (Outcome ⊕ Bool)) :=
  Function.update (fun _ => none) (.manager process) (some place.rest)

theorem inWorker_self {place : Place} {c : Call} {k : Resp c → P (Outcome ⊕ Bool)}
    (hcall : place.rest = .call c k) :
    inWorker process place (.manager process) = some (.call c k) := by
  rw [inWorker, Function.update_self, hcall]

/-- Conditions on a run that only concern failed resolutions and the agents. -/
structure Permits (url : String) (ok : Option Thread → State → State → Prop) : Prop where
  idle : ∀ s s', ok none s s'
  call : ∀ process (s s' : State) c k, s.threads (.manager process) = some (.call c k) →
    (∀ err, c = .cachedResolve url (.error err) → Remembered url s.world) →
    ok (some (.manager process)) s s'

theorem permits_careful (url : String) : Permits url (Careful url) where
  idle _ _ := ⟨nofun, nofun⟩
  call process s s' c k hi h := by
    refine ⟨?_, nofun⟩
    rintro process' err k' ⟨⟩ hcall
    rw [hi] at hcall
    cases hcall
    exact h err rfl

theorem permits_any (url : String) : Permits url Interaction.System.AnyStep where
  idle _ _ := trivial
  call _ _ _ _ _ _ _ := trivial

/-- The next place of the worker. -/
theorem run_inWorker {place : Place} (after : Place) {c : Call}
    {k : Resp c → P (Outcome ⊕ Bool)} {r : Resp c}
    (hok : ok (some (.manager process)) ⟨w, inWorker process place⟩ ⟨w', inWorker process after⟩)
    (h : (system namespaces url).Run ok w₀ ⟨w, inWorker process place⟩)
    (hcall : place.rest = .call c k) (hprocess : process = w.process) (he : Exec c w r w')
    (hafter : k r = after.rest) :
    (system namespaces url).Run ok w₀ ⟨w', inWorker process after⟩ := by
  have hthreads : Function.update (inWorker process place) (.manager process) (some (k r)) =
      inWorker process after := by
    rw [inWorker, Function.update_idem, hafter]
    rfl
  rw [← hthreads] at hok ⊢
  exact h.call (.manager process) (inWorker_self hcall) ⟨hprocess, he⟩ hok

/-- The same for a call other than a failed resolution. -/
theorem Permits.next (hok : Permits url ok) {place : Place} (after : Place) {c : Call}
    {k : Resp c → P (Outcome ⊕ Bool)} {r : Resp c}
    (h : (system namespaces url).Run ok w₀ ⟨w, inWorker process place⟩)
    (hcall : place.rest = .call c k) (hprocess : process = w.process) (he : Exec c w r w')
    (hafter : k r = after.rest)
    (hremembered : ∀ err, c = .cachedResolve url (.error err) → Remembered url w) :
    (system namespaces url).Run ok w₀ ⟨w', inWorker process after⟩ := by
  have hi := hok.call process ⟨w, inWorker process place⟩ ⟨w', inWorker process after⟩ c k
    (inWorker_self hcall) hremembered
  exact run_inWorker after hi h hcall hprocess he hafter

/-- A reconcile up to the answer to its lookup. -/
theorem Permits.resolving (hok : Permits url ok) {config : InstalledConfig} (hurl : url ≠ "")
    (hconfig : w.config = some config) (hsame : config.endpointHealthCheckUrl = url)
    (hlive : config.deletionTimestamp = none) (hprocess : process = w.process)
    (answer : Except GoErr (List IP))
    (h : (system namespaces url).Run ok w₀ ⟨w, fun _ => none⟩) :
    (system namespaces url).Run ok w₀
      ⟨w, inWorker process (.resolving config (answer.map ipsToSortedCIDRs))⟩ := by
  have h : (system namespaces url).Run ok w₀ ⟨w, inWorker process .start⟩ :=
    h.start (.manager process) rfl hprocess (hok.idle _ _)
  have h := hok.next (.configured config) h rfl hprocess (.config hconfig) (by
    show (if config.deletionTimestamp.isSome = true then _ else _ : P Outcome) >>= _ = _
    rw [hlive]
    rfl) nofun
  have h := hok.next (.certs config) h rfl hprocess .setCalculatorConfig (by
    show Prog.call _ _ = Prog.call _ _
    congr 1
    funext err
    cases err <;> rfl) nofun
  have h := hok.next (.lookup config) h rfl hprocess (.syncCerts (r := none)) rfl nofun
  have hne : config.endpointHealthCheckUrl ≠ "" := by
    rw [hsame]
    exact hurl
  have hlookup := congrArg (fun p => (p >>= reconcileSynced) >>= endedWith)
    (syncConfigDaemonSet_eq hne)
  refine hok.next _ h hlookup hprocess (.lookupIP (r := answer)) ?_ nofun
  cases answer with
  | error e => rfl
  | ok ips => rfl

/-- The world after a failed resolution. -/
def World.failedResolution (w : World) (url : String) (err : GoErr) : World :=
  { w with resolver := (w.resolver.resolve url (.error err)).2, failed := true }

/-- A reconcile whose resolution fails, up to its update of the policy. -/
theorem Permits.updating (hok : Permits url ok) {config : InstalledConfig} (hurl : url ≠ "")
    (hconfig : w.config = some config) (hsame : config.endpointHealthCheckUrl = url)
    (hlive : config.deletionTimestamp = none) (hprocess : process = w.process) (err : GoErr)
    {store : Store NetworkPolicy} (hstore : w.networkPolicy = some store) {cidrs : List String}
    (hcidrs : (w.resolver.resolve url (.error err)).1 = cidrs)
    (hdiffers : store.current ≠ networkPolicy config cidrs)
    (hfails : ok (some (.manager process))
      ⟨w, inWorker process (.resolving config (.error err))⟩
      ⟨w.failedResolution url err, inWorker process (.syncing config cidrs)⟩)
    (h : (system namespaces url).Run ok w₀ ⟨w, fun _ => none⟩) :
    (system namespaces url).Run ok w₀ ⟨w.failedResolution url err, inWorker process
      (.updating ⟨store.resourceVersion, networkPolicy config cidrs⟩)⟩ := by
  subst hsame hcidrs
  have h := hok.resolving hurl hconfig rfl hlive hprocess (.error err) h
  have h := run_inWorker (.syncing config _) hfails h rfl hprocess .cachedResolve rfl
  have h := hok.next (.reading _) h rfl hprocess (.syncDaemonSet (r := none)) (applied_eq _) nofun
  refine hok.next _ h rfl hprocess (.policy hstore Store.version_resourceVersion) ?_ nofun
  show applyOver _ (.ok ⟨_, store.current⟩) >>= applied = _
  rw [applyOver, if_neg hdiffers]
  rfl

/-- A reconcile that installs the policy. -/
theorem Permits.installs (hok : Permits url ok) {config : InstalledConfig} (hurl : url ≠ "")
    (hconfig : w.config = some config) (hsame : config.endpointHealthCheckUrl = url)
    (hlive : config.deletionTimestamp = none) (hprocess : process = w.process)
    (hnone : w.networkPolicy = none) (ips : List IP)
    (h : (system namespaces url).Run ok w₀ ⟨w, fun _ => none⟩) :
    (system namespaces url).Run ok w₀ ⟨{ w with
      resolver := ⟨url, ipsToSortedCIDRs ips⟩
      failed := false
      networkPolicy := some ⟨networkPolicy config (ipsToSortedCIDRs ips), []⟩ },
      fun _ => none⟩ := by
  subst hsame
  have h := hok.resolving hurl hconfig rfl hlive hprocess (.ok ips) h
  have h := hok.next (.syncing config (ipsToSortedCIDRs ips)) h rfl hprocess .cachedResolve rfl
    nofun
  have h := hok.next (.reading _) h rfl hprocess (.syncDaemonSet (r := none)) (applied_eq _) nofun
  have h := hok.next (.creating _) h rfl hprocess
    (@Exec.noPolicy _ ⟨.notFound, "networkpolicies not found"⟩) rfl nofun
  have h := hok.next .listing h rfl hprocess (.created (r := none) hnone) rfl nofun
  have h := hok.next (.ended .done) h rfl hprocess (.listSNRs (r := .ok [])) rfl nofun
  have hthreads : Function.update (inWorker process (.ended .done)) (.manager process) none =
      fun _ => none := by
    rw [inWorker, Function.update_idem]
    exact Function.update_eq_self _ _
  have h := h.abandon (.manager process) trivial (hok.idle _ _)
  rw [hthreads] at h
  exact h

end Runs

def endpointURL : String := "health-endpoint"

def endpointConfig (hostPort : Int64) : InstalledConfig := ⟨none, endpointURL, hostPort⟩

def endpointCIDRs : List String := ipsToSortedCIDRs [.v4 "203.0.113.7"]

def freshManager : World := ⟨0, newResolver, some (endpointConfig 30001), none, false⟩

def installedStore : Store NetworkPolicy := ⟨networkPolicy (endpointConfig 30001) endpointCIDRs, []⟩

/-- The first reconcile has resolved the endpoint and created the policy. -/
def installed : World :=
  ⟨0, ⟨endpointURL, endpointCIDRs⟩, some (endpointConfig 30001), some installedStore, false⟩

/-- Then the port of the agents is changed. -/
def reconfigured : World := { installed with config := some (endpointConfig 30002) }

def lookupError : GoErr := .new "lookup health-endpoint: i/o timeout"

theorem endpointURL_ne : endpointURL ≠ "" := by decide

theorem sameURL_freshManager : SameURL endpointURL freshManager := by
  rintro config ⟨⟩
  rfl

theorem run_installed {ok : Option Thread → State → State → Prop} (hok : Permits endpointURL ok) :
    (system (fun _ => "") endpointURL).Run ok freshManager ⟨installed, fun _ => none⟩ :=
  hok.installs endpointURL_ne rfl rfl rfl rfl rfl [.v4 "203.0.113.7"] .refl

theorem remembered_reconfigured : Remembered endpointURL reconfigured := by
  rintro store ⟨⟩
  exact .inl ⟨rfl, endpointRules_networkPolicy endpointCIDRs endpointURL_ne⟩

theorem networkPolicy_port_ne (cidrs : List String) : networkPolicy (endpointConfig 30001) cidrs ≠
    networkPolicy (endpointConfig 30002) cidrs := by
  intro h
  have hingress : ([⟨[Protocol.tcp.port 30001], [agentPods]⟩] : List PolicyRule) =
      [⟨[Protocol.tcp.port 30002], [agentPods]⟩] := congrArg NetworkPolicy.ingress h
  exact absurd hingress (by decide)

theorem run_reconfigured : (system (fun _ => "") endpointURL).Run (Careful endpointURL) freshManager
    ⟨reconfigured.failedResolution endpointURL lookupError,
      inWorker 0 (.updating ⟨0, networkPolicy (endpointConfig 30002) endpointCIDRs⟩)⟩ := by
  have hok := permits_careful endpointURL
  have hsame : ∀ c, some (endpointConfig 30002) = some c → c.endpointHealthCheckUrl =
      endpointURL := by
    rintro c ⟨⟩
    rfl
  have h := (run_installed hok).env (.configure _ hsame) (hok.idle _ _)
  refine hok.updating endpointURL_ne rfl rfl rfl rfl lookupError rfl ?_
    (networkPolicy_port_ne endpointCIDRs) ?_ h
  · rfl
  · exact hok.call 0 _ _ _ _
      (@inWorker_self 0 (.resolving (endpointConfig 30002) (.error lookupError)) _ _ rfl)
      fun _ _ => remembered_reconfigured

/-- The lookup fails while the new port is rolled out: the exception stays. -/
theorem failed_resolution_keeps_reconfigured :
    (reconfigured.failedResolution endpointURL lookupError).failed = true ∧
      KeepsRules (reconfigured.failedResolution endpointURL lookupError)
        ((reconfigured.failedResolution endpointURL lookupError).store installedStore
          (networkPolicy (endpointConfig 30002) endpointCIDRs)) :=
  ⟨rfl, failed_resolution_keeps endpointURL_ne (fun _ => "") sameURL_freshManager run_reconfigured
    (.call (r := none) (inWorker_self rfl) ⟨rfl, .updated rfl rfl⟩) rfl⟩

/-- After a restart of the manager. -/
def restarted : World := { installed with process := 1, resolver := newResolver }

/-- The manager restarts, and its first lookup fails: it removes the exception that is
still valid. -/
theorem egress_exception_lost : ∃ s s' : State,
    (system (fun _ => "") endpointURL).Run Interaction.System.AnyStep freshManager s ∧
      (system (fun _ => "") endpointURL).Step (some (.manager 1)) s s' ∧
      s.world.failed = true ∧ ¬ KeepsRules s.world s'.world := by
  have hok := permits_any endpointURL
  have hcidrs : endpointCIDRs = ["203.0.113.7/32"] := by
    simp [endpointCIDRs, ipsToSortedCIDRs, sortStrings, IP.toCIDR]
  have hrules : installedStore.current.endpointRules = [endpointRule "203.0.113.7/32"] := by
    rw [installedStore, endpointRules_networkPolicy endpointCIDRs endpointURL_ne, hcidrs]
    rfl
  have hdiffers : installedStore.current ≠ networkPolicy (endpointConfig 30001) [] := by
    intro h
    rw [h] at hrules
    cases hrules
  have h : (system (fun _ => "") endpointURL).Run Interaction.System.AnyStep freshManager
      ⟨restarted, fun _ => none⟩ := (run_installed hok).env .restart trivial
  have h := hok.updating endpointURL_ne rfl rfl rfl rfl lookupError rfl rfl hdiffers trivial h
  refine ⟨_, _, h, .call (r := none) (inWorker_self rfl) ⟨rfl, .updated rfl rfl⟩, rfl, ?_⟩
  intro hkeeps
  have hlost := hkeeps installedStore _ rfl rfl
  rw [Store.putIfChanged_current, hrules] at hlost
  cases hlost

end SelfNodeRemediation.ConfigReconciler
