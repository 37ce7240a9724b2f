import SelfNodeRemediation.Lib.Interaction
import SelfNodeRemediation.Lib.Versioned
import SelfNodeRemediation.Api

/-!
# The reconciler of the configuration

`SelfNodeRemediationConfigReconciler.Reconcile` as a program over its calls. It
installs the agents' DaemonSet and NetworkPolicy and removes the `Disabled`
conditions that were set while there was no configuration.

Of the objects it renders only the NetworkPolicy is modelled; the certificates and
the DaemonSet are synced by calls that succeed or fail.

* `networkPolicy`: the rendered policy. `endpointRules_networkPolicy`: its endpoint
  rules are those of the resolved CIDRs.
* `CachedCIDRResolver.resolve`: the last resolution is used when the next one fails.
-/

namespace SelfNodeRemediation.ConfigReconciler

open Interaction Versioned

/-! ## 1. The NetworkPolicy -/

inductive Protocol
  | tcp
  | udp
  | sctp
deriving DecidableEq, Repr

/-- A port by its number or by its name. -/
inductive IntOrString
  | int (n : Int64)
  | string (s : String)
deriving DecidableEq, Repr

structure PolicyPort where
  protocol : Option Protocol
  port : Option IntOrString
  endPort : Option Int64
deriving DecidableEq, Repr

inductive SelectorOperator
  | in_
  | notIn
  | exists_
  | doesNotExist
deriving DecidableEq, Repr

structure SelectorRequirement where
  key : String
  operator : SelectorOperator
  values : List String
deriving DecidableEq, Repr

structure LabelSelector where
  matchLabels : StringMap
  matchExpressions : List SelectorRequirement
deriving DecidableEq, Repr

structure IPBlock where
  cidr : String
  except_ : List String
deriving DecidableEq, Repr

/-- A peer of a rule. Nothing here rules out a peer with an IP block beside its
selectors. -/
structure PolicyPeer where
  podSelector : Option LabelSelector
  namespaceSelector : Option LabelSelector
  ipBlock : Option IPBlock
deriving DecidableEq, Repr

/-- A rule of the ingress, with its `from` peers, or of the egress, with its `to`
peers. -/
structure PolicyRule where
  ports : List PolicyPort
  peers : List PolicyPeer
deriving DecidableEq, Repr

structure NetworkPolicy where
  ingress : List PolicyRule
  egress : List PolicyRule
deriving DecidableEq, Repr

/-- What is read of the `SelfNodeRemediationConfig`. -/
structure InstalledConfig where
  deletionTimestamp : Option Time
  endpointHealthCheckUrl : String
  hostPort : Int64
deriving DecidableEq, Repr

def agentPods : PolicyPeer where
  podSelector := some ⟨[("app.kubernetes.io/name", "self-node-remediation"),
    ("app.kubernetes.io/component", "agent")], []⟩
  namespaceSelector := none
  ipBlock := none

/-- Any traffic to one CIDR. -/
def endpointRule (cidr : String) : PolicyRule := ⟨[], [⟨none, none, some ⟨cidr, []⟩⟩]⟩

def Protocol.port (protocol : Protocol) (n : Int64) : PolicyPort :=
  ⟨some protocol, some (.int n), none⟩

/-- The egress rules that do not depend on the endpoint: to the other agents, for DNS,
to the API server and to the kubelet. -/
def fixedEgress (hostPort : Int64) : List PolicyRule :=
  [⟨[Protocol.tcp.port hostPort], [agentPods]⟩,
    ⟨[Protocol.udp.port 53, Protocol.tcp.port 53, Protocol.udp.port 5353,
      Protocol.tcp.port 5353], []⟩,
    ⟨[Protocol.tcp.port 443, Protocol.tcp.port 6443], []⟩,
    ⟨[Protocol.tcp.port 10250], []⟩]

/-- The rendered `self-node-remediation-networkpolicy.yaml`. -/
def networkPolicy (config : InstalledConfig) (endpointHealthCheckUrlCIDRs : List String) :
    NetworkPolicy where
  ingress := [⟨[Protocol.tcp.port config.hostPort], [agentPods]⟩]
  egress := fixedEgress config.hostPort ++
    if config.endpointHealthCheckUrl ≠ "" then endpointHealthCheckUrlCIDRs.map endpointRule else []

def isEndpointCIDRRule (rule : PolicyRule) : Bool :=
  match rule.ports, rule.peers with
  | [], [peer] => peer.ipBlock.isSome
  | _, _ => false

/-- The endpoint CIDR rules of a policy. -/
def NetworkPolicy.endpointRules (np : NetworkPolicy) : List PolicyRule :=
  np.egress.filter isEndpointCIDRRule

/-- The endpoint rules of the rendered policy are those of the CIDRs. -/
theorem endpointRules_networkPolicy {config : InstalledConfig} (cidrs : List String)
    (hurl : config.endpointHealthCheckUrl ≠ "") :
    (networkPolicy config cidrs).endpointRules = cidrs.map endpointRule := by
  have hcidrs : (cidrs.map endpointRule).filter isEndpointCIDRRule = cidrs.map endpointRule := by
    rw [List.filter_eq_self]
    intro rule hrule
    obtain ⟨cidr, -, rfl⟩ := List.mem_map.mp hrule
    rfl
  rw [NetworkPolicy.endpointRules, networkPolicy, if_pos hurl, List.filter_append, hcidrs]
  rfl

/-! ## 2. Resolving the endpoint -/

/-- An address of a lookup, as `IP.String` writes it. -/
inductive IP
  | v4 (address : String)
  | v6 (address : String)
deriving DecidableEq, Repr

def IP.toCIDR : IP → String
  | .v4 address => address ++ "/32"
  | .v6 address => address ++ "/128"

def sortStrings (ss : List String) : List String := ss.mergeSort fun a b => decide (a ≤ b)

def ipsToSortedCIDRs (ips : List IP) : List String := sortStrings (ips.map IP.toCIDR)

/-- The cache of a manager process. -/
structure CachedCIDRResolver where
  lastURL : String
  lastCIDRs : List String
deriving DecidableEq, Repr

/-- The resolver of a new process. -/
def newResolver : CachedCIDRResolver := ⟨"", []⟩

def applyEndpointCIDRFallback (url : String) (resolved : Except GoErr (List String))
    (cachedURL : String) (cachedCIDRs : List String) : List String × String × List String :=
  match resolved with
  | .ok resolved => (resolved, url, resolved)
  | .error _ =>
    if cachedURL = url then (cachedCIDRs, cachedURL, cachedCIDRs)
    else ([], cachedURL, cachedCIDRs)

/-- The CIDRs to use, and the new cache. -/
def CachedCIDRResolver.resolve (c : CachedCIDRResolver) (url : String)
    (resolved : Except GoErr (List String)) : List String × CachedCIDRResolver :=
  let (cidrs, newCachedURL, newCachedCIDRs) :=
    applyEndpointCIDRFallback url resolved c.lastURL c.lastCIDRs
  (cidrs, ⟨newCachedURL, newCachedCIDRs⟩)

/-! ## 3. Calls -/

/-- What the manager and the agents call. `cachedResolve` is the process's own
resolver, after the lookup. -/
inductive Call
  | getConfig
  | setCalculatorConfig (config : InstalledConfig)
  | syncCerts
  | lookupIP (url : String)
  | cachedResolve (url : String) (resolved : Except GoErr (List String))
  | syncDaemonSet (config : InstalledConfig)
  | getNetworkPolicy
  | createNetworkPolicy (np : NetworkPolicy)
  | updateNetworkPolicy (np : Revision NetworkPolicy)
  | listSNRs
  | updateSNRStatus (snr : Revision SNR)

/-- A write or a sync is answered with its error, if any. -/
abbrev Resp : Call → Type
  | .getConfig => Except GoErr InstalledConfig
  | .setCalculatorConfig _ => Unit
  | .lookupIP _ => Except GoErr (List IP)
  | .cachedResolve _ _ => List String
  | .getNetworkPolicy => Except GoErr (Revision NetworkPolicy)
  | .listSNRs => Except GoErr (List (Revision SNR))
  | _ => Option GoErr

abbrev P (α : Type) := Prog Call Resp α

def ask (c : Call) : P (Resp c) := Prog.perform c

def resolveURLToSortedCIDRs (url : String) : P (Except GoErr (List String)) :=
  if url = "" then pure (.ok [])
  else do
    match ← ask (.lookupIP url) with
    | .error e => pure (.error e)
    | .ok ips => pure (.ok (ipsToSortedCIDRs ips))

/-! ## 4. The reconcile -/

/-- `ApplyObject` for the policy, from the existing one on. -/
def applyOver (desired : NetworkPolicy) :
    Except GoErr (Revision NetworkPolicy) → P (Option GoErr)
  | .error e =>
    if e.isNotFound then do
      pure ((← ask (.createNetworkPolicy desired)).map (·.wrap "could not create NetworkPolicy"))
    else pure (some (e.wrap "could not retrieve existing NetworkPolicy"))
  | .ok existing =>
    if existing.value = desired then pure none
    else do
      pure ((← ask (.updateNetworkPolicy ⟨existing.resourceVersion, desired⟩)).map
        (·.wrap "could not update object NetworkPolicy"))

def applyObject (desired : NetworkPolicy) : P (Option GoErr) := do
  applyOver desired (← ask .getNetworkPolicy)

/-- The install objects are synced in the order of their files. -/
def syncObjects (config : InstalledConfig) (endpointCIDRs : List String) : P (Option GoErr) := do
  match ← ask (.syncDaemonSet config) with
  | some err => pure (some err)
  | none =>
    pure ((← applyObject (networkPolicy config endpointCIDRs)).map
      (·.wrap "failed to apply object"))

/-- A failed resolution is only logged. -/
def syncResolved (config : InstalledConfig) (resolved : Except GoErr (List String)) :
    P (Option GoErr) := do
  syncObjects config (← ask (.cachedResolve config.endpointHealthCheckUrl resolved))

def syncConfigDaemonSet (config : InstalledConfig) : P (Option GoErr) := do
  syncResolved config (← resolveURLToSortedCIDRs config.endpointHealthCheckUrl)

/-- `meta.RemoveStatusCondition` -/
def removeStatusCondition (conditions : List Condition) (type : ConditionType) : List Condition :=
  conditions.filter fun c => c.type != type

def isDisabled (snr : SNR) : Bool :=
  isStatusConditionPresentAndEqual snr.status.conditions .disabled .true_

def withoutDisabled (snr : SNR) : SNR :=
  { snr with
    status := { snr.status with
      conditions := removeStatusCondition snr.status.conditions .disabled } }

/-- The loop over the listed CRs ends with the first failed update. -/
def enableCRs : List (Revision SNR) → P (Option GoErr)
  | [] => pure none
  | cr :: crs =>
    if isDisabled cr.value then do
      match ← ask (.updateSNRStatus ⟨cr.resourceVersion, withoutDisabled cr.value⟩) with
      | some err => pure (some err)
      | none => enableCRs crs
    else enableCRs crs

def setCRsEnabledStatus : P (Option GoErr) := do
  match ← ask .listSNRs with
  | .error e => pure (some e)
  | .ok crs => enableCRs crs

/-- How a reconcile ends: with an error, which requeues the request, or after a
conflict with a requeue, or without. -/
inductive Outcome
  | failed (err : GoErr)
  | requeueAfter (d : Duration)
  | done
deriving DecidableEq, Repr

/-- `Reconcile` after the objects were synced. -/
def reconcileSynced : Option GoErr → P Outcome
  | some err => pure (if err.isConflict then .requeueAfter second else .failed err)
  | none => do
    match ← setCRsEnabledStatus with
    | some err => pure (.failed err)
    | none => pure .done

/-- `Reconcile` with the configuration. -/
def reconcileConfig (config : InstalledConfig) : P Outcome := do
  ask (.setCalculatorConfig config)
  match ← ask .syncCerts with
  | some err => pure (.failed err)
  | none => reconcileSynced (← syncConfigDaemonSet config)

/-- `Reconcile` of a request for the configuration of the operator's namespace. -/
def reconcile : P Outcome := do
  match ← ask .getConfig with
  | .error e => pure (if e.isNotFound then .done else .failed e)
  | .ok config => if config.deletionTimestamp.isSome then pure .done else reconcileConfig config

end SelfNodeRemediation.ConfigReconciler
