import Mathlib.Data.List.Forall2
import SelfNodeRemediation.Lib.Interaction
import SelfNodeRemediation.SelfFencing

/-!
# The peer cache

The agent keeps the addresses of the agents on the other worker nodes and on the
other control-plane nodes. Both lists are read from the API server now and then,
and the control-plane list once more when no cached control-plane peer answers.

* `updatePeers` and its three callers are programs over the calls that other
  goroutines can get between: the semaphore, the list requests, the commit.
* `mapNodesToPrimaryPodIPs_eq`: the addresses are those of the nodes with a usable
  pod, and there is an error iff some node has none.
* `mapNodesToPrimaryPodIPs_complete_iff`: exactly when no node with a usable pod is
  left out.
* `usesRefresh_iff`: exactly when the isolation check takes an answering address
  of the refreshed cache into account.
-/

namespace SelfNodeRemediation.PeerCache

open Interaction

/-! ## 1. The refreshes -/

abbrev PodIP := String

/-- An agent pod with the IPs of its status. -/
structure AgentPod extends Pod where
  podIPs : List PodIP
deriving DecidableEq, Repr

/-- What is refreshed: `updateWorkerPeers`, `updateControlPlanePeers` or
`RefreshControlPlanePeersForIsolationCheck`. -/
inductive Kind
  | worker
  | controlPlane
  | isolationCheck
deriving DecidableEq, Repr

structure Caches where
  workerPeersAddresses : List PodIP
  controlPlanePeersAddresses : List PodIP
deriving DecidableEq, Repr

/-- An empty result of the isolation check's refresh preserves the cache. -/
def Caches.preserves (caches : Caches) (addresses : List PodIP) : Kind → Bool
  | .isolationCheck => addresses.length == 0 && caches.controlPlanePeersAddresses.length > 0
  | _ => false

/-- The setter of each kind of refresh. -/
def Caches.setAddresses (caches : Caches) (addresses : List PodIP) : Kind → Caches
  | .worker => { caches with workerPeersAddresses := addresses }
  | .controlPlane => { caches with controlPlanePeersAddresses := addresses }
  | .isolationCheck =>
    if caches.preserves addresses .isolationCheck then caches
    else { caches with controlPlanePeersAddresses := addresses }

/-- What a refresh does between which others can run. A `List` is sent, and
answered later; its answer is a snapshot or an error. -/
inductive Call
  /-- Whether the control-plane peer selector is set. -/
  | selector
  /-- The `select` on the semaphore and the context: `none` when a token was put
  into the semaphore. -/
  | acquire
  | ctxErr
  | release
  | sendListNodes
  | listNodes
  | sendListPods
  | listPods
  /-- The setter, under the mutex. -/
  | setAddresses (kind : Kind) (addresses : List PodIP)

abbrev Resp : Call → Type
  | .selector => Bool
  | .acquire => Option GoErr
  | .ctxErr => Option GoErr
  | .listNodes => Except GoErr (List Node)
  | .listPods => Except GoErr (List AgentPod)
  | _ => Unit

/-- A routine that ends with an error or with nil. -/
abbrev Routine := Prog Call Resp (Option GoErr)

def ask (c : Call) : Prog Call Resp (Resp c) := Prog.perform c

/-- `errors.Join` of what was collected and one more error. -/
def joinErr (err : Option GoErr) (e : GoErr) : Option GoErr :=
  match err with
  | none => some e
  | some err => some (GoErr.new (err.msg ++ "\n" ++ e.msg))

/-- The body of the loop over the nodes: the first pod on the node counts. -/
def mapNode (pods : List AgentPod) (acc : List PodIP × Option GoErr) (node : Node) :
    List PodIP × Option GoErr :=
  let noMatch (err : Option GoErr) :=
    joinErr err (.new ("Node " ++ node.name ++ " has no matching Pod"))
  match pods.find? fun pod => pod.nodeName == node.name with
  | none => (acc.1, noMatch acc.2)
  | some pod =>
    let emptyIP :=
      joinErr acc.2 (.new ("empty IP for Pod " ++ pod.name ++ " on Node " ++ node.name))
    match pod.podIPs with
    | [] => (acc.1, noMatch emptyIP)
    | ip :: _ => if ip = "" then (acc.1, noMatch emptyIP) else (acc.1 ++ [ip], acc.2)

def mapNodesToPrimaryPodIPs (nodes : List Node) (pods : List AgentPod) :
    List PodIP × Option GoErr :=
  nodes.foldl (mapNode pods) ([], none)

/-- The end of `updatePeers`. -/
def commit (kind : Kind) (addresses : List PodIP) (err : Option GoErr) : Routine := do
  ask (.setAddresses kind addresses)
  pure err

/-- `updatePeers` from the answer to the pod list on. -/
def podsListed (kind : Kind) (nodes : List Node) : Except GoErr (List AgentPod) → Routine
  | .error e => pure (some (e.wrap "could not get pods"))
  | .ok pods =>
    commit kind (mapNodesToPrimaryPodIPs nodes pods).1 (mapNodesToPrimaryPodIPs nodes pods).2

/-- `updatePeers` from the answer to the node list on. -/
def nodesListed (kind : Kind) : Except GoErr (List Node) → Routine
  | .error e =>
    if !e.isNotFound then pure (some (e.wrap "failed to update peer list"))
    -- we are the only node at the moment: the list is reset
    else commit kind [] (some (e.wrap "failed to update peer list"))
  | .ok nodes =>
    if nodes.length > 0 then do
      ask .sendListPods
      podsListed kind nodes (← ask .listPods)
    else commit kind [] none

def updatePeers (kind : Kind) : Routine := do
  ask .sendListNodes
  nodesListed kind (← ask .listNodes)

/-- The deferred release. -/
def released (err : Option GoErr) : Routine := do
  ask .release
  pure err

/-- From where on the refresh holds the semaphore. -/
def acquired (kind : Kind) : Routine := do
  match ← ask .ctxErr with
  | some err => released (some err)
  | none => updatePeers kind >>= released

def updateControlPlanePeersWithSetter (kind : Kind) : Routine := do
  match ← ask .acquire with
  | some err => pure (some err)
  | none => acquired kind

def updateWorkerPeers : Routine := updatePeers .worker

def updateControlPlanePeers : Routine := updateControlPlanePeersWithSetter .controlPlane

def refreshControlPlanePeersForIsolationCheck : Routine := do
  if !(← ask .selector) then
    pure (some (.new "control plane peer selector not initialized"))
  else updateControlPlanePeersWithSetter .isolationCheck

/-- The program of each kind of refresh. -/
def refresh : Kind → Routine
  | .worker => updateWorkerPeers
  | .controlPlane => updateControlPlanePeers
  | .isolationCheck => refreshControlPlanePeersForIsolationCheck

/-! ## 2. The addresses of the nodes -/

/-- The primary IP of a pod, unless it is empty. -/
def AgentPod.primaryIP (pod : AgentPod) : Option PodIP := pod.podIPs.head?.filter (· != "")

/-- The address of the agent on a node, if its pod has one. -/
def primaryPodIP (pods : List AgentPod) (node : Node) : Option PodIP :=
  (pods.find? fun pod => pod.nodeName == node.name).bind AgentPod.primaryIP

theorem joinErr_isSome (err : Option GoErr) (e : GoErr) : (joinErr err e).isSome = true := by
  cases err <;> rfl

theorem mapNode_eq (pods : List AgentPod) (acc : List PodIP × Option GoErr) (node : Node) :
    (mapNode pods acc node).1 = acc.1 ++ (primaryPodIP pods node).toList ∧
      ((mapNode pods acc node).2.isSome = (acc.2.isSome || (primaryPodIP pods node).isNone)) := by
  unfold mapNode primaryPodIP AgentPod.primaryIP
  cases hpod : pods.find? fun pod => pod.nodeName == node.name with
  | none => simp [joinErr_isSome]
  | some pod =>
    cases hips : pod.podIPs with
    | nil => simp [hips, joinErr_isSome]
    | cons ip ips =>
      by_cases hip : ip = ""
      · simp [hips, hip, joinErr_isSome]
      · simp [hips, hip, Option.filter]

theorem mapNodes_eq (pods : List AgentPod) (nodes : List Node)
    (acc : List PodIP × Option GoErr) :
    (nodes.foldl (mapNode pods) acc).1 = acc.1 ++ nodes.filterMap (primaryPodIP pods) ∧
      (nodes.foldl (mapNode pods) acc).2.isSome =
        (acc.2.isSome || nodes.any fun node => (primaryPodIP pods node).isNone) := by
  induction nodes generalizing acc with
  | nil => simp
  | cons node nodes ih =>
    obtain ⟨haddresses, herr⟩ := mapNode_eq pods acc node
    obtain ⟨hrest, herrs⟩ := ih (mapNode pods acc node)
    refine ⟨?_, ?_⟩
    · rw [List.foldl_cons, hrest, haddresses, List.append_assoc]
      cases h : primaryPodIP pods node with
      | none => simp [h]
      | some ip => simp [h]
    · rw [List.foldl_cons, herrs, herr, List.any_cons, Bool.or_assoc]

/-- The addresses are those of the nodes with a usable pod, and there is an error
iff some node has none. -/
theorem mapNodesToPrimaryPodIPs_eq (nodes : List Node) (pods : List AgentPod) :
    (mapNodesToPrimaryPodIPs nodes pods).1 = nodes.filterMap (primaryPodIP pods) ∧
      (mapNodesToPrimaryPodIPs nodes pods).2.isSome =
        nodes.any fun node => (primaryPodIP pods node).isNone :=
  mapNodes_eq pods nodes ([], none)

theorem primaryPodIP_ne_empty {pods : List AgentPod} {node : Node} {ip : PodIP}
    (h : primaryPodIP pods node = some ip) : ip ≠ "" := by
  obtain ⟨pod, -, hip⟩ := Option.bind_eq_some_iff.mp h
  exact bne_iff_ne.mp (Option.filter_eq_some_iff.mp hip).2

theorem empty_not_mem_mapNodesToPrimaryPodIPs (nodes : List Node) (pods : List AgentPod) :
    "" ∉ (mapNodesToPrimaryPodIPs nodes pods).1 := by
  rw [(mapNodesToPrimaryPodIPs_eq nodes pods).1, List.mem_filterMap]
  rintro ⟨node, -, hip⟩
  exact primaryPodIP_ne_empty hip rfl

/-- The agent pods on a node, in the order of the list. -/
def podsOn (pods : List AgentPod) (node : Node) : List AgentPod :=
  pods.filter fun pod => pod.nodeName == node.name

/-- Some agent pod on the node has a primary IP. -/
def hasUsablePod (pods : List AgentPod) (node : Node) : Bool :=
  (podsOn pods node).any fun pod => pod.primaryIP.isSome

/-- No peer with a usable address is dropped: there is one address for each node with a
usable pod, in the order of the nodes, which is the primary IP of a pod on it, no empty
one, and the error is nil iff there are as many addresses as nodes. -/
structure Complete (nodes : List Node) (pods : List AgentPod)
    (result : List PodIP × Option GoErr) : Prop where
  perNode : List.Forall₂ (fun ip node => ∃ pod ∈ podsOn pods node, pod.primaryIP = some ip)
    result.1 (nodes.filter (hasUsablePod pods))
  notEmpty : "" ∉ result.1
  err : result.2 = none ↔ result.1.length = nodes.length

/-- If a node has a usable pod, then the first pod on it is usable. -/
def FirstUsable (nodes : List Node) (pods : List AgentPod) : Prop :=
  ∀ node ∈ nodes, hasUsablePod pods node = true →
    ∃ pod, (podsOn pods node).head? = some pod ∧ pod.primaryIP.isSome = true

theorem primaryPodIP_eq (pods : List AgentPod) (node : Node) :
    primaryPodIP pods node = (podsOn pods node).head?.bind AgentPod.primaryIP := by
  rw [primaryPodIP, podsOn, List.head?_filter]

theorem primaryPodIP_mem {pods : List AgentPod} {node : Node} {ip : PodIP}
    (h : primaryPodIP pods node = some ip) :
    ∃ pod ∈ podsOn pods node, pod.primaryIP = some ip := by
  rw [primaryPodIP_eq] at h
  obtain ⟨pod, hpod, hip⟩ := Option.bind_eq_some_iff.mp h
  exact ⟨pod, List.mem_of_head? hpod, hip⟩

theorem hasUsablePod_of_primaryPodIP {pods : List AgentPod} {node : Node}
    (h : (primaryPodIP pods node).isSome = true) : hasUsablePod pods node = true := by
  obtain ⟨ip, hip⟩ := Option.isSome_iff_exists.mp h
  obtain ⟨pod, hpod, hip'⟩ := primaryPodIP_mem hip
  exact List.any_eq_true.mpr ⟨pod, hpod, by rw [hip']; rfl⟩

theorem firstUsable_iff (nodes : List Node) (pods : List AgentPod) :
    FirstUsable nodes pods ↔ ∀ node ∈ nodes, hasUsablePod pods node = true →
      (primaryPodIP pods node).isSome = true := by
  refine forall₃_congr fun node _ _ => ?_
  rw [primaryPodIP_eq]
  cases (podsOn pods node).head? with
  | none => simp
  | some pod => simp

/-- The addresses of a list of nodes, matched with the nodes that have one. -/
theorem forall₂_filterMap {pods : List AgentPod} {nodes : List Node}
    (h : ∀ node ∈ nodes, hasUsablePod pods node = true → (primaryPodIP pods node).isSome = true) :
    List.Forall₂ (fun ip node => ∃ pod ∈ podsOn pods node, pod.primaryIP = some ip)
      (nodes.filterMap (primaryPodIP pods)) (nodes.filter (hasUsablePod pods)) := by
  induction nodes with
  | nil => exact .nil
  | cons node nodes ih =>
    have hrest := ih fun other hother => h other (List.mem_cons_of_mem node hother)
    cases hip : primaryPodIP pods node with
    | none =>
      have hnot : ¬ hasUsablePod pods node = true := fun husable => by
        have hsome := h node List.mem_cons_self husable
        rw [hip] at hsome
        cases hsome
      rw [List.filterMap_cons_none hip, List.filter_cons_of_neg hnot]
      exact hrest
    | some ip =>
      have husable : hasUsablePod pods node = true :=
        hasUsablePod_of_primaryPodIP (by rw [hip]; rfl)
      rw [List.filterMap_cons_some hip, List.filter_cons_of_pos husable]
      exact .cons (primaryPodIP_mem hip) hrest

/-- If there are as many addresses as nodes with a usable pod, all of them have one. -/
theorem primaryPodIP_isSome_of_length {pods : List AgentPod} {nodes : List Node}
    (h : (nodes.filterMap (primaryPodIP pods)).length =
      (nodes.filter (hasUsablePod pods)).length) :
    ∀ node ∈ nodes, hasUsablePod pods node = true → (primaryPodIP pods node).isSome = true := by
  have hsub : nodes.filter (fun node => (primaryPodIP pods node).isSome) =
      nodes.filter (hasUsablePod pods) := by
    refine List.Sublist.eq_of_length ?_ ?_
    · exact List.monotone_filter_right nodes fun node => hasUsablePod_of_primaryPodIP
    · rw [← h, List.length_filterMap_eq_countP, List.countP_eq_length_filter]
  intro node hnode husable
  have hmem : node ∈ nodes.filter (hasUsablePod pods) := List.mem_filter.mpr ⟨hnode, husable⟩
  rw [← hsub] at hmem
  exact (List.mem_filter.mp hmem).2

/-- The error is nil iff there are as many addresses as nodes. -/
theorem mapNodesToPrimaryPodIPs_err (nodes : List Node) (pods : List AgentPod) :
    (mapNodesToPrimaryPodIPs nodes pods).2 = none ↔
      (mapNodesToPrimaryPodIPs nodes pods).1.length = nodes.length := by
  obtain ⟨haddresses, herr⟩ := mapNodesToPrimaryPodIPs_eq nodes pods
  rw [haddresses, List.length_filterMap_eq_countP, List.countP_eq_length,
    ← Option.not_isSome_iff_eq_none, herr]
  simp [Option.isSome_iff_ne_none]

/-- The search for a node's pod ends with the first pod on it, also when that one has
no IP, so a node is served exactly when its first pod is as good as any. -/
theorem mapNodesToPrimaryPodIPs_complete_iff (nodes : List Node) (pods : List AgentPod) :
    Complete nodes pods (mapNodesToPrimaryPodIPs nodes pods) ↔ FirstUsable nodes pods := by
  rw [firstUsable_iff]
  have haddresses := (mapNodesToPrimaryPodIPs_eq nodes pods).1
  constructor
  · intro h
    have hlength := h.perNode.length_eq
    rw [haddresses] at hlength
    exact primaryPodIP_isSome_of_length hlength
  · intro h
    refine ⟨?_, empty_not_mem_mapNodesToPrimaryPodIPs nodes pods,
      mapNodesToPrimaryPodIPs_err nodes pods⟩
    rw [haddresses]
    exact forall₂_filterMap h

/-- The pod of a node that is being replaced has no IP any more, while the new one has. -/
def replacedPods : List AgentPod :=
  [⟨⟨"agent-old", "operators", "worker-2", [], [], none⟩, []⟩,
    ⟨⟨"agent-new", "operators", "worker-2", [], [], none⟩, ["10.0.0.7"]⟩]

/-- The node's usable pod is listed second, and its address is dropped. -/
theorem replaced_left_out :
    hasUsablePod replacedPods ⟨"worker-2", [], [], []⟩ = true ∧
      ¬ Complete [⟨"worker-2", [], [], []⟩] replacedPods
        (mapNodesToPrimaryPodIPs [⟨"worker-2", [], [], []⟩] replacedPods) := by
  refine ⟨by decide, fun h => ?_⟩
  have hlength := h.perNode.length_eq
  exact absurd hlength (by decide)

/-! ## 3. The isolation check -/

/-- How the calls of one reactive refresh are answered. -/
structure Answers where
  selectorSet : Bool
  acquire : Option GoErr
  ctxErr : Option GoErr
  nodes : Except GoErr (List Node)
  pods : Except GoErr (List AgentPod)

def Answers.serve (x : Answers) : (c : Call) → Caches → Resp c × Caches
  | .selector, caches => (x.selectorSet, caches)
  | .acquire, caches => (x.acquire, caches)
  | .ctxErr, caches => (x.ctxErr, caches)
  | .listNodes, caches => (x.nodes, caches)
  | .listPods, caches => (x.pods, caches)
  | .setAddresses kind addresses, caches => ((), caches.setAddresses addresses kind)
  | .release, caches => ((), caches)
  | .sendListNodes, caches => ((), caches)
  | .sendListPods, caches => ((), caches)

/-- The error of the reactive refresh, and the caches after it. -/
def Answers.refreshed (x : Answers) (caches : Caches) : Option GoErr × Caches :=
  refreshControlPlanePeersForIsolationCheck.eval x.serve caches

/-- Both lists are read, and so committed. -/
structure Answers.Listed (x : Answers) (nodes : List Node) (pods : List AgentPod) : Prop where
  selectorSet : x.selectorSet = true
  acquire : x.acquire = none
  ctxErr : x.ctxErr = none
  nodes : x.nodes = .ok nodes
  pods : x.pods = .ok pods

section IsolationCheck

variable (x : Answers) (answer : PodIP → HealthCheckResponseCode) (caches : Caches)

/-- The control-plane peers of the caches with their answers. -/
def controlPlanePeers : List Peer :=
  caches.controlPlanePeersAddresses.map fun ip => ⟨ip, answer ip⟩

/-- The peers that `getControlPlanePeersStatus` meets: those of the cache, and after
the refresh those of the refreshed cache. -/
def isolationQuery : StatusQuery where
  first := controlPlanePeers answer caches
  refreshed := (x.refreshed caches).1.isNone
  second := controlPlanePeers answer (x.refreshed caches).2

/-- Some cached control-plane address answers. -/
def Answering : Prop := ∃ ip ∈ caches.controlPlanePeersAddresses, (answer ip).answered = true

/-- The caches when `getControlPlanePeersStatus` returns: they are refreshed when the
first dial reached nobody. -/
def cachesAtReturn : Caches :=
  if (dialControlPlanePeers (controlPlanePeers answer caches)).1 then caches
  else (x.refreshed caches).2

/-- If a cached address answers when the check returns, a peer was reached. -/
def UsesRefresh : Prop :=
  Answering answer (cachesAtReturn x answer caches) →
    (getControlPlanePeersStatus (isolationQuery x answer caches)).canBeReached = true

end IsolationCheck

variable {x : Answers} {answer : PodIP → HealthCheckResponseCode} {caches : Caches}

theorem dial_iff (answer : PodIP → HealthCheckResponseCode) (caches : Caches) :
    (dialControlPlanePeers (controlPlanePeers answer caches)).1 = true ↔
      Answering answer caches := by
  rw [dialControlPlanePeers_eq]
  simp [anyAnswered, controlPlanePeers, Answering]

theorem canBeReached_iff :
    (getControlPlanePeersStatus (isolationQuery x answer caches)).canBeReached = true ↔
      Answering answer caches ∨
        (x.refreshed caches).1 = none ∧ Answering answer (x.refreshed caches).2 := by
  have hfirst := dial_iff answer caches
  have hsecond := dial_iff answer (x.refreshed caches).2
  unfold getControlPlanePeersStatus isolationQuery
  cases hdial : dialControlPlanePeers (controlPlanePeers answer caches) with
  | mk reached unhealthy =>
    rw [hdial] at hfirst
    cases reached with
    | true => simpa using .inl (hfirst.mp rfl)
    | false =>
      have hnone : ¬ Answering answer caches := fun h => nomatch hfirst.mpr h
      cases herr : (x.refreshed caches).1 with
      | none => simpa [hnone, herr] using hsecond
      | some err => simp [hnone]

theorem setAddresses_nil_subset (caches : Caches) :
    (caches.setAddresses [] .isolationCheck).controlPlanePeersAddresses ⊆
      caches.controlPlanePeersAddresses := by
  by_cases h : caches.preserves [] .isolationCheck = true
  · rw [Caches.setAddresses, if_pos h]
    exact List.Subset.refl _
  · rw [Caches.setAddresses, if_neg h]
    exact List.nil_subset _

/-- A commit that is not empty is not preserved over. -/
theorem setAddresses_cons {addresses : List PodIP} (h : addresses ≠ []) (caches : Caches) :
    (caches.setAddresses addresses .isolationCheck).controlPlanePeersAddresses = addresses := by
  have hlength : (addresses.length == 0) = false := by
    simpa using h
  simp [Caches.setAddresses, Caches.preserves, hlength]

/-- When both lists are read, the mapped addresses are committed and the errors of
the mapping returned. -/
theorem Answers.Listed.refreshed {nodes : List Node} {pods : List AgentPod}
    (h : x.Listed nodes pods) :
    x.refreshed caches = ((mapNodesToPrimaryPodIPs nodes pods).2,
      caches.setAddresses (mapNodesToPrimaryPodIPs nodes pods).1 .isolationCheck) := by
  obtain ⟨selectorSet, acquire, ctxErr, nodesAnswer, podsAnswer⟩ := x
  obtain ⟨hselector, hacquire, hctx, hnodes, hpods⟩ := h
  dsimp only at hselector hacquire hctx hnodes hpods
  subst hselector hacquire hctx hnodes hpods
  cases nodes with
  | nil => rfl
  | cons node nodes => rfl

/-- Otherwise no address is added. -/
theorem refreshed_subset (h : ∀ nodes pods, ¬ x.Listed nodes pods) :
    (x.refreshed caches).2.controlPlanePeersAddresses ⊆ caches.controlPlanePeersAddresses := by
  obtain ⟨selectorSet, acquire, ctxErr, nodesAnswer, podsAnswer⟩ := x
  cases selectorSet with
  | false => exact List.Subset.refl _
  | true =>
    cases acquire with
    | some err => exact List.Subset.refl _
    | none =>
      cases ctxErr with
      | some err => exact List.Subset.refl _
      | none =>
        cases nodesAnswer with
        | error e =>
          show (((nodesListed .isolationCheck (.error e) >>= released).eval _ caches).2
            ).controlPlanePeersAddresses ⊆ caches.controlPlanePeersAddresses
          by_cases hfound : (!e.isNotFound) = true
          · rw [nodesListed, if_pos hfound]
            exact List.Subset.refl _
          · rw [nodesListed, if_neg hfound]
            exact setAddresses_nil_subset caches
        | ok nodes =>
          cases nodes with
          | nil => exact setAddresses_nil_subset caches
          | cons node nodes =>
            cases podsAnswer with
            | error e => exact List.Subset.refl _
            | ok pods => exact absurd ⟨rfl, rfl, rfl, rfl, rfl⟩ (h (node :: nodes) pods)

/-- Every listed node has a usable agent pod, or none of the addresses that were
found answers. -/
def NothingLeftOut (x : Answers) (answer : PodIP → HealthCheckResponseCode) : Prop :=
  ∀ nodes pods, x.Listed nodes pods →
    (∀ node ∈ nodes, (primaryPodIP pods node).isSome = true) ∨
      ∀ node ∈ nodes, ∀ ip, primaryPodIP pods node = some ip → (answer ip).answered = false

/-- The check uses what it learned iff a peer of the old cache answers, or the refresh
did not both find an answering address and miss the agent of some node. -/
theorem usesRefresh_iff (x : Answers) (answer : PodIP → HealthCheckResponseCode)
    (caches : Caches) :
    UsesRefresh x answer caches ↔ Answering answer caches ∨ NothingLeftOut x answer := by
  unfold UsesRefresh
  rw [canBeReached_iff]
  by_cases hold : Answering answer caches
  · exact ⟨fun _ => .inl hold, fun _ _ => .inl hold⟩
  have hreturn : cachesAtReturn x answer caches = (x.refreshed caches).2 :=
    if_neg fun h => hold ((dial_iff answer caches).mp h)
  rw [hreturn]
  constructor
  · intro huses
    refine .inr fun nodes pods hlisted => ?_
    obtain ⟨haddresses, herr⟩ := mapNodesToPrimaryPodIPs_eq nodes pods
    by_contra hmissed
    push Not at hmissed
    obtain ⟨⟨missed, hmem, hnone⟩, node, hnode, ip, hip, hanswer⟩ := hmissed
    have hin : ip ∈ (mapNodesToPrimaryPodIPs nodes pods).1 := by
      rw [haddresses]
      exact List.mem_filterMap.mpr ⟨node, hnode, hip⟩
    -- the address is committed although the refresh returns an error
    rw [hlisted.refreshed] at huses
    have hcached : Answering answer (caches.setAddresses (mapNodesToPrimaryPodIPs nodes pods).1
        .isolationCheck) := by
      refine ⟨ip, ?_, by simpa using hanswer⟩
      rw [setAddresses_cons (List.ne_nil_of_mem hin)]
      exact hin
    obtain ⟨hok, -⟩ := (huses hcached).resolve_left hold
    have hsome : (mapNodesToPrimaryPodIPs nodes pods).2.isSome = true := by
      rw [herr]
      exact List.any_eq_true.mpr ⟨missed, hmem, by simpa using hnone⟩
    exact absurd hok (Option.isSome_iff_ne_none.mp hsome)
  · rintro (h | hcomplete) ⟨ip, hip, hanswer⟩
    · exact .inl h
    by_cases hlisted : ∃ nodes pods, x.Listed nodes pods
    · obtain ⟨nodes, pods, hlisted⟩ := hlisted
      obtain ⟨haddresses, herr⟩ := mapNodesToPrimaryPodIPs_eq nodes pods
      rcases hcomplete nodes pods hlisted with hall | hsilent
      · refine .inr ⟨?_, ip, hip, hanswer⟩
        have hnone : (nodes.any fun node => (primaryPodIP pods node).isNone) = false := by
          simpa [Option.isSome_iff_exists, Option.ne_none_iff_exists'] using hall
        rw [hlisted.refreshed]
        exact Option.isNone_iff_eq_none.mp (Option.isSome_eq_false_iff.mp (herr.trans hnone))
      · rw [hlisted.refreshed] at hip
        by_cases hnil : (mapNodesToPrimaryPodIPs nodes pods).1 = []
        · rw [hnil] at hip
          exact .inl ⟨ip, setAddresses_nil_subset caches hip, hanswer⟩
        · rw [setAddresses_cons hnil, haddresses] at hip
          obtain ⟨node, hnode, hfound⟩ := List.mem_filterMap.mp hip
          rw [hsilent node hnode ip hfound] at hanswer
          cases hanswer
    · push Not at hlisted
      exact .inl ⟨ip, refreshed_subset hlisted hip, hanswer⟩

/-- The agent on the second control-plane node was replaced; that of the third is
not running yet. -/
def rolloutAnswers : Answers where
  selectorSet := true
  acquire := none
  ctxErr := none
  nodes := .ok [⟨"control-plane-2", [], [], []⟩, ⟨"control-plane-3", [], [], []⟩]
  pods := .ok [⟨⟨"agent-2", "operators", "control-plane-2", [], [], none⟩, ["10.0.0.7"]⟩]

/-- Only the new agent answers. -/
def rolloutAnswer (ip : PodIP) : HealthCheckResponseCode :=
  if ip = "10.0.0.7" then .healthy else .requestFailed

/-- The refresh puts the address of the new agent into the cache, and it answers, but
it is not dialled: the node counts as cut off from the other control planes. -/
theorem refresh_left_out : ¬ UsesRefresh rolloutAnswers rolloutAnswer ⟨[], ["10.0.0.2"]⟩ := by
  intro huses
  have hanswering : Answering rolloutAnswer
      (cachesAtReturn rolloutAnswers rolloutAnswer ⟨[], ["10.0.0.2"]⟩) :=
    ⟨"10.0.0.7", by decide, by decide⟩
  have hunreached : (getControlPlanePeersStatus
      (isolationQuery rolloutAnswers rolloutAnswer ⟨[], ["10.0.0.2"]⟩)).canBeReached = false := by
    decide
  rw [huses hanswering] at hunreached
  cases hunreached

end SelfNodeRemediation.PeerCache
