import SelfNodeRemediation.Calculator
import SelfNodeRemediation.Lib.Workers
import SelfNodeRemediation.PeerCache

/-!
# Who is a peer

`Start` reads the agent's own node once and makes two label selectors of it; every
refresh of the peer cache lists the nodes that its selector selects at that time, and
the agent pods a moment later. Nodes and pods come and go meanwhile.

* `start`, `createSelector` and `getControlPlaneLabel` are the code, and the refreshes
  are those of `PeerCache`.
* `team`: `Start`, the loop of updates and any number of isolation checks, interleaved
  at each call.
* `peers_are_others`: an address that is cached is that of an agent pod on a node other
  than the agent's own, with the label of the role.
-/

namespace SelfNodeRemediation.PeerSelection

open Interaction PeerCache

/-! ## 1. The selectors -/

def hostnameLabelName : String := "kubernetes.io/hostname"

def controlPlaneRole : String := "node-role.kubernetes.io/control-plane"

def masterRole : String := "node-role.kubernetes.io/master"

/-- The two requirements of a selector: another hostname, or none, and the label. -/
structure Selector where
  hostNameToExclude : String
  nodeTypeLabel : String
deriving DecidableEq, Repr

def createSelector (hostNameToExclude nodeTypeLabel : String) : Selector :=
  ⟨hostNameToExclude, nodeTypeLabel⟩

def Selector.selects (selector : Selector) (node : Node) : Bool :=
  node.labels.lookup hostnameLabelName != some selector.hostNameToExclude &&
    (node.labels.lookup selector.nodeTypeLabel).isSome

def getControlPlaneLabel (node : Node) : String :=
  if (node.labels.lookup controlPlaneRole).isSome then controlPlaneRole else masterRole

inductive Role
  | worker
  | controlPlane
deriving DecidableEq, Repr

/-- The role of the nodes that a refresh lists. -/
def role : Kind → Role
  | .worker => .worker
  | .controlPlane | .isolationCheck => .controlPlane

def getPeersAddresses (caches : Caches) : Role → List PodIP
  | .worker => caches.workerPeersAddresses
  | .controlPlane => caches.controlPlanePeersAddresses

/-! ## 2. The programs -/

inductive Call
  | getOwnNode
  | setSelectors (worker controlPlane : Selector)
  | refresh (kind : Kind) (c : PeerCache.Call)

abbrev Resp : Call → Type
  | .getOwnNode => Except GoErr Node
  | .setSelectors _ _ => Unit
  | .refresh _ c => PeerCache.Resp c

abbrev P (α : Type) := Prog Call Resp α

def ask (c : Call) : P (Resp c) := Prog.perform c

/-- `Start` with the hostname label of the agent's own node. -/
def hostnameRead (myNode : Node) : Option String → P (Option GoErr)
  | none => return some (.new (hostnameLabelName ++ " label not set on own node"))
  | some hostname => do
    ask (.setSelectors (createSelector hostname workerRole)
      (createSelector hostname (getControlPlaneLabel myNode)))
    return none

def ownNodeRead : Except GoErr Node → P (Option GoErr)
  | .error err => return some err
  | .ok myNode => hostnameRead myNode (myNode.labels.lookup hostnameLabelName)

/-- `Start` up to the loop. -/
def start : P (Option GoErr) := do
  ownNodeRead (← ask .getOwnNode)

/-- The body of the loop in `Start`, and of the quicker one after an error. -/
def update : P (Option GoErr × Option GoErr) := do
  let updateWorkerPeersError ← updateWorkerPeers.embed (Call.refresh .worker)
  let updateControlPlanePeersError ← updateControlPlanePeers.embed (Call.refresh .controlPlane)
  return (updateWorkerPeersError, updateControlPlanePeersError)

def isolationCheck : P (Option GoErr) :=
  refreshControlPlanePeersForIsolationCheck.embed (Call.refresh .isolationCheck)

/-! ## 3. The agent in its cluster -/

/-- What the API server has, all it ever had, the agent's own node as `Start` read it,
and the fields of `Peers`. -/
structure World where
  nodes : List Node
  pods : List AgentPod
  nodeLog : List Node
  podLog : List AgentPod
  startNode : Option Node
  selectors : Option (Selector × Selector)
  caches : Caches

def World.selector (w : World) : Role → Option Selector
  | .worker => w.selectors.map Prod.fst
  | .controlPlane => w.selectors.map Prod.snd

/-- The calls of the agent on the node `me`. A list is of nodes that the selector selects
(a selector that is nil selects nothing), or of pods; a semaphore and a context may
answer as they like. -/
inductive Exec (me : String) : (c : Call) → World → Resp c → World → Prop
  | ownNode {w : World} {node : Node} : node ∈ w.nodes → node.name = me →
      Exec me .getOwnNode w (.ok node) { w with startNode := some node }
  | ownNodeFailed {w : World} {err : GoErr} : Exec me .getOwnNode w (.error err) w
  | setSelectors {w : World} {worker controlPlane : Selector} :
      Exec me (.setSelectors worker controlPlane) w ()
        { w with selectors := some (worker, controlPlane) }
  | selector {w : World} {kind : Kind} :
      Exec me (.refresh kind .selector) w w.selectors.isSome w
  | acquire {w : World} {kind : Kind} {err : Option GoErr} :
      Exec me (.refresh kind .acquire) w err w
  | ctxErr {w : World} {kind : Kind} {err : Option GoErr} : Exec me (.refresh kind .ctxErr) w err w
  | release {w : World} {kind : Kind} : Exec me (.refresh kind .release) w () w
  | sendListNodes {w : World} {kind : Kind} : Exec me (.refresh kind .sendListNodes) w () w
  | nodes {w : World} {kind : Kind} {nodes : List Node} :
      (∀ node ∈ nodes, node ∈ w.nodes ∧
        ∃ selector, w.selector (role kind) = some selector ∧ selector.selects node = true) →
      Exec me (.refresh kind .listNodes) w (.ok nodes) w
  | nodesFailed {w : World} {kind : Kind} {err : GoErr} :
      Exec me (.refresh kind .listNodes) w (.error err) w
  | sendListPods {w : World} {kind : Kind} : Exec me (.refresh kind .sendListPods) w () w
  | pods {w : World} {kind : Kind} {pods : List AgentPod} : (∀ pod ∈ pods, pod ∈ w.pods) →
      Exec me (.refresh kind .listPods) w (.ok pods) w
  | podsFailed {w : World} {kind : Kind} {err : GoErr} :
      Exec me (.refresh kind .listPods) w (.error err) w
  | setAddresses {w : World} {kind target : Kind} {addresses : List PodIP} :
      Exec me (.refresh kind (.setAddresses target addresses)) w ()
        { w with caches := w.caches.setAddresses addresses target }

/-- Nodes and pods come, change and go; the agent's own node keeps its hostname, without
which the selectors would select it too. -/
inductive Env (me hostname : String) (w : World) : World → Prop
  | change {nodes : List Node} {pods : List AgentPod} :
      (∀ node ∈ nodes, node.name = me →
        node.labels.lookup hostnameLabelName = some hostname) →
      Env me hostname w { w with
        nodes := nodes
        pods := pods
        nodeLog := nodes ++ w.nodeLog
        podLog := pods ++ w.podLog }

inductive Party
  | start
  | loop
  | check (n : Nat)
deriving DecidableEq, Repr

abbrev Res : Party → Type
  | .loop => Option GoErr × Option GoErr
  | _ => Option GoErr

def main : (i : Party) → P (Res i)
  | .start => start
  | .loop => update
  | .check _ => isolationCheck

/-- The loop comes after the selectors are set, and they are set once. -/
def ready : Party → World → Prop
  | .start, w => w.selectors = none
  | .loop, w => w.selectors.isSome = true
  | .check _, _ => True

def team (me hostname : String) :
    Team (fun _ : Party => Call) (fun _ => Resp) Res World where
  main := main
  ready := ready
  start _ w := w
  exec _ := Exec me
  finish _ _ w := w
  env := Env me hostname

/-- Nothing is known of the cluster yet. -/
def newPeers : World := ⟨[], [], [], [], none, none, ⟨[], []⟩⟩

def Reached (me hostname : String)
    (s : TeamState (fun _ : Party => Call) (fun _ => Resp) Res World) : Prop :=
  (team me hostname).Reachable (fun _ _ _ => True) newPeers s

/-! ## 4. The invariant -/

/-- The address is that of an agent pod on a node that was there and was selected. -/
def PeerOf (w : World) (role : Role) (ip : PodIP) : Prop :=
  ∃ selector node pod, w.selector role = some selector ∧ node ∈ w.nodeLog ∧ pod ∈ w.podLog ∧
    selector.selects node = true ∧ pod.nodeName = node.name ∧ pod.primaryIP = some ip

/-- The nodes were there and were selected. -/
def Selected (w : World) (role : Role) (nodes : List Node) : Prop :=
  ∀ node ∈ nodes, node ∈ w.nodeLog ∧
    ∃ selector, w.selector role = some selector ∧ selector.selects node = true

/-- The agent's own node, as `Start` read it. -/
def StartedOn (me : String) (w : World) (node : Node) : Prop :=
  w.startNode = some node ∧ node ∈ w.nodeLog ∧ node.name = me

/-- The selectors that `Start` makes of the agent's own node. -/
def Own (me hostname : String) (w : World) (worker controlPlane : Selector) : Prop :=
  worker = createSelector hostname workerRole ∧ ∃ node, StartedOn me w node ∧
    controlPlane = createSelector hostname (getControlPlaneLabel node)

structure PeerInv (me hostname : String) (w : World) : Prop where
  nodes : w.nodes ⊆ w.nodeLog
  pods : w.pods ⊆ w.podLog
  ownHostname : ∀ node ∈ w.nodeLog, node.name = me →
    node.labels.lookup hostnameLabelName = some hostname
  selectors : ∀ worker controlPlane, w.selectors = some (worker, controlPlane) →
    Own me hostname w worker controlPlane
  cached : ∀ role, ∀ ip ∈ getPeersAddresses w.caches role, PeerOf w role ip

/-- What nobody takes back. -/
structure Grows (w w' : World) : Prop where
  nodeLog : w.nodeLog ⊆ w'.nodeLog
  podLog : w.podLog ⊆ w'.podLog
  selectors : ∀ s, w.selectors = some s → w'.selectors = some s
  startNode : w.selectors.isSome = true → w'.startNode = w.startNode

/-- Only `Start` reads its node and sets the selectors. -/
def Rely (i : Party) (w w' : World) : Prop :=
  Grows w w' ∧ (i = .start → w'.selectors = w.selectors ∧ w'.startNode = w.startNode)

def Allowed (me hostname : String) (i : Party) : Call → World → Prop
  | .getOwnNode, w => i = .start ∧ w.selectors = none
  | .setSelectors worker controlPlane, w =>
    i = .start ∧ w.selectors = none ∧ Own me hostname w worker controlPlane
  | .refresh kind (.setAddresses target addresses), w =>
    target = kind ∧ ∀ ip ∈ addresses, PeerOf w (role kind) ip
  | _, _ => True

def assertions (me hostname : String) : Assertions (fun _ : Party => Call) Res World where
  inv := PeerInv me hostname
  rely := Rely
  allowed := Allowed me hostname
  post _ _ _ := True

abbrev outline (me hostname : String) (i : Party) : Outline Call Resp World :=
  (assertions me hostname).outline (team me hostname) (fun _ _ _ => True) i

theorem Grows.refl (w : World) : Grows w w :=
  ⟨List.Subset.refl _, List.Subset.refl _, fun _ h => h, fun _ => rfl⟩

theorem Grows.selector {w w' : World} (h : Grows w w') {role : Role} {selector : Selector}
    (hs : w.selector role = some selector) : w'.selector role = some selector := by
  cases role with
  | worker =>
    obtain ⟨s, hset, rfl⟩ := Option.map_eq_some_iff.mp hs
    simp [World.selector, h.selectors s hset]
  | controlPlane =>
    obtain ⟨s, hset, rfl⟩ := Option.map_eq_some_iff.mp hs
    simp [World.selector, h.selectors s hset]

theorem Grows.peerOf {w w' : World} (h : Grows w w') {role : Role} {ip : PodIP}
    (hp : PeerOf w role ip) : PeerOf w' role ip := by
  obtain ⟨selector, node, pod, hs, hnode, hpod, hrest⟩ := hp
  exact ⟨selector, node, pod, h.selector hs, h.nodeLog hnode, h.podLog hpod, hrest⟩

theorem Grows.selected {w w' : World} (h : Grows w w') {role : Role} {nodes : List Node}
    (hs : Selected w role nodes) : Selected w' role nodes := by
  intro node hnode
  obtain ⟨hlog, selector, hselector, hselects⟩ := hs node hnode
  exact ⟨h.nodeLog hlog, selector, h.selector hselector, hselects⟩

theorem Grows.own {w w' : World} (h : Grows w w') {me hostname : String}
    {worker controlPlane : Selector} (ho : Own me hostname w worker controlPlane)
    (hstart : w'.startNode = w.startNode) : Own me hostname w' worker controlPlane := by
  obtain ⟨hworker, node, ⟨hread, hnode, hname⟩, hcontrolPlane⟩ := ho
  exact ⟨hworker, node, ⟨hstart.trans hread, h.nodeLog hnode, hname⟩, hcontrolPlane⟩

section Refreshes

variable {me hostname : String} {i : Party} {kind : Kind} {w : World}

/-- What is known of the addresses that a refresh has found. -/
def Found (w : World) (role : Role) (addresses : List PodIP) : Prop :=
  ∀ ip ∈ addresses, PeerOf w role ip

theorem stable_found (addresses : List PodIP) :
    (outline me hostname i).Stable fun w => Found w (role kind) addresses :=
  fun _ _ h he ip hip => he.1.1.peerOf (h ip hip)

theorem stable_selected (nodes : List Node) :
    (outline me hostname i).Stable fun w => Selected w (role kind) nodes :=
  fun _ _ h he => he.1.1.selected h

/-- The addresses are those of pods on the nodes. -/
theorem found_mapNodes {nodes : List Node} {pods : List AgentPod} {role : Role}
    (hnodes : Selected w role nodes) (hpods : pods ⊆ w.podLog) :
    Found w role (mapNodesToPrimaryPodIPs nodes pods).1 := by
  intro ip hip
  rw [(mapNodesToPrimaryPodIPs_eq nodes pods).1, List.mem_filterMap] at hip
  obtain ⟨node, hnode, hip⟩ := hip
  obtain ⟨pod, hon, hprimary⟩ := primaryPodIP_mem hip
  obtain ⟨hpod, hname⟩ := List.mem_filter.mp hon
  obtain ⟨hlog, selector, hselector, hselects⟩ := hnodes node hnode
  exact ⟨selector, node, pod, hselector, hlog, hpods hpod, hselects, beq_iff_eq.mp hname, hprimary⟩

/-- The calls of a refresh, seen from its own program. -/
abbrev refreshOutline (me hostname : String) (i : Party) (kind : Kind) :
    Outline PeerCache.Call PeerCache.Resp World :=
  (outline me hostname i).pull (Call.refresh kind)

theorem wp_done (err : Option GoErr) :
    (refreshOutline me hostname i kind).wp (.ret err) (fun _ _ => True) w :=
  Outline.wp_ret Outline.stable_const trivial fun _ _ _ => trivial

theorem wp_commit {addresses : List PodIP} (err : Option GoErr)
    (h : Found w (role kind) addresses) :
    (refreshOutline me hostname i kind).wp (commit kind addresses err) (fun _ _ => True) w :=
  Outline.wp_call (stable_found addresses) h (fun _ _ hfound => ⟨rfl, hfound⟩)
    fun _ _ _ _ _ _ _ => wp_done err

theorem wp_podsListed {nodes : List Node} {answer : Except GoErr (List AgentPod)}
    (hnodes : Selected w (role kind) nodes)
    (hpods : ∀ pods, answer = .ok pods → pods ⊆ w.podLog) :
    (refreshOutline me hostname i kind).wp (podsListed kind nodes answer) (fun _ _ => True) w := by
  cases answer with
  | error err => exact wp_done _
  | ok pods => exact wp_commit _ (found_mapNodes hnodes (hpods pods rfl))

theorem wp_nodesListed {answer : Except GoErr (List Node)}
    (hnodes : ∀ nodes, answer = .ok nodes → Selected w (role kind) nodes) :
    (refreshOutline me hostname i kind).wp (nodesListed kind answer) (fun _ _ => True) w := by
  have hnone {w : World} : Found w (role kind) [] := by simp [Found]
  cases answer with
  | error err =>
    unfold nodesListed
    dsimp only
    split
    · exact wp_done _
    · exact wp_commit _ hnone
  | ok nodes =>
    unfold nodesListed
    dsimp only
    split
    · refine Outline.wp_call (stable_selected nodes) (hnodes nodes rfl) (fun _ _ _ => trivial) ?_
      intro w₁ _ w₂ _ hselected he _
      obtain ⟨he, -⟩ := he
      cases he
      refine Outline.wp_call (stable_selected nodes) hselected (fun _ _ _ => trivial) ?_
      intro w₃ answer w₄ hi hselected he _
      obtain ⟨he, -⟩ := he
      show (refreshOutline me hostname i kind).wp (podsListed kind nodes answer) _ _
      refine wp_podsListed ?_ ?_
      · cases he with
        | pods _ => exact hselected
        | podsFailed => exact hselected
      · rintro pods rfl
        cases he with
        | pods hpods => exact fun pod hpod => hi.pods (hpods pod hpod)
    · exact wp_commit _ hnone

theorem wp_updatePeers :
    (refreshOutline me hostname i kind).wp (updatePeers kind) (fun _ _ => True) w := by
  refine Outline.wp_call Outline.stable_const trivial (fun _ _ _ => trivial) ?_
  intro w₁ _ w₂ _ _ _ _
  refine Outline.wp_call Outline.stable_const trivial (fun _ _ _ => trivial) ?_
  intro w₃ answer w₄ hi _ he _
  obtain ⟨he, -⟩ := he
  show (refreshOutline me hostname i kind).wp (nodesListed kind answer) _ _
  refine wp_nodesListed ?_
  rintro nodes rfl node hnode
  cases he with
  | nodes hnodes =>
    obtain ⟨hlisted, hselects⟩ := hnodes node hnode
    exact ⟨hi.nodes hlisted, hselects⟩

theorem wp_released (err : Option GoErr) :
    (refreshOutline me hostname i kind).wp (released err) (fun _ _ => True) w :=
  Outline.wp_call Outline.stable_const trivial (fun _ _ _ => trivial)
    fun _ _ _ _ _ _ _ => wp_done err

theorem wp_updateControlPlanePeersWithSetter :
    (refreshOutline me hostname i kind).wp (updateControlPlanePeersWithSetter kind)
      (fun _ _ => True) w := by
  refine Outline.wp_call Outline.stable_const trivial (fun _ _ _ => trivial) ?_
  intro w₁ acquire w₂ _ _ _ _
  cases acquire with
  | some err => exact wp_done _
  | none =>
    refine Outline.wp_call Outline.stable_const trivial (fun _ _ _ => trivial) ?_
    intro w₃ expired w₄ _ _ _ _
    cases expired with
    | some err => exact wp_released _
    | none =>
      show (refreshOutline me hostname i kind).wp (updatePeers kind >>= released) _ _
      refine Outline.wp_bind (Outline.wp_mono wp_updatePeers ?_)
      exact fun err _ _ _ => wp_released err

end Refreshes

/-! ## 5. The whole agent -/

section Proof

variable {me hostname : String} {w w' : World}

theorem wp_end {α : Type} {i : Party} (a : α) :
    (outline me hostname i).wp (.ret a) (fun _ _ => True) w :=
  Outline.wp_ret Outline.stable_const trivial fun _ _ _ => trivial

/-- `Start` finds its hostname on its own node, which keeps it. -/
theorem wp_start (h : w.selectors = none) :
    (outline me hostname .start).wp start (fun _ _ => True) w := by
  have hunset : (outline me hostname .start).Stable fun w => w.selectors = none :=
    fun _ _ h he => (he.1.2 rfl).1.trans h
  refine Outline.wp_call hunset h (fun _ _ h => ⟨rfl, h⟩) ?_
  intro w₁ answer w₂ hi hnone he _
  obtain ⟨he, -⟩ := he
  cases he with
  | ownNodeFailed => exact wp_end _
  | @ownNode _ node hnode hname =>
    -- the node may be gone when the selectors are set, but it is the one that was read
    have hlabel := hi.ownHostname node (hi.nodes hnode) hname
    have hread : (outline me hostname .start).Stable fun w =>
        w.selectors = none ∧ StartedOn me w node := by
      rintro w w' ⟨hnone, hstart, hlog, hname⟩ he
      obtain ⟨hselectors, hsame⟩ := he.1.2 rfl
      exact ⟨hselectors.trans hnone, hsame.trans hstart, he.1.1.nodeLog hlog, hname⟩
    show (outline me hostname .start).wp
      (hostnameRead node (node.labels.lookup hostnameLabelName)) _ _
    rw [hlabel]
    refine Outline.wp_call hread ⟨hnone, rfl, hi.nodes hnode, hname⟩ ?_ ?_
    · exact fun _ _ h => ⟨rfl, h.1, rfl, node, h.2, rfl⟩
    · exact fun _ _ _ _ _ _ _ => wp_end _

theorem wp_update {i : Party} :
    (outline me hostname i).wp update (fun _ _ => True) w := by
  refine Outline.wp_bind (Outline.wp_mono (Outline.wp_embed wp_updatePeers) ?_)
  intro workerError w₁ _ _
  refine Outline.wp_bind (Outline.wp_mono
    (Outline.wp_embed wp_updateControlPlanePeersWithSetter) ?_)
  exact fun _ _ _ _ => wp_end _

theorem wp_isolationCheck {i : Party} :
    (outline me hostname i).wp isolationCheck (fun _ _ => True) w := by
  refine Outline.wp_embed (Outline.wp_call Outline.stable_const trivial (fun _ _ _ => trivial) ?_)
  intro w₁ isSet w₂ _ _ _ _
  cases isSet with
  | false => exact wp_done _
  | true => exact wp_updateControlPlanePeersWithSetter

/-- What is cached after a setter has run. -/
theorem mem_setAddresses {caches : Caches} {addresses : List PodIP} {target : Kind} {r : Role}
    {ip : PodIP} (h : ip ∈ getPeersAddresses (caches.setAddresses addresses target) r) :
    ip ∈ getPeersAddresses caches r ∨ (r = role target ∧ ip ∈ addresses) := by
  cases target with
  | worker =>
    cases r with
    | worker => exact .inr ⟨rfl, h⟩
    | controlPlane => exact .inl h
  | controlPlane =>
    cases r with
    | worker => exact .inl h
    | controlPlane => exact .inr ⟨rfl, h⟩
  | isolationCheck =>
    unfold Caches.setAddresses at h
    dsimp only at h
    split at h
    -- an empty result preserves the cache
    · exact .inl h
    · cases r with
      | worker => exact .inl h
      | controlPlane => exact .inr ⟨rfl, h⟩

/-- The invariant after a move that leaves the caches alone. -/
theorem PeerInv.grown (h : PeerInv me hostname w) (hg : Grows w w')
    (hnodes : w'.nodes ⊆ w'.nodeLog) (hpods : w'.pods ⊆ w'.podLog)
    (hown : ∀ node ∈ w'.nodeLog, node.name = me →
      node.labels.lookup hostnameLabelName = some hostname)
    (hselectors : ∀ worker controlPlane, w'.selectors = some (worker, controlPlane) →
      Own me hostname w' worker controlPlane)
    (hcaches : w'.caches = w.caches) : PeerInv me hostname w' := by
  refine ⟨hnodes, hpods, hown, hselectors, fun r ip hip => ?_⟩
  rw [hcaches] at hip
  exact hg.peerOf (h.cached r ip hip)

theorem env_proved (h : PeerInv me hostname w) (he : Env me hostname w w') :
    PeerInv me hostname w' ∧ ∀ i, Rely i w w' := by
  cases he with
  | @change nodes pods hown =>
    have hg : Grows w { w with
        nodes := nodes
        pods := pods
        nodeLog := nodes ++ w.nodeLog
        podLog := pods ++ w.podLog } :=
      ⟨List.subset_append_right _ _, List.subset_append_right _ _, fun _ h => h, fun _ => rfl⟩
    refine ⟨h.grown hg (List.subset_append_left _ _) (List.subset_append_left _ _) ?_ ?_ rfl,
      fun _ => ⟨hg, fun _ => ⟨rfl, rfl⟩⟩⟩
    · intro node hnode hname
      rcases List.mem_append.mp hnode with hnew | hold
      · exact hown node hnew hname
      · exact h.ownHostname node hold hname
    · exact fun worker controlPlane hs => hg.own (h.selectors worker controlPlane hs) rfl

theorem call_proved {i : Party} {c : Call} {r : Resp c} (h : PeerInv me hostname w)
    (ha : Allowed me hostname i c w) (he : Exec me c w r w') :
    PeerInv me hostname w' ∧ ∀ j, j ≠ i → Rely j w w' := by
  have hsame : PeerInv me hostname w ∧ ∀ j, j ≠ i → Rely j w w :=
    ⟨h, fun _ _ => ⟨.refl w, fun _ => ⟨rfl, rfl⟩⟩⟩
  cases he with
  | @ownNode _ node _ _ =>
    obtain ⟨rfl, hnone⟩ := ha
    have hg : Grows w { w with startNode := some node } :=
      ⟨List.Subset.refl _, List.Subset.refl _, fun _ h => h, fun hset => by simp [hnone] at hset⟩
    refine ⟨h.grown hg h.nodes h.pods h.ownHostname ?_ rfl, fun j hj => ⟨hg, fun h => absurd h hj⟩⟩
    exact fun _ _ hs => absurd (hnone.symm.trans hs) (by simp)
  | @setSelectors _ worker controlPlane =>
    -- they are set once, so what was selected before is selected by the same selectors
    obtain ⟨rfl, hnone, hown⟩ := ha
    have hg : Grows w { w with selectors := some (worker, controlPlane) } :=
      ⟨List.Subset.refl _, List.Subset.refl _, fun _ hs => absurd (hnone.symm.trans hs) (by simp),
        fun _ => rfl⟩
    refine ⟨h.grown hg h.nodes h.pods h.ownHostname ?_ rfl, fun j hj => ⟨hg, fun h => absurd h hj⟩⟩
    intro worker controlPlane hs
    obtain ⟨rfl, rfl⟩ := Prod.mk.inj (Option.some.inj hs)
    exact hown
  | setAddresses =>
    obtain ⟨rfl, hfound⟩ := ha
    refine ⟨⟨h.nodes, h.pods, h.ownHostname, h.selectors, fun r ip hip => ?_⟩,
      fun _ _ => ⟨⟨List.Subset.refl _, List.Subset.refl _, fun _ h => h, fun _ => rfl⟩,
        fun _ => ⟨rfl, rfl⟩⟩⟩
    rcases mem_setAddresses hip with hold | ⟨rfl, hnew⟩
    · exact h.cached r ip hold
    · exact hfound ip hnew
  | ownNodeFailed => exact hsame
  | selector => exact hsame
  | acquire => exact hsame
  | ctxErr => exact hsame
  | release => exact hsame
  | sendListNodes => exact hsame
  | nodes _ => exact hsame
  | nodesFailed => exact hsame
  | sendListPods => exact hsame
  | pods _ => exact hsame
  | podsFailed => exact hsame

theorem proved : (assertions me hostname).Proved (team me hostname) (fun _ _ _ => True) where
  env h he _ := env_proved h he
  start {i w} h hready := by
    refine ⟨h, ?_, fun j _ => ⟨.refl w, fun _ => ⟨rfl, rfl⟩⟩⟩
    cases i with
    | start => exact wp_start hready
    | loop => exact wp_update
    | check n => exact wp_isolationCheck
  call h ha he _ := call_proved h ha he
  finish {i a w} h _ := ⟨h, fun _ _ => ⟨.refl w, fun _ => ⟨rfl, rfl⟩⟩⟩

theorem peerInv_newPeers : PeerInv me hostname newPeers := by
  refine ⟨by simp [newPeers], by simp [newPeers], by simp [newPeers], by simp [newPeers], ?_⟩
  intro r ip hip
  cases r <;> cases hip

theorem peerInv_reached {s : TeamState (fun _ : Party => Call) (fun _ => Resp) Res World}
    (h : Reached me hostname s) : PeerInv me hostname s.world :=
  (proved.reachable peerInv_newPeers h).1

end Proof

/-! ## 6. A run with two workers -/

def World.readOwnNode (w : World) : Option Node → Except GoErr Node × World
  | none => (.error (.new "failed to get own node"), w)
  | some node => (.ok node, { w with startNode := some node })

/-- An API server that is always there, to an agent that nobody makes wait. -/
def serve (me : String) : (c : Call) → World → Resp c × World
  | .getOwnNode, w => w.readOwnNode (w.nodes.find? fun node => node.name == me)
  | .setSelectors worker controlPlane, w =>
    ((), { w with selectors := some (worker, controlPlane) })
  | .refresh _ .selector, w => (w.selectors.isSome, w)
  | .refresh _ .acquire, w => (none, w)
  | .refresh _ .ctxErr, w => (none, w)
  | .refresh _ .release, w => ((), w)
  | .refresh _ .sendListNodes, w => ((), w)
  | .refresh kind .listNodes, w =>
    (.ok (w.nodes.filter fun node =>
      (w.selector (role kind)).any fun selector => selector.selects node), w)
  | .refresh _ .sendListPods, w => ((), w)
  | .refresh _ .listPods, w => (.ok w.pods, w)
  | .refresh _ (.setAddresses target addresses), w =>
    ((), { w with caches := w.caches.setAddresses addresses target })

theorem exec_serve (me : String) (c : Call) (w : World) :
    Exec me c w (serve me c w).1 (serve me c w).2 := by
  cases c with
  | getOwnNode =>
    show Exec me .getOwnNode w (w.readOwnNode (w.nodes.find? fun node => node.name == me)).1
      (w.readOwnNode (w.nodes.find? fun node => node.name == me)).2
    cases hfind : w.nodes.find? fun node => node.name == me with
    | none => exact .ownNodeFailed
    | some node =>
      exact .ownNode (List.mem_of_find?_eq_some hfind) (by simpa using List.find?_some hfind)
  | setSelectors worker controlPlane => exact .setSelectors
  | refresh kind c =>
    cases c with
    | listNodes =>
      refine .nodes fun node hnode => ?_
      obtain ⟨hlisted, hany⟩ := List.mem_filter.mp hnode
      exact ⟨hlisted, (Option.any_eq_true _ _).mp hany⟩
    | selector => exact .selector
    | acquire => exact .acquire
    | ctxErr => exact .ctxErr
    | release => exact .release
    | sendListNodes => exact .sendListNodes
    | sendListPods => exact .sendListPods
    | listPods => exact .pods fun _ h => h
    | setAddresses target addresses => exact .setAddresses

theorem served (me hostname : String) (i : Party) :
    Team.Served (team me hostname) (fun _ _ _ => True) (fun _ => True) i (serve me) :=
  ⟨fun c w _ => exec_serve me c w, fun _ _ _ => trivial, fun _ _ _ => trivial⟩

/-- The node and the agent pod of a worker. -/
def workerNamed (name hostname : String) : Node :=
  ⟨name, [(hostnameLabelName, hostname), (workerRole, "")], [], []⟩

def agentOn (nodeName ip : String) : AgentPod :=
  ⟨⟨"agent", "ns", nodeName, [], [], none⟩, [ip]⟩

/-- Two workers have come up. -/
def twoWorkers : World :=
  { newPeers with
    nodes := [workerNamed "a" "x", workerNamed "b" "y"]
    pods := [agentOn "a" "1", agentOn "b" "2"]
    nodeLog := [workerNamed "a" "x", workerNamed "b" "y"]
    podLog := [agentOn "a" "1", agentOn "b" "2"] }

/-- The first one's agent has been started, and has updated its peers once. -/
def twoWorkersUpdated : World :=
  { twoWorkers with
    startNode := some (workerNamed "a" "x")
    selectors := some (createSelector "x" workerRole, createSelector "x" masterRole)
    caches := ⟨["2"], []⟩ }

theorem twoWorkers_updated :
    (update.eval (serve "a") (start.eval (serve "a") twoWorkers).2).2 = twoWorkersUpdated := by
  rfl

theorem reached_twoWorkersUpdated : Reached "a" "x" ⟨twoWorkersUpdated, fun _ => none⟩ := by
  have hchange : Reached "a" "x" ⟨twoWorkers, fun _ => none⟩ :=
    Relation.ReflTransGen.refl.tail ⟨_, .env (.change (by decide)), trivial⟩
  have hunset : ready .start twoWorkers := rfl
  have hset : ready .loop (start.eval (serve "a") twoWorkers).2 := rfl
  have hstarted := hchange.run (served "a" "x" .start) rfl (fun _ _ _ => trivial) hunset trivial
    trivial
  have hupdated := hstarted.run (served "a" "x" .loop) rfl (fun _ _ _ => trivial) hset trivial
    trivial
  rwa [← twoWorkers_updated]

/-! ## 7. The peers -/

/-- The node has the label by which the role is selected: for the control plane it is the
one that the agent's own node had when `Start` read it. -/
def Labelled (me : String) (w : World) (node : Node) : Role → Prop
  | .worker => (node.labels.lookup workerRole).isSome = true
  | .controlPlane => ∃ own, StartedOn me w own ∧
      (node.labels.lookup (getControlPlaneLabel own)).isSome = true

theorem PeerInv.labelled {me hostname : String} {w : World} (h : PeerInv me hostname w)
    {r : Role} {selector : Selector} (hs : w.selector r = some selector) {node : Node}
    (hselects : selector.selects node = true) :
    node.labels.lookup hostnameLabelName ≠ some hostname ∧ Labelled me w node r := by
  unfold Selector.selects at hselects
  obtain ⟨hhost, hlabel⟩ := Bool.and_eq_true_iff.mp hselects
  cases r with
  | worker =>
    obtain ⟨⟨worker, controlPlane⟩, hset, rfl⟩ := Option.map_eq_some_iff.mp hs
    obtain ⟨rfl, -⟩ := h.selectors worker controlPlane hset
    exact ⟨by simpa [createSelector] using hhost, hlabel⟩
  | controlPlane =>
    obtain ⟨⟨worker, controlPlane⟩, hset, rfl⟩ := Option.map_eq_some_iff.mp hs
    obtain ⟨-, own, hown, rfl⟩ := h.selectors worker controlPlane hset
    exact ⟨by simpa [createSelector] using hhost, own, hown, hlabel⟩

/-- Whatever comes and goes in the cluster and however the updates and checks of an agent
interleave: a peer's address is the primary IP of an agent pod on a node that is not the
agent's own and has the label of the role. So the agent never asks itself, if no two nodes
have agents with the same address. -/
theorem peers_are_others {me hostname : String}
    {s : TeamState (fun _ : Party => Call) (fun _ => Resp) Res World}
    (h : Reached me hostname s) (r : Role) (ip : PodIP)
    (hip : ip ∈ getPeersAddresses s.world.caches r) :
    (∃ node ∈ s.world.nodeLog, ∃ pod ∈ s.world.podLog, node.name ≠ me ∧
      Labelled me s.world node r ∧ pod.nodeName = node.name ∧ pod.primaryIP = some ip) ∧
    ((∀ pod ∈ s.world.podLog, ∀ pod' ∈ s.world.podLog, pod.primaryIP = some ip →
        pod'.primaryIP = some ip → pod.nodeName = pod'.nodeName) →
      ∀ pod ∈ s.world.podLog, pod.nodeName = me → pod.primaryIP ≠ some ip) := by
  have hi := peerInv_reached h
  obtain ⟨selector, node, pod, hs, hnode, hpod, hselects, hname, hprimary⟩ := hi.cached r ip hip
  obtain ⟨hother, hlabelled⟩ := hi.labelled hs hselects
  have hne : node.name ≠ me := fun hme => hother (hi.ownHostname node hnode hme)
  refine ⟨⟨node, hnode, pod, hpod, hne, hlabelled, hname, hprimary⟩, ?_⟩
  intro hdistinct own hown hme hsame
  exact hne (hname.symm.trans ((hdistinct pod hpod own hown hprimary hsame).trans hme))

theorem peers_are_others_twoWorkers :
    Reached "a" "x" ⟨twoWorkersUpdated, fun _ => none⟩ ∧
    "2" ∈ getPeersAddresses twoWorkersUpdated.caches .worker ∧
    ∀ pod ∈ twoWorkersUpdated.podLog, pod.nodeName = "a" → pod.primaryIP ≠ some "2" :=
  ⟨reached_twoWorkersUpdated, by decide,
    (peers_are_others reached_twoWorkersUpdated .worker "2" (by decide)).2 (by decide)⟩

end SelfNodeRemediation.PeerSelection
