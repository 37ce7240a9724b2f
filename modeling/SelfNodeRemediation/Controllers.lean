import SelfNodeRemediation.ConfigReconciler
import SelfNodeRemediation.Remediations

/-!
# The two controllers of the manager

The manager reconciles the configuration and every SelfNodeRemediation. Both
reconcilers run as workers of one team, for every interleaving of their calls, of the
starts and ends of their runs, and of what others do to the configuration and to the
SelfNodeRemediations.

* `World`: the cluster with its SelfNodeRemediations, the work queues, and what is
  noted of the reconciles in progress.
* `manager`: the team. A change of an object that a controller watches queues a
  request for it, and so does the end of a reconcile that asks for another one.
* `Orderly`: when the steps of a run are in order.
* `noted_reachable`: what is noted of the reconciles in progress is right.
-/

namespace SelfNodeRemediation.DisabledCondition

open Interaction Versioned
open ConfigReconciler (InstalledConfig isDisabled withoutDisabled)

/-! ## 1. The manager's world -/

/-- The namespace and the name of a SelfNodeRemediation. -/
abbrev Key := String × String

def keyOf (snr : SNR) : Key := (snr.namespace_, snr.name)

/-- What the work queues of the two controllers hold. -/
inductive Request
  | config
  | snr (key : Key)
deriving DecidableEq

/-- What a reconcile in progress has done so far: it found the configuration missing
or about to be deleted, it listed the SelfNodeRemediations. -/
structure Progress where
  foundMissing : Bool
  listed : Bool
deriving DecidableEq

/-- The cluster with its SelfNodeRemediations and their keys, the requests that are
pending, and the reconciles in progress. -/
structure World where
  remediations : Remediations Key
  keys : List Key
  queue : List Request
  runs : Request → Option Progress

/-- A request that is pending already is not queued twice. -/
def enqueued (req : Request) (queue : List Request) : List Request :=
  if req ∈ queue then queue else queue ++ [req]

theorem mem_enqueued {req req' : Request} {queue : List Request} :
    req' ∈ enqueued req queue ↔ req' = req ∨ req' ∈ queue := by
  unfold enqueued
  split
  · next h => exact ⟨.inr, fun h' => h'.elim (fun h' => h' ▸ h) id⟩
  · rw [List.mem_append, List.mem_singleton, or_comm]

namespace World

/-- What the reconcile of a SelfNodeRemediation sees. -/
def view (w : World) (key : Key) : Cluster := w.remediations.view key

/-- The namespace of the operator. -/
def deploymentNamespace (w : World) : Option String := w.remediations.shared.deploymentNamespace

/-- The deletion timestamp of the operator's configuration, if there is one. -/
def config (w : World) : Option (Option Time) :=
  w.deploymentNamespace.bind w.remediations.shared.config

/-- There is a configuration, and it is not about to be deleted. -/
def HasConfig (w : World) : Prop := w.config = some none

/-- The SelfNodeRemediation exists and has the condition `Disabled=True`. -/
def Disabled (w : World) (key : Key) : Prop :=
  (w.view key).gone = false ∧ isDisabled (w.view key).snr.current = true

instance (w : World) : Decidable w.HasConfig := inferInstanceAs (Decidable (_ = _))

instance (w : World) (key : Key) : Decidable (w.Disabled key) :=
  inferInstanceAs (Decidable (_ ∧ _))

/-- Someone has written to a SelfNodeRemediation, or to something else that its
reconcile sees. Its controller is told if it has changed. -/
def wrote (w : World) (key : Key) (cluster : Cluster) : World :=
  { w with
    remediations := w.remediations.put key cluster
    queue :=
      if cluster.snr = (w.view key).snr ∧ cluster.gone = (w.view key).gone then w.queue
      else enqueued (.snr key) w.queue }

/-- A reconcile in progress has got on. -/
def noted (w : World) (req : Request) (f : Progress → Progress) : World :=
  { w with runs := Function.update w.runs req ((w.runs req).map f) }

/-- A reconcile takes its request from the queue. -/
def started (w : World) (req : Request) : World :=
  { w with
    queue := w.queue.filter (· ≠ req)
    runs := Function.update w.runs req (some ⟨false, false⟩) }

/-- A reconcile ends, and its request is queued again if it has to be. -/
def finished (w : World) (req : Request) (requeue : Bool) : World :=
  { w with
    queue := if requeue then enqueued req w.queue else w.queue
    runs := Function.update w.runs req none }

/-- All SelfNodeRemediations, as a list of them is answered. -/
def list (w : World) : List (Revision SNR) :=
  w.keys.filterMap fun key => if (w.view key).gone then none else some (w.view key).snr.read

def setConfig (w : World) (ns : String) (config : Option (Option Time)) : World :=
  { w with
    remediations :=
      { w.remediations with
        shared :=
          { w.remediations.shared with
            config := Function.update w.remediations.shared.config ns config } }
    queue := enqueued .config w.queue }

/-- What the reconcile of a new SelfNodeRemediation sees. -/
def created (w : World) (key : Key) (snr : SNR) : Cluster :=
  { w.view key with snr := (w.view key).snr.put snr, gone := false }

/-- A key is added to those that are listed. -/
def withKey (w : World) (key : Key) : World := { w with keys := w.keys.insert key }

/-- Something changes that neither controller watches. -/
def setShared (w : World) (shared : Cluster) : World :=
  { w with remediations := { w.remediations with shared := shared } }

end World

/-! ## 2. The calls -/

/-- The answer to a call shows that there is no configuration to work with. -/
def findsMissing : (c : Call) → Resp c → Bool
  | .getConfig _, .error e => e.isNotFound
  | .getConfig _, .ok deletionTimestamp => deletionTimestamp.isSome
  | _, _ => false

def Progress.afterCall (c : Call) (a : Resp c) (p : Progress) : Progress :=
  { p with foundMissing := p.foundMissing || findsMissing c a }

/-- A call of `ReconcileManager`. Reads are fresh; any call may fail. -/
def SNRExec (key : Key) (c : Call) (w : World) (a : Resp c) (w' : World) : Prop :=
  ∃ cluster, Exec false c (w.view key) a cluster ∧
    w' = (w.wrote key cluster).noted (.snr key) (Progress.afterCall c a)

/-- The calls that install the agents. -/
def isInstall : ConfigReconciler.Call → Bool
  | .getConfig | .listSNRs | .updateSNRStatus _ => false
  | _ => true

/-- The shared cluster may change to this without a change of what the two controllers
watch. -/
def Unwatched (w : World) (shared : Cluster) : Prop :=
  shared.deploymentNamespace = w.deploymentNamespace ∧
    w.deploymentNamespace.bind shared.config = w.config

/-- A change of the installed objects is watched, and leads to another request for
the configuration. -/
inductive Installed (w : World) : World → Prop
  | unchanged {shared : Cluster} : Unwatched w shared → Installed w (w.setShared shared)
  | changed {shared : Cluster} : Unwatched w shared →
      Installed w { w.setShared shared with queue := enqueued .config w.queue }

/-- A call of the reconciler of the configuration. The calls that install the agents
may have any answer. -/
inductive ConfigExec : (c : ConfigReconciler.Call) → World → ConfigReconciler.Resp c → World → Prop
  | getConfig {w : World} {config : InstalledConfig} :
      w.config = some config.deletionTimestamp → ConfigExec .getConfig w (.ok config) w
  | getFailed {w : World} {e : GoErr} :
      (e.isNotFound = true → w.config = none) → ConfigExec .getConfig w (.error e) w
  | install {w w' : World} {c : ConfigReconciler.Call} {a : ConfigReconciler.Resp c} :
      isInstall c = true → Installed w w' → ConfigExec c w a w'
  | listSNRs {w : World} :
      ConfigExec .listSNRs w (.ok w.list) (w.noted .config fun p => { p with listed := true })
  | listFailed {w : World} {e : GoErr} : ConfigExec .listSNRs w (.error e) w
  | updateSNRStatus {w : World} {sent : Revision SNR} {a : Except GoErr (Revision SNR)}
      {cluster : Cluster} :
      Exec false (.updateSNRStatus sent) (w.view (keyOf sent.value)) a cluster →
      ConfigExec (.updateSNRStatus sent) w (errorIn a) (w.wrote (keyOf sent.value) cluster)

theorem ConfigExec.of_getConfig {w w' : World} {a : Except GoErr InstalledConfig}
    (h : ConfigExec .getConfig w a w') :
    w' = w ∧ ((∃ config, a = .ok config ∧ w.config = some config.deletionTimestamp) ∨
      ∃ e, a = .error e ∧ (e.isNotFound = true → w.config = none)) := by
  cases h with
  | getConfig hconfig => exact ⟨rfl, .inl ⟨_, rfl, hconfig⟩⟩
  | getFailed hnone => exact ⟨rfl, .inr ⟨_, rfl, hnone⟩⟩
  | install hc _ => cases hc

theorem ConfigExec.of_listSNRs {w w' : World} {a : Except GoErr (List (Revision SNR))}
    (h : ConfigExec .listSNRs w a w') :
    (a = .ok w.list ∧ w' = w.noted .config fun p => { p with listed := true }) ∨
      ∃ e, a = .error e := by
  cases h with
  | listSNRs => exact .inl ⟨rfl, rfl⟩
  | listFailed => exact .inr ⟨_, rfl⟩
  | install hc _ => cases hc

/-- An update that succeeds. -/
theorem ConfigExec.of_updateSNRStatus {w w' : World} {sent : Revision SNR} {a : Option GoErr}
    (h : ConfigExec (.updateSNRStatus sent) w a w') (ha : a = none) :
    w' = w.wrote (keyOf sent.value)
      ((w.view (keyOf sent.value)).storeStatus sent.value.status.serialize) := by
  cases h with
  | install hc _ => cases hc
  | updateSNRStatus he =>
    have hw := he.updateSNRStatus
    cases hw with
    | done _ => rfl
    | error _ => cases ha
    | lost _ _ => cases ha

def newStatus : Status := ⟨none, none, "", []⟩

/-- What others do: the configuration is created, deleted or changed, and so are the
SelfNodeRemediations, whose status nobody else writes. -/
inductive Others : World → World → Prop
  | shared {w : World} {shared : Cluster} : Unwatched w shared → Others w (w.setShared shared)
  | config {w : World} {ns : String} {config : Option (Option Time)} :
      w.deploymentNamespace = some ns → Others w (w.setConfig ns config)
  | edited {w : World} {key : Key} {snr : SNR} : (w.view key).gone = false →
      keyOf snr = key → snr.status = (w.view key).snr.current.status →
      Others w (w.wrote key ((w.view key).store snr))
  | created {w : World} {key : Key} {snr : SNR} : (w.view key).gone = true →
      keyOf snr = key → snr.status = newStatus →
      Others w ((w.wrote key (w.created key snr)).withKey key)

/-! ## 3. The two controllers -/

abbrev RequestCall : Request → Type
  | .config => ConfigReconciler.Call
  | .snr _ => Call

abbrev RequestResp : (req : Request) → RequestCall req → Type
  | .config => ConfigReconciler.Resp
  | .snr _ => Resp

abbrev RequestRes : Request → Type
  | .config => ConfigReconciler.Outcome
  | .snr _ => Reconciled

/-- An error and a delay put the request back on the queue. -/
def requeuesConfig : ConfigReconciler.Outcome → Bool
  | .failed _ => true
  | .requeueAfter d => 0 < d
  | .done => false

/-- A panic is recovered from as an error. -/
def requeuesSNR (reconciled : Reconciled) : Bool :=
  match reconciled.ret with
  | .error _ => true
  | .ok ret => ret.err.isSome || ret.result.requeue || 0 < ret.result.requeueAfter

/-- The manager: for each request there is at most one reconcile at a time. -/
def manager (r : Reconciler) : Team RequestCall RequestResp RequestRes World where
  main
    | .config => ConfigReconciler.reconcile
    | .snr _ => reconcileManager r
  ready req w := req ∈ w.queue
  start req w := w.started req
  exec
    | .config => ConfigExec
    | .snr key => SNRExec key
  finish
    | .config => fun outcome w => w.finished .config (requeuesConfig outcome)
    | .snr key => fun reconciled w => w.finished (.snr key) (requeuesSNR reconciled)
  env := Others

/-- A manager that has just started: nothing is in progress, and a configuration that
exists leads to a request. -/
structure Started (w : World) : Prop where
  keyed : ∀ key, (w.view key).gone = false →
    keyOf (w.view key).snr.current = key ∧ key ∈ w.keys
  idle : ∀ req, w.runs req = none
  requested : w.HasConfig → .config ∈ w.queue

/-- No reconcile is in progress or pending. -/
def Quiescent (s : TeamState RequestCall RequestResp RequestRes World) : Prop :=
  (∀ req, s.running req = none) ∧ s.world.queue = []

/-- When the steps of a run are in order: the SelfNodeRemediations are listed only
while no reconcile in progress has found the configuration missing; and where answers
are decoded over the copy, nobody else takes the last condition from a
SelfNodeRemediation whose reconcile is in progress. -/
structure Orderly (r : Reconciler) (a : Act RequestCall) (w w' : World) : Prop where
  listing : a = .call .config .listSNRs →
    ∀ key p, w.runs (.snr key) = some p → p.foundMissing = false
  overwriting : r.decode = .overwrite → ∀ key, (∀ c, a ≠ .call (.snr key) c) →
    (w.runs (.snr key)).isSome = true →
    (w'.view key).snr.current.status.conditions = [] →
    (w.view key).snr.current.status.conditions = []

/-! ## 4. What a step changes -/

theorem config_ne_snr (key : Key) : Request.config ≠ .snr key := nofun

theorem snr_ne_config (key : Key) : Request.snr key ≠ .config := nofun

section Runs

variable {w : World} {req req' : Request}

theorem runs_noted_self (f : Progress → Progress) :
    (w.noted req f).runs req = (w.runs req).map f := by
  simp only [World.noted, Function.update_self]

theorem runs_noted_of_ne (h : req' ≠ req) (f : Progress → Progress) :
    (w.noted req f).runs req' = w.runs req' := by
  simp only [World.noted, Function.update_of_ne h]

theorem runs_started_self : (w.started req).runs req = some ⟨false, false⟩ := by
  simp only [World.started, Function.update_self]

theorem runs_started_of_ne (h : req' ≠ req) : (w.started req).runs req' = w.runs req' := by
  simp only [World.started, Function.update_of_ne h]

theorem runs_finished_of_ne (h : req' ≠ req) (requeue : Bool) :
    (w.finished req requeue).runs req' = w.runs req' := by
  simp only [World.finished, Function.update_of_ne h]

theorem mem_queue_finished {requeue : Bool} (h : req' ∈ w.queue) :
    req' ∈ (w.finished req requeue).queue := by
  unfold World.finished
  dsimp only
  split
  · exact mem_enqueued.mpr (.inr h)
  · exact h

end Runs

section Wrote

variable {w : World} {key key' : Key} {cluster : Cluster}

theorem view_wrote_self : (w.wrote key cluster).view key = cluster :=
  Remediations.view_put_self w.remediations key cluster

theorem view_wrote_of_ne (h : key' ≠ key) :
    (w.wrote key cluster).view key' =
      { cluster with snr := (w.view key').snr, gone := (w.view key').gone } :=
  Remediations.view_put_of_ne w.remediations cluster h

theorem mem_queue_wrote {req : Request} (h : req ∈ w.queue) :
    req ∈ (w.wrote key cluster).queue := by
  unfold World.wrote
  dsimp only
  split
  · exact h
  · exact mem_enqueued.mpr (.inr h)

theorem hasConfig_wrote (h : cluster.config = (w.view key).config ∧
    cluster.deploymentNamespace = (w.view key).deploymentNamespace) :
    (w.wrote key cluster).HasConfig ↔ w.HasConfig := by
  show cluster.deploymentNamespace.bind cluster.config = some none ↔ _
  rw [h.1, h.2]
  rfl

/-- The objects of the other keys stay. -/
theorem disabled_wrote_of_ne (h : key' ≠ key) :
    (w.wrote key cluster).Disabled key' ↔ w.Disabled key' := by
  unfold World.Disabled
  rw [view_wrote_of_ne h]

end Wrote

/-! ## 5. The reconciles in progress -/

/-- What is noted of the reconciles in progress is noted of those that run. -/
def Noted (s : TeamState RequestCall RequestResp RequestRes World) : Prop :=
  ∀ req, (s.world.runs req).isSome = (s.running req).isSome

section Noted

variable {r : Reconciler} {w w' : World}

theorem isSome_runs_noted (w : World) (req : Request) (f : Progress → Progress) (req' : Request) :
    ((w.noted req f).runs req').isSome = (w.runs req').isSome := by
  by_cases h : req' = req
  · subst h
    rw [runs_noted_self, Option.isSome_map]
  · rw [runs_noted_of_ne h]

/-- No call starts or ends a reconcile. -/
theorem isSome_runs_exec {req : Request} {c : RequestCall req} {a : RequestResp req c}
    (he : (manager r).exec req c w a w') (req' : Request) :
    (w'.runs req').isSome = (w.runs req').isSome := by
  cases req with
  | snr key =>
    obtain ⟨cluster, -, rfl⟩ := he
    exact isSome_runs_noted _ _ _ _
  | config =>
    have he : ConfigExec c w a w' := he
    cases he with
    | install _ hinstalled => cases hinstalled <;> rfl
    | listSNRs => exact isSome_runs_noted _ _ _ _
    | _ => rfl

theorem runs_others (h : Others w w') : w'.runs = w.runs := by
  cases h <;> rfl

theorem isSome_update {α : Request → Type} {runs : Request → Option Progress}
    {running : (req : Request) → Option (α req)} {req : Request} {run : Option Progress}
    {p : Option (α req)} (h : ∀ req, (runs req).isSome = (running req).isSome)
    (hp : run.isSome = p.isSome) (req' : Request) :
    (Function.update runs req run req').isSome = (Function.update running req p req').isSome := by
  by_cases hreq : req' = req
  · subst hreq
    rw [Function.update_self, Function.update_self]
    exact hp
  · rw [Function.update_of_ne hreq, Function.update_of_ne hreq]
    exact h req'

theorem noted_reachable {ok : Act RequestCall → World → World → Prop} {w₀ : World}
    (h₀ : Started w₀) {s : TeamState RequestCall RequestResp RequestRes World}
    (h : (manager r).Reachable ok w₀ s) : Noted s := by
  induction h with
  | refl =>
    intro req
    rw [h₀.idle req]
    rfl
  | tail _ hs ih =>
    obtain ⟨a, hs, -⟩ := hs
    cases hs with
    | env he =>
      intro req
      show (World.runs _ req).isSome = _
      rw [runs_others he]
      exact ih req
    | start _ _ => exact isSome_update ih rfl
    | @call w w' ps req c k a hp he =>
      intro req'
      rw [isSome_runs_exec he, ih req']
      by_cases hreq : req' = req
      · subst hreq
        show (ps req').isSome = (Function.update ps req' _ req').isSome
        rw [Function.update_self, hp]
        rfl
      · show (ps req').isSome = (Function.update ps req _ req').isSome
        rw [Function.update_of_ne hreq]
    | @finish w ps req a hp =>
      cases req with
      | config => exact isSome_update ih rfl
      | snr key => exact isSome_update ih rfl

end Noted

end SelfNodeRemediation.DisabledCondition
