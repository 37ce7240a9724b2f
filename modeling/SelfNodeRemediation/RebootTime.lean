import SelfNodeRemediation.Lib.Record
import SelfNodeRemediation.PhaseOutline
import SelfNodeRemediation.Upkeep

/-!
# Where an assumed reboot time comes from

The runs of `ReconcileManager` with a record of its calls, each with the world it
was made in.

* `Prepares`: the record ends with what `setTimeAssumedRebooted` asks for: the
  calculator's configuration, the worker nodes and the clock, in a reconcile that
  has read the SelfNodeRemediation and its target node.
* `reconcileManager_prepares`: an assumed reboot time is logged only there, with
  that clock and with the reboot duration of that configuration, that node and
  those workers.
-/

namespace SelfNodeRemediation

open Interaction Versioned

/-! ## 1. Answers -/

section

variable {lagging : Bool} {w w' : Cluster}

theorem NodePatch.stored {base changed answer : Node}
    (h : NodePatch w base changed (.ok answer) w') :
    ∃ node, w.nodes changed.name = some node ∧ answer = patchedNode base changed node := by
  cases h with
  | done hnode => exact ⟨_, hnode, rfl⟩

theorem Exec.calculatorConfig {spec : SelfNodeRemediationConfigSpec}
    (h : Exec lagging .calculatorConfig w (some spec) w') :
    ∃ config, w.calculatorConfig = some config ∧ spec = config.spec := by
  generalize hr : (some spec : Resp .calculatorConfig) = r at h
  cases h with
  | served =>
    obtain ⟨config, hconfig, rfl⟩ := Option.map_eq_some_iff.mp hr.symm
    exact ⟨config, hconfig, rfl⟩
  | failed _ hf => cases hf
  | lost _ hf => cases hf

theorem Exec.listWorkerNodes {workers : List Node}
    (h : Exec lagging .listWorkerNodes w (.ok workers) w') :
    (serve .listWorkerNodes w).1 = .ok workers := by
  generalize hr : (.ok workers : Resp .listWorkerNodes) = r at h
  cases h with
  | served => rfl
  | failed _ hf => cases hf; cases hr
  | lost _ hf => cases hf; cases hr

theorem Exec.now {now : Time} (h : Exec lagging .now w now w') : now = w.now := by
  cases h with
  | served => rfl
  | failed _ hf => cases hf
  | lost _ hf => cases hf

end

/-! ## 2. The record -/

abbrev CallEvent := Event Call Resp Cluster

abbrev RecordedCluster := Recorded Call Resp Cluster

/-- The last calls in the record are those of one reconcile, which has read the
SelfNodeRemediation as `snr`. -/
inductive DuringReconcile (snr : SNR) (calls : List CallEvent) : List CallEvent → Prop
  | intro {w : Cluster} {n : Nat} {earlier : List CallEvent} : w.snr.version n = some snr →
      (∀ e ∈ calls, e.call ≠ .getSNR) →
      DuringReconcile snr calls (calls ++ ⟨.getSNR, w, .ok ⟨n, snr⟩⟩ :: earlier)

/-- The name of the target node of `snr`, by its own fields or by the Machine that owns
it. -/
inductive TargetName (snr : SNR) (calls : List CallEvent) : String → Prop
  | direct : isOwnedByNHC snr = true ∨ isOwnedByMachine snr = none →
      TargetName snr calls (getNodeNameDirect snr)
  | machine {ref : OwnerReference} {w : Cluster} {machine : Machine} {name : String} :
      isOwnedByNHC snr = false → isOwnedByMachine snr = some ref →
      ⟨.getMachine snr.namespace_ ref.name, w, .ok machine⟩ ∈ calls →
      w.machines snr.namespace_ ref.name = some machine → machine.nodeRef = some name →
      TargetName snr calls name

/-- The node of that name as it was stored when one of the calls read it, or when one of
them patched it. -/
inductive NodeMet (name : String) (calls : List CallEvent) : Node → Prop
  | read {w : Cluster} {node : Node} : ⟨.getNode name, w, .ok node⟩ ∈ calls →
      w.nodes name = some node → NodeMet name calls node
  | patched {w : Cluster} {base changed node : Node} {answer : Except GoErr Node} :
      NodeMet name calls base → ⟨.patchNode base changed, w, answer⟩ ∈ calls →
      w.nodes base.name = some node → NodeMet name calls node

/-- The target node of `snr`, as one of the calls met it. -/
def TargetMet (snr : SNR) (node : Node) (calls : List CallEvent) : Prop :=
  ∃ name, TargetName snr calls name ∧ NodeMet name calls node

/-- The record ends with the calls of `calculateRebootDuration`, and this is what comes
out. -/
inductive Calculates : List CallEvent → Duration → Prop
  | intro {snr : SNR} {calls record : List CallEvent} {node : Node} {wConfig wWorkers : Cluster}
      {config : CalculatorConfig} {workers : List Node} {rebootDuration : Duration} :
      DuringReconcile snr calls record → TargetMet snr node calls →
      wConfig.calculatorConfig = some config →
      (serve .listWorkerNodes wWorkers).1 = .ok workers →
      getRebootDuration config.spec node (.ok workers) = .ok rebootDuration →
      Calculates (⟨.listWorkerNodes, wWorkers, .ok workers⟩ ::
        ⟨.calculatorConfig, wConfig, some config.spec⟩ :: record) rebootDuration

/-- The record ends with what `setTimeAssumedRebooted` asks for, and this is what it
computes the assumed reboot time from. -/
inductive Prepares : List CallEvent → Assumption → Prop
  | intro {record : List CallEvent} {w : Cluster} {rebootDuration : Duration} :
      Calculates record rebootDuration →
      Prepares (⟨.now, w, w.now⟩ :: record) ⟨w.now, rebootDuration⟩

theorem DuringReconcile.cons {snr : SNR} {calls record : List CallEvent} {e : CallEvent}
    (h : DuringReconcile snr calls record) (he : e.call ≠ .getSNR) :
    DuringReconcile snr (e :: calls) (e :: record) := by
  cases h with
  | intro hv hcalls => exact .intro hv (List.forall_mem_cons.mpr ⟨he, hcalls⟩)

/-- A fact about the calls that further calls leave true. -/
def Lasts (F : List CallEvent → Prop) : Prop := ∀ e calls, F calls → F (e :: calls)

theorem lasts_true : Lasts fun _ => True := fun _ _ _ => trivial

theorem lasts_targetName (snr : SNR) (name : String) :
    Lasts fun calls => TargetName snr calls name := by
  intro e calls h
  cases h with
  | direct h => exact .direct h
  | machine hnhc href hcall hmachine hname =>
    exact .machine hnhc href (List.mem_cons_of_mem _ hcall) hmachine hname

theorem lasts_nodeMet (name : String) (node : Node) :
    Lasts fun calls => NodeMet name calls node := by
  intro e calls h
  induction h with
  | read hcall hnode => exact .read (List.mem_cons_of_mem _ hcall) hnode
  | patched _ hcall hnode ih => exact .patched ih (List.mem_cons_of_mem _ hcall) hnode

theorem lasts_targetMet (snr : SNR) (node : Node) : Lasts (TargetMet snr node) :=
  fun e calls ⟨name, hname, hnode⟩ =>
    ⟨name, lasts_targetName snr name e calls hname, lasts_nodeMet name node e calls hnode⟩

/-! ## 3. The outline -/

/-- Every logged assumed reboot time was computed by a `prepareReboot`. -/
def AllPrepared (w : RecordedCluster) : Prop :=
  ∀ a ∈ w.world.assumed, ∃ record, record <:+ w.record ∧ Prepares record a

def PrepareAllowed : Call → RecordedCluster → Prop
  | .logTimeAssumedRebooted now rebootDuration, w => Prepares w.record ⟨now, rebootDuration⟩
  | _, _ => True

theorem allPrepared_exec {c : Call} {w w' : RecordedCluster} {r : Resp c} (h : AllPrepared w)
    (ha : PrepareAllowed c w) (he : recordExec (Exec true) c w r w') : AllPrepared w' := by
  have hsuffix : w.record <:+ w'.record := he.2 ▸ List.suffix_cons _ _
  have hold : ∀ a ∈ w.world.assumed, ∃ record, record <:+ w'.record ∧ Prepares record a := by
    intro a ha
    obtain ⟨record, hrecord, hp⟩ := h a ha
    exact ⟨record, hrecord.trans hsuffix, hp⟩
  rcases he.1.change with heq | hchange
  · exact fun a ha => hold a (heq ▸ ha)
  · generalize hw' : w'.world = world at hchange
    unfold AllPrepared
    rw [hw']
    cases hchange with
    | logTimeAssumedRebooted => exact List.forall_mem_cons.mpr ⟨⟨w.record, hsuffix, ha⟩, hold⟩
    | _ => exact hold

def prepareOutline : Outline Call Resp RecordedCluster where
  exec := recordExec (Exec true)
  env := recordEnv Others
  inv := AllPrepared
  allowed := PrepareAllowed
  inv_env {w w'} h he a ha := by
    rw [he.2]
    exact h a (he.1.assumed ▸ ha)
  inv_exec := allPrepared_exec

/-- The others leave the record alone. -/
theorem stable_record (P : List CallEvent → Prop) : prepareOutline.Stable fun w => P w.record := by
  intro w w' h he
  rw [he.2]
  exact h

theorem DuringReconcile.exec {snr : SNR} {calls : List CallEvent} {c : Call}
    {w w' : RecordedCluster} {r : Resp c} (h : DuringReconcile snr calls w.record)
    (he : prepareOutline.exec c w r w') (hc : c ≠ .getSNR) :
    DuringReconcile snr (⟨c, w.world, r⟩ :: calls) w'.record := by
  rw [he.2]
  exact h.cons hc

/-- The reconcile of `snr` is running, and `F` is true of its calls. -/
def During (snr : SNR) (F : List CallEvent → Prop) (record : List CallEvent) : Prop :=
  ∃ calls, DuringReconcile snr calls record ∧ F calls

theorem During.mono {snr : SNR} {F G : List CallEvent → Prop} {record : List CallEvent}
    (h : During snr F record) (hFG : ∀ calls, F calls → G calls) : During snr G record := by
  obtain ⟨calls, hduring, hcalls⟩ := h
  exact ⟨calls, hduring, hFG calls hcalls⟩

section

variable {snr : SNR} {F : List CallEvent → Prop} (hF : Lasts F)

include hF

theorem During.exec {c : Call} {w w' : RecordedCluster} {r : Resp c}
    (h : During snr F w.record) (he : prepareOutline.exec c w r w') (hc : c ≠ .getSNR) :
    During snr F w'.record := by
  obtain ⟨calls, hduring, hcalls⟩ := h
  exact ⟨_, hduring.exec he hc, hF _ calls hcalls⟩

theorem During.beside {c : Call} {w : RecordedCluster} (h : During snr F w.record)
    (hc : c.isBeside = true) : prepareOutline.allowed c w ∧
      ∀ a w', prepareOutline.exec c w a w' → During snr F w'.record := by
  refine ⟨?_, fun a w' he => h.exec hF he ?_⟩
  · cases c with
    | logTimeAssumedRebooted _ _ => cases hc
    | _ => trivial
  · rintro rfl
    cases hc

theorem During.reading :
    Reading prepareOutline AnyError fun w => During snr F w.record where
  stable := stable_record _
  values _ _ := trivial
  allowed hc _ h := (h.beside hF (Call.isBeside_of_isLookup hc)).1
  answered hc _ h he :=
    ⟨(h.beside hF (Call.isBeside_of_isLookup hc)).2 _ _ he, fun _ _ => trivial⟩

end

/-! ## 4. The target node -/

/-- The copy is as it was read, but for its conditions. -/
def CopyOf (snr : SNR) (m : Mem) : Prop :=
  ∃ conditions, m.snr.value = { snr with status := { snr.status with conditions := conditions } }

/-- A reconcile is running, and this is a copy of what it has read. -/
def HasRead (m : Mem) (w : RecordedCluster) : Prop :=
  ∃ snr, CopyOf snr m ∧ During snr (fun _ => True) w.record

theorem persists_hasRead : Persists prepareOutline HasRead where
  stable m := stable_record fun record => ∃ snr, CopyOf snr m ∧ During snr (fun _ => True) record
  beside hc _ h := by
    obtain ⟨snr, hcopy, hduring⟩ := h
    obtain ⟨hallowed, hexec⟩ := hduring.beside lasts_true hc
    exact ⟨hallowed, fun a w' he => ⟨snr, hcopy, hexec a w' he⟩⟩
  condition {m w now condition} _ h := by
    obtain ⟨snr, ⟨conditions, hcopy⟩, hduring⟩ := h
    refine ⟨snr, ⟨setStatusCondition now condition m.snr.value.status.conditions, ?_⟩, hduring⟩
    unfold Mem.withCondition Mem.setStatus Mem.modify
    rw [hcopy]
  noted h := h

section

variable {snr : SNR} {m : Mem} {w : RecordedCluster}

/-- What `getNodeName` finds is the name of the target node. -/
theorem wp_getNodeName_target (hcopy : CopyOf snr m) (h : During snr (fun _ => True) w.record) :
    prepareOutline.wp (getNodeName m) (Leaves
      (fun name w => During snr (fun calls => TargetName snr calls name) w.record)
      (fun _ _ => True) m) w := by
  obtain ⟨conditions, hcopy⟩ := hcopy
  have hnhc : isOwnedByNHC m.snr.value = isOwnedByNHC snr := by rw [hcopy]; rfl
  have hmachine : isOwnedByMachine m.snr.value = isOwnedByMachine snr := by rw [hcopy]; rfl
  have hname : getNodeNameDirect m.snr.value = getNodeNameDirect snr := by rw [hcopy]; rfl
  have hns : m.snr.value.namespace_ = snr.namespace_ := by rw [hcopy]
  refine wp_getNodeName_leaves (fun _ => Outline.stable_const) (During.reading lasts_true)
    (fun _ => stable_record _) h ?_ ?_
  · intro hdirect
    rw [hnhc, hmachine] at hdirect
    rw [hname]
    exact h.mono fun _ _ => .direct hdirect
  · intro ref howned href answer w w' _ h he
    rw [hnhc] at howned
    rw [hmachine] at href
    refine ⟨fun machine name hanswer hnode => ?_, fun _ _ _ _ _ => trivial, fun _ _ => trivial⟩
    subst hanswer
    obtain ⟨calls, hduring, -⟩ := h
    have hduring' := hduring.exec he nofun
    have hstored := he.1.getMachine.1 machine rfl
    rw [hns] at hduring' hstored
    exact ⟨_, hduring', .machine howned href List.mem_cons_self hstored hnode⟩

/-- What `getNodeFromSnr` returns is the target node. -/
theorem wp_getNodeFromSnr_target (hcopy : CopyOf snr m)
    (h : During snr (fun _ => True) w.record) :
    prepareOutline.wp (getNodeFromSnr m) (Leaves
      (fun node w => During snr (TargetMet snr node) w.record) (fun _ _ => True) m) w := by
  refine wp_getNodeFromSnr_leaves (fun _ => Outline.stable_const)
    (fun name => During.reading (lasts_targetName snr name)) (fun _ => stable_record _)
    (wp_getNodeName_target hcopy h) ?_
  rintro name answer w w' - ⟨calls, hduring, hname⟩ he
  refine ⟨fun node hanswer => ?_, fun _ _ => trivial⟩
  subst hanswer
  refine ⟨_, hduring.exec he nofun, name, lasts_targetName snr name _ calls hname, ?_⟩
  exact .read List.mem_cons_self (he.1.getNode.1 node rfl)

/-! ## 5. The reboot duration -/

/-- The node has the watchdog timeout of the target node, as one of the calls met it. -/
def TimeoutMet (snr : SNR) (node : Node) (calls : List CallEvent) : Prop :=
  ∃ met, getWatchdogTimeout node = getWatchdogTimeout met ∧ TargetMet snr met calls

/-- Of the node, the reboot duration depends on the watchdog timeout only. -/
theorem getRebootDuration_congr {spec : SelfNodeRemediationConfigSpec} {node met : Node}
    {nodes : Except GoErr (List Node)} (h : getWatchdogTimeout node = getWatchdogTimeout met) :
    getRebootDuration spec node nodes = getRebootDuration spec met nodes := by
  unfold getRebootDuration
  rw [h]

theorem getRebootDuration_ne_error {spec : SelfNodeRemediationConfigSpec} {node : Node}
    {nodes : Except GoErr (List Node)} {d : Duration}
    (h : getRebootDuration spec node nodes = .ok d) : ∃ workers, nodes = .ok workers := by
  cases nodes with
  | ok workers => exact ⟨workers, rfl⟩
  | error e =>
    unfold getRebootDuration calculateMinimumRebootDuration calcNumOfBatches at h
    cases hcheck : apiCheckDuration spec with
    | error _ => rw [hcheck] at h; cases h
    | ok _ => rw [hcheck] at h; cases h

theorem lookup_overlayMap (answer copy : StringMap) (key : String) :
    (overlayMap answer copy).lookup key = (answer.lookup key).or (copy.lookup key) := by
  unfold overlayMap
  rw [List.lookup_append]
  cases hanswer : answer.lookup key with
  | some value => rfl
  | none =>
    simp only [Option.none_or]
    induction copy with
    | nil => rfl
    | cons entry copy ih =>
      obtain ⟨k, value⟩ := entry
      by_cases hk : key = k
      · subst hk
        simp [hanswer]
      · have hk' : (key == k) = false := beq_false_of_ne hk
        rw [List.filter_cons]
        split
        · rw [List.lookup_cons, List.lookup_cons, hk', ih]
        · rw [List.lookup_cons, hk', ih]

/-- The watchdog timeout that is decoded is that of the answer, or of the node that was
sent. -/
theorem getWatchdogTimeout_decode (mode : DecodeMode) (answer sent : Node) :
    getWatchdogTimeout (mode.node answer sent) = getWatchdogTimeout answer ∨
      getWatchdogTimeout (mode.node answer sent) = getWatchdogTimeout sent := by
  cases mode with
  | zeroFirst => exact .inl rfl
  | overwrite =>
    have hlookup := lookup_overlayMap answer.annotations sent.annotations
      watchdogTimeoutSecondsAnnotation
    unfold getWatchdogTimeout DecodeMode.node
    dsimp only
    rw [hlookup]
    cases answer.annotations.lookup watchdogTimeoutSecondsAnnotation with
    | some value => exact .inl rfl
    | none => exact .inr rfl

theorem getWatchdogTimeout_patchedNode (base changed node : Node) :
    getWatchdogTimeout (patchedNode base changed node) = getWatchdogTimeout node := by
  unfold patchedNode
  split <;> rfl

variable {r : Reconciler} {node : Node}

/-- The node that `addTaint` returns is the target node still, as far as its watchdog
timeout goes. -/
theorem wp_addTaint_target (taint : Taint) (h : During snr (TargetMet snr node) w.record) :
    prepareOutline.wp (addTaint r taint node m) (Leaves
      (fun node w => During snr (TimeoutMet snr node) w.record) (fun _ _ => True) m) w := by
  have hlasts := lasts_targetMet snr node
  refine wp_addTaint_leaves (fun _ => Outline.stable_const) (During.reading hlasts)
    (fun _ => stable_record _) (fun _ => h.mono fun _ hmet => ⟨node, rfl, hmet⟩)
    (fun now => ⟨fun _ _ => trivial, ?_, fun _ _ _ => trivial⟩) h
  rintro answer w w' - ⟨calls, hduring, hmet⟩ he
  obtain ⟨stored, hstored, hanswer⟩ := he.1.patchNode.stored
  refine ⟨_, hduring.exec he nofun, ?_⟩
  rcases getWatchdogTimeout_decode r.decode answer (withTaint taint now node)
    with htimeout | htimeout
  · obtain ⟨name, hname, hmet⟩ := hmet
    rw [hanswer, getWatchdogTimeout_patchedNode, ← hanswer] at htimeout
    refine ⟨stored, htimeout, name, lasts_targetName snr name _ calls hname, ?_⟩
    exact .patched (lasts_nodeMet name node _ calls hmet) List.mem_cons_self hstored
  · exact ⟨node, htimeout, hlasts _ calls hmet⟩

/-- The duration that `calculateRebootDuration` returns is the one that the record gives. -/
theorem wp_calculateRebootDuration_target (h : During snr (TimeoutMet snr node) w.record) :
    prepareOutline.wp (calculateRebootDuration node m)
      (Leaves (fun d w => Calculates w.record d) (fun _ _ => True) m) w := by
  have hend (res : Except GoErr Duration × Mem) : prepareOutline.Stable
      (Leaves (fun d w => Calculates w.record d) (fun _ _ => True) m res) :=
    stable_leaves (fun d => stable_record fun record => Calculates record d)
      (fun _ => Outline.stable_const) res
  refine Session.wp_call (stable_record _) h (fun _ _ _ => trivial) ?_
  rintro wConfig answer w₁ - ⟨calls, hduring, met, htimeout, hmet⟩ he -
  cases answer with
  | none => exact Session.wp_ret (hend (.error _, m)) (leaves_error trivial)
  | some spec =>
    obtain ⟨config, hconfig, rfl⟩ := he.1.calculatorConfig
    refine Session.wp_call (stable_record fun record =>
      record = ⟨.calculatorConfig, wConfig.world, some config.spec⟩ :: wConfig.record) he.2
      (fun _ _ _ => trivial) ?_
    rintro wWorkers nodes w₂ - hrecord he -
    cases hduration : getRebootDuration config.spec node nodes with
    | error e => exact Session.wp_ret (hend (.error e, m)) (leaves_error trivial)
    | ok d =>
      obtain ⟨workers, rfl⟩ := getRebootDuration_ne_error hduration
      refine Session.wp_ret (hend (.ok d, m)) (leaves_ok ?_)
      rw [he.2, hrecord]
      exact .intro hduring hmet hconfig he.1.listWorkerNodes
        ((getRebootDuration_congr htimeout).symm.trans hduration)

/-- The assumed reboot time is logged with the clock and the duration of the record. -/
theorem wp_setTimeAssumedRebooted_target (h : During snr (TimeoutMet snr node) w.record) :
    prepareOutline.wp (setTimeAssumedRebooted node m) (fun _ _ => True) w := by
  have hend {res : Except GoErr Unit × Mem} {w : RecordedCluster} :
      prepareOutline.wp (Prog.ret res) (fun _ _ => True) w :=
    Session.wp_ret Outline.stable_const trivial
  refine wp_theSNR ?_
  split
  · exact hend
  · refine Leaves.wp_bind (wp_calculateRebootDuration_target h) (fun d w _ hd => ?_)
      fun _ _ _ _ => hend
    refine Session.wp_call (stable_record fun record => Calculates record d) hd
      (fun _ _ _ => trivial) ?_
    rintro w now w₁ - hd he -
    have hnow : Prepares w₁.record ⟨now, d⟩ := by
      rw [he.2, he.1.now]
      exact .intro hd
    exact Session.wp_call (stable_record fun record => Prepares record ⟨now, d⟩) hnow
      (fun _ _ hw => hw) fun _ _ _ _ _ _ _ => hend

/-! ## 6. The manager -/

/-- Every other call is allowed at any time. -/
theorem upkeep_prepare (r : Reconciler) : Upkeep prepareOutline r fun _ _ => True where
  stable _ := Outline.stable_const
  beside {c m w} hc _ _ := by
    refine ⟨?_, fun _ _ _ => trivial⟩
    cases c with
    | logTimeAssumedRebooted _ _ => cases hc
    | _ => trivial
  condition _ h := h
  noted h := h
  assign h _ _ := h
  update _ _ := ⟨trivial, fun _ _ _ => trivial⟩
  patch _ _ _ := ⟨trivial, fun _ _ _ => trivial⟩

theorem wp_prepareReboot_target (h : During snr (TargetMet snr node) w.record) :
    prepareOutline.wp (prepareReboot r node m) (Ends AnyError fun _ _ => True) w := by
  have hU := upkeep_prepare r
  have hR : Reading prepareOutline AnyError fun w => During snr (TargetMet snr node) w.record :=
    During.reading (lasts_targetMet snr node)
  refine wp_prepareReboot_ends hU.stable
    (Keeps.failed (keeps_isNodeRebootCapable hR node h) fun _ _ _ => trivial)
    (fun _ _ => trivial) (fun _ _ _ => trivial) (fun _ _ _ _ => hU.addFinalizer trivial)
    (fun _ _ _ h => Leaves.wp_mono (wp_addTaint_target _ h) (fun _ _ _ h => h)
      fun _ _ _ _ => ⟨trivial, trivial⟩) ?_
  intro _ node w _ h
  exact Outline.wp_mono (wp_setTimeAssumedRebooted_target h)
    fun _ _ _ _ => ⟨fun _ => trivial, fun _ _ => ⟨trivial, trivial⟩⟩

end

/-- The copy is the one that was read until the target node is found. -/
def prepareStages : Stages RecordedCluster where
  read := HasRead
  checked m _ := HasRead m
  begun := HasRead
  missing _ _ _ := True
  found _ node w := ∃ snr, During snr (TargetMet snr node) w.record
  chosen _ node _ w := ∃ snr, During snr (TargetMet snr node) w.record
  ended _ _ := True

theorem prepare_walk (r : Reconciler) : Walk prepareOutline r AnyError prepareStages where
  values _ _ := trivial
  stable _ := Outline.stable_const
  config {m w} h := Keeps.failed (keeps_isConfigurationExist (persists_hasRead.reading m) h)
    fun _ _ _ => trivial
  disabled {m _} _ _ := wp_disabledNoConfig_ends ((upkeep_prepare r).reading m) trivial
    (fun _ => Outline.stable_const) fun _ _ _ _ _ => trivial
  stopped _ _ _ := (upkeep_prepare r).stoppedByNHC trivial
  start _ h := persists_hasRead.markStarted h
  target {m w} h := by
    obtain ⟨snr, hcopy, h⟩ := h
    exact Leaves.wp_mono (wp_getNodeFromSnr_target hcopy h) (fun _ _ _ h => ⟨snr, h⟩)
      fun _ _ _ _ => trivial
  absent _ _ := (upkeep_prepare r).nodeNotFound _ trivial
  excluded _ _ := trivial
  strategy {m node w} h := by
    obtain ⟨snr, h⟩ := h
    exact Leaves.wp_mono (Keeps.failed
      (keeps_getRuntimeStrategy (During.reading (lasts_targetMet snr node)) _ h)
      fun _ _ _ => trivial) (fun _ _ _ h => ⟨snr, h⟩) fun _ _ _ h => h
  unhandled _ _ := trivial
  prepare _ _ h := by
    obtain ⟨snr, h⟩ := h
    exact wp_prepareReboot_target h
  wait _ _ _ := (upkeep_prepare r).waitForNodeRebooted trivial
  delete {_ node _} _ _ _ := (upkeep_prepare r).handleRebootCompletedPhase
    ((upkeep_prepare r).deleteResourcesWrapper node trivial)
  evict {_ node _} _ _ _ := (upkeep_prepare r).handleRebootCompletedPhase
    ((upkeep_prepare r).useOutOfServiceTaint r node trivial)
  finish {_ node _ _} _ _ _ := (upkeep_prepare r).handleFencingCompletedPhase node trivial

/-- An assumed reboot time is logged only by a `prepareReboot`. -/
theorem reconcileManager_prepares (r : Reconciler) (w : RecordedCluster) :
    prepareOutline.wp (reconcileManager r) (fun _ _ => True) w := by
  refine Outline.wp_mono ((prepare_walk r).reconcileManager
    ((upkeep_prepare r).closes fun _ _ => trivial) (Outline.stable_const (p := True)) trivial
    (fun _ _ _ => trivial) ?_) fun _ _ _ _ => trivial
  intro snr w w' _ _ he _
  have h : During snr.value (fun _ => True) w'.record := by
    rw [he.2]
    exact ⟨[], .intro (he.1.getSNR rfl).1 (fun _ h => nomatch h), trivial⟩
  exact ⟨snr.value, ⟨snr.value.status.conditions, rfl⟩, h⟩

end SelfNodeRemediation
