import SelfNodeRemediation.DisabledOutline

/-!
# The Disabled condition

Two reconcilers of the manager share the condition `Disabled`: `ReconcileManager`
sets it when it finds no configuration, and the reconciler of the configuration
removes it.

* `not_disabled_of_quiescent`: over the runs whose steps are in order, when there is a
  configuration and no reconcile is in progress or pending, no SelfNodeRemediation is
  disabled.
* `disabled_stale`: a reconcile that has found the configuration missing writes the
  condition after the SelfNodeRemediations were listed, and nothing removes it.
* `disabled_overwritten`: a reconcile writes back the condition of its copy after it was
  removed.
-/

namespace SelfNodeRemediation.DisabledCondition

open Interaction Versioned
open ConfigReconciler (InstalledConfig)

/-! ## 1. Runs of a small manager -/

/-- Where nothing goes wrong with the calls of a reconcile. -/
def serveSNR (key : Key) (c : Call) (w : World) : Resp c × World :=
  ((serve c (w.view key)).1, (w.wrote key (serve c (w.view key)).2).noted (.snr key)
    (Progress.afterCall c (serve c (w.view key)).1))

def World.requested (w : World) : World := { w with queue := enqueued .config w.queue }

def smallInstalled (deletionTimestamp : Option Time) : InstalledConfig :=
  ⟨deletionTimestamp, "", 30001⟩

/-- Where nothing goes wrong with the calls for the configuration, and the agents are
installed already or not. -/
def serveConfig (installed : Bool) : (c : ConfigReconciler.Call) → World →
    ConfigReconciler.Resp c × World
  | .getConfig, w =>
    (match w.config with
      | some deletionTimestamp => .ok (smallInstalled deletionTimestamp)
      | none => .error (notFound configKind configCRName), w)
  | .setCalculatorConfig _, w => ((), w)
  | .syncCerts, w => (none, w)
  | .lookupIP _, w => (.ok [], w)
  | .cachedResolve _ _, w => ([], w)
  | .syncDaemonSet _, w => (none, if installed then w else w.requested)
  | .getNetworkPolicy, w =>
    (if installed then .ok ⟨0, ConfigReconciler.networkPolicy (smallInstalled none) []⟩
      else .error (notFound "NetworkPolicy.networking.k8s.io" "self-node-remediation"), w)
  | .createNetworkPolicy _, w => (none, w.requested)
  | .updateNetworkPolicy _, w => (none, w.requested)
  | .listSNRs, w => (.ok w.list, w.noted .config fun p => { p with listed := true })
  | .updateSNRStatus sent, w =>
    (errorIn (serve (.updateSNRStatus sent) (w.view (keyOf sent.value))).1,
      w.wrote (keyOf sent.value) (serve (.updateSNRStatus sent) (w.view (keyOf sent.value))).2)

theorem exec_serveSNR (key : Key) (c : Call) (w : World) :
    SNRExec key c w (serveSNR key c w).1 (serveSNR key c w).2 :=
  ⟨_, .served, rfl⟩

theorem exec_serveConfig (installed : Bool) (c : ConfigReconciler.Call) (w : World) :
    ConfigExec c w (serveConfig installed c w).1 (serveConfig installed c w).2 := by
  have hunchanged : Installed w w := .unchanged ⟨rfl, rfl⟩
  have hchanged : Installed w w.requested := .changed ⟨rfl, rfl⟩
  cases c with
  | getConfig =>
    simp only [serveConfig]
    split
    · next hconfig => exact .getConfig hconfig
    · next hconfig => exact .getFailed fun _ => hconfig
  | syncDaemonSet config =>
    refine .install rfl ?_
    cases installed with
    | true => exact hunchanged
    | false => exact hchanged
  | createNetworkPolicy np => exact .install rfl hchanged
  | updateNetworkPolicy np => exact .install rfl hchanged
  | listSNRs => exact .listSNRs
  | updateSNRStatus sent => exact .updateSNRStatus .served
  | setCalculatorConfig config => exact .install rfl hunchanged
  | syncCerts => exact .install rfl hunchanged
  | lookupIP url => exact .install rfl hunchanged
  | cachedResolve url resolved => exact .install rfl hunchanged
  | getNetworkPolicy => exact .install rfl hunchanged

def smallKey : Key := ("snr", "worker-1")

/-- One SelfNodeRemediation. -/
def smallWorld (snr : SNR) (config : Option (Option Time)) (queue : List Request) : World where
  remediations :=
    { shared := { smallCluster with config := fun ns => if ns = "snr" then config else none }
      stored := fun key => { store := ⟨snr, []⟩, gone := key ≠ smallKey } }
  keys := [smallKey]
  queue := queue
  runs _ := none

theorem started_smallWorld {snr : SNR} {config : Option (Option Time)} {queue : List Request}
    (hkey : keyOf snr = smallKey) (h : config = none ∨ .config ∈ queue) :
    Started (smallWorld snr config queue) := by
  refine ⟨fun key hlive => ?_, fun _ => rfl, fun hconfig => ?_⟩
  · obtain rfl : key = smallKey := not_not.mp (of_decide_eq_false hlive)
    exact ⟨hkey, List.mem_singleton.mpr rfl⟩
  · rcases h with rfl | h
    · exact nomatch hconfig
    · exact h

/-- The rest of a reconcile that nothing disturbs. -/
def finishSNR (rest : Prog Call Resp Reconciled) (w : World) : World :=
  (rest.eval (serveSNR smallKey) w).2.finished (.snr smallKey)
    (requeuesSNR (rest.eval (serveSNR smallKey) w).1)

def runSNR (r : Reconciler) (w : World) : World :=
  finishSNR (reconcileManager r) (w.started (.snr smallKey))

def runConfig (installed : Bool) (w : World) : World :=
  (ConfigReconciler.reconcile.eval (serveConfig installed) (w.started .config)).2.finished .config
    (requeuesConfig (ConfigReconciler.reconcile.eval (serveConfig installed) (w.started .config)).1)

/-- A reconcile that has made its first calls. -/
def readSNR (r : Reconciler) (calls : Nat) (w : World) : Prog Call Resp Reconciled × World :=
  (reconcileManager r).after (serveSNR smallKey) calls (w.started (.snr smallKey))

def idle : (req : Request) → Option (Prog (RequestCall req) (RequestResp req) (RequestRes req)) :=
  fun _ => none

/-- Only one reconcile of the SelfNodeRemediation is in progress. -/
def reading (rest : Prog Call Resp Reconciled) :
    (req : Request) → Option (Prog (RequestCall req) (RequestResp req) (RequestRes req)) :=
  Function.update idle (.snr smallKey) (some rest)

/-- No reconcile in progress has found the configuration missing. -/
def Unlapsed (w : World) : Prop :=
  ∀ key p, w.runs (.snr key) = some p → p.foundMissing = false

/-- The steps `ok` are any, except that a list is made in worlds of `P`. -/
structure Allows (ok : Act RequestCall → World → World → Prop) (P : World → Prop) : Prop where
  ok : ∀ {a w w'}, (a = .call .config .listSNRs → P w) → ok a w w'
  starts : ∀ {w}, P w → P (w.started .config)
  keeps : ∀ {installed c w}, P w → P (serveConfig installed c w).2

theorem allows_any : Allows (fun _ _ _ => True) fun _ => True :=
  ⟨fun _ => trivial, fun _ => trivial, fun _ => trivial⟩

/-- The steps that are in order for a client that empties the copy. -/
theorem allows_orderly : Allows (Orderly smallManager) Unlapsed where
  ok h := ⟨h, fun hdecode => nomatch hdecode⟩
  starts hw key p hp := hw key p ((runs_started_of_ne (snr_ne_config key)).symm.trans hp)
  keeps {installed c w} hw key p hp := by
    cases c with
    | listSNRs => exact hw key p ((runs_noted_of_ne (snr_ne_config key) _).symm.trans hp)
    | syncDaemonSet config => cases installed <;> exact hw key p hp
    | _ => exact hw key p hp

section SmallRuns

variable {r : Reconciler} {ok : Act RequestCall → World → World → Prop} {P : World → Prop}
  {w₀ w : World}
  {ps : (req : Request) → Option (Prog (RequestCall req) (RequestResp req) (RequestRes req))}

theorem Allows.servesSNR (ha : Allows ok P) :
    Team.Served (manager r) ok (fun _ => True) (.snr smallKey) (serveSNR smallKey) :=
  ⟨fun c w _ => exec_serveSNR smallKey c w, fun _ _ _ => ha.ok nofun, fun _ _ _ => trivial⟩

theorem Allows.servesConfig (ha : Allows ok P) (installed : Bool) :
    Team.Served (manager r) ok P .config (serveConfig installed) :=
  ⟨fun c w _ => exec_serveConfig installed c w, fun _ _ hw => ha.ok fun _ => hw,
    fun _ _ hw => ha.keeps hw⟩

theorem Allows.readSNR (ha : Allows ok P) (calls : Nat)
    (h : (manager r).Reachable ok w₀ ⟨w, idle⟩) (hready : .snr smallKey ∈ w.queue) :
    (manager r).Reachable ok w₀
      ⟨(readSNR r calls w).2, reading (DisabledCondition.readSNR r calls w).1⟩ :=
  (Team.Reachable.after ha.servesSNR calls trivial
    (h.start rfl hready (ha.ok nofun))).2

theorem Allows.finishSNR (ha : Allows ok P) {rest : Prog Call Resp Reconciled}
    (h : (manager r).Reachable ok w₀ ⟨w, reading rest⟩) :
    (manager r).Reachable ok w₀ ⟨finishSNR rest w, idle⟩ :=
  h.finish ha.servesSNR rfl (fun _ _ _ => ha.ok nofun) trivial

theorem Allows.runSNR (ha : Allows ok P) (h : (manager r).Reachable ok w₀ ⟨w, idle⟩)
    (hready : .snr smallKey ∈ w.queue) :
    (manager r).Reachable ok w₀ ⟨runSNR r w, idle⟩ :=
  ha.finishSNR (ha.readSNR 0 h hready)

theorem Allows.runConfig (ha : Allows ok P) (installed : Bool)
    (h : (manager r).Reachable ok w₀ ⟨w, ps⟩) (hidle : ps .config = none)
    (hready : .config ∈ w.queue) (hw : P w) :
    (manager r).Reachable ok w₀ ⟨runConfig installed w, ps⟩ :=
  h.run (ha.servesConfig installed) hidle (fun _ _ _ => ha.ok nofun) hready
    (ha.ok nofun) (ha.starts hw)

end SmallRuns

/-! ## 2. No stale condition -/

theorem Started.inv {w : World} (h : Started w) : Inv w :=
  ⟨h.keyed, fun _ hconfig _ _ => h.requested hconfig⟩

/-- Over the runs whose steps are in order: while there is a configuration and no
reconcile is in progress or pending, no SelfNodeRemediation is disabled. -/
theorem not_disabled_of_quiescent (r : Reconciler) {w₀ : World} (h₀ : Started w₀)
    {s : TeamState RequestCall RequestResp RequestRes World}
    (h : (manager r).Reachable (Orderly r) w₀ s) (hquiescent : Quiescent s)
    (hconfig : s.world.HasConfig) (key : Key) : ¬s.world.Disabled key := by
  intro hd
  have hidle : s.world.runs .config = none := by
    have hnoted := noted_reachable h₀ h .config
    rw [hquiescent.1 .config] at hnoted
    exact Option.isSome_eq_false_iff.mp hnoted |> Option.isNone_iff_eq_none.mp
  have hinv := ((proved r).reachable h₀.inv h).1
  have hpending := hinv.swept hidle hconfig key hd
  rw [hquiescent.2] at hpending
  exact nomatch hpending

def smallCondition : Condition :=
  ⟨.disabled, .true_, 1000000000000, ConditionReason.snrDisabledNoConfig.toString,
    "SelfNodeRemediation is disabled because configuration does not exist"⟩

/-- NHC has stopped the remediation, the configuration has come back, and its reconcile
is pending. -/
def smallDisabled : World :=
  smallWorld { withTimeout smallSNR with status := ⟨none, none, "", [smallCondition]⟩ } (some none)
    [.config]

/-- The configuration's reconcile removes the condition, and the two reconciles of the
SelfNodeRemediation that follow end without a further request. -/
theorem not_disabled_small :
    smallDisabled.Disabled smallKey ∧
      ¬(runSNR smallManager (runSNR smallManager (runConfig true smallDisabled))).Disabled
        smallKey := by
  have hstarted : Started smallDisabled :=
    started_smallWorld rfl (.inr (List.mem_singleton.mpr rfl))
  have h₁ : (manager smallManager).Reachable (Orderly smallManager) smallDisabled
      ⟨runConfig true smallDisabled, idle⟩ :=
    allows_orderly.runConfig true .refl rfl (List.mem_singleton.mpr rfl) fun _ _ hp => nomatch hp
  have h₂ := allows_orderly.runSNR h₁ (by decide +kernel)
  have h₃ := allows_orderly.runSNR h₂ (by decide +kernel)
  refine ⟨by decide +kernel, ?_⟩
  exact not_disabled_of_quiescent smallManager hstarted h₃
    ⟨fun _ => rfl, by decide +kernel⟩ (by decide +kernel) smallKey

/-! ## 3. Stale conditions -/

/-- NHC has stopped the remediation, and there is no configuration. -/
def smallMissing : World := smallWorld (withTimeout smallSNR) none [.snr smallKey]

/-- The configuration is created when a reconcile of the SelfNodeRemediation has just
found it missing, and it is reconciled, once more after the agents were installed. -/
def smallListed : World :=
  runConfig true (runConfig false
    ((readSNR smallManager 3 smallMissing).2.setConfig "snr" (some none)))

/-- The reconcile of the SelfNodeRemediation then writes the condition, and those that
follow leave it. -/
def smallStale : World :=
  runSNR smallManager (runSNR smallManager
    (finishSNR (readSNR smallManager 3 smallMissing).1 smallListed))

/-- The condition that was written after the list stays for good. -/
theorem disabled_stale :
    ¬∀ (r : Reconciler) (w₀ : World) (s : TeamState RequestCall RequestResp RequestRes World),
      Started w₀ → (manager r).Reachable (fun _ _ _ => True) w₀ s → Quiescent s →
      s.world.HasConfig → ∀ key, ¬s.world.Disabled key := by
  intro hall
  have hread := allows_any.readSNR 3 (r := smallManager) (w := smallMissing) .refl
    (List.mem_singleton.mpr rfl)
  have hns : (readSNR smallManager 3 smallMissing).2.deploymentNamespace = some "snr" := by
    decide +kernel
  have hcreated : (manager smallManager).Reachable (fun _ _ _ => True) smallMissing
      ⟨(readSNR smallManager 3 smallMissing).2.setConfig "snr" (some none),
        reading (readSNR smallManager 3 smallMissing).1⟩ :=
    hread.tail ⟨_, .env (.config hns), trivial⟩
  have hinstalled := allows_any.runConfig false hcreated rfl (by decide +kernel) trivial
  have hlisted := allows_any.runConfig true hinstalled rfl (by decide +kernel) trivial
  have hwritten := allows_any.finishSNR hlisted
  have h₁ := allows_any.runSNR hwritten (by decide +kernel)
  have h₂ : (manager smallManager).Reachable (fun _ _ _ => True) smallMissing ⟨smallStale, idle⟩ :=
    allows_any.runSNR h₁ (by decide +kernel)
  exact hall smallManager _ _ (started_smallWorld rfl (.inl rfl)) h₂
    ⟨fun _ => rfl, by decide +kernel⟩ (by decide +kernel) smallKey (by decide +kernel)

/-- A remediation that is over, and was disabled since. -/
def smallOver : World :=
  smallWorld { smallSNR with
      status := ⟨none, some fencingCompletedPhase, "Internal error", [smallCondition]⟩ }
    (some none) [.config, .snr smallKey]

/-- The condition is removed after a reconcile of the SelfNodeRemediation has read it;
the answer to its patch of the last error then has no conditions, and leaves those of
the copy. -/
def smallOverwritten : World :=
  runSNR overwritingManager (finishSNR (readSNR overwritingManager 1 smallOver).1
    (runConfig true (readSNR overwritingManager 1 smallOver).2))

/-- Lists that are in order are not enough where answers are decoded over the copy. -/
theorem disabled_overwritten :
    ∃ s, (manager overwritingManager).Reachable (Orderly smallManager) smallOver s ∧
      Started smallOver ∧ Quiescent s ∧ s.world.HasConfig ∧ s.world.Disabled smallKey := by
  have hstarted : Started smallOver := started_smallWorld rfl (.inr List.mem_cons_self)
  have hread := allows_orderly.readSNR 1 (r := overwritingManager) (w := smallOver) .refl
    (by decide +kernel)
  have hunlapsed : Unlapsed (readSNR overwritingManager 1 smallOver).2 := by
    intro key p hp
    by_cases hkey : key = smallKey
    · subst hkey
      have hrun : (readSNR overwritingManager 1 smallOver).2.runs (.snr smallKey) =
        ((smallOver.started (.snr smallKey)).runs (.snr smallKey)).map _ := runs_noted_self _
      rw [hrun, runs_started_self] at hp
      cases hp
      rfl
    · have hne : Request.snr key ≠ .snr smallKey := fun h => hkey (Request.snr.inj h)
      have hrun : (readSNR overwritingManager 1 smallOver).2.runs (.snr key) =
        (smallOver.started (.snr smallKey)).runs (.snr key) := runs_noted_of_ne hne _
      rw [hrun, runs_started_of_ne hne] at hp
      cases hp
  have hremoved := allows_orderly.runConfig true hread rfl (by decide +kernel) hunlapsed
  have hwritten := allows_orderly.finishSNR hremoved
  have hover : (manager overwritingManager).Reachable (Orderly smallManager) smallOver
    ⟨smallOverwritten, idle⟩ := allows_orderly.runSNR hwritten (by decide +kernel)
  exact ⟨_, hover, hstarted, ⟨fun _ => rfl, by decide +kernel⟩, by decide +kernel,
    by decide +kernel⟩

end SelfNodeRemediation.DisabledCondition
