import SelfNodeRemediation.Controllers
import SelfNodeRemediation.StatusWrites
import SelfNodeRemediation.Upkeep

/-!
# The proof outline of the Disabled condition

`ReconcileManager` sets the condition `Disabled` when it finds no configuration, and
the reconciler of the configuration removes it from every SelfNodeRemediation it
lists. What the two rely on, and that each keeps to it.

* `Inv`: while there is a configuration and nobody reconciles it, a disabled
  SelfNodeRemediation means that a reconcile of the configuration is pending.
* `Awaited`: the SelfNodeRemediations will be listed yet. Whoever sets the condition
  has to see to that.
* `Mirrors`: a copy of the current version is disabled only if the object is.
* `proved`: the two reconcilers, over the runs whose steps are in order.
-/

namespace SelfNodeRemediation.DisabledCondition

open Interaction Versioned
open ConfigReconciler (InstalledConfig isDisabled withoutDisabled)

/-! ## 1. The condition -/

theorem isDisabled_congr {a b : SNR} (h : a.status.conditions = b.status.conditions) :
    isDisabled a = isDisabled b :=
  congrArg (isStatusConditionPresentAndEqual · .disabled .true_) h

theorem isDisabled_of_conditions_nil {snr : SNR} (h : snr.status.conditions = []) :
    isDisabled snr = false := by
  unfold isDisabled
  rw [h]
  rfl

theorem isDisabled_serialize (snr : SNR) (status : Status) :
    isDisabled { snr with status := status.serialize } = isDisabled { snr with status := status } :=
  presentAndEqual_serialize status .disabled .true_

theorem isDisabled_withoutDisabled (snr : SNR) : isDisabled (withoutDisabled snr) = false := by
  have hnone : findStatusCondition (withoutDisabled snr).status.conditions .disabled = none := by
    refine List.find?_eq_none.mpr fun c hc => ?_
    have hne := (List.mem_filter.mp hc).2
    rw [bne, Bool.not_eq_true'] at hne
    exact Bool.eq_false_iff.mp hne
  unfold isDisabled isStatusConditionPresentAndEqual
  rw [hnone]

/-! ## 2. The invariant -/

/-- If there is a configuration, the SelfNodeRemediations will be listed yet. -/
def Awaited (w : World) : Prop :=
  w.HasConfig → .config ∈ w.queue ∨ ∃ p, w.runs .config = some p ∧ p.listed = false

def Keyed (w : World) : Prop :=
  ∀ key, (w.view key).gone = false → keyOf (w.view key).snr.current = key ∧ key ∈ w.keys

structure Inv (w : World) : Prop where
  keyed : Keyed w
  swept : w.runs .config = none → w.HasConfig → ∀ key, w.Disabled key → .config ∈ w.queue

/-- A move besides the runs for the configuration. -/
structure Move (w w' : World) : Prop where
  config : w'.HasConfig → w.HasConfig ∨ .config ∈ w'.queue
  queue : .config ∈ w.queue → .config ∈ w'.queue
  runs : w'.runs .config = w.runs .config
  disabled : ∀ key, w'.Disabled key → w.Disabled key ∨ Awaited w'

section Move

variable {w w' : World}

theorem Move.refl (w : World) : Move w w := ⟨.inl, id, rfl, fun _ => .inl⟩

theorem Move.awaited (h : Move w w') (ha : Awaited w) : Awaited w' := by
  intro hconfig
  rcases h.config hconfig with hconfig | hq
  · rw [h.runs]
    exact (ha hconfig).imp_left h.queue
  · exact .inl hq

theorem Move.inv (h : Move w w') (hi : Inv w) (hk : Keyed w') : Inv w' := by
  refine ⟨hk, fun hidle hconfig key hd => ?_⟩
  rcases h.disabled key hd with hd | ha
  · rcases h.config hconfig with hc | hq
    · exact h.queue (hi.swept (h.runs ▸ hidle) hc key hd)
    · exact hq
  · rcases ha hconfig with hq | ⟨p, hp, -⟩
    · exact hq
    · exact nomatch hidle.symm.trans hp

end Move

/-- What a write does to the object it is about. -/
structure Effect (w : World) (key : Key) (cluster : Cluster) : Prop where
  config : cluster.config = (w.view key).config ∧
    cluster.deploymentNamespace = (w.view key).deploymentNamespace
  live : cluster.gone = false → (w.view key).gone = false
  sameKey : keyOf cluster.snr.current = keyOf (w.view key).snr.current
  disabled : isDisabled cluster.snr.current = true →
    isDisabled (w.view key).snr.current = true ∨ Awaited w

section Effect

variable {w : World} {key : Key} {cluster : Cluster}

theorem Effect.keyed (h : Effect w key cluster) (hk : Keyed w) : Keyed (w.wrote key cluster) := by
  intro key' hlive
  by_cases hkey : key' = key
  · subst hkey
    rw [view_wrote_self] at hlive ⊢
    rw [h.sameKey]
    exact hk key' (h.live hlive)
  · rw [view_wrote_of_ne hkey] at hlive ⊢
    exact hk key' hlive

/-- A write that does not set the condition. -/
theorem wrote_move (h : cluster.config = (w.view key).config ∧
      cluster.deploymentNamespace = (w.view key).deploymentNamespace)
    (hdisabled : cluster.gone = false → isDisabled cluster.snr.current = true →
      w.Disabled key ∨ Awaited w) : Move w (w.wrote key cluster) := by
  have hconfig := hasConfig_wrote h
  have hawaited : Awaited w → Awaited (w.wrote key cluster) := by
    intro ha hc
    exact (ha (hconfig.mp hc)).imp_left mem_queue_wrote
  refine ⟨fun hc => .inl (hconfig.mp hc), mem_queue_wrote, rfl, fun key' hd => ?_⟩
  by_cases hkey : key' = key
  · subst hkey
    unfold World.Disabled at hd
    rw [view_wrote_self] at hd
    exact (hdisabled hd.1 hd.2).imp_right hawaited
  · exact .inl ((disabled_wrote_of_ne hkey).mp hd)

theorem Effect.move (h : Effect w key cluster) : Move w (w.wrote key cluster) :=
  wrote_move h.config fun hlive hd =>
    (h.disabled hd).imp_left fun hdis => ⟨h.live hlive, hdis⟩

end Effect

/-- What a write of a status must not do. -/
def AllowedStatus (key : Key) (sent : Revision SNR) (w : World) : Prop :=
  isDisabled sent.value = true → (w.view key).gone = false →
    sent.resourceVersion = (w.view key).snr.resourceVersion →
    isDisabled (w.view key).snr.current = true ∨ Awaited w

theorem effect_updateSNRStatus {w : World} {key : Key} {sent : Revision SNR}
    {a : Except GoErr (Revision SNR)} {cluster : Cluster} (hallowed : AllowedStatus key sent w)
    (he : Exec false (.updateSNRStatus sent) (w.view key) a cluster) : Effect w key cluster := by
  refine ⟨he.config, ?_, ?_, ?_⟩ <;> rcases he.updateSNRStatus.world with rfl | ⟨hguard, rfl⟩
  · exact id
  · exact id
  · rfl
  · unfold Cluster.storeStatus
    rw [Store.putIfChanged_current]
    rfl
  · exact .inl
  · unfold Cluster.storeStatus
    rw [Store.putIfChanged_current, isDisabled_serialize]
    exact fun hd => hallowed hd hguard.1 hguard.2

def allowedSNR (key : Key) : Call → World → Prop
  | .updateSNRStatus sent, w => AllowedStatus key sent w
  | .patchSNRStatus base changed, _ => base.status.conditions = changed.status.conditions
  | _, _ => True

/-- A patch between two statuses with the same conditions. -/
theorem merged_conditions {base changed stored : Status}
    (h : base.conditions = changed.conditions) :
    (merged base.serialize changed.serialize stored).conditions = stored.conditions := by
  unfold merged Status.serialize
  rw [h]
  exact if_pos rfl

theorem effect_of_exec {w : World} {key : Key} {c : Call} {a : Resp c} {cluster : Cluster}
    (hallowed : allowedSNR key c w) (he : Exec false c (w.view key) a cluster) :
    Effect w key cluster := by
  by_cases hc : c.isAside = true
  · obtain ⟨hsnr, hgone⟩ := he.aside hc
    refine ⟨he.config, ?_, ?_, ?_⟩
    · rw [hgone]
      exact id
    · rw [hsnr]
    · rw [hsnr]
      exact .inl
  · cases c with
    | updateSNRStatus sent => exact effect_updateSNRStatus hallowed he
    | updateSNR sent =>
      refine ⟨he.config, ?_, ?_, ?_⟩ <;> rcases he.updateSNR.world with rfl | ⟨-, rfl⟩
      · exact id
      · exact fun h => (Bool.or_eq_false_iff.mp h).1
      · rfl
      · unfold Cluster.store
        rw [Store.putIfChanged_current]
        rfl
      · exact .inl
      · unfold Cluster.store
        rw [Store.putIfChanged_current]
        exact .inl
    | patchSNRStatus base changed =>
      refine ⟨he.config, ?_, ?_, ?_⟩ <;> rcases he.patchSNRStatus.world with rfl | ⟨-, rfl⟩
      · exact id
      · exact id
      · rfl
      · unfold Cluster.storeStatus
        rw [Store.putIfChanged_current]
        rfl
      · exact .inl
      · unfold Cluster.storeStatus
        rw [Store.putIfChanged_current, isDisabled_congr (merged_conditions hallowed)]
        exact .inl
    | _ => exact absurd rfl hc

/-! ## 3. What the workers rely on -/

/-- A SelfNodeRemediation after moves of others. -/
structure Renewed (r : Reconciler) (before after : Cluster) : Prop where
  version : before.snr.resourceVersion ≤ after.snr.resourceVersion
  conditions : after.snr.current.status.conditions = before.snr.current.status.conditions ∨
    before.snr.resourceVersion < after.snr.resourceVersion ∧
      (r.decode = .overwrite → after.snr.current.status.conditions = [] →
        before.snr.current.status.conditions = [])

/-- What the reconcile of a SelfNodeRemediation relies on. -/
structure SNRRely (r : Reconciler) (key : Key) (w w' : World) : Prop where
  deploymentNamespace : w'.deploymentNamespace = w.deploymentNamespace
  runs : w'.runs (.snr key) = w.runs (.snr key)
  object : (w.runs (.snr key)).isSome = true → Renewed r (w.view key) (w'.view key)
  awaited : ∀ p, w.runs (.snr key) = some p → p.foundMissing = true → Awaited w → Awaited w'

/-- If there is a configuration, the disabled SelfNodeRemediations were listed and are
among those to do, or there is another request. -/
def Swept (todo : List (Revision SNR)) (w : World) : Prop :=
  w.HasConfig → .config ∈ w.queue ∨
    (∃ p, w.runs .config = some p ∧ p.listed = true) ∧
      ∀ key, w.Disabled key → ∃ cr ∈ todo, keyOf cr.value = key ∧ isDisabled cr.value = true

/-- The reconciler of the configuration only removes the condition. -/
def allowedConfig : ConfigReconciler.Call → World → Prop
  | .updateSNRStatus sent, _ => isDisabled sent.value = false
  | _, _ => True

def assertions (r : Reconciler) : Assertions RequestCall RequestRes World where
  inv := Inv
  rely
    | .config => Move
    | .snr key => SNRRely r key
  allowed
    | .config => allowedConfig
    | .snr key => allowedSNR key
  post
    | .config => fun outcome w => requeuesConfig outcome = true ∨ Swept [] w
    | .snr _ => fun _ _ => True

section Relies

variable {r : Reconciler} {w w' : World} {key : Key}

theorem renewed_of_eq {before after : Cluster} (h : after.snr = before.snr) :
    Renewed r before after := by
  refine ⟨Nat.le_of_eq ?_, .inl ?_⟩ <;> rw [h]

/-- A write of another party makes a new version, unless it changes nothing. -/
theorem renewed_of_put {before after : Cluster} {snr : SNR}
    (h : after.snr = before.snr ∨ after.snr = before.snr.put snr)
    (hok : r.decode = .overwrite → after.snr.current.status.conditions = [] →
      before.snr.current.status.conditions = []) : Renewed r before after := by
  rcases h with h | h
  · exact renewed_of_eq h
  · have hversion : before.snr.resourceVersion < after.snr.resourceVersion := by
      rw [h]
      exact Nat.lt_succ_self _
    exact ⟨Nat.le_of_lt hversion, .inr ⟨hversion, hok⟩⟩

theorem snrRely_of_move (h : Move w w') (hns : w'.deploymentNamespace = w.deploymentNamespace)
    (hruns : w'.runs (.snr key) = w.runs (.snr key))
    (hobject : (w.runs (.snr key)).isSome = true → Renewed r (w.view key) (w'.view key)) :
    SNRRely r key w w' :=
  ⟨hns, hruns, hobject, fun _ _ _ => h.awaited⟩

theorem snrRely_refl (w : World) : SNRRely r key w w :=
  snrRely_of_move (.refl w) rfl rfl fun _ => renewed_of_eq rfl

/-- A reconcile of a SelfNodeRemediation gets on. -/
theorem Move.noted (h : Move w w') (key : Key) (f : Progress → Progress) :
    Move w (w'.noted (.snr key) f) := by
  have hruns : (w'.noted (.snr key) f).runs .config = w'.runs .config :=
    runs_noted_of_ne (config_ne_snr key) f
  refine ⟨h.config, h.queue, hruns.trans h.runs, fun key' hd => ?_⟩
  refine (h.disabled key' hd).imp_right fun ha hconfig => ?_
  rw [hruns]
  exact ha hconfig

/-- A write to one SelfNodeRemediation, for the reconcile of any. -/
theorem wrote_snrRely {key' : Key} {cluster : Cluster} (h : Move w (w.wrote key cluster))
    (hns : cluster.deploymentNamespace = w.deploymentNamespace)
    (hobject : key' = key → (w.runs (.snr key)).isSome = true → Renewed r (w.view key) cluster) :
    SNRRely r key' w (w.wrote key cluster) := by
  refine snrRely_of_move h hns rfl fun hrun => ?_
  by_cases hkey : key' = key
  · subst hkey
    rw [view_wrote_self]
    exact hobject rfl hrun
  · rw [view_wrote_of_ne hkey]
    exact renewed_of_eq rfl

end Relies

/-! ## 4. Moves of others, starts and ends -/

section Moves

variable {r : Reconciler} {w w' : World} {shared : Cluster}

theorem hasConfig_setShared (h : Unwatched w shared) :
    (w.setShared shared).HasConfig ↔ w.HasConfig := by
  show shared.deploymentNamespace.bind shared.config = some none ↔ _
  rw [h.1, h.2]
  rfl

theorem move_setShared (h : Unwatched w shared) : Move w (w.setShared shared) :=
  ⟨fun hc => .inl ((hasConfig_setShared h).mp hc), id, rfl, fun _ => .inl⟩

/-- A request for the configuration. -/
theorem Move.requested (h : Move w w') :
    Move w { w' with queue := enqueued .config w'.queue } :=
  ⟨fun _ => .inr (mem_enqueued.mpr (.inl rfl)), fun _ => mem_enqueued.mpr (.inl rfl), h.runs,
    fun _ _ => .inr fun _ => .inl (mem_enqueued.mpr (.inl rfl))⟩

theorem installed_call (hi : Inv w) (h : Installed w w') :
    Inv w' ∧ ∀ key, SNRRely r key w w' := by
  cases h with
  | unchanged hu =>
    have hm := move_setShared hu
    exact ⟨hm.inv hi hi.keyed, fun _ => snrRely_of_move hm hu.1 rfl fun _ => renewed_of_eq rfl⟩
  | changed hu =>
    have hm := (move_setShared hu).requested
    exact ⟨hm.inv hi hi.keyed, fun _ => snrRely_of_move hm hu.1 rfl fun _ => renewed_of_eq rfl⟩

/-- A new SelfNodeRemediation. -/
theorem keyed_created {key : Key} {snr : SNR} {cluster : Cluster} (hk : Keyed w)
    (hkey : keyOf snr = key) (hsnr : cluster.snr.current = snr) :
    Keyed ((w.wrote key cluster).withKey key) := by
  intro key' hlive
  show keyOf ((w.wrote key cluster).view key').snr.current = key' ∧ _
  by_cases hk' : key' = key
  · subst hk'
    rw [view_wrote_self, hsnr]
    exact ⟨hkey, List.mem_insert_self⟩
  · have hlive : ((w.wrote key cluster).view key').gone = false := hlive
    rw [view_wrote_of_ne hk'] at hlive ⊢
    exact ⟨(hk key' hlive).1, List.mem_insert_of_mem (hk key' hlive).2⟩

theorem env_proved (hi : Inv w) (h : Others w w') (hok : Orderly r .env w w') :
    Inv w' ∧ ∀ req, (assertions r).rely req w w' := by
  cases h with
  | shared hu =>
    have hm := move_setShared hu
    refine ⟨hm.inv hi hi.keyed, fun req => ?_⟩
    cases req with
    | config => exact hm
    | snr key => exact snrRely_of_move hm hu.1 rfl fun _ => renewed_of_eq rfl
  | @config ns config hns =>
    have hm : Move w (w.setConfig ns config) :=
      ⟨fun _ => .inr (mem_enqueued.mpr (.inl rfl)), fun _ => mem_enqueued.mpr (.inl rfl), rfl,
        fun _ => .inl⟩
    refine ⟨hm.inv hi hi.keyed, fun req => ?_⟩
    cases req with
    | config => exact hm
    | snr key => exact snrRely_of_move hm rfl rfl fun _ => renewed_of_eq rfl
  | @edited key snr hlive hkey hstatus =>
    have he : Effect w key ((w.view key).store snr) := by
      refine ⟨⟨rfl, rfl⟩, fun _ => hlive, ?_, ?_⟩ <;> unfold Cluster.store <;>
        rw [Store.putIfChanged_current]
      · exact hkey.trans (hi.keyed key hlive).1.symm
      · exact fun hd => .inl ((isDisabled_congr (congrArg Status.conditions hstatus)).symm.trans hd)
    refine ⟨he.move.inv hi (he.keyed hi.keyed), fun req => ?_⟩
    cases req with
    | config => exact he.move
    | snr key' =>
      refine wrote_snrRely he.move rfl fun _ _ =>
        renewed_of_put (Store.putIfChanged_cases _ snr) ?_
      intro _ hnil
      unfold Cluster.store at hnil
      rw [Store.putIfChanged_current, hstatus] at hnil
      exact hnil
  | @created key snr hgone hkey hstatus =>
    have hm : Move w (w.wrote key (w.created key snr)) := by
      refine wrote_move ⟨rfl, rfl⟩ fun _ hd => ?_
      have hnew := isDisabled_of_conditions_nil (congrArg Status.conditions hstatus)
      exact nomatch hnew.symm.trans hd
    have hmoved : Move w ((w.wrote key (w.created key snr)).withKey key) :=
      ⟨hm.config, hm.queue, hm.runs, hm.disabled⟩
    refine ⟨hmoved.inv hi (keyed_created hi.keyed hkey rfl), fun req => ?_⟩
    cases req with
    | config => exact hmoved
    | snr key' =>
      have hr : SNRRely r key' w (w.wrote key (w.created key snr)) := by
        have hput : (w.created key snr).snr = (w.view key).snr.put snr := rfl
        have hview : ((w.wrote key (w.created key snr)).withKey key).view key =
          w.created key snr := view_wrote_self
        refine wrote_snrRely hm rfl fun _ hrun => renewed_of_put (.inr hput) fun hdecode => ?_
        rw [← hview]
        exact hok.overwriting hdecode key (fun _ h => nomatch h) hrun
      exact ⟨hr.deploymentNamespace, hr.runs, hr.object, hr.awaited⟩

/-- A run for the configuration starts. -/
theorem started_config (hi : Inv w) :
    Inv (w.started .config) ∧ ∀ key, SNRRely r key w (w.started .config) := by
  refine ⟨⟨hi.keyed, fun hidle => nomatch runs_started_self.symm.trans hidle⟩, fun key => ?_⟩
  exact ⟨rfl, runs_started_of_ne (snr_ne_config key), fun _ => renewed_of_eq rfl,
    fun _ _ _ _ _ => .inr ⟨_, runs_started_self, rfl⟩⟩

/-- The reconcile of a SelfNodeRemediation starts or ends. -/
theorem runs_proved (next : World) {key : Key} (hi : Inv w)
    (hview : next.remediations = w.remediations)
    (hkeys : next.keys = w.keys) (hqueue : .config ∈ w.queue → .config ∈ next.queue)
    (hruns : ∀ req, req ≠ .snr key → next.runs req = w.runs req) :
    Inv next ∧ ∀ req, req ≠ .snr key → (assertions r).rely req w next := by
  have hsame : ∀ key', next.view key' = w.view key' := fun key' => congrArg (·.view key') hview
  have hm : Move w next := by
    refine ⟨?_, hqueue, hruns _ (config_ne_snr key), ?_⟩
    · unfold World.HasConfig World.config World.deploymentNamespace
      rw [hview]
      exact .inl
    · unfold World.Disabled
      intro key'
      rw [hsame]
      exact .inl
  have hkeyed : Keyed next := by
    unfold Keyed
    simp only [hsame, hkeys]
    exact hi.keyed
  refine ⟨hm.inv hi hkeyed, fun req hreq => ?_⟩
  cases req with
  | config => exact hm
  | snr key' =>
    refine snrRely_of_move hm ?_ (hruns _ hreq) fun _ => renewed_of_eq ?_
    · exact congrArg (·.shared.deploymentNamespace) hview
    · rw [hsame]

/-- A run for the configuration ends. -/
theorem finished_config {outcome : ConfigReconciler.Outcome} (hi : Inv w)
    (hpost : requeuesConfig outcome = true ∨ Swept [] w) :
    Inv (w.finished .config (requeuesConfig outcome)) ∧
      ∀ key, SNRRely r key w (w.finished .config (requeuesConfig outcome)) := by
  have hswept : w.HasConfig → .config ∈ (w.finished .config (requeuesConfig outcome)).queue ∨
      (∃ p, w.runs .config = some p ∧ p.listed = true) ∧ ∀ key, ¬w.Disabled key := by
    intro hconfig
    rcases hpost with hrequeue | hswept
    · left
      show Request.config ∈ if _ then _ else _
      rw [if_pos hrequeue]
      exact mem_enqueued.mpr (.inl rfl)
    · refine (hswept hconfig).imp mem_queue_finished fun ⟨hlisted, hnone⟩ =>
        ⟨hlisted, fun key hd => ?_⟩
      obtain ⟨cr, hcr, -⟩ := hnone key hd
      exact nomatch hcr
  refine ⟨⟨hi.keyed, fun _ hconfig key hd => ?_⟩, fun key => ?_⟩
  · exact (hswept hconfig).resolve_right fun h => h.2 key hd
  · refine ⟨rfl, runs_finished_of_ne (snr_ne_config key) _, fun _ => renewed_of_eq rfl, ?_⟩
    intro _ _ _ ha hconfig
    left
    rcases hswept hconfig with hq | ⟨⟨p, hp, hlisted⟩, -⟩
    · exact hq
    · rcases ha hconfig with hq | ⟨p', hp', hunlisted⟩
      · exact mem_queue_finished hq
      · rw [hp] at hp'
        cases hp'
        exact nomatch hlisted.symm.trans hunlisted

/-- The calls for the configuration. -/
theorem call_config {c : ConfigReconciler.Call} {a : ConfigReconciler.Resp c} (hi : Inv w)
    (hallowed : allowedConfig c w) (he : ConfigExec c w a w')
    (hok : Orderly r (.call .config c) w w') : Inv w' ∧ ∀ key, SNRRely r key w w' := by
  cases he with
  | getConfig _ => exact ⟨hi, fun _ => snrRely_refl w⟩
  | getFailed _ => exact ⟨hi, fun _ => snrRely_refl w⟩
  | listFailed => exact ⟨hi, fun _ => snrRely_refl w⟩
  | install _ hinstalled => exact installed_call hi hinstalled
  | listSNRs =>
    refine ⟨⟨hi.keyed, fun hidle => hi.swept ?_⟩, fun key => ?_⟩
    · rw [runs_noted_self] at hidle
      exact Option.map_eq_none_iff.mp hidle
    · refine ⟨rfl, runs_noted_of_ne (snr_ne_config key) _, fun _ => renewed_of_eq rfl, ?_⟩
      intro p hp hmissing
      exact nomatch (hok.listing rfl key p hp).symm.trans hmissing
  | @updateSNRStatus _ sent a cluster he =>
    have heffect : Effect w (keyOf sent.value) cluster := by
      refine effect_updateSNRStatus ?_ he
      intro hd
      exact nomatch hallowed.symm.trans hd
    refine ⟨heffect.move.inv hi (heffect.keyed hi.keyed), fun key => ?_⟩
    refine wrote_snrRely heffect.move heffect.config.2 fun hkey hrun => ?_
    have hput : cluster.snr = (w.view (keyOf sent.value)).snr ∨
        cluster.snr = (w.view (keyOf sent.value)).snr.put
          { (w.view (keyOf sent.value)).snr.current with
            status := sent.value.status.serialize } := by
      rcases he.updateSNRStatus.world with rfl | ⟨-, rfl⟩
      · exact .inl rfl
      · exact Store.putIfChanged_cases _ _
    refine renewed_of_put hput fun hdecode => ?_
    have hok := hok.overwriting hdecode (keyOf sent.value) (fun _ h => nomatch h) hrun
    rw [view_wrote_self] at hok
    exact hok

/-- The calls of `ReconcileManager`. -/
theorem call_snr {key : Key} {c : Call} {a : Resp c} (hi : Inv w) (hallowed : allowedSNR key c w)
    (he : SNRExec key c w a w') :
    Inv w' ∧ ∀ req, req ≠ .snr key → (assertions r).rely req w w' := by
  obtain ⟨cluster, he, rfl⟩ := he
  have heffect := effect_of_exec hallowed he
  have hm := heffect.move.noted key (Progress.afterCall c a)
  refine ⟨hm.inv hi (heffect.keyed hi.keyed), fun req hreq => ?_⟩
  cases req with
  | config => exact hm
  | snr key' =>
    have hkey : key' ≠ key := fun h => hreq (congrArg Request.snr h)
    have hr : SNRRely r key' w (w.wrote key cluster) :=
      wrote_snrRely heffect.move heffect.config.2 fun h => absurd h hkey
    exact snrRely_of_move hm hr.deploymentNamespace (runs_noted_of_ne hreq _) hr.object

end Moves

/-! ## 5. The run for the configuration -/

section Config

abbrev configOutline (r : Reconciler) : Outline ConfigReconciler.Call ConfigReconciler.Resp World :=
  (assertions r).outline (manager r) (Orderly r) .config

variable {r : Reconciler} {w w' : World}

def InProgress (w : World) : Prop := ∃ p, w.runs .config = some p

theorem stable_inProgress : (configOutline r).Stable InProgress := by
  rintro w w' ⟨p, hp⟩ ⟨hm, -⟩
  exact ⟨p, hm.runs.trans hp⟩

theorem stable_swept (todo : List (Revision SNR)) : (configOutline r).Stable (Swept todo) := by
  rintro w w' hs ⟨hm, -⟩ hconfig
  by_cases hq : .config ∈ w'.queue
  · exact .inl hq
  · have hconfig' := (hm.config hconfig).resolve_right hq
    obtain ⟨⟨p, hp, hlisted⟩, htodo⟩ := (hs hconfig').resolve_left fun h => hq (hm.queue h)
    refine .inr ⟨⟨p, hm.runs.trans hp, hlisted⟩, fun key hd => ?_⟩
    rcases hm.disabled key hd with hd | ha
    · exact htodo key hd
    · -- the list has been made, so only a request can be what is awaited
      obtain ⟨p', hp', hunlisted⟩ := (ha hconfig).resolve_left hq
      rw [hm.runs, hp] at hp'
      cases hp'
      exact nomatch hlisted.symm.trans hunlisted

/-- Installing the agents leaves the SelfNodeRemediations alone. -/
theorem wp_install {α : Type} {p : ConfigReconciler.P α} (hp : p.Only (isInstall · = true))
    (hw : InProgress w) : (configOutline r).wp p (fun _ w => InProgress w) w := by
  refine Outline.wp_only stable_inProgress ?_ ?_ hp hw
  · intro c w hc _ _
    cases c <;> trivial
  · rintro c w a w' hc hw ⟨he, -⟩
    cases he with
    | install _ hinstalled =>
      cases hinstalled with
      | unchanged _ => exact hw
      | changed _ => exact hw
    | _ => cases hc

theorem only_applyObject (desired : ConfigReconciler.NetworkPolicy) :
    (ConfigReconciler.applyObject desired).Only (isInstall · = true) := by
  refine ⟨rfl, fun existing => ?_⟩
  show (ConfigReconciler.applyOver desired existing).Only _
  unfold ConfigReconciler.applyOver
  split
  · split
    · exact ⟨rfl, fun _ => trivial⟩
    · trivial
  · split
    · trivial
    · exact ⟨rfl, fun _ => trivial⟩

theorem only_syncConfigDaemonSet (config : InstalledConfig) :
    (ConfigReconciler.syncConfigDaemonSet config).Only (isInstall · = true) := by
  refine Prog.Only.bind ?_ fun resolved => ⟨rfl, fun cidrs => ⟨rfl, fun err => ?_⟩⟩
  · unfold ConfigReconciler.resolveURLToSortedCIDRs
    split
    · trivial
    · refine ⟨rfl, fun ips => ?_⟩
      cases ips <;> trivial
  · cases err with
    | some err => trivial
    | none => exact (only_applyObject _).bind fun _ => trivial

/-- An update without the condition. -/
theorem swept_updated {cr : Revision SNR} {crs : List (Revision SNR)} (hs : Swept (cr :: crs) w) :
    Swept crs (w.wrote (keyOf cr.value)
      ((w.view (keyOf cr.value)).storeStatus (withoutDisabled cr.value).status.serialize)) := by
  intro hconfig
  rcases hs hconfig with hq | ⟨hlisted, htodo⟩
  · exact .inl (mem_queue_wrote hq)
  · refine .inr ⟨hlisted, fun key hd => ?_⟩
    by_cases hkey : key = keyOf cr.value
    · subst hkey
      unfold World.Disabled Cluster.storeStatus at hd
      rw [view_wrote_self, Store.putIfChanged_current, isDisabled_serialize] at hd
      exact nomatch (isDisabled_withoutDisabled cr.value).symm.trans hd.2
    · obtain ⟨cr', hcr', hkey', hd'⟩ := htodo key ((disabled_wrote_of_ne hkey).mp hd)
      rcases List.mem_cons.mp hcr' with rfl | hcr'
      · exact absurd hkey'.symm hkey
      · exact ⟨cr', hcr', hkey', hd'⟩

/-- The loop over the listed SelfNodeRemediations. -/
theorem wp_enableCRs (crs : List (Revision SNR)) (hs : Swept crs w) :
    (configOutline r).wp (ConfigReconciler.enableCRs crs)
      (fun err w => err.isSome = true ∨ Swept [] w) w := by
  induction crs generalizing w with
  | nil => exact Outline.wp_ret (stable_swept []) hs fun _ _ hs => .inr hs
  | cons cr crs ih =>
    unfold ConfigReconciler.enableCRs
    split
    · refine Outline.wp_call (stable_swept _) hs
        (fun _ _ _ => isDisabled_withoutDisabled cr.value) ?_
      rintro w a w' - hs ⟨he, -⟩ -
      cases a with
      | some err => exact fun _ _ _ => .inl rfl
      | none =>
        have hw' := ConfigExec.of_updateSNRStatus he rfl
        subst hw'
        exact ih (swept_updated hs)
    · next hd =>
      refine ih fun hconfig => (hs hconfig).imp_right fun ⟨hlisted, htodo⟩ => ⟨hlisted, ?_⟩
      intro key hdisabled
      obtain ⟨cr', hcr', hkey, hd'⟩ := htodo key hdisabled
      rcases List.mem_cons.mp hcr' with rfl | hcr'
      · exact absurd hd' hd
      · exact ⟨cr', hcr', hkey, hd'⟩

/-- The SelfNodeRemediations that are listed. -/
theorem swept_list (hi : Inv w) (hw : InProgress w) :
    Swept w.list (w.noted .config fun p => { p with listed := true }) := by
  obtain ⟨p, hp⟩ := hw
  refine fun _ => .inr ⟨⟨{ p with listed := true }, ?_, rfl⟩, fun key hd => ?_⟩
  · rw [runs_noted_self, hp]
    rfl
  · have hd : w.Disabled key := hd
    obtain ⟨hkey, hmem⟩ := hi.keyed key hd.1
    refine ⟨(w.view key).snr.read, ?_, hkey, hd.2⟩
    refine List.mem_filterMap.mpr ⟨key, hmem, ?_⟩
    rw [hd.1]
    rfl

theorem wp_setCRsEnabledStatus (hw : InProgress w) :
    (configOutline r).wp ConfigReconciler.setCRsEnabledStatus
      (fun err w => err.isSome = true ∨ Swept [] w) w := by
  refine Outline.wp_call stable_inProgress hw (fun _ _ _ => trivial) ?_
  rintro w a w' hi hw ⟨he, -⟩ -
  rcases ConfigExec.of_listSNRs he with ⟨rfl, rfl⟩ | ⟨e, rfl⟩
  · exact wp_enableCRs w.list (swept_list hi hw)
  · exact fun _ _ _ => .inl rfl

theorem wp_reconcileSynced (err : Option GoErr) (hw : InProgress w) :
    (configOutline r).wp (ConfigReconciler.reconcileSynced err)
      (fun outcome w => requeuesConfig outcome = true ∨ Swept [] w) w := by
  cases err with
  | some err =>
    refine fun _ _ _ => .inl ?_
    split
    · decide
    · rfl
  | none =>
    refine Outline.wp_bind (Outline.wp_mono (wp_setCRsEnabledStatus hw) ?_)
    rintro (_ | err) w - hend
    · rcases hend with h | hs
      · cases h
      · exact Outline.wp_ret (stable_swept []) hs fun _ _ hs => .inr hs
    · exact fun _ _ _ => .inl rfl

theorem wp_reconcileConfig (config : InstalledConfig) (hw : InProgress w) :
    (configOutline r).wp (ConfigReconciler.reconcileConfig config)
      (fun outcome w => requeuesConfig outcome = true ∨ Swept [] w) w := by
  have hset : (ConfigReconciler.ask (.setCalculatorConfig config)).Only (isInstall · = true) :=
    ⟨rfl, fun _ => trivial⟩
  have hcerts : (ConfigReconciler.ask .syncCerts).Only (isInstall · = true) :=
    ⟨rfl, fun _ => trivial⟩
  refine Outline.wp_bind (Outline.wp_mono (wp_install hset hw) fun _ w _ hw => ?_)
  refine Outline.wp_bind (Outline.wp_mono (wp_install hcerts hw) fun err w _ hw => ?_)
  cases err with
  | some err => exact fun _ _ _ => .inl rfl
  | none =>
    refine Outline.wp_bind (Outline.wp_mono
      (wp_install (only_syncConfigDaemonSet config) hw) fun err w _ hw => ?_)
    exact wp_reconcileSynced err hw

/-- A run for the configuration is proved against its outline. -/
theorem wp_reconcile (hw : InProgress w) :
    (configOutline r).wp ConfigReconciler.reconcile
      (fun outcome w => requeuesConfig outcome = true ∨ Swept [] w) w := by
  refine Outline.wp_call stable_inProgress hw (fun _ _ _ => trivial) ?_
  rintro w a w' hi hw ⟨he, -⟩ -
  -- without a configuration to work with there is nothing to sweep
  have hnone : ¬w.HasConfig → Swept [] w := fun h hconfig => absurd hconfig h
  obtain ⟨rfl, ⟨config, rfl, hconfig⟩ | ⟨e, rfl, hmissing⟩⟩ := ConfigExec.of_getConfig he
  · show (configOutline r).wp (if _ then _ else _) _ w'
    split
    · next hdeleted =>
      refine Outline.wp_ret (stable_swept []) (hnone fun hc => ?_) fun _ _ hs => .inr hs
      rw [World.HasConfig, hconfig, Option.some.injEq] at hc
      rw [hc] at hdeleted
      exact nomatch hdeleted
    · exact wp_reconcileConfig config hw
  · show (configOutline r).wp (.ret (if _ then _ else _)) _ w'
    split
    · next hnotFound =>
      refine Outline.wp_ret (stable_swept []) (hnone fun hc => ?_) fun _ _ hs => .inr hs
      exact nomatch (hmissing hnotFound).symm.trans hc
    · exact fun _ _ _ => .inl rfl

end Config

/-! ## 6. The reconcile of a SelfNodeRemediation -/

section SNR

abbrev snrOutline (r : Reconciler) (key : Key) : Outline Call Resp World :=
  (assertions r).outline (manager r) (Orderly r) (.snr key)

/-- A copy of the current version is disabled only if the object is. -/
structure Mirrors (r : Reconciler) (m : Mem) (cluster : Cluster) : Prop where
  version : m.snr.resourceVersion ≤ cluster.snr.resourceVersion
  disabled : m.snr.resourceVersion = cluster.snr.resourceVersion →
    isDisabled m.snr.value = true → isDisabled cluster.snr.current = true
  overwrite : r.decode = .overwrite → cluster.snr.current.status.conditions = [] →
    isDisabled m.snr.value = false

/-- The reconcile has found the configuration missing, and the SelfNodeRemediations
are still to be listed. -/
def Lapsed (key : Key) (w : World) : Prop :=
  ∃ p, w.runs (.snr key) = some p ∧ p.foundMissing = true ∧ Awaited w

/-- What is kept of the copy. -/
def Sound (r : Reconciler) (key : Key) (m : Mem) (w : World) : Prop :=
  Lapsed key w ∨ (w.runs (.snr key)).isSome = true ∧ Mirrors r m (w.view key)

variable {r : Reconciler} {key : Key} {m m' : Mem} {w w' : World} {before after : Cluster}

theorem Mirrors.renewed (h : Mirrors r m before) (hr : Renewed r before after) :
    Mirrors r m after := by
  refine ⟨h.version.trans hr.version, fun hv hd => ?_, fun hdecode hnil => ?_⟩
  · rcases hr.conditions with hs | ⟨hlt, -⟩
    · have hversion : m.snr.resourceVersion = before.snr.resourceVersion :=
        Nat.le_antisymm h.version (hv ▸ hr.version)
      rw [isDisabled_congr hs]
      exact h.disabled hversion hd
    · exact absurd (h.version.trans_lt hlt) (hv ▸ Nat.lt_irrefl _)
  · rcases hr.conditions with hs | ⟨-, hconditions⟩
    · exact h.overwrite hdecode (hs ▸ hnil)
    · exact h.overwrite hdecode (hconditions hdecode hnil)

theorem stable_lapsed : (snrOutline r key).Stable (Lapsed key) := by
  rintro w w' ⟨p, hp, hmissing, ha⟩ ⟨hrely, -⟩
  exact ⟨p, hrely.runs.trans hp, hmissing, hrely.awaited p hp hmissing ha⟩

theorem stable_sound (m : Mem) : (snrOutline r key).Stable (Sound r key m) := by
  rintro w w' (hlapsed | ⟨hrun, hm⟩) he
  · exact .inl (stable_lapsed w w' hlapsed he)
  · refine .inr ⟨?_, hm.renewed (he.1.object hrun)⟩
    rw [he.1.runs]
    exact hrun

theorem Mirrors.assign (h : Mirrors r m before)
    (hversion : m'.snr.resourceVersion = m.snr.resourceVersion)
    (hdisabled : isDisabled m'.snr.value = isDisabled m.snr.value) : Mirrors r m' before :=
  ⟨hversion ▸ h.version, fun hv hd => h.disabled (hversion ▸ hv) (hdisabled ▸ hd),
    fun hdecode hnil => hdisabled.trans (h.overwrite hdecode hnil)⟩

/-- The copy after the answer to a write, decoded over a copy that was not disabled if
the answer leaves its conditions alone. -/
theorem mirrors_decode (h : r.decode = .overwrite → after.snr.current.status.conditions = [] →
    isDisabled m.snr.value = false) : Mirrors r (m.decode r.decode after.snr.read) after := by
  cases hdecode : r.decode with
  | zeroFirst => exact ⟨Nat.le_refl _, fun _ => id, fun h => nomatch hdecode.symm.trans h⟩
  | overwrite =>
    by_cases hnil : after.snr.current.status.conditions = []
    · have hd : isDisabled (DecodeMode.overwrite.snr after.snr.current m.snr.value) = false := by
        refine (isDisabled_congr ?_).trans (h hdecode hnil)
        exact if_pos hnil
      exact ⟨Nat.le_refl _, fun _ hd' => absurd hd' (Bool.eq_false_iff.mp hd), fun _ _ => hd⟩
    · have hsame : isDisabled (DecodeMode.overwrite.snr after.snr.current m.snr.value) =
          isDisabled after.snr.current := isDisabled_congr (if_neg hnil)
      exact ⟨Nat.le_refl _, fun _ hd => hsame.symm.trans hd, fun _ hnil' => absurd hnil' hnil⟩

/-- A write of the reconcile itself that leaves the conditions alone. -/
theorem mirrors_written {guard : Prop} {written : Cluster} {snr : SNR}
    {a : Except GoErr (Revision SNR)} (hm : Mirrors r m before)
    (hput : written.snr = before.snr.putIfChanged snr)
    (hconditions : snr.status.conditions = before.snr.current.status.conditions)
    (hw : Write guard before written a after) : Mirrors r (m.answered r a) after := by
  have hnil : written.snr.current.status.conditions = [] →
      before.snr.current.status.conditions = [] := by
    rw [hput, Store.putIfChanged_current, hconditions]
    exact id
  have hrenewed : Renewed r before written :=
    renewed_of_put (hput ▸ Store.putIfChanged_cases before.snr snr) fun _ => hnil
  cases hw with
  | done _ => exact mirrors_decode fun hdecode h => hm.overwrite hdecode (hnil h)
  | error _ => exact hm
  | lost _ _ => exact hm.renewed hrenewed

theorem runs_call {c : Call} {a : Resp c} (he : SNRExec key c w a w') :
    w'.runs (.snr key) = (w.runs (.snr key)).map (Progress.afterCall c a) := by
  obtain ⟨cluster, -, rfl⟩ := he
  exact runs_noted_self _

theorem lapsed_call {c : Call} {a : Resp c} (hallowed : allowedSNR key c w)
    (he : SNRExec key c w a w') (h : Lapsed key w) : Lapsed key w' := by
  obtain ⟨p, hp, hmissing, ha⟩ := h
  have hrun := runs_call he
  obtain ⟨cluster, he, rfl⟩ := he
  have hmove := (effect_of_exec hallowed he).move.noted key (Progress.afterCall c a)
  refine ⟨p.afterCall c a, ?_, ?_, hmove.awaited ha⟩
  · rw [hrun, hp]
    rfl
  · exact Bool.or_eq_true_iff.mpr (.inl hmissing)

/-- What a call of the reconcile itself keeps. -/
theorem sound_call {c : Call} {a : Resp c} (hallowed : allowedSNR key c w)
    (he : SNRExec key c w a w') (hs : Sound r key m w)
    (hm : ∀ cluster, Exec false c (w.view key) a cluster → Mirrors r m (w.view key) →
      Mirrors r m' cluster) : Sound r key m' w' := by
  rcases hs with hlapsed | ⟨hrunning, hmirrors⟩
  · exact .inl (lapsed_call hallowed he hlapsed)
  · refine .inr ⟨?_, ?_⟩
    · rw [runs_call he, Option.isSome_map]
      exact hrunning
    · obtain ⟨cluster, he, rfl⟩ := he
      have hview : ((w.wrote key cluster).noted (.snr key) (Progress.afterCall c a)).view key =
        cluster := view_wrote_self
      rw [hview]
      exact hm cluster he hmirrors

theorem allowed_aside {c : Call} (hc : c.isAside = true) (w : World) : allowedSNR key c w := by
  cases c <;> trivial

/-- A call about another object. -/
theorem sound_aside {c : Call} (hc : c.isAside = true) (hs : Sound r key m w) :
    (snrOutline r key).allowed c w ∧
      ∀ a w', (snrOutline r key).exec c w a w' → Sound r key m w' := by
  have hallowed : allowedSNR key c w := allowed_aside hc w
  refine ⟨hallowed, fun a w' he => sound_call hallowed he.1 hs ?_⟩
  intro cluster he hm
  exact hm.renewed (renewed_of_eq (he.aside hc).1)

theorem upkeep_sound : Upkeep (snrOutline r key) r (Sound r key) where
  stable := stable_sound
  beside hc _ hs := sound_aside (Call.isAside_of_isBeside hc) hs
  noted hs := hs.imp_right fun ⟨hrun, hm⟩ => ⟨hrun, hm.assign rfl rfl⟩
  assign {m m' w} hs hversion hconditions := by
    refine hs.imp_right fun ⟨hrun, hm⟩ => ⟨hrun, ?_⟩
    exact hm.assign hversion (isDisabled_congr hconditions)
  condition {m w now condition} hne hs := by
    refine hs.imp_right fun ⟨hrun, hm⟩ => ⟨hrun, ?_⟩
    exact hm.assign rfl (presentAndEqual_set_other (Ne.symm hne))
  update {m w} hi hs := by
    have hallowed : allowedSNR key (.updateSNR m.snr) w := trivial
    refine ⟨hallowed, fun a w' he => sound_call hallowed he.1 hs ?_⟩
    intro cluster he hm
    have hput : ((w.view key).store (updated (w.view key).snr.current m.snr.value)).snr =
      (w.view key).snr.putIfChanged (updated (w.view key).snr.current m.snr.value) := rfl
    exact mirrors_written hm hput rfl he.updateSNR
  patch {m w} lastError hi hs := by
    have hallowed : allowedSNR key
        (.patchSNRStatus m.snr.value (m.withLastError lastError).snr.value) w := rfl
    refine ⟨hallowed, fun a w' he => sound_call hallowed he.1 hs ?_⟩
    intro cluster he hm
    have hm' : Mirrors r (m.withLastError lastError) (w.view key) := hm.assign rfl rfl
    exact mirrors_written hm' rfl (merged_conditions rfl) he.patchSNRStatus

/-- The answer that there is no configuration to work with. -/
theorem lapsed_getConfig {ns : String} {a : Except GoErr (Option Time)}
    (hns : w.deploymentNamespace = some ns) (hrun : (w.runs (.snr key)).isSome = true)
    (he : SNRExec key (.getConfig ns) w a w') (ha : findsMissing (.getConfig ns) a = true) :
    Lapsed key w' := by
  obtain ⟨p, hp⟩ := Option.isSome_iff_exists.mp hrun
  have hrun' := runs_call he
  obtain ⟨cluster, he, rfl⟩ := he
  have hnone : ¬w.HasConfig := by
    have hanswer : GetAnswer (w.remediations.shared.config ns) a := he.getConfig
    rw [World.HasConfig, World.config, hns, Option.bind_some]
    intro hconfig
    cases a with
    | error e => exact nomatch (hanswer.2 e rfl ha).symm.trans hconfig
    | ok deletionTimestamp =>
      rw [hanswer.1 deletionTimestamp rfl] at hconfig
      rw [Option.some.inj hconfig] at ha
      exact nomatch ha
  refine ⟨p.afterCall (.getConfig ns) a, ?_, ?_, fun hconfig => ?_⟩
  · rw [hrun', hp]
    rfl
  · exact Bool.or_eq_true_iff.mpr (.inr ha)
  · exact absurd ((hasConfig_wrote he.config).mp hconfig) hnone

theorem Sound.running (h : Sound r key m w) : (w.runs (.snr key)).isSome = true := by
  rcases h with ⟨p, hp, -⟩ | ⟨hrun, -⟩
  · rw [hp]
    rfl
  · exact hrun

theorem stable_namespace (ns : String) :
    (snrOutline r key).Stable fun w => w.deploymentNamespace = some ns :=
  fun _ _ h he => he.1.deploymentNamespace.trans h

/-- What is known of the copy on the way. Where the configuration is missing, the
reconcile has lapsed. -/
def soundStages (r : Reconciler) (key : Key) : Stages World where
  read := Sound r key
  checked m exist w := Sound r key m w ∧ (exist = false → Lapsed key w)
  begun := Sound r key
  missing m _ := Sound r key m
  found m _ := Sound r key m
  chosen m _ _ := Sound r key m
  ended := Sound r key

/-- A reconcile that does not find the configuration has lapsed. -/
theorem wp_isConfigurationExist (hs : Sound r key m w) :
    (snrOutline r key).wp (isConfigurationExist m)
      (Leaves ((soundStages r key).checked m) (Failed AnyError (Sound r key) m) m) w := by
  have hend (res : Except GoErr Bool × Mem) : (snrOutline r key).Stable (Leaves
      ((soundStages r key).checked m) (Failed AnyError (Sound r key) m) m res) :=
    stable_leaves (fun _ => (stable_sound m).and (Outline.stable_forall fun _ => stable_lapsed))
      (fun _ => (stable_sound m).and Outline.stable_const) res
  have hU : Upkeep (snrOutline r key) r (Sound r key) := upkeep_sound
  refine Session.wp_call (stable_sound m) hs (fun w hi h => (hU.beside rfl hi h).1) ?_
  intro w a w' hi hs he _
  have hs' := (hU.beside rfl hi hs).2 a w' he
  cases a with
  | error e => exact Session.wp_ret (hend (.error e, m)) (leaves_error ⟨hs', trivial⟩)
  | ok ns =>
    have hns : w'.deploymentNamespace = some ns := by
      obtain ⟨⟨cluster, he, rfl⟩, -⟩ := he
      exact he.config.2.trans (he.getDeploymentNamespace rfl)
    refine Session.wp_call ((stable_sound m).and (stable_namespace ns)) ⟨hs', hns⟩
      (fun w hi h => (hU.beside rfl hi h.1).1) ?_
    intro w a w' hi h he _
    have hs' := (hU.beside rfl hi h.1).2 a w' he
    have hlapsed := lapsed_getConfig h.2 h.1.running he.1
    cases a with
    | error e =>
      dsimp only
      split
      · next hnot =>
        exact Session.wp_ret (hend (.ok false, m)) (leaves_ok ⟨hs', fun _ => hlapsed hnot⟩)
      · exact Session.wp_ret (hend (.error e, m)) (leaves_error ⟨hs', trivial⟩)
    | ok deletionTimestamp =>
      refine Session.wp_ret (hend (.ok _, m)) (leaves_ok ⟨hs', fun hfound => hlapsed ?_⟩)
      show deletionTimestamp.isSome = true
      rw [← Option.not_isNone, hfound]
      rfl

theorem lapsed_reading (r : Reconciler) (key : Key) :
    Reading (snrOutline r key) AnyError (Lapsed key) where
  stable := stable_lapsed
  values _ _ := trivial
  allowed hc _ _ := allowed_aside (Call.isAside_of_isBeside (Call.isBeside_of_isLookup hc)) _
  answered hc _ h he := by
    have haside := Call.isAside_of_isBeside (Call.isBeside_of_isLookup hc)
    exact ⟨lapsed_call (allowed_aside haside _) he.1 h, fun _ _ => trivial⟩

/-- `Disabled` is set only by a reconcile that has lapsed. -/
theorem sound_walk (r : Reconciler) (key : Key) :
    Walk (snrOutline r key) r AnyError (soundStages r key) where
  values _ _ := trivial
  stable := stable_sound
  config hs := wp_isConfigurationExist hs
  disabled _ h := wp_disabledNoConfig_ends (lapsed_reading r key) (h.2 rfl) stable_sound
    fun _ _ _ hl _ => .inl hl
  stopped _ _ h := upkeep_sound.stoppedByNHC h.1
  start _ h := upkeep_sound.markStarted h.1
  target {m _} hs := (keeps_getNodeFromSnr (upkeep_sound.reading m) hs).leaves
    fun _ _ _ hs _ => hs
  absent _ hs := upkeep_sound.nodeNotFound _ hs
  excluded _ hs := hs
  strategy {m _ _} hs := Keeps.upheld (keeps_getRuntimeStrategy (upkeep_sound.reading m) _ hs)
  unhandled _ hs := hs
  prepare _ _ hs := upkeep_sound.prepareReboot (fun _ hs => sound_aside rfl hs) _ hs
  wait _ _ hs := upkeep_sound.waitForNodeRebooted hs
  delete {_ node _} _ _ hs := upkeep_sound.handleRebootCompletedPhase
    (upkeep_sound.deleteResourcesWrapper node hs)
  evict {_ node _} _ _ hs := upkeep_sound.handleRebootCompletedPhase
    (upkeep_sound.useOutOfServiceTaint r node hs)
  finish _ _ hs := upkeep_sound.handleFencingCompletedPhase _ hs

/-- The deferred update may set `Disabled` only where it is set already or will be
removed. -/
theorem allowed_deferredUpdate (hs : Sound r key m w) :
    allowedSNR key (.updateSNRStatus m.snr) w := by
  intro hd hlive hversion
  rcases hs with ⟨p, -, -, ha⟩ | ⟨-, hm⟩
  · exact .inr ha
  · exact .inl (hm.disabled hversion hd)

/-- The object as it is read. -/
theorem sound_read {snr : Revision SNR} (hrun : (w.runs (.snr key)).isSome = true)
    (he : SNRExec key .getSNR w (.ok snr) w') : Sound r key ⟨snr, none, none⟩ w' := by
  refine .inr ⟨?_, ?_⟩
  · rw [runs_call he, Option.isSome_map]
    exact hrun
  · obtain ⟨cluster, he, rfl⟩ := he
    have hview : ((w.wrote key cluster).noted (.snr key)
      (Progress.afterCall .getSNR (.ok snr))).view key = cluster := view_wrote_self
    rw [hview, he.read rfl]
    obtain ⟨-, rfl⟩ := (he.getSNR rfl).2 rfl
    exact ⟨Nat.le_refl _, fun _ => id, fun _ => isDisabled_of_conditions_nil⟩

/-- The reconcile of a SelfNodeRemediation is proved against its outline. -/
theorem wp_reconcileManager (hrun : (w.runs (.snr key)).isSome = true) :
    (snrOutline r key).wp (reconcileManager r) (fun _ _ => True) w := by
  have hstable : (snrOutline r key).Stable fun w => (w.runs (.snr key)).isSome = true := by
    intro w w' h he
    rw [he.1.runs]
    exact h
  exact Outline.wp_mono ((sound_walk r key).reconcileManager
    (upkeep_sound.closes fun _ => allowed_deferredUpdate) hstable hrun (fun _ _ _ => trivial)
    fun _ hrun he _ => sound_read hrun he.1) fun _ _ _ _ => trivial

end SNR

/-! ## 7. The manager -/

theorem proved (r : Reconciler) : (assertions r).Proved (manager r) (Orderly r) where
  env := env_proved
  start {req w} hi _ := by
    cases req with
    | config =>
      obtain ⟨hi', hrely⟩ := started_config (r := r) hi
      refine ⟨hi', wp_reconcile ⟨_, runs_started_self⟩, fun req hreq => ?_⟩
      cases req with
      | config => exact absurd rfl hreq
      | snr key => exact hrely key
    | snr key =>
      have hqueue : .config ∈ w.queue → .config ∈ (w.started (.snr key)).queue := fun h =>
        List.mem_filter.mpr ⟨h, decide_eq_true (config_ne_snr key)⟩
      obtain ⟨hi', hrely⟩ := runs_proved (r := r) (w.started (.snr key)) hi rfl rfl hqueue
        fun req hreq => runs_started_of_ne hreq
      refine ⟨hi', wp_reconcileManager ?_, hrely⟩
      show ((w.started (.snr key)).runs (.snr key)).isSome = true
      rw [runs_started_self]
      rfl
  call {req c w a w'} hi hallowed he hok := by
    cases req with
    | config =>
      obtain ⟨hi', hrely⟩ := call_config hi hallowed he hok
      refine ⟨hi', fun req hreq => ?_⟩
      cases req with
      | config => exact absurd rfl hreq
      | snr key => exact hrely key
    | snr key => exact call_snr hi hallowed he
  finish {req a w} hi hpost := by
    cases req with
    | config =>
      obtain ⟨hi', hrely⟩ := finished_config (r := r) hi hpost
      refine ⟨hi', fun req hreq => ?_⟩
      cases req with
      | config => exact absurd rfl hreq
      | snr key => exact hrely key
    | snr key =>
      exact runs_proved (w.finished (.snr key) (requeuesSNR a)) hi rfl rfl
        mem_queue_finished fun req hreq => runs_finished_of_ne hreq _

end SelfNodeRemediation.DisabledCondition
