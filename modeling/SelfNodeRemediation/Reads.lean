import SelfNodeRemediation.Cluster
import SelfNodeRemediation.Lib.Endings

/-!
# The reading parts of a reconcile

Most functions of a reconcile only read: they leave the local copy alone and keep
what is known of the world, and they end with a value or with an error value.

* `Reading` is what they need of a proof outline: lookups are allowed, and keep the
  fact. So each function is proved once, whatever the outline is about.
* `Client` is an outline for the cluster itself, where no lookup loses what is stable.
-/

namespace SelfNodeRemediation

open Interaction

variable {α β : Type}

/-- The reads a reconcile may make at any time. The list of the namespaces is
not among them: with it `DeletePods` begins. -/
def Call.isPlainRead : Call → Bool
  | .listNamespaces => false
  | c => c.isRead

theorem Call.isRead_of_isPlainRead {c : Call} (h : c.isPlainRead = true) : c.isRead = true := by
  cases c <;> first | exact h | cases h

/-- The calls about other objects than the SelfNodeRemediation, but for the log entry of
the assumed reboot time. -/
def Call.isBeside : Call → Bool
  | .getSNR | .updateSNR _ | .updateSNRStatus _ | .patchSNRStatus _ _ => false
  | .logTimeAssumedRebooted _ _ => false
  | _ => true

/-- The plain reads of other objects. -/
def Call.isLookup (c : Call) : Bool := c.isBeside && c.isPlainRead

theorem Call.isBeside_of_isLookup {c : Call} (h : c.isLookup = true) : c.isBeside = true :=
  (Bool.and_eq_true_iff.mp h).1

theorem Call.isPlainRead_of_isLookup {c : Call} (h : c.isLookup = true) :
    c.isPlainRead = true :=
  (Bool.and_eq_true_iff.mp h).2

abbrev NoPanic {α : Type} (r : Except GoErr α) : Prop := Fails GoErr.IsValue r

theorem wp_theSNR {W : Type} {O : Outline Call Resp W} {f : SNR → M β} {m : Mem} {w : W}
    {R : Except GoErr β × Mem → W → Prop} (h : O.wp (f m.snr.value m) R w) :
    O.wp ((theSNR >>= f) m) R w :=
  h

theorem keeps_theSNR {W : Type} {O : Outline Call Resp W} {E : GoErr → Prop} {P : W → Prop}
    {f : SNR → M β} {m : Mem} {w : W} (hf : Keeps O E P m w (f m.snr.value)) :
    Keeps O E P m w (theSNR >>= f) :=
  hf

/-! ## 1. Lookups -/

/-- Lookups are allowed where `P` is known, and keep it. -/
structure Reading {W : Type} (O : Outline Call Resp W) (E : GoErr → Prop) (P : W → Prop) :
    Prop where
  stable : O.Stable P
  values : ∀ e, e.IsValue → E e
  allowed : ∀ {c w}, c.isLookup = true → O.inv w → P w → O.allowed c w
  answered : ∀ {c w a w'}, c.isLookup = true → O.inv w → P w → O.exec c w a w' →
    P w' ∧ ∀ e, errorOf c a = some e → E e

/-- An outline for the calls of a reconciler that allows every plain read. -/
structure Client (lagging : Bool) (O : Outline Call Resp Cluster) : Prop where
  exec : ∀ {c : Call} {w : Cluster} {r : Resp c} {w' : Cluster},
    O.exec c w r w' → Exec lagging c w r w'
  reads : ∀ {c : Call} {w : Cluster}, c.isPlainRead = true → O.inv w → O.allowed c w

theorem Client.reading {lagging : Bool} {O : Outline Call Resp Cluster} {E : GoErr → Prop}
    {P : Cluster → Prop} (hO : Client lagging O) (hE : ∀ e, e.IsValue → E e)
    (hP : O.Stable P) : Reading O E P where
  stable := hP
  values := hE
  allowed hc hi _ := hO.reads (Call.isPlainRead_of_isLookup hc) hi
  answered hc _ hw he := by
    refine ⟨?_, fun e h => hE e ((hO.exec he).isValue h)⟩
    have hread := Call.isRead_of_isPlainRead (Call.isPlainRead_of_isLookup hc)
    exact (hO.exec he).read hread ▸ hw

section Functions

variable {W : Type} {O : Outline Call Resp W} {E : GoErr → Prop} {P : W → Prop} {m : Mem} {w : W}
  (hR : Reading O E P)

include hR

theorem Reading.wp_call {c : Call} {f : Resp c → M β} {R : Except GoErr β × Mem → W → Prop}
    (hc : c.isLookup = true) (hw : P w)
    (hf : ∀ a w, (∀ e, errorOf c a = some e → E e) → P w → O.wp (f a m) R w) :
    O.wp ((call c >>= f) m) R w := by
  refine Session.wp_call hR.stable hw (fun w hi hw => hR.allowed hc hi hw) ?_
  intro w a w' hi hw he _
  obtain ⟨hw', ha⟩ := hR.answered hc hi hw he
  exact hf a w' ha hw'

theorem keeps_fail {e : GoErr} (he : e.IsValue) (hw : P w) :
    Keeps O E P m w (Session.fail e : M α) :=
  keeps_ofExcept hR.stable hw (fails_error (hR.values e he))

theorem keeps_getNodeName (hw : P w) : Keeps O E P m w getNodeName := by
  refine keeps_theSNR ?_
  split
  · exact keeps_pure hR.stable hw
  · split
    · refine hR.wp_call rfl hw fun answer w ha hw => ?_
      have hanswer : Fails E answer := fun e he => ha e (he ▸ rfl)
      refine (keeps_ofExcept hR.stable hw hanswer).bind hR.stable ?_
      intro machine w hw
      split
      · exact keeps_fail hR nofun hw
      · exact keeps_pure hR.stable hw
    · exact keeps_pure hR.stable hw

theorem keeps_getNodeFromSnr (hw : P w) : Keeps O E P m w getNodeFromSnr := by
  refine (keeps_getNodeName hR hw).bind hR.stable fun nodeName w hw => ?_
  exact hR.wp_call rfl hw fun answer w ha hw =>
    keeps_ofExcept hR.stable hw fun e he => ha e (he ▸ rfl)

theorem keeps_getSelfNodeRemediationAgentPod (nodeName : String) (hw : P w) :
    Keeps O E P m w (getSelfNodeRemediationAgentPod nodeName) := by
  refine hR.wp_call rfl hw fun answer w ha hw => ?_
  have hanswer : Fails E answer := fun e he => ha e (he ▸ rfl)
  refine (keeps_ofExcept hR.stable hw hanswer).bind hR.stable ?_
  intro pods w hw
  split
  · exact keeps_pure hR.stable hw
  · exact keeps_fail hR nofun hw

theorem keeps_isNodeRebootCapable (node : Node) (hw : P w) :
    Keeps O E P m w (isNodeRebootCapable node) := by
  refine (keeps_getSelfNodeRemediationAgentPod hR node.name hw).wp_attempt ?_
  intro pod w _ hw _
  cases pod with
  | ok _ => exact keeps_pure hR.stable hw
  | error _ => exact keeps_pure hR.stable hw

theorem keeps_isResourceDeletionCompleted (node : Node) (hw : P w) :
    Keeps O E P m w (isResourceDeletionCompleted node) := by
  refine hR.wp_call rfl hw fun answer w _ hw => ?_
  cases answer with
  | error _ => exact keeps_pure hR.stable hw
  | ok pods =>
    dsimp only
    split
    · exact keeps_pure hR.stable hw
    · refine hR.wp_call rfl hw fun answer w _ hw => ?_
      cases answer with
      | error _ => exact keeps_pure hR.stable hw
      | ok _ => exact keeps_pure hR.stable hw

theorem keeps_isConfigurationExist (hw : P w) : Keeps O E P m w isConfigurationExist := by
  refine hR.wp_call rfl hw fun answer w ha hw => ?_
  have hanswer : Fails E answer := fun e he => ha e (he ▸ rfl)
  refine (keeps_ofExcept hR.stable hw hanswer).bind hR.stable ?_
  intro ns w hw
  refine hR.wp_call rfl hw fun answer w ha hw => ?_
  cases answer with
  | ok _ => exact keeps_pure hR.stable hw
  | error e =>
    dsimp only
    split
    · exact keeps_pure hR.stable hw
    · exact keeps_ofExcept hR.stable hw (fails_error (ha e rfl))

theorem keeps_getRuntimeStrategy (snr : SNR) (hw : P w) :
    Keeps O E P m w (getRuntimeStrategy snr) := by
  unfold getRuntimeStrategy
  split
  · refine hR.wp_call rfl hw fun ga w _ hw => ?_
    split
    · exact keeps_pure hR.stable hw
    · exact keeps_pure hR.stable hw
  · exact keeps_pure hR.stable hw

end Functions

/-! ## 2. The target -/

section Target

variable {W : Type} {O : Outline Call Resp W} {E : GoErr → Prop} {P : W → Prop}
  {G : String → W → Prop} {N : Node → W → Prop} {F : GoErr → W → Prop} {m : Mem} {w : W}
  (hF : ∀ e, O.Stable (F e))

include hF

/-- The name of the target node is the one of a Machine, or found without one. -/
theorem wp_getNodeName_leaves (hR : Reading O E P) (hG : ∀ name, O.Stable (G name)) (hw : P w)
    (hdirect : isOwnedByNHC m.snr.value = true ∨ isOwnedByMachine m.snr.value = none →
      G (getNodeNameDirect m.snr.value) w)
    (hmachine : ∀ ref, isOwnedByNHC m.snr.value = false → isOwnedByMachine m.snr.value = some ref →
      ∀ {answer w w'}, O.inv w → P w →
        O.exec (.getMachine m.snr.value.namespace_ ref.name) w answer w' →
        (∀ machine name, answer = .ok machine → machine.nodeRef = some name → G name w') ∧
        (∀ machine e, answer = .ok machine → machine.nodeRef = none → e.isNotFound = false →
          F e w') ∧
        ∀ e, answer = .error e → F e w') :
    O.wp (getNodeName m) (Leaves G F m) w := by
  have hend (res : Except GoErr String × Mem) : O.Stable (Leaves G F m res) :=
    stable_leaves hG hF res
  refine wp_theSNR ?_
  cases hnhc : isOwnedByNHC m.snr.value with
  | true => exact Session.wp_ret (hend (.ok _, m)) (leaves_ok (hdirect (.inl hnhc)))
  | false =>
    rw [if_neg nofun]
    cases howner : isOwnedByMachine m.snr.value with
    | none => exact Session.wp_ret (hend (.ok _, m)) (leaves_ok (hdirect (.inr howner)))
    | some ref =>
      refine Session.wp_call hR.stable hw (fun _ hi hw => hR.allowed rfl hi hw) ?_
      intro w answer w' hi hw he _
      obtain ⟨hok, hnoRef, herror⟩ := hmachine ref hnhc howner hi hw he
      cases answer with
      | error e => exact Session.wp_ret (hend (.error e, m)) (leaves_error (herror e rfl))
      | ok machine =>
        refine Session.wp_ofExcept_ok ?_
        cases hnodeRef : machine.nodeRef with
        | none =>
          exact Session.wp_ret (hend (.error _, m))
            (leaves_error (hnoRef machine _ rfl hnodeRef rfl))
        | some name =>
          exact Session.wp_ret (hend (.ok name, m)) (leaves_ok (hok machine name rfl hnodeRef))

theorem wp_getNodeFromSnr_leaves (hG : ∀ name, Reading O E (G name))
    (hN : ∀ node, O.Stable (N node)) (hname : O.wp (getNodeName m) (Leaves G F m) w)
    (hnode : ∀ {name answer w w'}, O.inv w → G name w → O.exec (.getNode name) w answer w' →
      (∀ node, answer = .ok node → N node w') ∧ ∀ e, answer = .error e → F e w') :
    O.wp (getNodeFromSnr m) (Leaves N F m) w := by
  have hend (res : Except GoErr Node × Mem) : O.Stable (Leaves N F m res) :=
    stable_leaves hN hF res
  refine Leaves.wp_bind hname (fun name w _ hw => ?_) fun e w _ h =>
    Session.wp_ret (hend (.error e, m)) (leaves_error h)
  refine Session.wp_call (hG name).stable hw (fun _ hi hw => (hG name).allowed rfl hi hw) ?_
  intro w answer w' hi hw he _
  obtain ⟨hok, herror⟩ := hnode hi hw he
  exact Session.wp_ret (hend (answer, m)) ⟨rfl, hok, herror⟩

end Target

/-! ## 3. Times -/

theorem getRebootDuration_noPanic (config : CalculatorConfig) (node : Node)
    {nodes : Except GoErr (List Node)} (h : NoPanic nodes) :
    NoPanic (getRebootDuration config.spec node nodes) := by
  cases nodes with
  | ok nodes =>
    obtain ⟨_, d, _, hd, _⟩ := getRebootDuration_ok config.hasTimes node nodes
    rw [hd]
    exact fails_ok
  | error e =>
    have hr : getRebootDuration config.spec node (.error e) = .error
        (((e.wrap "failed to list worker nodes").wrap "failed to calculate number of batches").wrap
          "failed to calculate minimum reboot duration") := by
      unfold getRebootDuration calculateMinimumRebootDuration
      rw [apiCheckDuration_ok config.hasTimes]
      rfl
    rw [hr]
    exact fails_error (h e rfl)

section Times

variable {W : Type} {O : Outline Call Resp W} {E : GoErr → Prop} {P : W → Prop} {m : Mem} {w : W}

/-- The errors are those of the lookups, if the calculator has no others. -/
theorem keeps_calculateRebootDuration (hR : Reading O E P) (node : Node)
    (hduration : ∀ {spec nodes w w'}, O.exec .calculatorConfig w (some spec) w' →
      Fails E nodes → Fails E (getRebootDuration spec node nodes)) (hw : P w) :
    Keeps O E P m w (calculateRebootDuration node) := by
  refine Session.wp_call hR.stable hw (fun _ hi hw => hR.allowed rfl hi hw) ?_
  intro w spec w' hi hw he _
  have hw' := (hR.answered rfl hi hw he).1
  cases spec with
  | none => exact keeps_fail hR nofun hw'
  | some spec =>
    refine hR.wp_call rfl hw' fun nodes w ha hw => ?_
    exact keeps_ofExcept hR.stable hw (hduration he fun e he => ha e (he ▸ rfl))

/-- The copy gets an assumed reboot time, at most. -/
theorem wp_setTimeAssumedRebooted (hR : Reading O AnyError P) (node : Node)
    (hallowed : ∀ now d w, O.inv w → P w → O.allowed (.logTimeAssumedRebooted now d) w)
    (hlog : ∀ now d w a w', O.inv w → P w → O.exec (.logTimeAssumedRebooted now d) w a w' → P w')
    (hw : P w) :
    O.wp (setTimeAssumedRebooted node m) (fun res w => P w ∧ ((∃ e, res = (.error e, m)) ∨
      ∃ t, res = (.ok (), m.setStatus fun s => { s with timeAssumedRebooted := t }))) w := by
  have hend {p : Prop} : O.Stable fun w => P w ∧ p := hR.stable.and Outline.stable_const
  refine wp_theSNR ?_
  split
  · exact Session.wp_pure hend ⟨hw, .inr ⟨m.snr.value.status.timeAssumedRebooted, rfl⟩⟩
  · refine (keeps_calculateRebootDuration hR node (fun _ _ => fails_any) hw).wp_bind ?_ ?_
    · intro d w _ hw
      refine hR.wp_call rfl hw fun now w _ hw => ?_
      refine Session.wp_call hR.stable hw (hallowed now d) ?_
      intro w₁ _ w₂ hi hw he _
      exact Session.wp_ret hend ⟨hlog _ _ _ _ _ hi hw he, .inr ⟨_, rfl⟩⟩
    · intro e w _ hw _
      exact Session.wp_ret hend ⟨hw, .inl ⟨e, rfl⟩⟩

theorem keeps_wasNodeRebooted (hR : Reading O E P)
    (ht : Fails E (deref m.snr.value.status.timeAssumedRebooted)) (hw : P w) :
    Keeps O E P m w wasNodeRebooted := by
  refine keeps_theSNR ((keeps_ofExcept hR.stable hw ht).bind hR.stable fun t w hw => ?_)
  refine hR.wp_call rfl hw fun now w _ hw => ?_
  split
  · exact hR.wp_call rfl hw fun now w _ hw => keeps_pure hR.stable hw
  · exact keeps_pure hR.stable hw

/-- The time left is not zero before the timeout. -/
theorem wp_isResourceDeletionExpired (hR : Reading O E P)
    (ht : Fails E (deref m.snr.value.status.timeAssumedRebooted)) (hw : P w) :
    O.wp (isResourceDeletionExpired m) (Leaves (fun res w => P w ∧ (res.1 = false → res.2 ≠ 0))
      (fun e w => P w ∧ E e) m) w := by
  have hend (res : Except GoErr (Bool × Duration) × Mem) : O.Stable (Leaves
      (fun res w => P w ∧ (res.1 = false → res.2 ≠ 0)) (fun e w => P w ∧ E e) m res) :=
    stable_leaves (fun _ => hR.stable.and Outline.stable_const)
      (fun _ => hR.stable.and Outline.stable_const) res
  refine wp_theSNR ?_
  cases htime : m.snr.value.status.timeAssumedRebooted with
  | none =>
    rw [htime] at ht
    exact Session.wp_ret (hend (.error _, m)) (leaves_error ⟨hw, ht _ rfl⟩)
  | some time =>
    refine hR.wp_call rfl hw fun now w _ hw => ?_
    split
    · exact Session.wp_ret (hend (.ok _, m)) (leaves_ok ⟨hw, fun _ => by decide⟩)
    · exact Session.wp_ret (hend (.ok _, m)) (leaves_ok ⟨hw, nofun⟩)

end Times

section Clock

variable {lagging : Bool} {O : Outline Call Resp Cluster} {P : Cluster → Prop} {m : Mem}
  {w : Cluster} (hO : Client lagging O) (hP : O.Stable P) (hw : P w)

include hO

/-- The calculator has the times of its configuration. -/
theorem Client.rebootDuration (node : Node) {spec : SelfNodeRemediationConfigSpec}
    {nodes : Except GoErr (List Node)} {w' : Cluster}
    (he : O.exec .calculatorConfig w (some spec) w') (hnodes : NoPanic nodes) :
    NoPanic (getRebootDuration spec node nodes) := by
  have hconfig : ∃ config : CalculatorConfig, spec = config.spec := by
    generalize hanswer : (some spec : Resp .calculatorConfig) = answer at he
    cases hO.exec he with
    | served =>
      obtain ⟨config, -, rfl⟩ := Option.map_eq_some_iff.mp hanswer.symm
      exact ⟨config, rfl⟩
    | failed _ hf => cases hf
    | lost _ hf => cases hf
  obtain ⟨config, rfl⟩ := hconfig
  exact getRebootDuration_noPanic config node hnodes

include hP hw

theorem wp_now {f : Time → M β} {R : Except GoErr β × Mem → Cluster → Prop}
    (hk : ∀ w, O.inv w → P w → O.wp (f w.now m) R w) : O.wp ((call .now >>= f) m) R w := by
  refine Session.wp_call hP hw (fun w hi _ => hO.reads rfl hi) ?_
  intro w r w' hi hw he _
  cases hO.exec he with
  | served => exact hk w hi hw
  | failed _ hr => cases hr
  | lost _ hr => cases hr

/-- Once an assumed reboot time is set, `wasNodeRebooted` follows no nil pointer,
and says yes only when it has come. -/
theorem wp_wasNodeRebooted {t : Time} (ht : m.snr.value.status.timeAssumedRebooted = some t)
    (hnow : O.Stable fun w => t ≤ w.now) :
    O.wp (wasNodeRebooted m) (fun r w => r.2 = m ∧ P w ∧ NoPanic r.1 ∧
      ∀ d, r.1 = .ok (true, d) → t ≤ w.now) w := by
  have hP' : ∀ {p q : Prop} {r : Except GoErr (Bool × Duration)}, O.Stable fun w =>
      p ∧ P w ∧ q ∧ ∀ d, r = .ok (true, d) → t ≤ w.now :=
    Outline.stable_const.and (hP.and (Outline.stable_const.and
      (Outline.stable_forall fun _ => Outline.stable_forall fun _ => hnow)))
  refine wp_theSNR ?_
  rw [ht]
  refine wp_now hO hP hw fun w _ hw => ?_
  split
  · refine wp_now hO hP hw fun w _ hw => ?_
    exact Session.wp_pure hP' ⟨rfl, hw, fails_ok, fun _ h => nomatch h⟩
  · next hlt => exact Session.wp_pure hP' ⟨rfl, hw, fails_ok, fun _ _ => Int.not_lt.mp hlt⟩

end Clock

/-! ## 4. Conditions -/

/-- The conditions set by `updateConditions` carry the reason. -/
theorem shown_setStatusCondition {reason : ConditionReason}
    {processing succeeded : ConditionStatus}
    (h : reason.statuses = some (processing, succeeded)) (t u : Time) (cs : List Condition) :
    reason.Shown (setStatusCondition u ⟨.succeeded, succeeded, 0, reason.toString, ""⟩
      (setStatusCondition t ⟨.processing, processing, 0, reason.toString, ""⟩ cs)) := by
  have hne : ConditionType.processing ≠ .succeeded := by decide
  refine ⟨processing, succeeded, h, ?_, findStatusCondition_set_self _ _ _⟩
  rw [findStatusCondition_set_other hne]
  exact findStatusCondition_set_self _ _ _

/-- The status of the Succeeded condition, if there is one. -/
def succeededStatus (conditions : List Condition) : Option ConditionStatus :=
  (findStatusCondition conditions .succeeded).map Condition.status

theorem presentAndEqual_iff {conditions : List Condition} {status : ConditionStatus} :
    isStatusConditionPresentAndEqual conditions .succeeded status = true ↔
      succeededStatus conditions = some status := by
  unfold isStatusConditionPresentAndEqual succeededStatus
  cases findStatusCondition conditions .succeeded with
  | none => exact ⟨nofun, nofun⟩
  | some c => exact beq_iff_eq.trans ⟨congrArg some, Option.some.inj⟩

theorem succeededStatus_set {now : Time} {new : Condition} {cs : List Condition}
    (h : new.type = .succeeded) :
    succeededStatus (setStatusCondition now new cs) = some new.status := by
  obtain ⟨c, hc, hstatus, -⟩ := findStatusCondition_set_self now new cs
  unfold succeededStatus
  rw [← h, hc]
  exact congrArg some hstatus

/-- Conditions of another type do not count. -/
theorem succeededStatus_set_other {now : Time} {new : Condition} {cs : List Condition}
    (h : ConditionType.succeeded ≠ new.type) :
    succeededStatus (setStatusCondition now new cs) = succeededStatus cs :=
  congrArg (Option.map Condition.status) (findStatusCondition_set_other h)

/-- The conditions that `updateConditions` sets for a reason, each at a time of its own. -/
def ConditionReason.set (reason : ConditionReason) (processing succeeded : ConditionStatus)
    (t u : Time) (conditions : List Condition) : List Condition :=
  setStatusCondition u ⟨.succeeded, succeeded, 0, reason.toString, ""⟩
    (setStatusCondition t ⟨.processing, processing, 0, reason.toString, ""⟩ conditions)

section Conditions

variable {W : Type} {O : Outline Call Resp W} {E : GoErr → Prop} {P : W → Prop} {m : Mem} {w : W}
  (hR : Reading O E P) (hw : P w)

include hR hw

theorem wp_setCondition (condition : Condition) :
    O.wp (setCondition condition m) (fun r w => r.1 = .ok () ∧ P w ∧ ∃ now,
      r.2 = m.withConditions (setStatusCondition now condition m.snr.value.status.conditions)
        m.conditionsSet) w := by
  refine hR.wp_call rfl hw fun now w _ hw => ?_
  exact Session.wp_ret (Outline.stable_const.and (hR.stable.and Outline.stable_const))
    ⟨rfl, hw, now, rfl⟩

/-- The copy has the statuses of the reason already, or gets them. -/
theorem wp_updateConditions_set {reason : ConditionReason}
    {processing succeeded : ConditionStatus}
    (hr : reason.statuses = some (processing, succeeded)) :
    O.wp (updateConditions reason m) (fun r w => r.1 = .ok () ∧ P w ∧
      (r.2 = m ∧ succeededStatus m.snr.value.status.conditions = some succeeded ∨
        ∃ t u, r.2 = m.withConditions
          (reason.set processing succeeded t u m.snr.value.status.conditions)
          (some reason))) w := by
  have hP' : ∀ {p q : Prop}, O.Stable fun w => p ∧ P w ∧ q := stable_keeps hR.stable
  refine wp_theSNR ?_
  rw [hr]
  dsimp only
  split
  · next hequal =>
    have hsucceeded := presentAndEqual_iff.mp (Bool.and_eq_true_iff.mp hequal).2
    exact Session.wp_pure hP' ⟨rfl, hw, .inl ⟨rfl, hsucceeded⟩⟩
  · refine Session.wp_bind (wp_setCondition hR hw _) ?_ fun _ _ _ _ h => nomatch h.1
    rintro _ _ w - ⟨-, hw, t, rfl⟩
    refine Session.wp_bind (wp_setCondition hR hw _) ?_ fun _ _ _ _ h => nomatch h.1
    rintro _ _ w - ⟨-, hw, u, rfl⟩
    exact Session.wp_ret hP' ⟨rfl, hw, .inr ⟨t, u, rfl⟩⟩

theorem wp_updateConditions {reason : ConditionReason} {processing succeeded : ConditionStatus}
    (hr : reason.statuses = some (processing, succeeded)) :
    O.wp (updateConditions reason m) (fun r w => r.1 = .ok () ∧ P w ∧
      (r.2 = m ∨ ∃ conditions, reason.Shown conditions ∧
        r.2 = m.withConditions conditions (some reason))) w := by
  refine Outline.wp_mono (wp_updateConditions_set hR hw hr) ?_
  rintro ⟨res, s⟩ w - ⟨hres, hw, ⟨hm, -⟩ | ⟨t, u, hm⟩⟩
  · exact ⟨hres, hw, .inl hm⟩
  · exact ⟨hres, hw, .inr ⟨_, shown_setStatusCondition hr t u _, hm⟩⟩

/-- In the end the Succeeded condition has the status of the reason. -/
theorem wp_updateConditions_succeeded {reason : ConditionReason}
    {processing succeeded : ConditionStatus}
    (hr : reason.statuses = some (processing, succeeded)) :
    O.wp (updateConditions reason m) (fun r w => r.1 = .ok () ∧ P w ∧ ∃ conditions set,
      r.2 = m.withConditions conditions set ∧ succeededStatus conditions = some succeeded) w := by
  refine Outline.wp_mono (wp_updateConditions_set hR hw hr) ?_
  rintro ⟨res, s⟩ w - ⟨hres, hw, ⟨hm, hs⟩ | ⟨t, u, hm⟩⟩
  · exact ⟨hres, hw, _, m.conditionsSet, hm, hs⟩
  · exact ⟨hres, hw, _, some reason, hm, succeededStatus_set rfl⟩

end Conditions

end SelfNodeRemediation
