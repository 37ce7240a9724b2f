import Mathlib.Algebra.Group.Nat.Defs
import Mathlib.Data.Int.Basic
import SelfNodeRemediation.Api

/-!
# The configuration and its admission webhook

`SelfNodeRemediationConfig` as far as the modelled code reads it, and the
validating webhook (`internal/webhook/v1alpha1`).

* `Times`: the times of a configuration together with the minima that the
  webhook demands of them.
* `validateTimes_none_iff`: `validateTimes` passes exactly the configurations
  that have all their times, with every time at its minimum or above.
* `validateTimes_of_accepted`: a configuration the webhook accepts passes it.
* `default_accepted`: the default configuration is accepted without a warning.
-/

namespace SelfNodeRemediation

/-! ## 1. Durations and numbers as text -/

/-- The fraction of `v / 10 ^ prec` without trailing zeros (`fmtFrac`), put in
front of `text`, and the whole part. -/
def fmtFrac : Nat → Nat → Bool → List Char → List Char × Nat
  | 0, v, print, text => (if print then '.' :: text else text, v)
  | prec + 1, v, print, text =>
    let digit := v % 10
    let print := print || digit != 0
    fmtFrac prec (v / 10) print (if print then Nat.digitChar digit :: text else text)

/-- `Duration.String` -/
def Duration.toString (d : Duration) : String :=
  let u := d.toInt.natAbs
  let sign := if d.toInt < 0 then ['-'] else []
  let text :=
    if u = 0 then "0s".toList
    else if u < 1000000000 then
      let (prec, unit) :=
        if u < 1000 then (0, "ns") else if u < 1000000 then (3, "µs") else (6, "ms")
      let (text, whole) := fmtFrac prec u false unit.toList
      Nat.toDigits 10 whole ++ text
    else
      let (text, s) := fmtFrac 9 u false ['s']
      let seconds := Nat.toDigits 10 (s % 60) ++ text
      let m := s / 60
      if m = 0 then seconds
      else
        let minutes := Nat.toDigits 10 (m % 60) ++ 'm' :: seconds
        let h := m / 60
        if h = 0 then minutes else Nat.toDigits 10 h ++ 'h' :: minutes
  String.ofList (sign ++ text)

/-- The decimal digits of `strconv.Atoi`, the value read so far first. -/
def atoiDigits : Nat → List Char → Option Nat
  | value, [] => some value
  | value, c :: cs =>
    if '0' ≤ c ∧ c ≤ '9' then atoiDigits (value * 10 + (c.toNat - '0'.toNat)) cs else none

/-- `strconv.Atoi`: an optional sign, at least one decimal digit and nothing
else, in the range of a 64-bit integer. -/
def atoi (s : String) : Option Int64 :=
  let (negative, digits) :=
    match s.toList with
    | '-' :: cs => (true, cs)
    | '+' :: cs => (false, cs)
    | cs => (false, cs)
  if digits.isEmpty then none
  else
    match atoiDigits 0 digits with
    | none => none
    | some n =>
      if negative then if n ≤ 2 ^ 63 then some (Int64.ofInt (-n)) else none
      else if n < 2 ^ 63 then some (Int64.ofInt n) else none

/-! ## 2. The configuration -/

/-- `Toleration`, by the fields the webhook validates. -/
structure Toleration where
  operator : String
  value : String
  effect : String
deriving DecidableEq, Repr

structure NodeSelectorRequirement where
  key : String
  operator : String
  values : List String
deriving DecidableEq, Repr

/-- `SelfNodeRemediationConfigSpec`; a pointer field may be nil. -/
structure SelfNodeRemediationConfigSpec where
  safeTimeToAssumeNodeRebootedSeconds : Option Int64
  peerApiServerTimeout : Option Duration
  apiCheckInterval : Option Duration
  peerUpdateInterval : Option Duration
  apiServerTimeout : Option Duration
  peerDialTimeout : Option Duration
  peerRequestTimeout : Option Duration
  maxTimeForNoPeersResponse : Option Duration
  maxApiErrorThreshold : Int64
  customDsTolerations : List Toleration
  customDsNodeSelectorRequirements : List NodeSelectorRequirement
  minPeersForRemediation : Int64
deriving DecidableEq, Repr

structure SelfNodeRemediationConfig where
  name : String
  namespace_ : String
  spec : SelfNodeRemediationConfigSpec
deriving DecidableEq, Repr

/-- `ConfigCRName` -/
def configCRName : String := "self-node-remediation-config"

/-- `MinimumBuffer`: the minimum buffer between `ApiServerTimeout` and
`PeerRequestTimeout`. -/
def minimumBuffer : Duration := 2 * second

/-! ## 3. The validating webhook -/

/-- A time of the configuration and the least value it may have (`field`). -/
structure Field where
  name : String
  durationValue : Duration
  minDurationValue : Duration

def Field.validate (f : Field) : Option GoErr :=
  if f.durationValue < f.minDurationValue then
    some (.new (f.name ++ " cannot be less than " ++ f.minDurationValue.toString))
  else none

/-- The fields `validateTimes` looks at. Every pointer but the last is followed
without a check. -/
def timeFields (spec : SelfNodeRemediationConfigSpec) : Except GoErr (List Field) := do
  let peerApiServerTimeout ← deref spec.peerApiServerTimeout
  let apiServerTimeout ← deref spec.apiServerTimeout
  let peerDialTimeout ← deref spec.peerDialTimeout
  let peerRequestTimeout ← deref spec.peerRequestTimeout
  let apiCheckInterval ← deref spec.apiCheckInterval
  let peerUpdateInterval ← deref spec.peerUpdateInterval
  let fields : List Field :=
    [⟨"PeerApiServerTimeout", peerApiServerTimeout, 10 * millisecond⟩,
      ⟨"ApiServerTimeout", apiServerTimeout, 10 * millisecond⟩,
      ⟨"PeerDialTimeout", peerDialTimeout, 10 * millisecond⟩,
      ⟨"PeerRequestTimeout", peerRequestTimeout, 10 * millisecond⟩,
      ⟨"ApiCheckInterval", apiCheckInterval, 1 * second⟩,
      ⟨"PeerUpdateInterval", peerUpdateInterval, 10 * second⟩]
  match spec.maxTimeForNoPeersResponse with
  | some m => return fields ++ [⟨"MaxTimeForNoPeersResponse", m, 1 * second⟩]
  | none => return fields

/-- The messages of the fields that do not validate, each on a line of its own. -/
def fieldErrors (fields : List Field) : String :=
  fields.foldl (fun errMsg f =>
    match f.validate with
    | some err => errMsg ++ "\n" ++ err.msg
    | none => errMsg) ""

/-- `validateTimes`. The outer result is the panic of a nil pointer, the inner
one the error that is returned. -/
def validateTimes (snrConfig : SelfNodeRemediationConfig) : Except GoErr (Option GoErr) := do
  let fields ← timeFields snrConfig.spec
  let errMsg := fieldErrors fields
  return if errMsg ≠ "" then some (.new errMsg) else none

def validateToleration (toleration : Toleration) : Option GoErr :=
  let operatorErr :=
    match toleration.operator with
    | "" | "Equal" => none
    | "Exists" =>
      if toleration.value ≠ "" then
        some (GoErr.new
          "invalid value for toleration, value must be empty for Operator value is Exists")
      else none
    | operator => some (GoErr.new ("invalid operator for toleration: " ++ operator))
  operatorErr.or
    (match toleration.effect with
    | "" | "NoSchedule" | "PreferNoSchedule" | "NoExecute" => none
    | effect => some (GoErr.new ("invalid taint effect for toleration: " ++ effect)))

def validateCustomTolerations (snrConfig : SelfNodeRemediationConfig) : Option GoErr :=
  snrConfig.spec.customDsTolerations.findSome? validateToleration

def validateNodeSelector (nodeSelector : NodeSelectorRequirement) : Option GoErr :=
  if nodeSelector.key = "" then
    some (.new "invalid key for nodeSelector: key must be non-empty")
  else
    let err (msg : String) : Option GoErr := some (.new (msg ++ nodeSelector.operator))
    match nodeSelector.operator with
    | "" => some (.new "invalid operator for nodeSelector: operator must be non-empty")
    | "Exists" | "DoesNotExist" =>
      if nodeSelector.values ≠ [] then
        err "invalid values for nodeSelector term, values must not exists when Operator value is "
      else none
    | "In" | "NotIn" =>
      if nodeSelector.values = [] then
        err "invalid values for nodeSelector term, values must not be empty when Operator value is "
      else none
    | "Gt" | "Lt" =>
      match nodeSelector.values with
      | [value] =>
        if (atoi value).isNone then
          err ("invalid value for nodeSelector term, first array element must be valid integer " ++
            "when Operator value is ")
        else none
      | _ =>
        err (
          "invalid values for nodeSelector term, array must have a single element, which will " ++
          "be interpreted as an integer when Operator value is ")
    | _ => err "invalid operator for nodeSelector: "

def validateCustomDsNodeSelectors (snrConfig : SelfNodeRemediationConfig) : Option GoErr :=
  snrConfig.spec.customDsNodeSelectorRequirements.findSome? validateNodeSelector

/-- `validateSingleton`, with the result of reading the deployment namespace. -/
def validateSingleton (deploymentNamespace : Except GoErr String)
    (snrConfig : SelfNodeRemediationConfig) : Option GoErr :=
  if snrConfig.name ≠ configCRName then
    some (.new ("to enforce only one SelfNodeRemediationConfig in the cluster, a name other than "
      ++ configCRName ++ " is not allowed"))
  else
    match deploymentNamespace with
    | .error _ =>
      some (.new ("failed to verify the deployment namespace SelfNodeRemediationConfig can not " ++
        "be created"))
    | .ok ns =>
      if ns ≠ snrConfig.namespace_ then
        some (.new ("SelfNodeRemediationConfig is only allowed to be created in the namespace: "
          ++ ns))
      else none

/-- A peer request timeout without the buffer is warned of. -/
def validatePeerTimeoutSafety (snrConfig : SelfNodeRemediationConfig) : List String :=
  match snrConfig.spec.peerRequestTimeout, snrConfig.spec.apiServerTimeout with
  | some peerRequestTimeout, some apiServerTimeout =>
    let minimumSafePeerTimeout := apiServerTimeout + minimumBuffer
    if peerRequestTimeout < minimumSafePeerTimeout then
      ["PeerRequestTimeout (" ++ peerRequestTimeout.toString ++
        ") is less than ApiServerTimeout + MinimumBuffer (" ++ apiServerTimeout.toString ++ " + " ++
        minimumBuffer.toString ++ " = " ++ minimumSafePeerTimeout.toString ++ "). " ++
        "This configuration may lead to race conditions where peer health checks time out " ++
        "before API server checks complete, potentially causing premature remediation. " ++
        "Overriding PeerRequestTimeout to " ++ minimumSafePeerTimeout.toString ++
        " for safer operation."]
    else []
  | _, _ => []

/-- `errors.NewAggregate` and the message of the aggregate: repeated messages
are written once, and several messages stand in brackets. -/
def newAggregate (errs : List (Option GoErr)) : Option GoErr :=
  match ((errs.filterMap id).map GoErr.msg).eraseDups with
  | [] => none
  | [msg] => some (.new msg)
  | msgs => some (.new ("[" ++ ", ".intercalate msgs ++ "]"))

def validateCreate (deploymentNamespace : Except GoErr String)
    (snrConfig : SelfNodeRemediationConfig) : Except GoErr (List String × Option GoErr) := do
  let times ← validateTimes snrConfig
  return (validatePeerTimeoutSafety snrConfig,
    newAggregate [times, validateCustomTolerations snrConfig,
      validateCustomDsNodeSelectors snrConfig, validateSingleton deploymentNamespace snrConfig])

def validateUpdate (snrConfig : SelfNodeRemediationConfig) :
    Except GoErr (List String × Option GoErr) := do
  let times ← validateTimes snrConfig
  return (validatePeerTimeoutSafety snrConfig,
    newAggregate [times, validateCustomTolerations snrConfig,
      validateCustomDsNodeSelectors snrConfig])

/-- The API server stores a new or a changed configuration: the webhook returned
without an error. -/
def Accepted (snrConfig : SelfNodeRemediationConfig) : Prop :=
  (∃ ns warnings, validateCreate ns snrConfig = .ok (warnings, none)) ∨
    ∃ warnings, validateUpdate snrConfig = .ok (warnings, none)

/-! ## 4. What an accepted configuration looks like -/

/-- The times of a configuration, none of them below the webhook's minimum. -/
structure Times where
  peerApiServerTimeout : Duration
  apiServerTimeout : Duration
  peerDialTimeout : Duration
  peerRequestTimeout : Duration
  apiCheckInterval : Duration
  peerUpdateInterval : Duration
  maxTimeForNoPeersResponse : Option Duration
  min_peerApiServerTimeout : 10 * millisecond ≤ peerApiServerTimeout
  min_apiServerTimeout : 10 * millisecond ≤ apiServerTimeout
  min_peerDialTimeout : 10 * millisecond ≤ peerDialTimeout
  min_peerRequestTimeout : 10 * millisecond ≤ peerRequestTimeout
  min_apiCheckInterval : 1 * second ≤ apiCheckInterval
  min_peerUpdateInterval : 10 * second ≤ peerUpdateInterval
  min_maxTimeForNoPeersResponse : ∀ m ∈ maxTimeForNoPeersResponse, 1 * second ≤ m

/-- `spec` has the times `t`. -/
structure SelfNodeRemediationConfigSpec.HasTimes (spec : SelfNodeRemediationConfigSpec)
    (t : Times) : Prop where
  peerApiServerTimeout : spec.peerApiServerTimeout = some t.peerApiServerTimeout
  apiServerTimeout : spec.apiServerTimeout = some t.apiServerTimeout
  peerDialTimeout : spec.peerDialTimeout = some t.peerDialTimeout
  peerRequestTimeout : spec.peerRequestTimeout = some t.peerRequestTimeout
  apiCheckInterval : spec.apiCheckInterval = some t.apiCheckInterval
  peerUpdateInterval : spec.peerUpdateInterval = some t.peerUpdateInterval
  maxTimeForNoPeersResponse : spec.maxTimeForNoPeersResponse = t.maxTimeForNoPeersResponse

theorem validate_none_iff (f : Field) :
    f.validate = none ↔ f.minDurationValue ≤ f.durationValue := by
  unfold Field.validate
  split
  · next h => simpa using h
  · next h => simpa using h

/-- The messages of the invalid fields are appended to what is there already. -/
theorem fieldErrors_fold_empty_iff (fields : List Field) (errMsg : String) :
    fields.foldl (fun errMsg f =>
      match f.validate with
      | some err => errMsg ++ "\n" ++ err.msg
      | none => errMsg) errMsg = "" ↔
      errMsg = "" ∧ ∀ f ∈ fields, f.minDurationValue ≤ f.durationValue := by
  induction fields generalizing errMsg with
  | nil => simp
  | cons f fields ih =>
    rw [List.foldl_cons, ih]
    cases hf : f.validate with
    | none =>
      have hle := (validate_none_iff f).mp hf
      simp [hle]
    | some err =>
      have hlt : ¬ f.minDurationValue ≤ f.durationValue := by
        rw [← validate_none_iff, hf]
        simp
      simp [hlt, String.append_eq_empty_iff]

theorem fieldErrors_empty_iff (fields : List Field) :
    fieldErrors fields = "" ↔ ∀ f ∈ fields, f.minDurationValue ≤ f.durationValue := by
  unfold fieldErrors
  rw [fieldErrors_fold_empty_iff]
  simp

/-- A pointer that is followed without a panic is not nil. -/
theorem deref_bind_ok {α β : Type} {p : Option α} {k : α → Except GoErr β} {b : β}
    (h : (deref p >>= k) = .ok b) : ∃ a, p = some a ∧ k a = .ok b := by
  cases p with
  | none => simp [deref, bind, Except.bind] at h
  | some a => exact ⟨a, rfl, h⟩

theorem validateTimes_none_iff_fields (snrConfig : SelfNodeRemediationConfig) :
    validateTimes snrConfig = .ok none ↔ ∃ fields, timeFields snrConfig.spec = .ok fields ∧
      ∀ f ∈ fields, f.minDurationValue ≤ f.durationValue := by
  unfold validateTimes
  cases timeFields snrConfig.spec with
  | error e => exact ⟨nofun, fun ⟨_, h, _⟩ => absurd h nofun⟩
  | ok fields =>
    by_cases hempty : fieldErrors fields = ""
    · have hmin := (fieldErrors_empty_iff fields).mp hempty
      simpa [bind, Except.bind, pure, Except.pure, hempty] using hmin
    · have hnot := mt (fieldErrors_empty_iff fields).mpr hempty
      simpa [bind, Except.bind, pure, Except.pure, hempty] using hnot

/-- The checked fields are the times that are read without a nil check. -/
theorem hasTimes_of_timeFields {spec : SelfNodeRemediationConfigSpec} {fields : List Field}
    (hf : timeFields spec = .ok fields)
    (hmin : ∀ f ∈ fields, f.minDurationValue ≤ f.durationValue) : ∃ t, spec.HasTimes t := by
  unfold timeFields at hf
  obtain ⟨pa, hpa, hf⟩ := deref_bind_ok hf
  obtain ⟨a, ha, hf⟩ := deref_bind_ok hf
  obtain ⟨d, hd, hf⟩ := deref_bind_ok hf
  obtain ⟨r, hr, hf⟩ := deref_bind_ok hf
  obtain ⟨i, hi, hf⟩ := deref_bind_ok hf
  obtain ⟨u, hu, hf⟩ := deref_bind_ok hf
  cases hm : spec.maxTimeForNoPeersResponse with
  | none =>
    rw [hm] at hf
    cases hf
    simp only [List.mem_cons, List.not_mem_nil, or_false, forall_eq_or_imp, forall_eq] at hmin
    obtain ⟨h1, h2, h3, h4, h5, h6⟩ := hmin
    exact ⟨⟨pa, a, d, r, i, u, none, h1, h2, h3, h4, h5, h6, by simp⟩,
      ⟨hpa, ha, hd, hr, hi, hu, hm⟩⟩
  | some m =>
    rw [hm] at hf
    cases hf
    simp only [List.cons_append, List.nil_append, List.mem_cons, List.not_mem_nil, or_false,
      forall_eq_or_imp, forall_eq] at hmin
    obtain ⟨h1, h2, h3, h4, h5, h6, h7⟩ := hmin
    exact ⟨⟨pa, a, d, r, i, u, some m, h1, h2, h3, h4, h5, h6, by simpa using h7⟩,
      ⟨hpa, ha, hd, hr, hi, hu, hm⟩⟩

theorem SelfNodeRemediationConfigSpec.HasTimes.timeFields {spec : SelfNodeRemediationConfigSpec}
    {t : Times} (ht : spec.HasTimes t) : ∃ fields,
      SelfNodeRemediation.timeFields spec = .ok fields ∧
        ∀ f ∈ fields, f.minDurationValue ≤ f.durationValue := by
  unfold SelfNodeRemediation.timeFields
  rw [ht.peerApiServerTimeout, ht.apiServerTimeout, ht.peerDialTimeout, ht.peerRequestTimeout,
    ht.apiCheckInterval, ht.peerUpdateInterval, ht.maxTimeForNoPeersResponse]
  cases hm : t.maxTimeForNoPeersResponse with
  | none =>
    refine ⟨_, rfl, ?_⟩
    simp only [List.mem_cons, List.not_mem_nil, or_false, forall_eq_or_imp, forall_eq]
    exact ⟨t.min_peerApiServerTimeout, t.min_apiServerTimeout, t.min_peerDialTimeout,
      t.min_peerRequestTimeout, t.min_apiCheckInterval, t.min_peerUpdateInterval⟩
  | some m =>
    refine ⟨_, rfl, ?_⟩
    simp only [List.cons_append, List.nil_append, List.mem_cons, List.not_mem_nil, or_false,
      forall_eq_or_imp, forall_eq]
    exact ⟨t.min_peerApiServerTimeout, t.min_apiServerTimeout, t.min_peerDialTimeout,
      t.min_peerRequestTimeout, t.min_apiCheckInterval, t.min_peerUpdateInterval,
      t.min_maxTimeForNoPeersResponse m hm⟩

theorem validateTimes_none_iff (snrConfig : SelfNodeRemediationConfig) :
    validateTimes snrConfig = .ok none ↔ ∃ t, snrConfig.spec.HasTimes t := by
  rw [validateTimes_none_iff_fields]
  constructor
  · rintro ⟨fields, hf, hmin⟩
    exact hasTimes_of_timeFields hf hmin
  · rintro ⟨t, ht⟩
    exact ht.timeFields

theorem newAggregate_none_iff (errs : List (Option GoErr)) :
    newAggregate errs = none ↔ ∀ e ∈ errs, e = none := by
  have hnil : newAggregate errs = none ↔ errs.filterMap id = [] := by
    unfold newAggregate
    cases h : errs.filterMap id with
    | nil => simp
    | cons e es =>
      rw [List.map_cons, List.eraseDups_cons]
      split
      · next hc => cases hc
      · simp
      · simp
  rw [hnil, List.filterMap_eq_nil_iff]
  simp

/-- Both the creation and the update of a configuration check its times. -/
theorem validateTimes_of_accepted {snrConfig : SelfNodeRemediationConfig}
    (h : Accepted snrConfig) : validateTimes snrConfig = .ok none := by
  rcases h with ⟨ns, warnings, h⟩ | ⟨warnings, h⟩
  · unfold validateCreate at h
    cases ht : validateTimes snrConfig with
    | error e => simp [ht, bind, Except.bind] at h
    | ok times =>
      simp only [ht, bind, Except.bind, pure, Except.pure, Except.ok.injEq, Prod.mk.injEq,
        newAggregate_none_iff] at h
      rw [h.2 times (by simp)]
  · unfold validateUpdate at h
    cases ht : validateTimes snrConfig with
    | error e => simp [ht, bind, Except.bind] at h
    | ok times =>
      simp only [ht, bind, Except.bind, pure, Except.pure, Except.ok.injEq, Prod.mk.injEq,
        newAggregate_none_iff] at h
      rw [h.2 times (by simp)]

/-- The defaults of the CRD. -/
def defaultSpec : SelfNodeRemediationConfigSpec where
  safeTimeToAssumeNodeRebootedSeconds := none
  peerApiServerTimeout := some (5 * second)
  apiCheckInterval := some (15 * second)
  peerUpdateInterval := some (15 * minute)
  apiServerTimeout := some (5 * second)
  peerDialTimeout := some (5 * second)
  peerRequestTimeout := some (7 * second)
  maxTimeForNoPeersResponse := some (30 * second)
  maxApiErrorThreshold := 3
  customDsTolerations := []
  customDsNodeSelectorRequirements := []
  minPeersForRemediation := 1

/-- Every default passes the webhook, in any namespace and without a warning. -/
theorem default_accepted (ns : String) :
    validateUpdate ⟨configCRName, ns, defaultSpec⟩ = .ok ([], none) := by
  rfl

end SelfNodeRemediation
