import Mathlib.Data.List.Basic

/-!
# API objects

The objects the operator reads and writes, with the fields its code uses, and
the small vendored helpers that act on them (taint matching, status
conditions, finalizers). A point in time is in nanoseconds; a duration is the
64-bit nanosecond count of the source.
-/

namespace SelfNodeRemediation

/-! ## 1. Times and errors -/

/-- `time.Time`, in nanoseconds. -/
abbrev Time := Int

/-- `time.Duration`: a signed 64-bit count of nanoseconds. -/
abbrev Duration := Int64

def millisecond : Duration := 1000000

def second : Duration := 1000000000

def minute : Duration := 60000000000

/-- A time as `metav1.Time` is written to the API server: whole seconds. -/
def Time.truncate (t : Time) : Time := t - t % 1000000000

/-- What the callers ask of an error: `IsNotFound`, `IsConflict`, whether it is
an `UnreconcilableError`, and whether it is not an error value at all but the
panic of a nil pointer dereference. -/
inductive ErrKind
  | notFound
  | conflict
  | unreconcilable
  | nilDereference
  | other
deriving DecidableEq, Repr

structure GoErr where
  kind : ErrKind
  msg : String
deriving DecidableEq, Repr

/-- `errors.New` and `fmt.Errorf`. -/
def GoErr.new (msg : String) : GoErr := ⟨.other, msg⟩

/-- `errors.Wrap`: the message is extended and the cause is kept. -/
def GoErr.wrap (e : GoErr) (msg : String) : GoErr := ⟨e.kind, msg ++ ": " ++ e.msg⟩

def GoErr.isNotFound (e : GoErr) : Bool := e.kind == .notFound

def GoErr.isConflict (e : GoErr) : Bool := e.kind == .conflict

/-- Following a nil pointer. -/
def nilPointer : GoErr :=
  ⟨.nilDereference, "runtime error: invalid memory address or nil pointer dereference"⟩

def deref {α : Type} : Option α → Except GoErr α
  | some a => .ok a
  | none => .error nilPointer

/-! ## 2. Nodes and what runs on them -/

inductive TaintEffect
  | noSchedule
  | preferNoSchedule
  | noExecute
deriving DecidableEq, Repr

structure Taint where
  key : String
  value : String
  effect : TaintEffect
  timeAdded : Option Time
deriving DecidableEq, Repr

/-- Taints match by key and effect. -/
def Taint.matchTaint (t taintToMatch : Taint) : Bool :=
  t.key == taintToMatch.key && t.effect == taintToMatch.effect

/-- String maps (labels and annotations); the first entry of a key counts. -/
abbrev StringMap := List (String × String)

structure Node where
  name : String
  labels : StringMap
  annotations : StringMap
  taints : List Taint
deriving DecidableEq, Repr

structure Pod where
  name : String
  namespace_ : String
  nodeName : String
  labels : StringMap
  finalizers : List String
  deletionTimestamp : Option Time
deriving DecidableEq, Repr

structure VolumeAttachment where
  name : String
  nodeName : String
deriving DecidableEq, Repr

/-- A `Machine`, by the node its status refers to. -/
structure Machine where
  nodeRef : Option String
deriving DecidableEq, Repr

/-- `TaintExists` -/
def taintExists (taints : List Taint) (taintToFind : Taint) : Bool :=
  taints.any fun taint => taint.matchTaint taintToFind

/-- `DeleteTaint`: the taints that do not match, and whether one matched. -/
def deleteTaint (taints : List Taint) (taintToDelete : Taint) : List Taint × Bool :=
  (taints.filter fun t => !taintToDelete.matchTaint t,
    taints.any fun t => taintToDelete.matchTaint t)

theorem matchTaint_comm (a b : Taint) : a.matchTaint b = b.matchTaint a := by
  unfold Taint.matchTaint
  rw [Bool.beq_comm (a := a.key), Bool.beq_comm (a := a.effect)]

/-- What is left of the taints has no taint that matches the deleted one. -/
theorem taintExists_deleteTaint (taints : List Taint) (t : Taint) :
    taintExists (deleteTaint taints t).1 t = false := by
  unfold taintExists deleteTaint
  simp only [List.any_eq_false, List.mem_filter, Bool.not_eq_true', and_imp, Bool.not_eq_true]
  intro x _ hx
  rw [matchTaint_comm]
  exact hx

/-- `DeleteTaint` reports a taint where `TaintExists` finds one. -/
theorem deleteTaint_snd (taints : List Taint) (t : Taint) :
    (deleteTaint taints t).2 = taintExists taints t := by
  unfold taintExists deleteTaint
  simp only [matchTaint_comm t]

/-- A taint that is there is deleted. -/
theorem deleteTaint_of_exists {taints : List Taint} {t : Taint} (h : taintExists taints t = true) :
    deleteTaint taints t = ((deleteTaint taints t).1, true) ∧
      taints ≠ (deleteTaint taints t).1 := by
  refine ⟨Prod.ext rfl ((deleteTaint_snd taints t).trans h), fun heq => ?_⟩
  have hdeleted := taintExists_deleteTaint taints t
  rw [← heq, h] at hdeleted
  cases hdeleted

theorem deleteTaint_subset (taints : List Taint) (t : Taint) : (deleteTaint taints t).1 ⊆ taints :=
  List.filter_subset_self taints

theorem taintExists_append (ts us : List Taint) (t : Taint) :
    taintExists (ts ++ us) t = (taintExists ts t || taintExists us t) :=
  List.any_append

/-- Deleting a taint brings no other taint in. -/
theorem taintExists_of_deleteTaint {taints : List Taint} {t u : Taint}
    (h : taintExists (deleteTaint taints t).1 u = true) : taintExists taints u = true := by
  unfold taintExists deleteTaint at *
  simp only [List.any_eq_true, List.mem_filter] at h ⊢
  obtain ⟨x, ⟨hx, _⟩, hu⟩ := h
  exact ⟨x, hx, hu⟩

/-- Deleting a taint leaves those that do not match it. -/
theorem taintExists_deleteTaint_of_ne {taints : List Taint} {t u : Taint}
    (hne : t.matchTaint u = false) (h : taintExists taints u = true) :
    taintExists (deleteTaint taints t).1 u = true := by
  unfold taintExists deleteTaint at *
  simp only [List.any_eq_true, List.mem_filter] at h ⊢
  obtain ⟨x, hx, hu⟩ := h
  refine ⟨x, ⟨hx, ?_⟩, hu⟩
  obtain ⟨hkey, heffect⟩ := Bool.and_eq_true_iff.mp hu
  have hsame : t.matchTaint x = t.matchTaint u := by
    unfold Taint.matchTaint
    rw [eq_of_beq hkey, eq_of_beq heffect]
  rw [hsame, hne]
  rfl

/-! ## 3. The SelfNodeRemediation -/

/-- `spec.remediationStrategy`; `unsupported` stands for any other string. -/
inductive RemediationStrategyType
  | automatic
  | resourceDeletion
  | outOfServiceTaint
  | unsupported (s : String)
deriving DecidableEq, Repr

def RemediationStrategyType.toString : RemediationStrategyType → String
  | automatic => "Automatic"
  | resourceDeletion => "ResourceDeletion"
  | outOfServiceTaint => "OutOfServiceTaint"
  | unsupported s => s

/-- The check of `SNRValidator` on a new or updated SelfNodeRemediation. -/
def validateStrategy (isOutOfServiceTaintSupported : Bool) (strategy : RemediationStrategyType) :
    Except GoErr Unit :=
  if strategy = .outOfServiceTaint ∧ isOutOfServiceTaintSupported = false then
    .error (.new (RemediationStrategyType.outOfServiceTaint.toString ++
      " remediation strategy is not supported at kubernetes version lower than 1.26, " ++
      "please use a different remediation strategy"))
  else .ok ()

inductive ConditionType
  | processing
  | succeeded
  | disabled
  | other (s : String)
deriving DecidableEq, Repr

inductive ConditionStatus
  | true_
  | false_
  | unknown
deriving DecidableEq, Repr

structure Condition where
  type : ConditionType
  status : ConditionStatus
  lastTransitionTime : Time
  reason : String
  message : String
deriving DecidableEq, Repr

structure OwnerReference where
  kind : String
  name : String
deriving DecidableEq, Repr

structure Status where
  timeAssumedRebooted : Option Time
  phase : Option String
  lastError : String
  conditions : List Condition
deriving DecidableEq, Repr

/-- A `SelfNodeRemediation` without its resourceVersion, which a client holds
beside its copy. -/
structure SNR where
  name : String
  namespace_ : String
  creationTimestamp : Time
  deletionTimestamp : Option Time
  annotations : StringMap
  finalizers : List String
  ownerReferences : List OwnerReference
  remediationStrategy : RemediationStrategyType
  status : Status
deriving DecidableEq, Repr

/-- The status as the API server stores it: times are cut to whole seconds. -/
def Status.serialize (s : Status) : Status :=
  { s with
    timeAssumedRebooted := s.timeAssumedRebooted.map Time.truncate
    conditions := s.conditions.map fun c =>
      { c with lastTransitionTime := Time.truncate c.lastTransitionTime } }

@[simp] theorem serialize_phase (s : Status) : s.serialize.phase = s.phase := rfl

/-- `meta.FindStatusCondition` -/
def findStatusCondition (conditions : List Condition) (type : ConditionType) : Option Condition :=
  conditions.find? fun c => c.type == type

/-- `meta.IsStatusConditionPresentAndEqual` -/
def isStatusConditionPresentAndEqual (conditions : List Condition) (type : ConditionType)
    (status : ConditionStatus) : Bool :=
  match findStatusCondition conditions type with
  | some c => c.status == status
  | none => false

/-- `meta.SetStatusCondition` for a new condition without a transition time:
the first condition of the type is overwritten, its transition time only when
the status changes; if there is none, the new one is appended. -/
def setStatusCondition (now : Time) (new : Condition) : List Condition → List Condition
  | [] => [{ new with lastTransitionTime := now }]
  | c :: cs =>
    if c.type = new.type then
      { new with
        lastTransitionTime := if c.status = new.status then c.lastTransitionTime else now } :: cs
    else c :: setStatusCondition now new cs

/-- After `SetStatusCondition` the condition of that type is the new one. -/
theorem findStatusCondition_set_self (now : Time) (new : Condition) (cs : List Condition) :
    ∃ c, findStatusCondition (setStatusCondition now new cs) new.type = some c ∧
      c.status = new.status ∧ c.reason = new.reason := by
  induction cs with
  | nil =>
    refine ⟨{ new with lastTransitionTime := now }, ?_, rfl, rfl⟩
    simp [setStatusCondition, findStatusCondition]
  | cons c cs ih =>
    unfold setStatusCondition
    by_cases h : c.type = new.type
    · rw [if_pos h]
      refine ⟨{ new with
        lastTransitionTime := if c.status = new.status then c.lastTransitionTime else now },
        ?_, rfl, rfl⟩
      simp [findStatusCondition]
    · rw [if_neg h]
      simpa [findStatusCondition, h] using ih

/-- `SetStatusCondition` leaves the conditions of the other types alone. -/
theorem findStatusCondition_set_other {now : Time} {new : Condition} {cs : List Condition}
    {type : ConditionType} (h : type ≠ new.type) :
    findStatusCondition (setStatusCondition now new cs) type = findStatusCondition cs type := by
  induction cs with
  | nil => simp [setStatusCondition, findStatusCondition, Ne.symm h]
  | cons c cs ih =>
    unfold setStatusCondition
    by_cases hc : c.type = new.type
    · simp [findStatusCondition, hc, Ne.symm h]
    · rw [if_neg hc]
      by_cases ht : c.type = type
      · simp [findStatusCondition, ht]
      · simpa [findStatusCondition, ht] using ih

theorem presentAndEqual_set_self (now : Time) (new : Condition) (conditions : List Condition) :
    isStatusConditionPresentAndEqual (setStatusCondition now new conditions) new.type new.status =
      true := by
  obtain ⟨c, hfind, hstatus, -⟩ := findStatusCondition_set_self now new conditions
  unfold isStatusConditionPresentAndEqual
  rw [hfind]
  exact beq_iff_eq.mpr hstatus

theorem presentAndEqual_set_other {now : Time} {new : Condition} {conditions : List Condition}
    {type : ConditionType} {status : ConditionStatus} (h : type ≠ new.type) :
    isStatusConditionPresentAndEqual (setStatusCondition now new conditions) type status =
      isStatusConditionPresentAndEqual conditions type status := by
  unfold isStatusConditionPresentAndEqual
  rw [findStatusCondition_set_other h]

/-- `controllerutil.ContainsFinalizer` -/
def containsFinalizer (snr : SNR) (finalizer : String) : Bool := snr.finalizers.contains finalizer

/-- `controllerutil.AddFinalizer` -/
def addFinalizerTo (snr : SNR) (finalizer : String) : SNR :=
  if containsFinalizer snr finalizer then snr
  else { snr with finalizers := snr.finalizers ++ [finalizer] }

theorem addFinalizerTo_status (snr : SNR) (finalizer : String) (status : Status) :
    addFinalizerTo { snr with status := status } finalizer =
      { addFinalizerTo snr finalizer with status := status } := by
  unfold addFinalizerTo containsFinalizer
  dsimp only
  split <;> rfl

/-- Nothing but the finalizers changes. -/
theorem addFinalizerTo_eq (snr : SNR) (finalizer : String) :
    addFinalizerTo snr finalizer =
      { snr with finalizers := (addFinalizerTo snr finalizer).finalizers } := by
  unfold addFinalizerTo
  split <;> rfl

theorem status_addFinalizerTo (snr : SNR) (finalizer : String) :
    (addFinalizerTo snr finalizer).status = snr.status := by
  rw [addFinalizerTo_eq]

/-- `controllerutil.RemoveFinalizer` -/
def removeFinalizerFrom (snr : SNR) (finalizer : String) : SNR :=
  { snr with finalizers := snr.finalizers.filter (· != finalizer) }

theorem contains_addFinalizerTo (snr : SNR) (finalizer : String) :
    containsFinalizer (addFinalizerTo snr finalizer) finalizer = true := by
  unfold addFinalizerTo
  split
  · next h => exact h
  · simp [containsFinalizer]

theorem contains_removeFinalizerFrom (snr : SNR) (finalizer : String) :
    containsFinalizer (removeFinalizerFrom snr finalizer) finalizer = false := by
  simp [containsFinalizer, removeFinalizerFrom]

end SelfNodeRemediation
