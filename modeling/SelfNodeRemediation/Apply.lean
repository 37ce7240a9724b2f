import SelfNodeRemediation.Lib.Interaction
import SelfNodeRemediation.Unstructured

/-!
# Applying a manifest

`internal/apply` merges a desired object with the existing one and updates it if the
result differs. The merge writes a few fields of the desired object: the annotations of
a Deployment, the addresses of a Service, the secrets of a ServiceAccount, and then the
metadata of any object.

* `mergeObjectForUpdate`: the merges in the order of the source.
* `applyObject`: a program over the calls to the API server.
-/

namespace SelfNodeRemediation.Apply

open Interaction

/-! ## 1. Getters and setters -/

/-- What is used of apimachinery: times as RFC 3339, of which the zero time and what
cannot be parsed are `none`, the entries of the managed fields, and semantic equality. A
printed time of a four-digit year is parsed and printed alike. -/
structure Apimachinery where
  Timestamp : Type
  parseTime : String → Option Timestamp
  formatTime : Timestamp → String
  parse_empty : parseTime "" = none
  parse_format : ∀ t, (parseTime (formatTime t)).map formatTime = some (formatTime t)
  ManagedFieldsEntry : Type
  fromUnstructured : Dict String Json → Option ManagedFieldsEntry
  toUnstructured : ManagedFieldsEntry → Dict String Json
  from_to : ∀ e, fromUnstructured (toUnstructured e) = some e
  deepEqual : Unstructured → Unstructured → Bool
  deepEqual_refl : ∀ u, deepEqual u u = true

def getNestedString (obj : Unstructured) (fields : List String) : String :=
  (found (nestedString obj fields)).getD ""

/-- A setter removes the field for the empty string. -/
def stringValue (s : String) : Option Json := if s = "" then none else some (.string s)

def getName (u : Unstructured) : String := getNestedString u ["metadata", "name"]

def getNamespace (u : Unstructured) : String := getNestedString u ["metadata", "namespace"]

def getUID (u : Unstructured) : String := getNestedString u ["metadata", "uid"]

def setUID (uid : String) : Unstructured → Unstructured :=
  setField "metadata" "uid" (stringValue uid)

def getResourceVersion (u : Unstructured) : String :=
  getNestedString u ["metadata", "resourceVersion"]

def setResourceVersion (resourceVersion : String) : Unstructured → Unstructured :=
  setField "metadata" "resourceVersion" (stringValue resourceVersion)

def getSelfLink (u : Unstructured) : String := getNestedString u ["metadata", "selfLink"]

def setSelfLink (selfLink : String) : Unstructured → Unstructured :=
  setField "metadata" "selfLink" (stringValue selfLink)

def getGeneration (u : Unstructured) : Int64 :=
  (found (nestedInt64 u ["metadata", "generation"])).getD 0

def generationValue (generation : Int64) : Option Json :=
  if generation = 0 then none else some (.int generation)

def setGeneration (generation : Int64) : Unstructured → Unstructured :=
  setField "metadata" "generation" (generationValue generation)

def getFinalizers (u : Unstructured) : Option (List String) :=
  found (nestedStringSlice u ["metadata", "finalizers"])

def finalizersValue (finalizers : Option (List String)) : Option Json :=
  finalizers.map fun fs => .list (fs.map .string)

def setFinalizers (finalizers : Option (List String)) : Unstructured → Unstructured :=
  setField "metadata" "finalizers" (finalizersValue finalizers)

/-- `GetAnnotations` and `GetLabels`; nil is `none`. -/
def getStringMap (name : String) (u : Unstructured) : Option (Dict String String) :=
  (found (nestedNullCoercingStringMap u ["metadata", name])).join

def stringMapValue (m : Dict String String) : Json := .map (m.map .string)

def setStringMap (name : String) (m : Dict String String) : Unstructured → Unstructured :=
  setField "metadata" name (some (stringMapValue m))

section Converted

variable (api : Apimachinery)

def getCreationTimestamp (u : Unstructured) : Option api.Timestamp :=
  api.parseTime (getNestedString u ["metadata", "creationTimestamp"])

def timestampValue (timestamp : Option api.Timestamp) : Option Json :=
  timestamp.map fun t => .string (api.formatTime t)

def setCreationTimestamp (timestamp : Option api.Timestamp) : Unstructured → Unstructured :=
  setField "metadata" "creationTimestamp" (timestampValue api timestamp)

/-- One entry of the list that is not an object, or not an entry, spoils it. -/
def managedFields? : Json → Option (List api.ManagedFieldsEntry)
  | .list items => items.mapM fun
    | .map m => api.fromUnstructured m
    | _ => none
  | _ => none

def getManagedFields (u : Unstructured) : Option (List api.ManagedFieldsEntry) :=
  (found (nestedField u ["metadata", "managedFields"])).bind (managedFields? api)

def managedFieldsValue (managedFields : Option (List api.ManagedFieldsEntry)) : Option Json :=
  managedFields.map fun es => .list (es.map fun e => .map (api.toUnstructured e))

def setManagedFields (managedFields : Option (List api.ManagedFieldsEntry)) :
    Unstructured → Unstructured :=
  setField "metadata" "managedFields" (managedFieldsValue api managedFields)

end Converted

structure GroupVersionKind where
  group : String
  version : String
  kind : String
deriving DecidableEq, Repr

/-- `ParseGroupVersion`; a version with two slashes is an error. -/
def parseGroupVersion (gv : String) : Option (String × String) :=
  if gv = "" ∨ gv = "/" then some ("", "")
  else
    match (gv.toList.splitOn '/').map String.ofList with
    | [version] => some ("", version)
    | [group, version] => some (group, version)
    | _ => none

def groupVersionKind (u : Unstructured) : GroupVersionKind :=
  match parseGroupVersion (getNestedString u ["apiVersion"]) with
  | none => ⟨"", "", ""⟩
  | some (group, version) => ⟨group, version, getNestedString u ["kind"]⟩

def GroupVersionKind.string (gvk : GroupVersionKind) : String :=
  gvk.group ++ "/" ++ gvk.version ++ ", Kind=" ++ gvk.kind

/-! ## 2. Merging -/

def deploymentRevisionAnnotation : String := "deployment.kubernetes.io/revision"

def IsDeployment (u : Unstructured) : Prop :=
  (groupVersionKind u).group = "apps" ∧ (groupVersionKind u).kind = "Deployment"

def IsService (u : Unstructured) : Prop :=
  (groupVersionKind u).group = "" ∧ (groupVersionKind u).kind = "Service"

def IsServiceAccount (u : Unstructured) : Prop :=
  (groupVersionKind u).group = "" ∧ (groupVersionKind u).kind = "ServiceAccount"

instance (u : Unstructured) : Decidable (IsDeployment u) := instDecidableAnd

instance (u : Unstructured) : Decidable (IsService u) := instDecidableAnd

instance (u : Unstructured) : Decidable (IsServiceAccount u) := instDecidableAnd

/-- The annotations of the desired Deployment with the existing revision. -/
def revisedAnnotations (current updated : Unstructured) : Dict String String :=
  let updatedAnnotations := (getStringMap "annotations" updated).getD .empty
  match (getStringMap "annotations" current).bind (·.get? deploymentRevisionAnnotation) with
  | some anno => updatedAnnotations.set deploymentRevisionAnnotation anno
  | none => updatedAnnotations

def mergeDeploymentForUpdate (current updated : Unstructured) : Except GoErr Unstructured :=
  if IsDeployment updated then
    .ok (setStringMap "annotations" (revisedAnnotations current updated) updated)
  else .ok updated

/-- A field that is found in the existing object is copied. -/
def copyNested {α : Type} (lookup : Unstructured → List String → Except GoErr (Option α))
    (encode : α → Json) (fields : List String) (last : String) (current updated : Unstructured) :
    Except GoErr Unstructured :=
  match lookup current (fields ++ [last]) with
  | .error err => .error err
  | .ok none => .ok updated
  | .ok (some a) => setNestedField (encode a) last fields updated

def stringSlice (ss : List String) : Json := .list (ss.map .string)

/-- Unlike the addresses, the policy of the desired object wins. -/
def mergeIPFamilyPolicy (current updated : Unstructured) : Except GoErr Unstructured := do
  let old ← nestedString current ["spec", "ipFamilyPolicy"]
  let new ← nestedString updated ["spec", "ipFamilyPolicy"]
  match old, new with
  | some ipFamilyPolicy, none =>
    setNestedField (.string ipFamilyPolicy) "ipFamilyPolicy" ["spec"] updated
  | _, _ => .ok updated

def mergeServiceFields (current updated : Unstructured) : Except GoErr Unstructured := do
  let updated ← copyNested nestedString .string ["spec"] "clusterIP" current updated
  let updated ← copyNested nestedStringSlice stringSlice ["spec"] "clusterIPs" current updated
  let updated ← copyNested nestedStringSlice stringSlice ["spec"] "ipFamilies" current updated
  mergeIPFamilyPolicy current updated

def mergeServiceForUpdate (current updated : Unstructured) : Except GoErr Unstructured :=
  if IsService updated then mergeServiceFields current updated else .ok updated

def mergeServiceAccountFields (current updated : Unstructured) : Except GoErr Unstructured := do
  let updated ← copyNested nestedSlice .list [] "secrets" current updated
  copyNested nestedSlice .list [] "imagePullSecrets" current updated

def mergeServiceAccountForUpdate (current updated : Unstructured) :
    Except GoErr Unstructured :=
  if IsServiceAccount updated then mergeServiceAccountFields current updated else .ok updated

/-- The entries of the existing object are added, and the desired ones win. -/
def mergeStringMap (name : String) (current updated : Unstructured) : Unstructured :=
  let merged := ((getStringMap name current).getD .empty).override
    ((getStringMap name updated).getD .empty)
  if merged.isEmpty then updated else setStringMap name merged updated

def mergeAnnotations : Unstructured → Unstructured → Unstructured := mergeStringMap "annotations"

def mergeLabels : Unstructured → Unstructured → Unstructured := mergeStringMap "labels"

section Merge

variable (api : Apimachinery)

def mergeMetadataForUpdate (current updated : Unstructured) : Unstructured :=
  let updated := setCreationTimestamp api (getCreationTimestamp api current) updated
  let updated := setSelfLink (getSelfLink current) updated
  let updated := setGeneration (getGeneration current) updated
  let updated := setUID (getUID current) updated
  let updated := setResourceVersion (getResourceVersion current) updated
  let updated := setManagedFields api (getManagedFields api current) updated
  let updated := setFinalizers (getFinalizers current) updated
  let updated := mergeAnnotations current updated
  mergeLabels current updated

/-- The kind-specific part of `MergeObjectForUpdate`. -/
def mergeKinds (current updated : Unstructured) : Except GoErr Unstructured := do
  let updated ← mergeDeploymentForUpdate current updated
  let updated ← mergeServiceForUpdate current updated
  mergeServiceAccountForUpdate current updated

def mergeObjectForUpdate (current updated : Unstructured) : Except GoErr Unstructured := do
  let updated ← mergeKinds current updated
  return mergeMetadataForUpdate api current updated

end Merge

/-! ## 3. Applying -/

def isObjectSupported (obj : Unstructured) : Except GoErr Unit :=
  if IsServiceAccount obj then do
    match ← nestedSlice obj ["secrets"] with
    | some (_ :: _) => .error (.new "cannot create ServiceAccount with secrets")
    | _ => .ok ()
  else .ok ()

/-- What identifies an object for the API server. -/
structure ObjectKey where
  gvk : GroupVersionKind
  namespace_ : String
  name : String
deriving DecidableEq, Repr

inductive Call
  | get (key : ObjectKey)
  | create (obj : Unstructured)
  | update (obj : Unstructured)

abbrev Resp : Call → Type
  | .get _ => Except GoErr Unstructured
  | .create _ | .update _ => Option GoErr

def ask (c : Call) : Prog Call Resp (Resp c) := Prog.perform c

section Apply

variable (api : Apimachinery)

/-- `ApplyObject` with the answer to its read. -/
def applyOver (objDesc : String) (obj : Unstructured) :
    Except GoErr Unstructured → Prog Call Resp (Option GoErr)
  | .error err =>
    if err.isNotFound then do
      pure ((← ask (.create obj)).map (·.wrap ("could not create " ++ objDesc)))
    else pure (some (err.wrap ("could not retrieve existing " ++ objDesc)))
  | .ok existing =>
    match mergeObjectForUpdate api existing obj with
    | .error err =>
      pure (some (err.wrap ("could not merge object " ++ objDesc ++ " with existing")))
    | .ok merged =>
      if api.deepEqual existing merged then pure none
      else do
        pure ((← ask (.update merged)).map (·.wrap ("could not update object " ++ objDesc)))

def applyObject (obj : Unstructured) : Prog Call Resp (Option GoErr) :=
  let gvk := groupVersionKind obj
  let objDesc := "(" ++ gvk.string ++ ") " ++ getNamespace obj ++ "/" ++ getName obj
  if getName obj = "" then pure (some (.new ("Object " ++ gvk.string ++ " has no name")))
  else
    match isObjectSupported obj with
    | .error err => pure (some (err.wrap ("object " ++ objDesc ++ " unsupported")))
    | .ok _ => do
      applyOver api objDesc obj (← ask (.get ⟨gvk, getNamespace obj, getName obj⟩))

end Apply

end SelfNodeRemediation.Apply
