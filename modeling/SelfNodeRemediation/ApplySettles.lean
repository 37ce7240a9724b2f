import SelfNodeRemediation.ApplyTwice

/-!
# Applying a manifest twice

* `Merged`: what a merged object has from where.
* `apply_settles`: a manifest that was applied is not applied again.
-/

namespace SelfNodeRemediation.Apply

open Interaction

/-! ## 1. What a merged object has from where -/

/-- The fields that are copied into the specification of a Service. -/
def serviceFields : List String := ["clusterIP", "clusterIPs", "ipFamilies", "ipFamilyPolicy"]

/-- The fields that are copied into a ServiceAccount. -/
def serviceAccountFields : List String := ["secrets", "imagePullSecrets"]

/-- The entries of the desired object win, but for the revision of a Deployment. What the
server owns is the existing object's, the time of creation as it is printed. The rest is
the desired object's. -/
structure Merged (api : Apimachinery) (existing desired merged : Unstructured) : Prop where
  labels : ∀ k, (entries "labels" merged).get? k =
    ((entries "labels" desired).get? k).or ((entries "labels" existing).get? k)
  annotations : ∀ k, ¬ (IsDeployment desired ∧ k = deploymentRevisionAnnotation) →
    (entries "annotations" merged).get? k =
      ((entries "annotations" desired).get? k).or ((entries "annotations" existing).get? k)
  revision : IsDeployment desired →
    (entries "annotations" merged).get? deploymentRevisionAnnotation =
      ((entries "annotations" existing).get? deploymentRevisionAnnotation).or
        ((entries "annotations" desired).get? deploymentRevisionAnnotation)
  finalizers : getFinalizers merged = getFinalizers existing
  uid : getUID merged = getUID existing
  creationTimestamp : (getCreationTimestamp api merged).map api.formatTime =
    (getCreationTimestamp api existing).map api.formatTime
  selfLink : getSelfLink merged = getSelfLink existing
  resourceVersion : getResourceVersion merged = getResourceVersion existing
  generation : getGeneration merged = getGeneration existing
  managedFields : getManagedFields api merged = getManagedFields api existing
  metadata : ∀ name, name ∉ metadataFields →
    field? "metadata" merged name = field? "metadata" desired name
  spec : IsService desired → ∀ name, name ∉ serviceFields →
    nestedField merged ["spec", name] = nestedField desired ["spec", name]
  rest : ∀ part, part ≠ "metadata" → ¬ (IsService desired ∧ part = "spec") →
    ¬ (IsServiceAccount desired ∧ part ∈ serviceAccountFields) →
    merged.get? part = desired.get? part

section Merge

variable {api : Apimachinery} {existing desired updated merged : Unstructured}

theorem mergeObjectForUpdate_steps (h : mergeObjectForUpdate api existing desired = .ok merged) :
    ∃ updated, mergeKinds existing desired = .ok updated ∧
      merged = mergeMetadataForUpdate api existing updated := by
  obtain ⟨updated, hkinds, h⟩ := bind_ok h
  cases h
  exact ⟨updated, hkinds, rfl⟩

theorem mergeServiceFields_of_notMem {name : String}
    (h : mergeServiceFields existing desired = .ok updated) (hname : name ∉ serviceFields) :
    nestedField updated ["spec", name] = nestedField desired ["spec", name] := by
  simp only [serviceFields, List.mem_cons, List.not_mem_nil, or_false, not_or] at hname
  obtain ⟨hclusterIP, hclusterIPs, hipFamilies, hipFamilyPolicy⟩ := hname
  obtain ⟨u₁, u₂, u₃, h₁, h₂, h₃, h₄⟩ := mergeServiceFields_steps h
  calc nestedField updated ["spec", name]
      = nestedField u₃ ["spec", name] := mergeIPFamilyPolicy_of_ne h₄ hipFamilyPolicy
    _ = nestedField u₂ ["spec", name] := Codec.copy_of_ne h₃ hipFamilies
    _ = nestedField u₁ ["spec", name] := Codec.copy_of_ne h₂ hclusterIPs
    _ = nestedField desired ["spec", name] := Codec.copy_of_ne h₁ hclusterIP

/-- The merge of a kind keeps what it does not copy. -/
theorem get?_mergeKinds {part : String} (h : mergeKinds existing desired = .ok updated)
    (hpart : part ≠ "metadata") (hservice : ¬ (IsService desired ∧ part = "spec"))
    (haccount : ¬ (IsServiceAccount desired ∧ part ∈ serviceAccountFields)) :
    updated.get? part = desired.get? part := by
  rcases mergeKinds_cases h with ⟨-, rfl⟩ | ⟨hs, hupdated⟩ | ⟨ha, hupdated⟩ | ⟨-, rfl⟩
  · exact get?_setField_of_ne hpart _
  · exact get?_mergeServiceFields hupdated fun hspec => hservice ⟨hs, hspec⟩
  · refine get?_mergeServiceAccountFields hupdated (fun hsecrets => haccount ⟨ha, ?_⟩)
      fun hpull => haccount ⟨ha, ?_⟩
    · rw [hsecrets]
      decide
    · rw [hpull]
      decide
  · rfl

theorem field?_mergeMetadataForUpdate (hset : Settable "metadata" updated) (name : String) :
    field? "metadata" (mergeMetadataForUpdate api existing updated) name =
      ((metadataOf api existing updated).lookup name).getD (field? "metadata" updated name) := by
  rw [mergeMetadataForUpdate_eq, field?_assign hset (metadataOf_nodup api existing updated)]

theorem mergeObjectForUpdate_merged (h : mergeObjectForUpdate api existing desired = .ok merged)
    (hset : Settable "metadata" desired) : Merged api existing desired merged := by
  obtain ⟨updated, hkinds, rfl⟩ := mergeObjectForUpdate_steps h
  have hfield := @field?_mergeMetadataForUpdate api existing updated
    (settable_mergeKinds hkinds hset)
  have hget {part : String} (hpart : part ≠ "metadata") :
      (mergeMetadataForUpdate api existing updated).get? part = updated.get? part := by
    rw [mergeMetadataForUpdate_eq, get?_assign hpart]
  have hannotations := entries_annotations_mergeKinds hkinds hset
  refine
    { labels := fun k => ?_
      annotations := fun k hk => ?_
      revision := fun hd => ?_
      finalizers := getFinalizers_finalizersValue (hfield "finalizers")
      uid := getNestedString_stringValue (hfield "uid")
      creationTimestamp := formatTime_getCreationTimestamp (hfield "creationTimestamp")
      selfLink := getNestedString_stringValue (hfield "selfLink")
      resourceVersion := getNestedString_stringValue (hfield "resourceVersion")
      generation := getGeneration_generationValue (hfield "generation")
      managedFields := getManagedFields_managedFieldsValue (hfield "managedFields")
      metadata := fun name hname => ?_
      spec := fun hs name hname => ?_
      rest := fun part hpart hservice haccount => ?_ }
  · rw [entries_mergedValue (hfield "labels"), mergedEntries, Dict.get?_override,
      entries_congr (field?_mergeKinds hkinds hset (by decide))]
  · rw [entries_mergedValue (hfield "annotations"), mergedEntries, Dict.get?_override, hannotations]
    by_cases hd : IsDeployment desired
    · rw [if_pos hd, get?_revisedAnnotations, if_neg fun hrev => hk ⟨hd, hrev⟩]
    · rw [if_neg hd]
  · rw [entries_mergedValue (hfield "annotations"), mergedEntries, Dict.get?_override, hannotations,
      if_pos hd, get?_revisedAnnotations, if_pos rfl]
    cases (entries "annotations" existing).get? deploymentRevisionAnnotation with
    | some anno => rfl
    | none => exact Option.or_none
  · rw [hfield, lookup_eq_none hname]
    exact field?_mergeKinds hkinds hset fun hannot => hname (hannot ▸ by decide)
  · rw [nestedField_congr [name] (hget (by decide))]
    rcases mergeKinds_cases hkinds with ⟨hd, -⟩ | ⟨-, hupdated⟩ | ⟨ha, -⟩ | ⟨⟨-, hs', -⟩, -⟩
    · exact absurd hd (IsService.not_deployment hs)
    · exact mergeServiceFields_of_notMem hupdated hname
    · exact absurd hs (IsServiceAccount.not_service ha)
    · exact absurd hs hs'
  · rw [hget hpart, get?_mergeKinds hkinds hpart hservice haccount]

end Merge

/-! ## 2. Applying -/

/-- The object of the manifest at the API server, and the updates of it that were sent. -/
structure Server where
  object : Option Unstructured
  updates : List Unstructured

section Apply

variable (api : Apimachinery)

/-- Objects are stored as they are sent, with what the server assigns. -/
def serve (a : Assigned api) : (c : Call) → Server → Resp c × Server
  | .get _, s =>
    (match s.object with
      | some obj => .ok obj
      | none => .error ⟨.notFound, "not found"⟩, s)
  | .create obj, s => (none, { s with object := some (stored api a obj) })
  | .update obj, s => (none, ⟨some (stored api a obj), s.updates ++ [obj]⟩)

/-- The server after a manifest was applied. -/
def applied (a : Assigned api) (desired : Unstructured) (s : Server) : Server :=
  ((applyObject api desired).eval (serve api a) s).2

variable {api}

theorem applyOver_merged {existing desired merged : Unstructured} (objDesc : String)
    (h : mergeObjectForUpdate api existing desired = .ok merged) :
    applyOver api objDesc desired (.ok existing) =
      if api.deepEqual existing merged then pure none
      else ask (.update merged) >>= fun err =>
        pure (err.map (·.wrap ("could not update object " ++ objDesc))) := by
  unfold applyOver
  dsimp only
  rw [h]

/-- The manifest is applied to the object it was merged with: an update is sent, unless
it is refused before or changes nothing. -/
theorem applied_merged {existing desired merged : Unstructured}
    (h : mergeObjectForUpdate api existing desired = .ok merged) (a : Assigned api)
    (updates : List Unstructured) :
    applied api a desired ⟨some existing, updates⟩ =
      if getName desired = "" ∨ isObjectSupported desired ≠ .ok () ∨
          api.deepEqual existing merged = true then ⟨some existing, updates⟩
      else ⟨some (stored api a merged), updates ++ [merged]⟩ := by
  unfold applied applyObject
  by_cases hname : getName desired = ""
  · rw [if_pos hname, if_pos (.inl hname)]
    rfl
  · rw [if_neg hname]
    cases hsupported : isObjectSupported desired with
    | error err =>
      rw [if_pos (.inr (.inl nofun))]
      rfl
    | ok _ =>
      show ((applyOver api _ desired (.ok existing)).eval (serve api a)
        ⟨some existing, updates⟩).2 = _
      by_cases hequal : api.deepEqual existing merged = true
      · rw [if_pos (.inr (.inr hequal))]
        rw [applyOver_merged _ h, if_pos hequal]
        rfl
      · rw [if_neg (not_or.mpr ⟨hname, not_or.mpr ⟨fun hne => hne rfl, hequal⟩⟩)]
        rw [applyOver_merged _ h, if_neg hequal]
        rfl

/-- The merge of a stored object yields the object. -/
theorem mergeObjectForUpdate_stored {existing desired merged : Unstructured}
    (h : mergeObjectForUpdate api existing desired = .ok merged) (htyped : Typed desired)
    (a : Assigned api) :
    mergeObjectForUpdate api (stored api a merged) desired = .ok (stored api a merged) := by
  obtain ⟨updated, hkinds, rfl⟩ := mergeObjectForUpdate_steps h
  unfold mergeObjectForUpdate
  rw [mergeKinds_stored hkinds htyped]
  exact congrArg Except.ok mergeMetadataForUpdate_stored

theorem applied_stored {existing desired merged : Unstructured}
    (h : mergeObjectForUpdate api existing desired = .ok merged) (htyped : Typed desired)
    (a a' : Assigned api) (updates : List Unstructured) :
    applied api a' desired ⟨some (stored api a merged), updates⟩ =
      ⟨some (stored api a merged), updates⟩ := by
  rw [applied_merged (mergeObjectForUpdate_stored h htyped a)]
  exact if_pos (.inr (.inr (api.deepEqual_refl _)))

end Apply

/-! ## 3. A Service -/

/-- One time, and managed fields as they are. -/
noncomputable def plain : Apimachinery where
  Timestamp := Unit
  parseTime s := if s = "" then none else some ()
  formatTime _ := "1970-01-01T00:00:00Z"
  parse_empty := rfl
  parse_format _ := by decide
  ManagedFieldsEntry := Dict String Json
  fromUnstructured := some
  toUnstructured := id
  from_to _ := rfl
  deepEqual u v := open Classical in decide (u = v)
  deepEqual_refl _ := by simp

def serviceObject (metadata spec : Dict String Json) : Unstructured :=
  (((Dict.empty.set "apiVersion" (.string "v1")).set "kind" (.string "Service")).set "metadata"
    (.map metadata)).set "spec" (.map spec)

def assigned : Assigned plain where
  resourceVersion := "8"
  generation := 1
  managedFields := none
  resourceVersion_ne := by decide

/-- A Service with an address, as it was read. -/
def existingService : Unstructured :=
  serviceObject (((Dict.empty.set "name" (.string "snr")).set "resourceVersion" (.string "7")).set
    "selfLink" (.string "/api/v1/namespaces/default/services/snr"))
    (Dict.empty.set "clusterIP" (.string "10.0.0.1"))

/-- A Service without one, and with a label. -/
def desiredService : Unstructured :=
  serviceObject ((Dict.empty.set "name" (.string "snr")).set "labels"
    (.map (Dict.empty.set "app" (.string "snr")))) .empty

def error? {α : Type} : Except GoErr α → Option GoErr
  | .ok _ => none
  | .error err => some err

theorem error?_eq_some {α : Type} {x : Except GoErr α} {err : GoErr} (h : error? x = some err) :
    x = .error err := by
  cases x with
  | ok _ => cases h
  | error _ => exact congrArg Except.error (Option.some.inj h)

theorem ok_of_toOption {α β : Type} {x : Except GoErr α} {f : α → β} {b : β}
    (h : x.toOption.map f = some b) : ∃ a, x = .ok a ∧ f a = b := by
  cases x with
  | error err => cases h
  | ok a => exact ⟨a, rfl, Option.some.inj h⟩

/-! ## 4. Applied twice -/

/-- A manifest whose merged fields have their types is applied once: the merge of the
stored object yields the object, and nothing is sent for it. If the metadata of the
manifest is an object, the merge takes it from where `Merged` says. -/
theorem apply_settles {api : Apimachinery} {existing desired merged : Unstructured}
    (h : mergeObjectForUpdate api existing desired = .ok merged) (htyped : Typed desired)
    (a a' : Assigned api) (updates : List Unstructured) :
    mergeObjectForUpdate api (stored api a merged) desired = .ok (stored api a merged) ∧
      applied api a' desired ⟨some (stored api a merged), updates⟩ =
        ⟨some (stored api a merged), updates⟩ ∧
      applied api a' desired (applied api a desired ⟨some existing, updates⟩) =
        applied api a desired ⟨some existing, updates⟩ ∧
      (Settable "metadata" desired → Merged api existing desired merged) := by
  refine ⟨mergeObjectForUpdate_stored h htyped a, applied_stored h htyped a a' updates, ?_,
    mergeObjectForUpdate_merged h⟩
  rw [applied_merged h a]
  split
  · next hkept => rw [applied_merged h a', if_pos hkept]
  · exact applied_stored h htyped a a' _

/-- The address is kept, and the label is there once and for all. -/
theorem apply_settles_service :
    ∃ merged, mergeObjectForUpdate plain existingService desiredService = .ok merged ∧
      getNestedString merged ["spec", "clusterIP"] = "10.0.0.1" ∧
      mergeObjectForUpdate plain (stored plain assigned merged) desiredService =
        .ok (stored plain assigned merged) ∧
      applied plain assigned desiredService ⟨some (stored plain assigned merged), []⟩ =
        ⟨some (stored plain assigned merged), []⟩ ∧
      Merged plain existingService desiredService merged := by
  obtain ⟨merged, hmerged, hclusterIP⟩ := @ok_of_toOption _ _
    (mergeObjectForUpdate plain existingService desiredService)
    (getNestedString · ["spec", "clusterIP"]) "10.0.0.1" (by decide +kernel)
  have htyped : Typed desiredService :=
    { clusterIP := fun _ => ⟨none, by decide +kernel⟩
      clusterIPs := fun _ => ⟨none, by decide +kernel⟩
      ipFamilies := fun _ => ⟨none, by decide +kernel⟩
      secrets := fun h => absurd h (by decide +kernel)
      imagePullSecrets := fun h => absurd h (by decide +kernel) }
  obtain ⟨hmerge, happlied, -, hfrom⟩ := apply_settles hmerged htyped assigned assigned []
  exact ⟨merged, hmerged, hclusterIP, hmerge, happlied,
    hfrom (settable_of_map (Dict.get?_set_of_ne _ (by decide) _))⟩

/-- A Service whose metadata is a text. -/
def textService : Unstructured :=
  ((Dict.empty.set "apiVersion" (.string "v1")).set "kind" (.string "Service")).set "metadata"
    (.string "snr")

/-- A Service whose address is null is merged with one that has none, and the result is
not merged again. The link of an existing object is in the merged one, and not in the
desired one. In an object whose metadata is a text the labels of an existing one are lost. -/
theorem apply_unsettled :
    (∃ merged,
      mergeObjectForUpdate plain (serviceObject .empty .empty)
          (serviceObject .empty (Dict.empty.set "clusterIP" .null)) = .ok merged ∧
        mergeObjectForUpdate plain (stored plain assigned merged)
            (serviceObject .empty (Dict.empty.set "clusterIP" .null)) =
          .error (accessorError ["spec", "clusterIP"]
            "<nil> is of the type <nil>, expected string")) ∧
      (∃ merged, mergeObjectForUpdate plain existingService desiredService = .ok merged ∧
        getSelfLink merged ≠ getSelfLink desiredService) ∧
      ∃ merged, mergeObjectForUpdate plain desiredService textService = .ok merged ∧
        (getStringMap "labels" desiredService).bind (·.get? "app") = some "snr" ∧
        getStringMap "labels" merged = none := by
  refine ⟨?_, ?_, ?_⟩
  · obtain ⟨merged, hmerged, herr⟩ := @ok_of_toOption _ _
      (mergeObjectForUpdate plain (serviceObject .empty .empty)
        (serviceObject .empty (Dict.empty.set "clusterIP" .null)))
      (fun merged => error? (mergeObjectForUpdate plain (stored plain assigned merged)
        (serviceObject .empty (Dict.empty.set "clusterIP" .null))))
      (some (accessorError ["spec", "clusterIP"] "<nil> is of the type <nil>, expected string"))
      (by decide +kernel)
    exact ⟨merged, hmerged, error?_eq_some herr⟩
  · obtain ⟨merged, hmerged, hlink⟩ := @ok_of_toOption _ _
      (mergeObjectForUpdate plain existingService desiredService) getSelfLink
      "/api/v1/namespaces/default/services/snr" (by decide +kernel)
    refine ⟨merged, hmerged, ?_⟩
    rw [hlink]
    decide +kernel
  · obtain ⟨merged, hmerged, hlabels⟩ := @ok_of_toOption _ _
      (mergeObjectForUpdate plain desiredService textService)
      (fun merged => (getStringMap "labels" merged).isNone) true (by decide +kernel)
    exact ⟨merged, hmerged, by decide +kernel, Option.isNone_iff_eq_none.mp hlabels⟩

end SelfNodeRemediation.Apply
