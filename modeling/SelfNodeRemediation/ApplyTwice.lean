import SelfNodeRemediation.Apply

/-!
# Merging twice

What the merge assigns, and that it makes nothing more of its own result.

* `mergeMetadataForUpdate_eq`: the metadata merge assigns nine fields.
* `mergeMetadataForUpdate_stored`: an object that was merged and stored keeps its
  metadata when it is merged again.
* `mergeKinds_cases`: what the merge of a kind does.
* `mergeKinds_stored`: an object that was merged and stored keeps the fields of its kind.
-/

namespace SelfNodeRemediation.Apply

open Interaction

/-! ## 1. Assignments to the metadata -/

/-- Fields of the metadata are set one after the other. -/
def assign (fields : List (String × Option Json)) (u : Unstructured) : Unstructured :=
  fields.foldl (fun u f => setField "metadata" f.1 f.2 u) u

section Assign

variable {fields : List (String × Option Json)} {u : Unstructured}

theorem assign_of_not_settable (h : ¬ Settable "metadata" u) : assign fields u = u := by
  induction fields with
  | nil => rfl
  | cons f fields ih =>
    show assign fields (setField "metadata" f.1 f.2 u) = u
    rw [setField_of_not_settable h, ih]

theorem settable_assign (h : Settable "metadata" u) : Settable "metadata" (assign fields u) := by
  induction fields generalizing u with
  | nil => exact h
  | cons f fields ih => exact ih (settable_setField h f.2)

theorem get?_assign {part : String} (h : part ≠ "metadata") :
    (assign fields u).get? part = u.get? part := by
  induction fields generalizing u with
  | nil => rfl
  | cons f fields ih => exact (ih).trans (get?_setField_of_ne h f.2)

theorem lookup_eq_none {name : String} (h : name ∉ fields.map Prod.fst) :
    fields.lookup name = none := by
  rw [List.lookup_eq_none_iff]
  intro p hp
  simpa using fun heq : name = p.1 => h (List.mem_map.mpr ⟨p, hp, heq.symm⟩)

/-- A field that was assigned has its value, the others are as before. -/
theorem field?_assign (h : Settable "metadata" u) (hnodup : (fields.map Prod.fst).Nodup)
    (name : String) :
    field? "metadata" (assign fields u) name =
      (fields.lookup name).getD (field? "metadata" u name) := by
  induction fields generalizing u with
  | nil => rfl
  | cons f fields ih =>
    obtain ⟨key, value⟩ := f
    obtain ⟨hnew, hrest⟩ := List.nodup_cons.mp hnodup
    refine (ih (settable_setField h value) hrest).trans ?_
    rw [field?_setField h, List.lookup_cons]
    by_cases hname : name = key
    · subst hname
      rw [lookup_eq_none hnew, Function.update_self, beq_self_eq_true]
      rfl
    · rw [Function.update_of_ne hname, beq_false_of_ne hname]

theorem field?_assign_of_notMem {name : String} (h : name ∉ fields.map Prod.fst) :
    field? "metadata" (assign fields u) name = field? "metadata" u name := by
  by_cases hs : Settable "metadata" u
  · induction fields generalizing u with
    | nil => rfl
    | cons f fields ih =>
      have hne : name ≠ f.1 := fun heq => h (heq ▸ List.mem_cons_self)
      have hrest : name ∉ fields.map Prod.fst := fun hmem => h (List.mem_cons_of_mem _ hmem)
      exact (ih hrest (settable_setField hs f.2)).trans (field?_setField_of_ne hs hne f.2)
  · rw [assign_of_not_settable hs]

/-- A value that is assigned makes the metadata. -/
theorem isSome_assign (h : Settable "metadata" u)
    (hsome : (u.get? "metadata").isSome = true ∨ ∃ f ∈ fields, f.2.isSome = true) :
    ((assign fields u).get? "metadata").isSome = true := by
  induction fields generalizing u with
  | nil => exact hsome.resolve_right fun ⟨_, hmem, _⟩ => nomatch hmem
  | cons f fields ih =>
    refine ih (settable_setField h f.2) ?_
    rw [isSome_setField h, Bool.or_eq_true]
    rcases hsome with hold | ⟨g, hmem, hg⟩
    · exact .inl (.inl hold)
    · rcases List.mem_cons.mp hmem with rfl | hmem
      · exact .inl (.inr hg)
      · exact .inr ⟨g, hmem, hg⟩

end Assign

/-! ## 2. The metadata merge -/

/-- The annotations or labels of an object. -/
def entries (name : String) (u : Unstructured) : Dict String String :=
  (getStringMap name u).getD .empty

/-- The merged annotations or labels. -/
def mergedEntries (name : String) (current updated : Unstructured) : Dict String String :=
  (entries name current).override (entries name updated)

/-- Empty annotations or labels are not written. -/
def mergedValue (name : String) (current updated : Unstructured) : Option Json :=
  if (mergedEntries name current updated).isEmpty then field? "metadata" updated name
  else some (stringMapValue (mergedEntries name current updated))

theorem mergeStringMap_eq (name : String) (current updated : Unstructured) :
    mergeStringMap name current updated =
      setField "metadata" name (mergedValue name current updated) updated := by
  show (if (mergedEntries name current updated).isEmpty then updated
    else setField "metadata" name (some (stringMapValue (mergedEntries name current updated)))
      updated) = _
  unfold mergedValue
  split
  · exact (setField_field? "metadata" name updated).symm
  · rfl

theorem getStringMap_eq (name : String) (u : Unstructured) :
    getStringMap name u = ((field? "metadata" u name).bind Json.stringMap?).join :=
  congrArg Option.join (found_nestedTyped _ _ u "metadata" name)

theorem entries_congr {name : String} {u u' : Unstructured}
    (h : field? "metadata" u name = field? "metadata" u' name) :
    entries name u = entries name u' := by
  unfold entries
  rw [getStringMap_eq, getStringMap_eq, h]

theorem mergedValue_congr {name : String} {u u' : Unstructured} (current : Unstructured)
    (h : field? "metadata" u name = field? "metadata" u' name) :
    mergedValue name current u = mergedValue name current u' := by
  unfold mergedValue mergedEntries
  rw [entries_congr h, h]

/-- The fields of the metadata that are merged. -/
def metadataFields : List String :=
  ["creationTimestamp", "selfLink", "generation", "uid", "resourceVersion", "managedFields",
    "finalizers", "annotations", "labels"]

section Metadata

variable (api : Apimachinery)

/-- What the metadata merge assigns, in the order of the source. -/
def metadataOf (current updated : Unstructured) : List (String × Option Json) :=
  [("creationTimestamp", timestampValue api (getCreationTimestamp api current)),
    ("selfLink", stringValue (getSelfLink current)),
    ("generation", generationValue (getGeneration current)),
    ("uid", stringValue (getUID current)),
    ("resourceVersion", stringValue (getResourceVersion current)),
    ("managedFields", managedFieldsValue api (getManagedFields api current)),
    ("finalizers", finalizersValue (getFinalizers current)),
    ("annotations", mergedValue "annotations" current updated),
    ("labels", mergedValue "labels" current updated)]

theorem map_fst_metadataOf (current updated : Unstructured) :
    (metadataOf api current updated).map Prod.fst = metadataFields := rfl

theorem metadataOf_nodup (current updated : Unstructured) :
    ((metadataOf api current updated).map Prod.fst).Nodup := by
  rw [map_fst_metadataOf]
  decide

theorem mergeMetadataForUpdate_eq (current updated : Unstructured) :
    mergeMetadataForUpdate api current updated =
      assign (metadataOf api current updated) updated := by
  -- the annotations and labels that are merged were not touched before
  have hread (k : Nat) {name : String} (hname : name ∉ metadataFields.take k) :
      mergedValue name current (assign ((metadataOf api current updated).take k) updated) =
        mergedValue name current updated := by
    refine mergedValue_congr current (field?_assign_of_notMem ?_)
    rwa [List.map_take, map_fst_metadataOf]
  show mergeStringMap "labels" current (mergeStringMap "annotations" current
    (assign ((metadataOf api current updated).take 7) updated)) = _
  rw [mergeStringMap_eq "annotations", hread 7 (by decide)]
  show mergeStringMap "labels" current
    (assign ((metadataOf api current updated).take 8) updated) = _
  rw [mergeStringMap_eq "labels", hread 8 (by decide)]
  rfl

end Metadata

/-! ## 3. What was written is read back -/

section ReadBack

variable {api : Apimachinery} {u : Unstructured} {name : String}

theorem getNestedString_eq (u : Unstructured) (name : String) :
    getNestedString u ["metadata", name] =
      ((field? "metadata" u name).bind Json.string?).getD "" :=
  congrArg (Option.getD · "") (found_nestedTyped _ _ u "metadata" name)

theorem getNestedString_stringValue {s : String} (h : field? "metadata" u name = stringValue s) :
    getNestedString u ["metadata", name] = s := by
  rw [getNestedString_eq, h, stringValue]
  split
  · next hempty => exact hempty.symm
  · rfl

theorem getGeneration_generationValue {n : Int64}
    (h : field? "metadata" u "generation" = generationValue n) : getGeneration u = n := by
  unfold getGeneration nestedInt64
  rw [found_nestedTyped, h, generationValue]
  split
  · next hzero => exact hzero.symm
  · rfl

theorem mapM_map_some {α β : Type} {f : β → Option α} {g : α → β} (hfg : ∀ a, f (g a) = some a)
    (as : List α) : (as.map g).mapM f = some as := by
  induction as with
  | nil => rfl
  | cons a as ih =>
    rw [List.map_cons, List.mapM_cons, hfg, ih]
    rfl

theorem getFinalizers_finalizersValue {fs : Option (List String)}
    (h : field? "metadata" u "finalizers" = finalizersValue fs) : getFinalizers u = fs := by
  unfold getFinalizers nestedStringSlice
  rw [found_nestedTyped, h]
  cases fs with
  | none => rfl
  | some fs => exact @mapM_map_some String Json Json.string? Json.string (fun _ => rfl) fs

theorem getManagedFields_managedFieldsValue {es : Option (List api.ManagedFieldsEntry)}
    (h : field? "metadata" u "managedFields" = managedFieldsValue api es) :
    getManagedFields api u = es := by
  unfold getManagedFields
  rw [found_nestedField, h]
  cases es with
  | none => rfl
  | some es =>
    show (es.map fun e => Json.map (api.toUnstructured e)).mapM _ = some es
    exact mapM_map_some (g := fun e => Json.map (api.toUnstructured e)) (fun e => api.from_to e) es

/-- A time that was written is read back as it is printed. -/
theorem formatTime_getCreationTimestamp {t : Option api.Timestamp}
    (h : field? "metadata" u "creationTimestamp" = timestampValue api t) :
    (getCreationTimestamp api u).map api.formatTime = t.map api.formatTime := by
  unfold getCreationTimestamp
  rw [getNestedString_eq, h]
  cases t with
  | none => exact congrArg (Option.map api.formatTime) api.parse_empty
  | some t => exact api.parse_format t

/-- So it is written alike again. -/
theorem getCreationTimestamp_timestampValue {t : Option api.Timestamp}
    (h : field? "metadata" u "creationTimestamp" = timestampValue api t) :
    timestampValue api (getCreationTimestamp api u) = timestampValue api t := by
  have hprinted := congrArg (Option.map Json.string) (formatTime_getCreationTimestamp h)
  rwa [Option.map_map, Option.map_map] at hprinted

theorem getStringMap_stringMapValue {m : Dict String String}
    (h : field? "metadata" u name = some (stringMapValue m)) : getStringMap name u = some m := by
  rw [getStringMap_eq, h]
  show (((m.map Json.string).mapM? Json.nullableString?).map some).join = some m
  have hread : (m.map Json.string).mapM? Json.nullableString? = some m :=
    Dict.mapM?_map (f := Json.nullableString?) (g := Json.string) (fun _ => rfl) m
  rw [hread]
  rfl

/-- Merged entries that were written are read back, also if there were none to write. -/
theorem entries_mergedValue {current updated : Unstructured}
    (h : field? "metadata" u name = mergedValue name current updated) :
    entries name u = mergedEntries name current updated := by
  by_cases hempty : (mergedEntries name current updated).isEmpty = true
  · rw [mergedValue, if_pos hempty] at h
    refine Dict.ext fun k => ?_
    have hnone := Dict.isEmpty_iff.mp hempty k
    rw [hnone, entries_congr h]
    rw [mergedEntries, Dict.get?_override] at hnone
    exact (Option.or_eq_none_iff.mp hnone).1
  · rw [mergedValue, if_neg hempty] at h
    unfold entries
    rw [getStringMap_stringMapValue h]
    rfl

/-- Merged entries that were written are merged into themselves. -/
theorem mergedValue_again {current updated : Unstructured}
    (h : field? "metadata" u name = mergedValue name current updated) :
    mergedValue name u updated = mergedValue name current updated := by
  have hentries : mergedEntries name u updated = mergedEntries name current updated := by
    refine Dict.ext fun k => ?_
    rw [mergedEntries, entries_mergedValue h, mergedEntries, Dict.get?_override,
      Dict.get?_override]
    cases (entries name updated).get? k with
    | none => rfl
    | some v => rfl
  rw [mergedValue, mergedValue, hentries]

end ReadBack

/-! ## 4. Stored objects -/

/-- What the API server assigns to an object that it stores. -/
structure Assigned (api : Apimachinery) where
  resourceVersion : String
  generation : Int64
  managedFields : Option (List api.ManagedFieldsEntry)
  resourceVersion_ne : resourceVersion ≠ ""

section Stored

variable (api : Apimachinery)

/-- The object as it was sent, with what the server assigns. -/
def stored (a : Assigned api) (u : Unstructured) : Unstructured :=
  setManagedFields api a.managedFields
    (setGeneration a.generation (setResourceVersion a.resourceVersion u))

def Assigned.fields (a : Assigned api) : List (String × Option Json) :=
  [("resourceVersion", stringValue a.resourceVersion),
    ("generation", generationValue a.generation),
    ("managedFields", managedFieldsValue api a.managedFields)]

theorem stored_eq (a : Assigned api) (u : Unstructured) :
    stored api a u = assign (a.fields api) u :=
  rfl

end Stored

section Again

variable {api : Apimachinery} {a : Assigned api} {current updated : Unstructured}

theorem field?_stored (h : Settable "metadata" updated) (name : String) :
    field? "metadata" (stored api a (mergeMetadataForUpdate api current updated)) name =
      ((a.fields api).lookup name).getD (((metadataOf api current updated).lookup name).getD
        (field? "metadata" updated name)) := by
  rw [stored_eq, mergeMetadataForUpdate_eq, field?_assign (settable_assign h),
    field?_assign h (metadataOf_nodup api current updated)]
  show (["resourceVersion", "generation", "managedFields"] : List String).Nodup
  decide

/-- The merge of a stored object assigns what the object has already. -/
theorem lookup_metadataOf_stored (h : Settable "metadata" updated) {name : String}
    (hname : name ∈ metadataFields) :
    (metadataOf api (stored api a (mergeMetadataForUpdate api current updated)) updated).lookup
        name =
      some (field? "metadata" (stored api a (mergeMetadataForUpdate api current updated))
        name) := by
  have hs (name : String) := @field?_stored api a current updated h name
  simp only [metadataFields, List.mem_cons, List.not_mem_nil, or_false] at hname
  rcases hname with rfl | rfl | rfl | rfl | rfl | rfl | rfl | rfl | rfl
  · have hfield := hs "creationTimestamp"
    rw [hfield]
    exact congrArg some (getCreationTimestamp_timestampValue hfield)
  · have hfield := hs "selfLink"
    rw [hfield]
    exact congrArg (fun s => some (stringValue s)) (getNestedString_stringValue hfield)
  · have hfield := hs "generation"
    rw [hfield]
    exact congrArg (fun n => some (generationValue n)) (getGeneration_generationValue hfield)
  · have hfield := hs "uid"
    rw [hfield]
    exact congrArg (fun s => some (stringValue s)) (getNestedString_stringValue hfield)
  · have hfield := hs "resourceVersion"
    rw [hfield]
    exact congrArg (fun s => some (stringValue s)) (getNestedString_stringValue hfield)
  · have hfield := hs "managedFields"
    rw [hfield]
    exact congrArg (fun es => some (managedFieldsValue api es))
      (getManagedFields_managedFieldsValue hfield)
  · have hfield := hs "finalizers"
    rw [hfield]
    exact congrArg (fun fs => some (finalizersValue fs)) (getFinalizers_finalizersValue hfield)
  · have hfield := hs "annotations"
    rw [hfield]
    exact congrArg some (mergedValue_again hfield)
  · have hfield := hs "labels"
    rw [hfield]
    exact congrArg some (mergedValue_again hfield)

/-- An object that was merged and stored keeps its metadata when it is merged again. -/
theorem mergeMetadataForUpdate_stored :
    mergeMetadataForUpdate api (stored api a (mergeMetadataForUpdate api current updated)) updated =
      stored api a (mergeMetadataForUpdate api current updated) := by
  by_cases h : Settable "metadata" updated
  · have hmerged : Settable "metadata" (mergeMetadataForUpdate api current updated) := by
      rw [mergeMetadataForUpdate_eq]
      exact settable_assign h
    have hrv : (stringValue a.resourceVersion).isSome = true := by
      rw [stringValue, if_neg a.resourceVersion_ne]
      rfl
    have hread : getResourceVersion (stored api a (mergeMetadataForUpdate api current updated)) =
        a.resourceVersion :=
      getNestedString_stringValue (field?_stored h "resourceVersion")
    generalize hs : stored api a (mergeMetadataForUpdate api current updated) = s at *
    rw [mergeMetadataForUpdate_eq]
    refine part_ext (settable_assign h) ?_ ?_ (fun name => ?_) fun part hpart => ?_
    · rw [← hs, stored_eq]
      exact settable_assign hmerged
    · -- the resource version makes the metadata, in both
      have hleft := @isSome_assign (metadataOf api s updated) updated h (.inr
        ⟨("resourceVersion", stringValue (getResourceVersion s)), by simp [metadataOf],
          by rw [hread]; exact hrv⟩)
      have hright : (s.get? "metadata").isSome = true := by
        rw [← hs, stored_eq]
        exact isSome_assign hmerged (.inr ⟨_, List.mem_cons_self, hrv⟩)
      rw [hleft, hright]
    · rw [field?_assign h (metadataOf_nodup api s updated)]
      by_cases hname : name ∈ metadataFields
      · rw [← hs, lookup_metadataOf_stored h hname]
        rfl
      · have hassigned : (a.fields api).map Prod.fst ⊆ metadataFields := by
          show ["resourceVersion", "generation", "managedFields"] ⊆ metadataFields
          decide
        have hmerged (u : Unstructured) : (metadataOf api u updated).lookup name = none :=
          lookup_eq_none hname
        rw [← hs, field?_stored h, hmerged, hmerged,
          lookup_eq_none fun hmem => hname (hassigned hmem)]
        rfl
    · rw [get?_assign hpart, ← hs, stored_eq, get?_assign hpart, mergeMetadataForUpdate_eq,
        get?_assign hpart]
  · rw [mergeMetadataForUpdate_eq, mergeMetadataForUpdate_eq, stored_eq, assign_of_not_settable h,
      assign_of_not_settable h, assign_of_not_settable h]

end Again

/-! ## 5. Copied fields -/

theorem bind_ok {α β : Type} {x : Except GoErr α} {f : α → Except GoErr β} {b : β}
    (h : x >>= f = .ok b) : ∃ a, x = .ok a ∧ f a = .ok b := by
  cases x with
  | error err => cases h
  | ok a => exact ⟨a, rfl, h⟩

/-- A lookup of a nested field of one type, and the values that are written. -/
structure Codec (α : Type) where
  assert : Json → Option α
  mismatch : Json → String
  encode : α → Json
  assert_encode : ∀ a, assert (encode a) = some a
  encode_assert : ∀ j a, assert j = some a → encode a = j

def Codec.lookup {α : Type} (c : Codec α) : Unstructured → List String → Except GoErr (Option α) :=
  nestedTyped c.assert c.mismatch

def Codec.copy {α : Type} (c : Codec α) : List String → String → Unstructured → Unstructured →
    Except GoErr Unstructured :=
  copyNested c.lookup c.encode

section Copied

variable {α : Type} {c : Codec α} {path fields : List String} {last other : String}
  {current updated merged s : Unstructured}

theorem Codec.lookup_congr (h : nestedField s path = nestedField merged path) :
    c.lookup s path = c.lookup merged path := by
  unfold Codec.lookup nestedTyped
  rw [h]

theorem Codec.lookup_set {a : α}
    (h : setNestedField (c.encode a) last fields updated = .ok merged) :
    c.lookup merged (fields ++ [last]) = .ok (some a) := by
  have hfound : nestedField merged (fields ++ [last]) = .ok (some (c.encode a)) :=
    nestedFieldFrom_set [] h
  unfold Codec.lookup nestedTyped
  simp only [hfound, c.assert_encode]

/-- What is looked up can be written without a change. -/
theorem Codec.set_lookup {a : α} (h : c.lookup updated (fields ++ [last]) = .ok (some a)) :
    setNestedField (c.encode a) last fields updated = .ok updated := by
  unfold Codec.lookup nestedTyped at h
  cases hfield : nestedField updated (fields ++ [last]) with
  | error err =>
    rw [hfield] at h
    cases h
  | ok o =>
    rw [hfield] at h
    cases o with
    | none => cases h
    | some j =>
      cases hassert : c.assert j with
      | none =>
        simp only [hassert] at h
        cases h
      | some b =>
        simp only [hassert] at h
        cases h
        rw [c.encode_assert j a hassert]
        exact setNestedField_found hfield

/-- The field is left alone, or set to what was looked up. -/
theorem Codec.copy_cases (h : c.copy fields last current updated = .ok merged) :
    merged = updated ∧ c.lookup current (fields ++ [last]) = .ok none ∨
      ∃ a, c.lookup current (fields ++ [last]) = .ok (some a) ∧
        setNestedField (c.encode a) last fields updated = .ok merged := by
  unfold Codec.copy copyNested at h
  split at h
  · cases h
  · next hnone =>
    cases h
    exact .inl ⟨rfl, hnone⟩
  · next a hsome => exact .inr ⟨a, hsome, h⟩

theorem Codec.copy_of_ne (h : c.copy fields last current updated = .ok merged)
    (hne : other ≠ last) :
    nestedField merged (fields ++ [other]) = nestedField updated (fields ++ [other]) := by
  rcases c.copy_cases h with ⟨rfl, -⟩ | ⟨a, -, hset⟩
  · rfl
  · exact nestedFieldFrom_set_of_ne [] hset hne

theorem Codec.get?_copy (h : c.copy fields last current updated = .ok merged)
    (hne : other ≠ fields.headD last) : merged.get? other = updated.get? other := by
  rcases c.copy_cases h with ⟨rfl, -⟩ | ⟨a, -, hset⟩
  · rfl
  · exact get?_setNestedField hset hne

/-- To copy from an object that has the result copies the same, if the desired object
gives the field its type. -/
theorem Codec.copy_again (h : c.copy fields last current updated = .ok merged)
    (htyped : ∃ o, c.lookup updated (fields ++ [last]) = .ok o)
    (hs : nestedField s (fields ++ [last]) = nestedField merged (fields ++ [last])) :
    c.copy fields last s updated = .ok merged := by
  have hread := c.lookup_congr hs
  unfold Codec.copy copyNested
  rcases c.copy_cases h with ⟨rfl, -⟩ | ⟨a, -, hset⟩
  · obtain ⟨o, ho⟩ := htyped
    rw [hread, ho]
    cases o with
    | none => rfl
    | some a => exact c.set_lookup ho
  · rw [hread, c.lookup_set hset]
    exact hset

end Copied

def stringCodec : Codec String where
  assert := Json.string?
  mismatch := Json.mismatch "string"
  encode := .string
  assert_encode _ := rfl
  encode_assert j a h := by
    cases j with
    | string s =>
      cases h
      rfl
    | _ => cases h

theorem map_of_mapM_string? {items : List Json} {ss : List String}
    (h : items.mapM Json.string? = some ss) : ss.map Json.string = items := by
  induction items generalizing ss with
  | nil =>
    cases h
    rfl
  | cons j items ih =>
    rw [List.mapM_cons] at h
    obtain ⟨s, hs, h⟩ := Option.bind_eq_some_iff.mp h
    obtain ⟨rest, hrest, h⟩ := Option.bind_eq_some_iff.mp h
    cases h
    rw [List.map_cons, ih hrest]
    exact congrArg (· :: items) (stringCodec.encode_assert j s hs)

def stringSliceCodec : Codec (List String) where
  assert := Json.stringSlice?
  mismatch := Json.stringSliceMismatch
  encode := stringSlice
  assert_encode ss := @mapM_map_some String Json Json.string? Json.string (fun _ => rfl) ss
  encode_assert j ss h := by
    cases j with
    | list items => exact congrArg Json.list (map_of_mapM_string? h)
    | _ => cases h

def sliceCodec : Codec (List Json) where
  assert := Json.slice?
  mismatch := Json.mismatch "[]interface\x7b\x7d"
  encode := .list
  assert_encode _ := rfl
  encode_assert j items h := by
    cases j with
    | list items =>
      cases h
      rfl
    | _ => cases h

/-! ## 6. Services and ServiceAccounts -/

section Kinds

variable {current updated merged s : Unstructured}

/-- The steps of the merge of a Service. -/
theorem mergeServiceFields_steps (h : mergeServiceFields current updated = .ok merged) :
    ∃ u₁ u₂ u₃, stringCodec.copy ["spec"] "clusterIP" current updated = .ok u₁ ∧
      stringSliceCodec.copy ["spec"] "clusterIPs" current u₁ = .ok u₂ ∧
      stringSliceCodec.copy ["spec"] "ipFamilies" current u₂ = .ok u₃ ∧
      mergeIPFamilyPolicy current u₃ = .ok merged := by
  obtain ⟨u₁, h₁, h⟩ := bind_ok h
  obtain ⟨u₂, h₂, h⟩ := bind_ok h
  obtain ⟨u₃, h₃, h⟩ := bind_ok h
  exact ⟨u₁, u₂, u₃, h₁, h₂, h₃, h⟩

/-- The policy is set if only the existing object has one. -/
theorem mergeIPFamilyPolicy_cases (h : mergeIPFamilyPolicy current updated = .ok merged) :
    (merged = updated ∧ ∃ o, stringCodec.lookup updated ["spec", "ipFamilyPolicy"] = .ok o) ∨
      ∃ policy, stringCodec.lookup updated ["spec", "ipFamilyPolicy"] = .ok none ∧
        setNestedField (.string policy) "ipFamilyPolicy" ["spec"] updated = .ok merged := by
  obtain ⟨old, -, h⟩ := bind_ok h
  obtain ⟨new, hnew, h⟩ := bind_ok h
  cases old with
  | none =>
    cases h
    exact .inl ⟨rfl, new, hnew⟩
  | some policy =>
    cases new with
    | none => exact .inr ⟨policy, hnew, h⟩
    | some _ =>
      cases h
      exact .inl ⟨rfl, _, hnew⟩

theorem mergeIPFamilyPolicy_eq (old new : Option String) :
    stringCodec.lookup current ["spec", "ipFamilyPolicy"] = .ok old →
    stringCodec.lookup updated ["spec", "ipFamilyPolicy"] = .ok new →
    mergeIPFamilyPolicy current updated =
      match old, new with
      | some policy, none =>
        setNestedField (.string policy) "ipFamilyPolicy" ["spec"] updated
      | _, _ => .ok updated := by
  intro hold hnew
  have hold : nestedString current ["spec", "ipFamilyPolicy"] = .ok old := hold
  have hnew : nestedString updated ["spec", "ipFamilyPolicy"] = .ok new := hnew
  unfold mergeIPFamilyPolicy
  rw [hold, hnew]
  rfl

theorem mergeIPFamilyPolicy_again (h : mergeIPFamilyPolicy current updated = .ok merged)
    (hs : nestedField s ["spec", "ipFamilyPolicy"] =
      nestedField merged ["spec", "ipFamilyPolicy"]) :
    mergeIPFamilyPolicy s updated = .ok merged := by
  have hread : stringCodec.lookup s _ = stringCodec.lookup merged _ := stringCodec.lookup_congr hs
  rcases mergeIPFamilyPolicy_cases h with ⟨rfl, o, ho⟩ | ⟨policy, hnew, hset⟩
  · rw [mergeIPFamilyPolicy_eq o o (hread.trans ho) ho]
    cases o with
    | none => rfl
    | some _ => rfl
  · have hfound : stringCodec.lookup merged (["spec"] ++ ["ipFamilyPolicy"]) = .ok (some policy) :=
      stringCodec.lookup_set hset
    rw [mergeIPFamilyPolicy_eq (some policy) none (hread.trans hfound) hnew]
    exact hset

theorem mergeIPFamilyPolicy_of_ne {name : String}
    (h : mergeIPFamilyPolicy current updated = .ok merged) (hne : name ≠ "ipFamilyPolicy") :
    nestedField merged ["spec", name] = nestedField updated ["spec", name] := by
  rcases mergeIPFamilyPolicy_cases h with ⟨rfl, -⟩ | ⟨policy, -, hset⟩
  · rfl
  · exact nestedFieldFrom_set_of_ne [] hset hne

/-- A Service is merged in its specification only. -/
theorem get?_mergeServiceFields {part : String}
    (h : mergeServiceFields current updated = .ok merged)
    (hne : part ≠ "spec") : merged.get? part = updated.get? part := by
  obtain ⟨u₁, u₂, u₃, h₁, h₂, h₃, h₄⟩ := mergeServiceFields_steps h
  have hpolicy : merged.get? part = u₃.get? part := by
    rcases mergeIPFamilyPolicy_cases h₄ with ⟨rfl, -⟩ | ⟨policy, -, hset⟩
    · rfl
    · exact get?_setNestedField hset hne
  rw [hpolicy, Codec.get?_copy h₃ hne, Codec.get?_copy h₂ hne, Codec.get?_copy h₁ hne]

theorem mergeServiceFields_again (h : mergeServiceFields current updated = .ok merged)
    (hclusterIP : ∃ o, nestedString updated ["spec", "clusterIP"] = .ok o)
    (hclusterIPs : ∃ o, nestedStringSlice updated ["spec", "clusterIPs"] = .ok o)
    (hipFamilies : ∃ o, nestedStringSlice updated ["spec", "ipFamilies"] = .ok o)
    (hs : ∀ name, nestedField s ["spec", name] = nestedField merged ["spec", name]) :
    mergeServiceFields s updated = .ok merged := by
  obtain ⟨u₁, u₂, u₃, h₁, h₂, h₃, h₄⟩ := mergeServiceFields_steps h
  -- a field is as its own step left it, and was before as in the desired object
  have hafter₃ {name : String} (hne : name ≠ "ipFamilyPolicy") :
      nestedField s ["spec", name] = nestedField u₃ ["spec", name] :=
    (hs name).trans (mergeIPFamilyPolicy_of_ne h₄ hne)
  have hafter₂ {name : String} (hne : name ≠ "ipFamilyPolicy") (hne' : name ≠ "ipFamilies") :
      nestedField s ["spec", name] = nestedField u₂ ["spec", name] :=
    (hafter₃ hne).trans (Codec.copy_of_ne h₃ hne')
  have hafter₁ : nestedField s ["spec", "clusterIP"] = nestedField u₁ ["spec", "clusterIP"] :=
    (hafter₂ (by decide) (by decide)).trans (Codec.copy_of_ne h₂ (by decide))
  have hbefore₁ {name : String} (hne : name ≠ "clusterIP") :
      nestedField u₁ ["spec", name] = nestedField updated ["spec", name] := Codec.copy_of_ne h₁ hne
  have hbefore₂ : nestedField u₂ ["spec", "ipFamilies"] =
      nestedField updated ["spec", "ipFamilies"] :=
    (Codec.copy_of_ne h₂ (by decide)).trans (hbefore₁ (by decide))
  have htyped₁ : ∃ o, stringSliceCodec.lookup u₁ ["spec", "clusterIPs"] = .ok o := by
    rwa [stringSliceCodec.lookup_congr (hbefore₁ (by decide))]
  have htyped₂ : ∃ o, stringSliceCodec.lookup u₂ ["spec", "ipFamilies"] = .ok o := by
    rwa [stringSliceCodec.lookup_congr hbefore₂]
  have hagain₁ := Codec.copy_again h₁ hclusterIP hafter₁
  have hagain₂ := Codec.copy_again h₂ htyped₁ (hafter₂ (by decide) (by decide))
  have hagain₃ := Codec.copy_again h₃ htyped₂ (hafter₃ (by decide))
  have hagain₄ := mergeIPFamilyPolicy_again h₄ (hs "ipFamilyPolicy")
  show (stringCodec.copy ["spec"] "clusterIP" s updated >>= fun u =>
    stringSliceCodec.copy ["spec"] "clusterIPs" s u >>= fun u =>
    stringSliceCodec.copy ["spec"] "ipFamilies" s u >>= fun u => mergeIPFamilyPolicy s u) = _
  rw [hagain₁]
  show (stringSliceCodec.copy ["spec"] "clusterIPs" s u₁ >>= fun u =>
    stringSliceCodec.copy ["spec"] "ipFamilies" s u >>= fun u => mergeIPFamilyPolicy s u) = _
  rw [hagain₂]
  show (stringSliceCodec.copy ["spec"] "ipFamilies" s u₂ >>= fun u => mergeIPFamilyPolicy s u) = _
  rw [hagain₃]
  exact hagain₄

/-- The steps of the merge of a ServiceAccount. -/
theorem mergeServiceAccountFields_steps
    (h : mergeServiceAccountFields current updated = .ok merged) :
    ∃ u₁, sliceCodec.copy [] "secrets" current updated = .ok u₁ ∧
      sliceCodec.copy [] "imagePullSecrets" current u₁ = .ok merged :=
  bind_ok h

theorem get?_mergeServiceAccountFields {part : String}
    (h : mergeServiceAccountFields current updated = .ok merged) (hsecrets : part ≠ "secrets")
    (hpull : part ≠ "imagePullSecrets") : merged.get? part = updated.get? part := by
  obtain ⟨u₁, h₁, h₂⟩ := mergeServiceAccountFields_steps h
  rw [Codec.get?_copy h₂ hpull, Codec.get?_copy h₁ hsecrets]

theorem mergeServiceAccountFields_again
    (h : mergeServiceAccountFields current updated = .ok merged)
    (hsecrets : ∃ o, nestedSlice updated ["secrets"] = .ok o)
    (hpull : ∃ o, nestedSlice updated ["imagePullSecrets"] = .ok o)
    (hs : ∀ name, name ≠ "metadata" → nestedField s [name] = nestedField merged [name]) :
    mergeServiceAccountFields s updated = .ok merged := by
  obtain ⟨u₁, h₁, h₂⟩ := mergeServiceAccountFields_steps h
  have hafter : nestedField s ["secrets"] = nestedField u₁ ["secrets"] :=
    (hs "secrets" (by decide)).trans (@Codec.copy_of_ne _ _ [] _ _ _ _ _ h₂ (by decide))
  have hbefore : nestedField u₁ ["imagePullSecrets"] = nestedField updated ["imagePullSecrets"] :=
    @Codec.copy_of_ne _ _ [] _ _ _ _ _ h₁ (by decide)
  have htyped : ∃ o, sliceCodec.lookup u₁ ["imagePullSecrets"] = .ok o := by
    rwa [sliceCodec.lookup_congr hbefore]
  have hagain₁ := Codec.copy_again h₁ hsecrets hafter
  have hagain₂ := Codec.copy_again h₂ htyped (hs "imagePullSecrets" (by decide))
  show (sliceCodec.copy [] "secrets" s updated >>= sliceCodec.copy [] "imagePullSecrets" s) = _
  rw [hagain₁]
  exact hagain₂

end Kinds

/-! ## 7. The merge of a kind -/

section Kind

variable {existing desired updated : Unstructured}

theorem nestedField_congr {u u' : Unstructured} {part : String} (path : List String)
    (h : u.get? part = u'.get? part) :
    nestedField u (part :: path) = nestedField u' (part :: path) := by
  simp only [nestedField, nestedFieldFrom, h]

theorem groupVersionKind_congr {u u' : Unstructured}
    (hversion : u.get? "apiVersion" = u'.get? "apiVersion")
    (hkind : u.get? "kind" = u'.get? "kind") :
    groupVersionKind u = groupVersionKind u' := by
  unfold groupVersionKind getNestedString nestedString nestedTyped
  rw [nestedField_congr [] hversion, nestedField_congr [] hkind]

theorem IsService.not_deployment {u : Unstructured} (h : IsService u) : ¬ IsDeployment u :=
  fun hd => absurd (h.1.symm.trans hd.1) (by decide)

theorem IsServiceAccount.not_deployment {u : Unstructured} (h : IsServiceAccount u) :
    ¬ IsDeployment u :=
  fun hd => absurd (h.1.symm.trans hd.1) (by decide)

theorem IsServiceAccount.not_service {u : Unstructured} (h : IsServiceAccount u) : ¬ IsService u :=
  fun hs => absurd (h.2.symm.trans hs.2) (by decide)

/-- An object is of one kind, also after the merges before it. -/
theorem mergeKinds_eq (existing desired : Unstructured) :
    mergeKinds existing desired =
      if IsDeployment desired then
        .ok (setStringMap "annotations" (revisedAnnotations existing desired) desired)
      else if IsService desired then mergeServiceFields existing desired
      else if IsServiceAccount desired then mergeServiceAccountFields existing desired
      else .ok desired := by
  unfold mergeKinds mergeDeploymentForUpdate
  by_cases hd : IsDeployment desired
  · rw [if_pos hd, if_pos hd]
    have hgvk : groupVersionKind
        (setStringMap "annotations" (revisedAnnotations existing desired) desired) =
        groupVersionKind desired :=
      groupVersionKind_congr (get?_setField_of_ne (by decide) _) (get?_setField_of_ne (by decide) _)
    have hkind : IsDeployment
        (setStringMap "annotations" (revisedAnnotations existing desired) desired) := by
      unfold IsDeployment
      rwa [hgvk]
    show (mergeServiceForUpdate existing _ >>= mergeServiceAccountForUpdate existing) = _
    rw [mergeServiceForUpdate, if_neg fun hs => IsService.not_deployment hs hkind]
    exact if_neg fun hs => IsServiceAccount.not_deployment hs hkind
  · rw [if_neg hd, if_neg hd]
    show (mergeServiceForUpdate existing desired >>= mergeServiceAccountForUpdate existing) = _
    unfold mergeServiceForUpdate
    by_cases hs : IsService desired
    · rw [if_pos hs, if_pos hs]
      cases hmerge : mergeServiceFields existing desired with
      | error err => rfl
      | ok merged =>
        have hgvk : groupVersionKind merged = groupVersionKind desired :=
          groupVersionKind_congr (get?_mergeServiceFields hmerge (by decide))
            (get?_mergeServiceFields hmerge (by decide))
        have hkind : IsService merged := by
          unfold IsService
          rwa [hgvk]
        exact if_neg fun ha => IsServiceAccount.not_service ha hkind
    · rw [if_neg hs, if_neg hs]
      rfl

/-- What the merge of a kind does. -/
theorem mergeKinds_cases (h : mergeKinds existing desired = .ok updated) :
    IsDeployment desired ∧
        updated = setStringMap "annotations" (revisedAnnotations existing desired) desired ∨
      IsService desired ∧ mergeServiceFields existing desired = .ok updated ∨
      IsServiceAccount desired ∧ mergeServiceAccountFields existing desired = .ok updated ∨
      (¬ IsDeployment desired ∧ ¬ IsService desired ∧ ¬ IsServiceAccount desired) ∧
        updated = desired := by
  rw [mergeKinds_eq] at h
  split at h
  · next hd =>
    cases h
    exact .inl ⟨hd, rfl⟩
  · next hd =>
    split at h
    · next hs => exact .inr (.inl ⟨hs, h⟩)
    · next hs =>
      split at h
      · next ha => exact .inr (.inr (.inl ⟨ha, h⟩))
      · next ha =>
        cases h
        exact .inr (.inr (.inr ⟨⟨hd, hs, ha⟩, rfl⟩))

/-- The fields of a kind that are looked up in the stored object have their types in the
desired one. -/
structure Typed (desired : Unstructured) : Prop where
  clusterIP : IsService desired → ∃ o, nestedString desired ["spec", "clusterIP"] = .ok o
  clusterIPs : IsService desired → ∃ o, nestedStringSlice desired ["spec", "clusterIPs"] = .ok o
  ipFamilies : IsService desired → ∃ o, nestedStringSlice desired ["spec", "ipFamilies"] = .ok o
  secrets : IsServiceAccount desired → ∃ o, nestedSlice desired ["secrets"] = .ok o
  imagePullSecrets : IsServiceAccount desired →
    ∃ o, nestedSlice desired ["imagePullSecrets"] = .ok o

/-- Only a Deployment is merged in its metadata. -/
theorem get?_metadata_mergeKinds (h : mergeKinds existing desired = .ok updated)
    (hd : ¬ IsDeployment desired) : updated.get? "metadata" = desired.get? "metadata" := by
  rcases mergeKinds_cases h with ⟨hd', -⟩ | ⟨-, hs⟩ | ⟨-, ha⟩ | ⟨-, rfl⟩
  · exact absurd hd' hd
  · exact get?_mergeServiceFields hs (by decide)
  · exact get?_mergeServiceAccountFields ha (by decide) (by decide)
  · rfl

theorem field?_congr {u u' : Unstructured} {part : String} (h : u.get? part = u'.get? part)
    (name : String) : field? part u name = field? part u' name := by
  simp only [field?, h]

theorem settable_mergeKinds (h : mergeKinds existing desired = .ok updated)
    (hset : Settable "metadata" desired) : Settable "metadata" updated := by
  by_cases hd : IsDeployment desired
  · rw [mergeKinds_eq, if_pos hd] at h
    cases h
    exact settable_setField hset _
  · unfold Settable
    rwa [get?_metadata_mergeKinds h hd]

theorem field?_mergeKinds (h : mergeKinds existing desired = .ok updated)
    (hset : Settable "metadata" desired) {name : String} (hne : name ≠ "annotations") :
    field? "metadata" updated name = field? "metadata" desired name := by
  by_cases hd : IsDeployment desired
  · rw [mergeKinds_eq, if_pos hd] at h
    cases h
    exact field?_setField_of_ne hset hne _
  · exact field?_congr (get?_metadata_mergeKinds h hd) name

theorem entries_annotations_mergeKinds (h : mergeKinds existing desired = .ok updated)
    (hset : Settable "metadata" desired) :
    entries "annotations" updated =
      if IsDeployment desired then revisedAnnotations existing desired
      else entries "annotations" desired := by
  by_cases hd : IsDeployment desired
  · rw [mergeKinds_eq, if_pos hd] at h
    cases h
    have hread (m : Dict String String) :
        getStringMap "annotations" (setStringMap "annotations" m desired) = some m :=
      getStringMap_stringMapValue (field?_setField_self hset _)
    rw [if_pos hd, entries, hread]
    rfl
  · rw [if_neg hd]
    exact entries_congr (field?_congr (get?_metadata_mergeKinds h hd) _)

/-- The revision is the existing one, or else the desired one. -/
theorem get?_revisedAnnotations (existing desired : Unstructured) (k : String) :
    (revisedAnnotations existing desired).get? k =
      if k = deploymentRevisionAnnotation then
        ((entries "annotations" existing).get? k).or ((entries "annotations" desired).get? k)
      else (entries "annotations" desired).get? k := by
  have hread : (getStringMap "annotations" existing).bind
      (·.get? deploymentRevisionAnnotation) =
      (entries "annotations" existing).get? deploymentRevisionAnnotation := by
    unfold entries
    cases getStringMap "annotations" existing with
    | none => exact (Dict.get?_empty _).symm
    | some m => rfl
  unfold revisedAnnotations
  rw [hread]
  by_cases hk : k = deploymentRevisionAnnotation
  · subst hk
    rw [if_pos rfl]
    cases (entries "annotations" existing).get? deploymentRevisionAnnotation with
    | none => rfl
    | some anno => exact Dict.get?_set_self _ _ _
  · rw [if_neg hk]
    cases (entries "annotations" existing).get? deploymentRevisionAnnotation with
    | none => rfl
    | some anno => exact Dict.get?_set_of_ne _ hk _

end Kind

section StoredKind

variable {api : Apimachinery} {a : Assigned api} {existing desired updated : Unstructured}

/-- Outside of the metadata an object is stored as it was merged. -/
theorem get?_stored {part : String} (h : part ≠ "metadata") :
    (stored api a (mergeMetadataForUpdate api existing updated)).get? part = updated.get? part := by
  rw [stored_eq, get?_assign h, mergeMetadataForUpdate_eq, get?_assign h]

theorem entries_annotations_stored (hset : Settable "metadata" updated) :
    entries "annotations" (stored api a (mergeMetadataForUpdate api existing updated)) =
      mergedEntries "annotations" existing updated :=
  entries_mergedValue (field?_stored hset "annotations")

/-- The revision of a stored Deployment is what it was merged with. -/
theorem revisedAnnotations_stored (h : mergeKinds existing desired = .ok updated)
    (hd : IsDeployment desired) (hset : Settable "metadata" desired) :
    revisedAnnotations (stored api a (mergeMetadataForUpdate api existing updated)) desired =
      revisedAnnotations existing desired := by
  refine Dict.ext fun k => ?_
  have hupdated := entries_annotations_mergeKinds h hset
  rw [if_pos hd] at hupdated
  rw [get?_revisedAnnotations, entries_annotations_stored (settable_mergeKinds h hset),
    mergedEntries, Dict.get?_override, hupdated, get?_revisedAnnotations]
  split
  · cases (entries "annotations" existing).get? k with
    | some anno => rfl
    | none =>
      cases (entries "annotations" desired).get? k with
      | some anno => rfl
      | none => rfl
  · rfl

/-- An object that was merged and stored keeps the fields of its kind when it is merged
again. -/
theorem mergeKinds_stored (h : mergeKinds existing desired = .ok updated) (htyped : Typed desired) :
    mergeKinds (stored api a (mergeMetadataForUpdate api existing updated)) desired =
      .ok updated := by
  have hrest {part : String} (path : List String) (hne : part ≠ "metadata") :
      nestedField (stored api a (mergeMetadataForUpdate api existing updated)) (part :: path) =
        nestedField updated (part :: path) := nestedField_congr path (get?_stored hne)
  rcases mergeKinds_cases h with ⟨hd, hupdated⟩ | ⟨hs, hupdated⟩ | ⟨ha, hupdated⟩ |
    ⟨⟨hd, hs, ha⟩, hupdated⟩
  · rw [mergeKinds_eq, if_pos hd, hupdated]
    by_cases hset : Settable "metadata" desired
    · rw [← hupdated, revisedAnnotations_stored h hd hset, hupdated]
    · unfold setStringMap
      rw [setField_of_not_settable hset, setField_of_not_settable hset]
  · rw [mergeKinds_eq, if_neg (IsService.not_deployment hs), if_pos hs]
    exact mergeServiceFields_again hupdated (htyped.clusterIP hs) (htyped.clusterIPs hs)
      (htyped.ipFamilies hs) fun name => hrest [name] (by decide)
  · rw [mergeKinds_eq, if_neg (IsServiceAccount.not_deployment ha),
      if_neg (IsServiceAccount.not_service ha), if_pos ha]
    exact mergeServiceAccountFields_again hupdated (htyped.secrets ha) (htyped.imagePullSecrets ha)
      fun name hne => hrest [] hne
  · rw [mergeKinds_eq, if_neg hd, if_neg hs, if_neg ha, hupdated]

end StoredKind

end SelfNodeRemediation.Apply
