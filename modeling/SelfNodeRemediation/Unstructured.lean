import Mathlib.Data.Finset.Sort
import Mathlib.Data.String.Basic
import SelfNodeRemediation.Lib.Dict
import SelfNodeRemediation.Api

/-!
# Unstructured objects

The objects that `internal/apply` merges are nested maps without a schema, and are read
and written with the accessors of `unstructured`. A getter takes what does not have the
expected type for missing, and a setter does nothing where it finds something else than
a map.

* `nestedField`, the typed lookups and `setNestedField` are those of `helpers.go`, with
  their errors.
* `field?` and `setField`: a field of a map at the top of an object, as the getters and
  setters of the metadata see it. `part_ext`: two objects are equal if these fields
  and the rest are.
-/

namespace SelfNodeRemediation.Apply

/-! ## 1. Objects -/

/-- What an object can hold. A float is given by its shortest text, which `%v` prints. -/
inductive Json
  | null
  | bool (b : Bool)
  | int (n : Int64)
  | float (text : String)
  | string (s : String)
  | list (items : List Json)
  | map (fields : Dict String Json)

/-- `Unstructured`, by its `Object`. -/
abbrev Unstructured := Dict String Json

/-- `%T` -/
def Json.typeName : Json → String
  | .null => "<nil>"
  | .bool _ => "bool"
  | .int _ => "int64"
  | .float _ => "float64"
  | .string _ => "string"
  | .list _ => "[]interface \x7b\x7d"
  | .map _ => "map[string]interface \x7b\x7d"

mutual

/-- `%v`; the entries of a map are printed in the order of their keys. -/
def Json.text : Json → String
  | .null => "<nil>"
  | .bool b => if b then "true" else "false"
  | .int n => toString n.toInt
  | .float text => text
  | .string s => s
  | .list items => "[" ++ " ".intercalate (Json.texts items) ++ "]"
  | .map ⟨keys, val⟩ => "map[" ++ " ".intercalate ((keys.sort (· ≤ ·)).attach.map fun k =>
      k.1 ++ ":" ++ (val ⟨k.1, (Finset.mem_sort _).mp k.2⟩).text) ++ "]"

def Json.texts : List Json → List String
  | [] => []
  | item :: items => item.text :: Json.texts items

end

def Json.string? : Json → Option String
  | .string s => some s
  | _ => none

/-- Null values are coerced to the empty string. -/
def Json.nullableString? : Json → Option String
  | .string s => some s
  | .null => some ""
  | _ => none

/-! ## 2. Lookups -/

def jsonPath (fields : List String) : String := "." ++ ".".intercalate fields

def accessorError (fields : List String) (mismatch : String) : GoErr :=
  .new (jsonPath fields ++ " accessor error: " ++ mismatch)

def Json.mismatch (expected : String) (val : Json) : String :=
  val.text ++ " is of the type " ++ val.typeName ++ ", expected " ++ expected

/-- `NestedFieldNoCopy` from a value that was found at `seen` on. -/
def nestedFieldFrom (seen : List String) : Json → List String → Except GoErr (Option Json)
  | val, [] => .ok (some val)
  | .null, _ :: _ => .ok none
  | .map m, field :: fields =>
    match m.get? field with
    | none => .ok none
    | some val => nestedFieldFrom (seen ++ [field]) val fields
  | val, field :: _ => .error (accessorError (seen ++ [field])
      (val.mismatch "map[string]interface\x7b\x7d"))

def nestedField (obj : Unstructured) (fields : List String) : Except GoErr (Option Json) :=
  nestedFieldFrom [] (.map obj) fields

/-- A lookup with a type assertion. -/
def nestedTyped {α : Type} (assert : Json → Option α) (mismatch : Json → String)
    (obj : Unstructured) (fields : List String) : Except GoErr (Option α) :=
  match nestedField obj fields with
  | .error err => .error err
  | .ok none => .ok none
  | .ok (some val) =>
    match assert val with
    | some a => .ok (some a)
    | none => .error (accessorError fields (mismatch val))

def nestedString : Unstructured → List String → Except GoErr (Option String) :=
  nestedTyped Json.string? (Json.mismatch "string")

def nestedInt64 : Unstructured → List String → Except GoErr (Option Int64) :=
  nestedTyped (fun | .int n => some n | _ => none) (Json.mismatch "int64")

def Json.slice? : Json → Option (List Json)
  | .list items => some items
  | _ => none

def nestedSlice : Unstructured → List String → Except GoErr (Option (List Json)) :=
  nestedTyped Json.slice? (Json.mismatch "[]interface\x7b\x7d")

def Json.stringSlice? : Json → Option (List String)
  | .list items => items.mapM Json.string?
  | _ => none

/-- The first item that is not a string is named. -/
def Json.stringSliceMismatch : Json → String
  | .list items => ((items.find? fun v => v.string?.isNone).map fun v =>
      "contains non-string key in the slice: " ++ v.mismatch "string").getD ""
  | val => val.mismatch "[]interface\x7b\x7d"

def nestedStringSlice : Unstructured → List String → Except GoErr (Option (List String)) :=
  nestedTyped Json.stringSlice? Json.stringSliceMismatch

/-- A map of strings; nil if the value is null. -/
def Json.stringMap? : Json → Option (Option (Dict String String))
  | .null => some none
  | .map m => (m.mapM? Json.nullableString?).map some
  | _ => none

/-- Of several values that are not strings the source names any; here it is the one with
the least key. -/
def Json.stringMapMismatch : Json → String
  | .map m => (((m.keys.sort (· ≤ ·)).filterMap fun k => (m.get? k).map (k, ·)).find? fun e =>
      e.2.nullableString?.isNone).elim "" fun (k, v) =>
        "contains non-string value in the map under key \"" ++ k ++ "\": " ++ v.mismatch "string"
  | val => val.mismatch "map[string]interface\x7b\x7d"

def nestedNullCoercingStringMap (obj : Unstructured) (fields : List String) :
    Except GoErr (Option (Option (Dict String String))) :=
  nestedTyped Json.stringMap? Json.stringMapMismatch obj fields

/-! ## 3. Writes -/

/-- `SetNestedField` of the field `last` of the map at `fields`, which is made if it is
missing, in a map that was found at `seen`. -/
def setNestedFieldFrom (seen : List String) (value : Json) (last : String) :
    List String → Unstructured → Except GoErr Unstructured
  | [], m => .ok (m.set last value)
  | field :: fields, m =>
    match m.get? field with
    | some (.map sub) =>
      (setNestedFieldFrom (seen ++ [field]) value last fields sub).map fun sub' =>
        m.set field (.map sub')
    | some _ => .error (.new ("value cannot be set because " ++ jsonPath (seen ++ [field]) ++
        " is not a map[string]interface\x7b\x7d"))
    | none =>
      (setNestedFieldFrom (seen ++ [field]) value last fields .empty).map fun sub =>
        m.set field (.map sub)

def setNestedField (value : Json) (last : String) (fields : List String) (obj : Unstructured) :
    Except GoErr Unstructured :=
  setNestedFieldFrom [] value last fields obj

def removeNestedField (last : String) : List String → Unstructured → Unstructured
  | [], m => m.erase last
  | field :: fields, m =>
    match m.get? field with
    | some (.map sub) => m.set field (.map (removeNestedField last fields sub))
    | _ => m

/-! ## 4. Reading what was written -/

section Paths

variable {value : Json} {last : String} {fields : List String}

theorem nestedFieldFrom_empty (seen : List String) (field : String) (fields : List String) :
    nestedFieldFrom seen (.map .empty) (field :: fields) = .ok none := by
  rw [nestedFieldFrom, Dict.get?_empty]

/-- What the recursion of `SetNestedField` does at a map, found or made. -/
theorem setNestedFieldFrom_cons {seen : List String} {field : String} {m m' : Unstructured}
    (h : setNestedFieldFrom seen value last (field :: fields) m = .ok m') :
    ∃ sub sub', (m.get? field = some (.map sub) ∨ m.get? field = none ∧ sub = .empty) ∧
      setNestedFieldFrom (seen ++ [field]) value last fields sub = .ok sub' ∧
      m' = m.set field (.map sub') := by
  have below {sub : Unstructured}
      (hsub : (setNestedFieldFrom (seen ++ [field]) value last fields sub).map
        (fun sub' => m.set field (.map sub')) = .ok m') :
      ∃ sub', setNestedFieldFrom (seen ++ [field]) value last fields sub = .ok sub' ∧
        m' = m.set field (.map sub') := by
    cases hset : setNestedFieldFrom (seen ++ [field]) value last fields sub with
    | error err =>
      rw [hset] at hsub
      cases hsub
    | ok sub' =>
      rw [hset] at hsub
      cases hsub
      exact ⟨sub', rfl, rfl⟩
  rw [setNestedFieldFrom] at h
  split at h
  · next sub hsub =>
    obtain ⟨sub', hset, hm'⟩ := below h
    exact ⟨sub, sub', .inl hsub, hset, hm'⟩
  · cases h
  · next hnone =>
    obtain ⟨sub', hset, hm'⟩ := below h
    exact ⟨.empty, sub', .inr ⟨hnone, rfl⟩, hset, hm'⟩

/-- What was set is found. -/
theorem nestedFieldFrom_set {m m' : Unstructured} {base : List String} (seen : List String)
    (h : setNestedFieldFrom base value last fields m = .ok m') :
    nestedFieldFrom seen (.map m') (fields ++ [last]) = .ok (some value) := by
  induction fields generalizing m m' base seen with
  | nil =>
    cases h
    rw [List.nil_append, nestedFieldFrom, Dict.get?_set_self]
    rfl
  | cons field fields ih =>
    obtain ⟨sub, sub', -, hset, rfl⟩ := setNestedFieldFrom_cons h
    rw [List.cons_append, nestedFieldFrom, Dict.get?_set_self]
    exact ih _ hset

/-- Another field of the same map is as it was. -/
theorem nestedFieldFrom_set_of_ne {m m' : Unstructured} {other : String} {base : List String}
    (seen : List String) (h : setNestedFieldFrom base value last fields m = .ok m')
    (hne : other ≠ last) :
    nestedFieldFrom seen (.map m') (fields ++ [other]) =
      nestedFieldFrom seen (.map m) (fields ++ [other]) := by
  induction fields generalizing m m' base seen with
  | nil =>
    cases h
    simp only [List.nil_append, nestedFieldFrom, Dict.get?_set_of_ne _ hne]
  | cons field fields ih =>
    obtain ⟨sub, sub', hfound, hset, rfl⟩ := setNestedFieldFrom_cons h
    simp only [List.cons_append, nestedFieldFrom, Dict.get?_set_self]
    rw [ih _ hset]
    rcases hfound with hsub | ⟨hnone, rfl⟩
    · rw [hsub]
    · rw [hnone]
      cases fields with
      | nil => exact nestedFieldFrom_empty _ _ _
      | cons next fields => exact nestedFieldFrom_empty _ _ _

/-- To set what is found changes nothing. -/
theorem setNestedField_found {m : Unstructured} {seen base : List String}
    (h : nestedFieldFrom seen (.map m) (fields ++ [last]) = .ok (some value)) :
    setNestedFieldFrom base value last fields m = .ok m := by
  induction fields generalizing m seen base with
  | nil =>
    rw [List.nil_append, nestedFieldFrom] at h
    cases hget : m.get? last with
    | none =>
      rw [hget] at h
      cases h
    | some v =>
      rw [hget] at h
      cases h
      rw [setNestedFieldFrom, Dict.set_eq_self hget]
  | cons field fields ih =>
    rw [List.cons_append, nestedFieldFrom] at h
    cases hget : m.get? field with
    | none =>
      rw [hget] at h
      cases h
    | some v =>
      rw [hget] at h
      cases v with
      | map sub =>
        rw [setNestedFieldFrom, hget]
        simp only [ih h, Except.map, Dict.set_eq_self hget]
      | _ =>
        cases fields with
        | nil => cases h
        | cons next fields => cases h

/-- Nothing is changed outside of the top field of the path. -/
theorem get?_setNestedField {m m' : Unstructured} {other : String}
    (h : setNestedField value last fields m = .ok m') (hne : other ≠ fields.headD last) :
    m'.get? other = m.get? other := by
  cases fields with
  | nil =>
    cases h
    exact Dict.get?_set_of_ne _ hne _
  | cons field fields =>
    obtain ⟨sub, sub', -, -, rfl⟩ := setNestedFieldFrom_cons h
    exact Dict.get?_set_of_ne _ hne _

end Paths

/-! ## 5. Fields of a part -/

/-- The field `name` of the map `part` of an object. -/
def field? (part : String) (obj : Unstructured) (name : String) : Option Json :=
  match obj.get? part with
  | some (.map m) => m.get? name
  | _ => none

/-- The part is a map or missing, so that fields of it can be set. -/
def Settable (part : String) (obj : Unstructured) : Prop :=
  ∀ v, obj.get? part = some v → ∃ m, v = .map m

/-- What the setters of `Unstructured` do: a zero value removes the field, and the error
of a failed write is dropped. -/
def setField (part name : String) (value : Option Json) (obj : Unstructured) : Unstructured :=
  match value with
  | none => removeNestedField name [part] obj
  | some v =>
    match setNestedField v name [part] obj with
    | .ok obj' => obj'
    | .error _ => obj

section Fields

variable {part name : String} {obj : Unstructured}

theorem settable_cases (part : String) (obj : Unstructured) :
    (∃ m, obj.get? part = some (.map m)) ∨ obj.get? part = none ∨ ¬ Settable part obj := by
  cases h : obj.get? part with
  | none => exact .inr (.inl rfl)
  | some v =>
    by_cases hmap : ∃ m, v = .map m
    · obtain ⟨m, rfl⟩ := hmap
      exact .inl ⟨m, rfl⟩
    · exact .inr (.inr fun hs => hmap (hs v h))

theorem settable_of_map {m : Dict String Json} (h : obj.get? part = some (.map m)) :
    Settable part obj := fun _ hv => ⟨m, Option.some.inj (hv.symm.trans h)⟩

/-- A field of a map is set in the map. -/
theorem setField_map {m : Dict String Json} (h : obj.get? part = some (.map m))
    (value : Option Json) :
    setField part name value obj =
      obj.set part (.map (match value with | none => m.erase name | some v => m.set name v)) := by
  cases value with
  | none => simp only [setField, removeNestedField, h]
  | some v => simp only [setField, setNestedField, setNestedFieldFrom, h, Except.map]

/-- The map is made for a value, and only for one. -/
theorem setField_none (h : obj.get? part = none) (value : Option Json) :
    setField part name value obj =
      match value with
      | none => obj
      | some v => obj.set part (.map (Dict.empty.set name v)) := by
  cases value with
  | none => simp only [setField, removeNestedField, h]
  | some v => simp only [setField, setNestedField, setNestedFieldFrom, h, Except.map]

/-- What is not a map is left alone. -/
theorem setField_of_not_settable (h : ¬ Settable part obj) (value : Option Json) :
    setField part name value obj = obj := by
  unfold Settable at h
  push Not at h
  obtain ⟨v, hv, hmap⟩ := h
  cases v with
  | map m => exact absurd rfl (hmap m)
  | _ =>
    cases value with
    | none => simp only [setField, removeNestedField, hv]
    | some _ => simp only [setField, setNestedField, setNestedFieldFrom, hv]

theorem get?_setField_of_ne {other : String} (h : other ≠ part) (value : Option Json) :
    (setField part name value obj).get? other = obj.get? other := by
  rcases settable_cases part obj with ⟨m, hm⟩ | hnone | hnot
  · rw [setField_map hm, Dict.get?_set_of_ne _ h]
  · rw [setField_none hnone]
    cases value with
    | none => rfl
    | some _ => exact Dict.get?_set_of_ne _ h _
  · rw [setField_of_not_settable hnot]

theorem settable_setField (h : Settable part obj) (value : Option Json) :
    Settable part (setField part name value obj) := by
  rcases settable_cases part obj with ⟨m, hm⟩ | hnone | hnot
  · rw [setField_map hm]
    exact settable_of_map (Dict.get?_set_self _ _ _)
  · rw [setField_none hnone]
    cases value with
    | none => exact h
    | some v => exact settable_of_map (Dict.get?_set_self _ _ _)
  · exact absurd h hnot

theorem field?_setField (h : Settable part obj) (value : Option Json) :
    field? part (setField part name value obj) = Function.update (field? part obj) name value := by
  funext k
  rcases settable_cases part obj with ⟨m, hm⟩ | hnone | hnot
  · have hold : field? part obj = m.get? := by
      funext k
      simp only [field?, hm]
    rw [setField_map hm, hold]
    simp only [field?, Dict.get?_set_self]
    cases value with
    | none => rw [Dict.get?_erase]
    | some v => rw [Dict.get?_set]
  · have hold : field? part obj = fun _ => none := by
      funext k
      simp only [field?, hnone]
    rw [setField_none hnone, hold]
    cases value with
    | none =>
      rw [hold, Function.update_apply]
      exact (ite_self _).symm
    | some v =>
      simp only [field?, Dict.get?_set_self]
      rw [Dict.get?_set]
      by_cases hk : k = name
      · subst hk
        rw [Function.update_self, Function.update_self]
      · rw [Function.update_of_ne hk, Function.update_of_ne hk, Dict.get?_empty]
  · exact absurd h hnot

theorem field?_setField_self (h : Settable part obj) (value : Option Json) :
    field? part (setField part name value obj) name = value := by
  rw [field?_setField h, Function.update_self]

theorem field?_setField_of_ne (h : Settable part obj) {other : String} (hne : other ≠ name)
    (value : Option Json) :
    field? part (setField part name value obj) other = field? part obj other := by
  rw [field?_setField h, Function.update_of_ne hne]

/-- To set a field to what it is changes nothing. -/
theorem setField_field? (part name : String) (obj : Unstructured) :
    setField part name (field? part obj name) obj = obj := by
  rcases settable_cases part obj with ⟨m, hm⟩ | hnone | hnot
  · rw [setField_map hm]
    have hold : field? part obj name = m.get? name := by simp only [field?, hm]
    rw [hold]
    cases hget : m.get? name with
    | none =>
      have herase : m.erase name = m := by
        refine Dict.ext fun k => ?_
        rw [Dict.get?_erase]
        by_cases hk : k = name
        · subst hk
          rw [Function.update_self, hget]
        · rw [Function.update_of_ne hk]
      rw [herase]
      exact Dict.set_eq_self hm
    | some v =>
      simp only [Dict.set_eq_self hget]
      exact Dict.set_eq_self hm
  · have hold : field? part obj name = none := by simp only [field?, hnone]
    rw [hold, setField_none hnone]
  · exact setField_of_not_settable hnot _

/-- What a getter makes of a lookup: an error is as good as nothing. -/
def found {α : Type} : Except GoErr (Option α) → Option α
  | .ok a => a
  | .error _ => none

theorem found_nestedField (obj : Unstructured) (part name : String) :
    found (nestedField obj [part, name]) = field? part obj name := by
  simp only [nestedField, nestedFieldFrom, field?]
  cases obj.get? part with
  | none => rfl
  | some v =>
    cases v with
    | map m =>
      simp only [nestedFieldFrom]
      cases m.get? name with
      | none => rfl
      | some v => rfl
    | _ => rfl

/-- A getter sees a field that has its type. -/
theorem found_nestedTyped {α : Type} (assert : Json → Option α) (mismatch : Json → String)
    (obj : Unstructured) (part name : String) :
    found (nestedTyped assert mismatch obj [part, name]) =
      (field? part obj name).bind assert := by
  rw [← found_nestedField]
  unfold nestedTyped
  cases nestedField obj [part, name] with
  | error err => rfl
  | ok o =>
    cases o with
    | none => rfl
    | some val =>
      show found (match assert val with | some a => .ok (some a) | none => .error _) = assert val
      cases assert val with
      | none => rfl
      | some a => rfl

/-- The part is there afterwards if it was, or if a value is set. -/
theorem isSome_setField (h : Settable part obj) (value : Option Json) :
    ((setField part name value obj).get? part).isSome =
      ((obj.get? part).isSome || value.isSome) := by
  rcases settable_cases part obj with ⟨m, hm⟩ | hnone | hnot
  · rw [setField_map hm, Dict.get?_set_self, hm]
    rfl
  · rw [setField_none hnone]
    cases value with
    | none => rw [Option.isSome_none, Bool.or_false]
    | some v =>
      rw [Dict.get?_set_self, hnone]
      rfl
  · exact absurd h hnot

end Fields

/-- Objects are equal if their parts have the same fields and the rest is the same. -/
theorem part_ext {part : String} {a b : Unstructured} (ha : Settable part a)
    (hb : Settable part b) (hsome : (a.get? part).isSome = (b.get? part).isSome)
    (hfields : ∀ name, field? part a name = field? part b name)
    (hrest : ∀ other, other ≠ part → a.get? other = b.get? other) : a = b := by
  refine Dict.ext fun k => ?_
  by_cases hk : k = part
  · subst hk
    cases hpa : a.get? k with
    | none =>
      rw [hpa] at hsome
      exact (Option.not_isSome_iff_eq_none.mp (by rw [← hsome]; exact Bool.false_ne_true)).symm
    | some va =>
      rw [hpa] at hsome
      obtain ⟨vb, hpb⟩ := Option.isSome_iff_exists.mp hsome.symm
      obtain ⟨ma, rfl⟩ := ha va hpa
      obtain ⟨mb, rfl⟩ := hb vb hpb
      have hm : ma = mb := by
        refine Dict.ext fun name => ?_
        have h := hfields name
        simpa only [field?, hpa, hpb] using h
      rw [hpb, hm]
  · exact hrest k hk

end SelfNodeRemediation.Apply
