import Mathlib.Data.Finset.Basic

/-!
# Finite dictionaries

A `Dict K β` has finitely many keys and a value for each of them. It has no order and
no duplicates, so dictionaries with the same entries are equal (`Dict.ext`). All
operations are tables of a lookup function over a finite set of keys, and one lemma
each says what is looked up afterwards.
-/

structure Dict (K β : Type) where
  keys : Finset K
  val : {k // k ∈ keys} → β

namespace Dict

variable {K β γ : Type} [DecidableEq K]

def get? (d : Dict K β) (k : K) : Option β :=
  if h : k ∈ d.keys then some (d.val ⟨k, h⟩) else none

theorem mem_keys {d : Dict K β} {k : K} : k ∈ d.keys ↔ (d.get? k).isSome = true := by
  unfold get?
  by_cases h : k ∈ d.keys
  · simp [h]
  · simp [h]

theorem get?_eq_none {d : Dict K β} {k : K} (h : k ∉ d.keys) : d.get? k = none := dif_neg h

theorem ext {a b : Dict K β} (h : ∀ k, a.get? k = b.get? k) : a = b := by
  obtain ⟨keys, va⟩ := a
  obtain ⟨keys', vb⟩ := b
  have hkeys : keys = keys' := by
    ext k
    have ha := @mem_keys K β _ ⟨keys, va⟩ k
    have hb := @mem_keys K β _ ⟨keys', vb⟩ k
    exact ha.trans ((congrArg (fun o => Option.isSome o = true) (h k)).to_iff.trans hb.symm)
  subst hkeys
  have hval : va = vb := by
    funext ⟨k, hk⟩
    have hlookup := h k
    unfold get? at hlookup
    rw [dif_pos hk, dif_pos hk] at hlookup
    exact Option.some.inj hlookup
  rw [hval]

/-- The table of a lookup function over some keys. -/
def tabulate (keys : Finset K) (f : K → Option β) : Dict K β where
  keys := keys.filter fun k => (f k).isSome
  val k := (f k.1).get (Finset.mem_filter.mp k.2).2

theorem get?_tabulate (keys : Finset K) (f : K → Option β) (k : K) :
    (tabulate keys f).get? k = if k ∈ keys then f k else none := by
  unfold get? tabulate
  by_cases hk : k ∈ keys
  · cases hf : f k with
    | none => simp [hf]
    | some v => simp [hk, hf]
  · simp [hk]

/-- A function that is found nowhere outside of the keys is looked up everywhere. -/
theorem get?_tabulate_eq {keys : Finset K} {f : K → Option β} (h : ∀ k, k ∉ keys → f k = none)
    (k : K) : (tabulate keys f).get? k = f k := by
  rw [get?_tabulate]
  split
  · rfl
  · next hk => exact (h k hk).symm

def empty : Dict K β := tabulate ∅ fun _ => none

@[simp] theorem get?_empty (k : K) : (empty : Dict K β).get? k = none :=
  get?_tabulate_eq (fun _ _ => rfl) k

def set (d : Dict K β) (key : K) (v : β) : Dict K β :=
  tabulate (insert key d.keys) (Function.update d.get? key (some v))

theorem get?_set (d : Dict K β) (key : K) (v : β) :
    (d.set key v).get? = Function.update d.get? key (some v) := by
  funext k
  refine get?_tabulate_eq (fun k hk => ?_) k
  have hne : k ≠ key := fun h => hk (h ▸ Finset.mem_insert_self _ _)
  rw [Function.update_of_ne hne]
  exact get?_eq_none fun h => hk (Finset.mem_insert_of_mem h)

@[simp] theorem get?_set_self (d : Dict K β) (key : K) (v : β) :
    (d.set key v).get? key = some v := by
  rw [get?_set, Function.update_self]

theorem get?_set_of_ne (d : Dict K β) {key k : K} (h : k ≠ key) (v : β) :
    (d.set key v).get? k = d.get? k := by
  rw [get?_set, Function.update_of_ne h]

/-- To set what is there already changes nothing. -/
theorem set_eq_self {d : Dict K β} {key : K} {v : β} (h : d.get? key = some v) :
    d.set key v = d := by
  refine ext fun k => ?_
  rw [get?_set]
  by_cases hk : k = key
  · subst hk
    rw [Function.update_self, h]
  · rw [Function.update_of_ne hk]

def erase (d : Dict K β) (key : K) : Dict K β :=
  tabulate d.keys (Function.update d.get? key none)

theorem get?_erase (d : Dict K β) (key : K) :
    (d.erase key).get? = Function.update d.get? key none := by
  funext k
  refine get?_tabulate_eq (fun k hk => ?_) k
  by_cases h : k = key
  · subst h
    exact Function.update_self _ _ _
  · rw [Function.update_of_ne h]
    exact get?_eq_none hk

/-- The entries of both, those of `top` where both have the key. -/
def override (base top : Dict K β) : Dict K β :=
  tabulate (base.keys ∪ top.keys) fun k => (top.get? k).or (base.get? k)

theorem get?_override (base top : Dict K β) (k : K) :
    (base.override top).get? k = (top.get? k).or (base.get? k) := by
  refine get?_tabulate_eq (fun k hk => ?_) k
  rw [Finset.mem_union, not_or] at hk
  rw [get?_eq_none hk.1, get?_eq_none hk.2]
  rfl

def isEmpty (d : Dict K β) : Bool := decide (d.keys = ∅)

theorem isEmpty_iff {d : Dict K β} : d.isEmpty = true ↔ ∀ k, d.get? k = none := by
  rw [isEmpty, decide_eq_true_iff, Finset.eq_empty_iff_forall_notMem]
  refine forall_congr' fun k => ?_
  rw [mem_keys, Option.not_isSome_iff_eq_none]

def map (f : β → γ) (d : Dict K β) : Dict K γ := tabulate d.keys fun k => (d.get? k).map f

theorem get?_map (f : β → γ) (d : Dict K β) (k : K) : (d.map f).get? k = (d.get? k).map f := by
  refine get?_tabulate_eq (fun k hk => ?_) k
  rw [get?_eq_none hk, Option.map_none]

/-- All values converted, if all of them can be. -/
def mapM? (f : β → Option γ) (d : Dict K β) : Option (Dict K γ) :=
  if ∀ k ∈ d.keys, ((d.get? k).bind f).isSome then
    some (tabulate d.keys fun k => (d.get? k).bind f)
  else none

theorem mapM?_map {f : β → Option γ} {g : γ → β} (hfg : ∀ x, f (g x) = some x) (d : Dict K γ) :
    (d.map g).mapM? f = some d := by
  have hget : ∀ k, ((d.map g).get? k).bind f = d.get? k := by
    intro k
    rw [get?_map]
    cases d.get? k with
    | none => rfl
    | some x => exact hfg x
  unfold mapM?
  rw [if_pos]
  · refine congrArg some (ext fun k => ?_)
    rw [get?_tabulate_eq (fun k hk => ?_), hget]
    rw [get?_eq_none hk, Option.bind_none]
  · intro k hk
    rw [hget, ← mem_keys]
    have hmem := mem_keys.mp hk
    rw [get?_map, Option.isSome_map] at hmem
    exact mem_keys.mpr hmem

end Dict
