import Mathlib.Data.List.Basic
import Mathlib.Data.Nat.Init

/-!
# A versioned object under optimistic locking

A `Store` holds one object with every version of it that was ever stored. A
client holds a copy together with the version it was read as (`Revision`). A
write that names its version goes through only if that version is current, so
what was true of the copy when it was read is true of the object it replaces.

* `version_put`: a write adds a version and keeps the earlier ones.
* `Steps R s`: every version is `R`-related to the one before it. `steps_put`: it
  is enough that each write is related to what it replaces.
* `Ordered R s`: every later version is `R`-related to every earlier one.
* `Extends`: a store that has seen more writes. Facts about stored versions
  survive it.
-/

namespace Versioned

/-- A copy of an object and the version it was read as. -/
structure Revision (α : Type) where
  resourceVersion : Nat
  value : α
deriving DecidableEq, Repr

/-- An object with all its versions, the current one and the earlier ones,
newest first. -/
structure Store (α : Type) where
  current : α
  past : List α
deriving DecidableEq, Repr

namespace Store

variable {α : Type} {s s' : Store α} {a b : α} {n m : Nat}

/-- The version number of the current object. -/
def resourceVersion (s : Store α) : Nat := s.past.length

/-- The object that was stored as version `n`. -/
def version (s : Store α) (n : Nat) : Option α := (s.current :: s.past).reverse[n]?

/-- The current object as a client reads it. -/
def read (s : Store α) : Revision α := ⟨s.resourceVersion, s.current⟩

def put (s : Store α) (a : α) : Store α := ⟨a, s.current :: s.past⟩

/-- A write that changes nothing makes no new version. -/
def putIfChanged [DecidableEq α] (s : Store α) (a : α) : Store α :=
  if a = s.current then s else s.put a

@[simp] theorem resourceVersion_put : (s.put a).resourceVersion = s.resourceVersion + 1 := rfl

@[simp] theorem putIfChanged_current [DecidableEq α] : (s.putIfChanged a).current = a := by
  unfold putIfChanged
  split
  · next h => exact h.symm
  · rfl

theorem putIfChanged_cases [DecidableEq α] (s : Store α) (a : α) :
    s.putIfChanged a = s ∨ s.putIfChanged a = s.put a := by
  unfold putIfChanged
  split
  · exact .inl rfl
  · exact .inr rfl

theorem put_ne (s : Store α) (a : α) : s.put a ≠ s :=
  fun h => absurd (congrArg resourceVersion h) (Nat.succ_ne_self _)

theorem putIfChanged_of_ne [DecidableEq α] (h : a ≠ s.current) : s.putIfChanged a = s.put a :=
  if_neg h

theorem version_resourceVersion : s.version s.resourceVersion = some s.current := by
  simp [version, resourceVersion]

theorem version_le (h : s.version n = some a) : n ≤ s.resourceVersion := by
  unfold version at h
  obtain ⟨hn, _⟩ := List.getElem?_eq_some_iff.mp h
  simp only [List.length_reverse, List.length_cons] at hn
  exact Nat.le_of_lt_succ hn

/-- A write that names its version replaces the object that was read. -/
theorem current_of_version (h : s.version s.resourceVersion = some a) : s.current = a := by
  rw [version_resourceVersion] at h
  exact Option.some.inj h

theorem version_put_of_le (h : n ≤ s.resourceVersion) : (s.put b).version n = s.version n := by
  unfold version put resourceVersion at *
  rw [List.reverse_cons, List.getElem?_append_left]
  simp only [List.length_reverse, List.length_cons]
  omega

theorem version_put (h : (s.put b).version n = some a) :
    (n ≤ s.resourceVersion ∧ s.version n = some a) ∨ (n = s.resourceVersion + 1 ∧ a = b) := by
  rcases Nat.lt_or_ge s.resourceVersion n with hlt | hle
  · have hn : n = (s.put b).resourceVersion := by
      have := version_le h
      simp only [resourceVersion_put] at this ⊢
      omega
    subst hn
    exact .inr ⟨rfl, (current_of_version h).symm⟩
  · rw [version_put_of_le hle] at h
    exact .inl ⟨hle, h⟩

/-! ## Stores that have seen more writes -/

/-- Every version of `s` is a version of `s'`. -/
def Extends (s s' : Store α) : Prop := ∀ n a, s.version n = some a → s'.version n = some a

theorem Extends.refl (s : Store α) : s.Extends s := fun _ _ h => h

theorem extends_put (s : Store α) (b : α) : s.Extends (s.put b) := by
  intro n a h
  rw [version_put_of_le (version_le h)]
  exact h

theorem extends_putIfChanged [DecidableEq α] (s : Store α) (b : α) :
    s.Extends (s.putIfChanged b) := by
  unfold putIfChanged
  split
  · exact .refl s
  · exact extends_put s b

/-! ## Invariants over all versions -/

/-- Every version satisfies `P`. -/
def All (P : α → Prop) (s : Store α) : Prop := ∀ n a, s.version n = some a → P a

/-- Every version is `R`-related to the one before it. -/
def Steps (R : α → α → Prop) (s : Store α) : Prop :=
  ∀ n a b, s.version n = some a → s.version (n + 1) = some b → R a b

/-- Every later version is `R`-related to every earlier one. -/
def Ordered (R : α → α → Prop) (s : Store α) : Prop :=
  ∀ i j a b, i ≤ j → s.version i = some a → s.version j = some b → R a b

variable {P : α → Prop} {R : α → α → Prop}

theorem All.current (h : s.All P) : P s.current := h _ _ version_resourceVersion

theorem all_put (h : s.All P) (hb : P b) : (s.put b).All P := by
  intro n a hv
  rcases version_put hv with ⟨_, hv⟩ | ⟨_, rfl⟩
  · exact h n a hv
  · exact hb

theorem all_putIfChanged [DecidableEq α] (h : s.All P) (hb : P b) : (s.putIfChanged b).All P := by
  unfold putIfChanged
  split
  · exact h
  · exact all_put h hb

theorem all_new (h : P a) : (⟨a, []⟩ : Store α).All P := by
  intro n b hv
  have hn : n ≤ 0 := version_le hv
  obtain rfl : n = 0 := by omega
  cases hv
  exact h

theorem Ordered.current (h : s.Ordered R) (hv : s.version n = some a) : R a s.current :=
  h n _ a _ (version_le hv) hv version_resourceVersion

theorem steps_put (h : s.Steps R) (hb : R s.current b) : (s.put b).Steps R := by
  intro n x y hx hy
  rcases version_put hy with ⟨hn, hy⟩ | ⟨hn, rfl⟩
  · rw [version_put_of_le (Nat.le_of_succ_le hn)] at hx
    exact h n x y hx hy
  · obtain rfl : n = s.resourceVersion := Nat.succ.inj hn
    rw [version_put_of_le (Nat.le_refl _)] at hx
    rw [← current_of_version hx]
    exact hb

theorem steps_new (a : α) : (⟨a, []⟩ : Store α).Steps R := by
  intro n x y _ hy
  cases version_le hy

theorem version_some (h : n ≤ s.resourceVersion) : ∃ a, s.version n = some a := by
  have hlt : n < (s.current :: s.past).reverse.length := by
    simp only [List.length_reverse, List.length_cons]
    exact Nat.lt_succ_of_le h
  exact ⟨_, List.getElem?_eq_getElem hlt⟩

/-- A relation that is reflexive and transitive holds between any two versions
when it holds between neighbours. -/
theorem Steps.ordered (h : s.Steps R) (hrefl : ∀ a, R a a)
    (htrans : ∀ a b c, R a b → R b c → R a c) : s.Ordered R := by
  intro i j a b hij ha hb
  induction j, hij using Nat.le_induction generalizing b with
  | base =>
    rw [ha] at hb
    cases hb
    exact hrefl a
  | succ j _ ih =>
    obtain ⟨c, hc⟩ := version_some (Nat.le_of_succ_le (version_le hb))
    exact htrans a c b (ih c hc) (h j c b hc hb)

end Store

end Versioned
