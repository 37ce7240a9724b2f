import SelfNodeRemediation.Removal
import SelfNodeRemediation.Lib.Workers

/-!
# Several SelfNodeRemediations in one cluster

A `Cluster` is what a reconcile of one SelfNodeRemediation sees. `Remediations` holds
several of them over one shared cluster: `view` is the cluster as the reconcile of
one of them sees it, and `put` stores what a call of that reconcile leaves.

* `view_put_self`: a reconcile sees what it did.
* `view_put_of_ne`: of what the others did it sees all but their own objects.
-/

namespace SelfNodeRemediation

open Interaction Versioned

/-- A SelfNodeRemediation with its versions, and whether it has been removed. -/
structure StoredSNR where
  store : Store SNR
  gone : Bool

/-- The SelfNodeRemediations of a cluster; those that never existed are `gone`. The
fields `snr` and `gone` of the shared cluster mean nothing. -/
structure Remediations (ι : Type) where
  shared : Cluster
  stored : ι → StoredSNR

namespace Remediations

variable {ι : Type} [DecidableEq ι] (w : Remediations ι) (i : ι) (cluster : Cluster)

/-- What the reconcile of the `i`-th SelfNodeRemediation sees. -/
def view (w : Remediations ι) (i : ι) : Cluster :=
  { w.shared with snr := (w.stored i).store, gone := (w.stored i).gone }

/-- The `i`-th reconcile has changed what it sees. -/
def put : Remediations ι where
  shared := cluster
  stored := Function.update w.stored i ⟨cluster.snr, cluster.gone⟩

theorem stored_put_self : (w.put i cluster).stored i = ⟨cluster.snr, cluster.gone⟩ :=
  Function.update_self i _ w.stored

theorem view_put_self : (w.put i cluster).view i = cluster := by
  unfold view
  rw [stored_put_self]
  rfl

variable {i}

theorem stored_put_of_ne {j : ι} (h : j ≠ i) : (w.put i cluster).stored j = w.stored j :=
  Function.update_of_ne h _ w.stored

theorem view_put_of_ne {j : ι} (h : j ≠ i) :
    (w.put i cluster).view j =
      { cluster with snr := (w.stored j).store, gone := (w.stored j).gone } := by
  unfold view
  rw [stored_put_of_ne w cluster h]
  rfl

end Remediations

/-- No call changes the configuration, or the namespace it is looked for in. -/
theorem Exec.config {lagging : Bool} {c : Call} {w w' : Cluster} {r : Resp c}
    (h : Exec lagging c w r w') :
    w'.config = w.config ∧ w'.deploymentNamespace = w.deploymentNamespace := by
  rcases h.change with rfl | hchange
  · exact ⟨rfl, rfl⟩
  · cases hchange <;> exact ⟨rfl, rfl⟩

/-- No call changes a Machine, and a node is changed by a patch only. -/
theorem Exec.nodes {lagging : Bool} {c : Call} {w w' : Cluster} {r : Resp c}
    (h : Exec lagging c w r w') :
    w'.machines = w.machines ∧ (w'.nodes = w.nodes ∨ ∃ base changed node,
      c = .patchNode base changed ∧ w.nodes changed.name = some node ∧
        w'.nodes = (w.setNode changed.name (patchedNode base changed node)).nodes) := by
  rcases h.change with rfl | hchange
  · exact ⟨rfl, .inl rfl⟩
  · cases hchange with
    | patchNode hnode => exact ⟨rfl, .inr ⟨_, _, _, rfl, hnode, rfl⟩⟩
    | _ => exact ⟨rfl, .inl rfl⟩

end SelfNodeRemediation
