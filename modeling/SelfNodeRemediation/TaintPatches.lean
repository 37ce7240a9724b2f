import SelfNodeRemediation.Removal

/-!
# Taints of other writers

The four functions that add or remove a taint of the SelfNodeRemediation read the
node, edit its list of taints and send a merge patch, which replaces the list as a
whole. `taints_kept_iff`: when another writer has stored its own list in between,
the stored list becomes that list with the taint added or removed exactly when the
other writer has left the rest of the list alone.
-/

namespace SelfNodeRemediation

open Interaction

/-! ## 1. What should be stored -/

/-- The list with the taint added, unless it is there already. -/
def added (taint : Taint) (now : Time) (taints : List Taint) : List Taint :=
  if taintExists taints taint then taints
  else taints ++ [{ taint with timeAdded := some now.truncate }]

/-- The list without the taint. -/
def removed (taint : Taint) (taints : List Taint) : List Taint :=
  taints.filter fun t => !t.matchTaint taint

/-- The functions that edit the taints of a node. -/
inductive TaintEdit
  | addNoScheduleTaint
  | removeNoScheduleTaint
  | addOutOfServiceTaint
  | removeOutOfServiceTaint

namespace TaintEdit

def run (r : Reconciler) : TaintEdit → Node → M Node
  | .addNoScheduleTaint => SelfNodeRemediation.addNoScheduleTaint r
  | .removeNoScheduleTaint => SelfNodeRemediation.removeNoScheduleTaint r
  | .addOutOfServiceTaint => SelfNodeRemediation.addOutOfServiceTaint r
  | .removeOutOfServiceTaint => SelfNodeRemediation.removeOutOfServiceTaint r

/-- The other writer's list, with exactly the taint added or removed. -/
def applied (now : Time) : TaintEdit → List Taint → List Taint
  | .addNoScheduleTaint => added nodeNoScheduleTaint now
  | .removeNoScheduleTaint => removed nodeNoScheduleTaint
  | .addOutOfServiceTaint => added outOfServiceTaint now
  | .removeOutOfServiceTaint => removed outOfServiceTaint

end TaintEdit

/-! ## 2. What the other writer may have done -/

/-- The taint was there and still is, or nothing was stored but, possibly, the
same taint. -/
def AddUndisturbed (taint : Taint) (now : Time) (ours theirs : List Taint) : Prop :=
  if taintExists ours taint then taintExists theirs taint = true
  else theirs = ours ∨ theirs = ours ++ [{ taint with timeAdded := some now.truncate }]

/-- The taint was there and the rest of the list is as it was, or it was not
there and still is not. -/
def RemoveUndisturbed (taint : Taint) (ours theirs : List Taint) : Prop :=
  if taintExists ours taint then removed taint theirs = removed taint ours
  else taintExists theirs taint = false

def TaintEdit.Undisturbed (now : Time) : TaintEdit → (ours theirs : List Taint) → Prop
  | .addNoScheduleTaint => AddUndisturbed nodeNoScheduleTaint now
  | .removeNoScheduleTaint => RemoveUndisturbed nodeNoScheduleTaint
  | .addOutOfServiceTaint => AddUndisturbed outOfServiceTaint now
  | .removeOutOfServiceTaint => RemoveUndisturbed outOfServiceTaint

/-! ## 3. What is stored -/

section Stored

variable {w : Cluster} {m : Mem} {copy stored : Node}

/-- The session succeeds, and leaves this list of taints on the node. -/
def LeavesTaints (x : M Node) (m : Mem) (w : Cluster) (name : String) (taints : List Taint) :
    Prop :=
  (∃ node, ((x m).eval serve w).1.1 = .ok node) ∧
    (((x m).eval serve w).2.nodes name).map Node.taints = some taints

/-- Whatever else is stored, the patch puts its own list. -/
theorem leavesTaints_patch (r : Reconciler) {taints : List Taint} (hne : copy.taints ≠ taints)
    (hnode : w.nodes copy.name = some stored) :
    LeavesTaints (call (.patchNode copy { copy with taints := taints }) >>= fun answer =>
      Session.ofExcept answer >>= fun answer =>
        pure (r.decode.node answer { copy with taints := taints })) m w copy.name taints := by
  have hserve : serve (.patchNode copy { copy with taints := taints }) w =
      (.ok { stored with taints := taints },
        w.setNode copy.name { stored with taints := taints }) := by
    simp only [serve, Cluster.patchNode, hnode, patchedNode, if_neg hne]
  have heval : ((call (.patchNode copy { copy with taints := taints }) >>= fun answer =>
      Session.ofExcept answer >>= fun answer =>
        pure (r.decode.node answer { copy with taints := taints }) : M Node) m).eval serve w =
      ((.ok (r.decode.node { stored with taints := taints } { copy with taints := taints }), m),
        w.setNode copy.name { stored with taints := taints }) := by
    show ((Session.ofExcept (serve (.patchNode copy { copy with taints := taints }) w).1 >>=
      fun answer => pure (r.decode.node answer { copy with taints := taints }) : M Node) m).eval
        serve (serve (.patchNode copy { copy with taints := taints }) w).2 = _
    rw [hserve]
    rfl
  unfold LeavesTaints
  rw [heval]
  refine ⟨⟨_, rfl⟩, ?_⟩
  show (Function.update w.nodes copy.name _ copy.name).map Node.taints = some taints
  rw [Function.update_self]
  rfl

/-- Without a patch the other writer's list stays. -/
theorem leavesTaints_pure (hnode : w.nodes copy.name = some stored) :
    LeavesTaints (pure copy) m w copy.name stored.taints := by
  refine ⟨⟨copy, rfl⟩, ?_⟩
  show (w.nodes copy.name).map Node.taints = _
  rw [hnode]
  rfl

/-- What `addTaint` leaves: the other writer's list if its own copy has the taint,
and its own list with the taint otherwise. -/
theorem leavesTaints_addTaint (r : Reconciler) (taint : Taint)
    (hnode : w.nodes copy.name = some stored) :
    LeavesTaints (addTaint r taint copy) m w copy.name
      (if taintExists copy.taints taint then stored.taints
        else copy.taints ++ [{ taint with timeAdded := some w.now.truncate }]) := by
  unfold addTaint
  split
  · exact leavesTaints_pure hnode
  · have hne : copy.taints ≠
        copy.taints ++ [{ taint with timeAdded := some w.now.truncate }] := fun heq =>
      List.cons_ne_nil _ _ (List.self_eq_append_right.mp heq)
    exact leavesTaints_patch r hne hnode

theorem deleteTaint_fst (taints : List Taint) (taint : Taint) :
    (deleteTaint taints taint).1 = removed taint taints := by
  unfold deleteTaint removed
  simp only [matchTaint_comm taint]

/-- What `removeTaint` leaves: its own list without the taint if its own copy has
the taint, and the other writer's list otherwise. -/
theorem leavesTaints_removeTaint (r : Reconciler) (taint : Taint)
    (hnode : w.nodes copy.name = some stored) :
    LeavesTaints (removeTaint r taint copy) m w copy.name
      (if taintExists copy.taints taint then removed taint copy.taints else stored.taints) := by
  unfold removeTaint
  cases hexists : taintExists copy.taints taint with
  | false => exact leavesTaints_pure hnode
  | true =>
    obtain ⟨hpair, hne⟩ := deleteTaint_of_exists hexists
    rw [deleteTaint_fst] at hpair hne
    rw [if_pos rfl, if_pos rfl, hpair]
    exact leavesTaints_patch r hne hnode

end Stored

/-! ## 4. When it is what should be stored -/

theorem taintExists_new (taint : Taint) (now : Time) (taints : List Taint) :
    taintExists (taints ++ [{ taint with timeAdded := some now.truncate }]) taint = true := by
  simp [taintExists, Taint.matchTaint]

theorem addUndisturbed_iff (taint : Taint) (now : Time) (ours theirs : List Taint) :
    (if taintExists ours taint then theirs
      else ours ++ [{ taint with timeAdded := some now.truncate }]) = added taint now theirs ↔
      AddUndisturbed taint now ours theirs := by
  unfold AddUndisturbed added
  cases hours : taintExists ours taint with
  | true =>
    cases htheirs : taintExists theirs taint with
    | true => simp
    | false => simp
  | false =>
    rw [if_neg Bool.false_ne_true, if_neg Bool.false_ne_true]
    cases htheirs : taintExists theirs taint with
    | true =>
      rw [if_pos rfl]
      constructor
      · intro h
        exact .inr h.symm
      · rintro (rfl | h)
        · cases hours.symm.trans htheirs
        · exact h.symm
    | false =>
      rw [if_neg Bool.false_ne_true]
      constructor
      · intro h
        exact .inl (List.append_cancel_right h).symm
      · rintro (rfl | rfl)
        · rfl
        · cases htheirs.symm.trans (taintExists_new taint now ours)

theorem removeUndisturbed_iff (taint : Taint) (ours theirs : List Taint) :
    (if taintExists ours taint then removed taint ours else theirs) = removed taint theirs ↔
      RemoveUndisturbed taint ours theirs := by
  unfold RemoveUndisturbed
  cases hours : taintExists ours taint with
  | true => exact eq_comm
  | false =>
    rw [if_neg Bool.false_ne_true, if_neg Bool.false_ne_true]
    unfold removed taintExists
    rw [eq_comm, List.filter_eq_self, List.any_eq_false]
    simp

/-- For every list that the manager read and every list that another writer has
stored since, each of the four functions succeeds, and the list that is stored
then is the other writer's with exactly the taint added or removed if and only if
the other writer did not disturb the edit. -/
theorem taints_kept_iff (r : Reconciler) (edit : TaintEdit) {w : Cluster} (m : Mem)
    {copy stored : Node} (hnode : w.nodes copy.name = some stored) :
    (∃ node, ((edit.run r copy m).eval serve w).1.1 = .ok node) ∧
    ((((edit.run r copy m).eval serve w).2.nodes copy.name).map Node.taints =
        some (edit.applied w.now stored.taints) ↔
      edit.Undisturbed w.now copy.taints stored.taints) := by
  have hadd (taint : Taint) := leavesTaints_addTaint (m := m) r taint hnode
  have hremove (taint : Taint) := leavesTaints_removeTaint (m := m) r taint hnode
  cases edit with
  | addNoScheduleTaint =>
    refine ⟨(hadd _).1, Iff.trans ?_ (addUndisturbed_iff _ _ _ _)⟩
    exact (hadd nodeNoScheduleTaint).2 ▸ Option.some_inj
  | removeNoScheduleTaint =>
    refine ⟨(hremove _).1, Iff.trans ?_ (removeUndisturbed_iff _ _ _)⟩
    exact (hremove nodeNoScheduleTaint).2 ▸ Option.some_inj
  | addOutOfServiceTaint =>
    refine ⟨(hadd _).1, Iff.trans ?_ (addUndisturbed_iff _ _ _ _)⟩
    exact (hadd outOfServiceTaint).2 ▸ Option.some_inj
  | removeOutOfServiceTaint =>
    refine ⟨(hremove _).1, Iff.trans ?_ (removeUndisturbed_iff _ _ _)⟩
    exact (hremove outOfServiceTaint).2 ▸ Option.some_inj

/-! The node lifecycle controller adds a taint between the manager's read and its
patch, or removes one. -/

def unreachableTaint : Taint := ⟨"node.kubernetes.io/unreachable", "", .noExecute, none⟩

/-- The small cluster with these taints on the node. -/
def taintedBy (taints : List Taint) : Cluster :=
  smallCluster.setNode "worker-1" { smallNode with taints := taints }

def smallMem : Mem := ⟨smallCluster.snr.read, none, none⟩

/-- The taints on the node after the edit of a copy with the taints `ours`, when
`theirs` are stored. -/
def taintsAfter (edit : TaintEdit) (ours theirs : List Taint) : Option (List Taint) :=
  (((edit.run smallManager { smallNode with taints := ours } smallMem).eval serve
    (taintedBy theirs)).2.nodes "worker-1").map Node.taints

/-- Nobody else has written. -/
theorem taints_kept_small :
    taintsAfter .addNoScheduleTaint [unreachableTaint] [unreachableTaint] =
      some (TaintEdit.addNoScheduleTaint.applied (taintedBy [unreachableTaint]).now
        [unreachableTaint]) :=
  have hnode : (taintedBy [unreachableTaint]).nodes
      ({ smallNode with taints := [unreachableTaint] } : Node).name =
      some { smallNode with taints := [unreachableTaint] } := rfl
  (taints_kept_iff smallManager .addNoScheduleTaint smallMem hnode).2.mpr (.inl rfl)

/-- A taint that was added in between is lost, and one that was removed in between
comes back. -/
theorem taint_lost :
    (taintsAfter .addNoScheduleTaint [] [unreachableTaint] =
        some [{ nodeNoScheduleTaint with timeAdded := some smallCluster.now.truncate }] ∧
      taintsAfter .addNoScheduleTaint [] [unreachableTaint] ≠
        some (TaintEdit.addNoScheduleTaint.applied smallCluster.now [unreachableTaint])) ∧
    taintsAfter .removeOutOfServiceTaint [unreachableTaint, outOfServiceTaint] [outOfServiceTaint] =
        some [unreachableTaint] ∧
      taintsAfter .removeOutOfServiceTaint [unreachableTaint, outOfServiceTaint]
        [outOfServiceTaint] ≠ some (TaintEdit.removeOutOfServiceTaint.applied smallCluster.now
          [outOfServiceTaint]) := by
  decide +kernel

end SelfNodeRemediation
