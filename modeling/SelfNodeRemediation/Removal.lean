import SelfNodeRemediation.Reads

/-!
# Taints and resource removal

The parts of a reconcile that write, but not to the SelfNodeRemediation: they leave
the local copy alone, and keep what the calls about other objects keep. As in `Reads`
this is proved against any proof outline that allows their calls.

* `wp_addTaint_leaves`, `wp_removeTaint_leaves`, `wp_useOutOfServiceTaint_leaves`: what
  becomes of the node, by what its patches do.
* `Beside` is what the functions need that only keep a fact; in an outline for the
  cluster this is a fact that is `Robust`.
-/

namespace SelfNodeRemediation

open Interaction Versioned

/-! ## 1. Calls about other objects -/

/-- The calls that leave the SelfNodeRemediation alone. -/
def Call.isAside : Call → Bool
  | .updateSNR _ | .updateSNRStatus _ | .patchSNRStatus _ _ => false
  | _ => true

theorem Call.isAside_of_isBeside {c : Call} (h : c.isBeside = true) : c.isAside = true := by
  cases c with
  | updateSNR _ | updateSNRStatus _ | patchSNRStatus _ _ => cases h
  | _ => rfl

theorem serve_aside {c : Call} {w : Cluster} (hc : c.isAside = true) :
    (serve c w).2.snr = w.snr ∧ (serve c w).2.gone = w.gone := by
  cases c with
  | patchNode base changed =>
    simp only [serve, Cluster.patchNode]
    cases w.nodes changed.name with
    | none => exact ⟨rfl, rfl⟩
    | some node => exact ⟨rfl, rfl⟩
  | updateSNR _ => cases hc
  | updateSNRStatus _ => cases hc
  | patchSNRStatus _ _ => cases hc
  | _ => exact ⟨rfl, rfl⟩

theorem Exec.aside {lagging : Bool} {c : Call} {w w' : Cluster} {r : Resp c}
    (h : Exec lagging c w r w') (hc : c.isAside = true) :
    w'.snr = w.snr ∧ w'.gone = w.gone := by
  rcases h.world with rfl | rfl
  · exact ⟨rfl, rfl⟩
  · exact serve_aside hc

/-- No call changes the flag of the manager. -/
theorem Exec.isOutOfServiceTaintGA {lagging : Bool} {c : Call} {w w' : Cluster} {r : Resp c}
    (h : Exec lagging c w r w') (hc : c.isAside = true) :
    w'.isOutOfServiceTaintGA = w.isOutOfServiceTaintGA := by
  rcases h.world with rfl | rfl
  · rfl
  · cases c with
    | patchNode base changed =>
      simp only [serve, Cluster.patchNode]
      cases w.nodes changed.name with
      | none => rfl
      | some node => rfl
    | updateSNR _ => cases hc
    | updateSNRStatus _ => cases hc
    | patchSNRStatus _ _ => cases hc
    | _ => rfl

/-- An `Update` keeps the status. -/
theorem Exec.updateSNR_status {lagging : Bool} {sent : Revision SNR} {w w' : Cluster}
    {r : Resp (.updateSNR sent)} (h : Exec lagging (.updateSNR sent) w r w') :
    w'.snr.current.status = w.snr.current.status := by
  rcases (Exec.updateSNR h).world with rfl | ⟨-, rfl⟩
  · rfl
  · have hcurrent : (w.store (updated w.snr.current sent.value)).snr.current =
        updated w.snr.current sent.value := Store.putIfChanged_current
    rw [hcurrent]
    rfl

/-! ## 2. Nodes -/

/-- The node with the taint added, as `addTaint` sends it. -/
def withTaint (taint : Taint) (now : Time) (node : Node) : Node :=
  { node with taints := node.taints ++ [{ taint with timeAdded := some now.truncate }] }

/-- The node without the taint, as `removeTaint` sends it. -/
def withoutTaint (taint : Taint) (node : Node) : Node :=
  { node with taints := (deleteTaint node.taints taint).1 }

theorem patchedNode_of_ne {base node : Node} {taints : List Taint} (hne : base.taints ≠ taints) :
    patchedNode base { base with taints := taints } node = { node with taints := taints } :=
  if_neg hne

theorem patchedNode_name (base changed node : Node) :
    (patchedNode base changed node).name = node.name := by
  unfold patchedNode
  split <;> rfl

/-- A patch leaves what is stored under a name the node of that name. -/
theorem named_patchNode {w : Cluster} {base changed node : Node} {name : String}
    (h : ∀ node, w.nodes name = some node → node.name = name)
    (hnode : w.nodes changed.name = some node) (node' : Node)
    (hnode' : (w.setNode changed.name (patchedNode base changed node)).nodes name = some node') :
    node'.name = name := by
  change Function.update w.nodes changed.name _ name = some node' at hnode'
  rcases eq_or_ne name changed.name with rfl | hne
  · rw [Function.update_self] at hnode'
    cases hnode'
    rw [patchedNode_name]
    exact h node hnode
  · rw [Function.update_of_ne hne] at hnode'
    exact h node' hnode'

/-- What is decoded from the answer to a patch that changes the taints. -/
theorem decode_patched {base n : Node} {taints : List Taint} (hne : base.taints ≠ taints)
    (mode : DecodeMode) :
    (mode.node (patchedNode base { base with taints := taints } n)
      { base with taints := taints }).name = n.name ∧
    (mode.node (patchedNode base { base with taints := taints } n)
      { base with taints := taints }).taints = taints := by
  rw [patchedNode_of_ne hne]
  cases mode with
  | zeroFirst => exact ⟨rfl, rfl⟩
  | overwrite =>
    refine ⟨rfl, ?_⟩
    show overlayList taints taints = taints
    unfold overlayList
    split <;> rfl

/-! ## 3. Taints -/

/-- A patch of a node. After it `N` is true of what is decoded from the answer, or `F` of
the error. -/
structure Patches {W : Type} (O : Outline Call Resp W) (mode : DecodeMode) (base changed : Node)
    (P : W → Prop) (N : Node → W → Prop) (F : GoErr → W → Prop) : Prop where
  allowed : ∀ {w}, O.inv w → P w → O.allowed (.patchNode base changed) w
  done : ∀ {node w w'}, O.inv w → P w → O.exec (.patchNode base changed) w (.ok node) w' →
    N (mode.node node changed) w'
  failed : ∀ {e w w'}, O.inv w → P w → O.exec (.patchNode base changed) w (.error e) w' → F e w'

section Patches

variable {W : Type} {O : Outline Call Resp W} {P : W → Prop} {N : Node → W → Prop}
  {F : GoErr → W → Prop} {m : Mem} {w : W} {r : Reconciler} {taint : Taint} {node : Node}
  (hP : O.Stable P) (hN : ∀ node, O.Stable (N node)) (hF : ∀ e, O.Stable (F e))

include hP hN hF

theorem wp_patchNode_leaves {changed : Node} (hpatch : Patches O r.decode node changed P N F)
    (hw : P w) :
    O.wp ((call (.patchNode node changed) >>= fun answer => Session.ofExcept answer >>=
      fun answer => pure (r.decode.node answer changed) : M Node) m) (Leaves N F m) w := by
  refine Session.wp_call hP hw (fun _ => hpatch.allowed) ?_
  intro w answer w' hi hw he _
  cases answer with
  | ok node =>
    exact Session.wp_ret (stable_leaves hN hF (.ok _, m)) (leaves_ok (hpatch.done hi hw he))
  | error e =>
    exact Session.wp_ret (stable_leaves hN hF (.error e, m)) (leaves_error (hpatch.failed hi hw he))

theorem wp_removeTaint_leaves (habsent : taintExists node.taints taint = false → N node w)
    (hpatch : taintExists node.taints taint = true →
      Patches O r.decode node (withoutTaint taint node) P N F) (hw : P w) :
    O.wp (removeTaint r taint node m) (Leaves N F m) w := by
  unfold removeTaint
  cases hexists : taintExists node.taints taint with
  | false => exact Session.wp_ret (stable_leaves hN hF (.ok node, m)) (leaves_ok (habsent hexists))
  | true =>
    rw [if_pos rfl, (deleteTaint_of_exists hexists).1]
    exact wp_patchNode_leaves hP hN hF (hpatch hexists) hw

end Patches

section Taints

variable {W : Type} {O : Outline Call Resp W} {E : GoErr → Prop} {N : Node → W → Prop}
  {F : GoErr → W → Prop} {m : Mem} {w : W} {r : Reconciler} {node : Node}
  (hF : ∀ e, O.Stable (F e))

include hF

theorem wp_addTaint_leaves {taint : Taint} {P : W → Prop} (hR : Reading O E P)
    (hN : ∀ node, O.Stable (N node)) (hthere : taintExists node.taints taint = true → N node w)
    (hpatch : ∀ now, Patches O r.decode node (withTaint taint now node) P N F) (hw : P w) :
    O.wp (addTaint r taint node m) (Leaves N F m) w := by
  unfold addTaint
  split
  · next hexists =>
    exact Session.wp_ret (stable_leaves hN hF (.ok node, m)) (leaves_ok (hthere hexists))
  · exact hR.wp_call rfl hw fun now w _ hw =>
      wp_patchNode_leaves hR.stable hN hF (hpatch now) hw

/-- `useOutOfServiceTaint` waits, or removes the taint that it has added. `D` is true of
the time that it returns. -/
theorem wp_useOutOfServiceTaint_leaves {D : Duration → W → Prop}
    (hN : ∀ node, Reading O E (N node)) (hD : ∀ d, O.Stable (D d))
    (ht : Fails E (deref m.snr.value.status.timeAssumedRebooted))
    (hadd : O.wp (addOutOfServiceTaint r node m) (Leaves N F m) w)
    (hremove : ∀ node w, O.inv w → N node w →
      O.wp (removeOutOfServiceTaint r node m) (Leaves (fun _ => D 0) F m) w)
    (hwait : ∀ node timeLeft w, timeLeft ≠ 0 → N node w → D timeLeft w)
    (hfailed : ∀ node e w, E e → N node w → F e w) :
    O.wp (useOutOfServiceTaint r node m) (Leaves D F m) w := by
  have hend (res : Except GoErr Duration × Mem) : O.Stable (Leaves D F m res) :=
    stable_leaves hD hF res
  have herror {e : GoErr} {w : W} (h : F e w) :
      O.wp (Prog.ret (.error e, m)) (Leaves D F m) w :=
    Session.wp_ret (hend (.error e, m)) (leaves_error h)
  refine Leaves.wp_bind hadd (fun node w _ hw => ?_) fun _ _ _ h => herror h
  have hremoved {w : W} (hi : O.inv w) (hw : N node w) :
      O.wp ((removeOutOfServiceTaint r node >>= fun _ => pure (0 : Duration) : M Duration) m)
        (Leaves D F m) w :=
    Leaves.wp_bind (hremove node w hi hw)
      (fun _ _ _ h => Session.wp_ret (hend (.ok 0, m)) (leaves_ok h)) fun _ _ _ h => herror h
  refine (keeps_isResourceDeletionCompleted (hN node) node hw).wp_bind ?_
    fun e w _ hw he => herror (hfailed node e w he hw)
  intro completed w hi hw
  cases completed with
  | true => exact hremoved hi hw
  | false =>
    refine Leaves.wp_bind (wp_isResourceDeletionExpired (hN node) ht hw) ?_
      fun e w _ h => herror (hfailed node e w h.2 h.1)
    rintro ⟨isExpired, timeLeft⟩ w hi ⟨hw, hleft⟩
    refine wp_theSNR ?_
    cases isExpired with
    | false =>
      exact Session.wp_ret (hend (.ok timeLeft, m)) (leaves_ok (hwait node _ w (hleft rfl) hw))
    | true =>
      cases hdel : m.snr.value.deletionTimestamp.isSome with
      | true => exact hremoved hi hw
      | false => exact herror (hfailed node _ w ((hN node).values (.new _) nofun) hw)

end Taints

/-! ## 4. What stays -/

/-- Lookups are allowed where `P` is known, and every call about another object keeps it. -/
structure Beside {W : Type} (O : Outline Call Resp W) (E : GoErr → Prop) (P : W → Prop) : Prop
    extends Reading O E P where
  kept : ∀ {c w a w'}, c.isBeside = true → O.inv w → P w → O.exec c w a w' →
    P w' ∧ ∀ e, errorOf c a = some e → E e

/-- A fact that neither the others nor the calls beside the SelfNodeRemediation
break. -/
structure Robust (O : Outline Call Resp Cluster) (P : Cluster → Prop) : Prop where
  stable : O.Stable P
  aside : ∀ {c : Call} {w : Cluster} {r : Resp c} {w' : Cluster},
    c.isAside = true → O.exec c w r w' → P w → P w'

theorem Client.beside {lagging : Bool} {O : Outline Call Resp Cluster} {E : GoErr → Prop}
    {P : Cluster → Prop} (hO : Client lagging O) (hE : ∀ e, e.IsValue → E e)
    (hP : Robust O P) : Beside O E P where
  toReading := hO.reading hE hP.stable
  kept hc _ hw he :=
    ⟨hP.aside (Call.isAside_of_isBeside hc) he hw, fun e h => hE e ((hO.exec he).isValue h)⟩

section Beside

variable {W : Type} {O : Outline Call Resp W} {E : GoErr → Prop} {α β : Type} {P : W → Prop}
  {m : Mem} {w : W} (hB : Beside O E P)

include hB

/-- A call about another object whose error, if any, is returned. -/
theorem keeps_call {c : Call} {f : Resp c → M β} (hc : c.isBeside = true) (hw : P w)
    (ha : ∀ w, O.inv w → P w → O.allowed c w)
    (hf : ∀ a w, (∀ e, errorOf c a = some e → E e) → P w → Keeps O E P m w (f a)) :
    Keeps O E P m w (call c >>= f) := by
  refine Session.wp_call hB.stable hw ha ?_
  intro w a w' hi hw he _
  obtain ⟨hw', hanswer⟩ := hB.kept hc hi hw he
  exact hf a w' hanswer hw'

/-- A patch that is always allowed where `P` is known. -/
theorem patches_keeps {mode : DecodeMode} {base changed : Node}
    (ha : ∀ w, O.inv w → P w → O.allowed (.patchNode base changed) w) :
    Patches O mode base changed P (fun _ => P) fun e w => P w ∧ E e where
  allowed hi hw := ha _ hi hw
  done hi hw he := (hB.kept rfl hi hw he).1
  failed hi hw he := ⟨(hB.kept rfl hi hw he).1, (hB.kept rfl hi hw he).2 _ rfl⟩

theorem keeps_addTaint (r : Reconciler) (taint : Taint) (node : Node) (hw : P w)
    (ha : ∀ now w, O.inv w → P w → O.allowed (.patchNode node (withTaint taint now node)) w) :
    Keeps O E P m w (addTaint r taint node) :=
  .of_leaves (wp_addTaint_leaves (fun _ => hB.stable.and Outline.stable_const) hB.toReading
    (fun _ => hB.stable) (fun _ => hw) (fun now => patches_keeps hB (ha now)) hw)

theorem keeps_removeTaint (r : Reconciler) (taint : Taint) (node : Node) (hw : P w)
    (ha : ∀ w, O.inv w → P w → O.allowed (.patchNode node (withoutTaint taint node)) w) :
    Keeps O E P m w (removeTaint r taint node) :=
  .of_leaves (wp_removeTaint_leaves hB.stable (fun _ => hB.stable)
    (fun _ => hB.stable.and Outline.stable_const) (fun _ => hw)
    (fun _ => patches_keeps hB ha) hw)

theorem keeps_deletePodsIn (nodeName : String) (namespaces : List String) (hw : P w)
    (ha : ∀ ns w, O.inv w → P w → O.allowed (.deleteAllOf ns nodeName) w) :
    Keeps O E P m w (deletePodsIn nodeName namespaces) := by
  induction namespaces generalizing w with
  | nil => exact keeps_pure hB.stable hw
  | cons ns namespaces ih =>
    refine keeps_call hB rfl hw (ha ns) fun answer w hr hw => ?_
    have hfails : Fails E answer := fun e he => hr e (he ▸ rfl)
    exact (keeps_ofExcept hB.stable hw hfails).bind hB.stable fun _ w hw => ih hw

/-- `DeletePods`, from its first call on. -/
theorem keeps_deletePods (nodeName : String) (hw : P w)
    (hlist : ∀ w, O.inv w → P w → O.allowed .listNamespaces w)
    (ha : ∀ ns w, O.inv w → P w → O.allowed (.deleteAllOf ns nodeName) w) :
    Keeps O E P m w (deletePods nodeName) := by
  refine keeps_call hB rfl hw hlist fun answer w hr hw => ?_
  have hfails : Fails E answer := fun e he => hr e (he ▸ rfl)
  refine (keeps_ofExcept hB.stable hw hfails).bind hB.stable ?_
  exact fun _ w hw => keeps_deletePodsIn hB nodeName _ hw ha

theorem keeps_deleteResourcesWrapper (node : Node) (hw : P w)
    (hlist : ∀ w, O.inv w → P w → O.allowed .listNamespaces w)
    (ha : ∀ ns w, O.inv w → P w → O.allowed (.deleteAllOf ns node.name) w) :
    Keeps O E P m w (deleteResourcesWrapper node) :=
  (keeps_deletePods hB node.name hw hlist ha).bind hB.stable fun _ _ hw =>
    keeps_pure hB.stable hw

theorem keeps_useOutOfServiceTaint (r : Reconciler) (node : Node) (hw : P w)
    (ht : Fails E (deref m.snr.value.status.timeAssumedRebooted))
    (hadd : ∀ now w, O.inv w → P w →
      O.allowed (.patchNode node (withTaint outOfServiceTaint now node)) w)
    (hremove : ∀ node w, O.inv w → P w →
      O.allowed (.patchNode node (withoutTaint outOfServiceTaint node)) w) :
    Keeps O E P m w (useOutOfServiceTaint r node) :=
  .of_leaves (wp_useOutOfServiceTaint_leaves (N := fun _ => P)
    (fun _ => hB.stable.and Outline.stable_const) (fun _ => hB.toReading) (fun _ => hB.stable) ht
    ((keeps_addTaint hB r _ node hw hadd).leaves fun _ _ _ hw he => ⟨hw, he⟩)
    (fun node _ _ hw => (keeps_removeTaint hB r _ node hw (hremove node)).leaves
      fun _ _ _ hw he => ⟨hw, he⟩)
    (fun _ _ _ _ hw => hw) fun _ _ _ he hw => ⟨hw, he⟩)

end Beside

end SelfNodeRemediation
