import SelfNodeRemediation.ApiCheck
import SelfNodeRemediation.Cluster

/-!
# The peer health server

`Server.IsHealthy` answers a peer's question about a node from the list of the
SelfNodeRemediations: Unhealthy if one of them matches, Healthy otherwise. A
SelfNodeRemediation whose Machine lookup fails is passed over.

* `target_agreed`: with one Machine store for all, the agent, the manager and the
  peers agree on which node a SelfNodeRemediation targets.
* `vouches_iff`: the server answers Healthy only for nodes it knows of exactly when
  one SelfNodeRemediation matches or every target can be determined.
-/

namespace SelfNodeRemediation

open Interaction

/-! ## 1. The server -/

structure HealthRequest where
  nodeName : String
  machineName : String

/-- The list call runs asynchronously; `none` stands for one that does not return
before the context expires. -/
def listWithTimeoutHandling {α : Type} : Option (Except GoErr α) → Except GoErr α
  | none => .error (.new "timed out")
  | some answer => answer

/-- The copy of an item of the list. -/
def itemOf (snr : SNR) : Mem := ⟨⟨0, snr⟩, none, none⟩

/-- Healthy only if no SelfNodeRemediation matches the node. -/
def checkItems (nodeName machineName : String) : List SNR → Prog Call Resp HealthCheckResponseCode
  | [] => .ret .healthy
  | snr :: snrs => do
    let (snrMatches, _) ← isSNRMatching nodeName machineName (itemOf snr)
    match snrMatches with
    | .error _ => checkItems nodeName machineName snrs
    | .ok true => .ret .unhealthy
    | .ok false => checkItems nodeName machineName snrs

/-- `Server.IsHealthy`, with the answer to its list call. -/
def isHealthy (request : HealthRequest) (list : Option (Except GoErr (List SNR))) :
    Prog Call Resp (Except GoErr HealthCheckResponseCode) :=
  if request.nodeName = "" then .ret (.error (.new "empty node name in HealthRequest"))
  else
    match listWithTimeoutHandling list with
    | .error _ => .ret (.ok .apiError)
    | .ok snrs => do
      let status ← checkItems request.nodeName request.machineName snrs
      .ret (.ok status)

/-! ## 2. What a lookup answers -/

section Names

variable {snr : SNR} {ref : OwnerReference}

theorem getNodeName_itemOf (h : isOwnedByNHC snr = false) (href : isOwnedByMachine snr = some ref) :
    getNodeName (itemOf snr) = getNodeNameFromMachine ref snr.namespace_ (itemOf snr) :=
  getNodeName_machine (m := itemOf snr) h href

/-- `getNodeNameFromMachine`, by the answer to its lookup. -/
theorem eval_getNodeNameFromMachine {W : Type} {serve : (c : Call) → W → Resp c × W} {w : W}
    {ns : String} {m : Mem} {answer : Except GoErr Machine}
    (h : (serve (.getMachine ns ref.name) w).1 = answer) :
    (getNodeNameFromMachine ref ns m).eval serve w =
      ((answer.bind fun machine => machine.nodeRef.elim (.error (.new "nodeRef is nil")) .ok, m),
        (serve (.getMachine ns ref.name) w).2) := by
  unfold getNodeNameFromMachine
  rw [Session.eval_call (Prod.ext h rfl)]
  rcases answer with e | ⟨_ | name⟩
  · rfl
  · rfl
  · rfl

end Names

section Lookups

variable {W : Type} (serve : (c : Call) → W → Resp c × W) (w : W)

/-- What `getNodeName` returns for an item. -/
def nodeNameOf (snr : SNR) : Except GoErr String := ((getNodeName (itemOf snr)).eval serve w).1.1

/-- What `IsSNRMatching` returns for an item. -/
def matchingOf (nodeName machineName : String) (snr : SNR) : Except GoErr Bool :=
  ((isSNRMatching nodeName machineName (itemOf snr)).eval serve w).1.1

/-- The first Machine owner has this name. -/
def OwnedBy (machineName : String) (snr : SNR) : Prop :=
  ∃ ref, isOwnedByMachine snr = some ref ∧ ref.name = machineName

/-- How the node name of an item is resolved. -/
inductive Resolves (snr : SNR) : String → Prop
  | nhc : isOwnedByNHC snr = true → Resolves snr (getNodeNameDirect snr)
  | machine {ref : OwnerReference} {machine : Machine} {nodeName : String} :
      isOwnedByNHC snr = false → isOwnedByMachine snr = some ref →
      (serve (.getMachine snr.namespace_ ref.name) w).1 = .ok machine →
      machine.nodeRef = some nodeName → Resolves snr nodeName
  | direct : isOwnedByNHC snr = false → isOwnedByMachine snr = none →
      Resolves snr (getNodeNameDirect snr)

/-- The item matches: by its Machine, or because it resolves to the node. -/
def Matched (nodeName machineName : String) (snr : SNR) : Prop :=
  OwnedBy machineName snr ∨ Resolves serve w snr nodeName

/-- It can be told whether the item matches. -/
def Decided (machineName : String) (snr : SNR) : Prop :=
  OwnedBy machineName snr ∨ ∃ nodeName, Resolves serve w snr nodeName

variable {serve w} {snr : SNR} {nodeName machineName : String}

theorem Resolves.eval (h : Resolves serve w snr nodeName) :
    ∃ w', (getNodeName (itemOf snr)).eval serve w = ((.ok nodeName, itemOf snr), w') := by
  cases h with
  | nhc hnhc =>
    rw [getNodeName_nhc (m := itemOf snr) hnhc]
    exact ⟨w, rfl⟩
  | @machine ref machine _ hnhc href hmachine hnode =>
    rw [getNodeName_itemOf hnhc href, eval_getNodeNameFromMachine hmachine]
    simp only [Except.bind, hnode]
    exact ⟨_, rfl⟩
  | direct hnhc href =>
    rw [getNodeName_direct (m := itemOf snr) hnhc href]
    exact ⟨w, rfl⟩

/-- Where no node name can be resolved `getNodeName` fails. -/
theorem eval_unresolved (h : ∀ nodeName, ¬ Resolves serve w snr nodeName) :
    ∃ e w', (getNodeName (itemOf snr)).eval serve w = ((.error e, itemOf snr), w') := by
  cases hnhc : isOwnedByNHC snr with
  | true => exact absurd (.nhc hnhc) (h _)
  | false =>
    cases href : isOwnedByMachine snr with
    | none => exact absurd (.direct hnhc href) (h _)
    | some ref =>
      cases hmachine : (serve (.getMachine snr.namespace_ ref.name) w).1 with
      | error e =>
        rw [getNodeName_itemOf hnhc href, eval_getNodeNameFromMachine hmachine]
        exact ⟨e, _, rfl⟩
      | ok machine =>
        rw [getNodeName_itemOf hnhc href, eval_getNodeNameFromMachine hmachine]
        cases hnode : machine.nodeRef with
        | none =>
          simp only [Except.bind, hnode]
          exact ⟨_, _, rfl⟩
        | some nodeName => exact absurd (.machine hnhc href hmachine hnode) (h _)

theorem nodeNameOf_ok_iff :
    nodeNameOf serve w snr = .ok nodeName ↔ Resolves serve w snr nodeName := by
  constructor
  · intro h
    by_contra hno
    by_cases hresolved : ∃ other, Resolves serve w snr other
    · obtain ⟨other, hother⟩ := hresolved
      obtain ⟨w', heval⟩ := hother.eval
      rw [nodeNameOf, heval] at h
      exact hno (Except.ok.inj h ▸ hother)
    · obtain ⟨e, w', heval⟩ := eval_unresolved fun other hother => hresolved ⟨other, hother⟩
      rw [nodeNameOf, heval] at h
      cases h
  · intro h
    obtain ⟨w', heval⟩ := h.eval
    rw [nodeNameOf, heval]

theorem any_owner_iff :
    ((isOwnedByMachine snr).any fun ref => machineName == ref.name) = true ↔
      OwnedBy machineName snr := by
  unfold OwnedBy
  cases isOwnedByMachine snr with
  | none => exact ⟨nofun, fun ⟨_, h, _⟩ => nomatch h⟩
  | some ref =>
    simp only [Option.any_some, beq_iff_eq, Option.some.injEq, exists_eq_left']
    exact eq_comm

theorem matchingOf_owned (h : OwnedBy machineName snr) :
    matchingOf serve w nodeName machineName snr = .ok true := by
  show (((if (isOwnedByMachine snr).any _ then _ else _ : M Bool)
    (itemOf snr)).eval serve w).1.1 = _
  rw [if_pos (any_owner_iff.mpr h)]
  rfl

/-- Without the Machine's name to go by, the node names are compared. -/
theorem matchingOf_named (h : ¬ OwnedBy machineName snr) :
    matchingOf serve w nodeName machineName snr =
      (nodeNameOf serve w snr).map (· == nodeName) := by
  show (((if (isOwnedByMachine snr).any _ then _ else _ : M Bool)
    (itemOf snr)).eval serve w).1.1 = _
  rw [if_neg (mt any_owner_iff.mp h)]
  unfold nodeNameOf
  by_cases hresolved : ∃ other, Resolves serve w snr other
  · obtain ⟨other, hother⟩ := hresolved
    obtain ⟨w', heval⟩ := hother.eval
    rw [Session.eval_bind_ok heval, heval]
    rfl
  · obtain ⟨e, w', heval⟩ := eval_unresolved fun other hother => hresolved ⟨other, hother⟩
    rw [Session.eval_bind_error heval, heval]
    rfl

theorem matchingOf_true_iff :
    matchingOf serve w nodeName machineName snr = .ok true ↔
      Matched serve w nodeName machineName snr := by
  by_cases howned : OwnedBy machineName snr
  · exact ⟨fun _ => .inl howned, fun _ => matchingOf_owned howned⟩
  · rw [matchingOf_named howned, Matched, or_iff_right howned, ← nodeNameOf_ok_iff]
    cases nodeNameOf serve w snr with
    | error e => exact ⟨nofun, nofun⟩
    | ok other => simp [Except.map]

/-- `IsSNRMatching` has an answer exactly where it can be told. -/
theorem matchingOf_ok_iff :
    (∃ snrMatches, matchingOf serve w nodeName machineName snr = .ok snrMatches) ↔
      Decided serve w machineName snr := by
  by_cases howned : OwnedBy machineName snr
  · exact ⟨fun _ => .inl howned, fun _ => ⟨true, matchingOf_owned howned⟩⟩
  · rw [matchingOf_named howned, Decided, or_iff_right howned]
    simp only [← nodeNameOf_ok_iff]
    cases nodeNameOf serve w snr with
    | error e => exact ⟨fun ⟨_, h⟩ => absurd h nofun, fun ⟨_, h⟩ => absurd h nofun⟩
    | ok other => exact ⟨fun _ => ⟨other, rfl⟩, fun _ => ⟨_, rfl⟩⟩

end Lookups

/-! ## 3. The loop -/

section Loop

variable {W : Type} (serve : (c : Call) → W → Resp c × W) (nodeName machineName : String)

/-- The items of the list, each with the world in which it comes to its turn if
none before it matches. -/
def turns : W → List SNR → List (SNR × W)
  | _, [] => []
  | w, snr :: snrs =>
    (snr, w) :: turns ((isSNRMatching nodeName machineName (itemOf snr)).eval serve w).2 snrs

variable {serve nodeName machineName}

theorem eval_checkItems_cons {snr : SNR} {snrs : List SNR} {w : W} :
    ((checkItems nodeName machineName (snr :: snrs)).eval serve w).1 =
      if matchingOf serve w nodeName machineName snr = .ok true then .unhealthy
      else ((checkItems nodeName machineName snrs).eval serve
        ((isSNRMatching nodeName machineName (itemOf snr)).eval serve w).2).1 := by
  unfold matchingOf
  rw [checkItems, Prog.eval_bind]
  rcases (isSNRMatching nodeName machineName (itemOf snr)).eval serve w with ⟨⟨answer, _⟩, w'⟩
  rcases answer with e | _ | _
  · rfl
  · rfl
  · rfl

/-- The loop ends with Unhealthy exactly if one item matches at its turn. -/
theorem checkItems_cases (serve : (c : Call) → W → Resp c × W) (nodeName machineName : String)
    (snrs : List SNR) (w : W) :
    ((∃ turn ∈ turns serve nodeName machineName w snrs,
        Matched serve turn.2 nodeName machineName turn.1) ∧
      ((checkItems nodeName machineName snrs).eval serve w).1 = .unhealthy) ∨
    ((∀ turn ∈ turns serve nodeName machineName w snrs,
        ¬ Matched serve turn.2 nodeName machineName turn.1) ∧
      ((checkItems nodeName machineName snrs).eval serve w).1 = .healthy) := by
  induction snrs generalizing w with
  | nil => exact .inr ⟨fun _ hturn => absurd hturn List.not_mem_nil, rfl⟩
  | cons snr snrs ih =>
    rw [eval_checkItems_cons, turns]
    by_cases hmatch : matchingOf serve w nodeName machineName snr = .ok true
    · rw [if_pos hmatch]
      exact .inl ⟨⟨_, List.mem_cons_self, matchingOf_true_iff.mp hmatch⟩, rfl⟩
    · rw [if_neg hmatch]
      rcases ih ((isSNRMatching nodeName machineName (itemOf snr)).eval serve w).2 with
        ⟨⟨turn, hturn, hm⟩, heval⟩ | ⟨hnone, heval⟩
      · exact .inl ⟨⟨turn, List.mem_cons_of_mem _ hturn, hm⟩, heval⟩
      · refine .inr ⟨?_, heval⟩
        intro turn hturn
        rcases List.mem_cons.mp hturn with rfl | hturn
        · exact mt matchingOf_true_iff.mpr hmatch
        · exact hnone turn hturn

/-- The answer of the server when the list call succeeds in time. -/
def answerOf (serve : (c : Call) → W → Resp c × W) (w : W) (request : HealthRequest)
    (snrs : List SNR) : Except GoErr HealthCheckResponseCode :=
  ((isHealthy request (some (.ok snrs))).eval serve w).1

theorem answerOf_named {request : HealthRequest} (h : request.nodeName ≠ "") {w : W}
    {snrs : List SNR} : answerOf serve w request snrs =
      .ok ((checkItems request.nodeName request.machineName snrs).eval serve w).1 := by
  unfold answerOf isHealthy listWithTimeoutHandling
  rw [if_neg h]
  dsimp only
  rw [Prog.eval_bind]
  rfl

theorem answerOf_unnamed {request : HealthRequest} (h : request.nodeName = "") {w : W}
    {snrs : List SNR} : answerOf serve w request snrs =
      .error (.new "empty node name in HealthRequest") := by
  unfold answerOf isHealthy
  rw [if_pos h]
  rfl

end Loop

/-! ## 4. Agreement on the target -/

section Agreement

variable {W : Type} {serve : (c : Call) → W → Resp c × W} {w : W} {snrs : List SNR}
  {nodeName machineName : String} {store : String → String → Except GoErr Machine}

/-- Machine lookups are answered from the store, and leave the world alone. -/
def Common (serve : (c : Call) → W → Resp c × W) (w : W)
    (store : String → String → Except GoErr Machine) : Prop :=
  ∀ ns name, serve (.getMachine ns name) w = (store ns name, w)

theorem Common.world (h : Common serve w store) (snr : SNR) :
    ((isSNRMatching nodeName machineName (itemOf snr)).eval serve w).2 = w := by
  have hname : ∃ r, (getNodeName (itemOf snr)).eval serve w = ((r, itemOf snr), w) := by
    cases hnhc : isOwnedByNHC snr with
    | true => exact ⟨_, by rw [getNodeName_nhc (m := itemOf snr) hnhc]; rfl⟩
    | false =>
      cases href : isOwnedByMachine snr with
      | none => exact ⟨_, by rw [getNodeName_direct (m := itemOf snr) hnhc href]; rfl⟩
      | some ref =>
        have hmachine := eval_getNodeNameFromMachine (m := itemOf snr)
          (congrArg Prod.fst (h snr.namespace_ ref.name))
        rw [h] at hmachine
        exact ⟨_, (congrArg (·.eval serve w) (getNodeName_itemOf hnhc href)).trans hmachine⟩
  obtain ⟨r, hname⟩ := hname
  show (((if (isOwnedByMachine snr).any _ then _ else _ : M Bool) (itemOf snr)).eval serve w).2 = _
  split
  · rfl
  · cases r with
    | error e => rw [Session.eval_bind_error hname]
    | ok other =>
      rw [Session.eval_bind_ok hname]
      rfl

theorem Common.turns (h : Common serve w store) (snrs : List SNR) :
    turns serve nodeName machineName w snrs = snrs.map (·, w) := by
  induction snrs with
  | nil => rfl
  | cons snr snrs ih => rw [SelfNodeRemediation.turns, h.world, ih, List.map_cons]

theorem not_ownedBy_empty {snr : SNR} (h : ∀ ref ∈ snr.ownerReferences, ref.name ≠ "") :
    ¬ OwnedBy "" snr := by
  rintro ⟨ref, href, hname⟩
  exact h ref (List.mem_of_find?_eq_some href) hname

/-- The agent, which asks without a Machine name, matches exactly what the manager
resolves to its node. A peer that is asked about a node answers Unhealthy if one of
the list resolves to it, and only then or if one is owned by the Machine asked
about. -/
theorem target_agreed (hstore : Common serve w store)
    (hnames : ∀ snr ∈ snrs, ∀ ref ∈ snr.ownerReferences, ref.name ≠ "") (hnode : nodeName ≠ "") :
    (∀ snr ∈ snrs, matchingOf serve w nodeName "" snr = .ok true ↔
      nodeNameOf serve w snr = .ok nodeName) ∧
    ((∃ snr ∈ snrs, nodeNameOf serve w snr = .ok nodeName) →
      answerOf serve w ⟨nodeName, machineName⟩ snrs = .ok .unhealthy) ∧
    (answerOf serve w ⟨nodeName, machineName⟩ snrs = .ok .unhealthy →
      ∃ snr ∈ snrs, nodeNameOf serve w snr = .ok nodeName ∨ OwnedBy machineName snr) := by
  have hloop := checkItems_cases serve nodeName machineName snrs w
  rw [hstore.turns] at hloop
  refine ⟨?_, ?_, ?_⟩
  · intro snr hsnr
    rw [matchingOf_true_iff, nodeNameOf_ok_iff]
    exact or_iff_right (not_ownedBy_empty (hnames snr hsnr))
  · rintro ⟨snr, hsnr, hresolves⟩
    rw [answerOf_named hnode]
    rcases hloop with ⟨-, heval⟩ | ⟨hnone, -⟩
    · rw [heval]
    · have hturn : (snr, w) ∈ snrs.map (·, w) := List.mem_map_of_mem hsnr
      exact absurd (.inr (nodeNameOf_ok_iff.mp hresolves)) (hnone _ hturn)
  · intro hunhealthy
    rw [answerOf_named hnode] at hunhealthy
    rcases hloop with ⟨⟨turn, hturn, hmatched⟩, -⟩ | ⟨-, heval⟩
    · obtain ⟨snr, hsnr, rfl⟩ := List.mem_map.mp hturn
      refine ⟨snr, hsnr, ?_⟩
      rw [nodeNameOf_ok_iff]
      exact hmatched.symm
    · rw [heval] at hunhealthy
      cases hunhealthy

end Agreement

/-- A SelfNodeRemediation that the controller of Machines created. -/
def machineOwned : SNR :=
  { smallSNR with name := "snr-1", ownerReferences := [⟨"Machine", "machine-1"⟩] }

/-- Its Machine is the one of the small cluster's node. -/
def machineStore : Cluster :=
  { smallCluster with
    machines := fun ns name =>
      if ns = "snr" ∧ name = "machine-1" then some ⟨some "worker-1"⟩ else none }

/-- One SelfNodeRemediation of a Machine nobody knows, then the one for the node. -/
def lostAndFound : List SNR :=
  [{ machineOwned with ownerReferences := [⟨"Machine", "machine-2"⟩] }, machineOwned]

theorem target_agreed_small :
    answerOf serve machineStore ⟨"worker-1", "machine-3"⟩ lostAndFound = .ok .unhealthy := by
  have hresolves : nodeNameOf serve machineStore machineOwned = .ok "worker-1" := rfl
  have hnames : ∀ snr ∈ lostAndFound, ∀ ref ∈ snr.ownerReferences, ref.name ≠ "" := by decide
  have hstore : Common serve machineStore fun ns name =>
    found machineKind name (machineStore.machines ns name) := fun _ _ => rfl
  have hmem : machineOwned ∈ lostAndFound := List.mem_cons_of_mem _ List.mem_cons_self
  exact (target_agreed hstore hnames (by decide)).2.1 ⟨machineOwned, hmem, hresolves⟩

/-! ## 5. What a Healthy answer says -/

section Vouching

variable {W : Type}

/-- A Healthy answer says of every item that it does not match, exactly if an item
does match or all of them can be decided. An item whose Machine lookup fails, or
whose Machine has no node reference, is passed over. -/
theorem vouches_iff (serve : (c : Call) → W → Resp c × W) (w : W) (request : HealthRequest)
    (snrs : List SNR) :
    (answerOf serve w request snrs = .ok .healthy →
      ∀ turn ∈ turns serve request.nodeName request.machineName w snrs,
        matchingOf serve turn.2 request.nodeName request.machineName turn.1 = .ok false) ↔
    request.nodeName = "" ∨
    (∃ turn ∈ turns serve request.nodeName request.machineName w snrs,
      Matched serve turn.2 request.nodeName request.machineName turn.1) ∨
    ∀ turn ∈ turns serve request.nodeName request.machineName w snrs,
      Decided serve turn.2 request.machineName turn.1 := by
  by_cases hnode : request.nodeName = ""
  · refine ⟨fun _ => .inl hnode, fun _ hhealthy => ?_⟩
    rw [answerOf_unnamed hnode] at hhealthy
    cases hhealthy
  rw [answerOf_named hnode, or_iff_right hnode]
  rcases checkItems_cases serve request.nodeName request.machineName snrs w with
    ⟨hmatched, heval⟩ | ⟨hnone, heval⟩
  · rw [heval]
    exact ⟨fun _ => .inl hmatched, fun _ => nofun⟩
  · rw [heval]
    constructor
    · intro h
      exact .inr fun turn hturn => matchingOf_ok_iff.mp ⟨false, h rfl turn hturn⟩
    · rintro (⟨turn, hturn, hmatched⟩ | hdecided) -
      · exact absurd hmatched (hnone turn hturn)
      · intro turn hturn
        obtain ⟨snrMatches, hmatches⟩ := matchingOf_ok_iff.mpr (hdecided turn hturn)
        rw [hmatches]
        cases snrMatches with
        | false => rfl
        | true => exact absurd (matchingOf_true_iff.mp hmatches) (hnone turn hturn)

end Vouching

/-- The cluster while Machine lookups fail. -/
def serveDegraded : (c : Call) → Cluster → Resp c × Cluster
  | .getMachine _ _, w => (.error (.new "etcdserver: request timed out"), w)
  | c, w => serve c w

/-- The peer vouches for a node that has a SelfNodeRemediation, because it cannot
look up the Machine. -/
theorem vouched_unknown :
    answerOf serveDegraded machineStore ⟨"worker-1", ""⟩ [machineOwned] = .ok .healthy ∧
    nodeNameOf serve machineStore machineOwned = .ok "worker-1" ∧
    ∃ e, matchingOf serveDegraded machineStore "worker-1" "" machineOwned = .error e :=
  ⟨rfl, rfl, _, rfl⟩

end SelfNodeRemediation
