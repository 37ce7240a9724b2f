import Mathlib.Data.List.Induction
import SelfNodeRemediation.EndpointPolicy

/-!
# The endpoint's addresses, looked up again and again

The addresses of `EndpointHealthCheckUrl` are looked up before every ping of an agent
and in every reconcile of the manager. An agent compares the CIDRs of its lookup with
those it reads back from the egress rules; the manager falls back to its last success.

* `endpoint_update_settles`: an agent's update leaves the other rules alone, depends on
  the set of looked up addresses only, and is not repeated.
* `resolver_remembers`: the manager's resolver remembers exactly its last success.
-/

namespace SelfNodeRemediation.ConfigReconciler

open Interaction Versioned

/-! ## 1. Sorted CIDRs -/

theorem sortStrings_perm (ss : List String) : (sortStrings ss).Perm ss :=
  List.mergeSort_perm ss _

theorem sortStrings_sorted (ss : List String) : (sortStrings ss).Pairwise (· ≤ ·) := by
  have h := @List.pairwise_mergeSort String (fun a b => decide (a ≤ b))
    (fun a b c hab hbc =>
      decide_eq_true (String.le_trans (of_decide_eq_true hab) (of_decide_eq_true hbc)))
    (fun a b => by simpa using String.le_total a b) ss
  exact h.imp of_decide_eq_true

/-- Sorting forgets the order. -/
theorem sortStrings_eq_of_perm {ss ss' : List String} (h : ss.Perm ss') :
    sortStrings ss = sortStrings ss' :=
  List.Perm.eq_of_pairwise (fun _ _ _ _ => String.le_antisymm) (sortStrings_sorted ss)
    (sortStrings_sorted ss')
    ((sortStrings_perm ss).trans (h.trans (sortStrings_perm ss').symm))

theorem sortStrings_idem (ss : List String) : sortStrings (sortStrings ss) = sortStrings ss :=
  sortStrings_eq_of_perm (sortStrings_perm ss)

theorem ipsToSortedCIDRs_eq_of_perm {ips ips' : List IP} (h : ips.Perm ips') :
    ipsToSortedCIDRs ips = ipsToSortedCIDRs ips' :=
  sortStrings_eq_of_perm (h.map IP.toCIDR)

/-- What a lookup gives is sorted already. -/
theorem sortStrings_ipsToSortedCIDRs (ips : List IP) :
    sortStrings (ipsToSortedCIDRs ips) = ipsToSortedCIDRs ips :=
  sortStrings_idem (ips.map IP.toCIDR)

/-! ## 2. Replacing the endpoint rules -/

theorem isEndpointCIDRRule_eq (rule : PolicyRule) :
    isEndpointCIDRRule rule = (endpointCIDR rule).isSome := by
  match rule with
  | ⟨[], [peer]⟩ => exact Option.isSome_map.symm
  | ⟨[], []⟩ | ⟨[], _ :: _ :: _⟩ | ⟨_ :: _, _⟩ => rfl

theorem filterMap_endpointCIDR_kept (egress : List PolicyRule) :
    (egress.filter fun rule => !isEndpointCIDRRule rule).filterMap endpointCIDR = [] := by
  rw [List.filterMap_eq_nil_iff]
  intro rule hrule
  have hnot := (List.mem_filter.mp hrule).2
  rw [isEndpointCIDRRule_eq] at hnot
  simpa using hnot

theorem filterMap_endpointCIDR_endpointRule (cidrs : List String) :
    (cidrs.map endpointRule).filterMap endpointCIDR = cidrs := by
  rw [List.filterMap_map]
  exact List.filterMap_some

/-- The rules that are not endpoint rules stay as they are, in their order. -/
theorem kept_replaceEndpointCIDRRules (egress : List PolicyRule) (cidrs : List String) :
    (replaceEndpointCIDRRules egress cidrs).filter (fun rule => !isEndpointCIDRRule rule) =
      egress.filter fun rule => !isEndpointCIDRRule rule := by
  have hnew : (cidrs.map endpointRule).filter (fun rule => !isEndpointCIDRRule rule) = [] := by
    rw [List.filter_eq_nil_iff]
    intro rule hrule
    obtain ⟨cidr, -, rfl⟩ := List.mem_map.mp hrule
    exact Bool.false_ne_true
  rw [replaceEndpointCIDRRules, List.filter_append, hnew, List.append_nil, List.filter_filter]
  simp only [Bool.and_self]

/-- The CIDRs read back are those written, in sorted order. -/
theorem endpointCIDRsFromEgress_replaceEndpointCIDRRules (egress : List PolicyRule)
    (cidrs : List String) :
    endpointCIDRsFromEgress (replaceEndpointCIDRRules egress cidrs) = sortStrings cidrs := by
  rw [endpointCIDRsFromEgress, replaceEndpointCIDRRules, List.filterMap_append,
    filterMap_endpointCIDR_kept, filterMap_endpointCIDR_endpointRule, List.nil_append]

theorem replaceEndpointCIDRRules_idem (egress : List PolicyRule) (cidrs cidrs' : List String) :
    replaceEndpointCIDRRules (replaceEndpointCIDRRules egress cidrs) cidrs' =
      replaceEndpointCIDRRules egress cidrs' := by
  have h := kept_replaceEndpointCIDRRules egress cidrs
  rw [replaceEndpointCIDRRules, h, ← replaceEndpointCIDRRules]

theorem sameCIDRs_iff (a b : List String) : sameCIDRs a b = true ↔ a = b := by
  unfold sameCIDRs
  exact beq_iff_eq

/-! ## 3. An agent's rechecks -/

/-- The stored policy, and the updates sent so far. -/
structure PolicyServer where
  policy : Revision NetworkPolicy
  updates : List NetworkPolicy
deriving DecidableEq, Repr

def PolicyServer.update (s : PolicyServer) (np : Revision NetworkPolicy) : PolicyServer :=
  ⟨⟨np.resourceVersion + 1, np.value⟩, s.updates ++ [np.value]⟩

/-- Every lookup gives `ips`, and the policy is read and written without failure. What
an agent does not call is answered by `other`. -/
def servePolicy (other : (c : Call) → Resp c) (ips : List IP) :
    (c : Call) → PolicyServer → Resp c × PolicyServer
  | .lookupIP _, s => (.ok ips, s)
  | .getNetworkPolicy, s => (.ok s.policy, s)
  | .updateNetworkPolicy np, s => (none, s.update np)
  | c, s => (other c, s)

/-- The agent's check before a ping, with `ips` looked up. -/
def recheck (namespace_ url : String) (other : (c : Call) → Resp c) (ips : List IP)
    (s : PolicyServer) : Bool × PolicyServer :=
  (ensureEndpointNetworkPolicyUpToDate namespace_ url).eval (servePolicy other ips) s

section

variable {namespace_ url : String} {other : (c : Call) → Resp c} {ips : List IP}

theorem eval_resolveURLToSortedCIDRs (hurl : url = "" → ips = []) (s : PolicyServer) :
    (resolveURLToSortedCIDRs url).eval (servePolicy other ips) s =
      (.ok (ipsToSortedCIDRs ips), s) := by
  unfold resolveURLToSortedCIDRs
  by_cases hempty : url = ""
  · rw [if_pos hempty, hurl hempty, ipsToSortedCIDRs, sortStrings, List.map_nil, List.mergeSort_nil]
    rfl
  · rw [if_neg hempty]
    rfl

/-- A recheck updates the policy unless its CIDRs are those looked up. -/
theorem recheck_eq (hns : namespace_ ≠ "") (hurl : url = "" → ips = []) (s : PolicyServer) :
    recheck namespace_ url other ips s =
      if endpointCIDRsFromEgress s.policy.value.egress = ipsToSortedCIDRs ips then (false, s)
      else (true, s.update ⟨s.policy.resourceVersion,
        { s.policy.value with
          egress := replaceEndpointCIDRRules s.policy.value.egress (ipsToSortedCIDRs ips) }⟩) := by
  unfold recheck ensureEndpointNetworkPolicyUpToDate
  rw [if_neg hns, Prog.eval_bind, eval_resolveURLToSortedCIDRs hurl]
  show (patchEndpointCIDRs (ipsToSortedCIDRs ips) (.ok s.policy)).eval (servePolicy other ips) s = _
  unfold patchEndpointCIDRs
  simp only [sameCIDRs_iff]
  split
  · rfl
  · rfl

theorem recheck_noNamespace (s : PolicyServer) : recheck "" url other ips s = (false, s) := rfl

/-- With the looked up CIDRs in the policy nothing is written. -/
theorem recheck_quiet (hurl : url = "" → ips = []) {s : PolicyServer}
    (hs : endpointCIDRsFromEgress s.policy.value.egress = ipsToSortedCIDRs ips) :
    recheck namespace_ url other ips s = (false, s) := by
  by_cases hns : namespace_ = ""
  · rw [hns, recheck_noNamespace]
  · rw [recheck_eq hns hurl, if_pos hs]

/-- After a recheck that looks anything up the policy has the looked up CIDRs. -/
theorem endpointCIDRs_recheck (hns : namespace_ ≠ "") (hurl : url = "" → ips = [])
    (s : PolicyServer) :
    endpointCIDRsFromEgress (recheck namespace_ url other ips s).2.policy.value.egress =
      ipsToSortedCIDRs ips := by
  rw [recheck_eq hns hurl]
  split
  · assumption
  · exact (endpointCIDRsFromEgress_replaceEndpointCIDRRules _ _).trans
      (sortStrings_ipsToSortedCIDRs ips)

end

/-- The update of the endpoint rules for the addresses `ips`, and for any reordering
`ips'` of them. The other rules stay in their order, exactly the looked up CIDRs are
read back, the order of the lookup is forgotten, and to replace the rules once more
changes nothing. A recheck of any policy with other CIDRs returns true, sends one update
and leaves the policy with the replaced rules; after it, as on any policy that has the
replaced rules, a recheck with the addresses in another order sends no update. -/
theorem endpoint_update_settles (egress : List PolicyRule) {ips ips' : List IP}
    (hperm : ips'.Perm ips) (namespace_ : String) {url : String} (hurl : url = "" → ips = [])
    (other : (c : Call) → Resp c) :
    (replaceEndpointCIDRRules egress (ipsToSortedCIDRs ips)).filter
        (fun rule => !isEndpointCIDRRule rule) =
      egress.filter (fun rule => !isEndpointCIDRRule rule) ∧
    endpointCIDRsFromEgress (replaceEndpointCIDRRules egress (ipsToSortedCIDRs ips)) =
      ipsToSortedCIDRs ips ∧
    replaceEndpointCIDRRules egress (ipsToSortedCIDRs ips') =
      replaceEndpointCIDRRules egress (ipsToSortedCIDRs ips) ∧
    replaceEndpointCIDRRules (replaceEndpointCIDRRules egress (ipsToSortedCIDRs ips))
        (ipsToSortedCIDRs ips) =
      replaceEndpointCIDRRules egress (ipsToSortedCIDRs ips) ∧
    sameCIDRs (endpointCIDRsFromEgress (replaceEndpointCIDRRules egress (ipsToSortedCIDRs ips)))
      (ipsToSortedCIDRs ips') = true ∧
    (∀ s : PolicyServer,
      s.policy.value.egress = replaceEndpointCIDRRules egress (ipsToSortedCIDRs ips) →
      recheck namespace_ url other ips' s = (false, s)) ∧
    (namespace_ ≠ "" → ∀ s : PolicyServer, s.policy.value.egress = egress →
      endpointCIDRsFromEgress egress ≠ ipsToSortedCIDRs ips →
      (recheck namespace_ url other ips s).1 = true ∧
      (recheck namespace_ url other ips s).2.policy.value = { s.policy.value with
        egress := replaceEndpointCIDRRules egress (ipsToSortedCIDRs ips) } ∧
      (recheck namespace_ url other ips s).2.updates = s.updates ++ [{ s.policy.value with
        egress := replaceEndpointCIDRRules egress (ipsToSortedCIDRs ips) }]) ∧
    (namespace_ ≠ "" → ∀ s : PolicyServer,
      endpointCIDRsFromEgress (recheck namespace_ url other ips s).2.policy.value.egress =
        ipsToSortedCIDRs ips) ∧
    ∀ s : PolicyServer,
      recheck namespace_ url other ips' (recheck namespace_ url other ips s).2 =
        (false, (recheck namespace_ url other ips s).2) := by
  have hsame : ipsToSortedCIDRs ips' = ipsToSortedCIDRs ips := ipsToSortedCIDRs_eq_of_perm hperm
  have hurl' : url = "" → ips' = [] := fun h => (hurl h ▸ hperm).eq_nil
  have hback : endpointCIDRsFromEgress (replaceEndpointCIDRRules egress (ipsToSortedCIDRs ips)) =
      ipsToSortedCIDRs ips :=
    (endpointCIDRsFromEgress_replaceEndpointCIDRRules _ _).trans (sortStrings_ipsToSortedCIDRs ips)
  refine ⟨kept_replaceEndpointCIDRRules egress _, hback, by rw [hsame],
    replaceEndpointCIDRRules_idem egress _ _, ?_, ?_, ?_,
    fun hns s => endpointCIDRs_recheck hns hurl s, ?_⟩
  · rw [sameCIDRs_iff, hback, hsame]
  · intro s hs
    exact recheck_quiet hurl' (by rw [hs, hback, hsame])
  · rintro hns s rfl hother
    rw [recheck_eq hns hurl, if_neg hother]
    exact ⟨rfl, rfl, rfl⟩
  · intro s
    -- without a deployment namespace neither recheck looks at the policy
    by_cases hns : namespace_ = ""
    · subst hns
      rw [recheck_noNamespace, recheck_noNamespace]
    · exact recheck_quiet hurl' ((endpointCIDRs_recheck hns hurl s).trans hsame.symm)

/-- Nothing but the policy and the lookup is served. -/
def notServed : (c : Call) → Resp c
  | .setCalculatorConfig _ => ()
  | .cachedResolve _ _ => []
  | .getConfig | .lookupIP _ | .getNetworkPolicy | .listSNRs => .error (.new "not served")
  | .syncCerts | .syncDaemonSet _ | .createNetworkPolicy _ | .updateNetworkPolicy _
  | .updateSNRStatus _ => some (.new "not served")

/-- The policy has an old address of the endpoint. -/
def outdatedPolicy : PolicyServer :=
  ⟨⟨7, networkPolicy ⟨none, "endpoint.example.com", 30001⟩ ["192.0.2.1/32"]⟩, []⟩

/-- Two addresses are looked up instead of the old one, the second time in the other
order: the first recheck writes them, the second one finds them. -/
theorem endpoint_update_settles_swapped :
    [IP.v6 "::1", .v4 "10.0.0.9"].Perm [.v4 "10.0.0.9", .v6 "::1"] ∧
      ("endpoint.example.com" = "" → [IP.v4 "10.0.0.9", .v6 "::1"] = []) ∧
      (recheck "ns" "endpoint.example.com" notServed [.v4 "10.0.0.9", .v6 "::1"]
        outdatedPolicy).1 = true ∧
      recheck "ns" "endpoint.example.com" notServed [.v6 "::1", .v4 "10.0.0.9"]
          (recheck "ns" "endpoint.example.com" notServed [.v4 "10.0.0.9", .v6 "::1"]
            outdatedPolicy).2 =
        (false, (recheck "ns" "endpoint.example.com" notServed [.v4 "10.0.0.9", .v6 "::1"]
          outdatedPolicy).2) := by
  have hurl : "endpoint.example.com" = "" → [IP.v4 "10.0.0.9", .v6 "::1"] = [] := by decide
  have hsettles := endpoint_update_settles outdatedPolicy.policy.value.egress
    (List.Perm.swap (.v4 "10.0.0.9") (.v6 "::1") []) "ns" hurl notServed
  obtain ⟨-, -, -, -, -, -, hupdates, -, hquiet⟩ := hsettles
  have hother : endpointCIDRsFromEgress outdatedPolicy.policy.value.egress ≠
      ipsToSortedCIDRs [.v4 "10.0.0.9", .v6 "::1"] := by
    intro h
    have hlength := congrArg List.length h
    rw [endpointCIDRsFromEgress, ipsToSortedCIDRs, (sortStrings_perm _).length_eq,
      (sortStrings_perm _).length_eq] at hlength
    exact absurd hlength (by decide)
  exact ⟨.swap _ _ _, hurl, (hupdates (by decide) outdatedPolicy rfl hother).1,
    hquiet outdatedPolicy⟩

/-! ## 4. The manager's resolver -/

/-- What a resolver returns. -/
structure Resolution where
  cidrs : List String
  err : Option GoErr
deriving DecidableEq, Repr

/-- The CIDRs, or the error: CIDRs that come with an error are not looked at. -/
def Resolution.result (r : Resolution) : Except GoErr (List String) :=
  match r.err with
  | none => .ok r.cidrs
  | some err => .error err

/-- A call of `Resolve`, and what the resolver returns for its URL. -/
structure ResolveCall where
  url : String
  resolution : Resolution
deriving DecidableEq, Repr

/-- `Resolve`: the CIDRs to use together with the resolver's error. -/
def CachedCIDRResolver.answer (c : CachedCIDRResolver) (call : ResolveCall) :
    Resolution × CachedCIDRResolver :=
  let (cidrs, c') := c.resolve call.url call.resolution.result
  (⟨cidrs, call.resolution.err⟩, c')

/-- One resolver over a sequence of calls. -/
def CachedCIDRResolver.answers : CachedCIDRResolver → List ResolveCall → List Resolution
  | _, [] => []
  | c, call :: calls => (c.answer call).1 :: (c.answer call).2.answers calls

def CachedCIDRResolver.afterCalls (c : CachedCIDRResolver) (calls : List ResolveCall) :
    CachedCIDRResolver :=
  calls.foldl (fun c call => (c.answer call).2) c

def ResolveCall.succeeds (call : ResolveCall) : Bool := call.resolution.err.isNone

/-- The CIDRs of the most recent successful call, if that was for `url`. -/
def lastSuccess (history : List ResolveCall) (url : String) : List String :=
  match (history.filter ResolveCall.succeeds).getLast? with
  | some call => if call.url = url then call.resolution.cidrs else []
  | none => []

/-- What a resolver falls back to. -/
def CachedCIDRResolver.fallback (c : CachedCIDRResolver) (url : String) : List String :=
  if c.lastURL = url then c.lastCIDRs else []

section

variable {c : CachedCIDRResolver} {call : ResolveCall}

theorem CachedCIDRResolver.answer_of_success (h : call.resolution.err = none) :
    c.answer call = (⟨call.resolution.cidrs, none⟩, ⟨call.url, call.resolution.cidrs⟩) := by
  unfold answer resolve Resolution.result applyEndpointCIDRFallback
  rw [h]

theorem CachedCIDRResolver.answer_of_failure {err : GoErr} (h : call.resolution.err = some err) :
    c.answer call = (⟨c.fallback call.url, some err⟩, c) := by
  unfold answer resolve Resolution.result applyEndpointCIDRFallback fallback
  rw [h]
  by_cases hurl : c.lastURL = call.url
  · simp only [if_pos hurl]
  · simp only [if_neg hurl]

theorem lastSuccess_concat_of_success (history : List ResolveCall)
    (h : call.resolution.err = none) (url : String) :
    lastSuccess (history ++ [call]) url =
      if call.url = url then call.resolution.cidrs else [] := by
  have hs : call.succeeds = true := by rw [ResolveCall.succeeds, h]; rfl
  unfold lastSuccess
  rw [List.filter_append, List.filter_singleton, hs, cond_true, List.getLast?_concat]

theorem lastSuccess_concat_of_failure (history : List ResolveCall) {err : GoErr}
    (h : call.resolution.err = some err) (url : String) :
    lastSuccess (history ++ [call]) url = lastSuccess history url := by
  have hs : call.succeeds = false := by rw [ResolveCall.succeeds, h]; rfl
  unfold lastSuccess
  rw [List.filter_append, List.filter_singleton, hs, cond_false, List.append_nil]

/-- After any calls a resolver falls back to the last success among them. -/
theorem fallback_afterCalls (history : List ResolveCall) (url : String) :
    (newResolver.afterCalls history).fallback url = lastSuccess history url := by
  -- the invariant of the cache, call by call
  induction history using List.reverseRecOn with
  | nil =>
    show (if "" = url then [] else []) = ([] : List String)
    exact ite_self _
  | append_singleton history call ih =>
    rw [CachedCIDRResolver.afterCalls, List.foldl_concat, ← CachedCIDRResolver.afterCalls]
    cases h : call.resolution.err with
    | none =>
      rw [CachedCIDRResolver.answer_of_success h, lastSuccess_concat_of_success history h]
      rfl
    | some err =>
      rw [CachedCIDRResolver.answer_of_failure h, lastSuccess_concat_of_failure history h, ← ih]

theorem CachedCIDRResolver.length_answers (c : CachedCIDRResolver) (calls : List ResolveCall) :
    (c.answers calls).length = calls.length := by
  induction calls generalizing c with
  | nil => rfl
  | cons call calls ih => exact congrArg (· + 1) (ih _)

theorem CachedCIDRResolver.answers_append (c : CachedCIDRResolver)
    (calls later : List ResolveCall) :
    c.answers (calls ++ later) = c.answers calls ++ (c.afterCalls calls).answers later := by
  induction calls generalizing c with
  | nil => rfl
  | cons call calls ih => exact congrArg ((c.answer call).1 :: ·) (ih _)

end

/-- One resolver, over any calls before and after the one at hand. A success is
returned as it is. A failure is returned with the CIDRs of the most recent success
before it, if that was for the same URL, and the answers to all other calls are the
same as without it. -/
theorem resolver_remembers (before after : List ResolveCall) (call : ResolveCall) :
    (call.resolution.err = none →
      (newResolver.answers (before ++ call :: after))[before.length]? =
        some ⟨call.resolution.cidrs, none⟩) ∧
    ∀ err, call.resolution.err = some err →
      (newResolver.answers (before ++ call :: after))[before.length]? =
          some ⟨lastSuccess before call.url, some err⟩ ∧
        (newResolver.answers (before ++ call :: after)).eraseIdx before.length =
          newResolver.answers (before ++ after) := by
  have hlength := CachedCIDRResolver.length_answers newResolver before
  have hall (calls : List ResolveCall) := CachedCIDRResolver.answers_append newResolver before calls
  have hat : (newResolver.answers (before ++ call :: after))[before.length]? =
      some ((newResolver.afterCalls before).answer call).1 := by
    rw [hall, ← hlength, List.getElem?_append_right (Nat.le_refl _), Nat.sub_self]
    rfl
  refine ⟨fun h => ?_, fun err h => ⟨?_, ?_⟩⟩
  · rw [hat, CachedCIDRResolver.answer_of_success h]
  · rw [hat, CachedCIDRResolver.answer_of_failure h, fallback_afterCalls]
  · rw [hall, hall, ← hlength, List.eraseIdx_append_of_length_le (Nat.le_refl _), Nat.sub_self]
    show _ ++ ((newResolver.afterCalls before).answer call).2.answers after = _
    rw [CachedCIDRResolver.answer_of_failure h]

/-- Two successes for different URLs, then a failure for the first URL, then one for the
second. -/
theorem resolver_remembers_switched :
    (newResolver.answers
        ([⟨"a", ⟨["192.0.2.1/32"], none⟩⟩, ⟨"b", ⟨["192.0.2.2/32"], none⟩⟩,
          ⟨"a", ⟨[], some (.new "no such host")⟩⟩] ++
          [⟨"b", ⟨[], some (.new "no such host")⟩⟩]))[3]? =
      some ⟨["192.0.2.2/32"], some (.new "no such host")⟩ :=
  ((resolver_remembers
    [⟨"a", ⟨["192.0.2.1/32"], none⟩⟩, ⟨"b", ⟨["192.0.2.2/32"], none⟩⟩,
      ⟨"a", ⟨[], some (.new "no such host")⟩⟩] []
    ⟨"b", ⟨[], some (.new "no such host")⟩⟩).2 _ rfl).1

end SelfNodeRemediation.ConfigReconciler
