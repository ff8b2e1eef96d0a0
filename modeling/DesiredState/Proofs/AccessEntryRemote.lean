import DesiredState.Proofs.AccessEntryPlans
import DesiredState.Proofs.PlanResumption

/-!
An access entry at the remote. The remote keeps an entry, shows it to every pass, and changes it by the calls
that succeed. A call does to the entry what its step does to the policies. -/
namespace DesiredState.AccessEntry
open KeyedPlan

structure Entry where
  clusterName : String
  principalArn : String
  type : Option String
  kubernetesGroups : List String
  username : Option String
  policies : SortedMap String AccessPolicy
  deriving DecidableEq

def Update.address : Update → String × String
  | .entry clusterName principalArn _ _ => (clusterName, principalArn)
  | .associate clusterName principalArn _ => (clusterName, principalArn)
  | .disassociate clusterName principalArn _ => (clusterName, principalArn)

def Update.isPolicyCall : Update → Bool
  | .entry _ _ _ _ => false
  | _ => true

namespace Entry

def ofSpec (s : Spec) : Entry :=
  ⟨s.clusterName, s.principalArn, s.type, s.kubernetesGroups, s.username,
    index AccessPolicy.policyArn s.accessPolicies⟩

def change (e : Entry) : Update → Entry
  | .entry _ _ groups username => { e with kubernetesGroups := groups, username := username.or e.username }
  | .associate _ _ policy => { e with policies := e.policies.insert policy.policyArn policy }
  | .disassociate _ _ arn => { e with policies := e.policies.erase arn }

def receive (e : Entry) (x : Update × Option RemoteFault) : Entry :=
  if x.2.isNone && x.1.address == (e.clusterName, e.principalArn) then e.change x.1 else e

def Fits (e : Entry) (x : Update × Option RemoteFault) : Prop :=
  x.1.address = (e.clusterName, e.principalArn) ∧
  match x.1 with
  | .entry _ _ _ _ => True
  | .associate _ _ policy => e.policies.contains policy.policyArn = false
  | .disassociate _ _ arn => e.policies.contains arn = true

structure Shows (config : Config) (d : Desired Spec) (e : Entry) (seen : Observed Spec) : Prop where
  clusterName : seen.spec.clusterName = e.clusterName
  principalArn : seen.spec.principalArn = e.principalArn
  type : seen.spec.type = e.type
  groups : seen.spec.kubernetesGroups.Perm e.kubernetesGroups
  username : seen.spec.username = e.username
  distinct : (seen.spec.accessPolicies.map AccessPolicy.policyArn).Nodup
  policies : index AccessPolicy.policyArn seen.spec.accessPolicies = e.policies
  active : StatusRules.isActive ((binding.rules config).classify seen.status) = true
  tags : seen.tags = some (d.spec.tags.getD .empty)

end Entry

def policySuccesses (xs : List (Update × Option RemoteFault)) : List Update :=
  (xs.filter fun x => x.2.isNone && x.1.isPolicyCall).map Prod.fst

def sameScope (want held : AccessPolicy) : Bool := want.accessScope.normalized == held.accessScope.normalized

/- Nothing is left to change: a policy is associated when it is wanted, and in the scope that its first entry means. -/
structure Settled (d : Spec) (e : Entry) : Prop where
  groups : d.kubernetesGroups.Perm e.kubernetesGroups
  username : d.username.getD "" = "" ∨ e.username = d.username
  policies : ∀ arn, (e.policies.get? arn).map (·.accessScope.normalized) =
    (d.accessPolicies.find? (·.policyArn == arn)).map (·.accessScope.normalized)

def remaining (d : Spec) (e : Entry) : List (PlanStep AccessPolicy String) :=
  (between sameScope .removeThenAdd (index AccessPolicy.policyArn d.accessPolicies) e.policies).steps

/- The policy calls that succeed are the next of the remaining steps, and no call collides. -/
def Takes (d : Spec) (e : Entry) (xs : List (Update × Option RemoteFault)) : Prop :=
  Throughout Entry.receive Entry.Fits e xs ∧
    ∃ done, remaining d e = done ++ remaining d (xs.foldl Entry.receive e) ∧
      policySuccesses xs = done.map (policyCall d)

section
variable {d : Spec} {e : Entry}

theorem identityKept (xs : List (Update × Option RemoteFault)) :
    let later := xs.foldl Entry.receive e
    later.clusterName = e.clusterName ∧ later.principalArn = e.principalArn ∧ later.type = e.type := by
  induction xs generalizing e with
  | nil => exact ⟨rfl, rfl, rfl⟩
  | cons x xs ih =>
    have here : (e.receive x).clusterName = e.clusterName ∧ (e.receive x).principalArn = e.principalArn ∧
        (e.receive x).type = e.type := by
      unfold Entry.receive
      split
      · cases x.1 <;> exact ⟨rfl, rfl, rfl⟩
      · exact ⟨rfl, rfl, rfl⟩
    obtain ⟨cluster, principal, type⟩ := ih (e := e.receive x)
    exact ⟨cluster.trans here.1, principal.trans here.2.1, type.trans here.2.2⟩

theorem addressedAfter (same : Addressed d e.clusterName e.principalArn e.type)
    (xs : List (Update × Option RemoteFault)) :
    let later := xs.foldl Entry.receive e
    Addressed d later.clusterName later.principalArn later.type := by
  obtain ⟨cluster, principal, type⟩ := identityKept (e := e) xs
  intro later
  rw [cluster, principal, type]
  exact same

theorem receiveEntry (same : Addressed d e.clusterName e.principalArn e.type) :
    e.receive (entryCall d, none) =
      { e with kubernetesGroups := d.kubernetesGroups, username := d.username.or e.username } := by
  unfold Entry.receive
  simp [entryCall, Update.address, Entry.change, same.cluster, same.principal]

theorem notOverwriting {s : PlanStep AccessPolicy String} (member : s ∈ remaining d e) :
    (∃ arn, s = .remove arn) ∨ ∃ policy, s = .add policy := by
  unfold remaining at member
  rw [stepsReplacing, List.mem_append] at member
  rcases member with removal | addition
  · obtain ⟨arn, _, rfl⟩ := List.mem_map.mp removal
    exact .inl ⟨arn, rfl⟩
  · obtain ⟨x, _, rfl⟩ := List.mem_map.mp addition
    exact .inr ⟨x.2, rfl⟩

def Entry.holding (e : Entry) (policies : SortedMap String AccessPolicy) : Entry := { e with policies := policies }

theorem receivePolicyCall (same : Addressed d e.clusterName e.principalArn e.type)
    {s : PlanStep AccessPolicy String} (member : s ∈ remaining d e) (store : SortedMap String AccessPolicy) :
    (e.holding store).receive (policyCall d s, none) = e.holding (s.apply AccessPolicy.policyArn store) := by
  unfold Entry.receive
  rw [show (e.holding store).clusterName = d.clusterName from same.cluster,
    show (e.holding store).principalArn = d.principalArn from same.principal]
  rcases notOverwriting member with ⟨arn, rfl⟩ | ⟨policy, rfl⟩ <;>
    exact if_pos (by simp [policyCall, Update.address])

theorem fitsPolicyCall (same : Addressed d e.clusterName e.principalArn e.type)
    {s : PlanStep AccessPolicy String} (member : s ∈ remaining d e) {store : SortedMap String AccessPolicy}
    (fits : s.Fits AccessPolicy.policyArn store) (failure : Option RemoteFault) :
    (e.holding store).Fits (policyCall d s, failure) := by
  unfold Entry.Fits
  rw [show (e.holding store).clusterName = d.clusterName from same.cluster,
    show (e.holding store).principalArn = d.principalArn from same.principal]
  rcases notOverwriting member with ⟨arn, rfl⟩ | ⟨policy, rfl⟩ <;> exact ⟨rfl, fits⟩

theorem policySuccessesAppend (xs ys : List (Update × Option RemoteFault)) :
    policySuccesses (xs ++ ys) = policySuccesses xs ++ policySuccesses ys := by
  unfold policySuccesses
  rw [List.filter_append, List.map_append]

theorem allSucceeded {xs : List (Update × Option RemoteFault)} (fine : ∀ x ∈ xs, binding.accepts x = true) :
    xs = (xs.map Prod.fst).map fun u => (u, none) := by
  rw [List.map_map]
  refine (List.map_id xs).symm.trans (List.map_congr_left fun x member => ?_)
  have accepted := fine x member
  obtain ⟨u, failure⟩ := x
  cases failure with
  | none => rfl
  | some f => cases accepted

theorem sentUntilFailure {answers : Answers Spec} {calls : List Update} {updates : List (Update × Option RemoteFault)}
    {result : Except CallFailure Unit} (sending : binding.Sending (answers.answered 0 calls) updates result) :
    ∃ done rest last, calls = done ++ rest ∧ updates = done.map (fun u => (u, none)) ++ last ∧
      (last = [] ∨ ∃ u f, rest.head? = some u ∧ last = [(u, some f)]) := by
  have planned := answers.answeredUpdates 0 calls
  cases sending with
  | whole fine =>
    refine ⟨calls, [], [], (List.append_nil _).symm, ?_, .inl rfl⟩
    rw [List.append_nil]
    exact (allSucceeded fine).trans (congrArg _ planned)
  | @cut before u f rest split fine counts =>
    rw [split, List.map_append, List.map_cons] at planned
    refine ⟨before.map Prod.fst, u :: rest.map Prod.fst, [(u, some f)], planned.symm, ?_, .inr ⟨u, f, rfl, rfl⟩⟩
    rw [← allSucceeded fine]

theorem noneRemaining : remaining d e = [] ↔ ∀ arn, (e.policies.get? arn).map (·.accessScope.normalized) =
    (d.accessPolicies.find? (·.policyArn == arn)).map (·.accessScope.normalized) := by
  have wanted (arn : String) : (index AccessPolicy.policyArn d.accessPolicies).get? arn =
      d.accessPolicies.find? (·.policyArn == arn) := by
    rw [indexGet]
    congr 1
    funext p
    rw [Bool.eq_iff_iff, SortedMap.sameKeyIff, beq_iff_eq, eq_comm]
  have told (want held : AccessPolicy) :
      sameScope want held = true ↔ want.accessScope.normalized = held.accessScope.normalized := beq_iff_eq
  unfold remaining
  rw [idleIff (fun p : AccessPolicy => p.accessScope.normalized) told]
  exact forall_congr' fun arn => by rw [wanted, eq_comm]

theorem takesNothing : Takes d e [] := ⟨throughoutNil, [], rfl, rfl⟩

theorem takesAppend {xs ys : List (Update × Option RemoteFault)} (first : Takes d e xs)
    (second : Takes d (xs.foldl Entry.receive e) ys) : Takes d e (xs ++ ys) := by
  obtain ⟨fits, done, steps, policies⟩ := first
  obtain ⟨laterFits, laterDone, laterSteps, laterPolicies⟩ := second
  refine ⟨throughoutAppend.mpr ⟨fits, laterFits⟩, done ++ laterDone, ?_, ?_⟩
  · rw [List.foldl_append, List.append_assoc, ← laterSteps]
    exact steps
  · rw [policySuccessesAppend, policies, laterPolicies, List.map_append]

theorem remainingOfPolicies {e' : Entry} (kept : e'.policies = e.policies) : remaining d e' = remaining d e := by
  unfold remaining
  rw [kept]

theorem remainingAfter (stored : Keyed AccessPolicy.policyArn e.policies)
    {done rest : List (PlanStep AccessPolicy String)} (split : remaining d e = done ++ rest) :
    remaining d (e.holding (PlanStep.run AccessPolicy.policyArn e.policies done)) = rest := by
  have reflexive (p : AccessPolicy) : sameScope p p = true := beq_self_eq_true p.accessScope.normalized
  exact (stepsAfterRun reflexive (indexKeyed AccessPolicy.policyArn d.accessPolicies) stored split).2

theorem policiesSent (same : Addressed d e.clusterName e.principalArn e.type)
    {done rest : List (PlanStep AccessPolicy String)} (split : remaining d e = done ++ rest)
    {last : List (Update × Option RemoteFault)}
    (ending : last = [] ∨ ∃ u f, (rest.map (policyCall d)).head? = some u ∧ last = [(u, some f)]) :
    let xs := (done.map fun s => (policyCall d s, none)) ++ last
    let later := xs.foldl Entry.receive e
    Throughout Entry.receive Entry.Fits e xs ∧
      later = e.holding (PlanStep.run AccessPolicy.policyArn e.policies done) ∧
      policySuccesses xs = done.map (policyCall d) := by
  intro xs later
  have member (s : PlanStep AccessPolicy String) (inside : s ∈ done) : s ∈ remaining d e :=
    split ▸ List.mem_append_left rest inside
  have fits : Throughout (PlanStep.apply AccessPolicy.policyArn) (PlanStep.Fits AccessPolicy.policyArn) e.policies
      (done ++ rest) := split ▸ stepsFit _ _ e.policies (indexKeyed AccessPolicy.policyArn d.accessPolicies)
  obtain ⟨first, second⟩ := throughoutAppend.mp fits
  obtain ⟨called, reached⟩ := throughoutMap e.holding (fun s => (policyCall d s, none))
    (fun store s inside => receivePolicyCall same (member s inside) store)
    (fun store s inside fits => fitsPolicyCall same (member s inside) fits none) first
  have succeeded : policySuccesses (done.map fun s => (policyCall d s, none)) = done.map (policyCall d) := by
    unfold policySuccesses
    rw [List.filter_eq_self.mpr, List.map_map]
    · rfl
    · intro x inside
      obtain ⟨s, _, rfl⟩ := List.mem_map.mp inside
      cases s <;> rfl
  have stopped : xs.foldl Entry.receive e =
      last.foldl Entry.receive (e.holding (PlanStep.run AccessPolicy.policyArn e.policies done)) := by
    rw [List.foldl_append]
    exact congrArg (fun start => last.foldl Entry.receive start) reached
  rw [show later = _ from stopped, throughoutAppend, policySuccessesAppend, succeeded]
  -- A failed last call is judged like the others and leaves the entry as it is.
  rcases ending with rfl | ⟨u, f, head, rfl⟩
  · exact ⟨⟨called, throughoutNil⟩, rfl, List.append_nil _⟩
  · rw [List.head?_map] at head
    obtain ⟨s, first, rfl⟩ := Option.map_eq_some_iff.mp head
    obtain ⟨more, rfl⟩ := List.head?_eq_some_iff.mp first
    refine ⟨⟨called, throughoutCons.mpr ⟨?_, throughoutNil⟩⟩, rfl, List.append_nil _⟩
    have pending : s ∈ remaining d e := split ▸ List.mem_append_right done List.mem_cons_self
    have here := fitsPolicyCall same pending (throughoutCons.mp second).1 (some f)
    exact (show _ = e.holding _ from reached) ▸ here

end

end DesiredState.AccessEntry
