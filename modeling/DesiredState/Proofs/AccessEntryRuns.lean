import DesiredState.Proofs.AccessEntryRemote

/-!
Runs of passes over one access entry, of which any call may fail. The policy calls of a whole run are those
of the first plan, and once nothing fails two more updates are enough. -/
namespace DesiredState.AccessEntry
open KeyedPlan

def pass (config : Config) (d : Desired Spec) (answers : Answers Spec) :
    Pass Spec Update Fault (Remediation Spec) := binding.reconcile config answers d

def log (config : Config) (d : Desired Spec) (rounds : List (Answers Spec)) : List (Update × Option RemoteFault) :=
  rounds.flatMap fun answers => (pass config d answers).updates

def Entry.afterPass (config : Config) (d : Desired Spec) (e : Entry) (answers : Answers Spec) : Entry :=
  (pass config d answers).updates.foldl Entry.receive e

def Entry.Faithful (config : Config) (d : Desired Spec) (e : Entry) (answers : Answers Spec) : Prop :=
  ∀ found, answers.describe = .ok found → ∃ seen, found = some seen ∧ e.Shows config d seen

def due (d : Spec) (e : Entry) : List String :=
  (if upToDate d e.kubernetesGroups e.username then [] else ["entry"]) ++
    if (remaining d e).isEmpty then [] else ["access-policies"]

section
variable {d : Spec} {e : Entry}

theorem dueNothing : due d e = [] ↔ upToDate d e.kubernetesGroups e.username = true ∧ remaining d e = [] := by
  unfold due
  cases upToDate d e.kubernetesGroups e.username <;> simp

theorem settledIff : due d e = [] ↔ Settled d e := by
  rw [dueNothing, noneRemaining]
  unfold upToDate
  rw [Bool.and_eq_true, Bool.or_eq_true, List.isPerm_iff, beq_iff_eq, beq_iff_eq]
  constructor
  · rintro ⟨⟨groups, username⟩, policies⟩
    exact ⟨groups, username, policies⟩
  · rintro ⟨groups, username, policies⟩
    exact ⟨⟨groups, username⟩, policies⟩

theorem dueEntry (same : Addressed d e.clusterName e.principalArn e.type)
    (stale : upToDate d e.kubernetesGroups e.username = false) :
    (due d e).head? = some "entry" ∧ due d (e.receive (entryCall d, none)) = (due d e).tail := by
  have fresh : upToDate d d.kubernetesGroups (d.username.or e.username) = true := by
    have matched : d.kubernetesGroups.isPerm d.kubernetesGroups = true := List.isPerm_iff.mpr (.refl _)
    unfold upToDate
    rw [matched]
    cases d.username <;> simp
  rw [receiveEntry same]
  unfold due
  dsimp only
  rw [stale, fresh]
  exact ⟨rfl, rfl⟩

theorem duePolicies (same : Addressed d e.clusterName e.principalArn e.type)
    (stored : Keyed AccessPolicy.policyArn e.policies) (fresh : upToDate d e.kubernetesGroups e.username = true)
    (more : remaining d e ≠ []) :
    (due d e).head? = some "access-policies" ∧
      due d (((remaining d e).map fun s => (policyCall d s, none)).foldl Entry.receive e) = (due d e).tail := by
  have whole : remaining d e = remaining d e ++ [] := (List.append_nil _).symm
  obtain ⟨_, reached, _⟩ := policiesSent same whole (.inl rfl)
  rw [List.append_nil] at reached
  have one : due d e = ["access-policies"] := by
    unfold due
    rw [fresh, if_neg (mt List.isEmpty_iff.mp more)]
    rfl
  rw [one, reached]
  exact ⟨rfl, dueNothing.mpr ⟨fresh, remainingAfter stored whole⟩⟩

end

def read (d : Desired Spec) : Attempt Spec Update := ⟨.describe (binding.resourceId d.spec), none⟩

def Sends (answers : Answers Spec) (p : Pass Spec Update Fault (Remediation Spec)) (category : String)
    (calls : List Update) : Prop :=
  (∃ result, binding.Sending (answers.answered 0 calls) p.updates result) ∧
    ∀ c, p.verdict? = some (.applied c) ↔
      c = category ∧ p.updates = answers.answered 0 calls ∧ ∀ x ∈ p.updates, binding.accepts x = true

inductive Treats (d : Desired Spec) (e : Entry) (answers : Answers Spec)
    (p : Pass Spec Update Fault (Remediation Spec)) : Prop where
  | groups (stale : upToDate d.spec e.kubernetesGroups e.username = false)
      (sends : Sends answers p "entry" [entryCall d.spec])
  | policies (fresh : upToDate d.spec e.kubernetesGroups e.username = true) (more : remaining d.spec e ≠ [])
      (sends : Sends answers p "access-policies" ((remaining d.spec e).map (policyCall d.spec)))
  | nothing (fresh : upToDate d.spec e.kubernetesGroups e.username = true) (settled : remaining d.spec e = [])
      (converged : p.verdict? = some .converged) (silent : p.attempts = [read d])

section
variable {config : Config} {d : Desired Spec} {e : Entry} {answers : Answers Spec}
  (same : Addressed d.spec e.clusterName e.principalArn e.type)
include same

theorem choiceShown {seen : Observed Spec} (shows : e.Shows config d seen) :
    binding.choice (binding.input d seen.spec) =
      if upToDate d.spec e.kubernetesGroups e.username then sendPolicies d.spec (remaining d.spec e)
      else .send "entry" [entryCall d.spec] := by
  have groups : upToDate d.spec seen.spec.kubernetesGroups seen.spec.username =
      upToDate d.spec e.kubernetesGroups e.username := by
    unfold upToDate
    rw [shows.username, Bool.eq_iff_iff, Bool.and_eq_true, Bool.and_eq_true, List.isPerm_iff, List.isPerm_iff]
    exact and_congr_left fun _ => ⟨fun perm => perm.trans shows.groups, fun perm => perm.trans shows.groups.symm⟩
  have steps : (policyPlan d.spec.accessPolicies seen.spec.accessPolicies).steps = remaining d.spec e := by
    unfold policyPlan remaining
    rw [reconcileBetween, shows.policies]
    rfl
  rw [choiceAt (by rw [shows.clusterName, shows.principalArn, shows.type]; exact same) shows.distinct, groups, steps]

theorem passShown {seen : Observed Spec} (found : answers.describe = .ok (some seen)) (shows : e.Shows config d seen) :
    Treats d e answers (pass config d answers) := by
  obtain ⟨attempts, result⟩ := binding.reconcileFound config answers d found
  obtain ⟨here, _⟩ := binding.activeHere config seen shows.active
  have tagged : (binding.syncTags answers d seen).result = .ok none := by
    rw [binding.syncSettledTags answers d seen shows.tags]
    rfl
  have updates : (pass config d answers).updates = (binding.remediate config answers d seen).updates := by
    unfold Pass.updates pass
    rw [attempts]
    rfl
  have verdict : (pass config d answers).verdict? = (binding.remediate config answers d seen).verdict? := by
    unfold Pass.verdict? pass
    rw [result]
  have outcome := binding.passOfChoice config answers d seen here tagged
  have sends {category : String} {calls : List Update}
      (chosen : binding.choice (binding.input d seen.spec) = .send category calls) :
      Sends answers (pass config d answers) category calls := by
    rw [chosen] at outcome
    unfold Sends
    rw [updates, verdict]
    exact outcome
  -- Groups and name go first; the policies are looked at only when these are up to date.
  have chosen := choiceShown same shows
  cases fresh : upToDate d.spec e.kubernetesGroups e.username with
  | false =>
    rw [fresh] at chosen
    exact .groups fresh (sends chosen)
  | true =>
    rw [fresh, if_pos rfl] at chosen
    unfold sendPolicies at chosen
    split at chosen
    · rename_i settled
      rw [chosen] at outcome
      have silent := binding.silentPass config answers d seen here shows.tags chosen
      exact .nothing fresh (List.isEmpty_iff.mp settled) (verdict.trans outcome.1) (attempts.trans (congrArg _ silent))
    · rename_i more
      exact .policies fresh (mt List.isEmpty_iff.mpr more) (sends chosen)

theorem takesEntry {xs : List (Update × Option RemoteFault)} (start : xs <+: answers.answered 0 [entryCall d.spec]) :
    Takes d.spec e xs := by
  have one : xs = [] ∨ xs = [(entryCall d.spec, answers.update 0)] := by
    cases xs with
    | nil => exact .inl rfl
    | cons x xs =>
      obtain ⟨rfl, rest⟩ := List.cons_prefix_cons.mp start
      exact .inr (congrArg _ (List.prefix_nil.mp rest))
  rcases one with rfl | rfl
  · exact takesNothing
  · have fits : e.Fits (entryCall d.spec, answers.update 0) := by
      unfold Entry.Fits
      rw [same.cluster, same.principal]
      exact ⟨rfl, trivial⟩
    have kept : (e.receive (entryCall d.spec, answers.update 0)).policies = e.policies := by
      unfold Entry.receive
      split <;> rfl
    refine ⟨throughoutCons.mpr ⟨fits, throughoutNil⟩, [], (remainingOfPolicies kept).symm, ?_⟩
    cases answers.update 0 <;> rfl

theorem takesPolicies (stored : Keyed AccessPolicy.policyArn e.policies)
    {xs : List (Update × Option RemoteFault)} {result : Except CallFailure Unit}
    (sending : binding.Sending (answers.answered 0 ((remaining d.spec e).map (policyCall d.spec))) xs result) :
    Takes d.spec e xs := by
  obtain ⟨done, rest, last, split, rfl, ending⟩ := sentUntilFailure sending
  obtain ⟨first, second, steps, rfl, rfl⟩ := List.map_eq_append_iff.mp split
  obtain ⟨fits, reached, policies⟩ := policiesSent same steps ending
  rw [List.map_map]
  refine ⟨fits, first, ?_, policies⟩
  change _ = first ++ remaining d.spec
    (List.foldl Entry.receive e ((first.map fun s => (policyCall d.spec s, none)) ++ last))
  rw [reached, remainingAfter stored steps, steps]

theorem passStep (faithful : e.Faithful config d answers) : Takes d.spec e (pass config d answers).updates := by
  cases described : answers.describe with
  | error f =>
    unfold pass
    rw [binding.reconcileUnread config answers d described]
    exact takesNothing
  | ok found =>
    obtain ⟨seen, rfl, shows⟩ := faithful found described
    cases passShown same described shows with
    | nothing fresh settled converged silent =>
      unfold Pass.updates
      rw [silent]
      exact takesNothing
    | groups stale sends =>
      obtain ⟨_, sending⟩ := sends.1
      exact takesEntry same sending.isPrefix
    | policies fresh more sends =>
      obtain ⟨_, sending⟩ := sends.1
      exact takesPolicies same (shows.policies ▸ indexKeyed _ _) sending

structure Quiet (answers : Answers Spec) : Prop where
  shown : ∃ found, answers.describe = .ok found
  update : ∀ n, answers.update n = none

def Outcome (d : Desired Spec) (p : Pass Spec Update Fault (Remediation Spec)) : Option String → Prop
  | some category => p.verdict? = some (.applied category)
  | none => p.verdict? = some .converged ∧ p.attempts = [read d]

omit same in
theorem sentQuietly (quiet : Quiet answers) {p : Pass Spec Update Fault (Remediation Spec)} {category : String}
    {calls : List Update} (sends : Sends answers p category calls) :
    p.updates = (calls.map fun u => (u, none)) ∧ p.verdict? = some (.applied category) := by
  have planned := answers.answeredQuiet quiet.update 0 calls
  obtain ⟨⟨_, sending⟩, applied⟩ := sends
  have clear : ∀ x ∈ answers.answered 0 calls, x.2 = none := by
    rw [planned]
    intro x member
    obtain ⟨u, _, rfl⟩ := List.mem_map.mp member
    rfl
  obtain ⟨all, accepted⟩ := sending.undisturbed clear
  exact ⟨all.trans planned, (applied category).mpr ⟨rfl, all, accepted⟩⟩

theorem quietStep (faithful : e.Faithful config d answers) (quiet : Quiet answers) :
    Outcome d (pass config d answers) (due d.spec e).head? ∧
      due d.spec (e.afterPass config d answers) = (due d.spec e).tail := by
  obtain ⟨found, described⟩ := quiet.shown
  obtain ⟨seen, rfl, shows⟩ := faithful found described
  unfold Entry.afterPass
  cases passShown same described shows with
  | nothing fresh settled converged silent =>
    have idle := dueNothing.mpr ⟨fresh, settled⟩
    unfold Pass.updates
    rw [silent, idle]
    exact ⟨⟨converged, silent⟩, idle⟩
  | policies fresh more sends =>
    obtain ⟨sent, applied⟩ := sentQuietly quiet sends
    obtain ⟨first, later⟩ := duePolicies same (shows.policies ▸ indexKeyed _ _) fresh more
    rw [sent, first, List.map_map]
    exact ⟨applied, later⟩
  | groups stale sends =>
    obtain ⟨sent, applied⟩ := sentQuietly quiet sends
    obtain ⟨first, later⟩ := dueEntry same stale
    rw [sent, first]
    exact ⟨applied, later⟩

end

section
variable {config : Config} {d : Desired Spec} {e : Entry}
  (same : Addressed d.spec e.clusterName e.principalArn e.type)
include same

theorem addressedLater (rounds : List (Answers Spec)) :
    let later := rounds.foldl (Entry.afterPass config d) e
    Addressed d.spec later.clusterName later.principalArn later.type := by
  induction rounds generalizing e with
  | nil => exact same
  | cons answers rounds ih => exact ih (addressedAfter same _)

theorem runSafe {rounds : List (Answers Spec)}
    (faithful : Throughout (Entry.afterPass config d) (Entry.Faithful config d) e rounds) :
    Takes d.spec e (log config d rounds) := by
  -- Every pass starts from the entry that the passes before it left, whose remaining steps are fewer.
  induction rounds generalizing e with
  | nil => exact takesNothing
  | cons answers rounds ih =>
    obtain ⟨here, next⟩ := throughoutCons.mp faithful
    have taken := ih (addressedAfter same _) next
    unfold log at taken ⊢
    rw [List.flatMap_cons]
    exact takesAppend (passStep same here) taken

theorem quietDue {rounds : List (Answers Spec)}
    (faithful : Throughout (Entry.afterPass config d) (Entry.Faithful config d) e rounds)
    (quiet : ∀ answers ∈ rounds, Quiet answers) :
    due d.spec (rounds.foldl (Entry.afterPass config d) e) = (due d.spec e).drop rounds.length := by
  induction rounds generalizing e with
  | nil => rfl
  | cons answers rounds ih =>
    obtain ⟨now, next⟩ := throughoutCons.mp faithful
    obtain ⟨calm, later⟩ := List.forall_mem_cons.mp quiet
    obtain ⟨_, left⟩ := quietStep same now calm
    have rest := ih (e := e.afterPass config d answers) (addressedAfter same _) next later
    rw [left, List.drop_tail] at rest
    exact rest

theorem quietRun {rounds : List (Answers Spec)}
    (faithful : Throughout (Entry.afterPass config d) (Entry.Faithful config d) e rounds)
    (quiet : ∀ answers ∈ rounds, Quiet answers) (i : Nat) {answers : Answers Spec} (here : rounds[i]? = some answers) :
    Outcome d (pass config d answers) (due d.spec e)[i]? := by
  obtain ⟨within, rfl⟩ := List.getElem?_eq_some_iff.mp here
  have split : rounds = rounds.take i ++ rounds[i] :: rounds.drop (i + 1) := by simp
  rw [split] at faithful quiet
  obtain ⟨before, now⟩ := throughoutAppend.mp faithful
  obtain ⟨earlier, later⟩ := List.forall_mem_append.mp quiet
  obtain ⟨outcome, _⟩ := quietStep (addressedLater same _) (throughoutCons.mp now).1 (later _ List.mem_cons_self)
  rw [quietDue same before earlier, List.length_take_of_le (Nat.le_of_lt within), List.head?_drop] at outcome
  exact outcome

theorem plannedParts {rounds : List (Answers Spec)}
    (faithful : Throughout (Entry.afterPass config d) (Entry.Faithful config d) e rounds) :
    (remaining d.spec e).map (policyCall d.spec) = policySuccesses (log config d rounds) ++
      (remaining d.spec (rounds.foldl (Entry.afterPass config d) e)).map (policyCall d.spec) := by
  obtain ⟨_, done, steps, policies⟩ := runSafe same faithful
  have received : (log config d rounds).foldl Entry.receive e = rounds.foldl (Entry.afterPass config d) e := by
    unfold log
    rw [List.foldl_flatMap]
    rfl
  rw [policies, steps, received, List.map_append]

end

theorem distinctCalls (d : Spec) (e : Entry) : ((remaining d e).map (policyCall d)).Nodup := by
  have wanted := indexKeyed AccessPolicy.policyArn d.accessPolicies
  unfold remaining
  rw [stepsReplacing, List.map_append, List.map_map, List.map_map, List.nodup_append]
  refine ⟨?_, ?_, ?_⟩
  · refine List.pairwise_map.mpr (distinctToRemove.imp fun apart both => apart ?_)
    injection both
  · have distinct : ((selected isAddition sameScope .removeThenAdd (index AccessPolicy.policyArn d.accessPolicies)
        e.policies).map Prod.fst).Nodup := distinctSelected isAddition
    have keys := List.pairwise_map.mp distinct
    refine List.pairwise_map.mpr (keys.imp_of_mem fun {x y} left right apart both => apart ?_)
    have policies : x.2 = y.2 := by injection both
    rw [← wanted x.1 x.2 (memSelected.mp left).1, ← wanted y.1 y.2 (memSelected.mp right).1, policies]
  · intro u removal v addition both
    obtain ⟨k, _, rfl⟩ := List.mem_map.mp removal
    obtain ⟨x, _, rfl⟩ := List.mem_map.mp addition
    cases both

/- Whatever fails, the policy calls of a run never collide with what is associated, and those that succeed are
the planned ones in their order. Once nothing fails, at most the entry and then the policies are updated; after
that no planned call is missing, the entry is as it is wanted, and every pass only reads. -/
theorem runsConverge (config : Config) (d : Desired Spec) (start : Spec)
    (distinct : (start.accessPolicies.map AccessPolicy.policyArn).Nodup)
    (same : Addressed d.spec start.clusterName start.principalArn start.type) (rounds : List (Answers Spec))
    (faithful : Throughout (Entry.afterPass config d) (Entry.Faithful config d) (.ofSpec start) rounds) :
    let planned := (policyPlan d.spec.accessPolicies start.accessPolicies).steps.map (policyCall d.spec)
    (Entry.ofSpec start).policies.values.Perm start.accessPolicies ∧
    Throughout Entry.receive Entry.Fits (.ofSpec start) (log config d rounds) ∧
    policySuccesses (log config d rounds) <+: planned ∧ planned.Nodup ∧
    ∀ troubled quiet, rounds = troubled ++ quiet → (∀ answers ∈ quiet, Quiet answers) →
      ∃ early : List String, early.Sublist ["entry", "access-policies"] ∧
        (∀ (i : Nat) (answers : Answers Spec), quiet[i]? = some answers →
          Outcome d (pass config d answers) early[i]?) ∧
        ∀ n, early.length ≤ n → n ≤ quiet.length →
          let passed := troubled ++ quiet.take n
          policySuccesses (log config d passed) = planned ∧
            Settled d.spec (passed.foldl (Entry.afterPass config d) (.ofSpec start)) := by
  intro planned
  have all : planned = (remaining d.spec (.ofSpec start)).map (policyCall d.spec) := rfl
  refine ⟨indexPerm distinct, (runSafe same faithful).1, ?_, all ▸ distinctCalls d.spec (.ofSpec start), ?_⟩
  · rw [all, plannedParts same faithful]
    exact List.prefix_append _ _
  · rintro troubled quiet rfl calm
    obtain ⟨before, after⟩ := throughoutAppend.mp faithful
    let troubling := troubled.foldl (Entry.afterPass config d) (.ofSpec start)
    have addressed : Addressed d.spec troubling.clusterName troubling.principalArn troubling.type :=
      addressedLater same troubled
    refine ⟨due d.spec troubling, ?_, ?_, ?_⟩
    · unfold due
      split <;> split <;> decide
    · intro i answers here
      exact quietRun addressed after calm i here
    · intro n enough within passed
      rw [← List.take_append_drop n quiet] at after
      obtain ⟨first, _⟩ := throughoutAppend.mp after
      have calmed : ∀ answers ∈ quiet.take n, Quiet answers := fun answers inside =>
        calm answers (List.mem_of_mem_take inside)
      have still : due d.spec (passed.foldl (Entry.afterPass config d) (.ofSpec start)) = [] := by
        rw [List.foldl_append, quietDue addressed first calmed, List.length_take_of_le within]
        exact List.drop_eq_nil_of_le enough
      have parts := plannedParts same (throughoutAppend.mpr ⟨before, first⟩)
      rw [(dueNothing.mp still).2, List.map_nil, List.append_nil] at parts
      exact ⟨parts.symm.trans all.symm, settledIff.mp still⟩

theorem changedScopeConverges :
    let policy (scope : String) : AccessPolicy := ⟨"policy", ⟨some scope, none⟩⟩
    let spec (groups : List String) (policies : List AccessPolicy) : Spec :=
      ⟨"cluster", "principal", none, groups, none, policies, none⟩
    let d : Desired Spec := ⟨spec ["admins"] [policy "cluster"], ⟨.empty⟩, none⟩
    let fault : RemoteFault := ⟨"ServerException", ""⟩
    let failing (n : Nat) : Option RemoteFault := if n = 1 then some fault else none
    let unread : Answers Spec := ⟨.error fault, .ok none, failing, none, .ok .empty, none, none⟩
    let seen (s : Spec) : Answers Spec := { unread with describe := .ok (some ⟨s, none, none, some .empty⟩) }
    let calm (s : Spec) : Answers Spec := { seen s with update := fun _ => none }
    let start := spec [] [policy "namespace"]
    let regrouped := spec ["admins"] [policy "namespace"]
    let cleared := spec ["admins"] []
    let troubled := [unread, seen start, seen regrouped]
    let quiet := [cleared, d.spec, d.spec].map calm
    policySuccesses (log .default d (troubled ++ quiet)) =
      [.disassociate "cluster" "principal" "policy", .associate "cluster" "principal" (policy "cluster")] ∧
    Settled d.spec ((troubled ++ quiet).foldl (Entry.afterPass .default d) (.ofSpec start)) ∧
    Outcome d (pass .default d (calm cleared)) (some "access-policies") ∧
    Outcome d (pass .default d (calm d.spec)) none := by
  intro policy spec d fault failing unread seen calm start regrouped cleared troubled quiet
  have shown (s : Spec) (distinct : (s.accessPolicies.map AccessPolicy.policyArn).Nodup) (answers : Answers Spec)
      (found : answers.describe = (seen s).describe) : (Entry.ofSpec s).Faithful .default d answers := by
    intro _ described
    cases found.symm.trans described
    exact ⟨_, rfl, rfl, rfl, rfl, .refl _, rfl, distinct, rfl, rfl, rfl⟩
  have next {e : Entry} {answers : Answers Spec} {rest : List (Answers Spec)} (s : Spec)
      (here : e.Faithful .default d answers) (reached : e.afterPass .default d answers = .ofSpec s)
      (later : Throughout (Entry.afterPass .default d) (Entry.Faithful .default d) (.ofSpec s) rest) :
      Throughout (Entry.afterPass .default d) (Entry.Faithful .default d) e (answers :: rest) :=
    throughoutCons.mpr ⟨here, reached ▸ later⟩
  have faithful : Throughout (Entry.afterPass .default d) (Entry.Faithful .default d) (.ofSpec start)
      (troubled ++ quiet) := by
    refine next start nofun (by decide +kernel) ?_
    refine next regrouped (shown start (by decide) _ rfl) (by decide +kernel) ?_
    refine next cleared (shown regrouped (by decide) _ rfl) (by decide +kernel) ?_
    refine next d.spec (shown cleared (by decide) _ rfl) (by decide +kernel) ?_
    refine next d.spec (shown d.spec (by decide) _ rfl) (by decide +kernel) ?_
    exact next d.spec (shown d.spec (by decide) _ rfl) (by decide +kernel) throughoutNil
  obtain ⟨_, _, _, _, converges⟩ := runsConverge .default d start (by decide) ⟨rfl, rfl, .inl rfl⟩ _ faithful
  obtain ⟨early, few, outcomes, settles⟩ :=
    converges troubled quiet rfl (List.forall_mem_map.mpr fun _ _ => ⟨⟨_, rfl⟩, fun _ => rfl⟩)
  -- At most two updates are due, so nothing is left for the third of the quiet passes.
  have short : early.length ≤ 2 := few.length_le
  obtain ⟨all, settled⟩ := settles quiet.length (Nat.le_succ_of_le short) (Nat.le_refl _)
  rw [List.take_length] at all settled
  have last := outcomes 2 (calm d.spec) rfl
  rw [List.getElem?_eq_none short] at last
  have second : (pass .default d (calm cleared)).verdict? = some (.applied "access-policies") := by decide +kernel
  exact ⟨all.trans (by decide), settled, second, last⟩

end DesiredState.AccessEntry
