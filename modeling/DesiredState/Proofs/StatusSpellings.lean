import DesiredState.Proofs.ActiveGate
import DesiredState.Reconciliation

/-!
The spelling of a status. What counts are its characters in capitals, without the separators. Two statuses in which
these are the same name one known phase, or each is unknown under its own spelling; in either case the same calls are
made, and the verdicts differ at most in the text that shows the status. -/
namespace DesiredState

namespace Phase
variable {s t : String} {p q : Phase}

def capitals (s : String) : List Char := (s.toList.filter fun c => c ∉ ['_', '-']).map Char.toUpper

theorem foldedCapitals (s : String) : folded s = capitals s := by
  unfold folded capitals
  refine congrArg (List.map _) (List.filter_congr fun c _ => ?_)
  rw [Bool.eq_iff_iff]
  simp

/- The phase that a status names: a known one whose own spelling counts the same, or else an unknown one. -/
inductive Named (s : String) : Phase → Prop where
  | known {p : Phase} (listed : p ∈ known) (same : capitals s = capitals p.text) : Named s p
  | unknown (foreign : ∀ p ∈ known, capitals s ≠ capitals p.text) : Named s (.unknown s)

theorem knownApart : ∀ p ∈ known, ∀ q ∈ known, capitals p.text = capitals q.text → p = q := by decide

theorem unknownUnlisted (raw : String) : .unknown raw ∉ known := by simp [known]

theorem parseNamed (s : String) : Named s (parse s) := by
  unfold parse
  simp only [foldedCapitals]
  split
  · rename_i p found
    exact .known (List.mem_of_find?_eq_some found) (beq_iff_eq.mp (List.find?_some found :)).symm
  · rename_i none
    refine .unknown fun p listed same => ?_
    exact List.find?_eq_none.mp none p listed (beq_iff_eq.mpr same.symm)

theorem Named.unique (left : Named s p) (right : Named s q) : p = q := by
  cases left with
  | known listed same =>
    cases right with
    | known listed' same' => exact knownApart _ listed _ listed' (same.symm.trans same')
    | unknown foreign => exact absurd same (foreign _ listed)
  | unknown foreign =>
    cases right with
    | known listed same => exact absurd same (foreign _ listed)
    | unknown _ => rfl

theorem parseIff : parse s = p ↔ Named s p :=
  ⟨fun same => same ▸ parseNamed s, fun named => (parseNamed s).unique named⟩

theorem parseText (s : String) : parse (parse s).text = parse s := by
  have named := parseNamed s
  generalize parse s = p at named
  cases named with
  | known listed _ => exact parseIff.mpr (.known listed rfl)
  | unknown foreign => exact parseIff.mpr (.unknown foreign)

inductive Alike (s t : String) : Phase → Phase → Prop where
  | known {p : Phase} (listed : p ∈ known) : Alike s t p p
  | unknown : Alike s t (.unknown s) (.unknown t)

theorem parseAlike (same : capitals s = capitals t) : Alike s t (parse s) (parse t) := by
  have named := parseNamed s
  generalize parse s = p at named
  cases named with
  | known listed counts =>
    rw [parseIff.mpr (.known listed (same.symm.trans counts))]
    exact .known listed
  | unknown foreign =>
    rw [parseIff.mpr (.unknown fun p listed => same ▸ foreign p listed)]
    exact .unknown

end Phase

namespace StatusRules
variable {r : StatusRules} {s t : String}

theorem classifyFilled (filled : s ≠ "") : r.classify (some s) = some (.parse s) := by
  have shown : s.isEmpty = false := by simpa using filled
  unfold classify
  dsimp only
  rw [shown]
  rfl

structure SameAnswers (r : StatusRules) (s t : String) : Prop where
  active : isActive (r.classify (some s)) = isActive (r.classify (some t))
  deleting : isDeleting (r.classify (some s)) = isDeleting (r.classify (some t))
  terminal : r.isTerminal (r.classify (some s)) = r.isTerminal (r.classify (some t))

theorem sameAnswers (finals : r.terminal ⊆ Phase.known) (filled : s ≠ "") (filled' : t ≠ "")
    (same : Phase.capitals s = Phase.capitals t) : r.SameAnswers s t := by
  have unlisted (raw : String) : r.terminal.contains (.unknown raw) = false := by
    simpa using fun listed => Phase.unknownUnlisted raw (finals listed)
  have alike := Phase.parseAlike same
  have here := classifyFilled filled (r := r)
  have there := classifyFilled filled' (r := r)
  generalize Phase.parse s = p at alike here
  generalize Phase.parse t = q at alike there
  cases alike with
  | known => constructor <;> rw [here, there]
  | unknown =>
    constructor <;> rw [here, there]
    · rfl
    · rfl
    · exact (unlisted s).trans (unlisted t).symm

end StatusRules

inductive SameEnd {ε α : Type} (related : α → α → Prop) : Except ε α → Except ε α → Prop where
  | ok {a b : α} (reached : related a b) : SameEnd related (.ok a) (.ok b)
  | error (e : ε) : SameEnd related (.error e) (.error e)

namespace Pass
variable {σ υ ε ε' α β : Type} {related : α → α → Prop} {related' : β → β → Prop}

structure SameCalls (related : α → α → Prop) (p q : Pass σ υ ε α) : Prop where
  attempts : p.attempts = q.attempts
  metrics : p.metrics = q.metrics
  ends : SameEnd related p.result q.result

namespace SameCalls

theorem silent {a b : α} (reached : related a b) : SameCalls related (pure a : Pass σ υ ε α) (pure b) :=
  ⟨rfl, rfl, .ok reached⟩

theorem itself (p : Pass σ υ ε α) : SameCalls Eq p p := by
  refine ⟨rfl, rfl, ?_⟩
  cases p.result with
  | ok a => exact .ok rfl
  | error e => exact .error e

theorem settled (p : Pass σ υ ε α) {f g : Except ε α → Pass σ υ ε' β}
    (next : ∀ r, SameCalls related' (f r) (g r)) : SameCalls related' (p.settle >>= f) (p.settle >>= g) := by
  rw [settleThen, settleThen]
  obtain ⟨attempts, metrics, ends⟩ := next p.result
  exact ⟨congrArg (p.attempts ++ ·) attempts, congrArg (p.metrics ++ ·) metrics, ends⟩

theorem returned {p q : Pass σ υ ε α} (same : SameCalls related p q) {f g : α → β}
    (packed : ∀ a b, related a b → related' (f a) (g b)) :
    SameCalls related' (p >>= fun a => pure (f a)) (q >>= fun a => pure (g a)) := by
  obtain ⟨attempts, metrics, ends⟩ := same
  rw [Pass.returned, Pass.returned]
  refine ⟨attempts, metrics, ?_⟩
  dsimp only
  generalize p.result = x at ends ⊢
  generalize q.result = y at ends ⊢
  cases ends with
  | ok reached => exact .ok (packed _ _ reached)
  | error e => exact .error e

end SameCalls

end Pass

inductive Verdict.SameButReason : Verdict → Verdict → Prop where
  | wait (reason reason' after) : SameButReason (.wait reason after) (.wait reason' after)
  | terminal (reason reason') : SameButReason (.terminal reason) (.terminal reason')
  | applied (category) : SameButReason (.applied category) (.applied category)
  | converged : SameButReason .converged .converged

theorem Verdict.SameButReason.itself (v : Verdict) : SameButReason v v := by
  cases v <;> constructor

structure Remediation.SameButStatus {σ : Type} (r r' : Remediation σ) : Prop where
  verdict : r.verdict.SameButReason r'.verdict
  delta : r.delta = r'.delta
  resource : { r.resource with status := none } = { r'.resource with status := none }

def Observed.showing {σ : Type} (observed : Observed σ) (status : String) : Observed σ :=
  { observed with status := some status }

def Answers.showing {σ : Type} (answers : Answers σ) (observed : Observed σ) : Answers σ :=
  { answers with describe := .ok (some observed) }

namespace Binding
variable {σ υ : Type} (b : Binding σ υ) (config : Config) (answers : Answers σ) (desired : Desired σ)
  (observed : Observed σ) {s t : String}

theorem concludeSame {v w : Verdict} (verdict : v.SameButReason w) (δ : Delta) :
    (b.conclude desired (observed.showing s) v δ).SameButStatus (b.conclude desired (observed.showing t) w δ) :=
  ⟨verdict, rfl, rfl⟩

theorem failureSame (failed : Except Fault Verdict) (δ : Delta) :
    Pass.SameCalls Remediation.SameButStatus
      (do return b.conclude desired (observed.showing s) (← .ofExcept failed) δ : Pass σ υ Fault (Remediation σ))
      (do return b.conclude desired (observed.showing t) (← .ofExcept failed) δ) := by
  refine (Pass.SameCalls.itself _).returned ?_
  rintro v _ rfl
  exact b.concludeSame desired observed (.itself v) δ

theorem applyFirstSame (δ : Delta) : Pass.SameCalls Remediation.SameButStatus
    (b.applyFirst config answers desired (observed.showing s) δ)
    (b.applyFirst config answers desired (observed.showing t) δ) := by
  have spec (status : String) : (observed.showing status).spec = observed.spec := rfl
  have packed (v : Verdict) := b.concludeSame (s := s) (t := t) desired observed (.itself v) δ
  unfold applyFirst
  rw [spec, spec]
  cases b.choice ⟨desired.spec, observed.spec, δ, desired.annotations⟩ with
  | nothing => exact .silent (packed .converged)
  | refuse reason => exact .silent (packed (.terminal reason))
  | send category updates =>
    refine .settled _ fun r => ?_
    cases r with
    | ok _ => exact .silent (packed (.applied category))
    | error f => exact b.failureSame desired observed (f.verdict config) δ

section
variable (alike : (b.rules config).SameAnswers s t)
include alike

theorem inactiveSame :
    Option.Rel Verdict.SameButReason (b.inactive? config (some s)) (b.inactive? config (some t)) := by
  unfold inactive?
  dsimp only
  rw [alike.deleting, alike.active, alike.terminal]
  split
  · exact .some (.wait _ _ _)
  · split
    · exact .none
    · split
      · exact .some (.terminal _ _)
      · exact .some (.wait _ _ _)

theorem remediateSame : Pass.SameCalls Remediation.SameButStatus
    (b.remediate config answers desired (observed.showing s))
    (b.remediate config answers desired (observed.showing t)) := by
  have held := b.inactiveSame config alike
  have seen (status : String) : (observed.showing status).status = some status := rfl
  have tags (status : String) :
      b.syncTags answers desired (observed.showing status) = b.syncTags answers desired observed := rfl
  unfold remediate
  rw [seen, seen]
  generalize b.inactive? config (some s) = left at held ⊢
  generalize b.inactive? config (some t) = right at held ⊢
  cases held with
  | some verdict => exact .silent (b.concludeSame desired observed verdict .empty)
  | none =>
    dsimp only
    rw [tags, tags]
    refine .settled _ fun r => ?_
    cases r with
    | error f => exact b.failureSame desired observed (f.verdict config) .empty
    | ok synced =>
      refine (b.applyFirstSame config answers desired observed _).returned fun r r' same => ?_
      have resource := congrArg (fun o : Observed σ => { o with tags := synced.or o.tags }) same.resource
      exact ⟨same.verdict, same.delta, resource⟩

theorem deleteSame : Pass.SameCalls Eq (b.delete config answers desired (observed.showing s))
    (b.delete config answers desired (observed.showing t)) := by
  have seen (status : String) : (observed.showing status).status = some status := rfl
  unfold delete
  rw [seen, seen, alike.deleting]
  exact .itself _

theorem finalizeSame : Pass.SameCalls Eq (b.finalize config (answers.showing (observed.showing s)) desired)
    (b.finalize config (answers.showing (observed.showing t)) desired) := by
  obtain ⟨attempts, metrics, ends⟩ := b.deleteSame config answers desired observed alike
  unfold finalize
  rw [describeThen, describeThen, Pass.settleThen, Pass.settleThen]
  exact ⟨congrArg (_ :: ·) attempts, congrArg (_ :: ·) metrics, ends⟩

end

structure SameBranches (b : Binding σ υ) (config : Config) (s t : String) : Prop where
  answers : (b.rules config).SameAnswers s t
  remediate : ∀ (answers : Answers σ) (desired : Desired σ) (observed : Observed σ),
    Pass.SameCalls Remediation.SameButStatus (b.remediate config answers desired (observed.showing s))
      (b.remediate config answers desired (observed.showing t))
  finalize : ∀ (answers : Answers σ) (desired : Desired σ) (observed : Observed σ),
    Pass.SameCalls Eq (b.finalize config (answers.showing (observed.showing s)) desired)
      (b.finalize config (answers.showing (observed.showing t)) desired)

theorem sameBranches (alike : (b.rules config).SameAnswers s t) : b.SameBranches config s t where
  answers := alike
  remediate answers desired observed := b.remediateSame config answers desired observed alike
  finalize answers desired observed := b.finalizeSame config answers desired observed alike

end Binding

namespace Kind

theorem finalsKnown (k : Kind) (config : Config) : (k.binding.rules config).terminal ⊆ Phase.known := by
  intro p final
  rw [Binding.rules, StatusRules.memTerminal] at final
  split at final
  · rename_i degraded
    rw [degraded]
    decide
  · have listed : ∀ p ∈ k.binding.statuses.terminal, p ∈ Phase.known := by
      cases k <;> decide
    exact listed p final

/- Statuses that are spelled in two ways never part two passes. -/
theorem spellingNeverCounts :
    (∀ s p, Phase.parse s = p ↔ Phase.Named s p) ∧ (∀ s, Phase.parse (Phase.parse s).text = Phase.parse s) ∧
      ∀ s t, s ≠ "" → t ≠ "" → Phase.capitals s = Phase.capitals t →
        Phase.Alike s t (Phase.parse s) (Phase.parse t) ∧
          ∀ (k : Kind) (config : Config), k.binding.SameBranches config s t := by
  refine ⟨fun _ _ => Phase.parseIff, Phase.parseText, fun s t filled filled' same => ?_⟩
  refine ⟨Phase.parseAlike same, fun k config => k.binding.sameBranches config ?_⟩
  exact StatusRules.sameAnswers (k.finalsKnown config) filled filled' same

theorem separatorsAlike :
    let spec : Addon.Spec := { name := "coredns", clusterName := "prod" }
    let desired : Desired Addon.Spec := ⟨{ spec with addonVersion := some "v2" }, .empty, none⟩
    let observed : Observed Addon.Spec := ⟨{ spec with addonVersion := some "v1" }, none, none, some .empty⟩
    let answers : Answers Addon.Spec := ⟨.ok none, .ok none, fun _ => none, none, .ok .empty, none, none⟩
    let pass (status : String) := Addon.binding.remediate .default answers desired (observed.showing status)
    let update : Addon.Update := ⟨"prod", "coredns", some "v2", none, none, none, []⟩
    Phase.parse "active" = .active ∧ Phase.parse "AC-TIVE_" = .active ∧
      (pass "active").verdict? = some (.applied "addon") ∧
      Pass.SameCalls Remediation.SameButStatus (pass "active") (pass "AC-TIVE_") ∧
      (pass "AC-TIVE_").attempts = [⟨.update ⟨"coredns", some "prod"⟩ update, none⟩] ∧
      Phase.Alike "_" "--" (.unknown "_") (.unknown "--") ∧
      (AccessEntry.binding.rules .default).SameAnswers "_" "--" ∧
      StatusRules.isActive ((AccessEntry.binding.rules .default).classify (some "")) = true ∧
      StatusRules.isActive ((AccessEntry.binding.rules .default).classify (some "_")) = false := by
  intro spec desired observed answers pass update
  obtain ⟨named, _, alike⟩ := spellingNeverCounts
  have active (s : String) (same : Phase.capitals s = Phase.capitals Phase.active.text) : Phase.parse s = .active :=
    (named s .active).mpr (.known (by decide) same)
  obtain ⟨_, known⟩ := alike "active" "AC-TIVE_" (by decide) (by decide) (by decide)
  have branches := (known .addon .default).remediate answers desired observed
  have applied : (pass "active").verdict? = some (.applied "addon") := by decide +kernel
  have sent : (pass "active").attempts = [⟨.update ⟨"coredns", some "prod"⟩ update, none⟩] := by decide +kernel
  -- A status of separators alone is not a missing one.
  have unknown (raw : String) (foreign : ∀ p ∈ Phase.known, Phase.capitals raw ≠ Phase.capitals p.text) :=
    (named raw (.unknown raw)).mpr (.unknown foreign)
  obtain ⟨same, passes⟩ := alike "_" "--" (by decide) (by decide) (by decide)
  rw [unknown "_" (by decide), unknown "--" (by decide)] at same
  exact ⟨active _ (by decide), active _ (by decide), applied, branches, branches.attempts.symm.trans sent, same,
    (passes .accessEntry .default).answers, by decide, by decide⟩

end Kind
end DesiredState
