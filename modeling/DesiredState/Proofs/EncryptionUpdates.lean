import DesiredState.Proofs.AddressedPaths

/-!
An encryption is added once. A cluster that holds none takes one, and what is held is neither dropped nor edited. Next
to one that is held, lists of several entries have no rule of their own: the first entry asked for is sent again. -/
namespace DesiredState.Cluster

/- Something is held, something is asked for, and one of the two is more than an entry. -/
def Overlooked (held asked : List EncryptionConfig) : Prop :=
  held ≠ [] ∧ asked ≠ [] ∧ (1 < held.length ∨ 1 < asked.length)

instance (held asked : List EncryptionConfig) : Decidable (Overlooked held asked) :=
  inferInstanceAs (Decidable (_ ∧ _ ∧ (_ ∨ _)))

inductive EncryptionPlan (name : String) : List EncryptionConfig → List EncryptionConfig → GroupPlan Update → Prop where
  | none : EncryptionPlan name [] [] .skip
  | first (e : EncryptionConfig) : EncryptionPlan name [] [e] (.calls [.associateEncryption name e])
  | several {asked} (many : 1 < asked.length) :
      EncryptionPlan name [] asked (.terminal "only one encryption configuration is allowed")
  | dropped {held} (holds : held ≠ []) :
      EncryptionPlan name held [] (.terminal "encryption configuration cannot be removed from an existing cluster")
  | edited (h e : EncryptionConfig) :
      EncryptionPlan name [h] [e] (.terminal "encryption configuration cannot be updated")
  | overlooked {held e rest} (overlooked : Overlooked held (e :: rest)) :
      EncryptionPlan name held (e :: rest) (.calls [.associateEncryption name e])

theorem encryptionPlanned (input : PlanInput Spec) : EncryptionPlan input.desired.name
    input.observed.encryptionConfig input.desired.encryptionConfig (planEncryption input) := by
  have several {e e' : EncryptionConfig} {rest : List EncryptionConfig} : 1 < (e :: e' :: rest).length :=
    Nat.succ_lt_succ (Nat.succ_pos _)
  unfold planEncryption
  rcases input.observed.encryptionConfig with _ | ⟨h, _ | ⟨h', more⟩⟩ <;>
    rcases input.desired.encryptionConfig with _ | ⟨e, _ | ⟨e', rest⟩⟩
  -- Nothing is held.
  · exact .none
  · exact .first e
  · exact .several several
  -- One entry is held.
  · exact .dropped nofun
  · exact .edited h e
  · exact .overlooked ⟨nofun, nofun, .inr several⟩
  -- Several entries are held.
  · exact .dropped nofun
  · exact .overlooked ⟨nofun, nofun, .inl several⟩
  · exact .overlooked ⟨nofun, nofun, .inl several⟩

theorem associationPlanned {config : Config} {answers : Answers Spec} {desired : Desired Spec} {observed : Observed Spec}
    {name : String} {e : EncryptionConfig}
    (issued : binding.Issues config answers desired observed (.associateEncryption name e)) :
    planEncryption (binding.input desired observed.spec) = .calls [.associateEncryption name e] := by
  cases binding.issuedOnce config answers desired observed groupsPlanned issued with
  | encryption planned => exact planned

theorem noneDiffers {desired : Desired Spec} {observed : Spec}
    (differs : (binding.input desired observed).delta.differsAt "encryptionConfig" = true) :
    ¬ (observed.encryptionConfig = [] ∧ desired.spec.encryptionConfig = []) := by
  rintro ⟨held, asked⟩
  refine Kind.cluster.rowDiffers differs rfl ?_
  unfold Field.differences Field.always
  dsimp only
  rw [held, asked]
  rfl

/- Outside the overlooked lists an encryption is sent as the first and only one, and lists that differ in any other way
are refused. Of overlooked lists the first entry is sent. -/
theorem encryptionAddedOnce (config : Config) (answers : Answers Spec) (desired : Desired Spec)
    (observed : Observed Spec) :
    let held := observed.spec.encryptionConfig
    let asked := desired.spec.encryptionConfig
    let input := binding.input desired observed.spec
    (¬ Overlooked held asked →
      (∀ name e, binding.Issues config answers desired observed (.associateEncryption name e) →
        name = desired.spec.name ∧ held = [] ∧ asked = [e]) ∧
      (input.delta.differsAt "encryptionConfig" = true → ¬ (held = [] ∧ asked.length = 1) →
        ∃ reason, planEncryption input = .terminal reason)) ∧
    ∀ e, asked.head? = some e → (held = [] ∧ asked = [e]) ∨ Overlooked held asked →
      planEncryption input = .calls [.associateEncryption desired.spec.name e] := by
  intro held asked input
  have plans : EncryptionPlan desired.spec.name held asked (planEncryption input) := encryptionPlanned input
  refine ⟨fun named => ⟨fun name e issued => ?_, fun differs other => ?_⟩, fun e first sends => ?_⟩
  · rw [associationPlanned issued] at plans
    generalize held = h, asked = a at plans named
    cases plans with
    | first => exact ⟨rfl, rfl, rfl⟩
    | overlooked overlooked => exact absurd overlooked named
  · have apart : ¬ (held = [] ∧ asked = []) := noneDiffers differs
    generalize held = h, asked = a, planEncryption input = plan at plans named other apart
    cases plans with
    | none => exact absurd ⟨rfl, rfl⟩ apart
    | first => exact absurd ⟨rfl, rfl⟩ other
    | several => exact ⟨_, rfl⟩
    | dropped => exact ⟨_, rfl⟩
    | edited => exact ⟨_, rfl⟩
    | overlooked overlooked => exact absurd overlooked named
  · generalize held = h, asked = a, planEncryption input = plan at plans first sends
    cases plans with
    | none => cases first
    | dropped => cases first
    | first =>
      cases first
      rfl
    | overlooked =>
      cases first
      rfl
    | several many =>
      rcases sends with ⟨_, rfl⟩ | ⟨holds, _⟩
      · exact absurd many (Nat.lt_irrefl 1)
      · exact absurd rfl holds
    | edited =>
      rcases sends with ⟨empty, _⟩ | ⟨_, _, several⟩
      · cases empty
      · exact (several.elim (Nat.lt_irrefl 1) (Nat.lt_irrefl 1)).elim

def keyed (arn : String) : EncryptionConfig := { resources := ["secrets"], provider := some { keyArn := some arn } }

theorem firstEncryptionAdded :
    let answers : Answers Spec := ⟨.ok none, .ok none, fun _ => none, none, .ok .empty, none, none⟩
    let a := keyed "arn:aws:kms:us-west-2:1:key/a"
    let b := keyed "arn:aws:kms:us-west-2:1:key/b"
    let cluster (encryptionConfig : List EncryptionConfig) : Spec := { name := "prod", encryptionConfig }
    let desired (asked : List EncryptionConfig) : Desired Spec := ⟨cluster asked, .empty, none⟩
    let observed (held : List EncryptionConfig) : Observed Spec := ⟨cluster held, some "ACTIVE", none, some .empty⟩
    (binding.Issues .default answers (desired [a]) (observed []) (.associateEncryption "prod" a) ∧
      (desired [a]).spec.encryptionConfig = [a]) ∧
      (∃ reason, planEncryption (binding.input (desired [b]) (observed [a]).spec) = .terminal reason) ∧
      planEncryption (binding.input (desired [b]) (observed [a, b]).spec) = .calls [.associateEncryption "prod" b] := by
  intro answers a b cluster desired observed
  have issued : binding.Issues .default answers (desired [a]) (observed []) (.associateEncryption "prod" a) :=
    .inl (by decide +kernel)
  have added := ((encryptionAddedOnce .default answers (desired [a]) (observed [])).1 (by decide)).1 "prod" a issued
  have edited := ((encryptionAddedOnce .default answers (desired [b]) (observed [a])).1 (by decide)).2
    (by decide +kernel) (by decide)
  have overlooked := (encryptionAddedOnce .default answers (desired [b]) (observed [a, b])).2 b rfl (.inr (by decide))
  exact ⟨⟨issued, added.2.2⟩, edited, overlooked⟩

theorem heldEncryptionSentAgain :
    let answers : Answers Spec := ⟨.ok none, .ok none, fun _ => none, none, .ok .empty, none, none⟩
    let a := keyed "arn:aws:kms:us-west-2:1:key/a"
    let b := keyed "arn:aws:kms:us-west-2:1:key/b"
    let desired : Desired Spec := ⟨{ name := "prod", encryptionConfig := [a, b] }, .empty, none⟩
    let observed : Observed Spec := ⟨{ name := "prod", encryptionConfig := [a] }, some "ACTIVE", none, some .empty⟩
    let pass := binding.remediate .default answers desired observed
    observed.spec.encryptionConfig ≠ [] ∧ desired.spec.encryptionConfig.length ≠ 1 ∧
      (binding.input desired observed.spec).delta.differsAt "encryptionConfig" = true ∧
      pass.sent = [.associateEncryption "prod" a] ∧ pass.verdict? = some (.applied "encryption") := by
  decide +kernel

end DesiredState.Cluster
