import DesiredState.Proofs.Drift
import DesiredState.Proofs.Places
import DesiredState.Proofs.Reordering

/-!
Lists inside of list items. The types of a log setup, the resources of an encryption and the address ranges of a remote
network are compared as they stand, so a cluster differs from another where the order of such a list does. At every
other path a delta takes no notice; the lists inside of policies and mappings are sorted before they are compared. -/
namespace DesiredState

namespace Cluster

inductive Nest where
  | logSetups
  | encryptions
  | nodeNetworks
  | podNetworks
  deriving DecidableEq, Repr

namespace Nest

def all : List Nest := [.logSetups, .encryptions, .nodeNetworks, .podNetworks]

theorem memAll (n : Nest) : n ∈ all := by cases n <;> decide

def path : Nest → String
  | .logSetups => "logging.clusterLogging"
  | .encryptions => "encryptionConfig"
  | .nodeNetworks => "remoteNetworkConfig.remoteNodeNetworks"
  | .podNetworks => "remoteNetworkConfig.remotePodNetworks"

def field : Nest → Field Spec
  | .logSetups => .always "logging" .nested fun s => .ofOption Logging.record.codec.write s.logging
  | .encryptions => .always "encryptionConfig" .multiset fun s =>
    EncryptionConfig.record.codec.list.write s.encryptionConfig
  | .nodeNetworks => .always "remoteNetworkConfig" .nested fun s =>
    .ofOption RemoteNetworkConfig.record.codec.write s.remoteNetworkConfig
  | .podNetworks => .always "remoteNetworkConfig" .nested fun s =>
    .ofOption RemoteNetworkConfig.record.codec.write s.remoteNetworkConfig

theorem listed (n : Nest) : n.field ∈ table.fields := by
  have found : table.fields.find? (fun f => f.path == n.field.path) = some n.field := by
    cases n <;> rfl
  exact List.mem_of_find?_eq_some found

theorem pathInj {m n : Nest} (same : m.path = n.path) : m = n := by
  cases m <;> cases n <;> first | rfl | exact absurd same (by decide)

def Item (β : Type) : Nest → Type
  | .logSetups => β × Bool
  | .encryptions => β × String
  | .nodeNetworks => β
  | .podNetworks => β

instance {β : Type} [DecidableEq β] : (n : Nest) → DecidableEq (n.Item β)
  | .logSetups => inferInstanceAs (DecidableEq (β × Bool))
  | .encryptions => inferInstanceAs (DecidableEq (β × String))
  | .nodeNetworks => inferInstanceAs (DecidableEq β)
  | .podNetworks => inferInstanceAs (DecidableEq β)

section
variable {β : Type} (inner : List String → β)

def items (s : Spec) : (n : Nest) → Multiset (n.Item β)
  | .logSetups => (s.logging.getD {}).reading inner
  | .encryptions => (s.encryptionConfig.map (EncryptionConfig.reading inner) : Multiset (β × String))
  | .nodeNetworks => ((s.remoteNetworkConfig.getD {}).reading inner).1
  | .podNetworks => ((s.remoteNetworkConfig.getD {}).reading inner).2

def readItem : (n : Nest) → n.Item (List String) → n.Item β
  | .logSetups => Prod.map inner id
  | .encryptions => Prod.map inner id
  | .nodeNetworks => inner
  | .podNetworks => inner

theorem itemsRead (s : Spec) (n : Nest) : n.items inner s = (n.items id s).map (n.readItem inner) := by
  cases n with
  | logSetups => exact innerLogging inner _
  | encryptions => exact innerEncryption inner _
  | nodeNetworks => exact congrArg Prod.fst (innerNetworks inner _)
  | podNetworks => exact congrArg Prod.snd (innerNetworks inner _)

def Same (d o : Spec) (n : Nest) : Prop := n.items inner d = n.items inner o

instance [DecidableEq β] (d o : Spec) (n : Nest) : Decidable (n.Same inner d o) :=
  inferInstanceAs (Decidable (n.items inner d = n.items inner o))

theorem Same.however {d o : Spec} {n : Nest} (same : n.Same id d o) : n.Same inner d o := by
  unfold Same at same ⊢
  rw [itemsRead, same, ← itemsRead]

end

def reported (d o : Spec) (n : Nest) : List String := if n.Same id d o then [] else [n.path]

theorem memReported {d o : Spec} {n : Nest} {p : String} : p ∈ n.reported d o ↔ p = n.path ∧ ¬n.Same id d o := by
  unfold reported
  by_cases same : n.Same id d o <;> simp [same]

theorem rowPaths (n : Nest) (d o : Spec) : Rule.paths (n.field.differences d o) =
    (all.filter fun m => m.field.path == n.field.path).flatMap (reported d o) := by
  have networks : Rule.paths (Rule.walk "remoteNetworkConfig"
      (.ofOption RemoteNetworkConfig.record.codec.write d.remoteNetworkConfig)
      (.ofOption RemoteNetworkConfig.record.codec.write o.remoteNetworkConfig)) =
        [nodeNetworks, podNetworks].flatMap (reported d o) := by
    rw [Record.walkInTurn {} rfl (by decide), Rule.paths, List.map_flatMap]
    refine Rule.flatMapInTurn (.cons ?_ (.cons ?_ .nil))
    · exact Record.pathsListed RemoteNetwork.reads "remoteNodeNetworks" RemoteNetworkConfig.remoteNodeNetworks _ _ _
    · exact Record.pathsListed RemoteNetwork.reads "remotePodNetworks" RemoteNetworkConfig.remotePodNetworks _ _ _
  cases n with
  | logSetups =>
    have walked : Rule.paths (Rule.walk "logging" (.ofOption Logging.record.codec.write d.logging)
        (.ofOption Logging.record.codec.write o.logging)) = [logSetups].flatMap (reported d o) := by
      rw [Record.walkInTurn {} rfl (by decide), Rule.paths, List.map_flatMap]
      refine Rule.flatMapInTurn (.cons ?_ .nil)
      exact Record.pathsListed LogSetup.reads "clusterLogging" Logging.clusterLogging _ _ _
    exact walked
  | encryptions =>
    have compared : Rule.paths (Rule.differences .multiset "encryptionConfig"
        (EncryptionConfig.record.codec.list.write d.encryptionConfig)
        (EncryptionConfig.record.codec.list.write o.encryptionConfig)) = [encryptions].flatMap (reported d o) := by
      have shown (s : Spec) : (EncryptionConfig.record.codec.list.write s.encryptionConfig).items? =
          some (s.encryptionConfig.map EncryptionConfig.record.codec.write) := rfl
      have same := Json.bagsRead shown EncryptionConfig.reads d o
      exact Rule.pathsLeaf.trans ((if_congr same rfl rfl).trans (List.append_nil _).symm)
    exact compared
  | nodeNetworks => exact networks
  | podNetworks => exact networks

def elsewhere (path : String) : Bool := !all.any fun n => n.path == path

theorem notElsewhere {n : Nest} {d o : Spec} {x : Difference} (found : x ∈ n.field.differences d o) :
    elsewhere x.path = false := by
  have reported : x.path ∈ Rule.paths (n.field.differences d o) := List.mem_map_of_mem found
  rw [rowPaths, List.mem_flatMap] at reported
  obtain ⟨m, _, here⟩ := reported
  rw [elsewhere, Bool.not_eq_false', List.any_eq_true]
  exact ⟨m, m.memAll, beq_iff_eq.mpr (memReported.mp here).1.symm⟩

theorem reportedIff (n : Nest) (d o : Spec) : n.path ∈ (table.raw d o).paths ↔ ¬n.Same id d o := by
  have row : n.path ∈ Rule.paths (n.field.differences d o) ↔ ¬n.Same id d o := by
    rw [rowPaths, List.mem_flatMap]
    constructor
    · rintro ⟨m, _, here⟩
      obtain ⟨same, apart⟩ := memReported.mp here
      exact pathInj same ▸ apart
    · intro apart
      exact ⟨n, List.mem_filter.mpr ⟨n.memAll, beq_self_eq_true _⟩, memReported.mpr ⟨rfl, apart⟩⟩
  rw [← row]
  constructor
  · intro found
    obtain ⟨x, inside, same⟩ := List.mem_map.mp found
    have under : pathUnder x.path n.field.path = true := by
      rw [same]
      cases n <;> decide
    exact same ▸ List.mem_map_of_mem (Kind.cluster.rowsApart.rowAbove n.listed inside under)
  · intro found
    exact FieldTable.memPathsRaw.mpr ⟨n.field, n.listed, found⟩

end Nest

inductive LogSetup.Reordered (s : LogSetup) : LogSetup → Prop where
  | of {kinds : List String} (types : s.types.Perm kinds) : Reordered s { s with types := kinds }

inductive EncryptionConfig.Reordered (e : EncryptionConfig) : EncryptionConfig → Prop where
  | of {names : List String} (resources : e.resources.Perm names) : Reordered e { e with resources := names }

inductive RemoteNetwork.Reordered (n : RemoteNetwork) : RemoteNetwork → Prop where
  | of {ranges : List String} (cidrs : n.cidrs.Perm ranges) : Reordered n { n with cidrs := ranges }

inductive Logging.ReorderedInside (l : Logging) : Logging → Prop where
  | of {setups : List LogSetup} (clusterLogging : SameItems LogSetup.Reordered l.clusterLogging setups) :
    ReorderedInside l { l with clusterLogging := setups }

inductive RemoteNetworkConfig.ReorderedInside (c : RemoteNetworkConfig) : RemoteNetworkConfig → Prop where
  | of {nodes pods : List RemoteNetwork}
    (remoteNodeNetworks : SameItems RemoteNetwork.Reordered c.remoteNodeNetworks nodes)
    (remotePodNetworks : SameItems RemoteNetwork.Reordered c.remotePodNetworks pods) :
    ReorderedInside c { c with remoteNodeNetworks := nodes, remotePodNetworks := pods }

inductive ReorderedInside (s : Spec) : Spec → Prop where
  | of {logs : Option Logging} {encryption : List EncryptionConfig} {remote : Option RemoteNetworkConfig}
    (logging : Option.Rel Logging.ReorderedInside s.logging logs)
    (encryptionConfig : SameItems EncryptionConfig.Reordered s.encryptionConfig encryption)
    (remoteNetworkConfig : Option.Rel RemoteNetworkConfig.ReorderedInside s.remoteNetworkConfig remote) :
    ReorderedInside s { s with logging := logs, encryptionConfig := encryption, remoteNetworkConfig := remote }

theorem LogSetup.Reordered.read {s t : LogSetup} (reordered : s.Reordered t) :
    s.reading Multiset.ofList = t.reading Multiset.ofList := by
  cases reordered with
  | of types => simp only [LogSetup.reading, Multiset.coe_eq_coe.mpr types]

theorem EncryptionConfig.Reordered.read {e f : EncryptionConfig} (reordered : e.Reordered f) :
    e.reading Multiset.ofList = f.reading Multiset.ofList := by
  cases reordered with
  | of resources => simp only [EncryptionConfig.reading, Multiset.coe_eq_coe.mpr resources]

theorem RemoteNetwork.Reordered.read {m n : RemoteNetwork} (reordered : m.Reordered n) :
    m.reading Multiset.ofList = n.reading Multiset.ofList := by
  cases reordered with
  | of cidrs => exact Multiset.coe_eq_coe.mpr cidrs

theorem Logging.ReorderedInside.read {l m : Logging} (reordered : l.ReorderedInside m) :
    l.reading Multiset.ofList = m.reading Multiset.ofList := by
  cases reordered with
  | of setups => exact Multiset.coe_eq_coe.mpr (readItems setups LogSetup.Reordered.read)

theorem RemoteNetworkConfig.ReorderedInside.read {c e : RemoteNetworkConfig} (reordered : c.ReorderedInside e) :
    c.reading Multiset.ofList = e.reading Multiset.ofList := by
  cases reordered with
  | of nodes pods =>
    simp only [RemoteNetworkConfig.reading, Multiset.coe_eq_coe.mpr (readItems nodes RemoteNetwork.Reordered.read),
      Multiset.coe_eq_coe.mpr (readItems pods RemoteNetwork.Reordered.read)]

section
variable {d d' o o' : Spec}

theorem ReorderedInside.items (reordered : ReorderedInside d d') (n : Nest) :
    n.items Multiset.ofList d = n.items Multiset.ofList d' := by
  cases reordered with
  | of logs encryption remote =>
    have networks := readOptional remote RemoteNetworkConfig.ReorderedInside.read {}
    cases n with
    | logSetups => exact readOptional logs Logging.ReorderedInside.read {}
    | encryptions => exact Multiset.coe_eq_coe.mpr (readItems encryption EncryptionConfig.Reordered.read)
    | nodeNetworks => exact congrArg Prod.fst networks
    | podNetworks => exact congrArg Prod.snd networks

theorem ReorderedInside.same (desired : ReorderedInside d d') (observed : ReorderedInside o o') (n : Nest) :
    n.Same Multiset.ofList d o ↔ n.Same Multiset.ofList d' o' := by
  unfold Nest.Same
  rw [desired.items, observed.items]

theorem ReorderedInside.otherRows (reordered : ReorderedInside d d') :
    ∀ f ∈ table.fields, (∃ n : Nest, f = n.field) ∨ f.render d = f.render d' := by
  cases reordered
  simp only [table, List.forall_mem_cons]
  exact ⟨.inr rfl, .inr rfl, .inr rfl, .inl ⟨.logSetups, rfl⟩, .inr rfl, .inr rfl, .inr rfl, .inl ⟨.encryptions, rfl⟩,
    .inr rfl, .inr rfl, .inr rfl, .inr rfl, .inl ⟨.nodeNetworks, rfl⟩, by simp⟩

theorem ReorderedInside.otherDifferences (desired : ReorderedInside d d') (observed : ReorderedInside o o') :
    ∀ f ∈ table.fields, (∃ n : Nest, f = n.field) ∨ f.differences d o = f.differences d' o' := by
  intro f row
  refine (desired.otherRows f row).elim .inl fun left => (observed.otherRows f row).elim .inl fun right => .inr ?_
  unfold Field.differences
  rw [left, right]

/- Inner lists are compared as they stand: the paths are the same where what agreed still agrees, at every other path
nothing has changed, and what differs in more than an order differs all the same. -/
structure InnerOrder (d d' o o' : Spec) : Prop where
  unchanged : (table.raw d o).paths = (table.raw d' o').paths ↔ ∀ n : Nest, n.Same id d o ↔ n.Same id d' o'
  elsewhere : (table.raw d o).keeping Nest.elsewhere = (table.raw d' o').keeping Nest.elsewhere
  reported : ∀ n : Nest, n.path ∈ (table.raw d o).paths ↔ ¬n.Same id d o
  differing : ∀ n : Nest, ¬n.Same Multiset.ofList d o →
    n.path ∈ (table.raw d o).paths ∧ n.path ∈ (table.raw d' o').paths

theorem ReorderedInside.innerOrder (desired : ReorderedInside d d') (observed : ReorderedInside o o') :
    InnerOrder d d' o o' where
  unchanged := by
    constructor
    · intro same n
      rw [← not_iff_not, ← n.reportedIff, same, n.reportedIff]
    · intro same
      refine FieldTable.samePaths fun f row => ?_
      rcases desired.otherDifferences observed f row with ⟨n, rfl⟩ | other
      · have reported : Nest.reported d o = Nest.reported d' o' := by
          funext m
          unfold Nest.reported
          exact if_congr (same m) rfl rfl
        rw [n.rowPaths, n.rowPaths, reported]
      · rw [other]
  elsewhere := by
    refine FieldTable.keepingSame _ fun f row => ?_
    rcases desired.otherDifferences observed f row with ⟨n, rfl⟩ | other
    · have nothing (d o : Spec) : (n.field.differences d o).filter (fun x => Nest.elsewhere x.path) = [] :=
        List.filter_eq_nil_iff.mpr fun x found => Bool.eq_false_iff.mp (Nest.notElsewhere found)
      rw [nothing, nothing]
    · rw [other]
  reported n := n.reportedIff d o
  differing n apart := by
    rw [n.reportedIff, n.reportedIff]
    exact ⟨mt (Nest.Same.however _) apart, mt (Nest.Same.however _) (mt (desired.same observed n).mpr apart)⟩

end

end Cluster

namespace Kind

def ReorderedInside : (k : Kind) → k.Spec → k.Spec → Prop
  | .cluster => Cluster.ReorderedInside
  | .accessEntry => AccessEntry.Reordered
  | .capability => Capability.Reordered
  | _ => Eq

def InnerOrder : (k : Kind) → (d d' o o' : k.Spec) → Prop
  | .cluster => Cluster.InnerOrder
  | k => fun d d' o o' => (k.binding.table.raw d o).paths = (k.binding.table.raw d' o').paths

/- Only clusters compare such lists as they stand; those inside of policies and mappings may be in any order. -/
theorem innerListsAsWritten (k : Kind) {d d' o o' : k.Spec} (desired : k.ReorderedInside d d')
    (observed : k.ReorderedInside o o') : k.InnerOrder d d' o o' := by
  cases k with
  | cluster => exact Cluster.ReorderedInside.innerOrder desired observed
  | accessEntry => exact FieldTable.sameRows AccessEntry.rows desired.sameRows observed.sameRows
  | capability => exact FieldTable.sameRows Capability.rows desired.sameRows observed.sameRows
  | _ =>
    cases desired
    cases observed
    rfl

theorem otherRangeReported :
    let encryption (resources : List String) : Cluster.EncryptionConfig :=
      { resources, provider := some { keyArn := some "key-a" } }
    let cluster (resources ranges : List String) : Cluster.Spec :=
      { name := "prod", encryptionConfig := [encryption resources],
        remoteNetworkConfig := some { remotePodNetworks := [{ cidrs := ranges }] } }
    let d := cluster ["secrets", "configmaps"] ["10.0.0.0/16", "10.1.0.0/16"]
    let d' := cluster ["configmaps", "secrets"] ["10.1.0.0/16", "10.0.0.0/16"]
    let o := cluster ["secrets", "configmaps"] ["10.2.0.0/16"]
    let o' := cluster ["configmaps", "secrets"] ["10.2.0.0/16"]
    Cluster.ReorderedInside d d' ∧ Cluster.ReorderedInside o o' ∧
      (Cluster.table.raw d o).paths = ["remoteNetworkConfig.remotePodNetworks"] ∧
      (Cluster.table.raw d' o').paths = ["remoteNetworkConfig.remotePodNetworks"] := by
  intro encryption cluster d d' o o'
  have desired : Cluster.ReorderedInside d d' :=
    .of .none ⟨_, .cons (.of (.swap _ _ [])) .nil, .refl _⟩
      (.some (.of ⟨_, .nil, .refl _⟩ ⟨_, .cons (.of (.swap _ _ [])) .nil, .refl _⟩))
  have observed : Cluster.ReorderedInside o o' :=
    .of .none ⟨_, .cons (.of (.swap _ _ [])) .nil, .refl _⟩
      (.some (.of ⟨_, .nil, .refl _⟩ ⟨_, .cons (.of (.refl _)) .nil, .refl _⟩))
  have unchanged := (innerListsAsWritten .cluster desired observed).unchanged
  have before : (Cluster.table.raw d o).paths = ["remoteNetworkConfig.remotePodNetworks"] := by decide +kernel
  have same := unchanged.mpr fun n => by cases n <;> decide +kernel
  exact ⟨desired, observed, before, same ▸ before⟩

theorem innerOrderReported :
    let cluster (pair : List String) : Cluster.Spec :=
      { name := "prod", logging := some { clusterLogging := [{ types := pair }] },
        encryptionConfig := [{ resources := pair }],
        remoteNetworkConfig := some { remoteNodeNetworks := [{ cidrs := pair }],
                                      remotePodNetworks := [{ cidrs := pair }] } }
    let d := cluster ["a", "b"]
    let d' := cluster ["b", "a"]
    Cluster.ReorderedInside d d' ∧ (Cluster.table.raw d d).paths = [] ∧
      (Cluster.table.raw d' d).paths = ["logging.clusterLogging", "encryptionConfig",
        "remoteNetworkConfig.remoteNodeNetworks", "remoteNetworkConfig.remotePodNetworks"] := by
  intro cluster d d'
  have once : SameItems Cluster.RemoteNetwork.Reordered [{ cidrs := ["a", "b"] }] [{ cidrs := ["b", "a"] }] :=
    ⟨_, .cons (.of (.swap _ _ [])) .nil, .refl _⟩
  have reordered : Cluster.ReorderedInside d d' :=
    .of (.some (.of ⟨_, .cons (.of (.swap _ _ [])) .nil, .refl _⟩)) ⟨_, .cons (.of (.swap _ _ [])) .nil, .refl _⟩
      (.some (.of once once))
  exact ⟨reordered, by decide +kernel⟩

end Kind
end DesiredState
