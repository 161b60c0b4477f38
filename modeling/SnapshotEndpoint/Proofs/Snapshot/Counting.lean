import Mathlib.Algebra.GroupWithZero.Nat
import SnapshotEndpoint.Proofs.SortedMap
import SnapshotEndpoint.Snapshot.Inventory

/-!
What an inventory counts. Descriptions of interfaces and their addresses may come again, and the
last one of each stays. The counts are those of what stays, on both levels, so what was described
before and overwritten is in none of them.
-/
namespace SnapshotEndpoint

/-- An interface as it is described, with every address that was named. -/
structure EniDescription where
  id : String
  deviceNumber : UInt32
  isPrimary : Bool
  addresses : List EniAddress

def EniDescription.eni (d : EniDescription) : Eni :=
  .ofAddresses d.id d.deviceNumber d.isPrimary d.addresses

/-- An interface that has of each address of its description the last one, and counts those. -/
structure Eni.Follows (eni : Eni) (d : EniDescription) : Prop where
  id : eni.id = d.id
  deviceNumber : eni.deviceNumber = d.deviceNumber
  isPrimary : eni.isPrimary = d.isPrimary
  addresses : eni.addresses.KeepsLast EniAddress.address d.addresses (· = ·)
  assigned : eni.assignedAddresses = eni.addresses.entries.countP fun e => e.2.assigned

namespace EniDescription

theorem eni_addresses (d : EniDescription) :
    d.eni.addresses = .ofKeyed EniAddress.address (fun a => a) d.addresses := rfl

theorem eni_follows (d : EniDescription) : d.eni.Follows d where
  id := rfl
  deviceNumber := rfl
  isPrimary := rfl
  addresses := SortedMap.keeps_last_of_keyed d.addresses
  assigned := by
    rw [eni_addresses, eni, Eni.ofAddresses, ← List.countP_eq_length_filter, SortedMap.values,
      List.countP_map]
    rfl

/-- An interface knows of its addresses what their map keeps. -/
theorem eni_of_addresses (d : EniDescription) {others : List EniAddress}
    (same : SortedMap.ofKeyed EniAddress.address (fun a => a) others =
      .ofKeyed EniAddress.address (fun a => a) d.addresses) :
    eni { d with addresses := others } = d.eni := by
  have entries : SortedMap.ofList (others.map fun a => (a.address, a)) =
      .ofList (d.addresses.map fun a => (a.address, a)) := same
  simp only [eni, Eni.ofAddresses, entries]

end EniDescription

theorem SortedMap.total_eq_sum {β : Type} (number : β → Nat) (m : SortedMap β) :
    m.total number = (m.entries.map fun e => number e.2).sum := by
  rw [total, List.sum_eq_foldr, List.foldr_map]

namespace Inventory

def described (ds : List EniDescription) : Inventory := .ofEnis (ds.map EniDescription.eni)

/-- Every address of an inventory, under the name of its interface. -/
def pairs (inventory : Inventory) : List (String × EniAddress) :=
  inventory.enis.entries.flatMap fun e => e.2.addresses.entries.map fun a => (e.1, a.2)

/-- An inventory that has of each interface described the last description, and counts what it
    has. -/
structure Counts (inventory : Inventory) (ds : List EniDescription) : Prop where
  enis : inventory.enis.KeepsLast EniDescription.id ds fun d eni => eni.Follows d
  named : ∀ e ∈ inventory.enis.entries, e.2.id = e.1 ∧
    ∀ a ∈ e.2.addresses.entries, a.2.address = a.1
  total : inventory.totalIps = inventory.pairs.length
  assigned : inventory.assignedIps = inventory.pairs.countP fun p => p.2.assigned
  within : inventory.assignedIps ≤ inventory.totalIps ∧
    ∀ e ∈ inventory.enis.entries, e.2.assignedAddresses ≤ e.2.addresses.size

/-- What an inventory does not depend on: descriptions of an interface, or mentions of an address,
    before the last one, and the order of those that differ. -/
structure Indifferent (ds : List EniDescription) : Prop where
  overwritten : ∀ before d after, ds = before ++ d :: after →
    d.id ∈ after.map EniDescription.id → described (before ++ after) = described ds
  overwritten_address : ∀ before d after first a last, ds = before ++ d :: after →
    d.addresses = first ++ a :: last → a.address ∈ last.map EniAddress.address →
    described (before ++ { d with addresses := first ++ last } :: after) = described ds
  reordered : ∀ others, Reordered EniDescription.id ds others →
    Wire.encode (described others) = Wire.encode (described ds)
  reordered_addresses : ∀ before d after others, ds = before ++ d :: after →
    Reordered EniAddress.address d.addresses others →
    Wire.encode (described (before ++ { d with addresses := others } :: after)) =
      Wire.encode (described ds)

theorem described_enis (ds : List EniDescription) :
    (described ds).enis = .ofKeyed EniDescription.id EniDescription.eni ds := by
  rw [described, ofEnis, SortedMap.ofKeyed, List.map_map]
  rfl

theorem described_of_enis {ds others : List EniDescription}
    (same : SortedMap.ofKeyed EniDescription.id EniDescription.eni others =
      .ofKeyed EniDescription.id EniDescription.eni ds) : described others = described ds := by
  rw [← described_enis, ← described_enis] at same
  simp only [described, ofEnis] at same ⊢
  rw [same]

theorem described_of_addresses {before after : List EniDescription} {d : EniDescription}
    {others : List EniAddress}
    (same : SortedMap.ofKeyed EniAddress.address (fun a => a) others =
      .ofKeyed EniAddress.address (fun a => a) d.addresses) :
    described (before ++ { d with addresses := others } :: after) =
      described (before ++ d :: after) := by
  simp only [described, List.map_append, List.map_cons, d.eni_of_addresses same]

theorem kept_enis (ds : List EniDescription) :
    (described ds).enis.KeepsLast EniDescription.id ds fun d eni => eni.Follows d := by
  rw [described_enis]
  refine (SortedMap.keeps_last_of_keyed ds).weaken ?_
  rintro d _ rfl
  exact d.eni_follows

theorem total_eq (ds : List EniDescription) :
    (described ds).totalIps = (described ds).pairs.length := by
  have sum := SortedMap.total_eq_sum (fun eni : Eni => eni.addresses.size) (described ds).enis
  rw [pairs, List.length_flatMap]
  simp only [List.length_map]
  exact sum

theorem assigned_eq (ds : List EniDescription) :
    (described ds).assignedIps = (described ds).pairs.countP fun p => p.2.assigned := by
  have sum := SortedMap.total_eq_sum Eni.assignedAddresses (described ds).enis
  rw [pairs, List.countP_flatMap]
  refine sum.trans (congrArg List.sum (List.map_congr_left ?_))
  intro e known
  obtain ⟨d, _, follows⟩ := (kept_enis ds).last e known
  rw [follows.assigned, Function.comp_apply, List.countP_map]
  rfl

theorem counts_described (ds : List EniDescription) : (described ds).Counts ds where
  enis := kept_enis ds
  named := by
    intro e known
    obtain ⟨d, ⟨_, _, _, name, _⟩, follows⟩ := (kept_enis ds).last e known
    refine ⟨follows.id.trans name, ?_⟩
    intro a member
    obtain ⟨_, ⟨_, _, _, address, _⟩, rfl⟩ := follows.addresses.last a member
    exact address
  total := total_eq ds
  assigned := assigned_eq ds
  within := by
    rw [total_eq, assigned_eq]
    refine ⟨List.countP_le_length, ?_⟩
    intro e known
    obtain ⟨d, _, follows⟩ := (kept_enis ds).last e known
    rw [follows.assigned]
    exact List.countP_le_length

theorem indifferent (ds : List EniDescription) : Indifferent ds where
  overwritten := by
    rintro before d after rfl again
    exact described_of_enis (SortedMap.of_keyed_overwritten again).symm
  overwritten_address := by
    rintro before d after first a last rfl parts again
    apply described_of_addresses
    rw [parts]
    exact (SortedMap.of_keyed_overwritten again).symm
  reordered := by
    intro others reordered
    rw [described_of_enis (SortedMap.of_keyed_reordered reordered).symm]
  reordered_addresses := by
    rintro before d after others rfl reordered
    rw [described_of_addresses (SortedMap.of_keyed_reordered reordered).symm]

/-- An inventory is that of the last descriptions and the last mentions in them: it counts those,
    and neither what they overwrite nor the order of the rest can be seen in it. -/
theorem described_once (ds : List EniDescription) :
    (described ds).Counts ds ∧ Indifferent ds :=
  ⟨counts_described ds, indifferent ds⟩

end Inventory
end SnapshotEndpoint
