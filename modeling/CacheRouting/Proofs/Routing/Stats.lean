import CacheRouting.Host
import CacheRouting.Proofs.Dictionary
import CacheRouting.Routing.Stats

/-!
# Rows of numbers

Where no two hosts share an address, each host has the row that is made for it.
A row that is zero but in one column shows its share there.
-/

namespace CacheRouting

namespace Stats

variable {Share : Type}

theorem find?_mapShares {Other : Type} (convert : Share → Other) (stats : Stats Share)
    (address : String) :
    (stats.mapShares convert).find? address = (stats.find? address).map (·.map convert) := by
  rw [Dictionary.find?, mapShares, List.find?_map, Option.map_map, Dictionary.find?, Option.map_map]
  rfl

theorem map_fst_rows (rowOf : Host → Nat → List Share) (hosts : List Host) :
    (hosts.zipIdx.map fun (host, index) => (host.address, rowOf host index)).map (·.1) =
      hosts.map (·.address) := by
  have addresses :
      (hosts.zipIdx.map fun (host, index) => (host.address, rowOf host index)).map (·.1) =
        (hosts.zipIdx.map (·.1)).map (·.address) := by
    rw [List.map_map, List.map_map]
    rfl
  rw [addresses, List.zipIdx_map_fst]

/-- Hosts with distinct addresses have a row each. -/
theorem find?_ofList_rows (rowOf : Host → Nat → List Share) {hosts : List Host} {host : Host}
    {index : Nat} (distinct : (hosts.map (·.address)).Nodup) (isHost : hosts[index]? = some host) :
    (Dictionary.ofList (hosts.zipIdx.map fun (host, index) =>
      (host.address, rowOf host index))).find? host.address = some (rowOf host index) := by
  apply Dictionary.find?_ofList_of_mem
  · rw [map_fst_rows]
    exact distinct
  · exact List.mem_map.mpr ⟨(host, index), List.mem_zipIdx_iff_getElem?.mpr isHost, rfl⟩

/-- An address that no host has is without a row. -/
theorem find?_ofList_rows_of_absent (rowOf : Host → Nat → List Share) {hosts : List Host}
    {address : String} (absent : ∀ host ∈ hosts, host.address ≠ address) :
    (Dictionary.ofList (hosts.zipIdx.map fun (host, index) =>
      (host.address, rowOf host index))).find? address = none := by
  rw [Dictionary.find?_ofList, Option.map_eq_none_iff, List.find?_eq_none]
  intro entry member
  obtain ⟨⟨host, index⟩, isHost, rfl⟩ := List.mem_map.mp (List.mem_reverse.mp member)
  have found := List.mem_of_getElem? (List.mem_zipIdx_iff_getElem?.mp isHost)
  simpa using absent host found

theorem length_unitRow (zero share : Share) (width column : Nat) :
    (unitRow zero share width column).length = width := by
  simp [unitRow]

theorem getElem?_unitRow_self (zero share : Share) {width column : Nat} (inside : column < width) :
    (unitRow zero share width column)[column]? = some share := by
  simp [unitRow, inside]

theorem eq_zero_of_getElem?_unitRow {zero share other : Share} {width column index : Nat}
    (different : index ≠ column) (has : (unitRow zero share width column)[index]? = some other) :
    other = zero := by
  rw [unitRow, List.getElem?_set_ne different.symm] at has
  exact (List.mem_replicate.mp (List.mem_of_getElem? has)).2

end Stats

end CacheRouting
