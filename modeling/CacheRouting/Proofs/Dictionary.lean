import CacheRouting.Dictionary
import Mathlib.Data.List.Nodup

/-!
# Looking up entries

What is found under a key is the value that was set last.  Since keys are in
ascending order, a key stands in one entry only, so the entries of a dictionary
are those that can be looked up.
-/

namespace CacheRouting

namespace Dictionary

variable {Value : Type}

theorem find?_insertEntry (key : String) (value : Value) (entries : List (String × Value))
    (other : String) :
    (insertEntry key value entries).find? (fun entry => entry.1 == other) =
      if key = other then some (key, value)
      else entries.find? fun entry => entry.1 == other := by
  induction entries with
  | nil => by_cases same : key = other <;> simp [insertEntry, same]
  | cons head rest ih =>
      simp only [insertEntry]
      split
      next below => by_cases same : key = other <;> simp [same]
      next notBelow =>
        split
        next equal =>
          subst equal
          by_cases same : head.1 = other <;> simp [same]
        next different =>
          by_cases same : key = other
          · have headDiffers : (head.1 == other) = false :=
              beq_false_of_ne fun equal => different (same.trans equal.symm)
            simp only [List.find?_cons, headDiffers, ih, if_pos same]
          · simp only [List.find?_cons, ih, if_neg same]

theorem find?_insert (dictionary : Dictionary Value) (key : String) (value : Value)
    (other : String) :
    (dictionary.insert key value).find? other =
      if key = other then some value else dictionary.find? other := by
  rw [find?, insert, find?_insertEntry]
  split <;> rfl

/-- The last value of a key wins, and keys that are not set keep theirs. -/
theorem find?_insertAll (dictionary : Dictionary Value) (entries : List (String × Value))
    (key : String) :
    (dictionary.insertAll entries).find? key =
      ((entries.reverse.find? fun entry => entry.1 == key).map (·.2)).or
        (dictionary.find? key) := by
  induction entries generalizing dictionary with
  | nil => rfl
  | cons entry rest ih =>
      rw [insertAll, List.foldl_cons]
      change ((dictionary.insert entry.1 entry.2).insertAll rest).find? key = _
      rw [ih, find?_insert, List.reverse_cons, List.find?_append]
      cases rest.reverse.find? fun entry => entry.1 == key with
      | some found => rfl
      | none => by_cases same : entry.1 = key <;> simp [same]

theorem find?_ofList (entries : List (String × Value)) (key : String) :
    (ofList entries).find? key =
      (entries.reverse.find? fun entry => entry.1 == key).map (·.2) := by
  rw [ofList, find?_insertAll]
  exact Option.or_none

/-- Where no key is repeated, each entry is found. -/
theorem find?_ofList_of_mem {entries : List (String × Value)} {key : String} {value : Value}
    (distinct : (entries.map (·.1)).Nodup) (member : (key, value) ∈ entries) :
    (ofList entries).find? key = some value := by
  rw [find?_ofList]
  cases found : entries.reverse.find? fun entry => entry.1 == key with
  | none =>
      have differs := List.find?_eq_none.mp found (key, value) (List.mem_reverse.mpr member)
      simp at differs
  | some entry =>
      have sameKey : entry.1 = key := by simpa using List.find?_some found
      have inEntries : entry ∈ entries := List.mem_reverse.mp (List.mem_of_find?_eq_some found)
      rw [List.inj_on_of_nodup_map distinct inEntries member sameKey]
      rfl

/-- Where the value of a key is a function of the key, repeated keys do not matter. -/
theorem find?_ofList_map (keys : List String) (valueOf : String → Value) (key : String) :
    (ofList (keys.map fun key => (key, valueOf key))).find? key =
      if key ∈ keys then some (valueOf key) else none := by
  rw [find?_ofList, ← List.map_reverse, List.find?_map, Option.map_map]
  cases found : keys.reverse.find? ((fun entry => entry.1 == key) ∘ fun key => (key, valueOf key)) with
  | none =>
      have notMember : key ∉ keys := fun member => by
        simpa using List.find?_eq_none.mp found key (List.mem_reverse.mpr member)
      rw [if_neg notMember]
      rfl
  | some other =>
      have same : other = key := by simpa using List.find?_some found
      have member : key ∈ keys := by
        simpa [same] using List.mem_of_find?_eq_some found
      rw [if_pos member, ← same]
      rfl

/-- The entries are those that can be looked up. -/
theorem mem_entries_iff (dictionary : Dictionary Value) (key : String) (value : Value) :
    (key, value) ∈ dictionary.entries ↔ dictionary.find? key = some value := by
  obtain ⟨entries, ascending⟩ := dictionary
  rw [find?]
  induction entries with
  | nil => simp
  | cons head rest ih =>
      obtain ⟨headBelow, restAscending⟩ := List.pairwise_cons.mp ascending
      rw [List.mem_cons, List.find?_cons]
      by_cases same : head.1 = key
      · have notInRest : (key, value) ∉ rest := by
          intro inRest
          have below := headBelow (key, value) inRest
          exact String.lt_irrefl key (same ▸ below)
        simp [same, notInRest, Prod.ext_iff, eq_comm]
      · have notHead : (key, value) ≠ head := fun equal => same (equal ▸ rfl)
        rw [beq_false_of_ne same, or_iff_right notHead]
        exact ih restAscending

theorem mem_entries_ofList_map {keys : List String} {valueOf : String → Value} {key : String}
    {value : Value} :
    (key, value) ∈ (ofList (keys.map fun key => (key, valueOf key))).entries ↔
      key ∈ keys ∧ value = valueOf key := by
  rw [mem_entries_iff, find?_ofList_map]
  by_cases member : key ∈ keys <;> simp [member, eq_comm]

theorem mem_entries_ofList_iff {entries : List (String × Value)} {key : String} {value : Value} :
    (key, value) ∈ (ofList entries).entries ↔
      ∃ index : Nat, entries[index]? = some (key, value) ∧
        key ∉ (entries.map (·.1)).drop (index + 1) := by
  rw [mem_entries_iff, find?_ofList, Option.map_eq_some_iff]
  constructor
  · rintro ⟨entry, found, rfl⟩
    obtain ⟨sameKey, later, earlier, reverseEq, notLater⟩ :=
      List.find?_eq_some_iff_append.mp found
    obtain rfl : entry.1 = key := by simpa using sameKey
    have entriesEq : entries = earlier.reverse ++ entry :: later.reverse := by
      rw [← List.reverse_reverse entries, reverseEq]
      simp
    refine ⟨earlier.length, ?_, ?_⟩
    · simp [entriesEq]
    · have dropped : entries.drop (earlier.length + 1) = later.reverse := by
        rw [entriesEq, List.append_cons]
        exact List.drop_left' (by simp)
      rw [← List.map_drop, dropped, List.map_reverse, List.mem_reverse, List.mem_map]
      rintro ⟨other, isLater, otherKey⟩
      simpa [otherKey] using notLater other isLater
  · rintro ⟨index, isEntry, notLater⟩
    obtain ⟨inside, entryEq⟩ := List.getElem?_eq_some_iff.mp isEntry
    have entriesEq : entries = entries.take index ++ (key, value) :: entries.drop (index + 1) := by
      rw [← entryEq, List.getElem_cons_drop, List.take_append_drop]
    refine ⟨(key, value), List.find?_eq_some_iff_append.mpr
      ⟨by simp, (entries.drop (index + 1)).reverse, (entries.take index).reverse, ?_, ?_⟩, rfl⟩
    · conv => lhs; rw [entriesEq]
      simp
    · intro other isLater
      have different : other.1 ≠ key := by
        rintro rfl
        rw [← List.map_drop] at notLater
        exact notLater (List.mem_map_of_mem (List.mem_reverse.mp isLater))
      simp [different]

theorem nodup_keys (dictionary : Dictionary Value) : (dictionary.entries.map (·.1)).Nodup := by
  rw [List.Nodup, List.pairwise_map]
  refine dictionary.ascending.imp ?_
  intro first second less same
  exact String.lt_irrefl _ (same ▸ less)

theorem insertEntry_of_forall_lt {key : String} {entries : List (String × Value)}
    (after : ∀ entry ∈ entries, entry.1 < key) (value : Value) :
    insertEntry key value entries = entries ++ [(key, value)] := by
  induction entries with
  | nil => rfl
  | cons entry entries ih =>
      obtain ⟨isAfter, restAfter⟩ := List.forall_mem_cons.mp after
      have notBelow : ¬ key < entry.1 := String.lt_asymm isAfter
      have different : key ≠ entry.1 := by
        rintro rfl
        exact String.lt_irrefl _ isAfter
      rw [insertEntry, if_neg notBelow, if_neg different, ih restAfter, List.cons_append]

theorem entries_insertAll (dictionary : Dictionary Value) {entries : List (String × Value)}
    (ascending : (dictionary.entries ++ entries).Pairwise fun first second => first.1 < second.1) :
    (dictionary.insertAll entries).entries = dictionary.entries ++ entries := by
  induction entries generalizing dictionary with
  | nil => exact (List.append_nil _).symm
  | cons entry entries ih =>
      have inserted : (dictionary.insert entry.1 entry.2).entries =
          dictionary.entries ++ [entry] := by
        apply insertEntry_of_forall_lt
        intro earlier member
        exact (List.pairwise_append.mp ascending).2.2 earlier member entry List.mem_cons_self
      have appended : dictionary.entries ++ entry :: entries =
          (dictionary.insert entry.1 entry.2).entries ++ entries := by
        rw [inserted, List.append_assoc, List.singleton_append]
      rw [appended] at ascending ⊢
      exact ih _ ascending

/-- A dictionary is made of its entries. -/
theorem ofList_entries (dictionary : Dictionary Value) : ofList dictionary.entries = dictionary := by
  have same : (ofList dictionary.entries).entries = dictionary.entries :=
    entries_insertAll empty dictionary.ascending
  generalize ofList dictionary.entries = other at same
  obtain ⟨entries, ascending⟩ := dictionary
  cases other
  cases same
  rfl

end Dictionary

end CacheRouting
