/-!
# Dictionaries in key order

A dictionary holds at most one value for each key and lists its entries in the
order of their keys, which is the order of their bytes.
-/

namespace CacheRouting

/-- Entries with distinct keys in ascending order. -/
structure Dictionary (Value : Type) where
  entries : List (String × Value)
  ascending : entries.Pairwise fun first second => first.1 < second.1
  deriving DecidableEq

namespace Dictionary

variable {Value : Type}

def empty : Dictionary Value := ⟨[], .nil⟩

/-- Put an entry in its place, replacing one with the same key. -/
def insertEntry (key : String) (value : Value) :
    List (String × Value) → List (String × Value)
  | [] => [(key, value)]
  | entry :: rest =>
      if key < entry.1 then (key, value) :: entry :: rest
      else if key = entry.1 then (key, value) :: rest
      else entry :: insertEntry key value rest

theorem mem_insertEntry {key : String} {value : Value} {entries : List (String × Value)}
    {entry : String × Value} (member : entry ∈ insertEntry key value entries) :
    entry = (key, value) ∨ entry ∈ entries := by
  induction entries with
  | nil => exact Or.inl (by simpa [insertEntry] using member)
  | cons head rest ih =>
      simp only [insertEntry] at member
      split at member
      · simpa using member
      · split at member
        · rcases List.mem_cons.mp member with equal | inRest
          · exact Or.inl equal
          · exact Or.inr (List.mem_cons_of_mem _ inRest)
        · rcases List.mem_cons.mp member with equal | inRest
          · exact Or.inr (equal ▸ List.mem_cons_self)
          · rcases ih inRest with equal | inRest
            · exact Or.inl equal
            · exact Or.inr (List.mem_cons_of_mem _ inRest)

theorem ascending_insertEntry (key : String) (value : Value)
    {entries : List (String × Value)}
    (ascending : entries.Pairwise fun first second => first.1 < second.1) :
    (insertEntry key value entries).Pairwise fun first second => first.1 < second.1 := by
  induction entries with
  | nil => simp [insertEntry]
  | cons head rest ih =>
      obtain ⟨headBelow, restAscending⟩ := List.pairwise_cons.mp ascending
      simp only [insertEntry]
      split
      next below =>
        refine List.pairwise_cons.mpr ⟨?_, ascending⟩
        intro entry member
        rcases List.mem_cons.mp member with equal | inRest
        · exact equal ▸ below
        · exact String.lt_trans below (headBelow entry inRest)
      next notBelow =>
        split
        next equal =>
          refine List.pairwise_cons.mpr ⟨?_, restAscending⟩
          intro entry member
          exact equal ▸ headBelow entry member
        next different =>
          refine List.pairwise_cons.mpr ⟨?_, ih restAscending⟩
          intro entry member
          rcases mem_insertEntry member with equal | inRest
          · exact equal ▸ Std.lt_of_le_of_ne notBelow (Ne.symm different)
          · exact headBelow entry inRest

def insert (dictionary : Dictionary Value) (key : String) (value : Value) :
    Dictionary Value :=
  ⟨insertEntry key value dictionary.entries, ascending_insertEntry key value dictionary.ascending⟩

def insertAll (dictionary : Dictionary Value) (entries : List (String × Value)) :
    Dictionary Value :=
  entries.foldl (fun dictionary entry => dictionary.insert entry.1 entry.2) dictionary

/-- The dictionary of these entries, in which a later value of a key replaces an
earlier one. -/
def ofList (entries : List (String × Value)) : Dictionary Value :=
  empty.insertAll entries

def find? (dictionary : Dictionary Value) (key : String) : Option Value :=
  (dictionary.entries.find? fun entry => entry.1 == key).map (·.2)

end Dictionary

end CacheRouting
