import CacheRouting.Document.Toml.Table

/-!
# Building tables in order

A document that opens each table once and defines each key once under the table
that is open adds every field at the end of the last table.
-/

namespace CacheRouting

namespace Document

namespace Toml

namespace Fields

def Lacks (fields : Fields) (name : String) : Prop :=
  ∀ field ∈ fields, field.1 ≠ name

def opened (fields : Fields) : Item := .table false false fields

section Last

variable {before : Fields} {name : String}

theorem item?_of_lacks (lacks : before.Lacks name) : before.item? name = none := by
  rw [item?, Option.map_eq_none_iff, List.find?_eq_none]
  intro field member
  simpa using lacks field member

theorem item?_append_of_lacks (lacks : before.Lacks name) (item : Item) :
    item? (before ++ [(name, item)]) name = some item := by
  have noneBefore : before.find? (fun field => field.1 == name) = none := by
    rw [List.find?_eq_none]
    intro field member
    simpa using lacks field member
  simp [item?, List.find?_append, noneBefore]

theorem replace_append_of_lacks (lacks : before.Lacks name) (item next : Item) :
    replace (before ++ [(name, item)]) name next = before ++ [(name, next)] := by
  have kept : before.replace name next = before := by
    refine (List.map_congr_left ?_).trans (List.map_id before)
    intro field member
    simp [lacks field member]
  rw [replace, List.map_append, ← replace, kept]
  simp

/-- A change below the last table leaves the others as they are. -/
theorem changeAt?_last (lacks : before.Lacks name) (change : Bool → Fields → Option Fields)
    (path : List String) (madeDotted : Bool) (inner : Fields) :
    changeAt? false change (name :: path) madeDotted (before ++ [(name, opened inner)]) =
      (changeAt? false change path false inner).map fun inner =>
        before ++ [(name, opened inner)] := by
  rw [changeAt?, item?_append_of_lacks lacks]
  simp only [opened, replace_append_of_lacks lacks]
  rfl

theorem define?_of_lacks {fields : Fields} (lacks : fields.Lacks name) (value : Value) :
    fields.define? [] name value false = some (fields ++ [(name, .value value)]) := by
  simp [define?, changeAt?, item?_of_lacks lacks]

theorem defineIn?_last {table : String} {inner : Fields} (lacksTable : before.Lacks table)
    (lacks : inner.Lacks name) (value : Value) :
    defineIn? [table] [] name value (before ++ [(table, opened inner)]) =
      some (before ++ [(table, opened (inner ++ [(name, .value value)]))]) := by
  rw [defineIn?, changeAt?_last lacksTable, changeAt?, define?_of_lacks lacks]
  rfl

/-- A key is defined in the table that is open, the last one of the last one. -/
theorem defineIn?_last_last {outer table : String} {between inner : Fields}
    (lacksOuter : before.Lacks outer) (lacksTable : between.Lacks table) (lacks : inner.Lacks name)
    (value : Value) :
    defineIn? [outer, table] [] name value
        (before ++ [(outer, opened (between ++ [(table, opened inner)]))]) =
      some (before ++ [(outer,
        opened (between ++ [(table, opened (inner ++ [(name, .value value)]))]))]) := by
  rw [defineIn?, changeAt?_last lacksOuter, changeAt?_last lacksTable, changeAt?,
    define?_of_lacks lacks]
  rfl

theorem openTable?_of_lacks (lacks : before.Lacks name) :
    before.openTable? [] name = some (before ++ [(name, opened [])]) := by
  simp [openTable?, changeAt?, item?_of_lacks lacks, opened]

theorem openTable?_last {outer : String} {inner : Fields} (lacksOuter : before.Lacks outer)
    (lacks : inner.Lacks name) :
    openTable? [outer] name (before ++ [(outer, opened inner)]) =
      some (before ++ [(outer, opened (inner ++ [(name, opened [])]))]) := by
  rw [openTable?, changeAt?_last lacksOuter, changeAt?]
  simp only [item?_of_lacks lacks]
  rfl

end Last

end Fields

theorem Item.fieldValues_eq_map (fields : List (String × Item)) :
    Item.fieldValues fields = fields.map fun field => (field.1, field.2.toValue) := by
  induction fields with
  | nil => rfl
  | cons field fields ih => rw [Item.fieldValues, ih, List.map_cons]

end Toml

end Document

end CacheRouting
