import CacheRouting.Config.Decode
import CacheRouting.Proofs.Config.Written
import CacheRouting.Proofs.Document.Break
import CacheRouting.Proofs.Document.Line

/-!
# Sections of a configuration in a document

The lines of a section become a table with one field for each setting that is
there, and from the table every setting is read back: what is absent stays absent,
and what is there has the value that was written.
-/

namespace CacheRouting

namespace Config

open Document (Value)
open Document.Toml

/-- The fields of settings, those that are absent left out. -/
def fieldsOf (settings : List (String × Option Item)) : Fields :=
  settings.filterMap fun setting => setting.2.map fun item => (setting.1, item)

theorem fieldsOf_append (first second : List (String × Option Item)) :
    fieldsOf (first ++ second) = fieldsOf first ++ fieldsOf second :=
  List.filterMap_append

theorem lacks_fieldsOf {settings : List (String × Option Item)} {name : String}
    (fresh : name ∉ settings.map (·.1)) : (fieldsOf settings).Lacks name := by
  intro field member
  obtain ⟨setting, isSetting, isField⟩ := List.mem_filterMap.mp member
  obtain ⟨item, -, rfl⟩ := Option.map_eq_some_iff.mp isField
  rintro rfl
  exact fresh (List.mem_map_of_mem isSetting)

theorem field?_eq_none {fields : Fields} {name : String} (lacks : fields.Lacks name) :
    Value.field? (Item.fieldValues fields) name = none := by
  rw [Value.field?, Option.map_eq_none_iff, List.find?_eq_none, Item.fieldValues_eq_map]
  intro field member
  obtain ⟨original, isOriginal, rfl⟩ := List.mem_map.mp member
  simpa using lacks original isOriginal

theorem field?_cons (field : String × Item) (fields : Fields) (name : String) :
    Value.field? (Item.fieldValues (field :: fields)) name =
      if field.1 = name then some field.2.toValue
      else Value.field? (Item.fieldValues fields) name := by
  by_cases same : field.1 = name <;> simp [Item.fieldValues, Value.field?, same]

section Lookup

variable {settings : List (String × Option Item)} {name : String}

theorem field?_fieldsOf {item : Option Item} (distinct : (settings.map (·.1)).Nodup)
    (member : (name, item) ∈ settings) :
    Value.field? (Item.fieldValues (fieldsOf settings)) name = item.map Item.toValue := by
  induction settings with
  | nil => cases member
  | cons setting settings ih =>
      obtain ⟨first, content⟩ := setting
      rw [List.map_cons, List.nodup_cons] at distinct
      obtain ⟨fresh, distinctRest⟩ := distinct
      have skipped : fieldsOf ((first, none) :: settings) = fieldsOf settings := rfl
      have kept : ∀ item, fieldsOf ((first, some item) :: settings) =
          (first, item) :: fieldsOf settings := fun _ => rfl
      rcases List.mem_cons.mp member with isFirst | later
      · cases isFirst
        cases item with
        | none => rw [skipped, field?_eq_none (lacks_fieldsOf fresh), Option.map_none]
        | some item => rw [kept, field?_cons, if_pos rfl, Option.map_some]
      · have different : first ≠ name := by
          rintro rfl
          exact fresh (List.mem_map.mpr ⟨_, later, rfl⟩)
        cases content with
        | none => rw [skipped, ih distinctRest later]
        | some content => rw [kept, field?_cons, if_neg different, ih distinctRest later]

/-- An optional setting is read back, whether it is there or not. -/
theorem optional?_fieldsOf {Setting : Type} {setting : Option Setting}
    {read : Value → Option Setting} (itemOf : Setting → Item)
    (distinct : (settings.map (·.1)).Nodup) (member : (name, setting.map itemOf) ∈ settings)
    (notNull : ∀ value, (itemOf value).toValue ≠ .null)
    (reads : ∀ value ∈ setting, read (itemOf value).toValue = some value) :
    optional? read (Item.fieldValues (fieldsOf settings)) name = some setting := by
  have found := field?_fieldsOf distinct member
  cases setting with
  | none =>
      rw [optional?, found]
      rfl
  | some value =>
      have found : Value.field? (Item.fieldValues (fieldsOf settings)) name =
          some (itemOf value).toValue := found
      rw [optional?, found]
      split
      · next isNone => cases isNone
      · next isNull => exact absurd (Option.some.inj isNull) (notNull value)
      · next content isContent =>
        rw [← Option.some.inj isContent, reads value rfl, Option.map_some]

end Lookup

/-- A document read up to some settings of its last table. -/
def within (before : Fields) (table : String) (settings : List (String × Option Item)) :
    Progress :=
  ⟨before ++ [(table, Fields.opened (fieldsOf settings))], [table]⟩

section Lines

variable {before : Fields} {table : String}

/-- The header of a table is read as the table without settings. -/
theorem goes_writeTable (bare : writeKey table = table.toList) (lacks : before.Lacks table)
    (opened : List String) :
    Goes (writeHeader [table.toList]) ⟨before, opened⟩ (within before table []) := by
  have atTop : ([] : List String).length < nestingLimit - 1 := by decide
  have header := goes_writeHeader atTop (Fields.openTable?_of_lacks lacks) opened
  rw [← bare]
  exact header

theorem goes_writeSetting {Setting : Type} {write : Setting → List Char}
    {valueOf : Setting → Value} (settings : List (String × Option Item)) (name : String)
    (setting : Option Setting)
    (reads : ∀ value ∈ setting, Reads (nestingLimit - 1) (write value) (valueOf value))
    (bare : writeKey name = name.toList) (lacks : before.Lacks table)
    (fresh : name ∉ settings.map (·.1)) :
    Goes (writeSetting write name setting) (within before table settings)
      (within before table
        (settings ++ [(name, setting.map fun value => .value (valueOf value))])) := by
  rw [within, within, fieldsOf_append]
  cases setting with
  | none =>
      have nothing : fieldsOf [(name, none)] = [] := rfl
      rw [Option.map_none, nothing, List.append_nil]
      exact goes_nil _
  | some value =>
      rw [writeSetting, ← bare]
      exact goes_writeField (reads value rfl)
        (Fields.defineIn?_last lacks (lacks_fieldsOf fresh) (valueOf value))

theorem return_not_mem_writeSetting {Setting : Type} {write : Setting → List Char} {name : String}
    {setting : Option Setting} (noneInName : '\r' ∉ name.toList)
    (noneInValue : ∀ value, '\r' ∉ write value) : '\r' ∉ writeSetting write name setting := by
  cases setting with
  | none => exact List.not_mem_nil
  | some value => exact return_not_mem_writeField noneInName (noneInValue value)

end Lines

end Config

end CacheRouting
