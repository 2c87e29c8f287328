import CacheRouting.Proofs.Config.Section
import CacheRouting.Proofs.Dictionary
import CacheRouting.Proofs.Sequence

/-!
# What a written section says

Each section is listed with its settings as a document holds them.  Its lines are
read as the table of these settings, and the table is read as the section.
-/

namespace CacheRouting

namespace Config

open Document (Value)
open Document.Toml

def textsValue (texts : List String) : Value :=
  .list (texts.map .text)

def indicesValue (indices : List Nat) : Value :=
  .list (indices.map fun index : Nat => .integer index)

def indexFields (entries : List (String × List Nat)) : Fields :=
  entries.map fun entry => (entry.1, .value (indicesValue entry.2))

theorem reads_writeTexts (texts : List String) :
    Reads (nestingLimit - 1) (writeTexts texts) (textsValue texts) :=
  reads_writeList fun text _ => reads_writeText (nestingLimit - 2) text

theorem reads_writeIndices {indices : List Nat} (fits : Fits indices) :
    Reads (nestingLimit - 1) (writeList (indices.map Text.digitsOfNumber))
      (indicesValue indices) :=
  reads_writeList fun index member =>
    reads_digitsOfNumber (nestingLimit - 2) (fits index member)

theorem return_not_mem_writeTexts (texts : List String) : '\r' ∉ writeTexts texts := by
  apply return_not_mem_writeList
  intro item isItem
  obtain ⟨text, -, rfl⟩ := List.mem_map.mp isItem
  exact return_not_mem_writeText text

theorem return_not_mem_writeIndices (indices : List Nat) :
    '\r' ∉ writeList (indices.map Text.digitsOfNumber) := by
  apply return_not_mem_writeList
  intro item isItem
  obtain ⟨index, -, rfl⟩ := List.mem_map.mp isItem
  exact return_not_mem_digitsOfNumber index

theorem count?_integer {count : Nat} (fits : count ≤ largestInteger) :
    count? (.integer count) = some count := by
  have small : count < UInt64.size :=
    Nat.lt_of_le_of_lt fits (by decide)
  rw [count?, if_pos]
  · rfl
  · exact ⟨Int.natCast_nonneg count, small⟩

theorem list?_map {Item : Type} {read : Value → Option Item} {valueOf : Item → Value}
    {items : List Item} (reads : ∀ item ∈ items, read (valueOf item) = some item) :
    list? read (.list (items.map valueOf)) = some items := by
  rw [list?, List.mapM_map]
  exact mapM_eq_some_self reads

theorem list?_texts (texts : List String) : list? text? (textsValue texts) = some texts :=
  list?_map fun _ _ => rfl

theorem list?_indices {indices : List Nat} (fits : Fits indices) :
    list? count? (indicesValue indices) = some indices :=
  list?_map fun index member => count?_integer (fits index member)

/-- The table of the manual assignment is read back as the assignment. -/
theorem dictionary?_indexFields {buckets : Dictionary (List Nat)}
    (fits : ∀ entry ∈ buckets.entries, Fits entry.2) :
    dictionary? (list? count?) (Fields.opened (indexFields buckets.entries)).toValue =
      some buckets := by
  have entriesRead : (Item.fieldValues (indexFields buckets.entries)).mapM (fun field =>
      (list? count? field.2).map fun item => (field.1, item)) = some buckets.entries := by
    rw [Item.fieldValues_eq_map, indexFields, List.map_map, List.mapM_map, mapM_eq_some_self]
    intro entry member
    simp [Item.toValue, list?_indices (fits entry member)]
  rw [Fields.opened, Item.toValue, dictionary?, entriesRead, Option.map_some,
    Dictionary.ofList_entries]

section Optional

variable {settings : List (String × Option Item)}

theorem optional?_text (name : String) (setting : Option String)
    (distinct : (settings.map (·.1)).Nodup)
    (member : (name, setting.map fun text => .value (.text text)) ∈ settings) :
    optional? text? (Item.fieldValues (fieldsOf settings)) name = some setting :=
  optional?_fieldsOf _ distinct member nofun fun _ _ => rfl

theorem optional?_count (name : String) (setting : Option Nat)
    (distinct : (settings.map (·.1)).Nodup)
    (member : (name, setting.map fun count : Nat => .value (.integer count)) ∈ settings)
    (fits : Fits setting.toList) :
    optional? count? (Item.fieldValues (fieldsOf settings)) name = some setting :=
  optional?_fieldsOf _ distinct member nofun fun count isCount =>
    count?_integer (fits count (Option.mem_toList.mpr isCount))

end Optional

section Lines

variable {before : Fields} {table : String} (settings : List (String × Option Item))

theorem goes_text (name : String) (setting : Option String)
    (bare : writeKey name = name.toList) (lacks : before.Lacks table)
    (fresh : name ∉ settings.map (·.1)) :
    Goes (writeSetting writeText name setting) (within before table settings)
      (within before table (settings ++ [(name, setting.map fun text => .value (.text text))])) :=
  goes_writeSetting settings name setting (fun text _ => reads_writeText _ text) bare lacks fresh

theorem goes_count (name : String) (setting : Option Nat)
    (bare : writeKey name = name.toList) (lacks : before.Lacks table)
    (fresh : name ∉ settings.map (·.1)) (fits : Fits setting.toList) :
    Goes (writeSetting Text.digitsOfNumber name setting) (within before table settings)
      (within before table
        (settings ++ [(name, setting.map fun count : Nat => .value (.integer count))])) :=
  goes_writeSetting settings name setting
    (fun count isCount => reads_digitsOfNumber _ (fits count (Option.mem_toList.mpr isCount)))
    bare lacks fresh

theorem return_not_mem_text (name : String) (setting : Option String)
    (plain : '\r' ∉ name.toList) : '\r' ∉ writeSetting writeText name setting :=
  return_not_mem_writeSetting plain return_not_mem_writeText

theorem return_not_mem_count (name : String) (setting : Option Nat)
    (plain : '\r' ∉ name.toList) : '\r' ∉ writeSetting Text.digitsOfNumber name setting :=
  return_not_mem_writeSetting plain return_not_mem_digitsOfNumber

end Lines

namespace SchedulerSection

variable {part : SchedulerSection}

def settings (part : SchedulerSection) : List (String × Option Item) :=
  [("kind", some (.value (.text part.kind.name))),
    ("hash", part.hash.map fun hash => .value (.text hash)),
    ("hosts", part.hosts.map fun hosts => .value (textsValue hosts)),
    ("bucket_count", part.bucketCount.map fun count : Nat => .value (.integer count)),
    ("buckets", part.buckets.map fun buckets => Fields.opened (indexFields buckets.entries))]

theorem fits_entry (fits : Fits (part.assignment.flatMap (·.2))) :
    ∀ buckets ∈ part.buckets, ∀ entry ∈ buckets.entries, Fits entry.2 := by
  intro buckets isBuckets entry member count isCount
  apply fits count
  rw [assignment, isBuckets]
  exact List.mem_flatMap.mpr ⟨entry, member, isCount⟩

theorem goes_writeIndices {before between : Fields} {outer table : String}
    (lacksOuter : before.Lacks outer) (lacksTable : between.Lacks table)
    (first : List (String × List Nat)) {last : List (String × List Nat)}
    (fits : ∀ entry ∈ last, Fits entry.2)
    (distinct : ((first ++ last).map (·.1)).Nodup) :
    Goes (last.flatMap fun entry =>
        writeField (writeKey entry.1) (writeList (entry.2.map Text.digitsOfNumber)))
      ⟨before ++ [(outer, Fields.opened (between ++ [(table, Fields.opened (indexFields first))]))],
        [outer, table]⟩
      ⟨before ++ [(outer,
        Fields.opened (between ++ [(table, Fields.opened (indexFields (first ++ last)))]))],
        [outer, table]⟩ := by
  induction last generalizing first with
  | nil =>
      rw [List.append_nil]
      exact goes_nil _
  | cons entry last ih =>
      obtain ⟨fitsEntry, fitsLast⟩ := List.forall_mem_cons.mp fits
      have fresh : (indexFields first).Lacks entry.1 := by
        intro field member
        obtain ⟨earlier, isEarlier, rfl⟩ := List.mem_map.mp member
        rw [List.map_append, List.nodup_append] at distinct
        exact distinct.2.2 _ (List.mem_map_of_mem isEarlier) _ List.mem_cons_self
      have line := goes_writeField (reads_writeIndices fitsEntry)
        (Fields.defineIn?_last_last lacksOuter lacksTable fresh (indicesValue entry.2))
      have regrouped : first ++ entry :: last = (first ++ [entry]) ++ last := by simp
      have extended : indexFields (first ++ [entry]) =
          indexFields first ++ [(entry.1, .value (indicesValue entry.2))] := by
        simp [indexFields]
      rw [regrouped] at distinct ⊢
      rw [List.flatMap_cons]
      rw [← extended] at line
      exact line.append (ih _ fitsLast distinct)

theorem goes_writtenBuckets {settings : List (String × Option Item)}
    {buckets : Option (Dictionary (List Nat))} (fresh : "buckets" ∉ settings.map (·.1))
    (fits : ∀ assignment ∈ buckets, ∀ entry ∈ assignment.entries, Fits entry.2) :
    ∃ opened, Goes (writtenBuckets buckets) (within [] "scheduler" settings)
      ⟨(within [] "scheduler" (settings ++ [("buckets",
        buckets.map fun buckets => Fields.opened (indexFields buckets.entries))])).fields,
        opened⟩ := by
  have lacksOuter : Fields.Lacks [] "scheduler" := fun _ member => nomatch member
  rw [within, within, fieldsOf_append]
  cases buckets with
  | none =>
      refine ⟨["scheduler"], ?_⟩
      have nothing : fieldsOf [("buckets", none)] = [] := rfl
      rw [Option.map_none, nothing, List.append_nil]
      exact goes_nil _
  | some buckets =>
      refine ⟨["scheduler", "buckets"], ?_⟩
      have lacksTable := lacks_fieldsOf fresh
      have distinct : (buckets.entries.map (·.1)).Nodup := by
        rw [List.Nodup, List.pairwise_map]
        exact buckets.ascending.imp Std.ne_of_lt
      have blank := goes_break (within [] "scheduler" settings)
      have belowTop : ["scheduler"].length < nestingLimit - 1 := by decide
      have header := goes_writeHeader belowTop (Fields.openTable?_last lacksOuter lacksTable)
        ["scheduler"]
      have lines := goes_writeIndices lacksOuter lacksTable [] (fits _ rfl) distinct
      exact (blank.append header).append lines

theorem goes_written (fits : Fits (part.bucketCount.toList ++ part.assignment.flatMap (·.2))) :
    ∃ opened, Goes part.written ⟨[], []⟩
      ⟨(within [] "scheduler" part.settings).fields, opened⟩ := by
  obtain ⟨fitsCount, fitsBuckets⟩ := fits_append.mp fits
  have lacks : Fields.Lacks [] "scheduler" := fun _ member => nomatch member
  have header := goes_writeTable (by decide) lacks []
  have kind := goes_text [] "kind" (some part.kind.name) (by decide) lacks (by simp)
  have hash := goes_text (part.settings.take 1) "hash" part.hash (by decide) lacks
    (by simp [settings])
  have hosts := goes_writeSetting (part.settings.take 2) "hosts" part.hosts
    (fun texts _ => reads_writeTexts texts) (by decide) lacks (by simp [settings])
  have bucketCount := goes_count (part.settings.take 3) "bucket_count" part.bucketCount
    (by decide) lacks (by simp [settings]) fitsCount
  have fresh : "buckets" ∉ (part.settings.take 4).map (·.1) := by simp [settings]
  obtain ⟨opened, buckets⟩ := goes_writtenBuckets fresh (fits_entry fitsBuckets)
  exact ⟨opened,
    ((((header.append kind).append hash).append hosts).append bucketCount).append buckets⟩

theorem scheduler?_settings
    (fits : Fits (part.bucketCount.toList ++ part.assignment.flatMap (·.2))) :
    Format.toml.scheduler? (.table (Item.fieldValues (fieldsOf part.settings))) = some part := by
  obtain ⟨fitsCount, fitsBuckets⟩ := fits_append.mp fits
  have distinct : (part.settings.map (·.1)).Nodup :=
    (by decide : ["kind", "hash", "hosts", "bucket_count", "buckets"].Nodup)
  have kind := field?_fieldsOf distinct
    (by simp [settings] : ("kind", some (.value (.text part.kind.name))) ∈ part.settings)
  have hash := optional?_text "hash" part.hash distinct (by simp [settings])
  have hosts : optional? (list? text?) (Item.fieldValues (fieldsOf part.settings)) "hosts" =
      some part.hosts :=
    optional?_fieldsOf (fun hosts => .value (textsValue hosts)) distinct (by simp [settings]) nofun
      fun hosts _ => list?_texts hosts
  have bucketCount := optional?_count "bucket_count" part.bucketCount distinct
    (by simp [settings]) fitsCount
  have buckets : optional? (dictionary? (list? count?)) (Item.fieldValues (fieldsOf part.settings))
      "buckets" = some part.buckets :=
    optional?_fieldsOf (fun buckets => Fields.opened (indexFields buckets.entries)) distinct
      (by simp [settings]) nofun fun buckets isBuckets =>
        dictionary?_indexFields (fits_entry fitsBuckets buckets isBuckets)
  have kindRead : Format.toml.kind? (.text part.kind.name) = some part.kind := by
    cases part.kind <;> rfl
  simp only [Format.scheduler?, Format.fields?, Option.bind_eq_bind, Option.bind_some, kind,
    Option.map_some, Item.toValue, kindRead, hash, hosts, bucketCount, buckets]
  rfl

theorem return_not_mem_writtenBuckets (buckets : Option (Dictionary (List Nat))) :
    '\r' ∉ writtenBuckets buckets := by
  cases buckets with
  | none => exact List.not_mem_nil
  | some buckets =>
      rw [writtenBuckets, List.mem_append, not_or]
      constructor
      · decide
      · rw [List.mem_flatMap]
        rintro ⟨entry, -, member⟩
        exact return_not_mem_writeField (return_not_mem_writeKey entry.1)
          (return_not_mem_writeIndices entry.2) member

theorem return_not_mem_written (part : SchedulerSection) : '\r' ∉ part.written := by
  have kind := return_not_mem_text "kind" (some part.kind.name) (by decide)
  have hash := return_not_mem_text "hash" part.hash (by decide)
  have hosts : '\r' ∉ writeSetting writeTexts "hosts" part.hosts :=
    return_not_mem_writeSetting (by decide) return_not_mem_writeTexts
  have bucketCount := return_not_mem_count "bucket_count" part.bucketCount (by decide)
  have buckets := return_not_mem_writtenBuckets part.buckets
  simp only [written, List.mem_append, not_or]
  exact ⟨⟨⟨⟨⟨by decide, kind⟩, hash⟩, hosts⟩, bucketCount⟩, buckets⟩

end SchedulerSection

namespace DiscoverySection

variable {part : DiscoverySection}

def settings (part : DiscoverySection) : List (String × Option Item) :=
  [("enabled", part.enabled.map fun enabled => .value (.boolean enabled)),
    ("interval", part.interval.map fun interval => .value (.text interval)),
    ("mailbox", part.mailbox.map fun mailbox : Nat => .value (.integer mailbox))]

theorem goes_written (fits : Fits part.mailbox.toList) {before : Fields}
    (lacks : before.Lacks "discovery") (opened : List String) :
    Goes part.written ⟨before, opened⟩ (within before "discovery" part.settings) := by
  have blank := goes_break ⟨before, opened⟩
  have header := goes_writeTable (by decide) lacks opened
  have enabled := goes_writeSetting [] "enabled" part.enabled
    (fun value _ => reads_boolean _ value) (by decide) lacks (by simp)
  have interval := goes_text (part.settings.take 1) "interval" part.interval (by decide) lacks
    (by simp [settings])
  have mailbox := goes_count (part.settings.take 2) "mailbox" part.mailbox (by decide) lacks
    (by simp [settings]) fits
  exact (((blank.append header).append enabled).append interval).append mailbox

theorem discovery?_settings (fits : Fits part.mailbox.toList) :
    Format.toml.discovery? (.table (Item.fieldValues (fieldsOf part.settings))) = some part := by
  have distinct : (part.settings.map (·.1)).Nodup :=
    (by decide : ["enabled", "interval", "mailbox"].Nodup)
  have enabled : optional? boolean? (Item.fieldValues (fieldsOf part.settings)) "enabled" =
      some part.enabled :=
    optional?_fieldsOf (fun enabled => .value (.boolean enabled)) distinct (by simp [settings])
      nofun fun _ _ => rfl
  have interval := optional?_text "interval" part.interval distinct (by simp [settings])
  have mailbox := optional?_count "mailbox" part.mailbox distinct (by simp [settings]) fits
  simp only [Format.discovery?, Format.fields?, Option.bind_eq_bind, Option.bind_some, enabled,
    interval, mailbox]
  rfl

theorem return_not_mem_written (part : DiscoverySection) : '\r' ∉ part.written := by
  have enabled : '\r' ∉ writeSetting writeBoolean "enabled" part.enabled :=
    return_not_mem_writeSetting (by decide) (by decide)
  have interval := return_not_mem_text "interval" part.interval (by decide)
  have mailbox := return_not_mem_count "mailbox" part.mailbox (by decide)
  simp only [written, List.mem_append, not_or]
  exact ⟨⟨⟨by decide, enabled⟩, interval⟩, mailbox⟩

end DiscoverySection

namespace HostSection

def settings (part : HostSection) : List (String × Option Item) :=
  [("timeout", part.timeout.map fun timeout => .value (.text timeout))]

theorem goes_render (part : HostSection) {before : Fields} (lacks : before.Lacks "host")
    (opened : List String) :
    Goes part.render ⟨before, opened⟩ (within before "host" part.settings) := by
  have blank := goes_break ⟨before, opened⟩
  have header := goes_writeTable (by decide) lacks opened
  have timeout := goes_text [] "timeout" part.timeout (by decide) lacks (by simp)
  exact (blank.append header).append timeout

theorem host?_settings (part : HostSection) :
    Format.toml.host? (.table (Item.fieldValues (fieldsOf part.settings))) = some part := by
  have distinct : (part.settings.map (·.1)).Nodup := List.nodup_singleton _
  have timeout := optional?_text "timeout" part.timeout distinct (by simp [settings])
  simp only [Format.host?, Format.fields?, Option.bind_eq_bind, Option.bind_some, timeout]
  rfl

theorem return_not_mem_render (part : HostSection) : '\r' ∉ part.render := by
  have timeout := return_not_mem_text "timeout" part.timeout (by decide)
  simp only [render, List.mem_append, not_or]
  exact ⟨by decide, timeout⟩

end HostSection

namespace LogSection

def settings (part : LogSection) : List (String × Option Item) :=
  [("filter", part.filter.map fun filter => .value (.text filter)),
    ("access", part.access.map fun path => .value (.text path)),
    ("error", part.error.map fun path => .value (.text path))]

theorem goes_render (part : LogSection) {before : Fields} (lacks : before.Lacks "log")
    (opened : List String) :
    Goes part.render ⟨before, opened⟩ (within before "log" part.settings) := by
  have blank := goes_break ⟨before, opened⟩
  have header := goes_writeTable (by decide) lacks opened
  have filter := goes_text [] "filter" part.filter (by decide) lacks (by simp)
  have access := goes_text (part.settings.take 1) "access" part.access (by decide) lacks
    (by simp [settings])
  have error := goes_text (part.settings.take 2) "error" part.error (by decide) lacks
    (by simp [settings])
  exact (((blank.append header).append filter).append access).append error

theorem log?_settings (part : LogSection) :
    Format.toml.log? (.table (Item.fieldValues (fieldsOf part.settings))) = some part := by
  have distinct : (part.settings.map (·.1)).Nodup :=
    (by decide : ["filter", "access", "error"].Nodup)
  have filter := optional?_text "filter" part.filter distinct (by simp [settings])
  have access := optional?_text "access" part.access distinct (by simp [settings])
  have error := optional?_text "error" part.error distinct (by simp [settings])
  simp only [Format.log?, Format.fields?, Option.bind_eq_bind, Option.bind_some, filter, access,
    error]
  rfl

theorem return_not_mem_render (part : LogSection) : '\r' ∉ part.render := by
  have filter := return_not_mem_text "filter" part.filter (by decide)
  have access := return_not_mem_text "access" part.access (by decide)
  have error := return_not_mem_text "error" part.error (by decide)
  simp only [render, List.mem_append, not_or]
  exact ⟨⟨⟨by decide, filter⟩, access⟩, error⟩

end LogSection

end Config

end CacheRouting
