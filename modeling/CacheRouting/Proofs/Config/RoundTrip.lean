import CacheRouting.Proofs.Config.Settings
import Mathlib.Algebra.Group.Nat.Defs

/-!
# Configurations survive being written

A configuration whose counts fit into a document is written, and the document is
read back as the same configuration, whatever its texts, lists and assignments are.
-/

namespace CacheRouting

namespace Config

open Document.Toml

def sections (config : Config) : List (String × Option Item) :=
  [("scheduler", some (Fields.opened (fieldsOf config.scheduler.settings))),
    ("discovery", some (Fields.opened (fieldsOf config.discovery.settings))),
    ("host", some (Fields.opened (fieldsOf config.host.settings))),
    ("log", some (Fields.opened (fieldsOf config.log.settings)))]

theorem fits_counts {config : Config} (fits : Fits config.counts) :
    Fits (config.scheduler.bucketCount.toList ++ config.scheduler.assignment.flatMap (·.2)) ∧
      Fits config.discovery.mailbox.toList :=
  fits_append.mp fits

/-- The sections are read one after the other. -/
theorem goes_written {config : Config} (fits : Fits config.counts) :
    ∃ opened, Goes config.written ⟨[], []⟩ ⟨fieldsOf config.sections, opened⟩ := by
  obtain ⟨fitsScheduler, fitsMailbox⟩ := fits_counts fits
  obtain ⟨opened, scheduler⟩ := SchedulerSection.goes_written fitsScheduler
  have lacksDiscovery : (fieldsOf (config.sections.take 1)).Lacks "discovery" :=
    lacks_fieldsOf (by simp [sections])
  have lacksHost : (fieldsOf (config.sections.take 2)).Lacks "host" :=
    lacks_fieldsOf (by simp [sections])
  have lacksLog : (fieldsOf (config.sections.take 3)).Lacks "log" :=
    lacks_fieldsOf (by simp [sections])
  have discovery := DiscoverySection.goes_written fitsMailbox lacksDiscovery opened
  have host := HostSection.goes_render config.host lacksHost ["discovery"]
  have log := LogSection.goes_render config.log lacksLog ["host"]
  exact ⟨["log"], ((scheduler.append discovery).append host).append log⟩

theorem ofValue?_sections {config : Config} (fits : Fits config.counts) :
    ofValue? .toml (.table (Item.fieldValues (fieldsOf config.sections))) = some config := by
  obtain ⟨fitsScheduler, fitsMailbox⟩ := fits_counts fits
  have distinct : (config.sections.map (·.1)).Nodup :=
    (by decide : ["scheduler", "discovery", "host", "log"].Nodup)
  have scheduler := field?_fieldsOf distinct (List.mem_of_getElem? (i := 0) rfl)
  have discovery := field?_fieldsOf distinct (List.mem_of_getElem? (i := 1) rfl)
  have host := field?_fieldsOf distinct (List.mem_of_getElem? (i := 2) rfl)
  have log := field?_fieldsOf distinct (List.mem_of_getElem? (i := 3) rfl)
  simp only [ofValue?, Format.fields?, section?, Option.bind_eq_bind, Option.bind_some, scheduler,
    discovery, host, log, Option.map_some, Fields.opened, Item.toValue,
    SchedulerSection.scheduler?_settings fitsScheduler,
    DiscoverySection.discovery?_settings fitsMailbox, HostSection.host?_settings,
    LogSection.log?_settings]
  rfl

theorem return_not_mem_written (config : Config) : '\r' ∉ config.written := by
  have scheduler := config.scheduler.return_not_mem_written
  have discovery := config.discovery.return_not_mem_written
  have host := config.host.return_not_mem_render
  have log := config.log.return_not_mem_render
  simp only [written, List.mem_append, not_or]
  exact ⟨⟨⟨scheduler, discovery⟩, host⟩, log⟩

/-- What is written for a configuration is read as the configuration. -/
theorem read?_written {config : Config} (fits : Fits config.counts) :
    read? (String.ofList config.written) = some config := by
  obtain ⟨opened, goes⟩ := goes_written fits
  have noMark : ∀ more, config.written ≠ '\ufeff' :: more := nofun
  rw [read?, read?_of_goes goes (return_not_mem_written config) noMark, Option.bind_some]
  exact ofValue?_sections fits

/-- A configuration whose counts fit into a document is written, and reading the document
gives the configuration back.  Loading it accepts and refuses what checking the original
does.  A count that does not fit keeps the configuration from being written. -/
theorem survives_rendering (config : Config) :
    ((∀ count ∈ config.counts, count ≤ 2 ^ 63 - 1) →
      ∃ text, config.render? = some text ∧ read? text = some config ∧
        (config.validate = .ok () → parse text = .ok config) ∧
        ∀ error, config.validate = .error error → parse text = .error (.refused error)) ∧
      ((∃ count ∈ config.counts, 2 ^ 63 - 1 < count) → config.render? = none) := by
  have limit : largestInteger = 2 ^ 63 - 1 := by decide
  rw [← limit]
  constructor
  · intro fits
    have fits : Fits config.counts := fits
    have read := read?_written fits
    refine ⟨String.ofList config.written, ?_, read, ?_, ?_⟩
    · rw [render?_eq, if_pos fits]
    · intro accepted
      rw [parse, read]
      simp only [accepted]
    · intro error refused
      rw [parse, read]
      simp only [refused]
  · rintro ⟨count, member, exceeds⟩
    have notFits : ¬ Fits config.counts := fun fits => Nat.not_le_of_lt exceeds (fits count member)
    rw [render?_eq, if_neg notFits]

/-- A manual configuration with texts that each need another form, two hosts in a list of
quotes only, and an assignment to an empty name and to one that needs escapes. -/
def knotted : Config where
  scheduler := {
    kind := .manual
    hash := some "\r\n'''\"\"\"\\"
    hosts := some ["'", "\"\"\"\n"]
    bucketCount := some (2 ^ 63 - 1)
    buckets := some (Dictionary.ofList [("", []), ("a.b \"'\n", [0, 7])]) }
  discovery := { enabled := some false, interval := some "10s", mailbox := some 1 }
  host := { timeout := none }
  log := { filter := some "", access := some "C:\\log\t", error := some "\u007f" }

theorem survives_rendering_of_knotted :
    (∃ text, knotted.render? = some text ∧ parse text = .ok knotted) ∧
      (∃ text, { knotted with discovery.mailbox := some 0 }.render? = some text ∧
        parse text = .error (.refused .emptyMailbox)) ∧
      { knotted with discovery.mailbox := some (2 ^ 63) }.render? = none := by
  refine ⟨?_, ?_, ?_⟩
  · obtain ⟨text, written, -, accepted, -⟩ := (survives_rendering knotted).1 (by decide)
    exact ⟨text, written, accepted (by decide)⟩
  · obtain ⟨text, written, -, -, refused⟩ :=
      (survives_rendering { knotted with discovery.mailbox := some 0 }).1 (by decide)
    exact ⟨text, written, refused _ (by decide)⟩
  · exact (survives_rendering { knotted with discovery.mailbox := some (2 ^ 63) }).2
      ⟨2 ^ 63, by decide, by decide⟩

end Config

end CacheRouting
