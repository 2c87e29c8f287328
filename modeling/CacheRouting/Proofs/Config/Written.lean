import CacheRouting.Config.Render
import CacheRouting.Proofs.Sequence

/-!
# Which configurations are written

Nothing but a count can keep a configuration from being written, and it does when
it is larger than any integer of a document.
-/

namespace CacheRouting

namespace Config

open Document.Toml

def counts (config : Config) : List Nat :=
  config.scheduler.bucketCount.toList ++ config.scheduler.assignment.flatMap (·.2) ++
    config.discovery.mailbox.toList

def Fits (counts : List Nat) : Prop :=
  ∀ count ∈ counts, count ≤ largestInteger

instance (counts : List Nat) : Decidable (Fits counts) :=
  inferInstanceAs (Decidable (∀ count ∈ counts, count ≤ largestInteger))

theorem fits_append {first second : List Nat} :
    Fits (first ++ second) ↔ Fits first ∧ Fits second :=
  List.forall_mem_append

theorem writeInteger?_eq (count : Nat) :
    writeInteger? count = if count ≤ largestInteger then some (Text.digitsOfNumber count) else none :=
  rfl

theorem writeCount?_eq (name : String) (count : Option Nat) :
    writeCount? name count =
      if Fits count.toList then some (writeSetting Text.digitsOfNumber name count) else none := by
  cases count with
  | none => rfl
  | some count =>
      by_cases fits : count ≤ largestInteger
      · simp [writeCount?, writeInteger?_eq, Fits, fits, writeSetting]
      · simp [writeCount?, writeInteger?_eq, Fits, fits]

theorem writeIndices?_eq (indices : List Nat) :
    writeIndices? indices =
      if Fits indices then some (writeList (indices.map Text.digitsOfNumber)) else none := by
  split
  · next fits =>
    have written : indices.mapM writeInteger? = some (indices.map Text.digitsOfNumber) :=
      mapM_eq_some fun count member => if_pos (fits count member)
    rw [writeIndices?, written]
    rfl
  · next tooLarge =>
    obtain ⟨count, member, exceeds⟩ : ∃ count ∈ indices, ¬ count ≤ largestInteger := by
      simpa [Fits] using tooLarge
    rw [writeIndices?, mapM_eq_none member (if_neg exceeds)]
    rfl

def writtenBuckets : Option (Dictionary (List Nat)) → List Char
  | none => []
  | some buckets =>
      '\n' :: writeHeader ["scheduler".toList, "buckets".toList] ++
        buckets.entries.flatMap fun entry =>
          writeField (writeKey entry.1) (writeList (entry.2.map Text.digitsOfNumber))

theorem writeBuckets?_eq (buckets : Option (Dictionary (List Nat))) :
    writeBuckets? buckets =
      if Fits (((buckets.map (·.entries)).getD []).flatMap (·.2)) then some (writtenBuckets buckets)
      else none := by
  cases buckets with
  | none => rfl
  | some buckets =>
      simp only [Option.map_some, Option.getD_some]
      split
      · next fits =>
        have written : buckets.entries.mapM (fun entry =>
            (writeIndices? entry.2).map (writeField (writeKey entry.1))) =
              some (buckets.entries.map fun entry =>
                writeField (writeKey entry.1) (writeList (entry.2.map Text.digitsOfNumber))) := by
          apply mapM_eq_some
          intro entry member
          have fitsEntry : Fits entry.2 := fun count isCount =>
            fits count (List.mem_flatMap.mpr ⟨entry, member, isCount⟩)
          rw [writeIndices?_eq, if_pos fitsEntry]
          rfl
        rw [writeBuckets?, written, Option.map_some, writtenBuckets, List.flatMap_def]
      · next tooLarge =>
        obtain ⟨count, inBuckets, exceeds⟩ :
            ∃ count ∈ buckets.entries.flatMap (·.2), ¬ count ≤ largestInteger := by
          simpa only [Fits, Classical.not_forall, exists_prop] using tooLarge
        obtain ⟨entry, member, isCount⟩ := List.mem_flatMap.mp inBuckets
        have notFits : ¬ Fits entry.2 := fun fits => exceeds (fits count isCount)
        have fails : (writeIndices? entry.2).map (writeField (writeKey entry.1)) = none := by
          rw [writeIndices?_eq, if_neg notFits]
          rfl
        rw [writeBuckets?, mapM_eq_none member fails]
        rfl

def SchedulerSection.written (part : SchedulerSection) : List Char :=
  writeHeader ["scheduler".toList] ++ writeField "kind".toList (writeText part.kind.name) ++
    writeSetting writeText "hash" part.hash ++ writeSetting writeTexts "hosts" part.hosts ++
    writeSetting Text.digitsOfNumber "bucket_count" part.bucketCount ++ writtenBuckets part.buckets

def DiscoverySection.written (part : DiscoverySection) : List Char :=
  '\n' :: writeHeader ["discovery".toList] ++ writeSetting writeBoolean "enabled" part.enabled ++
    writeSetting writeText "interval" part.interval ++
    writeSetting Text.digitsOfNumber "mailbox" part.mailbox

def written (config : Config) : List Char :=
  config.scheduler.written ++ config.discovery.written ++ config.host.render ++ config.log.render

theorem SchedulerSection.render?_eq (part : SchedulerSection) :
    part.render? = if Fits (part.bucketCount.toList ++ part.assignment.flatMap (·.2)) then
      some part.written else none := by
  rw [render?, writeCount?_eq, writeBuckets?_eq]
  by_cases countFits : Fits part.bucketCount.toList
  · by_cases bucketsFit : Fits (part.assignment.flatMap (·.2))
    · have both := fits_append.mpr ⟨countFits, bucketsFit⟩
      rw [if_pos countFits, if_pos both]
      rw [assignment] at bucketsFit
      rw [if_pos bucketsFit]
      rfl
    · have notBoth : ¬ Fits (part.bucketCount.toList ++ part.assignment.flatMap (·.2)) :=
        fun both => bucketsFit (fits_append.mp both).2
      rw [if_pos countFits, if_neg notBoth]
      rw [assignment] at bucketsFit
      rw [if_neg bucketsFit]
      rfl
  · have notBoth : ¬ Fits (part.bucketCount.toList ++ part.assignment.flatMap (·.2)) :=
      fun both => countFits (fits_append.mp both).1
    rw [if_neg countFits, if_neg notBoth]
    rfl

theorem DiscoverySection.render?_eq (part : DiscoverySection) :
    part.render? = if Fits part.mailbox.toList then some part.written else none := by
  rw [render?, writeCount?_eq]
  split <;> rfl

theorem render?_eq (config : Config) :
    config.render? = if Fits config.counts then some (String.ofList config.written) else none := by
  rw [render?, SchedulerSection.render?_eq, DiscoverySection.render?_eq]
  by_cases schedulerFits :
      Fits (config.scheduler.bucketCount.toList ++ config.scheduler.assignment.flatMap (·.2))
  · by_cases mailboxFits : Fits config.discovery.mailbox.toList
    · have all : Fits config.counts := fits_append.mpr ⟨schedulerFits, mailboxFits⟩
      rw [if_pos schedulerFits, if_pos mailboxFits, if_pos all]
      rfl
    · have notAll : ¬ Fits config.counts := fun all => mailboxFits (fits_append.mp all).2
      rw [if_pos schedulerFits, if_neg mailboxFits, if_neg notAll]
      rfl
  · have notAll : ¬ Fits config.counts := fun all => schedulerFits (fits_append.mp all).1
    rw [if_neg schedulerFits, if_neg notAll]
    rfl

end Config

end CacheRouting
