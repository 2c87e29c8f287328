import CacheRouting.Config.Basic
import CacheRouting.Document.Toml.Writer

/-!
# Configurations as text

A configuration is written as a TOML document, one table for each section and
one more for the manual assignment.  Settings that are absent are left out.
Writing fails only when a count is too large for a document.
-/

namespace CacheRouting

namespace Config

open Document.Toml

def writeSetting {Setting : Type} (write : Setting → List Char) (name : String) :
    Option Setting → List Char
  | none => []
  | some setting => writeField name.toList (write setting)

def writeCount? (name : String) : Option Nat → Option (List Char)
  | none => some []
  | some count => (writeInteger? count).map (writeField name.toList)

def writeBoolean (value : Bool) : List Char :=
  if value then "true".toList else "false".toList

def writeTexts (texts : List String) : List Char :=
  writeList (texts.map writeText)

def writeIndices? (indices : List Nat) : Option (List Char) :=
  (indices.mapM writeInteger?).map writeList

def writeBuckets? : Option (Dictionary (List Nat)) → Option (List Char)
  | none => some []
  | some buckets =>
      (buckets.entries.mapM fun entry =>
        (writeIndices? entry.2).map (writeField (writeKey entry.1))).map fun lines =>
          '\n' :: writeHeader ["scheduler".toList, "buckets".toList] ++ lines.flatten

def SchedulerSection.render? (part : SchedulerSection) : Option (List Char) := do
  let bucketCount ← writeCount? "bucket_count" part.bucketCount
  let buckets ← writeBuckets? part.buckets
  pure (writeHeader ["scheduler".toList] ++
    writeField "kind".toList (writeText part.kind.name) ++
    writeSetting writeText "hash" part.hash ++
    writeSetting writeTexts "hosts" part.hosts ++ bucketCount ++ buckets)

def DiscoverySection.render? (part : DiscoverySection) : Option (List Char) := do
  let mailbox ← writeCount? "mailbox" part.mailbox
  pure ('\n' :: writeHeader ["discovery".toList] ++
    writeSetting writeBoolean "enabled" part.enabled ++
    writeSetting writeText "interval" part.interval ++ mailbox)

def HostSection.render (part : HostSection) : List Char :=
  '\n' :: writeHeader ["host".toList] ++ writeSetting writeText "timeout" part.timeout

def LogSection.render (part : LogSection) : List Char :=
  '\n' :: writeHeader ["log".toList] ++
    writeSetting writeText "filter" part.filter ++
    writeSetting writeText "access" part.access ++
    writeSetting writeText "error" part.error

def render? (config : Config) : Option String := do
  let scheduler ← config.scheduler.render?
  let discovery ← config.discovery.render?
  pure (String.ofList (scheduler ++ discovery ++ config.host.render ++ config.log.render))

end Config

end CacheRouting
