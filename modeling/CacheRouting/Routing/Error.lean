import CacheRouting.Config.Validate

/-!
# What building a scheduler comes to

Building ends with a scheduler or with an error that tells why there is none.  It can
also break off without either: a mailbox larger than any can be is not refused, the
attempt to make it is what goes wrong.
-/

namespace CacheRouting

inductive SchedulerError
  | unknownHashMethod (name : String)
  | noHosts
  | duplicateHost (address : String)
  | invalidBucketCount (count : Nat)
  | emptyBucket (bucket : Nat)
  | unsortedRing
  | noRuntime
  | config (error : ConfigError)
  deriving DecidableEq, Repr

namespace SchedulerError

def message : SchedulerError → String
  | unknownHashMethod name => "unknown hash method: " ++ name
  | noHosts => "scheduler needs at least one host"
  | duplicateHost address => "duplicate host address: " ++ address
  | invalidBucketCount count =>
      "bucket count must be a power of two in [1, 65536], got " ++ toString count
  | emptyBucket bucket => "bucket " ++ toString bucket ++ " has no hosts assigned"
  | unsortedRing => "consistent-hash ring is not sorted after construction"
  | noRuntime => "auto scheduler must be created inside a tokio runtime"
  | config error => "invalid configuration: " ++ error.message

end SchedulerError

/-- What building something comes to. -/
inductive Construction (Result : Type)
  | ok (result : Result)
  | error (error : SchedulerError)
  /-- Building breaks off. -/
  | broken
  deriving DecidableEq

namespace Construction

variable {Result Other : Type}

def ofExcept : Except SchedulerError Result → Construction Result
  | .ok result => ok result
  | .error reason => error reason

def map (make : Result → Other) : Construction Result → Construction Other
  | ok result => ok (make result)
  | error reason => error reason
  | broken => broken

@[simp]
theorem ofExcept_eq_ok_iff {outcome : Except SchedulerError Result} {result : Result} :
    ofExcept outcome = ok result ↔ outcome = .ok result := by
  cases outcome <;> simp [ofExcept]

@[simp]
theorem ofExcept_eq_error_iff {outcome : Except SchedulerError Result} {reason : SchedulerError} :
    ofExcept outcome = error reason ↔ outcome = .error reason := by
  cases outcome <;> simp [ofExcept]

@[simp]
theorem ofExcept_ne_broken (outcome : Except SchedulerError Result) : ofExcept outcome ≠ broken := by
  cases outcome <;> simp [ofExcept]

theorem map_eq_ok_iff {make : Result → Other} {construction : Construction Result} {other : Other} :
    construction.map make = ok other ↔ ∃ result, construction = ok result ∧ make result = other := by
  cases construction <;> simp [map]

@[simp]
theorem map_eq_error_iff {make : Result → Other} {construction : Construction Result}
    {reason : SchedulerError} : construction.map make = error reason ↔ construction = error reason := by
  cases construction <;> simp [map]

@[simp]
theorem map_eq_broken_iff {make : Result → Other} {construction : Construction Result} :
    construction.map make = broken ↔ construction = broken := by
  cases construction <;> simp [map]

end Construction

def HashMethod.ofName (name : String) : Except SchedulerError HashMethod :=
  match ofName? name with
  | some method => .ok method
  | none => .error (.unknownHashMethod name)

end CacheRouting
