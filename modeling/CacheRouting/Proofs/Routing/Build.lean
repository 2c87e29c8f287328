import CacheRouting.Proofs.Auto.Router
import CacheRouting.Proofs.Config.Validation
import CacheRouting.Proofs.Routing.Assignment
import CacheRouting.Proofs.Routing.Successor
import CacheRouting.Proofs.Text.ByteOrder
import CacheRouting.Routing.Build

/-!
# Why a scheduler is refused

A section is checked before its hash method is looked up, and that before the
router of its kind is built.  What a router asks of its hosts overlaps with the
checks made before, so most of its own refusals are never seen: a section that
passes is refused for a repeated host, for a bucket past the allowed ones or for
a bucket nobody serves, and for nothing else.  No check looks at the size of the
mailbox: building breaks off when one that is too large is made.
-/

namespace CacheRouting

theorem HashMethod.ofName_eq_ok_iff {name : String} {method : HashMethod} :
    ofName name = .ok method ↔ method.name = name := by
  constructor
  · intro found
    unfold ofName at found
    split at found
    · next isFound =>
      cases found
      simpa using List.find?_some isFound
    · cases found
  · rintro rfl
    cases method <;> rfl

theorem HashMethod.mem_all (method : HashMethod) : method ∈ all := by
  cases method <;> decide

theorem HashMethod.ofName_of_notMem {name : String} (unknown : name ∉ all.map HashMethod.name) :
    ofName name = .error (.unknownHashMethod name) := by
  cases found : ofName name with
  | ok method =>
      rw [ofName_eq_ok_iff] at found
      exact absurd (List.mem_map.mpr ⟨method, mem_all method, found⟩) unknown
  | error error =>
      unfold ofName at found
      split at found
      · cases found
      · exact found.symm

namespace AutoRouter

def RepeatsFirst (hosts : List Host) (host : Host) : Prop :=
  ∃ before after, hosts = before ++ host :: after ∧ before.Nodup ∧ host ∈ before

theorem firstRepeated?_eq_some_iff {seen : List String} {hosts : List Host} {address : String} :
    firstRepeated? seen hosts = some address ↔
      ∃ before after, hosts = before ++ ⟨address⟩ :: after ∧ before.Nodup ∧
        (∀ earlier ∈ before, earlier.address ∉ seen) ∧ (address ∈ seen ∨ ⟨address⟩ ∈ before) := by
  induction hosts generalizing seen with
  | nil => simp [firstRepeated?]
  | cons host hosts ih =>
      rw [firstRepeated?]
      by_cases isSeen : host.address ∈ seen
      · rw [if_pos isSeen, Option.some.injEq]
        constructor
        · rintro rfl
          exact ⟨[], hosts, rfl, List.nodup_nil, by simp, Or.inl isSeen⟩
        · rintro ⟨before, after, hostsEq, -, notSeen, -⟩
          cases before with
          | nil =>
              obtain ⟨rfl, -⟩ := List.cons.inj hostsEq
              rfl
          | cons earlier before =>
              obtain ⟨rfl, -⟩ := List.cons.inj hostsEq
              exact absurd isSeen (notSeen host List.mem_cons_self)
      · rw [if_neg isSeen, ih]
        constructor
        · rintro ⟨before, after, rfl, distinct, notSeen, repeated⟩
          simp only [List.mem_cons, not_or] at notSeen
          have notEarlier : host ∉ before := fun member => (notSeen host member).1 rfl
          refine ⟨host :: before, after, rfl, distinct.cons notEarlier, ?_, ?_⟩
          · exact List.forall_mem_cons.mpr ⟨isSeen, fun earlier member => (notSeen earlier member).2⟩
          · rw [List.mem_cons] at repeated ⊢
            rcases repeated with (rfl | inSeen) | inBefore
            · exact Or.inr (Or.inl rfl)
            · exact Or.inl inSeen
            · exact Or.inr (Or.inr inBefore)
        · rintro ⟨before, after, hostsEq, distinct, notSeen, repeated⟩
          cases before with
          | nil =>
              obtain ⟨rfl, -⟩ := List.cons.inj hostsEq
              exact absurd (repeated.resolve_right List.not_mem_nil) isSeen
          | cons earlier before =>
              obtain ⟨rfl, rfl⟩ := List.cons.inj hostsEq
              obtain ⟨notEarlier, distinct⟩ := List.nodup_cons.mp distinct
              refine ⟨before, after, rfl, distinct, ?_, ?_⟩
              · intro later member
                rw [List.mem_cons, not_or]
                refine ⟨?_, notSeen later (List.mem_cons_of_mem _ member)⟩
                intro sameAddress
                rw [show later = host from congrArg Host.mk sameAddress] at member
                exact notEarlier member
              · rw [List.mem_cons] at repeated ⊢
                rcases repeated with inSeen | isHost | inBefore
                · exact Or.inl (Or.inr inSeen)
                · exact Or.inl (Or.inl (congrArg Host.address isHost))
                · exact Or.inr inBefore

theorem repeatsFirst_iff {hosts : List Host} {host : Host} :
    RepeatsFirst hosts host ↔ firstRepeated? [] hosts = some host.address := by
  simp [RepeatsFirst, firstRepeated?_eq_some_iff]

theorem not_repeatsFirst_iff {hosts : List Host} :
    (∀ host, ¬ RepeatsFirst hosts host) ↔ firstRepeated? [] hosts = none := by
  rw [Option.eq_none_iff_forall_ne_some]
  simp only [repeatsFirst_iff]
  exact ⟨fun noHost address => noHost ⟨address⟩, fun noAddress host => noAddress host.address⟩

theorem firstRepeated?_eq_none_iff {seen : List String} {hosts : List Host} :
    firstRepeated? seen hosts = none ↔
      hosts.Nodup ∧ ∀ host ∈ hosts, host.address ∉ seen := by
  induction hosts generalizing seen with
  | nil => simp [firstRepeated?]
  | cons host hosts ih =>
      rw [firstRepeated?]
      by_cases isSeen : host.address ∈ seen
      · simp [isSeen]
      · rw [if_neg isSeen, ih, List.nodup_cons, List.forall_mem_cons]
        simp only [List.mem_cons, not_or, isSeen, not_false_eq_true, true_and]
        constructor
        · rintro ⟨distinct, others⟩
          refine ⟨⟨fun member => (others host member).1 rfl, distinct⟩, ?_⟩
          exact fun other member => (others other member).2
        · rintro ⟨⟨notLater, distinct⟩, notSeen⟩
          refine ⟨distinct, fun other member => ⟨?_, notSeen other member⟩⟩
          intro sameAddress
          rw [show other = host from congrArg Host.mk sameAddress] at member
          exact notLater member

section Outcomes

variable {W : Type} [Weight W] {hosts : List Host} {bucketCount : Nat} {method : HashMethod}
  {options : AutoOptions} (accepted : Config.acceptsBucketCount bucketCount = true)
  (someHosts : hosts ≠ [])

include accepted someHosts

/-- Hosts are looked at before the mailbox is made. -/
theorem build_of_accepted :
    (build hosts bucketCount method options true : Construction (AutoRouter W)) =
      match firstRepeated? [] hosts with
      | some address => .error (.duplicateHost address)
      | none =>
          if Mailbox.maxCapacity < options.mailbox then .broken
          else
            .ok ⟨hosts, bucketCount, method,
              Dispatch.initial hosts.length bucketCount options.mailbox⟩ := by
  rw [build, if_neg (by simp [accepted]), if_neg (by simpa using someHosts)]
  rfl

theorem build_eq_error_iff {error : SchedulerError} :
    (build hosts bucketCount method options true : Construction (AutoRouter W)) = .error error ↔
      ∃ host, RepeatsFirst hosts host ∧ error = .duplicateHost host.address := by
  rw [build_of_accepted accepted someHosts]
  simp only [repeatsFirst_iff]
  cases firstRepeated? [] hosts with
  | none =>
      dsimp only
      split <;> simp
  | some address =>
      simp only [Construction.error.injEq, Option.some.injEq]
      constructor
      · rintro rfl
        exact ⟨⟨address⟩, rfl, rfl⟩
      · rintro ⟨host, rfl, rfl⟩
        rfl

theorem build_eq_broken_iff :
    (build hosts bucketCount method options true : Construction (AutoRouter W)) = .broken ↔
      hosts.Nodup ∧ Mailbox.maxCapacity < options.mailbox := by
  have distinct_iff : firstRepeated? [] hosts = none ↔ hosts.Nodup := by
    simp [firstRepeated?_eq_none_iff]
  rw [build_of_accepted accepted someHosts, ← distinct_iff]
  cases firstRepeated? [] hosts with
  | none => simp
  | some address => simp

end Outcomes

end AutoRouter

namespace Config.SchedulerSection

variable {part : SchedulerSection}

theorem configuredHosts_ne_nil (valid : part.validate = .ok ()) (notManual : part.kind ≠ .manual) :
    part.configuredHosts ≠ [] := by
  rw [configuredHosts, Ne, List.map_eq_nil_iff]
  exact (namesTargets_iff.mp (validate_eq_ok_iff.mp valid).1).2 notManual

theorem configuredAssignment_ne_nil (valid : part.validate = .ok ()) (isManual : part.kind = .manual) :
    part.configuredAssignment ≠ [] := by
  rw [configuredAssignment, Ne, List.map_eq_nil_iff]
  exact (namesTargets_iff.mp (validate_eq_ok_iff.mp valid).1).1 isManual

theorem acceptsBucketCount_of_validate (valid : part.validate = .ok ()) (isAuto : part.kind = .auto) :
    acceptsBucketCount part.effectiveBucketCount = true :=
  countsBuckets_iff.mp (validate_eq_ok_iff.mp valid).2 isAuto

/-- The addresses of an assignment are in ascending order. -/
theorem ascending_configuredAssignment (part : SchedulerSection) :
    part.configuredAssignment.Pairwise fun first second => first.1.address < second.1.address := by
  rw [configuredAssignment, List.pairwise_map, assignment]
  cases part.buckets with
  | none => exact .nil
  | some buckets => exact buckets.ascending

theorem nodup_configuredAssignment (part : SchedulerSection) :
    (part.configuredAssignment.map fun entry => entry.1.address).Nodup := by
  rw [List.Nodup, List.pairwise_map]
  refine part.ascending_configuredAssignment.imp ?_
  intro first second less same
  exact String.lt_irrefl _ (same ▸ less)

theorem nodup_configuredHosts_iff : part.configuredHosts.Nodup ↔ part.hostList.Nodup := by
  have sameHost : Function.Injective Host.mk := fun first second same => congrArg Host.address same
  rw [configuredHosts, List.nodup_map_iff sameHost]

def routedHosts (part : SchedulerSection) : List Host :=
  match part.kind with
  | .manual => part.configuredAssignment.map (·.1)
  | _ => part.configuredHosts

end Config.SchedulerSection

namespace Scheduler

/-- What the router of its kind finds wrong with a section that passes its check. -/
inductive Clash (part : Config.SchedulerSection) : SchedulerError → Prop
  | duplicateHost {host : Host} (isAuto : part.kind = .auto)
      (repeats : AutoRouter.RepeatsFirst part.configuredHosts host) :
      Clash part (.duplicateHost host.address)
  | invalidBucketCount {largest : Nat} (isManual : part.kind = .manual)
      (leaves : ManualRouter.LeavesLimitAt part.configuredAssignment largest) :
      Clash part (.invalidBucketCount (largest + 1))
  | emptyBucket {bucket : Nat} (isManual : part.kind = .manual)
      (inLimit : ManualRouter.StaysInLimit part.configuredAssignment)
      (isFirst : ManualRouter.IsFirstUnserved part.configuredAssignment bucket) :
      Clash part (.emptyBucket bucket)

/-- Why a section is refused, by the check that refuses it: each supposes that those before
it have passed. -/
inductive Refusal (part : Config.SchedulerSection) : SchedulerError → Prop
  | config {error : ConfigError} (invalid : part.validate = .error error) :
      Refusal part (.config error)
  | unknownHashMethod (valid : part.validate = .ok ())
      (unknown : part.hashName ∉ HashMethod.all.map HashMethod.name) :
      Refusal part (.unknownHashMethod part.hashName)
  | clash {error : SchedulerError} (valid : part.validate = .ok ())
      (known : part.hashName ∈ HashMethod.all.map HashMethod.name) (clash : Clash part error) :
      Refusal part error

/-- Building breaks off: the section passes all checks, and the mailbox that discovery is to
have is larger than any can be. -/
structure BreaksOff (part : Config.SchedulerSection) (discovery : Config.DiscoverySection) : Prop where
  valid : part.validate = .ok ()
  known : part.hashName ∈ HashMethod.all.map HashMethod.name
  isAuto : part.kind = .auto
  distinct : part.hostList.Nodup
  tooLarge : Mailbox.maxCapacity < discovery.effectiveMailbox

variable {part : Config.SchedulerSection} {options : AutoOptions} {method : HashMethod}

theorem clash_of_auto {error : SchedulerError} (isAuto : part.kind = .auto) :
    Clash part error ↔
      ∃ host, AutoRouter.RepeatsFirst part.configuredHosts host ∧
        error = .duplicateHost host.address := by
  constructor
  · rintro (⟨-, repeats⟩ | ⟨isManual, -⟩ | ⟨isManual, -⟩)
    · exact ⟨_, repeats, rfl⟩
    · rw [isAuto] at isManual
      cases isManual
    · rw [isAuto] at isManual
      cases isManual
  · rintro ⟨host, repeats, rfl⟩
    exact .duplicateHost isAuto repeats

theorem clash_of_manual {error : SchedulerError} (isManual : part.kind = .manual) :
    Clash part error ↔
      (∃ largest, ManualRouter.LeavesLimitAt part.configuredAssignment largest ∧
        error = .invalidBucketCount (largest + 1)) ∨
      ManualRouter.StaysInLimit part.configuredAssignment ∧
        ∃ bucket, ManualRouter.IsFirstUnserved part.configuredAssignment bucket ∧
          error = .emptyBucket bucket := by
  constructor
  · rintro (⟨isAuto, -⟩ | ⟨-, leaves⟩ | ⟨-, inLimit, isFirst⟩)
    · rw [isManual] at isAuto
      cases isAuto
    · exact Or.inl ⟨_, leaves, rfl⟩
    · exact Or.inr ⟨inLimit, _, isFirst, rfl⟩
  · rintro (⟨largest, leaves, rfl⟩ | ⟨inLimit, bucket, isFirst, rfl⟩)
    · exact .invalidBucketCount isManual leaves
    · exact .emptyBucket isManual inLimit isFirst

theorem not_clash {error : SchedulerError} (notAuto : part.kind ≠ .auto)
    (notManual : part.kind ≠ .manual) : ¬ Clash part error := by
  rintro (⟨isAuto, -⟩ | ⟨isManual, -⟩ | ⟨isManual, -⟩)
  · exact notAuto isAuto
  · exact notManual isManual
  · exact notManual isManual

theorem ofSection_eq_error_iff (valid : part.validate = .ok ()) {error : SchedulerError} :
    ofSection part options method true = .error error ↔ Clash part error := by
  unfold ofSection
  split
  · next isModulo =>
    have someHosts := part.configuredHosts_ne_nil valid (by simp [isModulo])
    simp [ModuloRouter.build, someHosts, not_clash, isModulo]
  · next isConsistent =>
    have someHosts := part.configuredHosts_ne_nil valid (by simp [isConsistent])
    obtain ⟨router, built⟩ := RingRouter.exists_build_eq_ok someHosts method
    simp [built, not_clash, isConsistent]
  · next isManual =>
    rw [Construction.map_eq_error_iff, Construction.ofExcept_eq_error_iff, clash_of_manual isManual]
    exact ManualRouter.build_eq_error_iff (part.configuredAssignment_ne_nil valid isManual)
      part.nodup_configuredAssignment
  · next isAuto =>
    rw [Construction.map_eq_error_iff, clash_of_auto isAuto]
    exact AutoRouter.build_eq_error_iff (part.acceptsBucketCount_of_validate valid isAuto)
      (part.configuredHosts_ne_nil valid (by simp [isAuto]))

theorem ofSection_eq_broken_iff (valid : part.validate = .ok ()) :
    ofSection part options method true = .broken ↔
      part.kind = .auto ∧ part.hostList.Nodup ∧ Mailbox.maxCapacity < options.mailbox := by
  unfold ofSection
  split
  · next isModulo => simp [isModulo]
  · next isConsistent => simp [isConsistent]
  · next isManual => simp [isManual]
  · next isAuto =>
    rw [Construction.map_eq_broken_iff, AutoRouter.build_eq_broken_iff
      (part.acceptsBucketCount_of_validate valid isAuto)
      (part.configuredHosts_ne_nil valid (by simp [isAuto])),
      Config.SchedulerSection.nodup_configuredHosts_iff]
    simp [isAuto]

theorem routes_of_ofSection {hasRuntime : Bool} {scheduler : Scheduler}
    (built : ofSection part options method hasRuntime = .ok scheduler) :
    scheduler.kind = part.kind ∧ scheduler.method = method ∧ scheduler.hosts = part.routedHosts := by
  unfold ofSection at built
  rw [Config.SchedulerSection.routedHosts]
  split at built
  · next isModulo =>
    obtain ⟨router, madeRouter, rfl⟩ := Construction.map_eq_ok_iff.mp built
    rw [Construction.ofExcept_eq_ok_iff] at madeRouter
    unfold ModuloRouter.build at madeRouter
    split at madeRouter
    · cases madeRouter
    · cases madeRouter
      simp [isModulo, kind, hosts, Scheduler.method]
  · next isConsistent =>
    obtain ⟨router, madeRouter, rfl⟩ := Construction.map_eq_ok_iff.mp built
    obtain ⟨-, hostsEq, methodEq, -⟩ := RingRouter.build_eq_ok (Construction.ofExcept_eq_ok_iff.mp madeRouter)
    simp [isConsistent, kind, hosts, Scheduler.method, hostsEq, methodEq]
  · next isManual =>
    obtain ⟨router, madeRouter, rfl⟩ := Construction.map_eq_ok_iff.mp built
    obtain ⟨hostsEq, methodEq, -⟩ := ManualRouter.build_eq_ok (Construction.ofExcept_eq_ok_iff.mp madeRouter)
    simp [isManual, kind, hosts, Scheduler.method, hostsEq, methodEq]
  · next isAuto =>
    obtain ⟨router, madeRouter, rfl⟩ := Construction.map_eq_ok_iff.mp built
    obtain ⟨-, -, rfl⟩ := AutoRouter.build_eq_ok madeRouter
    simp [isAuto, kind, hosts, Scheduler.method]

theorem build_of_known {discovery : Config.DiscoverySection} {hasRuntime : Bool}
    (valid : part.validate = .ok ()) (isMethod : method.name = part.hashName) :
    build part discovery hasRuntime = ofSection part discovery.options method hasRuntime := by
  rw [build, valid, HashMethod.ofName_eq_ok_iff.mpr isMethod]

theorem build_eq_error_iff {discovery : Config.DiscoverySection} {error : SchedulerError} :
    build part discovery true = .error error ↔ Refusal part error := by
  cases checked : part.validate with
  | error reason =>
      rw [build, checked]
      constructor
      · intro refused
        cases refused
        exact .config checked
      · rintro (invalid | ⟨valid, -⟩ | ⟨valid, -⟩)
        · rw [invalid] at checked
          cases checked
          rfl
        · rw [valid] at checked
          cases checked
        · rw [valid] at checked
          cases checked
  | ok _ =>
      by_cases known : part.hashName ∈ HashMethod.all.map HashMethod.name
      · obtain ⟨method, -, isMethod⟩ := List.mem_map.mp known
        rw [build_of_known checked isMethod, ofSection_eq_error_iff checked]
        constructor
        · exact fun clash => .clash checked known clash
        · rintro (invalid | ⟨-, unknown⟩ | ⟨-, -, clash⟩)
          · rw [checked] at invalid
            cases invalid
          · exact absurd known unknown
          · exact clash
      · rw [build, checked, HashMethod.ofName_of_notMem known]
        constructor
        · intro refused
          cases refused
          exact .unknownHashMethod checked known
        · rintro (invalid | - | ⟨-, known', -⟩)
          · rw [checked] at invalid
            cases invalid
          · rfl
          · exact absurd known' known

theorem build_eq_broken_iff {discovery : Config.DiscoverySection} :
    build part discovery true = .broken ↔ BreaksOff part discovery := by
  constructor
  · intro breaks
    cases checked : part.validate with
    | error reason =>
        rw [build_eq_error_iff.mpr (.config checked)] at breaks
        cases breaks
    | ok _ =>
        by_cases known : part.hashName ∈ HashMethod.all.map HashMethod.name
        · obtain ⟨method, -, isMethod⟩ := List.mem_map.mp known
          rw [build_of_known checked isMethod, ofSection_eq_broken_iff checked] at breaks
          obtain ⟨isAuto, distinct, tooLarge⟩ := breaks
          exact ⟨checked, known, isAuto, distinct, tooLarge⟩
        · rw [build_eq_error_iff.mpr (.unknownHashMethod checked known)] at breaks
          cases breaks
  · rintro ⟨valid, known, isAuto, distinct, tooLarge⟩
    obtain ⟨method, -, isMethod⟩ := List.mem_map.mp known
    rw [build_of_known valid isMethod, ofSection_eq_broken_iff valid]
    exact ⟨isAuto, distinct, tooLarge⟩

theorem exists_build_eq_ok_iff {discovery : Config.DiscoverySection}
    (valid : part.validate = .ok ()) (known : part.hashName ∈ HashMethod.all.map HashMethod.name) :
    (∃ scheduler, build part discovery true = .ok scheduler) ↔
      (∀ error, ¬ Clash part error) ∧ ¬ BreaksOff part discovery := by
  constructor
  · rintro ⟨scheduler, built⟩
    constructor
    · intro error clash
      rw [build_eq_error_iff.mpr (.clash valid known clash)] at built
      cases built
    · intro breaksOff
      rw [build_eq_broken_iff.mpr breaksOff] at built
      cases built
  · rintro ⟨noClash, keepsOn⟩
    cases built : build part discovery true with
    | ok scheduler => exact ⟨scheduler, rfl⟩
    | broken => exact absurd (build_eq_broken_iff.mp built) keepsOn
    | error error =>
        rcases build_eq_error_iff.mp built with invalid | ⟨-, unknown⟩ | ⟨-, -, clash⟩
        · rw [valid] at invalid
          cases invalid
        · exact absurd known unknown
        · exact absurd clash (noClash error)

theorem not_clash_iff_of_auto (isAuto : part.kind = .auto) :
    (∀ error, ¬ Clash part error) ↔ part.hostList.Nodup := by
  have nothingRepeated : (∀ host, ¬ AutoRouter.RepeatsFirst part.configuredHosts host) ↔
      part.hostList.Nodup := by
    rw [AutoRouter.not_repeatsFirst_iff, AutoRouter.firstRepeated?_eq_none_iff,
      Config.SchedulerSection.nodup_configuredHosts_iff]
    simp
  rw [← nothingRepeated]
  constructor
  · exact fun noClash host repeats => noClash _ (.duplicateHost isAuto repeats)
  · intro noneRepeats error clash
    obtain ⟨host, repeats, -⟩ := (clash_of_auto isAuto).mp clash
    exact noneRepeats host repeats

theorem not_clash_iff_of_manual (isManual : part.kind = .manual) :
    (∀ error, ¬ Clash part error) ↔
      ManualRouter.StaysInLimit part.configuredAssignment ∧
        ∀ bucket < ManualRouter.referencedCount part.configuredAssignment,
          ∃ entry ∈ part.configuredAssignment, bucket ∈ entry.2 := by
  rw [← ManualRouter.not_isFirstUnserved_iff]
  constructor
  · intro noClash
    have inLimit := (ManualRouter.not_leavesLimitAt_iff part.nodup_configuredAssignment).mp
      fun largest leaves => noClash _ (.invalidBucketCount isManual leaves)
    exact ⟨inLimit, fun bucket isFirst => noClash _ (.emptyBucket isManual inLimit isFirst)⟩
  · rintro ⟨inLimit, noneFirst⟩ error clash
    rcases (clash_of_manual isManual).mp clash with ⟨largest, leaves, -⟩ | ⟨-, bucket, isFirst, -⟩
    · exact leaves.not_staysInLimit inLimit
    · exact noneFirst bucket isFirst

/-- What building a scheduler comes to is determined by its section and the size of the
mailbox: it is refused for the first reason that applies, breaks off over a mailbox that is
too large, and otherwise routes to the configured hosts.  The addresses of an assignment are
in the order of their bytes. -/
theorem build_is_determined (part : Config.SchedulerSection)
    (discovery : Config.DiscoverySection) :
    (∀ error, build part discovery true = .error error ↔ Refusal part error) ∧
    (build part discovery true = .broken ↔ BreaksOff part discovery) ∧
    (∀ scheduler, build part discovery true = .ok scheduler →
      scheduler.kind = part.kind ∧ scheduler.method.name = part.hashName ∧
        scheduler.hosts = part.routedHosts) ∧
    (part.validate = .ok () → part.hashName ∈ HashMethod.all.map HashMethod.name →
      (part.kind = .modulo ∨ part.kind = .consistent →
        ∃ scheduler, build part discovery true = .ok scheduler) ∧
      (part.kind = .auto →
        ((∃ scheduler, build part discovery true = .ok scheduler) ↔
          part.hostList.Nodup ∧ discovery.effectiveMailbox ≤ Mailbox.maxCapacity)) ∧
      (part.kind = .manual →
        ((∃ scheduler, build part discovery true = .ok scheduler) ↔
          ManualRouter.StaysInLimit part.configuredAssignment ∧
            ∀ bucket < ManualRouter.referencedCount part.configuredAssignment,
              ∃ entry ∈ part.configuredAssignment, bucket ∈ entry.2))) ∧
    (∀ error, build part discovery true = .error error →
      error ≠ .noHosts ∧ error ≠ .unsortedRing ∧ error ≠ .noRuntime ∧
        (part.kind = .auto → ∀ count, error ≠ .invalidBucketCount count)) ∧
    part.configuredAssignment.Pairwise fun first second =>
      Text.utf8 first.1.address < Text.utf8 second.1.address := by
  refine ⟨fun error => build_eq_error_iff, build_eq_broken_iff, ?_, ?_, ?_, ?_⟩
  · intro scheduler built
    cases checked : part.validate with
    | error reason =>
        rw [build_eq_error_iff.mpr (.config checked)] at built
        cases built
    | ok _ =>
        by_cases known : part.hashName ∈ HashMethod.all.map HashMethod.name
        · obtain ⟨method, -, isMethod⟩ := List.mem_map.mp known
          rw [build_of_known checked isMethod] at built
          obtain ⟨kindEq, methodEq, hostsEq⟩ := routes_of_ofSection built
          exact ⟨kindEq, methodEq ▸ isMethod, hostsEq⟩
        · rw [build_eq_error_iff.mpr (.unknownHashMethod checked known)] at built
          cases built
  · intro valid known
    have keepsOn (notAuto : part.kind ≠ .auto) : ¬ BreaksOff part discovery :=
      fun breaksOff => notAuto breaksOff.isAuto
    rw [exists_build_eq_ok_iff valid known]
    refine ⟨?_, fun isAuto => ?_, fun isManual => ?_⟩
    · rintro (isModulo | isConsistent)
      · exact ⟨fun error => not_clash (by simp [isModulo]) (by simp [isModulo]),
          keepsOn (by simp [isModulo])⟩
      · exact ⟨fun error => not_clash (by simp [isConsistent]) (by simp [isConsistent]),
          keepsOn (by simp [isConsistent])⟩
    · rw [not_clash_iff_of_auto isAuto]
      refine and_congr_right fun distinct => ?_
      rw [← Nat.not_lt]
      exact not_congr ⟨BreaksOff.tooLarge, fun tooLarge => ⟨valid, known, isAuto, distinct, tooLarge⟩⟩
    · rw [not_clash_iff_of_manual isManual]
      exact and_iff_left (keepsOn (by simp [isManual]))
  · intro error refused
    rcases build_eq_error_iff.mp refused with invalid | ⟨-, unknown⟩ | ⟨-, -, clash⟩
    · simp
    · simp
    · rcases clash with ⟨isAuto, -⟩ | ⟨isManual, -⟩ | ⟨isManual, -⟩
      · simp
      · simp [isManual]
      · simp
  · refine part.ascending_configuredAssignment.imp ?_
    exact fun less => (Text.utf8_lt_iff _ _).mpr less

/-- A host may stand twice on a ring but not in the orders of the auto scheduler, and the
address that comes first in an assignment is refused first.  With distinct hosts the largest
mailbox that can be is made, and one place more breaks off. -/
theorem build_is_determined_with_repeats :
    (∃ scheduler, build ⟨.consistent, none, some ["b", "a", "b"], none, none⟩ ⟨none, none, none⟩ true =
      .ok scheduler ∧ scheduler.hosts = [⟨"b"⟩, ⟨"a"⟩, ⟨"b"⟩]) ∧
    build ⟨.auto, none, some ["b", "a", "a", "b"], none, none⟩ ⟨none, none, none⟩ true =
      .error (.duplicateHost "a") ∧
    build ⟨.manual, none, none, none, some (Dictionary.ofList [("b", [65536]), ("a", [0, 70000])])⟩
      ⟨none, none, none⟩ true = .error (.invalidBucketCount 70001) ∧
    (∃ scheduler, build ⟨.auto, none, some ["b", "a"], none, none⟩
      ⟨none, none, some 2305843009213693951⟩ true = .ok scheduler) ∧
    build ⟨.auto, none, some ["b", "a"], none, none⟩ ⟨none, none, some 2305843009213693952⟩ true =
      .broken := by
  refine ⟨?_, ?_, ?_, ?_, ?_⟩
  · obtain ⟨-, -, routes, succeeds, -⟩ := build_is_determined
      ⟨.consistent, none, some ["b", "a", "b"], none, none⟩ ⟨none, none, none⟩
    obtain ⟨scheduler, built⟩ := (succeeds (by decide) (by decide)).1 (by decide)
    exact ⟨scheduler, built, (routes scheduler built).2.2⟩
  · refine ((build_is_determined _ _).1 _).mpr (.clash (by decide) (by decide) ?_)
    exact .duplicateHost rfl ⟨[⟨"b"⟩, ⟨"a"⟩], [⟨"b"⟩], rfl, by decide, by decide⟩
  · refine ((build_is_determined _ _).1 _).mpr (.clash (by decide) (by decide) ?_)
    exact .invalidBucketCount rfl
      ⟨[], ⟨"a"⟩, [0, 70000], [(⟨"b"⟩, [65536])], by decide, by simp [ManualRouter.StaysInLimit],
        by decide, by decide⟩
  · obtain ⟨-, -, -, succeeds, -⟩ := build_is_determined
      ⟨.auto, none, some ["b", "a"], none, none⟩ ⟨none, none, some 2305843009213693951⟩
    exact ((succeeds (by decide) (by decide)).2.1 rfl).mpr ⟨by decide, by decide⟩
  · exact (build_is_determined _ _).2.1.mpr
      ⟨by decide, by decide, rfl, by decide, by decide⟩

end Scheduler

end CacheRouting
