import CacheRouting.Config.Validate

/-!
# Conditions on settings

A configuration is accepted exactly if its settings meet all conditions, and it is
refused for the first condition that they do not meet.  What has been accepted takes
effect as it is written, and a default stands only for what has been left out.
-/

namespace CacheRouting

namespace Config

namespace SchedulerSection

/-- There is something to route to: buckets that are assigned to hosts, or hosts. -/
def NamesTargets (part : SchedulerSection) : Prop :=
  (part.kind = .manual → ∃ buckets ∈ part.buckets, buckets.entries ≠ []) ∧
    (part.kind ≠ .manual → ∃ hosts ∈ part.hosts, hosts ≠ [])

instance (part : SchedulerSection) : Decidable part.NamesTargets :=
  inferInstanceAs (Decidable (_ ∧ _))

/-- The keys of a scheduler that learns are put into a power of two of buckets. -/
def CountsBuckets (part : SchedulerSection) : Prop :=
  part.kind = .auto →
    part.effectiveBucketCount.isPowerOfTwo ∧ part.effectiveBucketCount ≤ 65536

instance (part : SchedulerSection) : Decidable part.CountsBuckets :=
  inferInstanceAs (Decidable (_ → _))

end SchedulerSection

def IsReadable (written : Option String) : Prop :=
  ∀ text ∈ written, ∃ duration, Duration.parse? text = some duration

theorem isReadable_iff {written : Option String} :
    IsReadable written ↔ ∀ text ∈ written, (Duration.parse? text).isSome = true := by
  simp only [IsReadable, Option.isSome_iff_exists]

instance (written : Option String) : Decidable (IsReadable written) :=
  decidable_of_iff' _ isReadable_iff

inductive Condition
  | targets
  | bucketCount
  | interval
  | mailbox
  | timeout
  deriving DecidableEq

namespace Condition

def inOrder : List Condition :=
  [targets, bucketCount, interval, mailbox, timeout]

theorem mem_inOrder (condition : Condition) : condition ∈ inOrder := by
  cases condition <;> decide

def Holds (config : Config) : Condition → Prop
  | targets => config.scheduler.NamesTargets
  | bucketCount => config.scheduler.CountsBuckets
  | interval => IsReadable config.discovery.interval
  | mailbox => config.discovery.mailbox ≠ some 0
  | timeout => IsReadable config.host.timeout

instance (config : Config) : DecidablePred (Holds config)
  | targets => inferInstanceAs (Decidable config.scheduler.NamesTargets)
  | bucketCount => inferInstanceAs (Decidable config.scheduler.CountsBuckets)
  | interval => inferInstanceAs (Decidable (IsReadable config.discovery.interval))
  | mailbox => inferInstanceAs (Decidable (config.discovery.mailbox ≠ some 0))
  | timeout => inferInstanceAs (Decidable (IsReadable config.host.timeout))

def refusal (config : Config) : Condition → ConfigError
  | targets =>
      if config.scheduler.kind = .manual then .noBuckets else .noHosts config.scheduler.kind.name
  | bucketCount => .invalidBucketCount config.scheduler.effectiveBucketCount
  | interval => .invalidDuration "discovery.interval" (config.discovery.interval.getD "")
  | mailbox => .emptyMailbox
  | timeout => .invalidDuration "host.timeout" (config.host.timeout.getD "")

def check (config : Config) (condition : Condition) : Except ConfigError Unit :=
  if condition.Holds config then .ok () else .error (condition.refusal config)

variable {config : Config} {condition : Condition}

theorem check_eq_ok_iff : condition.check config = .ok () ↔ condition.Holds config := by
  rw [check]
  split
  · next holds => exact iff_of_true rfl holds
  · next fails => exact iff_of_false nofun fails

theorem check_eq_error_iff {error : ConfigError} :
    condition.check config = .error error ↔
      ¬ condition.Holds config ∧ error = condition.refusal config := by
  rw [check]
  split
  · next holds => simp [holds]
  · next fails => simp [fails, eq_comm]

end Condition

section Sequence

variable {Item Refusal : Type} {check : Item → Except Refusal Unit} {items : List Item}

theorem forM_cons_of_ok {item : Item} (passes : check item = .ok ()) :
    (item :: items).forM check = items.forM check := by
  change (check item >>= fun _ => items.forM check) = _
  rw [passes]
  rfl

theorem forM_cons_of_error {item : Item} {refusal : Refusal} (fails : check item = .error refusal) :
    (item :: items).forM check = .error refusal := by
  change (check item >>= fun _ => items.forM check) = _
  rw [fails]
  rfl

theorem forM_eq_ok_iff : items.forM check = .ok () ↔ ∀ item ∈ items, check item = .ok () := by
  induction items with
  | nil => simp [List.forM, pure, Except.pure]
  | cons item items ih =>
      rw [List.forall_mem_cons]
      cases outcome : check item with
      | ok _ => rw [forM_cons_of_ok outcome, ih, and_iff_right rfl]
      | error refusal =>
          rw [forM_cons_of_error outcome]
          simp

/-- The first check that fails decides, and those behind it do not matter. -/
theorem forM_eq_error_iff {refusal : Refusal} :
    items.forM check = .error refusal ↔
      ∃ earlier item later, items = earlier ++ item :: later ∧
        (∀ other ∈ earlier, check other = .ok ()) ∧ check item = .error refusal := by
  induction items with
  | nil => simp [List.forM, pure, Except.pure]
  | cons first items ih =>
      constructor
      · intro failed
        cases outcome : check first with
        | ok _ =>
            rw [forM_cons_of_ok outcome] at failed
            obtain ⟨earlier, item, later, rfl, passed, fails⟩ := ih.mp failed
            exact ⟨first :: earlier, item, later, rfl,
              List.forall_mem_cons.mpr ⟨outcome, passed⟩, fails⟩
        | error other =>
            rw [forM_cons_of_error outcome] at failed
            exact ⟨[], first, items, rfl, List.forall_mem_nil _, outcome.trans failed⟩
      · rintro ⟨earlier, item, later, itemsEq, passed, fails⟩
        cases earlier with
        | nil =>
            cases itemsEq
            exact forM_cons_of_error fails
        | cons second earlier =>
            cases itemsEq
            obtain ⟨passedFirst, passedRest⟩ := List.forall_mem_cons.mp passed
            rw [forM_cons_of_ok passedFirst]
            exact ih.mpr ⟨earlier, item, later, rfl, passedRest, fails⟩

end Sequence

theorem acceptsBucketCount_iff {count : Nat} :
    acceptsBucketCount count = true ↔ count.isPowerOfTwo ∧ count ≤ 65536 := by
  rw [acceptsBucketCount, Bool.and_eq_true, beq_iff_eq, decide_eq_true_eq, Nat.one_shiftLeft]
  refine and_congr_left fun _ => ?_
  constructor
  · intro countEq
    exact ⟨count.log2, countEq.symm⟩
  · rintro ⟨exponent, rfl⟩
    rw [Nat.log2_two_pow]

namespace SchedulerSection

variable {part : SchedulerSection}

theorem assignment_eq_nil_iff :
    part.assignment = [] ↔ ¬ ∃ buckets ∈ part.buckets, buckets.entries ≠ [] := by
  rw [assignment]
  cases part.buckets <;> simp

theorem hostList_eq_nil_iff : part.hostList = [] ↔ ¬ ∃ hosts ∈ part.hosts, hosts ≠ [] := by
  rw [hostList]
  cases part.hosts <;> simp

theorem namesTargets_iff :
    part.NamesTargets ↔
      (part.kind = .manual → part.assignment ≠ []) ∧ (part.kind ≠ .manual → part.hostList ≠ []) := by
  simp only [NamesTargets, ne_eq, assignment_eq_nil_iff, hostList_eq_nil_iff, Classical.not_not]

theorem countsBuckets_iff :
    part.CountsBuckets ↔
      (part.kind = .auto → acceptsBucketCount part.effectiveBucketCount = true) := by
  rw [CountsBuckets, acceptsBucketCount_iff]

/-- A section of any kind is checked for its targets first and for its bucket count then. -/
theorem validate_eq (part : SchedulerSection) :
    part.validate =
      if part.NamesTargets then
        if part.CountsBuckets then .ok ()
        else .error (.invalidBucketCount part.effectiveBucketCount)
      else .error (if part.kind = .manual then .noBuckets else .noHosts part.kind.name) := by
  have targets := part.namesTargets_iff
  have counts := part.countsBuckets_iff
  unfold validate
  split
  next isManual => grind
  next isAuto => grind
  next other => grind

theorem validate_eq_ok_iff : part.validate = .ok () ↔ part.NamesTargets ∧ part.CountsBuckets := by
  rw [validate_eq]
  split
  · next names =>
    split
    · next counts => exact iff_of_true rfl ⟨names, counts⟩
    · next miscounts => exact iff_of_false nofun fun both => miscounts both.2
  · next unnamed => exact iff_of_false nofun fun both => unnamed both.1

end SchedulerSection

theorem checkDuration_eq (setting : String) (written : Option String) :
    checkDuration setting written =
      if IsReadable written then .ok () else .error (.invalidDuration setting (written.getD "")) := by
  cases written with
  | none => rfl
  | some text =>
      have readable : IsReadable (some text) ↔ (Duration.parse? text).isSome = true := by
        simp [isReadable_iff]
      simp only [checkDuration, readable, Option.getD_some]

theorem checkMailbox_eq (mailbox : Option Nat) :
    checkMailbox mailbox = if mailbox ≠ some 0 then .ok () else .error .emptyMailbox := by
  rw [checkMailbox, ite_not]

/-- The check of a section of the scheduler is that of the first two conditions. -/
theorem validate_scheduler_eq (config : Config) :
    config.scheduler.validate =
      (Condition.targets.check config >>= fun _ => Condition.bucketCount.check config) := by
  rw [SchedulerSection.validate_eq, Condition.check]
  by_cases names : config.scheduler.NamesTargets
  · rw [if_pos names, if_pos (show Condition.targets.Holds config from names)]
    rfl
  · rw [if_neg names, if_neg (show ¬ Condition.targets.Holds config from names)]
    rfl

/-- Validation looks at the conditions one after the other. -/
theorem validate_eq_forM (config : Config) :
    config.validate = Condition.inOrder.forM (Condition.check config) := by
  calc
    config.validate
      = (config.scheduler.validate >>= fun _ => Condition.interval.check config >>= fun _ =>
          Condition.mailbox.check config >>= fun _ => Condition.timeout.check config) := by
        rw [validate, checkDuration_eq, checkDuration_eq, checkMailbox_eq]
        rfl
    _ = (Condition.targets.check config >>= fun _ => Condition.bucketCount.check config >>= fun _ =>
          Condition.interval.check config >>= fun _ => Condition.mailbox.check config >>= fun _ =>
          Condition.timeout.check config >>= fun _ => pure ()) := by
        rw [validate_scheduler_eq, bind_assoc, bind_pure_unit]
    _ = Condition.inOrder.forM (Condition.check config) := rfl

theorem validate_eq_ok_iff (config : Config) :
    config.validate = .ok () ↔ ∀ condition : Condition, condition.Holds config := by
  simp only [validate_eq_forM, forM_eq_ok_iff, Condition.check_eq_ok_iff, Condition.mem_inOrder,
    forall_const]

theorem validate_eq_error_iff (config : Config) {error : ConfigError} :
    config.validate = .error error ↔
      ∃ earlier condition later, Condition.inOrder = earlier ++ condition :: later ∧
        (∀ other ∈ earlier, other.Holds config) ∧
        ¬ condition.Holds config ∧ error = condition.refusal config := by
  simp only [validate_eq_forM, forM_eq_error_iff, Condition.check_eq_ok_iff,
    Condition.check_eq_error_iff]

/-- What counts is the setting as it is read, and a default only where nothing is written. -/
def TakesEffect {Written Value : Type} (read : Written → Option Value) (setting : Option Written)
    (default effective : Value) : Prop :=
  (∀ written ∈ setting, read written = some effective) ∧ (setting = none → effective = default)

theorem takesEffect_getD {Value : Type} (setting : Option Value) (default : Value) :
    TakesEffect some setting default (setting.getD default) := by
  cases setting <;> simp [TakesEffect]

/-- A duration that can be read is not replaced by a default. -/
theorem takesEffect_of_isReadable {written : Option String} (readable : IsReadable written)
    (default : Duration) :
    TakesEffect Duration.parse? written default ((written.bind Duration.parse?).getD default) := by
  cases written with
  | none => simp [TakesEffect]
  | some text =>
      obtain ⟨duration, parsed⟩ := readable text rfl
      simp [TakesEffect, parsed]

/-- A mailbox that holds something is as large as it is written. -/
theorem takesEffect_effectiveMailbox {part : DiscoverySection} (notZero : part.mailbox ≠ some 0) :
    TakesEffect some part.mailbox 1024 part.effectiveMailbox := by
  rw [DiscoverySection.effectiveMailbox]
  cases capacity : part.mailbox with
  | none => simp [TakesEffect]
  | some written =>
      have positive : 1 ≤ written := by
        rw [capacity, Ne, Option.some.injEq] at notZero
        omega
      simp [TakesEffect, Nat.max_eq_left positive]

/-- A configuration is accepted exactly if it meets all conditions, and otherwise refused for
the first that it does not meet.  If it is accepted, each of its settings counts as it is
written, and a default counts only for a setting that is not there. -/
theorem settings_count_as_written (config : Config) :
    (config.validate = .ok () ↔ ∀ condition : Condition, condition.Holds config) ∧
    (∀ error, config.validate = .error error ↔
      ∃ earlier condition later, Condition.inOrder = earlier ++ condition :: later ∧
        (∀ other ∈ earlier, other.Holds config) ∧
        ¬ condition.Holds config ∧ error = condition.refusal config) ∧
    (config.validate = .ok () →
      TakesEffect Duration.parse? config.discovery.interval (.ofSeconds 10)
        config.discovery.effectiveInterval ∧
      TakesEffect Duration.parse? config.host.timeout (.ofSeconds 1) config.host.effectiveTimeout ∧
      TakesEffect some config.discovery.mailbox 1024 config.discovery.effectiveMailbox ∧
      TakesEffect some config.scheduler.bucketCount 16 config.scheduler.effectiveBucketCount) := by
  refine ⟨config.validate_eq_ok_iff, fun error => config.validate_eq_error_iff, ?_⟩
  intro valid
  have holds := config.validate_eq_ok_iff.mp valid
  exact ⟨takesEffect_of_isReadable (holds .interval) _, takesEffect_of_isReadable (holds .timeout) _,
    takesEffect_effectiveMailbox (holds .mailbox), takesEffect_getD _ _⟩

/-- The smallest mailbox and the largest bucket count, and an interval with zeros and blanks
around its number. -/
theorem settings_count_as_written_up_to_bounds :
    ∃ config : Config, config.validate = .ok () ∧
      config.discovery.interval = some " 007m\n" ∧
      Duration.parse? " 007m\n" = some config.discovery.effectiveInterval ∧
      config.host.effectiveTimeout = .ofSeconds 1 ∧
      config.discovery.mailbox = some 1 ∧ config.discovery.effectiveMailbox = 1 ∧
      config.scheduler.bucketCount = some 65536 ∧
      config.scheduler.effectiveBucketCount = 65536 := by
  let config : Config :=
    { scheduler := ⟨.auto, none, some ["a:1"], some 65536, none⟩
      discovery := ⟨none, some " 007m\n", some 1⟩
      host := ⟨none⟩
      log := ⟨none, none, none⟩ }
  have valid : config.validate = .ok () := by
    refine config.validate_eq_ok_iff.mpr ?_
    intro condition
    cases condition <;> decide
  obtain ⟨interval, timeout, mailbox, bucketCount⟩ := (settings_count_as_written config).2.2 valid
  exact ⟨config, valid, rfl, interval.1 _ rfl, timeout.2 rfl, rfl,
    (Option.some.inj (mailbox.1 1 rfl)).symm, rfl, (Option.some.inj (bucketCount.1 65536 rfl)).symm⟩

end Config

end CacheRouting
