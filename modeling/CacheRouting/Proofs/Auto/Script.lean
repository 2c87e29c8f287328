import CacheRouting.Auto.Engine
import CacheRouting.Proofs.Auto.Probes
import CacheRouting.Proofs.Ranking.Root

/-!
# What hosts are asked and what they list

In a pass a host is asked one probe after the other, up to the first that it
fails.  Every probe counts for the later replies to that probe alone, so what is
asked and listed in a pass can be told from the replies each host has ready when
the pass starts.
-/

namespace CacheRouting

namespace Listing

theorem isFinite_of_readCount? {characters : List Char} {count : Float}
    (isCount : readCount? characters = some count) : count.isFinite = true ∧ 0 ≤ count := by
  unfold readCount? at isCount
  split at isCount
  · dsimp only at isCount
    split at isCount
    · next accepted =>
      cases isCount
      simpa using accepted
    · cases isCount
  · cases isCount

theorem isFinite_of_mem_parse {body : String} {record : Record} (member : record ∈ parse body) :
    record.count.sqrt.isFinite = true := by
  obtain ⟨piece, -, read⟩ := List.mem_filterMap.mp member
  unfold readRecord? at read
  split at read
  · split at read
    · obtain ⟨count, isCount, rfl⟩ := Option.map_eq_some_iff.mp read
      obtain ⟨finite, notNegative⟩ := isFinite_of_readCount? isCount
      exact Double.isFinite_sqrt finite notNegative
    · cases read
  · cases read

end Listing

/-- What is reported on account of a reply to a probe: keys with amounts. -/
def Reply.entries (probe : String) : Reply → List (String × Float)
  | .body bytes =>
      (Listing.parse (Text.ofUtf8Lossy bytes)).map fun record =>
        (probe ++ record.name, record.count.sqrt)
  | _ => []

namespace Reply

@[simp]
theorem entries_body_nil (probe : String) : (body []).entries probe = [] :=
  rfl

theorem isFinite_of_mem_entries {reply : Reply} {probe : String} {entry : String × Float}
    (member : entry ∈ reply.entries probe) : entry.2.isFinite = true := by
  cases reply with
  | body bytes =>
      obtain ⟨record, isRecord, rfl⟩ := List.mem_map.mp member
      exact Listing.isFinite_of_mem_parse isRecord
  | miss => simp [entries] at member
  | failed => simp [entries] at member

end Reply

namespace Answer

def entries (probe : String) : Answer → List (String × Float)
  | .broken => []
  | .replied reply => reply.entries probe

theorem isFinite_of_mem_entries {answer : Answer} {probe : String} {entry : String × Float}
    (member : entry ∈ answer.entries probe) : entry.2.isFinite = true := by
  cases answer with
  | broken => cases member
  | replied reply => exact Reply.isFinite_of_mem_entries member

end Answer

namespace Responder

def answersTo (responder : Responder) (probe : String) : Bool :=
  responder.replyTo probe != .failed

/-- The probes a host is asked in a pass: those before the first that it fails, and
that one. -/
def askedIn (responder : Responder) (probes : List String) : List String :=
  probes.takeWhile responder.answersTo ++ (probes.dropWhile responder.answersTo).take 1

def listedIn (responder : Responder) (probes : List String) : List (String × Float) :=
  (probes.takeWhile responder.answersTo).flatMap fun probe =>
    (responder.replyTo probe).entries probe

def afterPasses (probes : List String) : Nat → Responder → Responder
  | 0, responder => responder
  | passes + 1, responder =>
      let before := afterPasses probes passes responder
      (before.askedIn probes).foldl count before

theorem nextCall_of_unbroken {responder : Responder} (unbroken : responder.brokenCalls = [])
    (probe : String) :
    (responder.nextCall probe).answer = .replied (responder.replyTo probe) := by
  unfold nextCall
  rw [unbroken, if_neg List.not_mem_nil]

theorem repliesTo_count_of_ne (responder : Responder) {probe other : String}
    (different : other ≠ probe) :
    (responder.count probe).repliesTo other = responder.repliesTo other := by
  unfold repliesTo count
  dsimp only
  induction responder.answers with
  | nil => rfl
  | cons answer answers ih =>
      by_cases isProbe : answer.1 = probe
      · simpa [isProbe, Ne.symm different] using ih
      · by_cases isOther : answer.1 = other
        · simp [isOther, different]
        · simpa [isProbe, isOther] using ih

theorem replyTo_count_of_ne (responder : Responder) {probe other : String}
    (different : other ≠ probe) :
    (responder.count probe).replyTo other = responder.replyTo other := by
  rw [replyTo, repliesTo_count_of_ne responder different]
  rfl

theorem answersTo_eq_false {responder : Responder} {probe : String}
    (fails : responder.replyTo probe = .failed) : responder.answersTo probe = false := by
  simp [answersTo, fails]

theorem answersTo_eq_true {responder : Responder} {probe : String}
    (notFails : responder.replyTo probe ≠ .failed) : responder.answersTo probe = true := by
  simpa [answersTo] using notFails

theorem askedIn_cons (responder : Responder) (probe : String) (probes : List String) :
    responder.askedIn (probe :: probes) =
      probe :: if responder.replyTo probe = .failed then [] else responder.askedIn probes := by
  by_cases fails : responder.replyTo probe = .failed
  · simp [askedIn, answersTo_eq_false fails, fails]
  · simp [askedIn, answersTo_eq_true fails, fails]

/-- The probe that fails lists nothing. -/
theorem flatMap_askedIn (responder : Responder) (probes : List String) :
    ((responder.askedIn probes).flatMap fun probe => (responder.replyTo probe).entries probe) =
      responder.listedIn probes := by
  induction probes with
  | nil => rfl
  | cons probe probes ih =>
      rw [askedIn_cons, List.flatMap_cons]
      by_cases fails : responder.replyTo probe = .failed
      · simp [listedIn, answersTo_eq_false fails, fails, Reply.entries]
      · rw [if_neg fails, ih]
        simp [listedIn, answersTo_eq_true fails]

end Responder

namespace Discovery

/-- What is left of the probes of a pass after a reply: a host that fails is asked no more. -/
def heed (host : Nat) (reply : Reply) (later : List (Nat × String)) : List (Nat × String) :=
  if reply = .failed then later.dropWhile fun next => next.1 == host else later

theorem heed_suffix (host : Nat) (reply : Reply) (later : List (Nat × String)) :
    heed host reply later <:+ later := by
  unfold heed
  split
  · exact List.dropWhile_suffix _
  · exact List.suffix_rfl

/-- What is left of the probes of a pass after an answer.  Nothing is asked after a call that
breaks off. -/
def leave (host : Nat) (later : List (Nat × String)) : Answer → List (Nat × String)
  | .broken => []
  | .replied reply => heed host reply later

theorem leave_suffix (host : Nat) (later : List (Nat × String)) (answer : Answer) :
    leave host later answer <:+ later := by
  cases answer with
  | broken => exact List.nil_suffix
  | replied reply => exact heed_suffix ..

section Scripts

variable (script : Nat → Responder)

def asked : List (Nat × String) → List (Nat × String)
  | [] => []
  | (host, probe) :: later =>
      (host, probe) :: asked (heed host ((script host).replyTo probe) later)
termination_by later => later.length
decreasing_by exact Nat.lt_succ_of_le (heed_suffix ..).length_le

def listed (probes : List (Nat × String)) : List (Nat × String × Float) :=
  probes.flatMap fun next =>
    (((script next.1).replyTo next.2).entries next.2).map fun entry => (next.1, entry)

def afterAsking (probes : List (Nat × String)) : Nat → Responder :=
  probes.foldl
    (fun script next => Function.update script next.1 ((script next.1).count next.2)) script

theorem asked_cons (host : Nat) (probe : String) (later : List (Nat × String)) :
    asked script ((host, probe) :: later) =
      (host, probe) :: asked script (heed host ((script host).replyTo probe) later) := by
  rw [asked]

theorem asked_sublist (later : List (Nat × String)) : (asked script later).Sublist later := by
  fun_induction asked script later with
  | case1 => exact List.Sublist.refl _
  | case2 host probe later ih =>
      exact (ih.trans (heed_suffix ..).sublist).cons_cons _

/-- What will be asked depends on the next replies to the probes that are left. -/
theorem asked_congr {script other : Nat → Responder} (later : List (Nat × String))
    (same : ∀ next ∈ later, (script next.1).replyTo next.2 = (other next.1).replyTo next.2) :
    asked script later = asked other later := by
  fun_induction asked script later with
  | case1 => rw [asked]
  | case2 host probe later ih =>
      obtain ⟨sameFirst, sameLater⟩ := List.forall_mem_cons.mp same
      dsimp only at sameFirst
      rw [asked_cons, ← sameFirst, ih]
      exact fun next member => sameLater next ((heed_suffix ..).subset member)

theorem listed_congr {script other : Nat → Responder} {probes : List (Nat × String)}
    (same : ∀ next ∈ probes, (script next.1).replyTo next.2 = (other next.1).replyTo next.2) :
    listed script probes = listed other probes := by
  apply List.flatMap_congr
  intro next member
  rw [same next member]

/-- A probe that is asked changes no reply to the other probes. -/
theorem replyTo_afterAsking {asking : Nat × String} {later : List (Nat × String)}
    (fresh : asking ∉ later) :
    ∀ next ∈ later, (script next.1).replyTo next.2 =
      (afterAsking script [asking] next.1).replyTo next.2 := by
  intro next member
  have different : next ≠ asking := ne_of_mem_of_not_mem member fresh
  simp only [afterAsking, List.foldl_cons, List.foldl_nil]
  by_cases sameHost : next.1 = asking.1
  · have otherProbe : next.2 ≠ asking.2 := fun sameProbe =>
      different (Prod.ext sameHost sameProbe)
    rw [sameHost, Function.update_self, Responder.replyTo_count_of_ne _ otherProbe]
  · rw [Function.update_of_ne sameHost]

/-- The first probe that is left is asked, and then what its reply leaves. -/
theorem asked_step {host : Nat} {probe : String} {later : List (Nat × String)}
    (nodup : ((host, probe) :: later).Nodup) :
    asked script ((host, probe) :: later) =
      (host, probe) :: asked (afterAsking script [(host, probe)])
        (heed host ((script host).replyTo probe) later) := by
  rw [asked_cons]
  congr 1
  apply asked_congr
  intro next member
  exact replyTo_afterAsking script (List.nodup_cons.mp nodup).1 next
    ((heed_suffix ..).subset member)

theorem listed_step {host : Nat} {probe : String} {later : List (Nat × String)}
    (nodup : ((host, probe) :: later).Nodup) :
    listed script (asked script ((host, probe) :: later)) =
      (((script host).replyTo probe).entries probe).map (fun entry => (host, entry)) ++
        listed (afterAsking script [(host, probe)]) (asked (afterAsking script [(host, probe)])
          (heed host ((script host).replyTo probe) later)) := by
  rw [asked_step script nodup, listed, List.flatMap_cons, ← listed]
  congr 1
  apply listed_congr
  intro next member
  exact replyTo_afterAsking script (List.nodup_cons.mp nodup).1 next
    ((heed_suffix ..).subset ((asked_sublist ..).subset member))

end Scripts

theorem flatMap_range_single {Item : Type} {count index : Nat} (known : index < count)
    (items : List Item) :
    ((List.range count).flatMap fun other => if other = index then items else []) = items := by
  induction count with
  | zero => omega
  | succ count ih =>
      rw [List.range_succ, List.flatMap_append, List.flatMap_singleton]
      by_cases last : count = index
      · subst last
        have noneBefore : ((List.range count).flatMap fun other =>
            if other = count then items else []) = [] := by
          apply List.flatMap_eq_nil_iff.mpr
          intro other member
          rw [if_neg (Nat.ne_of_lt (List.mem_range.mp member))]
        rw [noneBefore, if_pos rfl, List.nil_append]
      · rw [ih (by omega), if_neg last, List.append_nil]

/-- Out of what belongs to all hosts, what belongs to one. -/
theorem filter_flatMap_host {Item : Type} {hostCount host : Nat} (known : host < hostCount)
    (itemsOf : Nat → List Item) :
    (((List.range hostCount).flatMap fun other => (itemsOf other).map fun item => (other, item)).filter
        fun entry => entry.1 == host) = (itemsOf host).map fun item => (host, item) := by
  rw [List.filter_flatMap, ← flatMap_range_single known ((itemsOf host).map fun item => (host, item))]
  apply List.flatMap_congr
  intro other _
  by_cases own : other = host
  · subst own
    simp [List.filter_map, Function.comp_def]
  · simp [List.filter_map, Function.comp_def, own]

/-- All probes of a pass: every probe of the first host, then of the next. -/
def planOf (hostCount : Nat) (probes : List String) : List (Nat × String) :=
  (List.range hostCount).flatMap fun host => probes.map fun probe => (host, probe)

theorem lt_of_mem_planOf {hostCount : Nat} {probes : List String} {next : Nat × String}
    (member : next ∈ planOf hostCount probes) : next.1 < hostCount := by
  obtain ⟨host, isHost, inBlock⟩ := List.mem_flatMap.mp member
  obtain ⟨probe, -, rfl⟩ := List.mem_map.mp inBlock
  exact List.mem_range.mp isHost

theorem nodup_planOf (hostCount : Nat) {probes : List String} (nodup : probes.Nodup) :
    (planOf hostCount probes).Nodup := by
  apply List.nodup_flatMap.mpr
  constructor
  · intro host _
    exact nodup.map fun first second same => (Prod.mk.inj same).2
  · apply List.nodup_range.imp
    intro first second different next inFirst inSecond
    obtain ⟨probe, -, rfl⟩ := List.mem_map.mp inFirst
    obtain ⟨other, -, same⟩ := List.mem_map.mp inSecond
    exact different (Prod.mk.inj same).1.symm

section Plans

variable (script : Nat → Responder)

theorem asked_block {host : Nat} (probes : List String) {later : List (Nat × String)}
    (apart : ∀ next ∈ later, next.1 ≠ host) :
    asked script ((probes.map fun probe => (host, probe)) ++ later) =
      (((script host).askedIn probes).map fun probe => (host, probe)) ++ asked script later := by
  induction probes with
  | nil => rfl
  | cons probe probes ih =>
      rw [List.map_cons, List.cons_append, asked_cons, Responder.askedIn_cons, List.map_cons,
        List.cons_append]
      congr 1
      by_cases fails : (script host).replyTo probe = .failed
      · have passed : ((probes.map fun probe => (host, probe)) ++ later).dropWhile
            (fun next => next.1 == host) = later := by
          rw [List.dropWhile_append_of_pos (by simp)]
          cases later with
          | nil => rfl
          | cons next later => simp [apart next (by simp)]
        rw [heed, if_pos fails, passed, if_pos fails]
        rfl
      · rw [heed, if_neg fails, if_neg fails, ih]

theorem asked_blocks {hosts : List Nat} (nodup : hosts.Nodup) (probes : List String) :
    asked script (hosts.flatMap fun host => probes.map fun probe => (host, probe)) =
      hosts.flatMap fun host => ((script host).askedIn probes).map fun probe => (host, probe) := by
  induction hosts with
  | nil => rw [List.flatMap_nil, List.flatMap_nil, asked]
  | cons host hosts ih =>
      obtain ⟨fresh, nodupRest⟩ := List.nodup_cons.mp nodup
      rw [List.flatMap_cons, List.flatMap_cons, asked_block, ih nodupRest]
      intro next member
      obtain ⟨other, otherMember, inBlock⟩ := List.mem_flatMap.mp member
      obtain ⟨probe, -, rfl⟩ := List.mem_map.mp inBlock
      exact ne_of_mem_of_not_mem otherMember fresh

theorem asked_planOf (hostCount : Nat) (probes : List String) :
    asked script (planOf hostCount probes) =
      (List.range hostCount).flatMap fun host =>
        ((script host).askedIn probes).map fun probe => (host, probe) :=
  asked_blocks script List.nodup_range probes

theorem listed_asked_planOf (hostCount : Nat) (probes : List String) :
    listed script (asked script (planOf hostCount probes)) =
      (List.range hostCount).flatMap fun host =>
        ((script host).listedIn probes).map fun entry => (host, entry) := by
  rw [asked_planOf, listed, List.flatMap_assoc]
  apply List.flatMap_congr
  intro host _
  rw [List.flatMap_map, ← Responder.flatMap_askedIn, List.map_flatMap]

theorem afterAsking_apply (probes : List (Nat × String)) (host : Nat) :
    afterAsking script probes host =
      ((probes.filter fun next => next.1 == host).map (·.2)).foldl Responder.count (script host) := by
  induction probes generalizing script with
  | nil => rfl
  | cons next probes ih =>
      change afterAsking (Function.update script next.1 ((script next.1).count next.2)) probes host = _
      rw [ih]
      by_cases own : next.1 = host
      · subst own
        simp
      · rw [Function.update_of_ne (Ne.symm own)]
        simp [own]

/-- A pass leaves each host as its own probes leave it. -/
theorem afterAsking_asked_planOf {hostCount host : Nat} (known : host < hostCount)
    (probes : List String) :
    afterAsking script (asked script (planOf hostCount probes)) host =
      (script host).afterPasses probes 1 := by
  rw [afterAsking_apply, asked_planOf, filter_flatMap_host known]
  simp [Responder.afterPasses, Function.comp_def]

end Plans

end Discovery

end CacheRouting
