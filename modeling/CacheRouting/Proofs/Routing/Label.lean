import CacheRouting.Proofs.Address
import CacheRouting.Proofs.Routing.Successor
import CacheRouting.Proofs.Sequence

/-!
# Labels on the ring

The label of an address is the address itself, or its host if the address is on the default
port.  The texts that are hashed for the points of addresses tell their labels and numbers
apart, whatever colons and hyphens the addresses hold, so that texts are shared exactly by
addresses with one label.
-/

namespace CacheRouting

/-- The address is this host, a colon, and any spelling of the default port. -/
def Address.NamesDefaultPort (address host : String) : Prop :=
  ∃ spelling, Address.Writes address host spelling defaultPort

theorem Address.isDefaultPort_parse_iff {address : String} :
    (Address.parse address).isDefaultPort = true ↔ ∃ host, NamesDefaultPort address host := by
  constructor
  · intro isDefault
    rcases parse_cases address with ⟨host, spelling, port, writes, parsed⟩ | ⟨-, parsed⟩
    · rw [parsed, isDefaultPort, beq_iff_eq, Option.some.injEq] at isDefault
      exact ⟨host, spelling, isDefault ▸ writes⟩
    · rw [parsed] at isDefault
      cases isDefault
  · rintro ⟨host, spelling, writes⟩
    rw [parse_eq_of_writes writes]
    rfl

namespace RingRouter

/-- The text is the address itself, which is not on the default port, or the host of an
address that is. -/
def HasLabel (address text : String) : Prop :=
  (address = text ∧ ∀ host, ¬ Address.NamesDefaultPort text host) ∨
    Address.NamesDefaultPort address text

theorem label_of_namesDefaultPort {address host : String}
    (names : Address.NamesDefaultPort address host) : label address = host := by
  obtain ⟨spelling, writes⟩ := names
  rw [label, Address.parse_eq_of_writes writes]
  rfl

theorem label_of_not_namesDefaultPort {address : String}
    (otherPort : ∀ host, ¬ Address.NamesDefaultPort address host) : label address = address := by
  have notDefault : ¬ (Address.parse address).isDefaultPort = true := fun isDefault =>
    (Address.isDefaultPort_parse_iff.mp isDefault).elim otherPort
  exact if_neg notDefault

theorem label_eq_iff {address text : String} : label address = text ↔ HasLabel address text := by
  constructor
  · rintro rfl
    by_cases onDefault : ∃ host, Address.NamesDefaultPort address host
    · obtain ⟨host, names⟩ := onDefault
      exact .inr ((label_of_namesDefaultPort names).symm ▸ names)
    · have otherPort := not_exists.mp onDefault
      have labelEq := label_of_not_namesDefaultPort otherPort
      exact .inl ⟨labelEq.symm, labelEq.symm ▸ otherPort⟩
  · rintro (⟨rfl, otherPort⟩ | names)
    · exact label_of_not_namesDefaultPort otherPort
    · exact label_of_namesDefaultPort names

theorem label_with_default_port {host : String} (notEmpty : host ≠ "") :
    label (host ++ ":11211") = host := by
  refine label_of_namesDefaultPort ⟨"11211".toList, notEmpty, ?_, ?_, by decide⟩
  · simp
  · exact Text.isNumeral_toString defaultPort

/-- The number of a placement stands behind its last hyphen. -/
theorem placement_eq_iff {first second : String} {number other : Nat} :
    placement first number = placement second other ↔
      number = other ∧ label first = label second := by
  have noHyphen (number : Nat) : '-' ∉ (toString number).toList :=
    (Text.isNumeral_toString number).notMem (by decide) (by decide)
  have toListEq (address : String) (number : Nat) : (placement address number).toList =
      (label address).toList ++ '-' :: (toString number).toList := by
    simp [placement]
  rw [← String.toList_inj, toListEq, toListEq,
    append_cons_inj_of_notMem_right (noHyphen number) (noHyphen other), String.toList_inj,
    String.toList_inj, and_comm]
  exact and_congr_left fun _ => Nat.repr_inj

/-- The entries of hosts depend on the labels of their addresses only. -/
theorem placeAll_congr {hosts others : List Host}
    (sameLabels : hosts.map (label ·.address) = others.map (label ·.address))
    (method : HashMethod) : placeAll method hosts = placeAll method others := by
  have fromLabels (hosts : List Host) : placeAll method hosts =
      (hosts.map (label ·.address)).zipIdx.flatMap fun entry =>
        (List.range pointsPerHost).map fun number =>
          ⟨method.hashText (entry.1 ++ "-" ++ toString number), entry.2⟩ := by
    rw [List.zipIdx_map, List.flatMap_map]
    rfl
  rw [fromLabels, fromLabels, sameLabels]

theorem build_congr {hosts others : List Host}
    (sameLabels : hosts.map (label ·.address) = others.map (label ·.address))
    {method : HashMethod} {router : RingRouter} (built : build hosts method = .ok router) :
    build others method = .ok { router with hosts := others } := by
  have notEmpty : others ≠ [] := by
    rintro rfl
    exact (build_eq_ok built).1 (List.map_eq_nil_iff.mp sameLabels)
  have isNotEmpty : ¬ others.isEmpty = true := by simpa using notEmpty
  unfold build at built ⊢
  rw [if_neg isNotEmpty, ← placeAll_congr sameLabels]
  split at built
  · cases built
  · dsimp only at built ⊢
    split at built
    · next sorted =>
      cases built
      rw [if_pos sorted]
    · cases built

/-- The hashed texts of two addresses are the same only for one number and one label, and two
addresses have one label only if each of them is the label or names the default port behind
it.  So a host that is not on the default port itself has the same points with and without
this port, whatever else is on the ring. -/
theorem points_are_shared_by_label_only :
    (∀ first second number other, placement first number = placement second other ↔
      number = other ∧ label first = label second) ∧
    (∀ first second, label first = label second ↔
      ∃ text, HasLabel first text ∧ HasLabel second text) ∧
    ∀ host, host ≠ "" → (∀ inner, ¬ Address.NamesDefaultPort host inner) →
      (∀ number, placement host number = placement (host ++ ":11211") number) ∧
      ∀ method before after, ∃ router,
        build (before ++ ⟨host⟩ :: after) method = .ok router ∧
        build (before ++ ⟨host ++ ":11211"⟩ :: after) method =
          .ok { router with hosts := before ++ ⟨host ++ ":11211"⟩ :: after } := by
  refine ⟨fun first second number other => placement_eq_iff, ?_, ?_⟩
  · intro first second
    constructor
    · intro same
      exact ⟨label second, label_eq_iff.mp same, label_eq_iff.mp rfl⟩
    · rintro ⟨text, isFirst, isSecond⟩
      rw [label_eq_iff.mpr isFirst, label_eq_iff.mpr isSecond]
  · intro host notEmpty otherPort
    have sameLabel : label host = label (host ++ ":11211") := by
      rw [label_of_not_namesDefaultPort otherPort, label_with_default_port notEmpty]
    refine ⟨fun number => placement_eq_iff.mpr ⟨rfl, sameLabel⟩, ?_⟩
    intro method before after
    obtain ⟨router, built⟩ :=
      exists_build_eq_ok (show before ++ (⟨host⟩ : Host) :: after ≠ [] by simp) method
    exact ⟨router, built, build_congr (by simp [sameLabel]) built⟩

/-- A host that looks like a placement of another, on a port of its own. -/
theorem points_are_shared_by_label_only_of_hyphenated :
    (Address.parse "a-1:080").isDefaultPort = false ∧
      (∀ number, placement "a-1:080" number = placement "a-1:080:11211" number) ∧
      placement "a-1:080" 2 ≠ placement "a-1" 2 ∧
      ∃ router, build [⟨"a"⟩, ⟨"a-1:080"⟩] .md5 = .ok router ∧
        build [⟨"a"⟩, ⟨"a-1:080:11211"⟩] .md5 =
          .ok { router with hosts := [⟨"a"⟩, ⟨"a-1:080:11211"⟩] } := by
  obtain ⟨texts, -, onDefault⟩ := points_are_shared_by_label_only
  have notDefault : (Address.parse "a-1:080").isDefaultPort = false := by decide
  have otherPort (inner : String) : ¬ Address.NamesDefaultPort "a-1:080" inner := fun names =>
    absurd (Address.isDefaultPort_parse_iff.mpr ⟨inner, names⟩) (by rw [notDefault]; decide)
  obtain ⟨samePoints, sameRing⟩ := onDefault "a-1:080" (by decide) otherPort
  refine ⟨notDefault, samePoints, ?_, sameRing .md5 [⟨"a"⟩] []⟩
  rw [ne_eq, texts]
  decide

end RingRouter

end CacheRouting
