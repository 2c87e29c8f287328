/-!
# Lists read and cut

A list is read if each of its items is, and then as the list of what they are read as.  A list
can be cut in one way only where an item stands for the last time.
-/

namespace CacheRouting

section Reading

variable {Source Target : Type} {read : Source → Option Target} {sources : List Source}

theorem mapM_eq_some_iff {targets : List Target} :
    sources.mapM read = some targets ↔ sources.map read = targets.map some := by
  induction sources generalizing targets with
  | nil => cases targets <;> simp
  | cons source sources ih =>
      rw [List.mapM_cons, List.map_cons]
      cases read source with
      | none => cases targets <;> simp
      | some target =>
          simp only [Option.bind_eq_bind, Option.bind_some, Option.pure_def,
            Option.bind_eq_some_iff, Option.some.injEq]
          constructor
          · rintro ⟨readRest, restRead, rfl⟩
            rw [ih.mp restRead, List.map_cons]
          · intro sourcesEq
            obtain ⟨head, tail, rfl, headEq, tailEq⟩ := List.map_eq_cons_iff.mp sourcesEq.symm
            exact ⟨tail, ih.mpr tailEq.symm, by rw [Option.some.inj headEq]⟩

theorem mapM_eq_some {valueOf : Source → Target}
    (reads : ∀ source ∈ sources, read source = some (valueOf source)) :
    sources.mapM read = some (sources.map valueOf) := by
  rw [mapM_eq_some_iff, List.map_map]
  exact List.map_congr_left reads

theorem mapM_eq_none {source : Source} (member : source ∈ sources)
    (fails : read source = none) : sources.mapM read = none := by
  rw [Option.eq_none_iff_forall_ne_some]
  intro targets isRead
  have notRead : read source ∈ targets.map some :=
    mapM_eq_some_iff.mp isRead ▸ List.mem_map_of_mem member
  simp [fails] at notRead

theorem mapM_eq_some_self {Item : Type} {read : Item → Option Item} {items : List Item}
    (reads : ∀ item ∈ items, read item = some item) : items.mapM read = some items := by
  have mapped : items.mapM read = some (items.map id) := mapM_eq_some reads
  rw [mapped, List.map_id]

end Reading

theorem append_cons_inj_of_notMem_right {Item : Type} {separator : Item}
    {first second firstEnd secondEnd : List Item} (notFirst : separator ∉ firstEnd)
    (notSecond : separator ∉ secondEnd) :
    first ++ separator :: firstEnd = second ++ separator :: secondEnd ↔
      first = second ∧ firstEnd = secondEnd := by
  constructor
  · intro same
    induction first generalizing second with
    | nil =>
        cases second with
        | nil => exact ⟨rfl, (List.cons.inj same).2⟩
        | cons item second =>
            obtain ⟨-, endEq⟩ := List.cons.inj same
            exact absurd (endEq ▸ List.mem_append_right _ List.mem_cons_self) notFirst
    | cons item first ih =>
        cases second with
        | nil =>
            obtain ⟨-, endEq⟩ := List.cons.inj same
            exact absurd (endEq ▸ List.mem_append_right _ List.mem_cons_self) notSecond
        | cons other second =>
            obtain ⟨rfl, restEq⟩ := List.cons.inj same
            obtain ⟨rfl, endEq⟩ := ih restEq
            exact ⟨rfl, endEq⟩
  · rintro ⟨rfl, rfl⟩
    rfl

end CacheRouting
