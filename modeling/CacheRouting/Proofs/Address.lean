import CacheRouting.Address
import CacheRouting.Proofs.Text.Digits

/-!
# Addresses as they are written

An address that writes a host, a colon and a port is split into the two, and any other
address is a host as a whole.  What is displayed writes the same host and port, so that it is
split in the same place, and it differs from what was read at most in a plus sign and zeros
in front of the port.
-/

namespace CacheRouting

namespace Address

theorem splitLastColon?_eq_none_iff {text : List Char} :
    splitLastColon? text = none ↔ ':' ∉ text := by
  induction text with
  | nil => simp [splitLastColon?]
  | cons character rest ih =>
      rw [splitLastColon?, List.mem_cons, not_or, ← ih]
      cases splitLastColon? rest with
      | none => simp [eq_comm]
      | some parts => simp

theorem splitLastColon?_eq_some_iff {text before after : List Char} :
    splitLastColon? text = some (before, after) ↔
      text = before ++ ':' :: after ∧ ':' ∉ after := by
  constructor
  · intro splits
    induction text generalizing before with
    | nil => cases splits
    | cons character rest ih =>
        rw [splitLastColon?] at splits
        cases later : splitLastColon? rest with
        | none =>
            rw [later] at splits
            dsimp only at splits
            split at splits
            · next isColon =>
              cases splits
              exact ⟨by rw [isColon, List.nil_append], splitLastColon?_eq_none_iff.mp later⟩
            · cases splits
        | some parts =>
            rw [later] at splits
            cases splits
            obtain ⟨restEq, notAfter⟩ := ih later
            exact ⟨by rw [restEq, List.cons_append], notAfter⟩
  · rintro ⟨rfl, notAfter⟩
    induction before with
    | nil => rw [List.nil_append, splitLastColon?, splitLastColon?_eq_none_iff.mpr notAfter]; rfl
    | cons character before ih => rw [List.cons_append, splitLastColon?, ih]

/-- The text is a host that is not empty, a colon, and the spelling of a port that 16 bits
hold. -/
structure Writes (text host : String) (spelling : List Char) (port : Nat) : Prop where
  host_ne : host ≠ ""
  text_eq : text.toList = host.toList ++ ':' :: spelling
  isNumeral : Text.IsNumeral spelling port
  port_lt : port < 65536

variable {text host : String} {spelling : List Char} {port : Nat}

theorem parse_eq_of_writes (writes : Writes text host spelling port) :
    parse text = ⟨host, some port⟩ := by
  have splits : splitLastColon? text.toList = some (host.toList, spelling) :=
    splitLastColon?_eq_some_iff.mpr
      ⟨writes.text_eq, writes.isNumeral.notMem (by decide) (by decide)⟩
  have reads : Text.readUnsigned? 65536 spelling = some port :=
    Text.readUnsigned?_eq_some_iff.mpr ⟨writes.isNumeral, writes.port_lt⟩
  obtain ⟨first, rest, hostEq⟩ : ∃ first rest, host.toList = first :: rest :=
    List.exists_cons_of_ne_nil (mt String.toList_eq_nil_iff.mp writes.host_ne)
  rw [parse, splits, hostEq]
  dsimp only
  rw [reads, ← hostEq, String.ofList_toList]

/-- An address is split exactly as it writes a host and a port, and stays whole if it writes
none. -/
theorem parse_cases (text : String) :
    (∃ host spelling port, Writes text host spelling port ∧ parse text = ⟨host, some port⟩) ∨
      (∀ host spelling port, ¬ Writes text host spelling port) ∧ parse text = ⟨text, none⟩ := by
  by_cases someWritten : ∃ host spelling port, Writes text host spelling port
  · obtain ⟨host, spelling, port, writes⟩ := someWritten
    exact .inl ⟨host, spelling, port, writes, parse_eq_of_writes writes⟩
  · refine .inr ⟨fun host spelling port writes => someWritten ⟨host, spelling, port, writes⟩, ?_⟩
    unfold parse
    split
    · next first rest spelling splits =>
      split
      · next port reads =>
        obtain ⟨isNumeral, inRange⟩ := Text.readUnsigned?_eq_some_iff.mp reads
        refine absurd ⟨String.ofList (first :: rest), spelling, port, ?_, ?_, isNumeral, inRange⟩
          someWritten
        · simp
        · rw [String.toList_ofList]
          exact (splitLastColon?_eq_some_iff.mp splits).1
      · rfl
    · rfl

theorem display_of_port (host : String) (port : Nat) :
    (⟨host, some port⟩ : Address).display = host ++ ":" ++ toString port := by
  have shown : String.ofList (Text.digitsOfNumber port) = toString port :=
    String.toList_inj.mp (String.toList_ofList.trans Nat.toList_repr.symm)
  exact congrArg (host ++ ":" ++ ·) shown

theorem writes_display (writes : Writes text host spelling port) :
    Writes (host ++ ":" ++ toString port) host (toString port).toList port where
  host_ne := writes.host_ne
  text_eq := by simp
  isNumeral := Text.isNumeral_toString port
  port_lt := writes.port_lt

theorem parse_display (text : String) : parse (parse text).display = parse text := by
  rcases parse_cases text with ⟨host, spelling, port, writes, parsed⟩ | ⟨-, parsed⟩
  · rw [parsed, display_of_port]
    exact parse_eq_of_writes (writes_display writes)
  · rw [parsed]
    exact parsed

/-- What is displayed is what was written, unless the port is padded. -/
theorem display_ne_iff_of_writes (writes : Writes text host spelling port) :
    (parse text).display ≠ text ↔ Text.IsPadded spelling := by
  rw [parse_eq_of_writes writes, display_of_port, writes.isNumeral.isPadded_iff]
  refine not_congr ?_
  rw [← String.toList_inj, writes.text_eq]
  simp [eq_comm]

/-- Reading what is displayed gives the same address again.  What is displayed differs from
what was written exactly if a port is written behind a plus sign or behind zeros that are not
needed; with a port it is the host, a colon and the digits of the port. -/
theorem addresses_are_displayed_as_written (text : String) :
    parse (parse text).display = parse text ∧
    ((parse text).display ≠ text ↔
      ∃ host spelling port, Writes text host spelling port ∧ Text.IsPadded spelling) ∧
    ∀ host spelling port, Writes text host spelling port →
      (parse text).display = host ++ ":" ++ toString port := by
  refine ⟨parse_display text, ?_, ?_⟩
  · constructor
    · intro isOther
      rcases parse_cases text with ⟨host, spelling, port, writes, -⟩ | ⟨-, parsed⟩
      · exact ⟨host, spelling, port, writes, (display_ne_iff_of_writes writes).mp isOther⟩
      · rw [parsed] at isOther
        exact absurd rfl isOther
    · rintro ⟨host, spelling, port, writes, padded⟩
      exact (display_ne_iff_of_writes writes).mpr padded
  · intro host spelling port writes
    rw [parse_eq_of_writes writes, display_of_port]

/-- The host has a colon of its own, and the port a plus sign and a zero. -/
theorem addresses_are_displayed_as_written_with_inner_colon :
    Writes "a:1:+080" "a:1" ['+', '0', '8', '0'] 80 ∧
      (parse "a:1:+080").display = "a:1:80" ∧ (parse "a:1:+080").display ≠ "a:1:+080" := by
  have writes : Writes "a:1:+080" "a:1" ['+', '0', '8', '0'] 80 :=
    ⟨by decide, by decide, ⟨['+'], 1, .inr rfl, by decide⟩, by decide⟩
  obtain ⟨-, isOther, displayed⟩ := addresses_are_displayed_as_written "a:1:+080"
  refine ⟨writes, displayed _ _ _ writes, isOther.mpr ⟨_, _, _, writes, ?_⟩⟩
  exact ⟨['0', '8', '0'], by decide, .inl rfl⟩

end Address

end CacheRouting
