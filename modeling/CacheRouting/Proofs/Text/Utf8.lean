import CacheRouting.Proofs.Sequence
import CacheRouting.Text.Utf8

/-!
# Reading back the bytes of a text

The reader of UTF-8 gives back the characters that were written and accepts no
other bytes.  An open sequence is followed to its end, where its bits are a code
point; the values allowed to the second byte leave out surrogates, codes past the
last one and codes that fit into fewer bytes.
-/

namespace CacheRouting

namespace Text

/-- The bytes bring an open sequence to its end and spell a code point with it. -/
inductive Utf8Sequence.Completes : Utf8Sequence → List UInt8 → Nat → Prop
  | last {value : Nat} {low high byte : UInt8} (lowLe : low ≤ byte) (leHigh : byte ≤ high) :
      Completes ⟨value, 0, low, high⟩ [byte] (value * 64 + (byte.toNat - 0x80))
  | more {value after code : Nat} {low high byte : UInt8} {bytes : List UInt8}
      (lowLe : low ≤ byte) (leHigh : byte ≤ high)
      (completes : Completes ⟨value * 64 + (byte.toNat - 0x80), after, 0x80, 0xbf⟩ bytes code) :
      Completes ⟨value, after + 1, low, high⟩ (byte :: bytes) code

namespace Utf8Sequence.Completes

variable {value after code : Nat} {low high : UInt8} {bytes : List UInt8}

theorem last_iff :
    Completes ⟨value, 0, low, high⟩ bytes code ↔
      ∃ byte, bytes = [byte] ∧ (low ≤ byte ∧ byte ≤ high) ∧
        code = value * 64 + (byte.toNat - 0x80) := by
  constructor
  · intro completes
    cases completes with
    | last lowLe leHigh => exact ⟨_, rfl, ⟨lowLe, leHigh⟩, rfl⟩
  · rintro ⟨byte, rfl, inRange, codeEq⟩
    rw [codeEq]
    exact .last inRange.1 inRange.2

theorem more_iff :
    Completes ⟨value, after + 1, low, high⟩ bytes code ↔
      ∃ byte tail, bytes = byte :: tail ∧ (low ≤ byte ∧ byte ≤ high) ∧
        Completes ⟨value * 64 + (byte.toNat - 0x80), after, 0x80, 0xbf⟩ tail code := by
  constructor
  · intro completes
    cases completes with
    | more lowLe leHigh completes => exact ⟨_, _, rfl, ⟨lowLe, leHigh⟩, completes⟩
  · rintro ⟨byte, tail, rfl, inRange, completes⟩
    exact .more inRange.1 inRange.2 completes

end Utf8Sequence.Completes

theorem scalars_of_completes {sequence : Utf8Sequence} {bytes : List UInt8} {code : Nat}
    (completes : sequence.Completes bytes code) (rest : List UInt8) :
    scalars (some sequence) (bytes ++ rest) = some (Char.ofNat code) :: scalars none rest := by
  induction completes with
  | last lowLe leHigh => simp [scalars, lowLe, leHigh]
  | more lowLe leHigh completes ih => simp [scalars, lowLe, leHigh, ih]

/-- A sequence that is not dropped is completed by the next bytes. -/
theorem exists_completes {sequence : Utf8Sequence} {bytes : List UInt8}
    (noneDropped : none ∉ scalars (some sequence) bytes) :
    ∃ tail rest code, bytes = tail ++ rest ∧ sequence.Completes tail code := by
  induction bytes generalizing sequence with
  | nil => simp [scalars] at noneDropped
  | cons byte bytes ih =>
      obtain ⟨value, after, low, high⟩ := sequence
      rw [scalars] at noneDropped
      split at noneDropped
      next inRange =>
        cases after with
        | zero => exact ⟨[byte], bytes, _, rfl, .last inRange.1 inRange.2⟩
        | succ after =>
            obtain ⟨tail, rest, code, rfl, completes⟩ := ih noneDropped
            exact ⟨byte :: tail, rest, code, rfl, .more inRange.1 inRange.2 completes⟩
      next outOfRange => simp at noneDropped

/-- The values allowed to the second byte of a character, by its first byte. -/
def MayFollow (first next : UInt8) : Prop :=
  0x80 ≤ next.toNat ∧ next.toNat ≤ 0xbf ∧
    (first.toNat = 0xe0 → 0xa0 ≤ next.toNat) ∧ (first.toNat = 0xed → next.toNat ≤ 0x9f) ∧
    (first.toNat = 0xf0 → 0x90 ≤ next.toNat) ∧ (first.toNat = 0xf4 → next.toNat ≤ 0x8f)

def Utf8Start.Opens (first : UInt8) (value after : Nat) : Prop :=
  ∃ low high, (∀ next, low ≤ next ∧ next ≤ high ↔ MayFollow first next) ∧
    ofByte first = .opened ⟨value, after, low, high⟩

/-- What a first byte means, in each of the ranges it may lie in. -/
theorem Utf8Start.ofByte_cases (first : UInt8) :
    first.toNat < 0x80 ∧ ofByte first = .whole (Char.ofNat first.toNat) ∨
      0x80 ≤ first.toNat ∧ first.toNat < 0xc2 ∧ ofByte first = .malformed ∨
      0xc2 ≤ first.toNat ∧ first.toNat < 0xe0 ∧ Opens first (first.toNat - 0xc0) 0 ∨
      0xe0 ≤ first.toNat ∧ first.toNat < 0xf0 ∧ Opens first (first.toNat - 0xe0) 1 ∨
      0xf0 ≤ first.toNat ∧ first.toNat < 0xf5 ∧ Opens first (first.toNat - 0xf0) 2 ∨
      0xf5 ≤ first.toNat ∧ ofByte first = .malformed := by
  have below (bound : UInt8) : first < bound ↔ first.toNat < bound.toNat := UInt8.lt_iff_toNat_lt
  have same (bound : UInt8) : first = bound ↔ first.toNat = bound.toNat := UInt8.toNat_inj.symm
  simp only [ofByte, below, same, UInt8.reduceToNat, Opens, MayFollow, UInt8.le_iff_toNat_le]
  by_cases ascii : first.toNat < 0x80
  · exact .inl ⟨ascii, if_pos ascii⟩
  rw [if_neg ascii]
  by_cases lone : first.toNat < 0xc2
  · exact .inr (.inl ⟨by omega, lone, if_pos lone⟩)
  rw [if_neg lone]
  by_cases two : first.toNat < 0xe0
  · rw [if_pos two]
    refine .inr (.inr (.inl ⟨by omega, two, 0x80, 0xbf, ?_, rfl⟩))
    intro next
    simp only [UInt8.reduceToNat]
    omega
  rw [if_neg two]
  by_cases three : first.toNat < 0xf0
  · rw [if_pos three]
    refine .inr (.inr (.inr (.inl ⟨by omega, three, _, _, ?_, rfl⟩)))
    intro next
    simp only [UInt8.reduceToNat, apply_ite UInt8.toNat]
    grind
  rw [if_neg three]
  by_cases four : first.toNat < 0xf5
  · rw [if_pos four]
    refine .inr (.inr (.inr (.inr (.inl ⟨by omega, four, _, _, ?_, rfl⟩))))
    intro next
    simp only [UInt8.reduceToNat, apply_ite UInt8.toNat]
    grind
  · exact .inr (.inr (.inr (.inr (.inr ⟨by omega, if_neg four⟩))))

theorem utf8EncodeChar_ofNat {code : Nat} (valid : code.isValidChar) :
    String.utf8EncodeChar (Char.ofNat code) =
      if code ≤ 0x7f then [UInt8.ofNat code]
      else if code ≤ 0x7ff then
        [UInt8.ofNat (code / 64 % 32 + 0xc0), UInt8.ofNat (code % 64 + 0x80)]
      else if code ≤ 0xffff then
        [UInt8.ofNat (code / 4096 % 16 + 0xe0), UInt8.ofNat (code / 64 % 64 + 0x80),
          UInt8.ofNat (code % 64 + 0x80)]
      else
        [UInt8.ofNat (code / 262144 % 8 + 0xf0), UInt8.ofNat (code / 4096 % 64 + 0x80),
          UInt8.ofNat (code / 64 % 64 + 0x80), UInt8.ofNat (code % 64 + 0x80)] := by
  have codeEq : (Char.ofNat code).val.toNat = code := by
    rw [Char.ofNat, dif_pos valid]
    rfl
  rw [String.utf8EncodeChar, codeEq]

theorem utf8EncodeChar_of_ascii {character : Char} (ascii : character.toNat ≤ 0x7f) :
    String.utf8EncodeChar character = [UInt8.ofNat character.toNat] := by
  have encoded := utf8EncodeChar_ofNat (show character.toNat.isValidChar from character.valid)
  rwa [Char.ofNat_toNat, if_pos ascii] at encoded

/-- The first of the bytes opens a sequence, which the others complete to a code point. -/
def Spells (bytes : List UInt8) (code : Nat) : Prop :=
  ∃ first tail sequence, bytes = first :: tail ∧ Utf8Start.ofByte first = .opened sequence ∧
    sequence.Completes tail code

theorem scalars_of_spells {bytes : List UInt8} {code : Nat} (spells : Spells bytes code)
    (rest : List UInt8) :
    scalars none (bytes ++ rest) = some (Char.ofNat code) :: scalars none rest := by
  obtain ⟨first, tail, sequence, rfl, opens, completes⟩ := spells
  simp [scalars, opens, scalars_of_completes completes]

theorem eq_utf8EncodeChar_of_spells {bytes : List UInt8} {code : Nat}
    (spells : Spells bytes code) : bytes = String.utf8EncodeChar (Char.ofNat code) := by
  obtain ⟨first, tail, sequence, rfl, opens, completes⟩ := spells
  rcases Utf8Start.ofByte_cases first with
    ⟨_, whole⟩ | ⟨_, _, malformed⟩ | ⟨above, below, low, high, range, opened⟩ |
      ⟨above, below, low, high, range, opened⟩ | ⟨above, below, low, high, range, opened⟩ |
      ⟨_, malformed⟩
  · cases opens.symm.trans whole
  · cases opens.symm.trans malformed
  · rw [opens, Utf8Start.opened.injEq] at opened
    subst opened
    obtain ⟨second, rfl, inRange, codeEq⟩ := Utf8Sequence.Completes.last_iff.mp completes
    rw [range, MayFollow] at inRange
    rw [utf8EncodeChar_ofNat (by simp only [Nat.isValidChar]; omega), if_neg (by omega),
      if_pos (by omega)]
    simp only [List.cons.injEq, ← UInt8.toNat_inj, UInt8.toNat_ofNat', and_true]
    omega
  · rw [opens, Utf8Start.opened.injEq] at opened
    subst opened
    obtain ⟨second, tail, rfl, inRange, completes⟩ :=
      Utf8Sequence.Completes.more_iff.mp completes
    obtain ⟨third, rfl, thirdInRange, codeEq⟩ := Utf8Sequence.Completes.last_iff.mp completes
    rw [range, MayFollow] at inRange
    simp only [UInt8.le_iff_toNat_le, UInt8.reduceToNat] at thirdInRange
    rw [utf8EncodeChar_ofNat (by simp only [Nat.isValidChar]; omega), if_neg (by omega),
      if_neg (by omega), if_pos (by omega)]
    simp only [List.cons.injEq, ← UInt8.toNat_inj, UInt8.toNat_ofNat', and_true]
    omega
  · rw [opens, Utf8Start.opened.injEq] at opened
    subst opened
    obtain ⟨second, tail, rfl, inRange, completes⟩ :=
      Utf8Sequence.Completes.more_iff.mp completes
    obtain ⟨third, tail, rfl, thirdInRange, completes⟩ :=
      Utf8Sequence.Completes.more_iff.mp completes
    obtain ⟨fourth, rfl, fourthInRange, codeEq⟩ :=
      Utf8Sequence.Completes.last_iff.mp completes
    rw [range, MayFollow] at inRange
    simp only [UInt8.le_iff_toNat_le, UInt8.reduceToNat] at thirdInRange fourthInRange
    rw [utf8EncodeChar_ofNat (by simp only [Nat.isValidChar]; omega), if_neg (by omega),
      if_neg (by omega), if_neg (by omega)]
    simp only [List.cons.injEq, ← UInt8.toNat_inj, UInt8.toNat_ofNat', and_true]
    omega
  · cases opens.symm.trans malformed

theorem eq_utf8EncodeChar_of_whole {first : UInt8} {character : Char}
    (isWhole : Utf8Start.ofByte first = .whole character) :
    [first] = String.utf8EncodeChar character := by
  rcases Utf8Start.ofByte_cases first with
    ⟨ascii, whole⟩ | ⟨_, _, malformed⟩ | ⟨_, _, low, high, _, opened⟩ |
      ⟨_, _, low, high, _, opened⟩ | ⟨_, _, low, high, _, opened⟩ | ⟨_, malformed⟩
  · rw [isWhole, Utf8Start.whole.injEq] at whole
    rw [whole, utf8EncodeChar_ofNat (by simp only [Nat.isValidChar]; omega), if_pos (by omega),
      UInt8.ofNat_toNat]
  all_goals simp_all

section Spelling

variable {code : Nat} {first second third fourth : UInt8}

theorem spells_two (above : 0x7f < code) (below : code ≤ 0x7ff)
    (firstEq : first.toNat = code / 64 + 0xc0) (secondEq : second.toNat = code % 64 + 0x80) :
    Spells [first, second] code := by
  have startCases := Utf8Start.ofByte_cases first
  obtain ⟨low, high, range, opened⟩ : Utf8Start.Opens first (first.toNat - 0xc0) 0 := by grind
  refine ⟨first, [second], _, rfl, opened, ?_⟩
  refine Utf8Sequence.Completes.last_iff.mpr ⟨second, rfl, ?_, by omega⟩
  rw [range, MayFollow]
  omega

theorem spells_three (valid : code.isValidChar) (above : 0x7ff < code) (below : code ≤ 0xffff)
    (firstEq : first.toNat = code / 4096 + 0xe0)
    (secondEq : second.toNat = code / 64 % 64 + 0x80) (thirdEq : third.toNat = code % 64 + 0x80) :
    Spells [first, second, third] code := by
  have startCases := Utf8Start.ofByte_cases first
  obtain ⟨low, high, range, opened⟩ : Utf8Start.Opens first (first.toNat - 0xe0) 1 := by grind
  rw [Nat.isValidChar] at valid
  refine ⟨first, [second, third], _, rfl, opened, ?_⟩
  refine Utf8Sequence.Completes.more_iff.mpr ⟨second, [third], rfl, ?_, ?_⟩
  · rw [range, MayFollow]
    omega
  refine Utf8Sequence.Completes.last_iff.mpr ⟨third, rfl, ?_, by omega⟩
  simp only [UInt8.le_iff_toNat_le, UInt8.reduceToNat]
  omega

theorem spells_four (valid : code.isValidChar) (above : 0xffff < code)
    (firstEq : first.toNat = code / 262144 + 0xf0)
    (secondEq : second.toNat = code / 4096 % 64 + 0x80)
    (thirdEq : third.toNat = code / 64 % 64 + 0x80) (fourthEq : fourth.toNat = code % 64 + 0x80) :
    Spells [first, second, third, fourth] code := by
  have startCases := Utf8Start.ofByte_cases first
  rw [Nat.isValidChar] at valid
  obtain ⟨low, high, range, opened⟩ : Utf8Start.Opens first (first.toNat - 0xf0) 2 := by grind
  refine ⟨first, [second, third, fourth], _, rfl, opened, ?_⟩
  refine Utf8Sequence.Completes.more_iff.mpr ⟨second, [third, fourth], rfl, ?_, ?_⟩
  · rw [range, MayFollow]
    omega
  refine Utf8Sequence.Completes.more_iff.mpr ⟨third, [fourth], rfl, ?_, ?_⟩
  · simp only [UInt8.le_iff_toNat_le, UInt8.reduceToNat]
    omega
  refine Utf8Sequence.Completes.last_iff.mpr ⟨fourth, rfl, ?_, by omega⟩
  simp only [UInt8.le_iff_toNat_le, UInt8.reduceToNat]
  omega

end Spelling

theorem spells_utf8EncodeChar {code : Nat} (valid : code.isValidChar) (notAscii : ¬ code ≤ 0x7f) :
    Spells (String.utf8EncodeChar (Char.ofNat code)) code := by
  have bounded : code < 0x110000 := by
    rw [Nat.isValidChar] at valid
    omega
  rw [utf8EncodeChar_ofNat valid, if_neg notAscii]
  split
  next two =>
    refine spells_two (by omega) two ?_ ?_ <;> rw [UInt8.toNat_ofNat'] <;> omega
  next notTwo =>
    split
    next three =>
      refine spells_three valid (by omega) three ?_ ?_ ?_ <;> rw [UInt8.toNat_ofNat'] <;> omega
    next notThree =>
      refine spells_four valid (by omega) ?_ ?_ ?_ ?_ <;> rw [UInt8.toNat_ofNat'] <;> omega

theorem scalars_utf8EncodeChar_append (character : Char) (rest : List UInt8) :
    scalars none (String.utf8EncodeChar character ++ rest) =
      some character :: scalars none rest := by
  have valid : character.toNat.isValidChar := character.valid
  rw [← Char.ofNat_toNat character]
  by_cases ascii : character.toNat ≤ 0x7f
  · have firstEq : (UInt8.ofNat character.toNat).toNat = character.toNat := by
      rw [UInt8.toNat_ofNat']
      omega
    have startCases := Utf8Start.ofByte_cases (UInt8.ofNat character.toNat)
    have isWhole : Utf8Start.ofByte (UInt8.ofNat character.toNat) =
        .whole (Char.ofNat character.toNat) := by grind
    rw [utf8EncodeChar_ofNat valid, if_pos ascii, List.singleton_append, scalars, isWhole]
  · exact scalars_of_spells (spells_utf8EncodeChar valid ascii) rest

theorem exists_utf8EncodeChar_append {first : UInt8} {bytes : List UInt8}
    (noneDropped : none ∉ scalars none (first :: bytes)) :
    ∃ character rest, first :: bytes = String.utf8EncodeChar character ++ rest := by
  rw [scalars] at noneDropped
  split at noneDropped
  next character isWhole =>
    exact ⟨character, bytes, by rw [← eq_utf8EncodeChar_of_whole isWhole]; rfl⟩
  next sequence opens =>
    obtain ⟨tail, rest, code, rfl, completes⟩ := exists_completes noneDropped
    refine ⟨Char.ofNat code, rest, ?_⟩
    rw [← eq_utf8EncodeChar_of_spells ⟨first, tail, sequence, rfl, opens, completes⟩]
    rfl
  next => simp at noneDropped

theorem utf8_append (first second : String) :
    utf8 (first ++ second) = utf8 first ++ utf8 second := by
  rw [utf8, String.toList_append, List.flatMap_append]
  rfl

/-- The byte of an ASCII character stands in the bytes of no other character. -/
theorem mem_utf8EncodeChar_iff {character other : Char} (ascii : character.toNat ≤ 0x7f) :
    UInt8.ofNat character.toNat ∈ String.utf8EncodeChar other ↔ character = other := by
  have valid : other.toNat.isValidChar := other.valid
  rw [← Char.toNat_inj, ← Char.ofNat_toNat other, utf8EncodeChar_ofNat valid, Char.ofNat_toNat]
  rw [Nat.isValidChar] at valid
  split <;> try split <;> try split
  all_goals
    simp only [List.mem_cons, List.not_mem_nil, or_false, ← UInt8.toNat_inj, UInt8.toNat_ofNat']
    omega

theorem mem_utf8_iff (text : String) (character : Char) (ascii : character.toNat ≤ 0x7f) :
    UInt8.ofNat character.toNat ∈ utf8 text ↔ character ∈ text.toList := by
  simp [utf8, mem_utf8EncodeChar_iff ascii]

/-- Only an ASCII character is written with its byte in front. -/
theorem head?_flatMap_utf8EncodeChar_iff {characters : List Char} {sign : Char}
    (ascii : sign.toNat ≤ 0x7f) :
    (characters.flatMap String.utf8EncodeChar).head? = some (UInt8.ofNat sign.toNat) ↔
      characters.head? = some sign := by
  cases characters with
  | nil => simp
  | cons first rest =>
      obtain ⟨byte, bytes, encoded⟩ :=
        List.exists_cons_of_ne_nil (String.utf8EncodeChar_ne_nil (c := first))
      rw [List.flatMap_cons, encoded, List.cons_append, List.head?_cons, List.head?_cons,
        Option.some.injEq, Option.some.injEq]
      constructor
      · rintro rfl
        exact ((mem_utf8EncodeChar_iff ascii).mp (encoded ▸ List.mem_cons_self)).symm
      · rintro rfl
        rw [utf8EncodeChar_of_ascii ascii] at encoded
        exact (List.cons.inj encoded).1.symm

theorem head?_utf8_iff {text : String} {sign : Char} (ascii : sign.toNat ≤ 0x7f) :
    (utf8 text).head? = some (UInt8.ofNat sign.toNat) ↔ text.toList.head? = some sign :=
  head?_flatMap_utf8EncodeChar_iff ascii

/-- An ASCII character is the second byte only behind another one. -/
theorem getElem?_one_utf8_iff {text : String} {sign : Char} (ascii : sign.toNat ≤ 0x7f) :
    (utf8 text)[1]? = some (UInt8.ofNat sign.toNat) ↔
      ∃ first rest, text.toList = first :: sign :: rest ∧ first.toNat ≤ 0x7f := by
  rw [utf8]
  cases characters : text.toList with
  | nil => simp
  | cons first rest =>
      rw [List.flatMap_cons]
      by_cases firstAscii : first.toNat ≤ 0x7f
      · rw [utf8EncodeChar_of_ascii firstAscii, List.singleton_append, List.getElem?_cons_succ,
          ← List.head?_eq_getElem?, head?_flatMap_utf8EncodeChar_iff ascii, List.head?_eq_some_iff]
        constructor
        · rintro ⟨others, rfl⟩
          exact ⟨first, others, rfl, firstAscii⟩
        · rintro ⟨other, others, same, -⟩
          exact ⟨others, (List.cons.inj same).2⟩
      · have several : 1 < (String.utf8EncodeChar first).length := by
          have notOne : first.utf8Size ≠ 1 := fun isOne =>
            firstAscii (Char.utf8Size_eq_one_iff.mp isOne)
          rw [String.length_utf8EncodeChar]
          exact Nat.lt_of_le_of_ne (Char.utf8Size_pos first) notOne.symm
        rw [List.getElem?_append_left several]
        constructor
        · intro isSecond
          obtain rfl := (mem_utf8EncodeChar_iff ascii).mp (List.mem_of_getElem? isSecond)
          exact absurd ascii firstAscii
        · rintro ⟨other, others, same, otherAscii⟩
          cases same
          exact absurd otherAscii firstAscii

theorem scalars_flatMap (characters : List Char) :
    scalars none (characters.flatMap String.utf8EncodeChar) = characters.map some := by
  induction characters with
  | nil => rfl
  | cons character characters ih =>
      rw [List.flatMap_cons, scalars_utf8EncodeChar_append, ih, List.map_cons]

theorem exists_eq_flatMap {bytes : List UInt8} (noneDropped : none ∉ scalars none bytes) :
    ∃ characters : List Char, bytes = characters.flatMap String.utf8EncodeChar := by
  induction lengthEq : bytes.length using Nat.strongRecOn generalizing bytes with
  | ind length ih =>
      cases bytes with
      | nil => exact ⟨[], rfl⟩
      | cons first bytes =>
          obtain ⟨character, rest, split⟩ := exists_utf8EncodeChar_append noneDropped
          rw [split, scalars_utf8EncodeChar_append] at noneDropped
          have shorter : rest.length < length := by
            rw [← lengthEq, split, List.length_append]
            exact Nat.lt_add_of_pos_left (List.length_pos_iff.mpr String.utf8EncodeChar_ne_nil)
          obtain ⟨characters, restEq⟩ :=
            ih rest.length shorter (List.not_mem_of_not_mem_cons noneDropped) rfl
          exact ⟨character :: characters, by rw [split, List.flatMap_cons, ← restEq]⟩

/-- Bytes are read as a text exactly if they are the bytes of that text. -/
theorem ofUtf8?_eq_some_iff {bytes : List UInt8} {text : String} :
    ofUtf8? bytes = some text ↔ bytes = utf8 text := by
  rw [ofUtf8?, Option.map_eq_some_iff]
  constructor
  · rintro ⟨characters, allRead, rfl⟩
    rw [mapM_eq_some_iff, List.map_id] at allRead
    have noneDropped : none ∉ scalars none bytes := by simp [allRead]
    obtain ⟨written, rfl⟩ := exists_eq_flatMap noneDropped
    rw [scalars_flatMap] at allRead
    have same := List.map_inj_right (fun _ _ => Option.some.inj) |>.mp allRead
    rw [utf8, String.toList_ofList, same]
  · rintro rfl
    refine ⟨text.toList, ?_, String.ofList_toList⟩
    rw [mapM_eq_some_iff, List.map_id, utf8, scalars_flatMap]

end Text

end CacheRouting
