import CacheRouting.Proofs.Text.Utf8

/-!
# The order of texts and of their bytes

Texts are ordered character by character and their bytes byte by byte.  UTF-8 makes
both the same: a character with more bytes starts with a greater byte, and among
those with equally many the bits of the code point stand in the order of their
weight.
-/

namespace CacheRouting

namespace Text

variable {first second : Nat} {firstRest secondRest : List UInt8}

theorem cons_ofNat_lt (small : second < 256)
    (less : first < second ∨ first = second ∧ firstRest < secondRest) :
    UInt8.ofNat first :: firstRest < UInt8.ofNat second :: secondRest := by
  rw [List.cons_lt_cons_iff]
  rcases less with less | ⟨rfl, restLess⟩
  · exact .inl ((UInt8.ofNat_lt_iff_lt (Nat.lt_trans less small) small).mpr less)
  · exact .inr ⟨rfl, restLess⟩

theorem lastByte_lt (less : first % 64 < second % 64) :
    UInt8.ofNat (first % 64 + 0x80) :: firstRest < UInt8.ofNat (second % 64 + 0x80) :: secondRest :=
  cons_ofNat_lt (by omega) (.inl (by omega))

theorem lastTwoBytes_lt (less : first % 4096 < second % 4096) :
    UInt8.ofNat (first / 64 % 64 + 0x80) :: UInt8.ofNat (first % 64 + 0x80) :: firstRest <
      UInt8.ofNat (second / 64 % 64 + 0x80) :: UInt8.ofNat (second % 64 + 0x80) :: secondRest := by
  apply cons_ofNat_lt (by omega)
  by_cases same : first / 64 % 64 = second / 64 % 64
  · exact .inr ⟨by omega, lastByte_lt (by omega)⟩
  · exact .inl (by omega)

theorem lastThreeBytes_lt (less : first % 262144 < second % 262144) :
    UInt8.ofNat (first / 4096 % 64 + 0x80) :: UInt8.ofNat (first / 64 % 64 + 0x80) ::
        UInt8.ofNat (first % 64 + 0x80) :: firstRest <
      UInt8.ofNat (second / 4096 % 64 + 0x80) :: UInt8.ofNat (second / 64 % 64 + 0x80) ::
        UInt8.ofNat (second % 64 + 0x80) :: secondRest := by
  apply cons_ofNat_lt (by omega)
  by_cases same : first / 4096 % 64 = second / 4096 % 64
  · exact .inr ⟨by omega, lastTwoBytes_lt (by omega)⟩
  · exact .inl (by omega)

theorem utf8EncodeChar_append_lt {earlier later : Char} (less : earlier < later) :
    String.utf8EncodeChar earlier ++ firstRest < String.utf8EncodeChar later ++ secondRest := by
  have codeLess : earlier.toNat < later.toNat := less
  have earlierValid : earlier.toNat.isValidChar := earlier.valid
  have laterValid : later.toNat.isValidChar := later.valid
  have earlierBytes := utf8EncodeChar_ofNat earlierValid
  have laterBytes := utf8EncodeChar_ofNat laterValid
  rw [Char.ofNat_toNat] at earlierBytes laterBytes
  rw [Nat.isValidChar] at laterValid
  rw [earlierBytes, laterBytes]
  generalize earlier.toNat = first at *
  generalize later.toNat = second at *
  -- Where one has fewer bytes the first bytes differ; they can agree only within one length.
  by_cases oneByte : first ≤ 0x7f
  · rw [if_pos oneByte]
    split
    · exact cons_ofNat_lt (by omega) (.inl codeLess)
    · split
      · exact cons_ofNat_lt (by omega) (.inl (by omega))
      · split <;> exact cons_ofNat_lt (by omega) (.inl (by omega))
  rw [if_neg oneByte, if_neg (show ¬ second ≤ 0x7f by omega)]
  by_cases twoBytes : first ≤ 0x7ff
  · rw [if_pos twoBytes]
    split
    · apply cons_ofNat_lt (by omega)
      by_cases same : first / 64 = second / 64
      · exact .inr ⟨by omega, lastByte_lt (by omega)⟩
      · exact .inl (by omega)
    · split <;> exact cons_ofNat_lt (by omega) (.inl (by omega))
  rw [if_neg twoBytes, if_neg (show ¬ second ≤ 0x7ff by omega)]
  by_cases threeBytes : first ≤ 0xffff
  · rw [if_pos threeBytes]
    split
    · apply cons_ofNat_lt (by omega)
      by_cases same : first / 4096 = second / 4096
      · exact .inr ⟨by omega, lastTwoBytes_lt (by omega)⟩
      · exact .inl (by omega)
    · exact cons_ofNat_lt (by omega) (.inl (by omega))
  rw [if_neg threeBytes, if_neg (show ¬ second ≤ 0xffff by omega)]
  apply cons_ofNat_lt (by omega)
  by_cases same : first / 262144 = second / 262144
  · exact .inr ⟨by omega, lastThreeBytes_lt (by omega)⟩
  · exact .inl (by omega)

theorem flatMap_utf8EncodeChar_lt {earlier later : List Char} (less : earlier < later) :
    earlier.flatMap String.utf8EncodeChar < later.flatMap String.utf8EncodeChar := by
  induction less with
  | @nil character characters =>
      rw [List.flatMap_nil, List.flatMap_cons]
      obtain ⟨byte, bytes, bytesEq⟩ :=
        List.exists_cons_of_ne_nil (String.utf8EncodeChar_ne_nil (c := character))
      rw [bytesEq]
      exact List.nil_lt_cons ..
  | rel less => exact utf8EncodeChar_append_lt less
  | cons restLess ih => exact List.append_left_lt ih

theorem utf8_lt_iff (earlier later : String) : utf8 earlier < utf8 later ↔ earlier < later := by
  refine ⟨fun bytesLess => ?_, fun less => flatMap_utf8EncodeChar_lt less⟩
  rcases Std.lt_trichotomy earlier later with less | rfl | greater
  · exact less
  · exact absurd bytesLess (List.lt_irrefl _)
  · exact absurd bytesLess (List.lt_asymm (flatMap_utf8EncodeChar_lt greater))

end Text

end CacheRouting
