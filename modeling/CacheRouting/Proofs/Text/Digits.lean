import CacheRouting.Text.Digits

/-!
# Numerals

A numeral is the decimal spelling of a number, after any zeros and perhaps a plus
sign.  Below its bound the reader of unsigned numbers accepts the numerals and
nothing else, and it gives the number that is spelled.
-/

namespace CacheRouting

namespace Text

/-- The characters spell a number: perhaps a plus sign, any zeros, and its digits. -/
def IsNumeral (characters : List Char) (number : Nat) : Prop :=
  ∃ sign zeros, (sign = [] ∨ sign = ['+']) ∧
    characters = sign ++ (List.replicate zeros '0' ++ Nat.toDigits 10 number)

theorem numberOfDigits_replicate_append (zeros : Nat) (digits : List Char) :
    numberOfDigits (List.replicate zeros '0' ++ digits) = numberOfDigits digits := by
  induction zeros with
  | zero => rfl
  | succ zeros ih => exact ih

theorem numberOfDigits_toDigits (number : Nat) :
    numberOfDigits (Nat.toDigits 10 number) = number :=
  Nat.ofDigitChars_toDigits (by decide) (by decide)

theorem digitChar_of_isDigit {digit : Char} (isDigit : digit.isDigit = true) :
    digit.toNat - 0x30 < 10 ∧ Nat.digitChar (digit.toNat - 0x30) = digit := by
  obtain ⟨zeroLe, leNine⟩ : 0x30 ≤ digit.toNat ∧ digit.toNat ≤ 0x39 :=
    Char.isDigit_iff_toNat.mp isDigit
  refine ⟨by omega, Char.toNat_inj.mp ?_⟩
  rw [Nat.toNat_digitChar_of_lt_ten (by omega)]
  omega

/-- Behind the digits of a positive number, more digits are those of the number continued. -/
theorem toDigits_append_digits {number : Nat} (positive : 0 < number) {digits : List Char}
    (allDigits : ∀ digit ∈ digits, digit.isDigit = true) :
    Nat.toDigits 10 number ++ digits =
      Nat.toDigits 10
        (digits.foldl (fun number digit => 10 * number + (digit.toNat - 0x30)) number) := by
  induction digits generalizing number with
  | nil => rw [List.append_nil, List.foldl_nil]
  | cons digit digits ih =>
      obtain ⟨isDigit, restDigits⟩ := List.forall_mem_cons.mp allDigits
      obtain ⟨small, digitEq⟩ := digitChar_of_isDigit isDigit
      calc
        Nat.toDigits 10 number ++ digit :: digits
          = Nat.toDigits 10 number ++ Nat.toDigits 10 (digit.toNat - 0x30) ++ digits := by
            rw [Nat.toDigits_of_lt_base small, digitEq, List.append_assoc, List.singleton_append]
        _ = Nat.toDigits 10 (10 * number + (digit.toNat - 0x30)) ++ digits := by
            rw [Nat.toDigits_append_toDigits (by decide) positive small]
        _ = _ := ih (by omega) restDigits

/-- A row of digits is the spelling of its number behind zeros. -/
theorem exists_eq_replicate_append_toDigits {digits : List Char} (notEmpty : digits ≠ [])
    (allDigits : ∀ digit ∈ digits, digit.isDigit = true) :
    ∃ zeros, digits = List.replicate zeros '0' ++ Nat.toDigits 10 (numberOfDigits digits) := by
  induction digits with
  | nil => exact absurd rfl notEmpty
  | cons digit digits ih =>
      obtain ⟨isDigit, restDigits⟩ := List.forall_mem_cons.mp allDigits
      obtain ⟨small, digitEq⟩ := digitChar_of_isDigit isDigit
      have spelled := Nat.toDigits_of_lt_base small
      rw [digitEq] at spelled
      rcases Nat.eq_zero_or_pos (digit.toNat - 0x30) with isZero | positive
      · have digitIsZero : digit = '0' := by rw [← digitEq, isZero]; rfl
        subst digitIsZero
        cases digits with
        | nil => exact ⟨0, rfl⟩
        | cons next digits =>
            obtain ⟨zeros, restEq⟩ := ih (by simp) restDigits
            refine ⟨zeros + 1, ?_⟩
            rw [List.replicate_succ, List.cons_append]
            exact congrArg _ restEq
      · refine ⟨0, ?_⟩
        have continued := toDigits_append_digits positive restDigits
        rw [spelled, List.singleton_append] at continued
        have numberEq : numberOfDigits (digit :: digits) =
            digits.foldl (fun number digit => 10 * number + (digit.toNat - 0x30))
              (digit.toNat - 0x30) := by
          rw [numberOfDigits, List.foldl_cons, Nat.mul_zero, Nat.zero_add]
        rw [List.replicate_zero, List.nil_append, numberEq, ← continued]

theorem isDigit_of_mem_replicate_append {zeros number : Nat} {digit : Char}
    (isMember : digit ∈ List.replicate zeros '0' ++ Nat.toDigits 10 number) :
    digit.isDigit = true := by
  rcases List.mem_append.mp isMember with isZero | isDigit
  · rw [List.eq_of_mem_replicate isZero]
    rfl
  · exact Nat.isDigit_of_mem_toDigits (by decide) (by decide) isDigit

theorem isNumeral_toString (number : Nat) : IsNumeral (toString number).toList number :=
  ⟨[], 0, .inl rfl, Nat.toList_repr⟩

/-- A character that is neither a digit nor a plus sign stands in no numeral. -/
theorem IsNumeral.notMem {characters : List Char} {number : Nat}
    (isNumeral : IsNumeral characters number) {separator : Char}
    (notDigit : separator.isDigit = false) (notPlus : separator ≠ '+') :
    separator ∉ characters := by
  obtain ⟨sign, zeros, signEq, rfl⟩ := isNumeral
  intro isMember
  rcases List.mem_append.mp isMember with inSign | inDigits
  · rcases signEq with rfl | rfl
    · cases inSign
    · exact notPlus (List.mem_singleton.mp inSign)
  · cases notDigit.symm.trans (isDigit_of_mem_replicate_append inDigits)

def IsPadded (spelling : List Char) : Prop :=
  ∃ rest, rest ≠ [] ∧ (spelling = '+' :: rest ∨ spelling = '0' :: rest)

/-- The spellings without padding are the digits of the number. -/
theorem IsNumeral.isPadded_iff {characters : List Char} {number : Nat}
    (isNumeral : IsNumeral characters number) :
    IsPadded characters ↔ characters ≠ Nat.toDigits 10 number := by
  constructor
  · rintro ⟨rest, notEmpty, rfl | rfl⟩ digitsEq
    · have isDigit : '+'.isDigit = true :=
        Nat.isDigit_of_mem_toDigits (b := 10) (n := number) (by decide) (by decide)
          (digitsEq ▸ List.mem_cons_self)
      cases isDigit
    · -- what follows the zero spells the number too, and is as long as its digits
      have restDigits : ∀ digit ∈ rest, digit.isDigit = true := fun digit member =>
        Nat.isDigit_of_mem_toDigits (b := 10) (n := number) (by decide) (by decide)
          (digitsEq ▸ List.mem_cons_of_mem _ member)
      obtain ⟨zeros, restEq⟩ := exists_eq_replicate_append_toDigits notEmpty restDigits
      have sameNumber : numberOfDigits rest = number := by
        rw [← numberOfDigits_toDigits number, ← digitsEq]
        exact (numberOfDigits_replicate_append 1 rest).symm
      have longer := congrArg List.length digitsEq
      rw [restEq, sameNumber, List.length_cons, List.length_append] at longer
      omega
  · intro isOther
    obtain ⟨sign, zeros, signEq, rfl⟩ := isNumeral
    have notEmpty : List.replicate zeros '0' ++ Nat.toDigits 10 number ≠ [] := by
      simp [Nat.toDigits_ne_nil]
    rcases signEq with rfl | rfl
    · cases zeros with
      | zero => exact absurd rfl isOther
      | succ zeros =>
          exact ⟨List.replicate zeros '0' ++ Nat.toDigits 10 number,
            by simp [Nat.toDigits_ne_nil], .inr rfl⟩
    · exact ⟨_, notEmpty, .inl rfl⟩

theorem readDigits?_eq_some_iff {bound number : Nat} {digits : List Char} :
    readDigits? bound digits = some number ↔
      (∃ zeros, digits = List.replicate zeros '0' ++ Nat.toDigits 10 number) ∧ number < bound := by
  rw [readDigits?]
  constructor
  · intro read
    split at read
    next accepted =>
      obtain ⟨notEmpty, allDigits, inRange⟩ := accepted
      cases read
      exact ⟨exists_eq_replicate_append_toDigits notEmpty (List.all_eq_true.mp allDigits), inRange⟩
    next => cases read
  · rintro ⟨⟨zeros, rfl⟩, inRange⟩
    rw [numberOfDigits_replicate_append, numberOfDigits_toDigits, if_pos]
    exact ⟨by simp [Nat.toDigits_ne_nil],
      List.all_eq_true.mpr fun _ => isDigit_of_mem_replicate_append, inRange⟩

theorem dropPlus_of_isDigit {digits : List Char}
    (allDigits : ∀ digit ∈ digits, digit.isDigit = true) : dropPlus digits = digits := by
  unfold dropPlus
  split
  next rest => exact absurd (allDigits '+' List.mem_cons_self) (by decide)
  next => rfl

/-- Below the bound the reader accepts the numerals, and only these. -/
theorem readUnsigned?_eq_some_iff {bound number : Nat} {characters : List Char} :
    readUnsigned? bound characters = some number ↔
      IsNumeral characters number ∧ number < bound := by
  rw [readUnsigned?, readDigits?_eq_some_iff]
  refine and_congr_left fun _ => ?_
  constructor
  · rintro ⟨zeros, digitsEq⟩
    unfold dropPlus at digitsEq
    split at digitsEq
    next rest => exact ⟨['+'], zeros, .inr rfl, congrArg _ digitsEq⟩
    next => exact ⟨[], zeros, .inl rfl, digitsEq⟩
  · rintro ⟨sign, zeros, rfl | rfl, rfl⟩
    · exact ⟨zeros, dropPlus_of_isDigit fun _ => isDigit_of_mem_replicate_append⟩
    · exact ⟨zeros, rfl⟩

end Text

end CacheRouting
