import CacheRouting.Proofs.Memcache.Reply
import Mathlib.Algebra.Group.Nat.Defs

/-!
# Keys within a line

Whatever characters a key has, no byte of a key that is sent is a blank or a control.
So a node that takes a request apart finds one command and the key as its argument,
and a header that gives the value of the key has the key as its second word.
-/

namespace CacheRouting

namespace Memcache

theorem getElem?_append_cons_eq_some_iff {Item : Type} {before after : List Item} {item : Item}
    (notBefore : item ∉ before) (notAfter : item ∉ after) (index : Nat) :
    (before ++ item :: after)[index]? = some item ↔ index = before.length := by
  constructor
  · intro isAt
    rcases Nat.lt_trichotomy index before.length with less | same | greater
    · rw [List.getElem?_append_left less] at isAt
      exact absurd (List.mem_of_getElem? isAt) notBefore
    · exact same
    · obtain ⟨offset, rfl⟩ := Nat.exists_eq_add_of_lt greater
      rw [List.getElem?_append_right (by omega), Nat.add_assoc, Nat.add_sub_cancel_left,
        List.getElem?_cons_succ] at isAt
      exact absurd (List.mem_of_getElem? isAt) notAfter
  · rintro rfl
    simp

def withoutReturn (line : List UInt8) : List UInt8 :=
  if line.getLast? = some 0x0d then line.dropLast else line

/-- What a node takes bytes for.  Each line that a line feed ends is a command, and the
words of a command stand between single blanks. -/
def commands (bytes : List UInt8) : List (List (List UInt8)) :=
  (bytes.splitOn 0x0a).dropLast.map fun line => (withoutReturn line).splitOn 0x20

/-- The bytes are a line that asks for a key, and nothing else can be read from them. -/
structure IsRequestFor (key : String) (sent : List UInt8) : Prop where
  bytes : sent = Text.utf8 ("get " ++ key ++ "\r\n")
  length_le : sent.length ≤ 256
  blank : ∀ index : Nat, sent[index]? = some 0x20 ↔ index = 3
  carriageReturn : ∀ index : Nat, sent[index]? = some 0x0d ↔ index + 2 = sent.length
  lineFeed : ∀ index : Nat, sent[index]? = some 0x0a ↔ index + 1 = sent.length
  words : (commands sent).map (·.map Text.ofUtf8?) = [[some "get", some key]]

section Requests

variable {key : String}

theorem line_eq (key : String) :
    Text.utf8 ("get " ++ key) = Text.utf8 "get" ++ 0x20 :: Text.utf8 key := by
  rw [Text.utf8_append]
  rfl

theorem request_eq (key : String) :
    request key = Text.utf8 ("get " ++ key) ++ 0x0d :: [0x0a] := by
  rw [request, Text.utf8_append]
  rfl

theorem length_line (key : String) :
    (Text.utf8 ("get " ++ key)).length = (Text.utf8 key).length + 4 := by
  rw [Text.utf8_append, List.length_append, Nat.add_comm]
  rfl

theorem length_request (key : String) : (request key).length = (Text.utf8 key).length + 6 := by
  rw [request_eq, List.length_append, length_line]
  rfl

theorem notMem_line_of_isValidKey (isValid : isValidKey key = true) {byte : UInt8}
    (low : byte < 0x20) : byte ∉ Text.utf8 ("get " ++ key) := by
  have name : (Text.utf8 "get ").all (0x20 ≤ ·) = true := rfl
  have notInName : byte ∉ Text.utf8 "get " := fun isMember =>
    UInt8.not_lt.mpr (of_decide_eq_true (List.all_eq_true.mp name byte isMember)) low
  rw [Text.utf8_append, List.mem_append, not_or]
  exact ⟨notInName, notMem_utf8_of_isValidKey isValid (UInt8.le_of_lt low)⟩

theorem commands_request (isValid : isValidKey key = true) :
    commands (request key) = [[Text.utf8 "get", Text.utf8 key]] := by
  have noBlank : 0x20 ∉ Text.utf8 key := notMem_utf8_of_isValidKey isValid (by decide)
  have noFeed : 0x0a ∉ Text.utf8 ("get " ++ key) ++ [0x0d] := by
    rw [List.mem_append, not_or]
    exact ⟨notMem_line_of_isValidKey isValid (by decide), by decide⟩
  have lines : (request key).splitOn 0x0a = [Text.utf8 ("get " ++ key) ++ [0x0d], []] := by
    rw [request_eq, List.append_cons, List.splitOn_append_cons_self_of_not_mem noFeed]
    rfl
  have words : (Text.utf8 ("get " ++ key)).splitOn 0x20 = [Text.utf8 "get", Text.utf8 key] := by
    rw [line_eq, List.splitOn_append_cons_self_of_not_mem (by decide),
      List.splitOn_eq_singleton noBlank]
  simp [commands, lines, withoutReturn, words]

theorem isRequestFor_request (isValid : isValidKey key = true) :
    IsRequestFor key (request key) := by
  obtain ⟨-, short, -⟩ := isValidKey_iff.mp isValid
  have length := length_request key
  have noReturn : 0x0d ∉ Text.utf8 ("get " ++ key) := notMem_line_of_isValidKey isValid (by decide)
  have noFeed : 0x0a ∉ Text.utf8 ("get " ++ key) ++ [0x0d] := by
    rw [List.mem_append, not_or]
    exact ⟨notMem_line_of_isValidKey isValid (by decide), by decide⟩
  have noBlank : 0x20 ∉ Text.utf8 key ++ 0x0d :: [0x0a] := by
    rw [List.mem_append, not_or]
    exact ⟨notMem_utf8_of_isValidKey isValid (by decide), by decide⟩
  refine ⟨rfl, by omega, ?_, ?_, ?_, ?_⟩
  · intro index
    rw [request_eq, line_eq, List.append_assoc, List.cons_append,
      getElem?_append_cons_eq_some_iff (by decide) noBlank]
    rfl
  · intro index
    rw [length, request_eq, getElem?_append_cons_eq_some_iff noReturn (by decide), length_line]
    omega
  · intro index
    rw [length, request_eq, List.append_cons,
      getElem?_append_cons_eq_some_iff noFeed (by decide), List.length_append, length_line]
    simp
  · have name : Text.ofUtf8? (Text.utf8 "get") = some "get" := Text.ofUtf8?_eq_some_iff.mpr rfl
    have argument : Text.ofUtf8? (Text.utf8 key) = some key := Text.ofUtf8?_eq_some_iff.mpr rfl
    rw [commands_request isValid]
    simp only [List.map_cons, List.map_nil, name, argument]

end Requests

/-- The header with which a node answers for a key, up to its numbers. -/
def headerFor (key numbers : String) : String :=
  "VALUE " ++ key ++ " " ++ numbers

section Headers

variable {key : String}

theorem toList_headerFor (key numbers : String) :
    (headerFor key numbers).toList =
      "VALUE".toList ++ ' ' :: (key.toList ++ ' ' :: numbers.toList) := by
  simp [headerFor]

theorem splitWords_headerFor (isValid : isValidKey key = true) (numbers : String) :
    splitWords (headerFor key numbers).toList =
      "VALUE".toList :: key.toList :: splitWords numbers.toList := by
  rw [toList_headerFor, splitWords_append_cons (by decide),
    splitWords_append_cons (blank_notMem_of_isValidKey isValid)]

/-- The header is one line, whatever stands behind it. -/
theorem readLine_headerFor (isValid : isValidKey key = true) (address : String) {numbers : String}
    (noFeed : '\n' ∉ numbers.toList) (behind : List UInt8) :
    readLine address ⟨Text.utf8 (headerFor key numbers ++ "\r\n") ++ behind, true⟩ =
      .ok (headerFor key numbers, ⟨behind, true⟩) := by
  have noFeedInKey : '\n' ∉ key.toList := notMem_of_isValidKey isValid (by decide)
  refine readLine_eq_ok_iff.mpr ⟨behind, ⟨?_, rfl⟩, rfl⟩
  rw [toList_headerFor]
  simp [noFeedInKey, noFeed]

/-- Nobody who asks for another key takes the header for an answer. -/
theorem eq_of_readHeader_headerFor (isValid : isValidKey key = true) {other numbers : String}
    {announced : Nat × Nat} (accepted : readHeader other (headerFor key numbers) = .ok announced) :
    other = key := by
  obtain ⟨flags, length⟩ := announced
  obtain ⟨flagsText, lengthText, words, wordsEq, -, -⟩ :=
    readHeader_eq_ok_iff_splitWords.mp accepted
  rw [splitWords_headerFor isValid, List.cons.injEq, List.cons.injEq] at wordsEq
  exact String.toList_inj.mp wordsEq.2.1.symm

theorem readHeader_headerFor (isValid : isValidKey key = true) {flags length : Nat}
    (flagsLt : flags < 2 ^ 32) (lengthLt : length < 2 ^ 64) :
    readHeader key (headerFor key (toString flags ++ " " ++ toString length)) =
      .ok (flags, length) := by
  refine (readHeader_eq_ok_iff (blank_notMem_of_isValidKey isValid)).mpr ⟨flagsLt, lengthLt,
    (toString flags).toList, (toString length).toList, [], Text.isNumeral_toString flags,
    Text.isNumeral_toString length, .inl rfl, ?_⟩
  simp [headerFor]

end Headers

/-- A key that cannot stand on a line is refused before anyone is asked for a connection.  Of
any other key a connection carries the request and nothing else, which is one command with the
key as its argument; and the header that a node answers with is one line, has the key as its
second word, and is accepted for this key and for no other. -/
theorem keys_stay_in_their_place (address key : String) :
    (isValidKey key = false ∧
      ∀ network, get network address key = ⟨none, [], .error (.invalidKey key)⟩) ∨
    (isValidKey key = true ∧
      (get .refuses address key).sent = [] ∧
      (∀ reply, (get (.connects reply) address key).contacted = some address ∧
        IsRequestFor key (get (.connects reply) address key).sent) ∧
      (∀ numbers behind, '\n' ∉ numbers.toList →
        readLine address ⟨Text.utf8 (headerFor key numbers ++ "\r\n") ++ behind, true⟩ =
            .ok (headerFor key numbers, ⟨behind, true⟩) ∧
          splitWords (headerFor key numbers).toList =
            "VALUE".toList :: key.toList :: splitWords numbers.toList ∧
          ∀ other announced, readHeader other (headerFor key numbers) = .ok announced →
            other = key) ∧
      ∀ flags length, flags < 2 ^ 32 → length < 2 ^ 64 →
        readHeader key (headerFor key (toString flags ++ " " ++ toString length)) =
          .ok (flags, length)) := by
  cases isValid : isValidKey key with
  | false =>
      refine .inl ⟨rfl, fun network => ?_⟩
      simp [get, isValid]
  | true =>
      refine .inr ⟨rfl, ?_, ?_, ?_, fun flags length => readHeader_headerFor isValid⟩
      · rw [get, if_pos isValid]
      · intro reply
        rw [get, if_pos isValid]
        exact ⟨rfl, isRequestFor_request isValid⟩
      · intro numbers behind noFeed
        exact ⟨readLine_headerFor isValid address noFeed behind,
          splitWords_headerFor isValid numbers,
          fun other announced => eq_of_readHeader_headerFor isValid⟩

/-- The longest key, of half as many characters as bytes, and the largest numbers behind it. -/
theorem keys_stay_in_their_place_of_two_bytes_each :
    ∃ key : String, key.length = 125 ∧ isValidKey key = true ∧
      IsRequestFor key (get (.connects ⟨[], true⟩) "localhost:11211" key).sent ∧
      (get (.connects ⟨[], true⟩) "localhost:11211" key).sent.length = 256 ∧
      splitWords (headerFor key "4294967295 18446744073709551615").toList =
        ["VALUE".toList, key.toList, "4294967295".toList, "18446744073709551615".toList] ∧
      readHeader key (headerFor key "4294967295 18446744073709551615") =
        .ok (4294967295, 18446744073709551615) := by
  let key := String.ofList (List.replicate 125 'é')
  have encoded : String.utf8EncodeChar 'é' = [0xc3, 0xa9] := by decide
  have bytes : Text.utf8 key = (List.replicate 125 'é').flatMap String.utf8EncodeChar := by
    rw [Text.utf8, String.toList_ofList]
  have length : (Text.utf8 key).length = 250 := by
    rw [bytes, List.length_flatMap, List.map_replicate, encoded, List.sum_replicate_nat]
    rfl
  have isValid : isValidKey key = true := by
    refine isValidKey_iff.mpr ⟨List.ne_nil_of_length_pos (by omega), by omega, ?_⟩
    intro byte isMember
    obtain ⟨character, isCharacter, inCharacter⟩ := List.mem_flatMap.mp (bytes ▸ isMember)
    rw [List.eq_of_mem_replicate isCharacter, encoded] at inCharacter
    rcases List.mem_cons.mp inCharacter with rfl | isSecond
    · decide
    · rw [List.mem_singleton.mp isSecond]
      decide
  refine ⟨key, String.length_ofList.trans List.length_replicate, isValid, ?_⟩
  rcases keys_stay_in_their_place "localhost:11211" key with
    ⟨isInvalid, -⟩ | ⟨-, -, sent, headers, accepted⟩
  · cases isValid.symm.trans isInvalid
  · obtain ⟨-, words, -⟩ := headers "4294967295 18446744073709551615" [] (by decide)
    refine ⟨(sent ⟨[], true⟩).2, ?_, words, ?_⟩
    · rw [(sent ⟨[], true⟩).2.bytes]
      exact (length_request key).trans (by omega)
    · exact accepted 4294967295 18446744073709551615 (by decide) (by decide)

end Memcache

end CacheRouting
