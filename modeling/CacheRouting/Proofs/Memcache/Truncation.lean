import CacheRouting.Proofs.Memcache.Reply

/-!
# Where an answer ends

An answer ends at the last byte of its last line, and it says itself where that
is.  So what stands behind it does not matter, and no part of it is taken for an
answer: before the end of its first line and behind its block a line is missing,
and between them bytes of the block are.
-/

namespace CacheRouting

namespace Memcache

/-- The first line with its end, the block with its end, and the closing line.  A miss has
the first line alone. -/
structure Layout where
  header : List UInt8
  block : List UInt8
  closing : List UInt8

def Layout.bytes (layout : Layout) : List UInt8 :=
  layout.header ++ (layout.block ++ layout.closing)

inductive IsLayout (key : String) : Option Item → Layout → Prop
  | miss : IsLayout key none ⟨Text.utf8 "END\r\n", [], []⟩
  | hit {header : String} {item : Item} (oneLine : '\n' ∉ header.toList)
      (announces : Announces key header item.flags item.body.length) :
      IsLayout key (some item)
        ⟨Text.utf8 (header ++ "\r\n"), item.body ++ Text.utf8 "\r\n", Text.utf8 "END\r\n"⟩

section Layouts

variable {address key : String} {value : Option Item} {layout : Layout} {reply part : List UInt8}

theorem closingBytes : Text.utf8 "\r\nEND\r\n" = Text.utf8 "\r\n" ++ Text.utf8 "END\r\n" :=
  rfl

theorem IsMiss.exists_isLayout (isMiss : IsMiss reply) :
    ∃ layout, IsLayout key none layout ∧ layout.bytes <+: reply :=
  ⟨_, .miss, isMiss⟩

theorem IsHit.exists_isLayout {item : Item} (isHit : IsHit key item reply) :
    ∃ layout, IsLayout key (some item) layout ∧ layout.bytes <+: reply := by
  obtain ⟨header, rest, ⟨oneLine, rfl⟩, announces, isBlock⟩ := isHit
  refine ⟨_, .hit oneLine announces, ?_⟩
  rw [closingBytes, ← List.append_assoc] at isBlock
  exact (List.prefix_append_right_inj _).mpr isBlock

theorem IsLayout.readReply_of_prefix (keyNoBlank : ' ' ∉ key.toList)
    (isLayout : IsLayout key value layout) (isPrefix : layout.bytes <+: reply) :
    readReply address key ⟨reply, true⟩ = .ok value := by
  cases isLayout with
  | miss => exact readReply_of_isMiss isPrefix
  | hit oneLine announces =>
      obtain ⟨suffix, rfl⟩ := isPrefix
      apply readReply_of_isHit keyNoBlank
      refine ⟨_, _, ⟨oneLine, List.append_assoc ..⟩, announces, suffix, ?_⟩
      rw [closingBytes, ← List.append_assoc]

/-- A reply has a value exactly if it starts with an answer of that value. -/
theorem readReply_eq_ok_iff (keyNoBlank : ' ' ∉ key.toList) :
    readReply address key ⟨reply, true⟩ = .ok value ↔
      ∃ layout, IsLayout key value layout ∧ layout.bytes <+: reply := by
  constructor
  · intro answered
    by_cases isMiss : IsMiss reply
    · rw [readReply_of_isMiss isMiss] at answered
      cases answered
      exact isMiss.exists_isLayout
    by_cases isHit : ∃ item, IsHit key item reply
    · obtain ⟨item, isHit⟩ := isHit
      rw [readReply_of_isHit keyNoBlank isHit] at answered
      cases answered
      exact isHit.exists_isLayout
    -- a reply of any other kind is refused
    by_cases isError : ∃ reason, IsErrorReply reason reply
    · obtain ⟨reason, isError⟩ := isError
      rw [readReply_of_isErrorReply isError] at answered
      cases answered
    by_cases isCutShort : IsCutShort key reply
    · rw [readReply_of_isCutShort keyNoBlank isCutShort] at answered
      cases answered
    · have isOther : ¬ (IsMiss reply ∨ (∃ item, IsHit key item reply) ∨
          (∃ reason, IsErrorReply reason reply) ∨ IsCutShort key reply) := by
        simp only [isMiss, isHit, isError, isCutShort, or_self, not_false_eq_true]
      obtain ⟨reason, refused⟩ := exists_readReply_eq_protocol address keyNoBlank isOther
      rw [refused] at answered
      cases answered
  · rintro ⟨layout, isLayout, isPrefix⟩
    exact isLayout.readReply_of_prefix keyNoBlank isPrefix

/-- A part of two pieces ends in the first or goes on into the second. -/
theorem prefix_append_cases {first second : List UInt8} (isPrefix : part <+: first ++ second) :
    part.length < first.length ∧ part <+: first ∨
      ∃ rest, part = first ++ rest ∧ rest <+: second := by
  by_cases shorter : part.length < first.length
  · exact .inl ⟨shorter,
      List.prefix_of_prefix_length_le isPrefix (List.prefix_append ..) (Nat.le_of_lt shorter)⟩
  · obtain ⟨rest, rfl⟩ :=
      List.prefix_of_prefix_length_le (List.prefix_append first second) isPrefix (by omega)
    exact .inr ⟨rest, rfl, (List.prefix_append_right_inj first).mp isPrefix⟩

/-- The line feed of a line is its last byte. -/
theorem feed_notMem_of_part {text : String} (oneLine : '\n' ∉ text.toList)
    (isPrefix : part <+: Text.utf8 (text ++ "\r\n"))
    (shorter : part.length < (Text.utf8 (text ++ "\r\n")).length) : 0x0a ∉ part := by
  obtain ⟨noFeed, lineEq⟩ := startsWithLine_iff.mp
    (⟨oneLine, rfl⟩ : StartsWithLine (Text.utf8 (text ++ "\r\n") ++ []) text [])
  rw [List.append_nil] at lineEq
  rw [lineEq] at isPrefix shorter
  rcases List.prefix_concat_iff.mp isPrefix with whole | inLine
  · exact absurd (congrArg List.length whole) (Nat.ne_of_lt shorter)
  · exact fun isMember => noFeed (inLine.subset isMember)

theorem exists_readReply_of_notMem (address key : String) (noFeed : 0x0a ∉ part) :
    ∃ reason, readReply address key ⟨part, true⟩ = .error (.protocol reason) := by
  obtain ⟨reason, refused⟩ := readLine_of_notMem address noFeed
  exact ⟨reason, by simp [readReply, refused]⟩

/-- Behind the block, the line that is missing is the closing one. -/
theorem exists_readReply_of_block {header : String} {item : Item}
    (keyNoBlank : ' ' ∉ key.toList) (oneLine : '\n' ∉ header.toList)
    (announces : Announces key header item.flags item.body.length) (noFeed : 0x0a ∉ part) :
    ∃ reason, readReply address key
      ⟨Text.utf8 (header ++ "\r\n") ++ (item.body ++ Text.utf8 "\r\n" ++ part), true⟩ =
        .error (.protocol reason) := by
  obtain ⟨reason, refused⟩ := readLine_of_notMem address noFeed
  have blockEq : readBlock address item.body.length
      ⟨item.body ++ Text.utf8 "\r\n" ++ part, true⟩ = .ok (item.body, ⟨part, true⟩) :=
    readBlock_eq_ok_iff.mpr ⟨rfl, part, rfl, rfl⟩
  refine ⟨reason, ?_⟩
  rw [readReply_of_announces keyNoBlank ⟨oneLine, rfl⟩ announces, readItem, blockEq]
  dsimp only
  rw [refused]
  rfl

/-- What a part of an answer is taken for. -/
theorem IsLayout.readReply_part (address : String) (keyNoBlank : ' ' ∉ key.toList)
    (isLayout : IsLayout key value layout) (isPart : part <+: layout.bytes)
    (isProper : part ≠ layout.bytes) :
    if layout.header.length ≤ part.length ∧
        part.length < layout.header.length + layout.block.length then
      readReply address key ⟨part, true⟩ = .error .io
    else ∃ reason, readReply address key ⟨part, true⟩ = .error (.protocol reason) := by
  have shorter : part.length < layout.bytes.length :=
    Nat.lt_of_not_le fun longer => isProper (isPart.eq_of_length_le longer)
  cases isLayout with
  | miss =>
      rw [if_neg (by simp only [Layout.bytes, List.append_nil, List.length_nil] at shorter ⊢; omega)]
      apply exists_readReply_of_notMem
      have oneLine : '\n' ∉ "END".toList := by decide
      exact feed_notMem_of_part oneLine isPart shorter
  | @hit header item oneLine announces =>
      simp only [Layout.bytes, List.length_append] at shorter ⊢
      rcases prefix_append_cases isPart with ⟨inLine, inHeader⟩ | ⟨behind, rfl, isPrefix⟩
      · dsimp only at inLine
        rw [if_neg (by omega)]
        exact exists_readReply_of_notMem address key
          (feed_notMem_of_part oneLine inHeader inLine)
      rcases prefix_append_cases isPrefix with ⟨inBytes, inBlock⟩ | ⟨tail, rfl, isTail⟩
      · rw [if_pos (by simp only [List.length_append] at inBytes ⊢; omega)]
        apply readReply_of_isCutShort keyNoBlank
        have crlf : (Text.utf8 "\r\n").length = 2 := rfl
        rw [List.length_append, crlf] at inBytes
        exact ⟨header, behind, item.flags, item.body.length, ⟨oneLine, rfl⟩, announces, inBytes⟩
      · simp only [List.length_append] at shorter ⊢
        rw [if_neg (by omega)]
        apply exists_readReply_of_block keyNoBlank oneLine announces
        have endsOnLine : '\n' ∉ "END".toList := by decide
        have endLine : Text.utf8 "END\r\n" = Text.utf8 ("END" ++ "\r\n") := rfl
        exact feed_notMem_of_part endsOnLine isTail (by rw [← endLine]; omega)

end Layouts

/-- An answer says itself where it ends: what stands behind it does not matter, and none of
its parts is an answer.  A part that ends in the block loses the connection, and any other
part breaks the protocol. -/
theorem get_is_self_delimiting (address key : String) (isValid : isValidKey key = true)
    (reply : List UInt8) (value : Option Item)
    (answered : (get (.connects ⟨reply, true⟩) address key).answer = .ok value) :
    (∀ suffix, (get (.connects ⟨reply ++ suffix, true⟩) address key).answer = .ok value) ∧
      ∃ layout, IsLayout key value layout ∧ layout.bytes <+: reply ∧
        (get (.connects ⟨layout.bytes, true⟩) address key).answer = .ok value ∧
        (∀ other, other <+: reply →
          (get (.connects ⟨other, true⟩) address key).answer = .ok value →
          layout.bytes.length ≤ other.length) ∧
        ∀ part, part <+: layout.bytes → part ≠ layout.bytes →
          let answer := (get (.connects ⟨part, true⟩) address key).answer
          if layout.header.length ≤ part.length ∧
              part.length < layout.header.length + layout.block.length then
            answer = .error .io
          else ∃ reason, answer = .error (.protocol reason) := by
  have keyNoBlank := blank_notMem_of_isValidKey isValid
  have answerEq (bytes : List UInt8) : (get (.connects ⟨bytes, true⟩) address key).answer =
      readReply address key ⟨bytes, true⟩ := by
    rw [get, if_pos isValid]
  simp only [answerEq] at answered ⊢
  obtain ⟨layout, isLayout, isPrefix⟩ := (readReply_eq_ok_iff keyNoBlank).mp answered
  have ofPart {part : List UInt8} (isPart : part <+: layout.bytes)
      (isProper : part ≠ layout.bytes) := isLayout.readReply_part address keyNoBlank isPart isProper
  refine ⟨?_, layout, isLayout, isPrefix, ?_, ?_, fun part => ofPart⟩
  · intro suffix
    exact isLayout.readReply_of_prefix keyNoBlank (isPrefix.trans (List.prefix_append ..))
  · exact isLayout.readReply_of_prefix keyNoBlank List.prefix_rfl
  · intro other otherPrefix otherAnswered
    apply Nat.le_of_not_lt
    intro shorter
    have isPart : other <+: layout.bytes :=
      List.prefix_of_prefix_length_le otherPrefix isPrefix (Nat.le_of_lt shorter)
    have refused := ofPart isPart (by rintro rfl; exact Nat.lt_irrefl _ shorter)
    rw [otherAnswered] at refused
    split at refused
    · cases refused
    · obtain ⟨reason, refused⟩ := refused
      cases refused

/-- The block is itself a closing line, and the reply goes on behind the answer. -/
theorem get_is_self_delimiting_within_block :
    isValidKey "k" = true ∧
      (get (.connects ⟨Text.utf8 "VALUE k 3 5\r\nEND\r\n\r\nEND\r\n", true⟩)
        "localhost:11211" "k").answer = .ok (some ⟨3, Text.utf8 "END\r\n"⟩) ∧
      (get (.connects ⟨Text.utf8 "VALUE k 3 5\r\nEND\r\n\r\nEND\r\n" ++ Text.utf8 "VALUE", true⟩)
        "localhost:11211" "k").answer = .ok (some ⟨3, Text.utf8 "END\r\n"⟩) ∧
      ∃ layout, IsLayout "k" (some ⟨3, Text.utf8 "END\r\n"⟩) layout ∧
        layout.bytes <+: Text.utf8 "VALUE k 3 5\r\nEND\r\n\r\nEND\r\n" := by
  have isValid : isValidKey "k" = true := by decide
  have answered : (get (.connects ⟨Text.utf8 "VALUE k 3 5\r\nEND\r\n\r\nEND\r\n", true⟩)
      "localhost:11211" "k").answer = .ok (some ⟨3, Text.utf8 "END\r\n"⟩) := rfl
  obtain ⟨extended, layout, isLayout, isPrefix, -⟩ :=
    get_is_self_delimiting "localhost:11211" "k" isValid _ _ answered
  exact ⟨isValid, answered, extended _, layout, isLayout, isPrefix⟩

end Memcache

end CacheRouting
