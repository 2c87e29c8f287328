import CacheRouting.Memcache.Client
import CacheRouting.Proofs.Memcache.Header
import CacheRouting.Proofs.Text.Utf8

/-!
# The grammar of replies

A reply that ends is a miss, a hit, an error of the node, a hit cut short in its
block, or none of these.  A block is taken by its length alone, so it may hold
line ends and whole closing lines.
-/

namespace CacheRouting

namespace Memcache

/-- The bytes start with a line of this text, and the rest stands behind its end. -/
def StartsWithLine (bytes : List UInt8) (text : String) (rest : List UInt8) : Prop :=
  '\n' ∉ text.toList ∧ bytes = Text.utf8 (text ++ "\r\n") ++ rest

/-- In bytes, a line is what stands before the first line feed. -/
theorem startsWithLine_iff {bytes : List UInt8} {text : String} {rest : List UInt8} :
    StartsWithLine bytes text rest ↔
      0x0a ∉ Text.utf8 text ++ [0x0d] ∧ bytes = (Text.utf8 text ++ [0x0d]) ++ 0x0a :: rest := by
  have feed : (0x0a : UInt8) ∈ Text.utf8 text ↔ '\n' ∈ text.toList :=
    Text.mem_utf8_iff text '\n' (by decide)
  have crlf : Text.utf8 "\r\n" = [0x0d, 0x0a] := rfl
  simp [StartsWithLine, Text.utf8_append, feed, crlf]

theorem lineText_eq_ok_iff {line : List UInt8} {text : String} :
    lineText line = .ok text ↔ line = Text.utf8 text ++ [0x0d] := by
  rw [lineText]
  constructor
  · intro read
    split at read
    next terminated =>
      obtain ⟨bytes, rfl⟩ := List.getLast?_eq_some_iff.mp terminated
      rw [List.dropLast_concat] at read
      split at read
      next isText =>
        cases read
        rw [Text.ofUtf8?_eq_some_iff.mp isText]
      next => cases read
    next => cases read
  · rintro rfl
    rw [if_pos List.getLast?_concat, List.dropLast_concat, Text.ofUtf8?_eq_some_iff.mpr rfl]

theorem lineText_eq_error {line : List UInt8} {error : Error}
    (failed : lineText line = .error error) : ∃ reason, error = .protocol reason := by
  rw [lineText] at failed
  repeat' split at failed
  all_goals cases failed
  all_goals exact ⟨_, rfl⟩

section Lines

variable {address : String} {bytes : List UInt8}

theorem bne_feed_of_mem (noFeed : 0x0a ∉ bytes) (byte : UInt8) (isMember : byte ∈ bytes) :
    (byte != 0x0a) = true :=
  bne_iff_ne.mpr (ne_of_mem_of_not_mem isMember noFeed)

theorem readLine_of_notMem (address : String) (noFeed : 0x0a ∉ bytes) :
    ∃ reason, readLine address ⟨bytes, true⟩ = .error (.protocol reason) := by
  rw [readLine, ← List.append_nil bytes, List.dropWhile_append_of_pos (bne_feed_of_mem noFeed)]
  exact ⟨_, rfl⟩

theorem readLine_append_cons {line : List UInt8} (noFeed : 0x0a ∉ line) (rest : List UInt8) :
    readLine address ⟨line ++ 0x0a :: rest, true⟩ =
      (lineText line).map fun text => (text, ⟨rest, true⟩) := by
  have kept := bne_feed_of_mem noFeed
  simp [readLine, List.dropWhile_append_of_pos kept, List.takeWhile_append_of_pos kept]

/-- A line is read exactly if the bytes start with it. -/
theorem readLine_eq_ok_iff {text : String} {after : Stream} :
    readLine address ⟨bytes, true⟩ = .ok (text, after) ↔
      ∃ rest, StartsWithLine bytes text rest ∧ after = ⟨rest, true⟩ := by
  simp only [startsWithLine_iff]
  constructor
  · intro read
    by_cases hasFeed : 0x0a ∈ bytes
    · obtain ⟨line, rest, rfl, noFeed⟩ := List.eq_append_cons_of_mem hasFeed
      rw [readLine_append_cons noFeed] at read
      cases lineEq : lineText line with
      | error refusal =>
          rw [lineEq] at read
          cases read
      | ok lineRead =>
          rw [lineEq] at read
          cases read
          obtain rfl := lineText_eq_ok_iff.mp lineEq
          exact ⟨rest, ⟨noFeed, rfl⟩, rfl⟩
    · obtain ⟨reason, refused⟩ := readLine_of_notMem address hasFeed
      rw [refused] at read
      cases read
  · rintro ⟨rest, ⟨noFeed, rfl⟩, rfl⟩
    rw [readLine_append_cons noFeed, lineText_eq_ok_iff.mpr rfl]
    rfl

theorem readLine_eq_error {error : Error}
    (failed : readLine address ⟨bytes, true⟩ = .error error) :
    ∃ reason, error = .protocol reason := by
  by_cases hasFeed : 0x0a ∈ bytes
  · obtain ⟨line, rest, rfl, noFeed⟩ := List.eq_append_cons_of_mem hasFeed
    rw [readLine_append_cons noFeed] at failed
    cases lineEq : lineText line with
    | error refusal =>
        rw [lineEq] at failed
        cases failed
        exact lineText_eq_error lineEq
    | ok text =>
        rw [lineEq] at failed
        cases failed
  · obtain ⟨reason, refused⟩ := readLine_of_notMem address hasFeed
    rw [refused] at failed
    cases failed
    exact ⟨reason, rfl⟩

end Lines

theorem readBlock_eq_ok_iff {address : String} {length : Nat} {bytes body : List UInt8}
    {after : Stream} :
    readBlock address length ⟨bytes, true⟩ = .ok (body, after) ↔
      body.length = length ∧
        ∃ rest, bytes = body ++ Text.utf8 "\r\n" ++ rest ∧ after = ⟨rest, true⟩ := by
  have crlf : Text.utf8 "\r\n" = [0x0d, 0x0a] := rfl
  rw [readBlock, crlf]
  constructor
  · intro read
    split at read
    next => cases read
    next longEnough =>
      split at read
      next terminated =>
        cases read
        have lengthLe : length ≤ bytes.length := by
          dsimp only at longEnough
          omega
        refine ⟨List.length_take_of_le lengthLe, bytes.drop (length + 2), ?_, rfl⟩
        rw [← terminated, List.append_assoc, ← List.drop_drop, List.take_append_drop,
          List.take_append_drop]
      next => cases read
  · rintro ⟨rfl, rest, rfl, rfl⟩
    simp

theorem readBlock_eq_error {address : String} {length : Nat} {bytes : List UInt8} {error : Error}
    (failed : readBlock address length ⟨bytes, true⟩ = .error error) :
    bytes.length < length + 2 ∧ error = .io ∨ ∃ reason, error = .protocol reason := by
  rw [readBlock] at failed
  split at failed
  next short =>
    cases failed
    exact .inl ⟨short, rfl⟩
  next =>
    split at failed
    next => cases failed
    next =>
      cases failed
      exact .inr ⟨_, rfl⟩

def IsMiss (reply : List UInt8) : Prop :=
  Text.utf8 "END\r\n" <+: reply

def IsHit (key : String) (item : Item) (reply : List UInt8) : Prop :=
  ∃ header rest, StartsWithLine reply header rest ∧
    Announces key header item.flags item.body.length ∧
    item.body ++ Text.utf8 "\r\nEND\r\n" <+: rest

def IsErrorReply (reason : String) (reply : List UInt8) : Prop :=
  ∃ line rest, StartsWithLine reply line rest ∧ IsErrorLine line reason

/-- The reply announces a value of the key and ends before the block does. -/
def IsCutShort (key : String) (reply : List UInt8) : Prop :=
  ∃ header rest flags length, StartsWithLine reply header rest ∧
    Announces key header flags length ∧ rest.length < length + 2

section Replies

variable {address key : String} {reply : List UInt8}

theorem readItem_eq_ok_iff {flags length : Nat} {bytes : List UInt8} {item : Item} :
    readItem address flags length ⟨bytes, true⟩ = .ok item ↔
      item.flags = flags ∧ item.body.length = length ∧
        item.body ++ Text.utf8 "\r\nEND\r\n" <+: bytes := by
  have closing :
      Text.utf8 "\r\nEND\r\n" = Text.utf8 "\r\n" ++ Text.utf8 ("END" ++ "\r\n") := rfl
  rw [closing, readItem]
  constructor
  · intro read
    split at read
    next => cases read
    next body after blockEq =>
      obtain ⟨lengthEq, rest, rfl, rfl⟩ := readBlock_eq_ok_iff.mp blockEq
      split at read
      next => cases read
      next trailer after lineEq =>
        obtain ⟨behind, ⟨-, rfl⟩, -⟩ := readLine_eq_ok_iff.mp lineEq
        split at read
        next isEnd =>
          cases read
          exact ⟨rfl, lengthEq, behind, by simp [isEnd]⟩
        next => cases read
  · rintro ⟨rfl, lengthEq, behind, rfl⟩
    have blockEq : readBlock address length
        ⟨item.body ++ (Text.utf8 "\r\n" ++ Text.utf8 ("END" ++ "\r\n")) ++ behind, true⟩ =
          .ok (item.body, ⟨Text.utf8 ("END" ++ "\r\n") ++ behind, true⟩) :=
      readBlock_eq_ok_iff.mpr ⟨lengthEq, _, by simp only [List.append_assoc], rfl⟩
    have lineEq : readLine address ⟨Text.utf8 ("END" ++ "\r\n") ++ behind, true⟩ =
        .ok ("END", ⟨behind, true⟩) :=
      readLine_eq_ok_iff.mpr ⟨behind, ⟨by decide, rfl⟩, rfl⟩
    rw [blockEq]
    dsimp only
    rw [lineEq]
    rfl

theorem readItem_eq_error {flags length : Nat} {bytes : List UInt8} {error : Error}
    (failed : readItem address flags length ⟨bytes, true⟩ = .error error) :
    bytes.length < length + 2 ∧ error = .io ∨ ∃ reason, error = .protocol reason := by
  rw [readItem] at failed
  split at failed
  next refusal blockEq =>
    cases failed
    exact readBlock_eq_error blockEq
  next body after blockEq =>
    obtain ⟨-, rest, -, rfl⟩ := readBlock_eq_ok_iff.mp blockEq
    split at failed
    next refusal lineEq =>
      cases failed
      exact .inr (readLine_eq_error lineEq)
    next =>
      split at failed
      next => cases failed
      next =>
        cases failed
        exact .inr ⟨_, rfl⟩

theorem readItem_of_lt {flags length : Nat} {bytes : List UInt8}
    (short : bytes.length < length + 2) :
    readItem address flags length ⟨bytes, true⟩ = .error .io := by
  rw [readItem, readBlock, if_pos short]
  rfl

theorem readReply_of_isMiss (isMiss : IsMiss reply) :
    readReply address key ⟨reply, true⟩ = .ok none := by
  obtain ⟨rest, rfl⟩ := isMiss
  have lineEq : readLine address ⟨Text.utf8 "END\r\n" ++ rest, true⟩ =
      .ok ("END", ⟨rest, true⟩) :=
    readLine_eq_ok_iff.mpr ⟨rest, ⟨by decide, rfl⟩, rfl⟩
  simp [readReply, lineEq]

theorem readReply_of_isErrorReply {reason : String} (isError : IsErrorReply reason reply) :
    readReply address key ⟨reply, true⟩ = .error (.server reason) := by
  obtain ⟨line, rest, startsWithLine, isErrorLine⟩ := isError
  have lineEq : readLine address ⟨reply, true⟩ = .ok (line, ⟨rest, true⟩) :=
    readLine_eq_ok_iff.mpr ⟨rest, startsWithLine, rfl⟩
  have notEnd : line ≠ "END" := by
    rintro rfl
    have := errorReason?_eq_some_iff.mpr isErrorLine
    cases this
  simp [readReply, lineEq, notEnd, errorReason?_eq_some_iff.mpr isErrorLine]

theorem readReply_of_announces {header : String} {rest : List UInt8} {flags length : Nat}
    (keyNoBlank : ' ' ∉ key.toList) (startsWithLine : StartsWithLine reply header rest)
    (announces : Announces key header flags length) :
    readReply address key ⟨reply, true⟩ =
      (readItem address flags length ⟨rest, true⟩).map some := by
  have lineEq : readLine address ⟨reply, true⟩ = .ok (header, ⟨rest, true⟩) :=
    readLine_eq_ok_iff.mpr ⟨rest, startsWithLine, rfl⟩
  obtain ⟨notEnd, notError⟩ := announces.errorReason?_eq_none
  simp [readReply, lineEq, notEnd, notError, (readHeader_eq_ok_iff keyNoBlank).mpr announces]

theorem readReply_of_isHit {item : Item} (keyNoBlank : ' ' ∉ key.toList)
    (isHit : IsHit key item reply) :
    readReply address key ⟨reply, true⟩ = .ok (some item) := by
  obtain ⟨header, rest, startsWithLine, announces, isBlock⟩ := isHit
  rw [readReply_of_announces keyNoBlank startsWithLine announces,
    readItem_eq_ok_iff.mpr ⟨rfl, rfl, isBlock⟩]
  rfl

theorem readReply_of_isCutShort (keyNoBlank : ' ' ∉ key.toList)
    (isCutShort : IsCutShort key reply) :
    readReply address key ⟨reply, true⟩ = .error .io := by
  obtain ⟨header, rest, flags, length, startsWithLine, announces, short⟩ := isCutShort
  rw [readReply_of_announces keyNoBlank startsWithLine announces, readItem_of_lt short]
  rfl

/-- A reply of none of the other kinds is refused. -/
theorem exists_readReply_eq_protocol (address : String) (keyNoBlank : ' ' ∉ key.toList)
    (noOther : ¬ (IsMiss reply ∨ (∃ item, IsHit key item reply) ∨
      (∃ reason, IsErrorReply reason reply) ∨ IsCutShort key reply)) :
    ∃ reason, readReply address key ⟨reply, true⟩ = .error (.protocol reason) := by
  simp only [not_or, not_exists] at noOther
  obtain ⟨notMiss, notHit, notError, notCutShort⟩ := noOther
  cases lineEq : readLine address ⟨reply, true⟩ with
  | error refusal =>
      obtain ⟨reason, rfl⟩ := readLine_eq_error lineEq
      exact ⟨reason, by simp [readReply, lineEq]⟩
  | ok read =>
      obtain ⟨header, after⟩ := read
      obtain ⟨rest, startsWithLine, rfl⟩ := readLine_eq_ok_iff.mp lineEq
      have notEnd : header ≠ "END" := by
        rintro rfl
        exact notMiss ⟨rest, startsWithLine.2.symm⟩
      have notErrorLine : errorReason? header = none := by
        rw [Option.eq_none_iff_forall_ne_some]
        intro reason isReason
        exact notError reason
          ⟨header, rest, startsWithLine, errorReason?_eq_some_iff.mp isReason⟩
      cases headerEq : readHeader key header with
      | error refusal =>
          obtain ⟨reason, rfl⟩ := readHeader_eq_error headerEq
          exact ⟨reason, by simp [readReply, lineEq, notEnd, notErrorLine, headerEq]⟩
      | ok announced =>
          obtain ⟨flags, length⟩ := announced
          have announces := (readHeader_eq_ok_iff keyNoBlank).mp headerEq
          rw [readReply_of_announces keyNoBlank startsWithLine announces]
          cases itemEq : readItem address flags length ⟨rest, true⟩ with
          | ok item =>
              obtain ⟨rfl, rfl, isBlock⟩ := readItem_eq_ok_iff.mp itemEq
              exact absurd ⟨header, rest, startsWithLine, announces, isBlock⟩ (notHit item)
          | error refusal =>
              rcases readItem_eq_error itemEq with ⟨short, -⟩ | ⟨reason, rfl⟩
              · exact absurd ⟨header, rest, flags, length, startsWithLine, announces, short⟩
                  notCutShort
              · exact ⟨reason, rfl⟩

end Replies

section Keys

variable {key : String}

theorem isValidKey_iff :
    isValidKey key = true ↔
      Text.utf8 key ≠ [] ∧ (Text.utf8 key).length ≤ 250 ∧
        ∀ byte ∈ Text.utf8 key, 0x20 < byte ∧ byte ≠ 0x7f := by
  rw [isValidKey, Bool.and_eq_true, Bool.and_eq_true, decide_eq_true_eq, and_assoc]
  simp [isKeyByte, maxKeyLength]

theorem notMem_utf8_of_isValidKey (isValid : isValidKey key = true) {byte : UInt8}
    (low : byte ≤ 0x20) : byte ∉ Text.utf8 key := by
  obtain ⟨-, -, keyBytes⟩ := isValidKey_iff.mp isValid
  intro isMember
  exact UInt8.not_lt.mpr low (keyBytes byte isMember).1

/-- No character up to the blank is in a key, since it would show in the bytes. -/
theorem notMem_of_isValidKey (isValid : isValidKey key = true) {character : Char}
    (low : character.toNat ≤ 0x20) : character ∉ key.toList := by
  intro isMember
  have inBytes := (Text.mem_utf8_iff key character (by omega)).mpr isMember
  refine notMem_utf8_of_isValidKey isValid ?_ inBytes
  rw [UInt8.le_iff_toNat_le, UInt8.toNat_ofNat']
  exact Nat.le_trans (Nat.mod_le ..) low

end Keys

theorem blank_notMem_of_isValidKey {key : String} (isValid : isValidKey key = true) :
    ' ' ∉ key.toList :=
  notMem_of_isValidKey isValid (by decide)

/-- What a reply after which the node closes is taken for: a miss, a hit with its item, an
error of the node, or a lost connection exactly if it is of that kind, and otherwise a
breach of the protocol. -/
theorem get_follows_grammar (address key : String) (isValid : isValidKey key = true)
    (reply : List UInt8) :
    let answer := (get (.connects ⟨reply, true⟩) address key).answer
    (answer = .ok none ↔ IsMiss reply) ∧
      (∀ item, answer = .ok (some item) ↔ IsHit key item reply) ∧
      (∀ reason, answer = .error (.server reason) ↔ IsErrorReply reason reply) ∧
      (answer = .error .io ↔ IsCutShort key reply) ∧
      ((∃ reason, answer = .error (.protocol reason)) ↔
        ¬ (IsMiss reply ∨ (∃ item, IsHit key item reply) ∨ (∃ reason, IsErrorReply reason reply) ∨
          IsCutShort key reply)) := by
  have keyNoBlank := blank_notMem_of_isValidKey isValid
  have answerEq : (get (.connects ⟨reply, true⟩) address key).answer =
      readReply address key ⟨reply, true⟩ := by
    rw [get, if_pos isValid]
  rw [answerEq]
  generalize answerIs : readReply address key ⟨reply, true⟩ = answer
  have ofMiss (isMiss : IsMiss reply) : answer = .ok none :=
    answerIs.symm.trans (readReply_of_isMiss isMiss)
  have ofHit (item : Item) (isHit : IsHit key item reply) : answer = .ok (some item) :=
    answerIs.symm.trans (readReply_of_isHit keyNoBlank isHit)
  have ofError (reason : String) (isError : IsErrorReply reason reply) :
      answer = .error (.server reason) :=
    answerIs.symm.trans (readReply_of_isErrorReply isError)
  have ofCut (isCutShort : IsCutShort key reply) : answer = .error .io :=
    answerIs.symm.trans (readReply_of_isCutShort keyNoBlank isCutShort)
  -- Each kind fixes the answer, and no two kinds fix the same one.
  by_cases isOther : IsMiss reply ∨ (∃ item, IsHit key item reply) ∨
      (∃ reason, IsErrorReply reason reply) ∨ IsCutShort key reply
  · grind
  · obtain ⟨reason, refused⟩ := exists_readReply_eq_protocol address keyNoBlank isOther
    grind

/-- The block ends where its length says, although a closing line stands in it. -/
theorem get_follows_grammar_through_closing_line :
    isValidKey "k" = true ∧
      (get (.connects ⟨Text.utf8 "VALUE k +07 7 9\r\n\r\nEND\r\n\r\nEND\r\n", true⟩)
        "localhost:11211" "k").answer = .ok (some ⟨7, Text.utf8 "\r\nEND\r\n"⟩) := by
  have isValid : isValidKey "k" = true := by decide
  have announces : Announces "k" "VALUE k +07 7 9" 7 7 :=
    ⟨by decide, by decide, "+07".toList, "7".toList, " 9".toList,
      ⟨['+'], 1, .inr rfl, rfl⟩, ⟨[], 0, .inl rfl, rfl⟩, .inr ⟨['9'], rfl⟩, rfl⟩
  have isHit : IsHit "k" ⟨7, Text.utf8 "\r\nEND\r\n"⟩
      (Text.utf8 "VALUE k +07 7 9\r\n\r\nEND\r\n\r\nEND\r\n") :=
    ⟨"VALUE k +07 7 9", _, ⟨by decide, rfl⟩, announces, [], rfl⟩
  exact ⟨isValid, ((get_follows_grammar "localhost:11211" "k" isValid _).2.1 _).mpr isHit⟩

end Memcache

end CacheRouting
