/-!
# Text as bytes

Text is written as UTF-8.  Reading goes byte by byte: a first byte announces how
many bytes follow and which values the next one may have, so a reader knows at
each byte whether the sequence can still be completed.  A sequence that cannot
be completed is dropped as a whole and the offending byte is read afresh.
-/

namespace CacheRouting

namespace Text

def utf8 (text : String) : List UInt8 :=
  text.toList.flatMap String.utf8EncodeChar

def replacement : Char := Char.ofNat 0xfffd

structure Utf8Sequence where
  /-- The bits collected so far. -/
  value : Nat
  /-- How many bytes follow the next one. -/
  after : Nat
  /-- The least value the next byte may have. -/
  low : UInt8
  /-- The greatest value the next byte may have. -/
  high : UInt8

/-- What a byte means where no sequence is open. -/
inductive Utf8Start
  | whole (character : Char)
  | opened (sequence : Utf8Sequence)
  | malformed

def Utf8Start.ofByte (byte : UInt8) : Utf8Start :=
  if byte < 0x80 then .whole (Char.ofNat byte.toNat)
  else if byte < 0xc2 then .malformed
  else if byte < 0xe0 then .opened ⟨byte.toNat - 0xc0, 0, 0x80, 0xbf⟩
  else if byte < 0xf0 then
    .opened ⟨byte.toNat - 0xe0, 1, if byte = 0xe0 then 0xa0 else 0x80,
      if byte = 0xed then 0x9f else 0xbf⟩
  else if byte < 0xf5 then
    .opened ⟨byte.toNat - 0xf0, 2, if byte = 0xf0 then 0x90 else 0x80,
      if byte = 0xf4 then 0x8f else 0xbf⟩
  else .malformed

/-- Read bytes as characters, with `none` for each dropped sequence.  The first
argument is the sequence that is open. -/
def scalars : Option Utf8Sequence → List UInt8 → List (Option Char)
  | none, [] => []
  | some _, [] => [none]
  | none, byte :: bytes =>
      match Utf8Start.ofByte byte with
      | .whole character => some character :: scalars none bytes
      | .opened sequence => scalars (some sequence) bytes
      | .malformed => none :: scalars none bytes
  | some sequence, byte :: bytes =>
      if sequence.low ≤ byte ∧ byte ≤ sequence.high then
        let value := sequence.value * 64 + (byte.toNat - 0x80)
        match sequence.after with
        | 0 => some (Char.ofNat value) :: scalars none bytes
        | after + 1 => scalars (some ⟨value, after, 0x80, 0xbf⟩) bytes
      else
        none :: match Utf8Start.ofByte byte with
          | .whole character => some character :: scalars none bytes
          | .opened fresh => scalars (some fresh) bytes
          | .malformed => none :: scalars none bytes

def ofUtf8? (bytes : List UInt8) : Option String :=
  ((scalars none bytes).mapM id).map String.ofList

/-- The text of the bytes, with the replacement character for each sequence
that is not well formed. -/
def ofUtf8Lossy (bytes : List UInt8) : String :=
  String.ofList ((scalars none bytes).map (·.getD replacement))

end Text

end CacheRouting
