import CacheRouting.Memcache.Request
import CacheRouting.Text.Digits

/-!
# Replies of a cache node

A reply is a miss, an error line, or a header that announces a block of bytes,
the block, and a closing line.  A node may stop in the middle of a reply, either
closing the connection or keeping it open for ever; neither is taken for an
answer.
-/

namespace CacheRouting

namespace Memcache

/-- What a node sends: bytes, after which it closes the connection or falls
silent. -/
structure Stream where
  bytes : List UInt8
  closes : Bool
  deriving DecidableEq

structure Item where
  flags : Nat
  body : List UInt8
  deriving DecidableEq, Repr

/-- The failure of a reader that needs more bytes than there are. -/
def starved (address : String) (stream : Stream) (closed : Error) : Error :=
  if stream.closes then closed else .timeout address

/-- The text of a line up to its line feed, which a carriage return must precede. -/
def lineText (line : List UInt8) : Except Error String :=
  if line.getLast? = some 0x0d then
    match Text.ofUtf8? line.dropLast with
    | some text => .ok text
    | none => .error (.protocol "non-utf8 response line")
  else .error (.protocol "line not terminated by CRLF")

def readLine (address : String) (stream : Stream) : Except Error (String × Stream) :=
  let line := stream.bytes.takeWhile (· != 0x0a)
  match stream.bytes.dropWhile (· != 0x0a) with
  | _ :: rest => (lineText line).map fun text => (text, { stream with bytes := rest })
  | [] =>
      .error (starved address stream
        (.protocol (if line.isEmpty then "connection closed mid-response"
          else "line not terminated by CRLF")))

def readBlock (address : String) (length : Nat) (stream : Stream) :
    Except Error (List UInt8 × Stream) :=
  if stream.bytes.length < length + 2 then .error (starved address stream .io)
  else if (stream.bytes.drop length).take 2 = [0x0d, 0x0a] then
    .ok (stream.bytes.take length, { stream with bytes := stream.bytes.drop (length + 2) })
  else .error (.protocol "data block not terminated by CRLF")

def splitWords : List Char → List (List Char)
  | [] => [[]]
  | ' ' :: rest => [] :: splitWords rest
  | character :: rest =>
      match splitWords rest with
      | word :: words => (character :: word) :: words
      | [] => [[character]]

def readHeader (key header : String) : Except Error (Nat × Nat) :=
  let words := splitWords header.toList
  if words[0]? ≠ some "VALUE".toList then
    .error (.protocol ("unexpected reply " ++ Text.quote header))
  else if words[1]? ≠ some key.toList then
    .error (.protocol ("reply for wrong key: " ++ Text.quote header))
  else
    match words[2]?.bind (Text.readUnsigned? UInt32.size) with
    | none => .error (.protocol ("bad flags in " ++ Text.quote header))
    | some flags =>
        match words[3]?.bind (Text.readUnsigned? UInt64.size) with
        | none => .error (.protocol ("bad length in " ++ Text.quote header))
        | some length => .ok (flags, length)

def errorReason? (header : String) : Option String :=
  if header = "ERROR" then some header
  else if "SERVER_ERROR ".toList.isPrefixOf header.toList ||
      "CLIENT_ERROR ".toList.isPrefixOf header.toList then
    some (String.ofList (header.toList.drop 13))
  else none

def readItem (address : String) (flags length : Nat) (stream : Stream) : Except Error Item :=
  match readBlock address length stream with
  | .error error => .error error
  | .ok (body, stream) =>
      match readLine address stream with
      | .error error => .error error
      | .ok (trailer, _) =>
          if trailer = "END" then .ok ⟨flags, body⟩
          else .error (.protocol ("expected END, got " ++ Text.quote trailer))

/-- Read a whole reply to a request for a key; a miss has no item. -/
def readReply (address key : String) (stream : Stream) : Except Error (Option Item) :=
  match readLine address stream with
  | .error error => .error error
  | .ok (header, stream) =>
      if header = "END" then .ok none
      else
        match errorReason? header with
        | some reason => .error (.server reason)
        | none =>
            match readHeader key header with
            | .error error => .error error
            | .ok (flags, length) => (readItem address flags length stream).map some

end Memcache

end CacheRouting
