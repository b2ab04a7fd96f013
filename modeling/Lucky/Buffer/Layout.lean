import Lucky.Linux
import Lucky.Systems.Size
import Lucky.Systems.Window

/-!
# The byte buffer

`Buffer` is the vector `buffer_` with its two indices.  Every function keeps
the arithmetic of the source (`size_t` modulo `2 ^ 64`) and checks the ranges
it copies: a copy outside `buffer_` ends in `outOfBounds`, a `resize` beyond
`max_size()` in `lengthError`.  Both carry the buffer as it was left behind.
-/

namespace Lucky

open Systems

structure Buffer where
  buffer : List Byte
  readerIndex : Nat
  writerIndex : Nat
  deriving DecidableEq, Repr

/-- A fault together with the buffer at that moment. -/
structure Raised where
  fault : Fault
  buffer : Buffer
  deriving DecidableEq, Repr

namespace Buffer

def kCheapPrepend : Nat := 8
def kInitialSize : Nat := 1024

def extrabuffSize : Nat := 65536

def make (initalSize : Nat) : Except Fault Buffer :=
  if sizeAdd kCheapPrepend initalSize ≤ maxSize then
    .ok {
      buffer := List.replicate (sizeAdd kCheapPrepend initalSize) 0
      readerIndex := kCheapPrepend
      writerIndex := kCheapPrepend }
  else
    .error .lengthError

/-- The buffer the default argument `kInitialSize` gives. -/
def initial : Buffer where
  buffer := List.replicate (kCheapPrepend + kInitialSize) 0
  readerIndex := kCheapPrepend
  writerIndex := kCheapPrepend

def readableBytes (b : Buffer) : Nat := sizeSub b.writerIndex b.readerIndex

def writableBytes (b : Buffer) : Nat := sizeSub b.buffer.length b.writerIndex

def prependableBytes (b : Buffer) : Nat := b.readerIndex

def readable (b : Buffer) : List Byte := window b.buffer b.readerIndex b.writerIndex

def retrieveAll (b : Buffer) : Buffer :=
  { b with readerIndex := kCheapPrepend, writerIndex := kCheapPrepend }

def retrieve (b : Buffer) (len : Nat) : Buffer :=
  if len < b.readableBytes then
    { b with readerIndex := sizeAdd b.readerIndex len }
  else
    b.retrieveAll

/-- `std::string(peek(), len)`: the copy reads `len` bytes from `readerIndex_` on. -/
def copyOut (b : Buffer) (len : Nat) : Except Raised (List Byte) :=
  if maxSize < len then
    .error ⟨.lengthError, b⟩
  else if b.readerIndex + len ≤ b.buffer.length then
    .ok (window b.buffer b.readerIndex (b.readerIndex + len))
  else
    .error ⟨.outOfBounds, b⟩

def retrieveAsString (b : Buffer) (len : Nat) : Except Raised (Buffer × List Byte) := do
  let result ← b.copyOut len
  pure (b.retrieve len, result)

def retrieveAllAsString (b : Buffer) : Except Raised (Buffer × List Byte) :=
  b.retrieveAsString b.readableBytes

/-- `std::copy` of `block` to the cells from `position` on. -/
def copyTo (b : Buffer) (position : Nat) (block : List Byte) : Except Raised Buffer :=
  if position + block.length ≤ b.buffer.length then
    .ok { b with buffer := splice b.buffer position block }
  else
    .error ⟨.outOfBounds, b⟩

/-- `buffer_.resize(size)`: new cells are zero. -/
def resize (b : Buffer) (size : Nat) : Except Raised Buffer :=
  if size ≤ maxSize then
    .ok { b with
      buffer := b.buffer.take size ++ List.replicate (size - b.buffer.length) 0 }
  else
    .error ⟨.lengthError, b⟩

/-- The `std::copy` of `makeSpace`, which slides the readable bytes to the front. -/
def slide (b : Buffer) : Except Raised Buffer :=
  if b.readerIndex ≤ b.writerIndex ∧ b.writerIndex ≤ b.buffer.length then
    b.copyTo kCheapPrepend (window b.buffer b.readerIndex b.writerIndex)
  else
    .error ⟨.outOfBounds, b⟩

def makeSpace (b : Buffer) (len : Nat) : Except Raised Buffer :=
  if sizeAdd b.writableBytes b.prependableBytes < sizeAdd len kCheapPrepend then
    b.resize (sizeAdd b.writerIndex len)
  else do
    let readable := b.readableBytes
    let moved ← b.slide
    pure { moved with
      readerIndex := kCheapPrepend
      writerIndex := sizeAdd kCheapPrepend readable }

def ensureWritableBytes (b : Buffer) (len : Nat) : Except Raised Buffer :=
  if b.writableBytes < len then b.makeSpace len else .ok b

/-- `append(data, len)` for the bytes of `[data, data + len)`. -/
def append (b : Buffer) (data : List Byte) : Except Raised Buffer := do
  let roomy ← b.ensureWritableBytes data.length
  let copied ← roomy.copyTo roomy.writerIndex data
  pure { copied with writerIndex := sizeAdd copied.writerIndex data.length }

/-- Total length of the iovecs `readFd` passes to `readv`. -/
def iovTotal (b : Buffer) : Nat :=
  if b.writableBytes < extrabuffSize then b.writableBytes + extrabuffSize
  else b.writableBytes

/-- `readFd`, given the answer of `readv`.  The received bytes fill the writable
cells first and `extrabuff` with the rest.  The result is the buffer, the
returned `n` and `*saveErrno`. -/
def readFd (b : Buffer) (saveErrno : Nat) (answer : ReadvResult) :
    Except Raised (Buffer × Int × Nat) :=
  match answer with
  | .failed errno => .ok (b, -1, errno)
  | .received bytes => do
      let writable := b.writableBytes
      let filled ← b.copyTo b.writerIndex (bytes.take writable)
      if bytes.length ≤ writable then
        pure ({ filled with writerIndex := sizeAdd filled.writerIndex bytes.length },
          bytes.length, saveErrno)
      else do
        let appended ← { filled with writerIndex := filled.buffer.length }.append
          (bytes.drop writable)
        pure (appended, bytes.length, saveErrno)

/-- `writeFd`, given the answer of `::write`: the returned `n` and `*saveErrno`. -/
def writeFd (_b : Buffer) (saveErrno : Nat) (answer : WriteResult) : Int × Nat :=
  if answer.returned < 0 then (answer.returned, answer.errno)
  else (answer.returned, saveErrno)

end Buffer

end Lucky
