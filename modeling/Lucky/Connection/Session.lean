import Lucky.Buffer.Layout
import Lucky.Epoller.Filed

/-!
# Connections

The functions of `Connection` as its loop thread runs them.  A `Session` is the
connection, the `Epoller` of its loop and the calls made so far on anything
else: system calls, callbacks, functors queued on the loop.  User callbacks run
inside the functions that call them and may call `send`, `shutdown` and the
retrieving functions of the input buffer any number of times; these calls are a
parameter.  `connectionCallback_`, `messageCallback_` and `closeCallback_` are called
untested, and are taken to be set.
-/

namespace Lucky

open Systems

inductive StateE where
  | kDisconnected
  | kConnecting
  | kConnected
  | kDisconnecting
  deriving DecidableEq, Repr

/-- The part of memory that `data` points into, relative to `data`, and the
length passed with it.  The `len` bytes from `data` on are one object. -/
structure Chunk where
  memory : Int → Byte
  len : Nat
  fits : len ≤ maxSize

namespace Chunk

def bytes (chunk : Chunk) (offset : Int) (count : Nat) : List Byte :=
  (List.range count).map fun (position : Nat) => chunk.memory (offset + position)

def data (chunk : Chunk) : List Byte := chunk.bytes 0 chunk.len

/-- A single byte. -/
def single (byte : Byte) : Chunk := ⟨fun _ => byte, 1, one_le_maxSize⟩

end Chunk

/-- Functors a connection queues on its own loop. -/
inductive Queued where
  | writeCompleteCallback
  | highWaterMarkCallback (size : Nat)
  deriving DecidableEq, Repr

/-- A call on something outside the connection and its `Epoller`. -/
inductive Call where
  | write (requested : List Byte) (answer : WriteResult)
  /-- `outputBuffer_.append(data + offset, count)` for a chunk of length `len`. -/
  | append (offset : Int) (count len : Nat)
  | queueinLoop (functor : Queued)
  | shutdownWrite
  | connectionCallback (isConnect : Bool)
  | messageCallback
  | closeCallback
  deriving DecidableEq, Repr

structure Connection where
  state : StateE
  filed : Filed
  inputBuffer : Buffer
  outputBuffer : Buffer
  highWaterMark : Nat
  /-- Whether `writeCompleteCallback_` has been set. -/
  writeCompleteCallback : Bool
  /-- Whether `highWaterMarkCallback_` has been set. -/
  highWaterMarkCallback : Bool
  deriving DecidableEq, Repr

/-- The constructor of `Connection`, with the user's choice of callbacks. -/
def Connection.make (fd : Nat) (writeCompleteCallback highWaterMarkCallback : Bool) :
    Connection where
  state := .kConnecting
  filed := Filed.make fd
  inputBuffer := Buffer.initial
  outputBuffer := Buffer.initial
  highWaterMark := 64 * 1024 * 1024
  writeCompleteCallback := writeCompleteCallback
  highWaterMarkCallback := highWaterMarkCallback

structure Session (Ptr : Type) where
  ptr : Ptr
  connection : Connection
  epoller : Epoller Ptr
  calls : List Call

def Session.make {Ptr : Type} (ptr : Ptr) (connection : Connection) (epoller : Epoller Ptr) :
    Session Ptr :=
  ⟨ptr, connection, epoller, []⟩

/-- A connection just constructed, with the user's choice of callbacks and mark. -/
def Session.constructed {Ptr : Type} (ptr : Ptr) (fd highWaterMark : Nat)
    (writeCompleteCallback highWaterMarkCallback : Bool) (epoller : Epoller Ptr) : Session Ptr :=
  Session.make ptr
    { Connection.make fd writeCompleteCallback highWaterMarkCallback with
      highWaterMark := highWaterMark } epoller

/-- What user code may call on a connection from a callback or a functor. -/
inductive UserCall where
  | send (data : Chunk) (answer : WriteResult)
  | shutdown
  | retrieve (len : Nat)

namespace Session

variable {Ptr : Type}

def record (s : Session Ptr) (call : Call) : Session Ptr :=
  { s with calls := s.calls ++ [call] }

def setState (s : Session Ptr) (state : StateE) : Session Ptr :=
  { s with connection := { s.connection with state := state } }

def setOutput (s : Session Ptr) (output : Buffer) : Session Ptr :=
  { s with connection := { s.connection with outputBuffer := output } }

def setInput (s : Session Ptr) (input : Buffer) : Session Ptr :=
  { s with connection := { s.connection with inputBuffer := input } }

/-- Call a function of `filed_`. -/
def onFiled (s : Session Ptr)
    (call : Epoller Ptr → Ptr → Filed → Except Fault (Epoller Ptr × Filed)) :
    Except Fault (Session Ptr) := do
  let (epoller, filed) ← call s.epoller s.ptr s.connection.filed
  return { s with epoller := epoller, connection := { s.connection with filed := filed } }

def isConnect (s : Session Ptr) : Bool := s.connection.state == .kConnected

/-! ## Sending -/

structure Progress where
  nwrote : Int
  remaining : Nat
  faultError : Bool
  deriving DecidableEq, Repr

/-- The direct `write` of `sendinLoop` and the branches on its result. -/
def writeDirectly (s : Session Ptr) (data : Chunk) (answer : WriteResult) :
    Session Ptr × Progress :=
  let written := s.record (.write data.data answer)
  if answer.returned > 0 then
    let remaining := sizeSub data.len answer.returned.toNat
    if remaining = 0 ∧ s.connection.writeCompleteCallback then
      (written.record (.queueinLoop .writeCompleteCallback),
        ⟨answer.returned, remaining, false⟩)
    else
      (written, ⟨0, remaining, answer.errno != EWOULDBLOCK⟩)
  else
    (written, ⟨answer.returned, data.len, false⟩)

def checkHighWaterMark (s : Session Ptr) (remaining : Nat) : Session Ptr :=
  let oldLen := s.connection.outputBuffer.readableBytes
  if s.connection.highWaterMark ≤ sizeAdd oldLen remaining ∧
      oldLen < s.connection.highWaterMark ∧ s.connection.highWaterMarkCallback then
    s.record (.queueinLoop (.highWaterMarkCallback (sizeAdd oldLen remaining)))
  else
    s

variable [DecidableEq Ptr]

/-- The second half of `sendinLoop`: keep what has not been sent. -/
def bufferRemaining (s : Session Ptr) (data : Chunk) (progress : Progress) :
    Except Fault (Session Ptr) :=
  if !progress.faultError ∧ 0 < progress.remaining then do
    let marked := s.checkHighWaterMark progress.remaining
    let output ← (marked.connection.outputBuffer.append
      (data.bytes progress.nwrote progress.remaining)).mapError (·.fault)
    let appended := (marked.setOutput output).record
      (.append progress.nwrote progress.remaining data.len)
    if !appended.connection.filed.isWriting then
      appended.onFiled Filed.enableWriting
    else
      return appended
  else
    return s

def writesDirectly (s : Session Ptr) : Bool :=
  !s.connection.filed.isWriting && s.connection.outputBuffer.readableBytes == 0

def sendinLoop (s : Session Ptr) (data : Chunk) (answer : WriteResult) :
    Except Fault (Session Ptr) :=
  if s.connection.state = .kDisconnected then
    return s
  else if s.writesDirectly then
    (s.writeDirectly data answer).1.bufferRemaining data (s.writeDirectly data answer).2
  else
    s.bufferRemaining data ⟨0, data.len, false⟩

/-- `send` on the loop thread. -/
def send (s : Session Ptr) (data : Chunk) (answer : WriteResult) :
    Except Fault (Session Ptr) :=
  if s.connection.state = .kConnected then s.sendinLoop data answer else return s

/-! ## Closing -/

def shutdownInLoop (s : Session Ptr) : Session Ptr :=
  if !s.connection.filed.isWriting then s.record .shutdownWrite else s

/-- `shutdown` on the loop thread. -/
def shutdown (s : Session Ptr) : Session Ptr :=
  if s.connection.state = .kConnected then (s.setState .kDisconnecting).shutdownInLoop else s

def userCall (s : Session Ptr) : UserCall → Except Fault (Session Ptr)
  | .send data answer => s.send data answer
  | .shutdown => return s.shutdown
  | .retrieve len => return s.setInput (s.connection.inputBuffer.retrieve len)

def userCalls (s : Session Ptr) (calls : List UserCall) : Except Fault (Session Ptr) :=
  calls.foldlM userCall s

/-- Run `connectionCallback_`, in which the user makes `calls`. -/
def connectionCallback (s : Session Ptr) (calls : List UserCall) :
    Except Fault (Session Ptr) :=
  (s.record (.connectionCallback s.isConnect)).userCalls calls

/-- `handleClose` up to its callbacks. -/
def beginClose (s : Session Ptr) : Except Fault (Session Ptr) :=
  (s.setState .kDisconnected).onFiled Filed.disableAll

def handleClose (s : Session Ptr) (calls : List UserCall) : Except Fault (Session Ptr) := do
  let closed ← s.beginClose
  let notified ← closed.connectionCallback calls
  return notified.record .closeCallback

/-! ## Events -/

/-- `handleError` reads and logs the socket error. -/
def handleError (s : Session Ptr) : Session Ptr := s

/-- `handleRead`, given the answer of `readv`; `calls` are made by the user in
the callback that runs. -/
def handleRead (s : Session Ptr) (answer : ReadvResult) (calls : List UserCall) :
    Except Fault (Session Ptr) := do
  let (input, n, _) ← (s.connection.inputBuffer.readFd 0 answer).mapError (·.fault)
  let received := s.setInput input
  if n > 0 then
    (received.record .messageCallback).userCalls calls
  else if n = 0 then
    received.handleClose calls
  else
    return received.handleError

/-- `handleWrite` once the output buffer has been sent. -/
def outputDrained (s : Session Ptr) : Except Fault (Session Ptr) := do
  let disabled ← s.onFiled Filed.disableWriting
  let notified :=
    if disabled.connection.writeCompleteCallback then
      disabled.record (.queueinLoop .writeCompleteCallback)
    else
      disabled
  return if notified.connection.state = .kDisconnecting then notified.shutdownInLoop else notified

def handleWrite (s : Session Ptr) (answer : WriteResult) : Except Fault (Session Ptr) :=
  if s.connection.filed.isWriting then
    let output := s.connection.outputBuffer
    let n := (output.writeFd 0 answer).1
    let written := s.record (.write output.readable answer)
    if n > 0 then
      let retrieved := written.setOutput (output.retrieve n.toNat)
      if retrieved.connection.outputBuffer.readableBytes = 0 then
        retrieved.outputDrained
      else
        return retrieved
    else
      return written
  else
    return s

/-- What the kernel answers and the user does while one report is handled. -/
structure EventInputs where
  closeCalls : List UserCall
  readv : ReadvResult
  readCalls : List UserCall
  write : WriteResult

def runCallback (inputs : EventInputs) (s : Session Ptr) :
    Filed.Callback → Except Fault (Session Ptr)
  | .close => s.handleClose inputs.closeCalls
  | .error => return s.handleError
  | .read => s.handleRead inputs.readv inputs.readCalls
  | .write => s.handleWrite inputs.write

/-- `filed_->handleEvent`; the constructor of `Connection` sets all callbacks,
and `locked` is whether `tie_.lock()` finds the connection. -/
def handleEvent (s : Session Ptr) (locked : Bool) (inputs : EventInputs) :
    Except Fault (Session Ptr) :=
  (s.connection.filed.handleEvent (fun _ => true) locked).foldlM (runCallback inputs) s

/-! ## Establishing and destroying -/

/-- `connectEstablished` up to its callback. -/
def establish (s : Session Ptr) : Except Fault (Session Ptr) :=
  let connected := s.setState .kConnected
  let tied := { connected with
    connection.filed := { connected.connection.filed with tied := true } }
  tied.onFiled Filed.enableReading

def connectEstablished (s : Session Ptr) (calls : List UserCall) :
    Except Fault (Session Ptr) := do
  let established ← s.establish
  established.connectionCallback calls

def connectDestroyed (s : Session Ptr) (calls : List UserCall) :
    Except Fault (Session Ptr) := do
  let closed ←
    if s.connection.state = .kConnected then do
      let disabled ← s.beginClose
      disabled.connectionCallback calls
    else
      pure s
  closed.onFiled Filed.remove

end Session

end Lucky
