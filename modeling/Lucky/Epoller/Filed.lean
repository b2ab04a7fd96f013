import Lucky.Linux

/-!
# `Filed` and `Epoller`

A `Filed` wraps a descriptor with the events it is interested in and its
registration state `index_`.  The `Epoller` of its loop keeps the map `fileds_`
and, in the kernel, the interest list.  `Ptr` stands for `Filed *`; the object
itself is passed next to its pointer and returned updated.
-/

namespace Lucky

inductive Index where
  | kNew
  | kAdded
  | kDeleted
  deriving DecidableEq, Repr

structure Filed where
  fd : Nat
  events : Mask
  revents : Mask
  index : Index
  tied : Bool
  deriving DecidableEq, Repr

namespace Filed

def kNoneEvent : Mask := 0
def kReadEvent : Mask := EPOLLIN ||| EPOLLPRI
def kWriteEvent : Mask := EPOLLOUT

def make (fd : Nat) : Filed := ⟨fd, 0, 0, .kNew, false⟩

def isNoneEvent (f : Filed) : Bool := f.events == kNoneEvent

def isWriting (f : Filed) : Bool := f.events &&& kWriteEvent != 0

end Filed

structure Epoller (Ptr : Type) where
  fileds : Nat → Option Ptr
  interest : InterestList Ptr
  /-- Number of `epoll_ctl` calls that returned `-1`. -/
  failedCtl : Nat

namespace Epoller

variable {Ptr : Type}

def make : Epoller Ptr := ⟨fun _ => none, fun _ => none, 0⟩

/-- A failed DEL is logged, a failed ADD or MOD ends the process. -/
def updateHelper (epoller : Epoller Ptr) (operation : EpollOperation)
    (ptr : Ptr) (f : Filed) : Except Fault (Epoller Ptr) :=
  match epollCtl epoller.interest operation f.fd ⟨f.events, ptr⟩ with
  | some interest => .ok { epoller with interest := interest }
  | none =>
      if operation = .EPOLL_CTL_DEL then
        .ok { epoller with failedCtl := epoller.failedCtl + 1 }
      else
        .error .logFatal

variable [DecidableEq Ptr]

def hasFiled (epoller : Epoller Ptr) (ptr : Ptr) (f : Filed) : Bool :=
  epoller.fileds f.fd == some ptr

def update (epoller : Epoller Ptr) (ptr : Ptr) (f : Filed) :
    Except Fault (Epoller Ptr × Filed) :=
  match f.index with
  | .kNew => do
      let mapped := { epoller with fileds := Function.update epoller.fileds f.fd (some ptr) }
      let added := { f with index := .kAdded }
      return (← mapped.updateHelper .EPOLL_CTL_ADD ptr added, added)
  | .kDeleted =>
      if (epoller.fileds f.fd).isNone then .error .assertion
      else if epoller.fileds f.fd ≠ some ptr then .error .assertion
      else do
        let added := { f with index := .kAdded }
        return (← epoller.updateHelper .EPOLL_CTL_ADD ptr added, added)
  | .kAdded =>
      if f.isNoneEvent then do
        return (← epoller.updateHelper .EPOLL_CTL_DEL ptr f, { f with index := .kDeleted })
      else do
        return (← epoller.updateHelper .EPOLL_CTL_MOD ptr f, f)

def remove (epoller : Epoller Ptr) (ptr : Ptr) (f : Filed) :
    Except Fault (Epoller Ptr × Filed) := do
  let erased := { epoller with fileds := Function.update epoller.fileds f.fd none }
  let after ← if f.index = .kAdded then erased.updateHelper .EPOLL_CTL_DEL ptr f else .ok erased
  return (after, { f with index := .kNew })

end Epoller

namespace Filed

variable {Ptr : Type} [DecidableEq Ptr]

/-- Store new `events_` and call `loop_->update(this)`. -/
def setEvents (events : Mask) (epoller : Epoller Ptr) (ptr : Ptr) (f : Filed) :
    Except Fault (Epoller Ptr × Filed) :=
  epoller.update ptr { f with events := events }

def enableReading (epoller : Epoller Ptr) (ptr : Ptr) (f : Filed) :=
  f.setEvents (f.events ||| kReadEvent) epoller ptr

def disableReading (epoller : Epoller Ptr) (ptr : Ptr) (f : Filed) :=
  f.setEvents (f.events &&& ~~~kReadEvent) epoller ptr

def enableWriting (epoller : Epoller Ptr) (ptr : Ptr) (f : Filed) :=
  f.setEvents (f.events ||| kWriteEvent) epoller ptr

def disableWriting (epoller : Epoller Ptr) (ptr : Ptr) (f : Filed) :=
  f.setEvents (f.events &&& ~~~kWriteEvent) epoller ptr

def disableAll (epoller : Epoller Ptr) (ptr : Ptr) (f : Filed) :=
  f.setEvents kNoneEvent epoller ptr

def remove (epoller : Epoller Ptr) (ptr : Ptr) (f : Filed) :=
  epoller.remove ptr f

/-! ## Event dispatch -/

inductive Callback where
  | close
  | error
  | read
  | write
  deriving DecidableEq, Repr

/-- The callbacks `handleEvent` runs for `revents_`, in order, when the ones in
`isSet` have been set. -/
def callbacks (isSet : Callback → Bool) (revents : Mask) : List Callback :=
  (if revents &&& EPOLLHUP != 0 && revents &&& (EPOLLHUP ||| EPOLLIN) == EPOLLHUP &&
      isSet .close then [.close] else []) ++
  (if revents &&& EPOLLERR != 0 && isSet .error then [.error] else []) ++
  (if revents &&& (EPOLLIN ||| EPOLLPRI) != 0 && isSet .read then [.read] else []) ++
  (if revents &&& EPOLLOUT != 0 && isSet .write then [.write] else [])

/-- What `handleEvent` runs: nothing when the `Filed` is tied to an object
`tie_.lock()` finds destroyed. -/
def handleEvent (isSet : Callback → Bool) (locked : Bool) (f : Filed) : List Callback :=
  if f.tied then
    if locked then callbacks isSet f.revents else []
  else
    callbacks isSet f.revents

end Filed

end Lucky
