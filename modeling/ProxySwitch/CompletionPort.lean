import Mathlib.Data.BitVec
import ProxySwitch.TransitionRuns

set_option autoImplicit false

/-!
# The I/O completion port and its thread pool

`io_completion_port` of winsys: worker threads take completions from the kernel's queue and call the
handler that is registered under the key. A step is one access to what the threads share;
`associations` and the fields behind it record the history.
-/
namespace ProxySwitch.CompletionPort
open TransitionRuns

/-- A queued completion. An operation that failed comes with its `OVERLAPPED`. -/
structure Completion (w : ℕ) (ο : Type) where
  completionKey : BitVec w
  numBytes : BitVec 32
  overlappedPtr : Option ο
  ok : Bool
  failed : ok = false → overlappedPtr.isSome

/-- Where a worker of `start_thread` stands. Nothing is returned at a timeout or an error of the
    port; `φ` is the progress of a handler. -/
inductive Worker (w : ℕ) (ο η φ : Type)
  | checking
  | waiting
  | returned (status : Option (Completion w ο))
  | looking (completion : Completion w ο)
  | calling (handler : η) (completion : Completion w ο) (phase : φ)
  | exited

/-- Where a call of `start_thread_pool` or `stop_thread_pool` stands. -/
inductive Caller
  | idle
  | creating (left : ℕ)
  | waking (left : ℕ)
  | joining (joined : ℕ)
  deriving DecidableEq

/-- `associating` has the calls of `associate_device` between their two locks, `sharing` those that took a
    key, behind their lock. `associations` and `shared` are the keys with which devices were associated,
    and `drawn` is how often `next_key_` was read. -/
structure IoCompletionPort (w : ℕ) (ο η φ : Type) where
  active : Bool
  threads : List (Worker w ο η φ)
  handlers : BitVec w → Option η
  nextKey : BitVec w
  queue : List (Completion w ο)
  caller : Caller
  associating : List (BitVec w × η)
  sharing : List (BitVec w)
  associations : List (BitVec w × η)
  shared : List (BitVec w)
  drawn : ℕ
  posted : List (Completion w ο)
  calls : List (η × Completion w ο)
  ignored : List (Completion w ο)
  discarded : List (Completion w ο)
  unregistered : List (BitVec w)
  halted : Bool
  stops : ℕ

/-- What a worker does in its next turn; the queue and the handlers are the environment's. -/
inductive Label (w : ℕ) (ο η φ : Type)
  | startThreadPool
  | createThread
  | createThreadFails
  | stopThreadPool
  | stopThread (delivered : Option ο)
  | join
  | check (i : ℕ)
  | dequeue (i : ℕ)
  | timeout (i : ℕ)
  | examine (i : ℕ)
  | look (i : ℕ)
  | handle (i : ℕ) (phase : φ)
  | handled (i : ℕ)
  | post (completion : Completion w ο)
  | associateDevice (ioHandler : η)
  | deviceAssociated (i : ℕ) (success : Bool)
  | associateDeviceWithKey (key : BitVec w)
  | deviceAssociatedWithKey (i : ℕ) (success : Bool)
  | unregisterHandler (key : BitVec w)

section Step

variable {w : ℕ} {ο η φ : Type}

/-- What `stop_thread` posts: a completion under the reserved key. -/
def wakeUp (w : ℕ) (overlapped : ο) : Completion w ο where
  completionKey := 0
  numBytes := 0
  overlappedPtr := some overlapped
  ok := true
  failed := fun h => Bool.noConfusion h

/-- The loop of `associate_device`: the key, if one was found, and what is left in `next_key_`. -/
def generateKey (handlers : BitVec w → Option η) : ℕ → BitVec w → Option (BitVec w) × BitVec w
  | 0, next => (none, next)
  | attempts + 1, next =>
    if next = 0 then generateKey handlers attempts (next + 1)
    else if (handlers next).isSome then generateKey handlers attempts (next + 1)
    else (some next, next + 1)

def maxAttempts : ℕ := 1000

/-- How many candidates that loop takes. -/
def attemptsTaken (handlers : BitVec w → Option η) : ℕ → BitVec w → ℕ
  | 0, _ => 0
  | attempts + 1, next =>
    if next = 0 then attemptsTaken handlers attempts (next + 1) + 1
    else if (handlers next).isSome then attemptsTaken handlers attempts (next + 1) + 1
    else 1

namespace IoCompletionPort

variable (s : IoCompletionPort w ο η φ)

def goto (i : ℕ) (p : Worker w ο η φ) : IoCompletionPort w ο η φ := { s with threads := s.threads.set i p }

/-- The second look at `active_`, and the tests on what was returned. -/
def examined (i : ℕ) (status : Option (Completion w ο)) : IoCompletionPort w ο η φ :=
  if s.active then
    match status with
    | none => s.goto i .checking
    | some c =>
      if c.completionKey = 0 then { s with ignored := s.ignored ++ [c] }.goto i .checking
      else s.goto i (.looking c)
  else { s with discarded := s.discarded ++ status.toList }.goto i .exited

/-- The handler is copied under the lock and called without it. -/
def looked (entry : φ) (i : ℕ) (c : Completion w ο) : IoCompletionPort w ο η φ :=
  match s.handlers c.completionKey with
  | some handler => { s with calls := s.calls ++ [(handler, c)] }.goto i (.calling handler c entry)
  | none => { s with ignored := s.ignored ++ [c] }.goto i .checking

/-- `active_` is cleared, and each thread is to be woken. -/
def halt : IoCompletionPort w ο η φ :=
  { s with active := false, halted := true, caller := .waking s.threads.length }

def enqueue (c : Completion w ο) : IoCompletionPort w ο η φ :=
  { s with queue := s.queue ++ [c], posted := s.posted ++ [c] }

/-- The first locked part of `associate_device`; it throws where no key was found. -/
def reserve (ioHandler : η) : IoCompletionPort w ο η φ :=
  let generated := generateKey s.handlers maxAttempts s.nextKey
  let counted := { s with
    nextKey := generated.2
    drawn := s.drawn + attemptsTaken s.handlers maxAttempts s.nextKey }
  match generated.1 with
  | some key => { counted with
      handlers := Function.update s.handlers key (some ioHandler)
      associating := s.associating ++ [(key, ioHandler)] }
  | none => counted

/-- What `CreateIoCompletionPort` answered for the device. -/
def associated (i : ℕ) (key : BitVec w) (ioHandler : η) (success : Bool) : IoCompletionPort w ο η φ :=
  let returned := { s with associating := s.associating.eraseIdx i }
  if success then { returned with associations := s.associations ++ [(key, ioHandler)] }
  else { returned with handlers := Function.update s.handlers key none }

/-- The locked part of the `associate_device` that takes a key. -/
def associateWithKey (key : BitVec w) : IoCompletionPort w ο η φ :=
  if (s.handlers key).isSome then { s with sharing := s.sharing ++ [key] } else s

def associatedWithKey (i : ℕ) (key : BitVec w) (success : Bool) : IoCompletionPort w ο η φ :=
  { s with
    sharing := s.sharing.eraseIdx i
    shared := if success then s.shared ++ [key] else s.shared }

def unregisterHandler (key : BitVec w) : IoCompletionPort w ο η φ :=
  if (s.handlers key).isSome then
    { s with handlers := Function.update s.handlers key none, unregistered := key :: s.unregistered }
  else s

end IoCompletionPort

variable (concurrentThreads : ℕ) (entry : φ)

/-- Starting and stopping at the same time is excluded by the contract of the class. A caller has no key
    but those that were returned to it, and 0. -/
def step (s : IoCompletionPort w ο η φ) : Label w ο η φ → Option (IoCompletionPort w ο η φ)
  | .startThreadPool =>
    if s.active then some s
    else if s.caller = .idle then some { s with active := true, caller := .creating (concurrentThreads * 2) }
    else none
  | .createThread =>
    match s.caller with
    | .creating (left + 1) => some { s with threads := s.threads ++ [.checking], caller := .creating left }
    | .creating 0 => some { s with caller := .idle }
    | _ => none
  | .createThreadFails =>
    match s.caller with
    | .creating (_ + 1) => some s.halt
    | _ => none
  | .stopThreadPool =>
    if s.active then if s.caller = .idle then some s.halt else none
    else some s
  | .stopThread delivered =>
    match s.caller with
    | .waking (left + 1) =>
      some { (match delivered with
        | some overlapped => s.enqueue (wakeUp w overlapped)
        | none => s) with caller := .waking left }
    | .waking 0 => some { s with caller := .joining 0 }
    | _ => none
  | .join =>
    match s.caller with
    | .joining joined =>
      match s.threads[joined]? with
      | some .exited => some { s with caller := .joining (joined + 1) }
      | some _ => none
      | none => some { s with threads := [], caller := .idle, stops := s.stops + 1 }
    | _ => none
  | .check i =>
    match s.threads[i]? with
    | some .checking => some (s.goto i (if s.active then .waiting else .exited))
    | _ => none
  | .dequeue i =>
    match s.threads[i]?, s.queue with
    | some .waiting, c :: rest => some ({ s with queue := rest }.goto i (.returned (some c)))
    | _, _ => none
  | .timeout i =>
    match s.threads[i]? with
    | some .waiting => some (s.goto i (.returned none))
    | _ => none
  | .examine i =>
    match s.threads[i]? with
    | some (.returned status) => some (s.examined i status)
    | _ => none
  | .look i =>
    match s.threads[i]? with
    | some (.looking c) => some (s.looked entry i c)
    | _ => none
  | .handle i phase =>
    match s.threads[i]? with
    | some (.calling handler c _) => some (s.goto i (.calling handler c phase))
    | _ => none
  | .handled i =>
    match s.threads[i]? with
    | some (.calling _ _ _) => some (s.goto i .checking)
    | _ => none
  | .post c => if c.completionKey ∈ s.associations.map Prod.fst then some (s.enqueue c) else none
  | .associateDevice ioHandler => some (s.reserve ioHandler)
  | .deviceAssociated i success =>
    match s.associating[i]? with
    | some (key, ioHandler) => some (s.associated i key ioHandler success)
    | none => none
  | .associateDeviceWithKey key =>
    if key = 0 ∨ key ∈ s.associations.map Prod.fst then some (s.associateWithKey key) else none
  | .deviceAssociatedWithKey i success =>
    match s.sharing[i]? with
    | some key => some (s.associatedWithKey i key success)
    | none => none
  | .unregisterHandler key => some (s.unregisterHandler key)

/-- A new object. -/
def initial (w : ℕ) (ο η φ : Type) : IoCompletionPort w ο η φ where
  active := false
  threads := []
  handlers := fun _ => none
  nextKey := 1
  queue := []
  caller := .idle
  associating := []
  sharing := []
  associations := []
  shared := []
  drawn := 0
  posted := []
  calls := []
  ignored := []
  discarded := []
  unregistered := []
  halted := false
  stops := 0

end Step

/-! ### What a step can do -/

section Does

variable {w : ℕ} {ο η φ : Type} {concurrentThreads : ℕ} {entry : φ} {s t : IoCompletionPort w ο η φ}

inductive Does (concurrentThreads : ℕ) (entry : φ) (s : IoCompletionPort w ο η φ) :
    Label w ο η φ → IoCompletionPort w ο η φ → Prop
  | alreadyStarted (hactive : s.active = true) : Does concurrentThreads entry s .startThreadPool s
  | alreadyStopped (hactive : s.active = false) : Does concurrentThreads entry s .stopThreadPool s
  | started (hactive : s.active = false) (hcaller : s.caller = .idle) :
      Does concurrentThreads entry s .startThreadPool
        { s with active := true, caller := .creating (concurrentThreads * 2) }
  | created (left : ℕ) (hcaller : s.caller = .creating (left + 1)) :
      Does concurrentThreads entry s .createThread
        { s with threads := s.threads ++ [.checking], caller := .creating left }
  | allCreated (hcaller : s.caller = .creating 0) :
      Does concurrentThreads entry s .createThread { s with caller := .idle }
  | createFailed (left : ℕ) (hcaller : s.caller = .creating (left + 1)) :
      Does concurrentThreads entry s .createThreadFails s.halt
  | stopped (hactive : s.active = true) (hcaller : s.caller = .idle) :
      Does concurrentThreads entry s .stopThreadPool s.halt
  | woken (left : ℕ) (overlapped : ο) (hcaller : s.caller = .waking (left + 1)) :
      Does concurrentThreads entry s (.stopThread (some overlapped))
        { s.enqueue (wakeUp w overlapped) with caller := .waking left }
  | wakeUpLost (left : ℕ) (hcaller : s.caller = .waking (left + 1)) :
      Does concurrentThreads entry s (.stopThread none) { s with caller := .waking left }
  | allWoken {delivered} (hcaller : s.caller = .waking 0) :
      Does concurrentThreads entry s (.stopThread delivered) { s with caller := .joining 0 }
  | joined (n : ℕ) (hcaller : s.caller = .joining n) (hthread : s.threads[n]? = some .exited) :
      Does concurrentThreads entry s .join { s with caller := .joining (n + 1) }
  | allJoined (n : ℕ) (hcaller : s.caller = .joining n) (hthread : s.threads[n]? = none) :
      Does concurrentThreads entry s .join
        { s with threads := [], caller := .idle, stops := s.stops + 1 }
  | checked (i : ℕ) (hthread : s.threads[i]? = some .checking) :
      Does concurrentThreads entry s (.check i) (s.goto i (if s.active then .waiting else .exited))
  | dequeued (i : ℕ) (c : Completion w ο) (rest : List (Completion w ο))
      (hthread : s.threads[i]? = some .waiting) (hqueue : s.queue = c :: rest) :
      Does concurrentThreads entry s (.dequeue i) ({ s with queue := rest }.goto i (.returned (some c)))
  | timedOut (i : ℕ) (hthread : s.threads[i]? = some .waiting) :
      Does concurrentThreads entry s (.timeout i) (s.goto i (.returned none))
  | examined (i : ℕ) (status : Option (Completion w ο))
      (hthread : s.threads[i]? = some (.returned status)) :
      Does concurrentThreads entry s (.examine i) (s.examined i status)
  | looked (i : ℕ) (c : Completion w ο) (hthread : s.threads[i]? = some (.looking c)) :
      Does concurrentThreads entry s (.look i) (s.looked entry i c)
  | handles (i : ℕ) (handler : η) (c : Completion w ο) (phase phase' : φ)
      (hthread : s.threads[i]? = some (.calling handler c phase)) :
      Does concurrentThreads entry s (.handle i phase') (s.goto i (.calling handler c phase'))
  | handled (i : ℕ) (handler : η) (c : Completion w ο) (phase : φ)
      (hthread : s.threads[i]? = some (.calling handler c phase)) :
      Does concurrentThreads entry s (.handled i) (s.goto i .checking)
  | posted (c : Completion w ο) (hkey : c.completionKey ∈ s.associations.map Prod.fst) :
      Does concurrentThreads entry s (.post c) (s.enqueue c)
  | reserved (ioHandler : η) :
      Does concurrentThreads entry s (.associateDevice ioHandler) (s.reserve ioHandler)
  | associated (i : ℕ) (key : BitVec w) (ioHandler : η) (success : Bool)
      (hassociating : s.associating[i]? = some (key, ioHandler)) :
      Does concurrentThreads entry s (.deviceAssociated i success) (s.associated i key ioHandler success)
  | keyFound (key : BitVec w) (hkey : key = 0 ∨ key ∈ s.associations.map Prod.fst) :
      Does concurrentThreads entry s (.associateDeviceWithKey key) (s.associateWithKey key)
  | keyShared (i : ℕ) (key : BitVec w) (success : Bool) (hsharing : s.sharing[i]? = some key) :
      Does concurrentThreads entry s (.deviceAssociatedWithKey i success) (s.associatedWithKey i key success)
  | unregistered (key : BitVec w) :
      Does concurrentThreads entry s (.unregisterHandler key) (s.unregisterHandler key)

theorem step_does {a : Label w ο η φ} (h : step concurrentThreads entry s a = some t) :
    Does concurrentThreads entry s a t := by
  cases a with
  | startThreadPool =>
    simp only [step] at h
    split_ifs at h with hactive hcaller
    · obtain rfl := Option.some.inj h
      exact .alreadyStarted hactive
    · obtain rfl := Option.some.inj h
      exact .started (Bool.eq_false_of_not_eq_true hactive) hcaller
  | createThread =>
    simp only [step] at h
    split at h
    · obtain rfl := Option.some.inj h
      exact .created _ ‹_›
    · obtain rfl := Option.some.inj h
      exact .allCreated ‹_›
    · cases h
  | createThreadFails =>
    simp only [step] at h
    split at h
    · obtain rfl := Option.some.inj h
      exact .createFailed _ ‹_›
    · cases h
  | stopThreadPool =>
    simp only [step] at h
    split_ifs at h with hactive hcaller
    · obtain rfl := Option.some.inj h
      exact .stopped hactive hcaller
    · obtain rfl := Option.some.inj h
      exact .alreadyStopped (Bool.eq_false_of_not_eq_true hactive)
  | stopThread delivered =>
    simp only [step] at h
    split at h
    · obtain rfl := Option.some.inj h
      cases delivered with
      | none => exact .wakeUpLost _ ‹_›
      | some overlapped => exact .woken _ overlapped ‹_›
    · obtain rfl := Option.some.inj h
      exact .allWoken ‹_›
    · cases h
  | join =>
    simp only [step] at h
    split at h
    · rename_i n hcaller
      cases hthread : s.threads[n]? with
      | none =>
        rw [hthread] at h
        obtain rfl := Option.some.inj h
        exact .allJoined n hcaller hthread
      | some p =>
        rw [hthread] at h
        cases p with
        | exited =>
          obtain rfl := Option.some.inj h
          exact .joined n hcaller hthread
        | _ => cases h
    · cases h
  | check i =>
    simp only [step] at h
    split at h
    · obtain rfl := Option.some.inj h
      exact .checked i ‹_›
    · cases h
  | dequeue i =>
    simp only [step] at h
    split at h
    · obtain rfl := Option.some.inj h
      exact .dequeued i _ _ ‹_› ‹_›
    · cases h
  | timeout i =>
    simp only [step] at h
    split at h
    · obtain rfl := Option.some.inj h
      exact .timedOut i ‹_›
    · cases h
  | examine i =>
    simp only [step] at h
    split at h
    · obtain rfl := Option.some.inj h
      exact .examined i _ ‹_›
    · cases h
  | look i =>
    simp only [step] at h
    split at h
    · obtain rfl := Option.some.inj h
      exact .looked i _ ‹_›
    · cases h
  | handle i phase =>
    simp only [step] at h
    split at h
    · obtain rfl := Option.some.inj h
      exact .handles i _ _ _ phase ‹_›
    · cases h
  | handled i =>
    simp only [step] at h
    split at h
    · obtain rfl := Option.some.inj h
      exact .handled i _ _ _ ‹_›
    · cases h
  | post c =>
    simp only [step] at h
    split_ifs at h with hkey
    obtain rfl := Option.some.inj h
    exact .posted c hkey
  | associateDevice ioHandler =>
    obtain rfl := Option.some.inj h
    exact .reserved ioHandler
  | deviceAssociated i success =>
    simp only [step] at h
    split at h
    · obtain rfl := Option.some.inj h
      exact .associated i _ _ success ‹_›
    · cases h
  | associateDeviceWithKey key =>
    simp only [step] at h
    split_ifs at h with hkey
    obtain rfl := Option.some.inj h
    exact .keyFound key hkey
  | deviceAssociatedWithKey i success =>
    simp only [step] at h
    split at h
    · obtain rfl := Option.some.inj h
      exact .keyShared i _ success ‹_›
    · cases h
  | unregisterHandler key =>
    obtain rfl := Option.some.inj h
    exact .unregistered key

end Does

end ProxySwitch.CompletionPort
