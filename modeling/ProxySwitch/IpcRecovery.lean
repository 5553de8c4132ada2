import ProxySwitch.KeyedLists
import ProxySwitch.SessionRouteIsolation
import ProxySwitch.TaskPools

set_option autoImplicit false

/-!
# The IPC tasks of one launch session

The tasks by which `SessionManager` creates, fills, recovers and closes the server's session
of one launch session. Each request has a pipe of its own, so a request that waits for its
turn is one under way, and requests arrive in any order.
-/
namespace ProxySwitch.IpcRecovery
open KeyedLists RouterPidRoutes SessionRouteServer SessionRouteIsolation TaskPools

/-- `LaunchSession.Id`, eight hexadecimal digits. -/
structure SessionId where
  text : String
  named : blank text = false

inductive Request
  | createSession
  | addPid (pid : DWORD)
  | closeSession
  deriving DecidableEq

/-- A request is answered, does not reach the server, or is given up by the client while it is
    still under way. -/
inductive Delivery
  | answered
  | lost
  | abandoned
  deriving DecidableEq

/-- What a turn takes from outside: which way, the fate of a request, and what it carries. -/
structure Choice where
  branch : Bool := true
  delivery : Delivery := .answered
  stored : Bool := true
  endpoint : String := ""
  fileTime : BitVec 64 := 0

structure TrackedProcess where
  processId : DWORD
  exited : Bool := false
  deriving DecidableEq

/-- `ended` stands for `Status is "exited" or "failed"`. `gone` are the PIDs whose process has
    exited, `acked` those whose `addPid` was acknowledged to this session. -/
structure Shared where
  ended : Bool := false
  processes : List TrackedProcess
  traced : Traced
  gone : List DWORD := []
  acked : List DWORD := []

def Shared.livePids (s : Shared) : List DWORD :=
  (s.processes.filter fun p => !p.exited).map TrackedProcess.processId

def Shared.tracks (s : Shared) (pid : DWORD) : Bool := s.processes.any (·.processId == pid)

inductive Code
  | done
  | send (request : Request) (ok notFound failed : Code)
  | choose (a b : Code)
  | ifEnded (yes no : Code)
  | ifTracked (pid : DWORD) (yes no : Code)
  | setEnded (ended : Bool) (next : Code)
  | track (pid : DWORD) (next : Code)
  | spawn (task next : Code)
  | enterGate (next : Code)
  | leaveGate (next : Code)
  | snapshot (next : Code)
  | replay (pids : List DWORD) (next : Code)

def recreateIpcSessionAndReplayAsync (recovered failed : Code) : Code :=
  .choose failed
    (.enterGate
      (.send .createSession (.snapshot (.leaveGate recovered)) (.leaveGate failed)
        (.leaveGate failed)))

def addPidToIpcSessionAsync (pid : DWORD) (ok failed : Code) : Code :=
  .send (.addPid pid) ok
    (recreateIpcSessionAndReplayAsync (.send (.addPid pid) ok failed failed) failed) failed

def addRootPid : Option DWORD → Code
  | some pid => addPidToIpcSessionAsync pid .done .done
  | none => .done

/-- A discovered process is recorded only after its `addPid` was acknowledged. -/
def attachCandidates (root : Option DWORD) : List DWORD → Code
  | [] => .done
  | pid :: rest =>
    let next := attachCandidates root rest
    let attach := addPidToIpcSessionAsync pid (.track pid next) next
    if root = some pid then .ifTracked pid next attach else attach

def discoverStoreAppProcessesAsync (root : Option DWORD) (candidates : List DWORD) : Code :=
  .ifEnded .done (attachCandidates root candidates)

def startIpcRoutingForSession (root : Option DWORD) : Code :=
  .send .createSession (addRootPid root) .done .done

def launchTargetRouting (root : Option DWORD) (candidates : List DWORD) : Code :=
  .send .createSession
    (.spawn (discoverStoreAppProcessesAsync root candidates) (addRootPid root)) .done .done

def onProcess (pid : DWORD) : Code :=
  .track pid (.spawn (addPidToIpcSessionAsync pid .done .done) .done)

def cleanupSessionRoutes (next : Code) : Code :=
  .spawn (.send .closeSession .done .done .done) next

def finalizeAsExited : Code := .setEnded true (cleanupSessionRoutes .done)

def stopSession : Code := .ifEnded .done (.setEnded true (cleanupSessionRoutes .done))

/-- `AttachCorrelated` assigns another status without a test. -/
def attachCorrelated (pid : DWORD) : Code := .track pid (.setEnded false .done)

/-- The recovery is started without asking the server, and without asking for the status. -/
def routeDetectedChildren : Code := recreateIpcSessionAndReplayAsync .done .done

inductive Handler
  | startIpcRouting (root : Option DWORD)
  | launchTarget (root : Option DWORD) (candidates : List DWORD)
  | discoverStoreAppProcesses (root : Option DWORD) (candidates : List DWORD)
  | processFound (pid : DWORD)
  | finalize
  | stop
  | attachCorrelated (pid : DWORD)
  | routeDetectedChildren

def Handler.code : Handler → Code
  | startIpcRouting root => startIpcRoutingForSession root
  | launchTarget root candidates => launchTargetRouting root candidates
  | discoverStoreAppProcesses root candidates => discoverStoreAppProcessesAsync root candidates
  | processFound pid => onProcess pid
  | finalize => finalizeAsExited
  | stop => stopSession
  | attachCorrelated pid => IpcRecovery.attachCorrelated pid
  | routeDetectedChildren => IpcRecovery.routeDetectedChildren

def Code.inGate : Code → Bool
  | .send _ ok notFound failed => ok.inGate || notFound.inGate || failed.inGate
  | .snapshot next | .replay _ next => next.inGate
  | .leaveGate _ => true
  | _ => false

def handle (traced : Traced) (m : Message) (stored : Bool) : Traced × Reply :=
  let (server, reply) := processMessage traced.server m stored
  (⟨server, noteAdd traced.server traced.lastAdd (.request m stored)⟩, reply)

def isIpcSessionNotFound (reply : Reply) : Bool :=
  !reply.success && reply.error == some "session not found"

abbrev World := Pool Shared Code

variable (sid : SessionId)

def Request.message (choice : Choice) : Request → Message
  | .createSession => .createSession sid.text choice.endpoint
  | .addPid pid => .addPid sid.text pid choice.fileTime
  | .closeSession => .closeSession sid.text

def Request.acks : Request → List DWORD
  | .addPid pid => [pid]
  | _ => []

/-- A request takes its turn: the state after it, the reply if there is one, and whether it is
    still under way. -/
def transmit (s : Shared) (request : Request) (choice : Choice) : Shared × Option Reply × Bool :=
  match choice.delivery with
  | .lost => (s, none, false)
  | .abandoned => (s, none, true)
  | .answered =>
    let (traced, reply) := handle s.traced (request.message sid choice) choice.stored
    let acked := if reply.success then request.acks ++ s.acked else s.acked
    ({ s with traced := traced, acked := acked }, some reply, false)

def underWay (request : Request) (still : Bool) : List Code :=
  if still then [.send request .done .done .done] else []

def turn (w : World) (code : Code) (choice : Choice) : Option (Shared × List Code) :=
  let s := w.shared
  match code with
  | .done => some (s, [])
  | .send request ok notFound failed =>
    let (s, reply, still) := transmit sid s request choice
    let next := match reply with
      | none => failed
      | some reply =>
        if reply.success then ok else if isIpcSessionNotFound reply then notFound else failed
    some (s, next :: underWay request still)
  | .choose a b => some (s, [if choice.branch then a else b])
  | .ifEnded yes no => some (s, [if s.ended then yes else no])
  | .ifTracked pid yes no => some (s, [if s.tracks pid then yes else no])
  | .setEnded ended next => some ({ s with ended := ended }, [next])
  | .track pid next =>
    let processes := if s.tracks pid then s.processes else s.processes ++ [⟨pid, false⟩]
    some ({ s with processes := processes }, [next])
  | .spawn task next => some (s, [next, task])
  | .enterGate next => if w.tasks.any Code.inGate then none else some (s, [next])
  | .leaveGate next => some (s, [next])
  | .snapshot next => some (s, [.replay s.livePids next])
  | .replay [] next => some (s, [next])
  | .replay (pid :: pids) next =>
    -- a replay that fails is only logged
    let (s, _, still) := transmit sid s (.addPid pid) choice
    some (s, .replay pids next :: underWay (.addPid pid) still)

inductive Change
  | processExited (pid : DWORD)
  | markProcessExited (pid : DWORD)
  | otherClient (m : Message) (stored : Bool)
  | sweep (times : ProcessTimes)
  | serverRestart

def outside (s : Shared) : Change → Option Shared
  | .processExited pid => some { s with gone := pid :: s.gone }
  | .markProcessExited pid =>
    if pid ∈ s.gone then
      some
        { s with
          processes :=
            updateFirst (·.processId == pid) (fun p => { p with exited := true }) s.processes }
    else none
  | .otherClient m stored =>
    if m.sessionId = sid.text then none
    else some { s with traced := (handle s.traced m stored).1 }
  | .sweep times =>
    let server := s.traced.server
    let swept := server.setRouter (cleanupStalePidRoutes server.router times)
    some { s with traced := { s.traced with server := swept } }
  | .serverRestart =>
    let server := s.traced.server
    some { s with traced := tracedInit server.proxyMap server.router.proxyServers }

abbrev Event := Label Handler Choice Change

def step : World → Event → Option World := TaskPools.step Handler.code (turn sid) (outside sid)

def Shared.record (s : Shared) : Option SessionState := s.traced.server.sessions sid.text

def Code.request : Code → Option Request
  | .send request _ _ _ => some request
  | .replay (pid :: _) _ => some (.addPid pid)
  | _ => none

def Code.children : Code → List Code
  | .done => []
  | .send _ ok notFound failed => [ok, notFound, failed]
  | .choose a b | .ifEnded a b | .ifTracked _ a b | .spawn a b => [a, b]
  | .setEnded _ next | .track _ next | .enterGate next | .leaveGate next | .snapshot next => [next]
  | .replay _ next => [next]

section Requests
variable (s : Shared)

theorem handle_create (stored : Bool) (endpoint : String) :
    (∃ e, handle s.traced (.createSession sid.text endpoint) stored = (s.traced, ⟨false, some e⟩)) ∨
    ∃ proxy, s.traced.server.proxyMap endpoint = some proxy ∧
      handle s.traced (.createSession sid.text endpoint) stored =
        (⟨s.traced.server.setSession sid.text (some { endpoint := endpoint, proxyHandle := proxy }),
          s.traced.lastAdd⟩, ⟨true, none⟩) := by
  rcases doCreateSession_cases s.traced.server sid.text endpoint with
    ⟨e, h⟩ | ⟨proxy, hproxy, _, h⟩
  · exact .inl ⟨e, by simp only [handle, processMessage, h]; rfl⟩
  · exact .inr ⟨proxy, hproxy, by simp only [handle, processMessage, h]; rfl⟩

theorem handle_addPid (stored : Bool) (pid : DWORD) (fileTime : BitVec 64) :
    s.record sid = none ∧ handle s.traced (.addPid sid.text pid fileTime) stored =
      (s.traced, ⟨false, some "session not found"⟩) ∨
    ∃ state, s.record sid = some state ∧
      (handle s.traced (.addPid sid.text pid fileTime) stored = (s.traced, ⟨false, none⟩) ∨
        ∃ router, handle s.traced (.addPid sid.text pid fileTime) stored =
          (⟨(s.traced.server.setRouter router).setSession sid.text
              (some { state with pids := insert pid state.pids }),
            Function.update s.traced.lastAdd pid (some sid.text)⟩, ⟨true, none⟩)) := by
  simp only [handle, processMessage, noteAdd, Shared.record]
  rw [doAddPid, if_neg (by simp [sid.named])]
  cases hrecord : s.traced.server.sessions sid.text with
  | none => exact .inl ⟨rfl, rfl⟩
  | some state =>
    refine .inr ⟨state, rfl, ?_⟩
    rcases associateProcessIdToProxy_cases s.traced.server.router pid (sizeT state.proxyHandle)
      (splitFileTime fileTime) stored with h | ⟨_, h⟩
    · exact .inl (by simp only [h]; rfl)
    · exact .inr ⟨_, by simp only [h]; rfl⟩

theorem handle_close (stored : Bool) :
    s.record sid = none ∧ handle s.traced (.closeSession sid.text) stored =
      (s.traced, ⟨false, some "session not found"⟩) ∨
    ∃ state, s.record sid = some state ∧
      handle s.traced (.closeSession sid.text) stored =
        (⟨(s.traced.server.setRouter
              (removeProcessIds s.traced.server.router state.pids)).setSession sid.text none,
          s.traced.lastAdd⟩, ⟨true, none⟩) := by
  simp only [handle, processMessage, Shared.record, noteAdd]
  rw [doCloseSession, if_neg (by simp [sid.named])]
  cases hrecord : s.traced.server.sessions sid.text with
  | none => exact .inl ⟨rfl, rfl⟩
  | some state => exact .inr ⟨state, rfl, rfl⟩

end Requests

section Turns
variable {sid} {w : World} {code : Code} {choice : Choice} {next : Shared × List Code}

theorem transmit_ended (s : Shared) (request : Request) :
    (transmit sid s request choice).1.ended = s.ended := by
  unfold transmit
  cases choice.delivery <;> rfl

theorem turn_quiet (hturn : turn sid w code choice = some next) (hrequest : code.request = none) :
    next.1.traced = w.shared.traced ∧ next.1.acked = w.shared.acked ∧
      next.1.gone = w.shared.gone := by
  cases code with
  | send request ok notFound failed => cases hrequest
  | replay pids rest =>
    cases pids with
    | nil => obtain rfl := Option.some.inj hturn; exact ⟨rfl, rfl, rfl⟩
    | cons pid pids => cases hrequest
  | enterGate rest =>
    simp only [turn] at hturn
    split at hturn
    · cases hturn
    · obtain rfl := Option.some.inj hturn; exact ⟨rfl, rfl, rfl⟩
  | _ => obtain rfl := Option.some.inj hturn; exact ⟨rfl, rfl, rfl⟩

theorem turn_request (hturn : turn sid w code choice = some next) {request : Request}
    (hrequest : code.request = some request) :
    next.1 = (transmit sid w.shared request choice).1 ∧
      (choice.delivery = .abandoned → .send request .done .done .done ∈ next.2) := by
  have hleft : choice.delivery = .abandoned →
      .send request .done .done .done ∈ underWay request (transmit sid w.shared request choice).2.2 := by
    intro hdelivery
    simp [transmit, hdelivery, underWay]
  cases code with
  | send r ok notFound failed =>
    obtain rfl : r = request := Option.some.inj hrequest
    obtain rfl := Option.some.inj hturn
    exact ⟨rfl, fun h => List.mem_cons_of_mem _ (hleft h)⟩
  | replay pids rest =>
    cases pids with
    | nil => cases hrequest
    | cons pid pids =>
      obtain rfl : .addPid pid = request := Option.some.inj hrequest
      obtain rfl := Option.some.inj hturn
      exact ⟨rfl, fun h => List.mem_cons_of_mem _ (hleft h)⟩
  | _ => cases hrequest

/-- A turn leaves the way the task goes on with, which is a child or a replay, and maybe a task it
    has started or its request under way. -/
theorem turn_next (hturn : turn sid w code choice = some next) (hcode : code ≠ .done) :
    ∃ c rest, next.2 = c :: rest ∧
      (c ∈ code.children ∨ ∃ pids, ∃ after ∈ code.children, c = .replay pids after ∧
        (code = .snapshot after ∨ ∃ pid, code = .replay (pid :: pids) after)) ∧
      ∀ other ∈ rest, (∃ a, code = .spawn other a) ∨
        ∃ request, code.request = some request ∧ choice.delivery = .abandoned ∧
          other = .send request .done .done .done := by
  have hleft : ∀ request, code.request = some request →
      ∀ other ∈ underWay request (transmit sid w.shared request choice).2.2,
        ∃ r, code.request = some r ∧ choice.delivery = .abandoned ∧
          other = .send r .done .done .done := by
    intro request hrequest other hother
    cases hdelivery : choice.delivery with
    | abandoned =>
      simp only [transmit, hdelivery, underWay, if_true, List.mem_singleton] at hother
      exact ⟨request, hrequest, rfl, hother⟩
    | lost => simp [transmit, hdelivery, underWay] at hother
    | answered => simp [transmit, hdelivery, underWay] at hother
  cases code with
  | done => exact absurd rfl hcode
  | send request ok notFound failed =>
    obtain rfl := Option.some.inj hturn
    refine ⟨_, _, rfl, .inl ?_, fun other hother => .inr (hleft request rfl other hother)⟩
    simp only [Code.children, List.mem_cons, List.not_mem_nil, or_false]
    split
    · exact .inr (.inr rfl)
    · split
      · exact .inl rfl
      · split
        · exact .inr (.inl rfl)
        · exact .inr (.inr rfl)
  | choose a b | ifEnded a b | ifTracked _ a b =>
    obtain rfl := Option.some.inj hturn
    refine ⟨_, [], rfl, .inl ?_, fun other hother => (List.not_mem_nil hother).elim⟩
    simp only [Code.children, List.mem_cons, List.not_mem_nil, or_false]
    split
    · exact .inl rfl
    · exact .inr rfl
  | spawn task rest =>
    obtain rfl := Option.some.inj hturn
    refine ⟨rest, [task], rfl, .inl (by simp [Code.children]), fun other hother => ?_⟩
    obtain rfl := List.mem_singleton.mp hother
    exact .inl ⟨rest, rfl⟩
  | setEnded _ rest | track _ rest | leaveGate rest =>
    obtain rfl := Option.some.inj hturn
    exact ⟨rest, [], rfl, .inl (List.mem_singleton.mpr rfl), fun _ h => (List.not_mem_nil h).elim⟩
  | snapshot rest =>
    obtain rfl := Option.some.inj hturn
    exact ⟨_, [], rfl, .inr ⟨_, rest, List.mem_singleton.mpr rfl, rfl, .inl rfl⟩,
      fun _ h => (List.not_mem_nil h).elim⟩
  | enterGate rest =>
    simp only [turn] at hturn
    split at hturn
    · cases hturn
    · obtain rfl := Option.some.inj hturn
      exact ⟨rest, [], rfl, .inl (List.mem_singleton.mpr rfl), fun _ h => (List.not_mem_nil h).elim⟩
  | replay pids rest =>
    cases pids with
    | nil =>
      obtain rfl := Option.some.inj hturn
      exact ⟨rest, [], rfl, .inl (List.mem_singleton.mpr rfl), fun _ h => (List.not_mem_nil h).elim⟩
    | cons pid pids =>
      obtain rfl := Option.some.inj hturn
      exact ⟨_, _, rfl, .inr ⟨pids, rest, List.mem_singleton.mpr rfl, rfl, .inr ⟨pid, rfl⟩⟩,
        fun other hother => .inr (hleft _ rfl other hother)⟩

theorem forall_turn {A : Code → Prop} (hturn : turn sid w code choice = some next)
    (hchildren : ∀ c ∈ code.children, A c) (hreplay : ∀ pids, ∀ c ∈ code.children, A (.replay pids c))
    (hleft : ∀ request, code.request = some request → choice.delivery = .abandoned →
      A (.send request .done .done .done)) :
    ∀ c ∈ next.2, A c := by
  by_cases hdone : code = .done
  · subst hdone
    obtain rfl := Option.some.inj hturn
    exact fun c hc => (List.not_mem_nil hc).elim
  obtain ⟨head, rest, hnext, hhead, hrest⟩ := turn_next hturn hdone
  intro c hc
  rw [hnext] at hc
  rcases List.mem_cons.mp hc with rfl | htail
  · rcases hhead with hchild | ⟨pids, after, hafter, rfl, _⟩
    · exact hchildren c hchild
    · exact hreplay pids after hafter
  · rcases hrest c htail with ⟨a, rfl⟩ | ⟨request, hrequest, hdelivery, rfl⟩
    · exact hchildren c (by simp [Code.children])
    · exact hleft request hrequest hdelivery

end Turns

end ProxySwitch.IpcRecovery
