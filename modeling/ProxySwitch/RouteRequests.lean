import ProxySwitch.SessionRouteServer
import ProxySwitch.Utf16

set_option autoImplicit false

/-!
# Request lines of the route server

`ProcessMessage` from the line to the reply. The message is a dynamic object, so every conversion
of a member may throw; the calls into the native core may fail or throw as well, and what is thrown
becomes an error reply.
-/
namespace ProxySwitch.RouteRequests
open RouterPidRoutes RuntimeStrings SessionRouteServer

/-- `Exception.Message`, in UTF-16. -/
abbrev ExceptionMessage := List Utf16.CodeUnit

/-- A conversion of a member, or the message of its exception. -/
abbrev Member (α : Type) := Except ExceptionMessage α

/-- The members of a request; a missing or null text is `none`. -/
structure Request where
  token : Member (Option String)
  action : Member (Option String)
  sessionId : Member (Option String)
  endpoint : Member (Option String)
  pid : Member DWORD
  createdAtFileTime : Member (BitVec 64)

/-- What `JsonConvert.DeserializeObject` makes of a line. -/
inductive Line
  | throws (message : ExceptionMessage)
  | null
  | value (request : Request)

/-- A call into the native core: it does its work, it reports an error (as all calls do once the
    core is released), or it throws. Only the first has an effect. -/
inductive NativeCall
  | succeeds
  | fails
  | throws (message : ExceptionMessage)
  deriving DecidableEq

structure NativeCalls where
  associate : NativeCall := .succeeds
  remove : DWORD → NativeCall := fun _ => .succeeds

inductive Response
  | done (success : Bool)
  | refused (error : Text)
  | failed (message : ExceptionMessage)
  deriving DecidableEq

def Response.success : Response → Bool
  | .done success => success
  | .refused _ | .failed _ => false

def expectedToken : String := "e2b0c4d6-8f3a-4e5b-9c1d-7a6b5c4d3e2f"

section Handlers
variable (s : Server)

def reading {α : Type} (member : Member α) (next : α → Server × Response) : Server × Response :=
  match member with
  | .error message => (s, .failed message)
  | .ok value => next value

def respond (answer : Server × Reply) : Server × Response :=
  (answer.1, match answer.2.error with
    | some error => .refused error.toList
    | none => .done answer.2.success)

def opened (id : String) : Option SessionState := if blank id then none else s.sessions id

def addPid (id : String) (pid : DWORD) (createdAtFileTime : BitVec 64) :
    NativeCall → Server × Response
  | .succeeds => respond (doAddPid s id pid createdAtFileTime true)
  | .fails => respond (doAddPid s id pid createdAtFileTime false)
  | .throws message =>
    match opened s id with
    | some _ => (s, .failed message)
    | none => respond (doAddPid s id pid createdAtFileTime false)

def removePid (id : String) (pid : DWORD) : NativeCall → Server × Response
  | .succeeds => respond (doRemovePid s id pid)
  | .fails =>
    match opened s id with
    | some state =>
      -- `Pids.Remove` comes whether or not the call has removed the route
      (s.setSession id (some { state with pids := state.pids.erase pid }), .done false)
    | none => respond (doRemovePid s id pid)
  | .throws message =>
    match opened s id with
    | some _ => (s, .failed message)
    | none => respond (doRemovePid s id pid)

/-- What a removal returns is not read, and what it throws is logged. -/
def closeSession (id : String) (remove : DWORD → NativeCall) : Server × Response :=
  match opened s id with
  | some state =>
    ((s.setRouter (removeProcessIds s.router
      (state.pids.filter fun pid => remove pid = .succeeds))).setSession id none, .done true)
  | none => respond (doCloseSession s id)

def dispatch (native : NativeCalls) (r : Request) : Option String → Server × Response
  | some "createSession" =>
    reading s r.sessionId fun id => reading s r.endpoint fun endpoint =>
      respond (doCreateSession s (id.getD "") (endpoint.getD ""))
  | some "addPid" =>
    reading s r.sessionId fun id => reading s r.pid fun pid =>
      reading s r.createdAtFileTime fun createdAt =>
        addPid s (id.getD "") pid createdAt native.associate
  | some "removePid" =>
    reading s r.sessionId fun id => reading s r.pid fun pid =>
      removePid s (id.getD "") pid (native.remove pid)
  | some "closeSession" =>
    reading s r.sessionId fun id => closeSession s (id.getD "") native.remove
  | _ => (s, .refused "unknown action".toList)

def processLine (native : NativeCalls) : Line → Server × Response
  | .throws message => (s, .failed message)
  | .null => (s, .refused "invalid json".toList)
  | .value r =>
    reading s r.token fun token =>
      if token ≠ some expectedToken then (s, .refused "unauthorized".toList)
      else reading s r.action (dispatch s native r)

end Handlers

section Claims
variable (s : Server) (native : NativeCalls) (line : Line)

def Line.authorised : Line → Prop
  | .value r => r.token = .ok (some expectedToken)
  | _ => False

def SameTables (s s' : Server) : Prop :=
  s'.sessions = s.sessions ∧ s'.router.pidToProxy = s.router.pidToProxy

structure ErrorsLeaveTables : Prop where
  ofError : (processLine s native line).2.success = false →
    SameTables s (processLine s native line).1
  ofToken : ¬line.authorised → SameTables s (processLine s native line).1

structure Removes (r : Request) (id : String) (pid : DWORD) (state : SessionState) : Prop where
  line_eq : line = .value r
  token_eq : r.token = .ok (some expectedToken)
  action_eq : r.action = .ok (some "removePid")
  sessionId_eq : r.sessionId = .ok (some id)
  pid_eq : r.pid = .ok pid
  opened_eq : opened s id = some state
  held : pid ∈ state.pids

end Claims

section Unchanged
variable {s : Server} {native : NativeCalls} {line : Line}

def NoEffect (s : Server) (answer : Server × Response) : Prop :=
  answer.2.success = false → answer.1 = s

theorem opened_eq_some {id : String} {state : SessionState} (h : opened s id = some state) :
    blank id = false ∧ s.sessions id = some state := by
  unfold opened at h
  split_ifs at h with hblank
  exact ⟨eq_false_of_ne_true hblank, h⟩

theorem noEffect_reading {α : Type} {member : Member α} {next : α → Server × Response}
    (h : ∀ value, member = .ok value → NoEffect s (next value)) :
    NoEffect s (reading s member next) := by
  cases member with
  | error message => exact fun _ => rfl
  | ok value => exact h value rfl

theorem noEffect_createSession (id endpoint : String) :
    NoEffect s (respond (doCreateSession s id endpoint)) := by
  obtain ⟨error, h⟩ | ⟨handle, _, _, h⟩ := doCreateSession_cases s id endpoint
  · rw [h]
    exact fun _ => rfl
  · rw [h]
    exact fun hsuccess => absurd hsuccess Bool.true_eq_false_eq_False

theorem noEffect_doAddPid (id : String) (pid : DWORD) (createdAt : BitVec 64) (stored : Bool) :
    NoEffect s (respond (doAddPid s id pid createdAt stored)) := by
  obtain ⟨error, h⟩ | ⟨state, _, _, h⟩ := doAddPid_cases s id pid createdAt stored
  · rw [h]
    exact fun _ => rfl
  · rw [h]
    exact fun hsuccess => absurd hsuccess Bool.true_eq_false_eq_False

theorem noEffect_addPid (id : String) (pid : DWORD) (createdAt : BitVec 64) (call : NativeCall) :
    NoEffect s (addPid s id pid createdAt call) := by
  cases call with
  | succeeds => exact noEffect_doAddPid id pid createdAt true
  | fails => exact noEffect_doAddPid id pid createdAt false
  | throws message =>
    unfold addPid
    cases opened s id with
    | some state => exact fun _ => rfl
    | none => exact noEffect_doAddPid id pid createdAt false

theorem noEffect_doRemovePid (id : String) (pid : DWORD) :
    NoEffect s (respond (doRemovePid s id pid)) := by
  obtain ⟨error, h, _⟩ | ⟨state, _, _, h⟩ := doRemovePid_cases s id pid
  · rw [h]
    exact fun _ => rfl
  · rw [h]
    exact fun hsuccess => absurd hsuccess Bool.true_eq_false_eq_False

theorem setSession_same {id : String} {state : SessionState} (h : s.sessions id = some state) :
    s.setSession id (some state) = s := by
  unfold Server.setSession
  rw [← h, Function.update_eq_self]

theorem noEffect_removePid {id : String} {pid : DWORD} {call : NativeCall}
    (h : call = .fails → ∀ state, opened s id = some state → pid ∉ state.pids) :
    NoEffect s (removePid s id pid call) := by
  cases call with
  | succeeds => exact noEffect_doRemovePid id pid
  | fails =>
    simp only [removePid]
    cases hopened : opened s id with
    | some state =>
      intro _
      have hsame : { state with pids := state.pids.erase pid } = state := by
        rw [Finset.erase_eq_of_notMem (h rfl state hopened)]
      simp only [hsame]
      exact setSession_same (opened_eq_some hopened).2
    | none => exact noEffect_doRemovePid id pid
  | throws message =>
    unfold removePid
    cases opened s id with
    | some state => exact fun _ => rfl
    | none => exact noEffect_doRemovePid id pid

theorem noEffect_closeSession (id : String) (remove : DWORD → NativeCall) :
    NoEffect s (closeSession s id remove) := by
  unfold closeSession
  cases hopened : opened s id with
  | some state => exact fun hsuccess => absurd hsuccess Bool.true_eq_false_eq_False
  | none =>
    obtain ⟨error, h, _⟩ | ⟨state, hstate, hblank, _⟩ := doCloseSession_cases s id
    · rw [h]
      exact fun _ => rfl
    · rw [opened, hblank, if_neg Bool.false_ne_true, hstate] at hopened
      cases hopened

theorem opened_getD {id : Option String} {state : SessionState}
    (h : opened s (id.getD "") = some state) : id = some (id.getD "") := by
  cases id with
  | some id => rfl
  | none =>
    obtain ⟨hblank, _⟩ := opened_eq_some h
    cases hblank

theorem noEffect_processLine
    (h : ∀ r id pid state, Removes s line r id pid state → native.remove pid ≠ .fails) :
    NoEffect s (processLine s native line) := by
  cases line with
  | throws message => exact fun _ => rfl
  | null => exact fun _ => rfl
  | value r =>
    apply noEffect_reading
    intro token htoken
    split_ifs with hexpected
    · exact fun _ => rfl
    · apply noEffect_reading
      intro action haction
      unfold dispatch
      split
      · exact noEffect_reading fun id _ => noEffect_reading fun endpoint _ =>
          noEffect_createSession _ _
      · exact noEffect_reading fun id _ => noEffect_reading fun pid _ =>
          noEffect_reading fun createdAt _ => noEffect_addPid _ _ _ _
      · refine noEffect_reading fun id hid => noEffect_reading fun pid hpid => ?_
        apply noEffect_removePid
        intro hfails state hopened hheld
        have hexpected : r.token = .ok (some expectedToken) := by
          rw [htoken, not_not.mp hexpected]
        exact h r (id.getD "") pid state
          ⟨rfl, hexpected, haction, opened_getD hopened ▸ hid, hpid, hopened, hheld⟩ hfails
      · exact noEffect_reading fun id _ => noEffect_closeSession _ _
      · exact fun _ => rfl

theorem processLine_of_removes {r : Request} {id : String} {pid : DWORD} {state : SessionState}
    (h : Removes s line r id pid state) :
    processLine s native line = removePid s id pid (native.remove pid) := by
  rw [h.line_eq]
  simp only [processLine, reading, h.token_eq, h.action_eq, ne_eq, not_true_eq_false, if_false,
    dispatch, h.sessionId_eq, h.pid_eq, Option.getD_some]

theorem processLine_unauthorised (h : ¬line.authorised) : (processLine s native line).1 = s := by
  cases line with
  | throws message => rfl
  | null => rfl
  | value r =>
    simp only [processLine, reading]
    cases htoken : r.token with
    | error message => rfl
    | ok token =>
      have hne : token ≠ some expectedToken := by
        rintro rfl
        exact h htoken
      simp only [if_pos hne]

/-- A reply that reports no success leaves both tables as they were, unless the native core does
    not remove the route of a PID that the session holds. -/
theorem errorsLeaveTables_iff (s : Server) (native : NativeCalls) (line : Line) :
    ErrorsLeaveTables s native line ↔
      ∀ r id pid state, Removes s line r id pid state → native.remove pid ≠ .fails := by
  constructor
  · intro hleave r id pid state hremoves hfails
    have hprocess : processLine s native line =
        (s.setSession id (some { state with pids := state.pids.erase pid }), .done false) := by
      rw [processLine_of_removes hremoves, hfails]
      simp only [removePid, hremoves.opened_eq]
    have hsessions : (s.setSession id
        (some { state with pids := state.pids.erase pid })).sessions = s.sessions := by
      have hsame := (hleave.ofError (by rw [hprocess]; rfl)).1
      rwa [hprocess] at hsame
    have hstate := congrFun hsessions id
    rw [setSession_self, (opened_eq_some hremoves.opened_eq).2, Option.some.injEq] at hstate
    have hpids : state.pids.erase pid = state.pids := congrArg SessionState.pids hstate
    have hheld := hremoves.held
    rw [← hpids] at hheld
    exact Finset.notMem_erase pid state.pids hheld
  · intro h
    constructor
    · intro herror
      rw [noEffect_processLine h herror]
      exact ⟨rfl, rfl⟩
    · intro hunauthorised
      rw [processLine_unauthorised hunauthorised]
      exact ⟨rfl, rfl⟩

theorem removePid_released : ¬ErrorsLeaveTables
    { proxyMap := fun _ => none
      sessions := fun id => if id = "s1" then some { pids := {7} } else none
      router := { proxyServers := [], pidToProxy := fun _ => none } }
    { remove := fun _ => .fails }
    (.value
      { token := .ok (some expectedToken), action := .ok (some "removePid"),
        sessionId := .ok (some "s1"), endpoint := .ok none, pid := .ok 7,
        createdAtFileTime := .error [] }) := by
  intro h
  have hsessions := congrFun (h.ofError (by decide)).1 "s1"
  revert hsessions
  decide

end Unchanged

section Messages
variable (s : Server)

def ofMessage : Message → Request
  | .createSession id endpoint =>
    { token := .ok (some expectedToken), action := .ok (some "createSession"),
      sessionId := .ok (some id), endpoint := .ok (some endpoint), pid := .error [],
      createdAtFileTime := .error [] }
  | .addPid id pid createdAt =>
    { token := .ok (some expectedToken), action := .ok (some "addPid"),
      sessionId := .ok (some id), endpoint := .ok none, pid := .ok pid,
      createdAtFileTime := .ok createdAt }
  | .removePid id pid =>
    { token := .ok (some expectedToken), action := .ok (some "removePid"),
      sessionId := .ok (some id), endpoint := .ok none, pid := .ok pid,
      createdAtFileTime := .error [] }
  | .closeSession id =>
    { token := .ok (some expectedToken), action := .ok (some "closeSession"),
      sessionId := .ok (some id), endpoint := .ok none, pid := .error [],
      createdAtFileTime := .error [] }

theorem closeSession_succeeds (id : String) :
    closeSession s id (fun _ => .succeeds) = respond (doCloseSession s id) := by
  unfold closeSession
  cases hopened : opened s id with
  | none => rfl
  | some state =>
    obtain ⟨hblank, hstate⟩ := opened_eq_some hopened
    simp only [Finset.filter_true, doCloseSession, hblank, hstate, Bool.false_eq_true, if_false,
      respond]

/-- While the native core works, a line does what its message does. -/
theorem processLine_ofMessage (m : Message) :
    processLine s {} (.value (ofMessage m)) = respond (processMessage s m true) := by
  cases m with
  | createSession id endpoint => rfl
  | addPid id pid createdAt => rfl
  | removePid id pid => rfl
  | closeSession id => exact closeSession_succeeds s id

end Messages

end ProxySwitch.RouteRequests
