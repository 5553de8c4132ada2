import ProxySwitch.SessionRouteServer
import ProxySwitch.TransitionRuns

set_option autoImplicit false

namespace ProxySwitch.SessionRouteIsolation
open RouterPidRoutes SessionRouteServer TransitionRuns

structure Traced where
  server : Server
  lastAdd : DWORD → Option String

def noteAdd (s : Server) (lastAdd : DWORD → Option String) : Event → DWORD → Option String
  | .request (.addPid id pid createdAt) stored =>
    if (doAddPid s id pid createdAt stored).2.success then
      Function.update lastAdd pid (some id)
    else lastAdd
  | _ => lastAdd

def tracedStep (t : Traced) (event : Event) : Option Traced :=
  (step t.server event).map fun s => { server := s, lastAdd := noteAdd t.server t.lastAdd event }

def tracedInit (proxyMap : String → Option IntPtr) (proxyServers : List ProxyServers) : Traced where
  server := init proxyMap proxyServers
  lastAdd := fun _ => none

/-- A request of `a` other than `addPid` changes no entry that another session added last. -/
def Isolated (t : Traced) : Event → Prop
  | .request m stored =>
    (∀ id pid createdAt, m ≠ .addPid id pid createdAt) →
      ∀ pid b, t.lastAdd pid = some b → m.sessionId ≠ b →
        (processMessage t.server m stored).1.router.pidToProxy pid =
          t.server.router.pidToProxy pid
  | .sweep _ => True

/-- The PIDs that an accepted `removePid` or `closeSession` takes from the router were last
    added by the same session, or have no route. -/
def RemovesOwn (t : Traced) : Event → Prop
  | .request (.removePid a pid) _ =>
    blank a = false → t.server.sessions a ≠ none →
      ∀ b, t.lastAdd pid = some b → a ≠ b → t.server.router.pidToProxy pid = none
  | .request (.closeSession a) _ =>
    blank a = false → ∀ state, t.server.sessions a = some state →
      ∀ pid ∈ state.pids, ∀ b, t.lastAdd pid = some b → a ≠ b →
        t.server.router.pidToProxy pid = none
  | _ => True

/-- The trace is no part of the behaviour: a traced run is a run of the server. -/
theorem tracedRun_server (t : Traced) (events : List Event) :
    (exec tracedStep t events).map Traced.server = exec step t.server events := by
  induction events generalizing t with
  | nil => rfl
  | cons event events ih =>
    simp only [exec_cons, tracedStep]
    cases step t.server event with
    | none => rfl
    | some s => simpa only [Option.map_some, Option.bind_some] using ih _

theorem createSession_router (s : Server) (id endpoint : String) :
    (doCreateSession s id endpoint).1.router = s.router := by
  rcases doCreateSession_cases s id endpoint with ⟨e, h⟩ | ⟨handle, _, _, h⟩ <;> simp [h]

theorem routed_of_request {s : Server} (lastAdd : DWORD → Option String) {m : Message}
    {stored : Bool} {pid : DWORD} {e : PidRouteEntry}
    (h : (processMessage s m stored).1.router.pidToProxy pid = some e) :
    s.router.pidToProxy pid = some e ∧ noteAdd s lastAdd (.request m stored) pid = lastAdd pid ∨
    ∃ sessionId createdAt, m = .addPid sessionId pid createdAt ∧
      e.creationTime = splitFileTime createdAt ∧
      noteAdd s lastAdd (.request m stored) pid = some sessionId := by
  cases m with
  | createSession id endpoint =>
    rw [processMessage, createSession_router] at h
    exact .inl ⟨h, rfl⟩
  | addPid id q createdAt =>
    simp only [processMessage, noteAdd] at h ⊢
    rcases doAddPid_cases s id q createdAt stored with ⟨e, hadd⟩ | ⟨state, _, _, hadd⟩
    · rw [hadd] at h ⊢
      exact .inl ⟨h, rfl⟩
    · rw [hadd] at h ⊢
      rw [setSession_router, setRouter_router, setRoute_apply] at h
      split at h
      · rename_i hpid
        subst hpid
        obtain rfl := Option.some.inj h
        exact .inr ⟨id, createdAt, rfl, rfl, Function.update_self _ _ _⟩
      · rename_i hpid
        exact .inl ⟨h, Function.update_of_ne hpid _ _⟩
  | removePid id q =>
    simp only [processMessage] at h
    rcases doRemovePid_cases s id q with ⟨e, hremove, _⟩ | ⟨state, _, _, hremove⟩
    · rw [hremove] at h
      exact .inl ⟨h, rfl⟩
    · rw [hremove, setSession_router, setRouter_router, setRoute_apply] at h
      split at h
      · cases h
      · exact .inl ⟨h, rfl⟩
  | closeSession id =>
    simp only [processMessage] at h
    rcases doCloseSession_cases s id with ⟨e, hclose, _⟩ | ⟨state, _, _, hclose⟩
    · rw [hclose] at h
      exact .inl ⟨h, rfl⟩
    · rw [hclose, setSession_router, setRouter_router, removeProcessIds_apply] at h
      split at h
      · cases h
      · exact .inl ⟨h, rfl⟩

theorem isolated_removePid_iff (t : Traced) (a : String) (pid : DWORD) (stored : Bool) :
    Isolated t (.request (.removePid a pid) stored) ↔
      RemovesOwn t (.request (.removePid a pid) stored) := by
  rcases doRemovePid_cases t.server a pid with ⟨e, h, hrefused⟩ | ⟨state, hstate, hid, h⟩
  · refine iff_of_true (fun _ q b _ _ => by rw [processMessage, h]) fun hid hopen => ?_
    rcases hrefused with hblank | hclosed
    · rw [hid] at hblank; cases hblank
    · exact absurd hclosed hopen
  · have hrouter : ∀ q, (processMessage t.server (.removePid a pid) stored).1.router.pidToProxy q =
        if q = pid then none else t.server.router.pidToProxy q := by
      intro q
      rw [processMessage, h, setSession_router, setRouter_router, setRoute_apply]
    constructor
    · intro hiso _ _ b hb hab
      have hsame := hiso (fun _ _ _ => Message.noConfusion) pid b hb hab
      rw [hrouter, if_pos rfl] at hsame
      exact hsame.symm
    · intro hown _ q b hb hab
      rw [hrouter]
      split
      · subst q
        exact (hown hid (by simp [hstate]) b hb hab).symm
      · rfl

theorem isolated_closeSession_iff (t : Traced) (a : String) (stored : Bool) :
    Isolated t (.request (.closeSession a) stored) ↔
      RemovesOwn t (.request (.closeSession a) stored) := by
  rcases doCloseSession_cases t.server a with ⟨e, h, hrefused⟩ | ⟨state, hstate, hid, h⟩
  · refine iff_of_true (fun _ q b _ _ => by rw [processMessage, h]) fun hid old hold => ?_
    rcases hrefused with hblank | hclosed
    · rw [hid] at hblank; cases hblank
    · rw [hclosed] at hold; cases hold
  · have hrouter : ∀ q, (processMessage t.server (.closeSession a) stored).1.router.pidToProxy q =
        if q ∈ state.pids then none else t.server.router.pidToProxy q := by
      intro q
      rw [processMessage, h, setSession_router, setRouter_router, removeProcessIds_apply]
    constructor
    · intro hiso _ old hold q hq b hb hab
      obtain rfl : state = old := Option.some.inj (hstate.symm.trans hold)
      have hsame := hiso (fun _ _ _ => Message.noConfusion) q b hb hab
      rw [hrouter, if_pos hq] at hsame
      exact hsame.symm
    · intro hown _ q b hb hab
      rw [hrouter]
      split
      · exact (hown hid state hstate q ‹_› b hb hab).symm
      · rfl

theorem isolated_iff (t : Traced) (event : Event) : Isolated t event ↔ RemovesOwn t event := by
  cases event with
  | request m stored =>
    cases m with
    | createSession id endpoint =>
      refine iff_of_true (fun _ q b _ _ => ?_) trivial
      rw [processMessage, createSession_router]
    | addPid id pid createdAt =>
      exact iff_of_true (fun h => absurd rfl (h id pid createdAt)) trivial
    | removePid id pid => exact isolated_removePid_iff t id pid stored
    | closeSession id => exact isolated_closeSession_iff t id stored
  | sweep times => exact Iff.rfl

/-- The sessions of a run are isolated precisely when every PID that a removal or a close
    takes from the router was last added by the session that asks for it. -/
theorem isolated_run_iff (proxyMap : String → Option IntPtr) (proxyServers : List ProxyServers)
    (events : List Event) :
    Meets tracedStep Isolated (tracedInit proxyMap proxyServers) events ↔
      Meets tracedStep RemovesOwn (tracedInit proxyMap proxyServers) events :=
  meets_congr (I := fun _ => True) (fun _ _ _ _ _ => trivial) (fun t event _ => isolated_iff t event)
    events trivial

theorem removePid_of_other_session :
    ¬ ∀ (proxyMap : String → Option IntPtr) (proxyServers : List ProxyServers)
        (events : List Event),
      Meets tracedStep Isolated (tracedInit proxyMap proxyServers) events := by
  intro h
  have hrun := h (fun e => if e = "127.0.0.1:1080" then some 0 else none)
    [⟨some 5000, some 5001⟩]
    [.request (.createSession "s1" "127.0.0.1:1080") true,
      .request (.createSession "s2" "127.0.0.1:1080") true,
      .request (.addPid "s2" 1234 133500000000000000) true,
      .request (.removePid "s1" 1234) true]
  have hremoved := hrun.2.2.2.1 (fun _ _ _ => Message.noConfusion) 1234 "s2" (by decide) (by decide)
  revert hremoved
  decide

end ProxySwitch.SessionRouteIsolation
