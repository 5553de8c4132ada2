import ProxySwitch.SessionRouteServer
import ProxySwitch.TransitionRuns

set_option autoImplicit false

namespace ProxySwitch.SessionRouteOrphans
open RouterPidRoutes SessionRouteServer TransitionRuns

/-- `id` is open, lists the PID and uses the proxy of the entry. -/
def Owns (s : Server) (id : String) (pid : DWORD) (e : PidRouteEntry) : Prop :=
  ∃ state, s.sessions id = some state ∧ pid ∈ state.pids ∧ sizeT state.proxyHandle = e.proxyId

structure NoOrphans (s : Server) : Prop where
  owned : ∀ pid e, s.router.pidToProxy pid = some e → ∃ id, Owns s id pid e
  cleared : (∀ id, s.sessions id = none) → ∀ pid, s.router.pidToProxy pid = none

/-- If the message is an accepted `createSession` of an open id, every route of the record
    that it replaces has another owner. -/
def KeepsOwners (s : Server) : Event → Prop
  | .request (.createSession id endpoint) _ =>
    blank id = false → blank endpoint = false → s.proxyMap endpoint ≠ none →
      ∀ pid e, s.router.pidToProxy pid = some e → Owns s id pid e →
        ∃ id', id' ≠ id ∧ Owns s id' pid e
  | _ => True

theorem noOrphans_of_owned {s : Server}
    (h : ∀ pid e, s.router.pidToProxy pid = some e → ∃ id, Owns s id pid e) : NoOrphans s where
  owned := h
  cleared hclosed pid := by
    cases hroute : s.router.pidToProxy pid with
    | none => rfl
    | some e =>
      obtain ⟨id, state, hid, _⟩ := h pid e hroute
      rw [hclosed id] at hid
      cases hid

theorem owns_of_sessions_eq {s t : Server} {id : String} {pid : DWORD} {e : PidRouteEntry}
    (h : t.sessions id = s.sessions id) : Owns t id pid e ↔ Owns s id pid e := by
  simp only [Owns, h]

theorem noOrphans_of_routes_le {s t : Server} (h : NoOrphans s)
    (hroute : ∀ pid e, t.router.pidToProxy pid = some e → s.router.pidToProxy pid = some e)
    (hown : ∀ id pid e, t.router.pidToProxy pid = some e → Owns s id pid e → Owns t id pid e) :
    NoOrphans t := by
  refine noOrphans_of_owned fun pid e he => ?_
  obtain ⟨id, hid⟩ := h.owned pid e (hroute pid e he)
  exact ⟨id, hown id pid e he hid⟩

theorem noOrphans_sweep {s : Server} (h : NoOrphans s) (times : ProcessTimes) :
    NoOrphans (s.setRouter (cleanupStalePidRoutes s.router times)) :=
  noOrphans_of_routes_le h (fun _ _ he => cleanupStalePidRoutes_some he) fun _ _ _ _ hid => hid

theorem noOrphans_addPid {s : Server} (h : NoOrphans s) (id : String) (pid : DWORD)
    (createdAt : BitVec 64) (stored : Bool) : NoOrphans (doAddPid s id pid createdAt stored).1 := by
  rcases doAddPid_cases s id pid createdAt stored with ⟨e, he⟩ | ⟨state, hstate, _, he⟩
  · rw [he]; exact h
  rw [he]
  refine noOrphans_of_owned fun q e hq => ?_
  by_cases hpid : q = pid
  · -- the new route belongs to the session that asked for it
    subst q
    refine ⟨id, _, setSession_self _ _ _, Finset.mem_insert_self _ _, ?_⟩
    simp only [setSession_router, setRouter_router, setRoute_self, Option.some.injEq] at hq
    rw [← hq]
  · have hold : s.router.pidToProxy q = some e := by
      simpa only [setSession_router, setRouter_router, setRoute_of_ne _ _ hpid] using hq
    obtain ⟨a, ha⟩ := h.owned q e hold
    refine ⟨a, ?_⟩
    by_cases haid : a = id
    · subst a
      obtain ⟨old, hold, hmem, hproxy⟩ := ha
      obtain rfl : state = old := Option.some.inj (hstate.symm.trans hold)
      exact ⟨_, setSession_self _ _ _, Finset.mem_insert_of_mem hmem, hproxy⟩
    · exact (owns_of_sessions_eq (setSession_of_ne _ _ _ haid)).mpr ha

theorem noOrphans_removePid {s : Server} (h : NoOrphans s) (id : String) (pid : DWORD) :
    NoOrphans (doRemovePid s id pid).1 := by
  rcases doRemovePid_cases s id pid with ⟨e, he, _⟩ | ⟨state, hstate, _, he⟩
  · rw [he]; exact h
  rw [he]
  have hroute : ∀ q e, (s.router.setRoute pid none).pidToProxy q = some e →
      q ≠ pid ∧ s.router.pidToProxy q = some e := by
    intro q e hq
    rw [setRoute_apply] at hq
    split at hq
    · cases hq
    · exact ⟨‹_›, hq⟩
  refine noOrphans_of_routes_le h (fun q e hq => (hroute q e hq).2) fun a q e hq ha => ?_
  by_cases haid : a = id
  · subst a
    obtain ⟨old, hold, hmem, hproxy⟩ := ha
    obtain rfl : state = old := Option.some.inj (hstate.symm.trans hold)
    exact ⟨_, setSession_self _ _ _, Finset.mem_erase.mpr ⟨(hroute q e hq).1, hmem⟩, hproxy⟩
  · exact (owns_of_sessions_eq (setSession_of_ne _ _ _ haid)).mpr ha

theorem noOrphans_closeSession {s : Server} (h : NoOrphans s) (id : String) :
    NoOrphans (doCloseSession s id).1 := by
  rcases doCloseSession_cases s id with ⟨e, he, _⟩ | ⟨state, hstate, _, he⟩
  · rw [he]; exact h
  rw [he]
  have hroute : ∀ q e, (removeProcessIds s.router state.pids).pidToProxy q = some e →
      q ∉ state.pids ∧ s.router.pidToProxy q = some e := by
    intro q e hq
    rw [removeProcessIds_apply] at hq
    split at hq
    · cases hq
    · exact ⟨‹_›, hq⟩
  refine noOrphans_of_routes_le h (fun q e hq => (hroute q e hq).2) fun a q e hq ha => ?_
  by_cases haid : a = id
  · -- the closed session owns none of the routes that are left
    subst a
    obtain ⟨old, hold, hmem, _⟩ := ha
    obtain rfl : state = old := Option.some.inj (hstate.symm.trans hold)
    exact absurd hmem (hroute q e hq).1
  · exact (owns_of_sessions_eq (setSession_of_ne _ _ _ haid)).mpr ha

theorem noOrphans_createSession_iff {s : Server} (h : NoOrphans s) (id endpoint : String)
    (stored : Bool) : NoOrphans (doCreateSession s id endpoint).1 ↔
      KeepsOwners s (.request (.createSession id endpoint) stored) := by
  by_cases haccept : blank id = false ∧ blank endpoint = false ∧ s.proxyMap endpoint ≠ none
  · obtain ⟨hid, hendpoint, hmap⟩ := haccept
    obtain ⟨handle, hhandle⟩ := Option.ne_none_iff_exists'.mp hmap
    have he : doCreateSession s id endpoint =
        (s.setSession id (some { endpoint := endpoint, proxyHandle := handle }), ⟨true, none⟩) := by
      simp [doCreateSession, hid, hendpoint, hhandle]
    rw [he]
    -- the new record has no PIDs, so it owns nothing
    have howns : ∀ a pid e, Owns (s.setSession id
        (some { endpoint := endpoint, proxyHandle := handle })) a pid e ↔
          a ≠ id ∧ Owns s a pid e := by
      intro a pid e
      by_cases haid : a = id
      · subst a
        simp [Owns]
      · rw [owns_of_sessions_eq (setSession_of_ne _ _ _ haid)]
        exact ⟨fun ha => ⟨haid, ha⟩, And.right⟩
    constructor
    · intro hnew _ _ _ pid e hroute _
      obtain ⟨a, ha⟩ := hnew.owned pid e hroute
      exact ⟨a, (howns a pid e).mp ha⟩
    · intro hkeep
      refine noOrphans_of_owned fun pid e hroute => ?_
      obtain ⟨a, ha⟩ := h.owned pid e hroute
      by_cases haid : a = id
      · subst a
        obtain ⟨b, hb⟩ := hkeep hid hendpoint hmap pid e hroute ha
        exact ⟨b, (howns b pid e).mpr hb⟩
      · exact ⟨a, (howns a pid e).mpr ⟨haid, ha⟩⟩
  · rcases doCreateSession_cases s id endpoint with ⟨e, he⟩ | ⟨handle, hhandle, hid, he⟩
    · rw [he]
      exact ⟨fun _ hid hendpoint hmap => absurd ⟨hid, hendpoint, hmap⟩ haccept, fun _ => h⟩
    · refine absurd ⟨hid, ?_, by simp [hhandle]⟩ haccept
      -- a blank endpoint would have been refused
      cases hendpoint : blank endpoint with
      | false => rfl
      | true => simp [doCreateSession, hid, hendpoint] at he

theorem noOrphans_step_iff {s t : Server} {event : Event} (h : NoOrphans s)
    (hstep : step s event = some t) : NoOrphans t ↔ KeepsOwners s event := by
  cases event with
  | request m stored =>
    obtain rfl := Option.some.inj hstep
    cases m with
    | createSession id endpoint => exact noOrphans_createSession_iff h id endpoint stored
    | addPid id pid createdAt => exact iff_of_true (noOrphans_addPid h id pid createdAt stored) trivial
    | removePid id pid => exact iff_of_true (noOrphans_removePid h id pid) trivial
    | closeSession id => exact iff_of_true (noOrphans_closeSession h id) trivial
  | sweep times =>
    obtain rfl := Option.some.inj hstep
    exact iff_of_true (noOrphans_sweep h times) trivial

theorem noOrphans_init (proxyMap : String → Option IntPtr) (proxyServers : List ProxyServers) :
    NoOrphans (init proxyMap proxyServers) :=
  noOrphans_of_owned fun pid e h => by simp [init] at h

/-- The two tables agree in every state of a run precisely when no `createSession` of the
    run replaces the only owner of a route. -/
theorem always_noOrphans_iff (proxyMap : String → Option IntPtr)
    (proxyServers : List ProxyServers) (events : List Event) :
    Always step NoOrphans (init proxyMap proxyServers) events ↔
      Meets step KeepsOwners (init proxyMap proxyServers) events :=
  always_iff_meets (I := fun _ => True) (fun _ _ _ _ _ => trivial)
    (fun _ _ _ _ h hstep => noOrphans_step_iff h hstep) events trivial
    (noOrphans_init proxyMap proxyServers)

/-- A client that recreates its session and closes it leaves the first record's route behind. -/
theorem recreated_session_leaves_orphan :
    ¬ ∀ (proxyMap : String → Option IntPtr) (proxyServers : List ProxyServers)
        (events : List Event), Always step NoOrphans (init proxyMap proxyServers) events := by
  intro h
  have hrun := (always_iff_reached _ _).mp
    (h (fun e => if e = "127.0.0.1:1080" then some 0 else none) [⟨some 5000, some 5001⟩]
      [.request (.createSession "s1" "127.0.0.1:1080") true,
        .request (.addPid "s1" 1234 133500000000000000) true,
        .request (.createSession "s1" "127.0.0.1:1080") true,
        .request (.closeSession "s1") true])
    _ [] _ (List.append_nil _).symm rfl
  have hclosed := hrun.cleared ?_ 1234
  · revert hclosed; decide
  · intro id
    by_cases hid : id = "s1"
    · subst hid; decide
    · have hkeep : ∀ s m, Message.sessionId m = "s1" →
          (processMessage s m true).1.sessions id = s.sessions id :=
        fun s m hm => processMessage_sessions_of_ne s m true (hm ▸ hid)
      rw [hkeep _ _ rfl, hkeep _ _ rfl, hkeep _ _ rfl, hkeep _ _ rfl]
      rfl

end ProxySwitch.SessionRouteOrphans
