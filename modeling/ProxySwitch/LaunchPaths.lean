import ProxySwitch.ManagedSessions

set_option autoImplicit false

namespace ProxySwitch.LaunchPaths
open AppRoutes ManagedSessions RuntimeStrings

inductive Reply
  | success
  | failure
  | sessionNotFound
  | exception
  deriving DecidableEq

/-- The outcome of one request, and whether `Status` is `exited` or `failed` when the code goes on
    after it. -/
structure Answer where
  reply : Reply
  ended : Bool
  deriving DecidableEq

/-- What the path of one launch finds: host and port of the proxy (empty if there is none), whether
    the launch has returned a PID, how many processes are live when the session is recreated, and
    the answers in their order. -/
structure Circumstances where
  endpoint : Text
  hasRootPid : Bool
  live : ℕ
  answers : ℕ → Answer

/-- A session with the number of its `RouteActivated` events. -/
structure RoutedSession extends CreatedSession where
  routeActivated : ℕ := 0
  deriving DecidableEq

def RoutedSession.fail (s : RoutedSession) : RoutedSession := { s with routingStatus := .failed }

def RoutedSession.activate (s : RoutedSession) : RoutedSession :=
  { s with routingStatus := .active, routeActivated := s.routeActivated + 1 }

/-- The replay of the live PIDs from the answer `i` on; an exception ends it. -/
def replayed (answers : ℕ → Answer) (i : ℕ) : ℕ → Option ℕ
  | 0 => some 0
  | live + 1 =>
    match (answers i).reply with
    | .exception => none
    | .success => (replayed answers (i + 1) live).map (· + 1)
    | .failure | .sessionNotFound => replayed answers (i + 1) live

section Paths
variable (c : Circumstances)

/-- Whether the session is recreated; `none` is an exception. -/
def recreateIpcSessionAndReplayAsync (s : RoutedSession) : Option (RoutedSession × Bool) :=
  if c.endpoint = [] then some (s, false)
  else match (c.answers 2).reply with
    | .exception => none
    | .failure | .sessionNotFound => some (s, false)
    | .success => (replayed c.answers 3 c.live).map fun count =>
      (if 0 < count && !(c.answers (c.live + 2)).ended then { s with routingStatus := .active }
        else s, true)

structure AddResult where
  session : RoutedSession
  success : Bool
  ended : Bool

def addPidToIpcSessionAsync (s : RoutedSession) : Option AddResult :=
  match (c.answers 1).reply with
  | .success => some ⟨s, true, (c.answers 1).ended⟩
  | .failure => some ⟨s, false, (c.answers 1).ended⟩
  | .exception => none
  | .sessionNotFound => (recreateIpcSessionAndReplayAsync c s).bind fun
    | (s, false) => some ⟨s, false, (c.answers 2).ended⟩
    | (s, true) =>
      let retry := c.answers (c.live + 3)
      match retry.reply with
      | .exception => none
      | .success => some ⟨s, true, retry.ended⟩
      | .failure | .sessionNotFound => some ⟨s, false, retry.ended⟩

def startIpcRoutingForSession (s : RoutedSession) : RoutedSession :=
  if c.endpoint = [] then s.fail
  else match (c.answers 0).reply with
    | .failure | .sessionNotFound | .exception => s.fail
    | .success =>
      if c.hasRootPid then
        match addPidToIpcSessionAsync c s with
        | none => s.fail
        | some result =>
          if result.success && !result.ended then result.session.activate else result.session
      else s

def launchGeneric (session : CreatedSession) : RoutedSession :=
  if session.ipcManaged && c.hasRootPid then startIpcRoutingForSession c { session with }
  else { session with }

/-- The endpoint is sent as it is, and `Status` is not looked at. -/
def inlineIpcRouting (s : RoutedSession) : RoutedSession :=
  match (c.answers 0).reply with
  | .failure | .sessionNotFound | .exception => s.fail
  | .success =>
    if c.hasRootPid then
      match addPidToIpcSessionAsync c s with
      | none => s.fail
      | some result => if result.success then result.session.activate else result.session.fail
    else s

def launchTarget (session : CreatedSession) : RoutedSession :=
  if session.ipcManaged then inlineIpcRouting c { session with } else { session with }

/-- The addition of the root ends in an exception, of its own request or of the recovery. -/
def Throws : Prop :=
  (c.answers 1).reply = .exception ∨
    (c.answers 1).reply = .sessionNotFound ∧ c.endpoint ≠ [] ∧
      ((c.answers 2).reply = .exception ∨
        (c.answers 2).reply = .success ∧
          ((∃ k < c.live, (c.answers (3 + k)).reply = .exception) ∨
            (c.answers (c.live + 3)).reply = .exception))

/-- The root is added at once or after a recovery, with the session `ended` or not. -/
def Adds (ended : Bool) : Prop :=
  c.answers 1 = ⟨.success, ended⟩ ∨
    (c.answers 1).reply = .sessionNotFound ∧ c.endpoint ≠ [] ∧ (c.answers 2).reply = .success ∧
      (∀ k < c.live, (c.answers (3 + k)).reply ≠ .exception) ∧
        c.answers (c.live + 3) = ⟨.success, ended⟩

/-- Without a PID the session is created; with one, if it is created, its PID is added while it is
    live or an exception ends the path, or there is no endpoint and the PID is not added. -/
def Agrees : Prop :=
  if c.hasRootPid then
    (c.answers 0).reply = .success →
      if c.endpoint = [] then (c.answers 1).reply ≠ .success else Throws c ∨ Adds c false
  else (c.answers 0).reply = .success

variable {c}

theorem replayed_eq_none {answers : ℕ → Answer} {i live : ℕ} : replayed answers i live = none ↔
    ∃ k < live, (answers (i + k)).reply = .exception := by
  induction live generalizing i with
  | zero => exact iff_of_false (Option.some_ne_none 0) fun ⟨_, hk, _⟩ => absurd hk (Nat.not_lt_zero _)
  | succ live ih =>
    have hshift : (∃ k < live + 1, (answers (i + k)).reply = .exception) ↔
        (answers i).reply = .exception ∨ ∃ k < live, (answers (i + 1 + k)).reply = .exception := by
      simp only [Nat.exists_lt_succ_left, Nat.add_zero]
      refine or_congr_right (exists_congr fun k => and_congr_right fun _ => ?_)
      rw [Nat.add_assoc, Nat.add_comm 1 k]
    rw [hshift]
    unfold replayed
    cases hreply : (answers i).reply with
    | exception => simp
    | success => simp [ih]
    | failure => simp [ih]
    | sessionNotFound => simp [ih]

def Kept (s s' : RoutedSession) : Prop :=
  s'.routeActivated = s.routeActivated ∧ s'.ipcManaged = s.ipcManaged ∧
    (s'.routingStatus = s.routingStatus ∨ s'.routingStatus = .active)

theorem kept_refl (s : RoutedSession) : Kept s s := ⟨rfl, rfl, .inl rfl⟩

theorem recreate_cases (c : Circumstances) (s : RoutedSession) :
    (recreateIpcSessionAndReplayAsync c s = some (s, false) ∧
      (c.endpoint = [] ∨
        (c.answers 2).reply = .failure ∨ (c.answers 2).reply = .sessionNotFound)) ∨
    (recreateIpcSessionAndReplayAsync c s = none ∧ c.endpoint ≠ [] ∧
      ((c.answers 2).reply = .exception ∨ (c.answers 2).reply = .success ∧
        ∃ k < c.live, (c.answers (3 + k)).reply = .exception)) ∨
    ∃ s', recreateIpcSessionAndReplayAsync c s = some (s', true) ∧ Kept s s' ∧ c.endpoint ≠ [] ∧
      (c.answers 2).reply = .success ∧ ∀ k < c.live, (c.answers (3 + k)).reply ≠ .exception := by
  unfold recreateIpcSessionAndReplayAsync
  by_cases hendpoint : c.endpoint = []
  · exact .inl ⟨if_pos hendpoint, .inl hendpoint⟩
  · rw [if_neg hendpoint]
    cases hcreate : (c.answers 2).reply with
    | failure => exact .inl ⟨rfl, .inr (.inl rfl)⟩
    | sessionNotFound => exact .inl ⟨rfl, .inr (.inr rfl)⟩
    | exception => exact .inr (.inl ⟨rfl, hendpoint, .inl rfl⟩)
    | success =>
      have hnone : replayed c.answers 3 c.live = none ↔
          ∃ k < c.live, (c.answers (3 + k)).reply = .exception := replayed_eq_none
      cases hcount : replayed c.answers 3 c.live with
      | none => exact .inr (.inl ⟨rfl, hendpoint, .inr ⟨rfl, hnone.mp hcount⟩⟩)
      | some count =>
        have hreplies : ∀ k < c.live, (c.answers (3 + k)).reply ≠ .exception := fun k hk hreply =>
          Option.some_ne_none count (hcount.symm.trans (hnone.mpr ⟨k, hk, hreply⟩))
        refine .inr (.inr ⟨_, rfl, ?_, hendpoint, rfl, hreplies⟩)
        split
        · exact ⟨rfl, rfl, .inr rfl⟩
        · exact kept_refl s

theorem addPid_cases (c : Circumstances) (s : RoutedSession) :
    (addPidToIpcSessionAsync c s = none ∧ Throws c) ∨
    ∃ result, addPidToIpcSessionAsync c s = some result ∧ Kept s result.session ∧ ¬Throws c ∧
      ∀ ended, Adds c ended ↔ result.success = true ∧ result.ended = ended := by
  unfold addPidToIpcSessionAsync Throws Adds
  obtain ⟨reply, ended⟩ := c.answers 1
  cases reply with
  | success => exact .inr ⟨_, rfl, kept_refl s, by simp, fun ended' => by simp⟩
  | failure => exact .inr ⟨_, rfl, kept_refl s, by simp, fun ended' => by simp⟩
  | exception => exact .inl ⟨rfl, .inl rfl⟩
  | sessionNotFound =>
    obtain ⟨hrecreate, hnot⟩ | ⟨hrecreate, hendpoint, hthrows⟩ |
      ⟨s', hrecreate, hkept, hendpoint, hcreate, hreplies⟩ := recreate_cases c s
    · have hfailed : c.endpoint = [] ∨ (c.answers 2).reply ≠ .exception ∧
          (c.answers 2).reply ≠ .success := by
        obtain hendpoint | hcreate | hcreate := hnot
        · exact .inl hendpoint
        · exact .inr (by simp [hcreate])
        · exact .inr (by simp [hcreate])
      refine .inr ⟨⟨s, false, (c.answers 2).ended⟩, by simp [hrecreate], kept_refl s, ?_, ?_⟩
      · simp
        tauto
      · simp
        tauto
    · refine .inl ⟨by simp [hrecreate], .inr ⟨rfl, hendpoint, ?_⟩⟩
      exact hthrows.imp_right fun h => ⟨h.1, .inl h.2⟩
    · have hno : ¬∃ k < c.live, (c.answers (3 + k)).reply = .exception := fun ⟨k, hk, hreply⟩ =>
        hreplies k hk hreply
      cases hretry : c.answers (c.live + 3) with
      | mk retry ended' =>
        cases retry with
        | exception =>
          exact .inl ⟨by simp [hrecreate], .inr ⟨rfl, hendpoint, .inr ⟨hcreate, .inr rfl⟩⟩⟩
        | success =>
          exact .inr ⟨⟨s', true, ended'⟩, by simp [hrecreate], hkept, by simp [hcreate, hno],
            fun ended => by simpa [hendpoint, hcreate] using fun _ => hreplies⟩
        | failure =>
          exact .inr ⟨⟨s', false, ended'⟩, by simp [hrecreate], hkept,
            by simp [hcreate, hno], fun ended => by simp⟩
        | sessionNotFound =>
          exact .inr ⟨⟨s', false, ended'⟩, by simp [hrecreate], hkept,
            by simp [hcreate, hno], fun ended => by simp⟩

theorem fail_eq_of_kept {s s' : RoutedSession} (h : Kept s s') : s'.fail = s.fail := by
  obtain ⟨⟨status, managed⟩, activated⟩ := s
  obtain ⟨⟨status', managed'⟩, activated'⟩ := s'
  obtain ⟨rfl, rfl, -⟩ := h
  rfl

theorem activate_ne_of_kept {s s' : RoutedSession} (h : Kept s s') (s'' : RoutedSession)
    (hcount : s''.routeActivated = s.routeActivated) : s'.activate ≠ s'' := by
  intro heq
  have hactivated : s'.routeActivated + 1 = s''.routeActivated :=
    congrArg RoutedSession.routeActivated heq
  rw [hcount, h.1] at hactivated
  exact Nat.succ_ne_self _ hactivated

theorem ne_fail {s : RoutedSession} (h : s.routingStatus ≠ .failed) (s' : RoutedSession) :
    s ≠ s'.fail :=
  fun heq => h (congrArg (fun s : RoutedSession => s.routingStatus) heq)

theorem paths_agree_of_endpoint {s : RoutedSession} (hstatus : s.routingStatus = .sessionCreated)
    (hroot : c.hasRootPid = true) (hcreate : (c.answers 0).reply = .success)
    (hendpoint : c.endpoint ≠ []) :
    startIpcRoutingForSession c s = inlineIpcRouting c s ↔ Throws c ∨ Adds c false := by
  simp only [startIpcRoutingForSession, inlineIpcRouting, if_neg hendpoint, hcreate, hroot, if_true]
  obtain ⟨hadd, hthrows⟩ | ⟨result, hadd, hkept, hthrows, hadds⟩ := addPid_cases c s
  · rw [hadd]
    exact iff_of_true rfl (.inl hthrows)
  · rw [hadd, hadds false, or_iff_right hthrows]
    dsimp only
    cases hsuccess : result.success with
    | true =>
      cases hended : result.ended with
      | true =>
        refine iff_of_false (fun heq => ?_) (by simp)
        exact activate_ne_of_kept hkept result.session hkept.1 heq.symm
      | false => exact iff_of_true rfl ⟨rfl, rfl⟩
    | false =>
      refine iff_of_false (ne_fail ?_ _) (by simp)
      obtain ⟨-, -, hsame | hactive⟩ := hkept
      · simp [hsame, hstatus]
      · simp [hactive]

theorem paths_agree_of_no_endpoint {s : RoutedSession} (hroot : c.hasRootPid = true)
    (hcreate : (c.answers 0).reply = .success) (hendpoint : c.endpoint = []) :
    startIpcRoutingForSession c s = inlineIpcRouting c s ↔ (c.answers 1).reply ≠ .success := by
  simp only [startIpcRoutingForSession, inlineIpcRouting, if_pos hendpoint, hcreate, hroot, if_true]
  obtain ⟨hadd, hthrows⟩ | ⟨result, hadd, hkept, -, hadds⟩ := addPid_cases c s
  · rw [hadd]
    refine iff_of_true rfl fun hreply => ?_
    simp [Throws, hreply] at hthrows
  · rw [hadd]
    dsimp only
    cases hsuccess : result.success with
    | true =>
      have hadded := (hadds result.ended).mpr ⟨hsuccess, rfl⟩
      simp only [Adds, hendpoint, ne_eq, not_true, false_and, and_false, or_false] at hadded
      refine iff_of_false (fun heq => activate_ne_of_kept hkept s.fail rfl heq.symm) ?_
      rw [hadded]
      exact fun hne => hne rfl
    | false =>
      refine iff_of_true (fail_eq_of_kept hkept).symm fun hreply => ?_
      have hadded : Adds c (c.answers 1).ended := .inl (by rw [← hreply])
      rw [hadds, hsuccess] at hadded
      exact Bool.false_ne_true hadded.1

theorem paths_agree_iff {s : CreatedSession} (hmanaged : s.ipcManaged = true)
    (hstatus : s.routingStatus = .sessionCreated) :
    launchGeneric c s = launchTarget c s ↔ Agrees c := by
  simp only [launchGeneric, launchTarget, Agrees, hmanaged, Bool.true_and, if_true]
  cases hroot : c.hasRootPid with
  | false =>
    simp only [Bool.false_eq_true, if_false, inlineIpcRouting, hroot]
    cases hcreate : (c.answers 0).reply with
    | success => exact iff_of_true rfl rfl
    | failure => exact iff_of_false (ne_fail (by simp [hstatus]) _) Reply.noConfusion
    | sessionNotFound => exact iff_of_false (ne_fail (by simp [hstatus]) _) Reply.noConfusion
    | exception => exact iff_of_false (ne_fail (by simp [hstatus]) _) Reply.noConfusion
  | true =>
    rw [if_pos rfl, if_pos rfl]
    by_cases hcreate : (c.answers 0).reply = .success
    · rw [forall_prop_of_true hcreate]
      split
      · rename_i hendpoint
        exact paths_agree_of_no_endpoint hroot hcreate hendpoint
      · rename_i hendpoint
        exact paths_agree_of_endpoint hstatus hroot hcreate hendpoint
    · refine iff_of_true ?_ fun h => absurd h hcreate
      unfold startIpcRoutingForSession inlineIpcRouting
      cases hreply : (c.answers 0).reply with
      | success => exact absurd hreply hcreate
      | failure => exact ite_self _
      | sessionNotFound => exact ite_self _
      | exception => exact ite_self _

end Paths

section Launches
variable (rt : Runtime) (backend : Backend) (write : ConfigWrite) (proxyId : Text)
  (isPersistentRoute : Bool) (sessionId : Text) (routes : List AppRoute) (probe : Bool)

def made (call : LaunchCall) : CreatedSession :=
  (Creation.launch call rt backend write proxyId isPersistentRoute sessionId routes probe).session

def executable (target : LaunchTarget) : LaunchTarget := { target with launchKind := .exe }

variable {rt backend write proxyId isPersistentRoute sessionId routes probe}

theorem writeRoute_status {onSuccess : RoutingStatus} {routes : List AppRoute}
    (ensured : Option (EnsureRouteResult × List AppRoute)) :
    (writeRoute rt backend write onSuccess ensured routes).1 =
      if ensured.isSome && (write.built && write.written) then onSuccess else .routeFailed := by
  cases ensured with
  | none => rfl
  | some ensured =>
    simp only [writeRoute, writeConfig]
    cases write.built && write.written <;> rfl

theorem isSome_ensureTargetRoute {source : Text} {ipcManaged : Bool} (target : LaunchTarget) :
    (ensureTargetRoute rt (executable target) proxyId source isPersistentRoute (some sessionId)
        ipcManaged routes).isSome =
      (ensureRoute rt target.exePath proxyId source isPersistentRoute (some sessionId) ipcManaged
        routes).isSome := by
  by_cases hexe : target.exePath = []
  · simp only [ensureTargetRoute, executable, ensureRoute, hexe, true_or, if_true]
    split
    · rename_i hne
      exact absurd rfl hne.2
    · split <;> rfl
  · simp only [ensureTargetRoute, executable]
    rw [if_pos ⟨trivial, hexe⟩]

theorem made_executable (target : LaunchTarget) :
    made rt backend write proxyId isPersistentRoute sessionId routes probe
        (.target (executable target)) =
      made rt backend write proxyId isPersistentRoute sessionId routes probe
        (.generic target.exePath false) := by
  have hstatus : (initialRouting rt backend write (.target (executable target)) proxyId
      isPersistentRoute sessionId routes).1 = (initialRouting rt backend write
        (.generic target.exePath false) proxyId isPersistentRoute sessionId routes).1 := by
    simp only [initialRouting, resolveInitialRoutingStatusForTarget, resolveInitialRoutingStatus,
      Bool.false_eq_true, false_or]
    split
    · rfl
    · split
      · rfl
      · split
        · rw [writeRoute_status, writeRoute_status, isSome_ensureTargetRoute]
        · rw [if_neg (by simp [executable])]
          rfl
  simp only [made, Creation.session, hstatus]

theorem status_of_managed {call : LaunchCall} (h : (made rt backend write proxyId isPersistentRoute
      sessionId routes probe call).ipcManaged = true) :
    (made rt backend write proxyId isPersistentRoute sessionId routes probe call).routingStatus =
      .sessionCreated := by
  simp only [made, Creation.session, Bool.and_eq_true, beq_iff_eq] at h ⊢
  rw [h.1]
  rfl

end Launches

/-- The launches of one executable by the two functions leave the session alike precisely when it is
    not managed or the answers agree with both paths. -/
theorem launches_agree_iff (rt : Runtime) (backend : Backend) (write : ConfigWrite) (proxyId : Text)
    (isPersistentRoute : Bool) (sessionId : Text) (routes : List AppRoute) (probe : Bool)
    (target : LaunchTarget) (c : Circumstances) :
    launchGeneric c (made rt backend write proxyId isPersistentRoute sessionId routes probe
        (.generic target.exePath false)) =
      launchTarget c (made rt backend write proxyId isPersistentRoute sessionId routes probe
        (.target (executable target))) ↔
      ((made rt backend write proxyId isPersistentRoute sessionId routes probe
        (.generic target.exePath false)).ipcManaged = true → Agrees c) := by
  rw [made_executable]
  cases hmanaged : (made rt backend write proxyId isPersistentRoute sessionId routes probe
      (.generic target.exePath false)).ipcManaged with
  | false =>
    refine iff_of_true ?_ fun h => absurd h Bool.false_ne_true
    simp only [launchGeneric, launchTarget, hmanaged, Bool.false_and, Bool.false_eq_true, if_false]
  | true =>
    rw [forall_prop_of_true rfl]
    exact paths_agree_iff hmanaged (status_of_managed hmanaged)

def stoppedEarly : Circumstances where
  endpoint := "127.0.0.1:7890".toList
  hasRootPid := true
  live := 1
  answers i := ⟨.success, 0 < i⟩

theorem stopped_session_activated :
    ¬∀ (rt : Runtime) (backend : Backend) (write : ConfigWrite) (proxyId : Text)
      (isPersistentRoute : Bool) (sessionId : Text) (routes : List AppRoute) (probe : Bool)
      (target : LaunchTarget) (c : Circumstances),
      launchGeneric c (made rt backend write proxyId isPersistentRoute sessionId routes probe
          (.generic target.exePath false)) =
        launchTarget c (made rt backend write proxyId isPersistentRoute sessionId routes probe
          (.target (executable target))) := by
  intro h
  exact absurd (h plainRuntime ⟨true, .running, true, ["clash".toList]⟩
    ⟨true, true, fun _ _ => none, 0⟩ "clash".toList true "0a1b2c3d".toList [] true
    { exePath := "C:\\apps\\note.exe".toList } stoppedEarly) (by decide)

end ProxySwitch.LaunchPaths
