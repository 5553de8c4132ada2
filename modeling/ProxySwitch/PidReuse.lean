import ProxySwitch.SessionRouteIsolation

set_option autoImplicit false

/-!
# PID routes and PID reuse

The way of a creation time from the process that the session manager observes to the
router's check: the tracked record, `AddPidAsync`, the pipe, the two DWORDs and
`validate_pid_creation_time`. Processes start and exit between any two steps.
-/
namespace ProxySwitch.PidReuse
open RouterPidRoutes SessionRouteServer SessionRouteIsolation TransitionRuns

structure Process where
  pid : DWORD
  created : FileTime
  deriving DecidableEq

def joinFileTime (creation : FileTime) : BitVec 64 :=
  (creation.dwHighDateTime.zeroExtend 64 <<< 32) ||| creation.dwLowDateTime.zeroExtend 64

/-- `none` stands for a process that `OpenProcess` or `GetProcessTimes` refuses. -/
def getProcessCreationFileTimeUtc (opened : Option FileTime) : Option (BitVec 64) :=
  opened.map joinFileTime

/-- A `DateTime` stands for its `ToFileTimeUtc`. -/
def addPidAsync (sessionId : String) (pid : DWORD) (createdAtUtc : BitVec 64)
    (opened : Option FileTime) : Message :=
  let fallbackFileTime := createdAtUtc
  let kernelFileTime := getProcessCreationFileTimeUtc opened
  .addPid sessionId pid (kernelFileTime.getD fallbackFileTime)

/-- The entry by which `get_proxy_port_tcp` and `get_proxy_port_udp` route a process. -/
def pidRouteHit (r : Router) (times : ProcessTimes) (pid : DWORD) : Option PidRouteEntry :=
  match r.pidToProxy pid with
  | some e => if validatePidCreationTime times pid e.creationTime then some e else none
  | none => none

structure TrackedProcess where
  sessionId : String
  processId : DWORD
  createdAt : Option (BitVec 64)
  deriving DecidableEq

/-- `CreatedAt ?? GetProcessStartTime(pid) ?? DateTime.Now`. -/
def TrackedProcess.createdAtUtc (record : TrackedProcess) (startTime : Option FileTime)
    (now : BitVec 64) : BitVec 64 :=
  record.createdAt.getD ((getProcessCreationFileTimeUtc startTime).getD now)

/-- The operating system, the session manager, the requests under way and the server.
    `decided` keeps which process each session observed. -/
structure World where
  now : BitVec 64
  running : DWORD → Option FileTime
  tracked : List TrackedProcess
  decided : List (String × Process)
  inFlight : List Message
  traced : Traced

def World.openProcess (w : World) (granted : Bool) (pid : DWORD) : Option FileTime :=
  if granted then w.running pid else none

def World.processTimes (w : World) (granted : DWORD → Bool) : ProcessTimes :=
  fun pid => w.openProcess (granted pid) pid

def isAddPid : Message → Bool
  | .addPid _ _ _ => true
  | _ => false

inductive Action
  | tick (now : BitVec 64)
  | start (process : Process)
  | exit (pid : DWORD)
  | observe (sessionId : String) (pid : DWORD) (createdAt : Option (BitVec 64))
  | addPid (record : TrackedProcess) (granted startGranted : Bool)
  | send (m : Message)
  | deliver (m : Message) (stored : Bool)
  | lose (m : Message)
  | sweep (granted : DWORD → Bool)

def step (w : World) : Action → Option World
  | .tick now => if w.now ≤ now then some { w with now := now } else none
  | .start process =>
    if w.running process.pid = none ∧ w.now ≤ joinFileTime process.created then
      some
        { w with
          now := joinFileTime process.created
          running := Function.update w.running process.pid (some process.created) }
    else none
  | .exit pid => some { w with running := Function.update w.running pid none }
  | .observe sessionId pid createdAt =>
    match w.running pid with
    | none => none
    | some created =>
      some
        { w with
          tracked := ⟨sessionId, pid, createdAt⟩ :: w.tracked
          decided := (sessionId, ⟨pid, created⟩) :: w.decided }
  | .addPid record granted startGranted =>
    -- the first attempt, a retry or a replay: a record may be sent any number of times
    if record ∈ w.tracked then
      let createdAt := record.createdAtUtc (w.openProcess startGranted record.processId) w.now
      let request := addPidAsync record.sessionId record.processId createdAt
        (w.openProcess granted record.processId)
      some { w with inFlight := request :: w.inFlight }
    else none
  | .send m => if isAddPid m then none else some { w with inFlight := m :: w.inFlight }
  | .deliver m stored =>
    if m ∈ w.inFlight then
      (tracedStep w.traced (.request m stored)).map fun traced =>
        { w with inFlight := w.inFlight.erase m, traced := traced }
    else none
  | .lose m => if m ∈ w.inFlight then some { w with inFlight := w.inFlight.erase m } else none
  | .sweep granted =>
    (tracedStep w.traced (.sweep (w.processTimes granted))).map fun traced =>
      { w with traced := traced }

/-- A process that the router routes by its PID is one that the session which added the route
    observed. -/
def RoutesObserved (w : World) : Prop :=
  ∀ granted pid e, pidRouteHit w.traced.server.router (w.processTimes granted) pid = some e →
    ∃ sessionId created, w.traced.lastAdd pid = some sessionId ∧ w.running pid = some created ∧
      (sessionId, ⟨pid, created⟩) ∈ w.decided

/-- When `AddPidAsync` asks the kernel, the PID still belongs to a process that the session
    observed. Where the kernel gives no answer, the recorded time is that of such a process, or
    a past time at which the PID's present process was not created. -/
def PidStillObserved (w : World) : Action → Prop
  | .addPid record granted startGranted =>
    match w.openProcess granted record.processId with
    | some created => (record.sessionId, ⟨record.processId, created⟩) ∈ w.decided
    | none =>
      let createdAt := record.createdAtUtc (w.openProcess startGranted record.processId) w.now
      (record.sessionId, ⟨record.processId, splitFileTime createdAt⟩) ∈ w.decided ∨
        createdAt < w.now ∧ w.running record.processId ≠ some (splitFileTime createdAt)
  | _ => True

theorem getLsbD_joinFileTime (t : FileTime) {i : ℕ} (hi : i < 64) :
    (joinFileTime t).getLsbD i =
      if i < 32 then t.dwLowDateTime.getLsbD i else t.dwHighDateTime.getLsbD (i - 32) := by
  simp only [joinFileTime, BitVec.truncate_eq_setWidth, BitVec.getLsbD_or,
    BitVec.getLsbD_shiftLeft, BitVec.getLsbD_setWidth]
  by_cases hlow : i < 32
  · simp [hi, hlow]
  · have hhigh : i - 32 < 64 := by omega
    have hbeyond : t.dwLowDateTime.getLsbD i = false := BitVec.getLsbD_of_ge _ _ (by omega)
    simp [hi, hlow, hhigh, hbeyond]

theorem getLsbD_splitFileTime (x : BitVec 64) {i : ℕ} (hi : i < 32) :
    (splitFileTime x).dwLowDateTime.getLsbD i = x.getLsbD i ∧
      (splitFileTime x).dwHighDateTime.getLsbD i = x.getLsbD (32 + i) := by
  have hword : 32 + i < 64 := by omega
  have hsmall : ¬ 64 ≤ i := by omega
  simp only [splitFileTime, BitVec.truncate_eq_setWidth, BitVec.getLsbD_setWidth,
    BitVec.getLsbD_sshiftRight, hi, hword, hsmall]
  simp

theorem splitFileTime_joinFileTime (t : FileTime) : splitFileTime (joinFileTime t) = t := by
  have hlow : (splitFileTime (joinFileTime t)).dwLowDateTime = t.dwLowDateTime := by
    apply BitVec.eq_of_getLsbD_eq
    intro i hi
    rw [(getLsbD_splitFileTime _ hi).1, getLsbD_joinFileTime t (by omega), if_pos hi]
  have hhigh : (splitFileTime (joinFileTime t)).dwHighDateTime = t.dwHighDateTime := by
    apply BitVec.eq_of_getLsbD_eq
    intro i hi
    rw [(getLsbD_splitFileTime _ hi).2, getLsbD_joinFileTime t (by omega), if_neg (by omega),
      Nat.add_sub_cancel_left]
  calc splitFileTime (joinFileTime t)
      = ⟨(splitFileTime (joinFileTime t)).dwLowDateTime,
          (splitFileTime (joinFileTime t)).dwHighDateTime⟩ := rfl
    _ = t := by rw [hlow, hhigh]

theorem joinFileTime_splitFileTime (x : BitVec 64) : joinFileTime (splitFileTime x) = x := by
  apply BitVec.eq_of_getLsbD_eq
  intro i hi
  rw [getLsbD_joinFileTime _ hi]
  by_cases hlow : i < 32
  · rw [if_pos hlow, (getLsbD_splitFileTime x hlow).1]
  · rw [if_neg hlow, (getLsbD_splitFileTime x (by omega)).2]
    congr 1
    omega

theorem pidRouteHit_iff {r : Router} {times : ProcessTimes} {pid : DWORD} {e : PidRouteEntry} :
    pidRouteHit r times pid = some e ↔
      r.pidToProxy pid = some e ∧ times pid = some e.creationTime := by
  unfold pidRouteHit
  cases r.pidToProxy pid with
  | none => simp
  | some route =>
    rw [← validatePidCreationTime_iff]
    by_cases hvalid : validatePidCreationTime times pid route.creationTime = true
    · simp only [hvalid, if_true, Option.some.injEq]
      constructor
      · rintro rfl; exact ⟨rfl, hvalid⟩
      · exact And.left
    · simp only [hvalid, if_false, Option.some.injEq, reduceCtorEq, false_iff, not_and]
      rintro rfl
      exact hvalid

/-- A route for this process does no harm: the session observed it, or its time has passed and
    the PID has another process or none. -/
def Harmless (w : World) (sessionId : String) (process : Process) : Prop :=
  (sessionId, process) ∈ w.decided ∨
    joinFileTime process.created < w.now ∧ w.running process.pid ≠ some process.created

/-- Time does not run backwards, no observation is forgotten, and a process that a step starts is
    created at the present time or later. -/
theorem step_processes {w t : World} {action : Action} (h : step w action = some t) :
    w.now ≤ t.now ∧ w.decided ⊆ t.decided ∧
      ∀ pid created, t.running pid = some created →
        w.running pid = some created ∨ w.now ≤ joinFileTime created := by
  cases action with
  | tick now =>
    simp only [step, Option.ite_none_right_eq_some, Option.some.injEq] at h
    obtain ⟨hlater, rfl⟩ := h
    exact ⟨hlater, List.Subset.refl _, fun _ _ => .inl⟩
  | start process =>
    simp only [step, Option.ite_none_right_eq_some, Option.some.injEq] at h
    obtain ⟨⟨_, hlater⟩, rfl⟩ := h
    refine ⟨hlater, List.Subset.refl _, fun pid created hrunning => ?_⟩
    simp only [Function.update_apply] at hrunning
    split at hrunning
    · exact .inr (Option.some.inj hrunning ▸ hlater)
    · exact .inl hrunning
  | exit pid =>
    obtain rfl := Option.some.inj h
    refine ⟨BitVec.le_refl _, List.Subset.refl _, fun q created hrunning => ?_⟩
    simp only [Function.update_apply] at hrunning
    split at hrunning
    · cases hrunning
    · exact .inl hrunning
  | observe sessionId pid createdAt =>
    simp only [step] at h
    split at h
    · cases h
    · obtain rfl := Option.some.inj h
      exact ⟨BitVec.le_refl _, List.subset_cons_self _ _, fun _ _ => .inl⟩
  | addPid record granted startGranted =>
    simp only [step, Option.ite_none_right_eq_some, Option.some.injEq] at h
    obtain ⟨_, rfl⟩ := h
    exact ⟨BitVec.le_refl _, List.Subset.refl _, fun _ _ => .inl⟩
  | send m =>
    simp only [step, Option.ite_none_left_eq_some, Option.some.injEq] at h
    obtain ⟨_, rfl⟩ := h
    exact ⟨BitVec.le_refl _, List.Subset.refl _, fun _ _ => .inl⟩
  | deliver m stored =>
    simp only [step, Option.ite_none_right_eq_some, Option.map_eq_some_iff] at h
    obtain ⟨_, traced, _, rfl⟩ := h
    exact ⟨BitVec.le_refl _, List.Subset.refl _, fun _ _ => .inl⟩
  | lose m =>
    simp only [step, Option.ite_none_right_eq_some, Option.some.injEq] at h
    obtain ⟨_, rfl⟩ := h
    exact ⟨BitVec.le_refl _, List.Subset.refl _, fun _ _ => .inl⟩
  | sweep granted =>
    obtain rfl := Option.some.inj h
    exact ⟨BitVec.le_refl _, List.Subset.refl _, fun _ _ => .inl⟩

theorem harmless_step {w t : World} {action : Action} {sessionId : String} {process : Process}
    (h : Harmless w sessionId process) (hstep : step w action = some t) :
    Harmless t sessionId process := by
  obtain ⟨hclock, hdecided, hrunning⟩ := step_processes hstep
  rcases h with hobserved | ⟨hpast, hother⟩
  · exact .inl (hdecided hobserved)
  · refine .inr ⟨by bv_omega, fun hnow => ?_⟩
    rcases hrunning _ _ hnow with hbefore | hlater
    · exact hother hbefore
    · bv_omega

structure Inv (w : World) : Prop where
  requested : ∀ sessionId pid createdAt, .addPid sessionId pid createdAt ∈ w.inFlight →
    Harmless w sessionId ⟨pid, splitFileTime createdAt⟩
  routed : ∀ pid e, w.traced.server.router.pidToProxy pid = some e →
    ∃ sessionId, w.traced.lastAdd pid = some sessionId ∧ Harmless w sessionId ⟨pid, e.creationTime⟩

theorem harmless_of_observed {w : World} {record : TrackedProcess} {granted startGranted : Bool}
    (h : PidStillObserved w (.addPid record granted startGranted)) :
    ∀ sessionId pid createdAt,
      addPidAsync record.sessionId record.processId
          (record.createdAtUtc (w.openProcess startGranted record.processId) w.now)
          (w.openProcess granted record.processId) = .addPid sessionId pid createdAt →
        Harmless w sessionId ⟨pid, splitFileTime createdAt⟩ := by
  intro sessionId pid createdAt hrequest
  simp only [PidStillObserved] at h
  simp only [addPidAsync, Message.addPid.injEq] at hrequest
  obtain ⟨rfl, rfl, rfl⟩ := hrequest
  cases hopened : w.openProcess granted record.processId with
  | some created =>
    rw [hopened] at h
    simp only [getProcessCreationFileTimeUtc, Option.map_some, Option.getD_some]
    rw [splitFileTime_joinFileTime]
    exact .inl h
  | none =>
    rw [hopened] at h
    simp only [getProcessCreationFileTimeUtc, Option.map_none, Option.getD_none]
    refine h.imp id fun hpast => ?_
    rw [joinFileTime_splitFileTime]
    exact hpast

theorem inv_step {w t : World} {action : Action} (hw : Inv w) (hok : PidStillObserved w action)
    (hstep : step w action = some t) : Inv t := by
  have hkept : ∀ {sessionId : String} {process : Process}, Harmless w sessionId process →
      Harmless t sessionId process := fun h => harmless_step h hstep
  have hrouted : t.traced = w.traced → ∀ pid e,
      t.traced.server.router.pidToProxy pid = some e →
        ∃ sessionId, t.traced.lastAdd pid = some sessionId ∧
          Harmless t sessionId ⟨pid, e.creationTime⟩ := by
    intro hsame pid e he
    rw [hsame] at he ⊢
    obtain ⟨sessionId, hadd, hharmless⟩ := hw.routed pid e he
    exact ⟨sessionId, hadd, hkept hharmless⟩
  have hrequested : t.inFlight ⊆ w.inFlight → ∀ sessionId pid createdAt,
      .addPid sessionId pid createdAt ∈ t.inFlight →
        Harmless t sessionId ⟨pid, splitFileTime createdAt⟩ :=
    fun hsub sessionId pid createdAt hmem => hkept (hw.requested _ _ _ (hsub hmem))
  cases action with
  | tick now =>
    simp only [step, Option.ite_none_right_eq_some, Option.some.injEq] at hstep
    obtain ⟨_, rfl⟩ := hstep
    exact ⟨hrequested (List.Subset.refl _), hrouted rfl⟩
  | start process =>
    simp only [step, Option.ite_none_right_eq_some, Option.some.injEq] at hstep
    obtain ⟨_, rfl⟩ := hstep
    exact ⟨hrequested (List.Subset.refl _), hrouted rfl⟩
  | exit pid =>
    obtain rfl := Option.some.inj hstep
    exact ⟨hrequested (List.Subset.refl _), hrouted rfl⟩
  | observe sessionId pid createdAt =>
    simp only [step] at hstep
    split at hstep
    · cases hstep
    · obtain rfl := Option.some.inj hstep
      exact ⟨hrequested (List.Subset.refl _), hrouted rfl⟩
  | addPid record granted startGranted =>
    simp only [step, Option.ite_none_right_eq_some, Option.some.injEq] at hstep
    obtain ⟨_, rfl⟩ := hstep
    refine ⟨fun sessionId pid createdAt hmem => ?_, hrouted rfl⟩
    rcases List.mem_cons.mp hmem with hnew | hold
    · exact hkept (harmless_of_observed hok _ _ _ hnew.symm)
    · exact hkept (hw.requested _ _ _ hold)
  | send m =>
    simp only [step, Option.ite_none_left_eq_some, Option.some.injEq] at hstep
    obtain ⟨hother, rfl⟩ := hstep
    refine ⟨fun sessionId pid createdAt hmem => ?_, hrouted rfl⟩
    rcases List.mem_cons.mp hmem with rfl | hold
    · exact absurd rfl hother
    · exact hkept (hw.requested _ _ _ hold)
  | deliver m stored =>
    simp only [step, tracedStep, SessionRouteServer.step, Option.map_some,
      Option.ite_none_right_eq_some, Option.some.injEq] at hstep
    obtain ⟨hmem, rfl⟩ := hstep
    refine ⟨hrequested List.erase_subset, fun pid e he => ?_⟩
    rcases routed_of_request w.traced.lastAdd he with
      ⟨hold, hadd⟩ | ⟨sessionId, createdAt, rfl, htime, hadd⟩
    · obtain ⟨sessionId, hlast, hharmless⟩ := hw.routed pid e hold
      exact ⟨sessionId, hadd.trans hlast, hkept hharmless⟩
    · exact ⟨sessionId, hadd, htime ▸ hkept (hw.requested _ _ _ hmem)⟩
  | lose m =>
    simp only [step, Option.ite_none_right_eq_some, Option.some.injEq] at hstep
    obtain ⟨_, rfl⟩ := hstep
    exact ⟨hrequested List.erase_subset, hrouted rfl⟩
  | sweep granted =>
    obtain rfl := Option.some.inj hstep
    refine ⟨hrequested (List.Subset.refl _), fun pid e he => ?_⟩
    obtain ⟨sessionId, hlast, hharmless⟩ := hw.routed pid e (cleanupStalePidRoutes_some he)
    exact ⟨sessionId, hlast, hkept hharmless⟩

theorem routesObserved_of_inv {w : World} (hw : Inv w) : RoutesObserved w := by
  intro granted pid e hhit
  obtain ⟨hroute, htime⟩ := pidRouteHit_iff.mp hhit
  have hrunning : w.running pid = some e.creationTime := by
    simp only [World.processTimes, World.openProcess, Option.ite_none_right_eq_some] at htime
    exact htime.2
  obtain ⟨sessionId, hlast, hobserved | ⟨_, hother⟩⟩ := hw.routed pid e hroute
  · exact ⟨sessionId, e.creationTime, hlast, hrunning, hobserved⟩
  · exact absurd hrunning hother

def init (now : BitVec 64) (running : DWORD → Option FileTime) (proxyMap : String → Option IntPtr)
    (proxyServers : List ProxyServers) : World where
  now := now
  running := running
  tracked := []
  decided := []
  inFlight := []
  traced := tracedInit proxyMap proxyServers

/-- In a run whose `addPid` requests are each sent while the PID is still that of an observed
    process, only observed processes are routed. -/
theorem always_routesObserved (now : BitVec 64) (running : DWORD → Option FileTime)
    (proxyMap : String → Option IntPtr) (proxyServers : List ProxyServers) (actions : List Action)
    (h : Meets step PidStillObserved (init now running proxyMap proxyServers) actions) :
    Always step RoutesObserved (init now running proxyMap proxyServers) actions := by
  have hinit : Inv (init now running proxyMap proxyServers) :=
    ⟨fun _ _ _ hmem => (List.not_mem_nil hmem).elim, fun _ _ he => by cases he⟩
  exact always_mono (fun _ => routesObserved_of_inv)
    (always_of_meets (fun _ _ _ hw hok hstep => inv_step hw hok hstep) hinit h)

def idle : World :=
  init 133500000000000000 (fun _ => none) (fun e => if e = "127.0.0.1:1080" then some 0 else none)
    [⟨some 5000, some 5001⟩]

def observed : List Action :=
  [.send (.createSession "s1" "127.0.0.1:1080"),
    .deliver (.createSession "s1" "127.0.0.1:1080") true,
    .start ⟨1234, splitFileTime 133500000000000001⟩,
    .observe "s1" 1234 (some 133500000000000001)]

theorem always_routesObserved_running : Always step RoutesObserved idle
    (observed ++ [.addPid ⟨"s1", 1234, some 133500000000000001⟩ true true,
      .deliver (.addPid "s1" 1234 133500000000000001) true]) := by
  refine always_routesObserved _ _ _ _ _ ?_
  refine (meets_cons rfl).mpr ⟨trivial, (meets_cons rfl).mpr ⟨trivial, (meets_cons rfl).mpr
    ⟨trivial, (meets_cons rfl).mpr ⟨trivial, (meets_cons rfl).mpr ⟨?_,
      (meets_cons rfl).mpr ⟨trivial, trivial⟩⟩⟩⟩⟩⟩
  exact List.mem_singleton.mpr rfl

/-- `AddPidAsync` replaces the observed time by that of the process that took the PID over. -/
theorem reused_pid_is_routed :
    ¬ ∀ (now : BitVec 64) (running : DWORD → Option FileTime)
        (proxyMap : String → Option IntPtr) (proxyServers : List ProxyServers)
        (actions : List Action),
      Always step RoutesObserved (init now running proxyMap proxyServers) actions := by
  intro h
  have hrun := (always_iff_reached _ _).mp
    (h 133500000000000000 (fun _ => none) (fun e => if e = "127.0.0.1:1080" then some 0 else none)
      [⟨some 5000, some 5001⟩]
      (observed ++ [.exit 1234, .start ⟨1234, splitFileTime 133500000000000002⟩,
        .addPid ⟨"s1", 1234, some 133500000000000001⟩ true true,
        .deliver (.addPid "s1" 1234 133500000000000002) true]))
    _ [] _ (List.append_nil _).symm rfl
  obtain ⟨sessionId, created, hlast, hcreated, hmem⟩ :=
    hrun (fun _ => true) 1234 ⟨0, splitFileTime 133500000000000002⟩ rfl
  obtain rfl := Option.some.inj hlast
  obtain rfl := Option.some.inj hcreated
  revert hmem
  decide

end ProxySwitch.PidReuse
