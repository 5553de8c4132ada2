import Mathlib.Data.List.Nodup
import ProxySwitch.SessionUniqueness

set_option autoImplicit false

namespace ProxySwitch.ProcessAttachment
open AppRoutes KeyedLists RuntimeStrings SessionMatching TaskPools TransitionRuns
open SessionUniqueness hiding World Event step start
open SessionLifecycle (Role Status)

section Calls
variable (r : Registry) (choice : Choice) (hit : ExternalProcessHit)

def attachExternalLaunch : Registry :=
  match externalRoute choice.toSurroundings hit with
  | none => r
  | some route =>
    let routeKey := getStableRouteKey choice.rt route
    match r.listed.find? fun s => !s.hasEnded && s.routeKey == routeKey with
    | some s =>
      (r.update s.id (addProcess · ⟨hit.processId, .root, false⟩)).update s.id reattach
    | none =>
      if r.isKnown hit.processId then r
      else r.add (externalSession route.proxyId routeKey (route.ipcManaged && choice.ipcAvailable) hit)

def handleProcessStarted (myPid : ℕ) : Registry :=
  if hit.parentProcessId = some myPid then r
  else match scan choice.toSurroundings hit r.listed with
    | .alreadyTracked => r
    | .matched s rule => r.update s.id (mergeProcess · rule hit.processId)
    | .unmatched => attachExternalLaunch r choice hit

def hasRecord (id pid : ℕ) : Bool := r.objects.any fun s => s.id == id && s.tracks pid

/-- `TryMergeActiveSession` stops at the session. -/
def stopsAt (s : LaunchSession) : Bool :=
  !(s.hasEnded || s.proxyId = []) &&
    (s.tracks hit.processId || (mergeRule choice.toSurroundings s hit).isSome)

/-- The session that `AttachExternalLaunch` adds the process to. -/
def isForRoute (s : LaunchSession) : Bool :=
  !s.hasEnded && match externalRoute choice.toSurroundings hit with
    | some route => s.routeKey == getStableRouteKey choice.rt route
    | none => false

def consulted : List LaunchSession :=
  ((r.listed.find? (stopsAt choice hit)).or (r.listed.find? (isForRoute choice hit))).elim
    r.listed fun s => [s]

end Calls

/-- `startOf` tells the start of the process that the record of a PID in a session was made for. -/
structure World where
  pool : SessionUniqueness.World
  startOf : ℕ → ℕ → ℕ

def World.next (w : World) (pool : SessionUniqueness.World) (starts : ℕ → ℕ) : World where
  pool := pool
  startOf id pid := if hasRecord w.pool.shared id pid then w.startOf id pid else starts pid

theorem World.startOf_next (w : World) (pool : SessionUniqueness.World) (starts : ℕ → ℕ) (id pid : ℕ) :
    (w.next pool starts).startOf id pid =
      if hasRecord w.pool.shared id pid then w.startOf id pid else starts pid := rfl

inductive Event
  | other (e : SessionUniqueness.Event)
  | processStarted (hit : ExternalProcessHit) (choice : Choice)

/-- What happens, and the start of the process that a PID stands for meanwhile. -/
structure Moment where
  event : Event
  starts : ℕ → ℕ

def handled (myPid : ℕ) (w : World) (hit : ExternalProcessHit) (choice : Choice)
    (starts : ℕ → ℕ) : World :=
  w.next { w.pool with shared := handleProcessStarted w.pool.shared choice hit myPid } starts

def step (myPid : ℕ) (w : World) (m : Moment) : Option World :=
  match m.event with
  | .other e => (SessionUniqueness.step myPid w.pool e).map fun pool => w.next pool m.starts
  | .processStarted hit choice => some (handled myPid w hit choice m.starts)

def start : World where
  pool := SessionUniqueness.start
  startOf _ _ := 0

def Attached (w : World) (pid processStart : ℕ) : Prop :=
  ∃ s ∈ w.pool.shared.listed, s.hasEnded = false ∧ pid ∈ s.livePids ∧
    w.startOf s.id pid = processStart

def IsExternal (myPid : ℕ) (hit : ExternalProcessHit) (choice : Choice) : Prop :=
  hit.parentProcessId ≠ some myPid ∧
    ∃ route ∈ choice.routes, matchesExternal choice.toSurroundings hit route = true

def Attaches (myPid : ℕ) (w : World) (m : Moment) : Prop :=
  match m.event with
  | .other _ => True
  | .processStarted hit choice => IsExternal myPid hit choice →
    Attached (handled myPid w hit choice m.starts) hit.processId (m.starts hit.processId)

/-- The process is attached already, or no session that the call consults has a record of its
    PID. -/
def Unrecorded (myPid : ℕ) (w : World) (m : Moment) : Prop :=
  match m.event with
  | .other _ => True
  | .processStarted hit choice => IsExternal myPid hit choice →
    Attached w hit.processId (m.starts hit.processId) ∨
      ∀ s ∈ consulted w.pool.shared choice hit, s.tracks hit.processId = false

section Scanning
variable {choice : Choice} {hit : ExternalProcessHit} {sessions : List LaunchSession}

def verdict (choice : Choice) (hit : ExternalProcessHit) (s : LaunchSession) : Scan :=
  if s.tracks hit.processId then .alreadyTracked
  else (mergeRule choice.toSurroundings s hit).elim .unmatched (.matched s)

theorem scan_eq : scan choice.toSurroundings hit sessions =
    (sessions.find? (stopsAt choice hit)).elim .unmatched (verdict choice hit) := by
  induction sessions with
  | nil => rfl
  | cons s rest ih =>
    rw [scan, List.find?_cons]
    cases hskip : s.hasEnded || decide (s.proxyId = []) with
    | true => simpa [stopsAt, hskip] using ih
    | false =>
      cases htracks : s.tracks hit.processId with
      | true => simp [stopsAt, hskip, htracks, verdict]
      | false =>
        cases hrule : mergeRule choice.toSurroundings s hit with
        | none => simpa [stopsAt, hskip, htracks, hrule] using ih
        | some rule => simp [stopsAt, hskip, htracks, hrule, verdict]

end Scanning

section Calling
variable {myPid : ℕ} {w : SessionUniqueness.World} {r : Registry} {choice : Choice}
  {hit : ExternalProcessHit}

theorem run_first {action : Action} {tasks : List Action} (h : w.tasks = action :: tasks) :
    SessionUniqueness.step myPid w (.run 0 choice) =
      some ⟨(act w.shared choice action).1, (act w.shared choice action).2 ++ tasks⟩ := by
  simp [SessionUniqueness.step, TaskPools.step, h, turn, Pool.others]

theorem exec_turns {action next : Action} {tasks : List Action} {q : Registry}
    (hact : act r choice action = (q, [next])) {n : ℕ} {u : SessionUniqueness.World}
    (h : exec (SessionUniqueness.step myPid) ⟨q, next :: tasks⟩ (.replicate n (.run 0 choice)) =
      some u) :
    exec (SessionUniqueness.step myPid) ⟨r, action :: tasks⟩ (.replicate (n + 1) (.run 0 choice)) =
      some u := by
  rw [List.replicate_succ, exec_cons, run_first rfl, hact]
  exact h

theorem exec_last_turn {action : Action} {tasks : List Action} {q : Registry}
    (hact : act r choice action = (q, [])) :
    exec (SessionUniqueness.step myPid) ⟨r, action :: tasks⟩ (.replicate 1 (.run 0 choice)) =
      some ⟨q, tasks⟩ := by
  rw [List.replicate_one, exec_cons, run_first rfl, hact]
  rfl

theorem exec_attach (tasks : List Action) : ∃ n,
    exec (SessionUniqueness.step myPid) ⟨r, .attach hit :: tasks⟩ (.replicate n (.run 0 choice)) =
      some ⟨attachExternalLaunch r choice hit, tasks⟩ := by
  unfold attachExternalLaunch
  cases hroute : externalRoute choice.toSurroundings hit with
  | none => exact ⟨1, exec_last_turn (by simp only [act, hroute])⟩
  | some route =>
    dsimp only
    cases hfind : r.listed.find? fun s =>
        !s.hasEnded && s.routeKey == getStableRouteKey choice.rt route with
    | some s =>
      have hfirst : act r choice (.attach hit) = (r, [.addExisting s.id hit]) := by
        simp only [act, hroute, hfind]
      exact ⟨3, exec_turns hfirst (exec_turns rfl (exec_last_turn rfl))⟩
    | none =>
      exact ⟨2, exec_turns (by simp only [act, hroute, hfind]; rfl) (exec_last_turn rfl)⟩

theorem ids_nodup (hwf : Wf r) : (r.objects.map LaunchSession.id).Nodup := by
  rw [hwf.ids]
  exact List.nodup_range

theorem eq_of_id_eq (hwf : Wf r) {s t : LaunchSession} (hs : s ∈ r.objects) (ht : t ∈ r.objects)
    (h : s.id = t.id) : s = t :=
  List.inj_on_of_nodup_map (ids_nodup hwf) hs ht h

theorem mem_objects {s : LaunchSession} (h : s ∈ r.listed) : s ∈ r.objects :=
  (List.mem_filter.mp h).1

/-- A whole call is a run of its turns. -/
theorem exec_handleProcessStarted (hwf : Wf w.shared) : ∃ n,
    exec (SessionUniqueness.step myPid) w (.start hit :: .replicate n (.run 0 choice)) =
      some { w with shared := handleProcessStarted w.shared choice hit myPid } := by
  simp only [exec_cons, SessionUniqueness.step, TaskPools.step, Option.bind_some, processStarted,
    handleProcessStarted]
  split
  · exact ⟨1, exec_last_turn rfl⟩
  · cases hscan : scan choice.toSurroundings hit w.shared.listed with
    | alreadyTracked => exact ⟨1, exec_last_turn (by simp only [act, hscan])⟩
    | unmatched =>
      obtain ⟨n, hn⟩ := @exec_attach myPid w.shared choice hit w.tasks
      exact ⟨n + 1, exec_turns (by simp only [act, hscan]) hn⟩
    | matched s rule =>
      obtain ⟨hs, hopen, -⟩ := scan_matched hscan
      have hfirst : act w.shared choice (.tryMerge hit) = (w.shared, [.merge s.id rule hit]) := by
        simp only [act, hscan]
      refine ⟨2, exec_turns hfirst (exec_last_turn ?_)⟩
      have hrunning : (w.shared.objects.any fun t => t.id == s.id && t.hasEnded) = false := by
        rw [List.any_eq_false]
        intro t ht hended
        rw [Bool.and_eq_true, beq_iff_eq] at hended
        rw [eq_of_id_eq hwf ht (mem_objects hs) hended.1, hopen] at hended
        cases hended.2
      simp only [act, hrunning]
      rfl

end Calling

section Records
variable {s t : LaunchSession} {pid : ℕ} {r q : Registry}

def roles (s : LaunchSession) : List (ℕ × Role) := s.processes.map fun p => (p.processId, p.role)

def RootRecorded (s : LaunchSession) : Prop :=
  ∀ pid, s.rootProcessId = some pid → (pid, Role.root) ∈ roles s

theorem rootRecorded_of_roles (h : RootRecorded s) (hroot : t.rootProcessId = s.rootProcessId)
    (hroles : ∀ pid, (pid, Role.root) ∈ roles s → (pid, Role.root) ∈ roles t) :
    RootRecorded t := by
  intro pid hpid
  apply hroles
  apply h
  rw [← hroot, hpid]

theorem rootRecorded_append {processes : List TrackedProcess} (h : RootRecorded s)
    (hroot : t.rootProcessId = s.rootProcessId)
    (hprocesses : t.processes = s.processes ++ processes) : RootRecorded t := by
  apply rootRecorded_of_roles h hroot
  intro pid hpid
  rw [roles, hprocesses, List.map_append]
  exact List.mem_append_left _ hpid

theorem rootRecorded_addProcess (p : TrackedProcess) (h : RootRecorded s) :
    RootRecorded (addProcess s p) := by
  unfold addProcess
  split
  · exact h
  · exact rootRecorded_append h rfl rfl

theorem rootRecorded_mergeProcess (rule : MergeRule) (pid : ℕ) (h : RootRecorded s) :
    RootRecorded (mergeProcess s rule pid) := by
  unfold mergeProcess
  split_ifs
  · exact h
  · exact rootRecorded_append h rfl rfl
  · exact rootRecorded_append h rfl rfl

theorem rootRecorded_reattach (h : RootRecorded s) : RootRecorded (reattach s) := by
  unfold reattach
  split
  · exact h
  · exact h

theorem rootRecorded_addDescendants (pids : List ℕ) (h : RootRecorded s) :
    RootRecorded (addDescendants s pids) := by
  induction pids generalizing s with
  | nil => exact h
  | cons pid rest ih => exact ih (rootRecorded_addProcess ⟨pid, .descendant, false⟩ h)

theorem rootRecorded_browserProcesses (pids : List ℕ) (h : RootRecorded s) :
    RootRecorded (browserProcesses s pids) := by
  apply rootRecorded_addDescendants
  refine rootRecorded_of_roles h ?_ fun pid hpid => ?_
  · rfl
  obtain ⟨p, hp, heq⟩ := List.mem_map.mp hpid
  have hrole : p.role = .root := congrArg Prod.snd heq
  refine List.mem_map.mpr ⟨p, List.mem_filter.mpr ⟨hp, ?_⟩, heq⟩
  rw [hrole]
  rfl

theorem rootRecorded_markProcessExited (pid : ℕ) (h : RootRecorded s) :
    RootRecorded (markProcessExited s pid) := by
  refine rootRecorded_of_roles h ?_ fun root hroot => ?_
  · rfl
  have hsame : roles (markProcessExited s pid) = roles s := map_updateFirst fun _ => rfl
  rw [hsame]
  exact hroot

theorem rootRecorded_opened : RootRecorded (r.opened s) := by
  intro pid hpid
  have hroot : s.rootProcessId = some pid := hpid
  simp [roles, Registry.opened, hroot]

structure Sound (r : Registry) : Prop where
  wf : Wf r
  roots : ∀ s ∈ r.objects, RootRecorded s

theorem roots_update {id : ℕ} {f : LaunchSession → LaunchSession}
    (hf : ∀ s, RootRecorded s → RootRecorded (f s)) (h : ∀ s ∈ r.objects, RootRecorded s) :
    ∀ s ∈ (r.update id f).objects, RootRecorded s := by
  intro s hs
  obtain ⟨t, ht, -, rfl⟩ | ⟨hold, -⟩ := mem_updateKey.mp hs
  · exact hf t (h t ht)
  · exact h s hold

theorem roots_add (h : ∀ s ∈ r.objects, RootRecorded s) (s : LaunchSession) :
    ∀ t ∈ (r.add s).objects, RootRecorded t := by
  intro t ht
  obtain hold | hnew := List.mem_append.mp ht
  · exact h t hold
  · rw [List.mem_singleton.mp hnew]
    exact rootRecorded_opened

theorem roots_act (h : ∀ s ∈ r.objects, RootRecorded s) (choice : Choice) (action : Action) :
    ∀ s ∈ (act r choice action).1.objects, RootRecorded s := by
  cases action with
  | returned | tryMerge hit | attach hit => exact h
  | merge id rule hit => exact roots_update (fun s => rootRecorded_mergeProcess rule _) h
  | addExisting id hit => exact roots_update (fun s => rootRecorded_addProcess _) h
  | reattach id => exact roots_update (fun s => rootRecorded_reattach) h
  | addExternal proxyId routeKey ipcManaged hit =>
    simp only [act]
    split
    · exact h
    · exact roots_add h _

theorem roots_outside {o : Outside} (h : ∀ s ∈ r.objects, RootRecorded s)
    (hq : outside r o = some q) : ∀ s ∈ q.objects, RootRecorded s := by
  cases o with
  | launch s =>
    cases hq
    exact roots_add h _
  | found id pid role =>
    cases hq
    exact roots_update (fun s => rootRecorded_addProcess _) h
  | browserProcesses id pids =>
    cases hq
    exact roots_update (fun s => rootRecorded_browserProcesses pids) h
  | assign id status | configure id root confirms =>
    cases hq
    exact roots_update (fun s hs => hs) h
  | exited id pid =>
    cases hq
    exact roots_update (fun s => rootRecorded_markProcessExited pid) h
  | remove id =>
    obtain ⟨-, hq⟩ := Option.ite_none_right_eq_some.mp hq
    cases hq
    exact h

theorem sound_step {myPid : ℕ} {w v : SessionUniqueness.World} {e : SessionUniqueness.Event}
    (hw : Sound w.shared) (h : SessionUniqueness.step myPid w e = some v) : Sound v.shared := by
  refine ⟨wf_step hw.wf h, ?_⟩
  cases e with
  | start hit =>
    cases h
    exact hw.roots
  | run index choice =>
    obtain ⟨action, next, -, hturn, rfl⟩ := step_run h
    cases hturn
    exact roots_act hw.roots choice action
  | change o =>
    obtain ⟨r, hr, rfl⟩ := Option.map_eq_some_iff.mp h
    exact roots_outside hw.roots hr

theorem sound_exec {myPid : ℕ} {w v : SessionUniqueness.World} {events : List SessionUniqueness.Event}
    (hw : Sound w.shared) (h : exec (SessionUniqueness.step myPid) w events = some v) :
    Sound v.shared := by
  have halways : Always (SessionUniqueness.step myPid) (fun w => Sound w.shared) w events :=
    always_of_invariant (fun _ _ _ hw h => sound_step hw h) events hw
  exact (always_iff_reached w events).mp halways events [] v (List.append_nil _).symm h

theorem sound_handleProcessStarted {myPid : ℕ} {w : SessionUniqueness.World} {choice : Choice}
    {hit : ExternalProcessHit} (hw : Sound w.shared) :
    Sound (handleProcessStarted w.shared choice hit myPid) := by
  obtain ⟨n, hrun⟩ := @exec_handleProcessStarted myPid w choice hit hw.wf
  exact sound_exec hw hrun

end Records

section Attaching
variable {myPid pid : ℕ} {w : World} {pool : SessionUniqueness.World} {r : Registry} {s : LaunchSession}
  {choice : Choice} {hit : ExternalProcessHit} {starts : ℕ → ℕ}

theorem tracks_of_mem_livePids (h : pid ∈ s.livePids) : s.tracks pid = true := by
  obtain ⟨p, hp, rfl⟩ := List.mem_map.mp h
  exact List.any_eq_true.mpr ⟨p, (List.mem_filter.mp hp).1, beq_self_eq_true _⟩

theorem hasRecord_eq (hwf : Wf r) (hs : s ∈ r.objects) : hasRecord r s.id pid = s.tracks pid := by
  rw [Bool.eq_iff_iff]
  constructor
  · intro h
    obtain ⟨t, ht, hsame⟩ := List.any_eq_true.mp h
    rw [Bool.and_eq_true, beq_iff_eq] at hsame
    rw [← eq_of_id_eq hwf ht hs hsame.1]
    exact hsame.2
  · intro h
    refine List.any_eq_true.mpr ⟨s, hs, ?_⟩
    rw [h, beq_self_eq_true, Bool.and_true]

theorem isKnown_iff (hr : Sound r) :
    r.isKnown pid = true ↔ ∃ s ∈ r.listed, s.tracks pid = true := by
  simp only [Registry.isKnown, List.any_eq_true, Bool.or_eq_true, beq_iff_eq]
  constructor
  · intro h
    obtain ⟨s, hs, hroot | htracks⟩ := h
    · refine ⟨s, hs, ?_⟩
      obtain ⟨p, hp, heq⟩ := List.mem_map.mp (hr.roots s (mem_objects hs) pid hroot)
      exact List.any_eq_true.mpr ⟨p, hp, beq_iff_eq.mpr (congrArg Prod.fst heq)⟩
    · exact ⟨s, hs, htracks⟩
  · intro h
    obtain ⟨s, hs, htracks⟩ := h
    exact ⟨s, hs, .inr htracks⟩

theorem attached_of_new (hs : s ∈ pool.shared.listed) (hopen : s.hasEnded = false)
    (hlive : pid ∈ s.livePids) (hnew : hasRecord w.pool.shared s.id pid = false) :
    Attached (w.next pool starts) pid (starts pid) := by
  refine ⟨s, hs, hopen, hlive, ?_⟩
  rw [World.startOf_next, hnew, if_neg Bool.false_ne_true]

/-- Where no record is added and no session ends, nothing changes for the process. -/
theorem attached_next_iff {g : LaunchSession → LaunchSession} {processStart : ℕ}
    (hwf : Wf w.pool.shared) (hlisted : pool.shared.listed = w.pool.shared.listed.map g)
    (hid : ∀ s, (g s).id = s.id) (hended : ∀ s, (g s).hasEnded = s.hasEnded)
    (hlive : ∀ s, (g s).livePids = s.livePids) :
    Attached (w.next pool starts) pid processStart ↔ Attached w pid processStart := by
  have hpool : (w.next pool starts).pool.shared.listed = w.pool.shared.listed.map g := hlisted
  simp only [Attached, hpool, World.startOf_next, List.mem_map, exists_exists_and_eq_and, hid, hended,
    hlive]
  refine exists_congr fun s => and_congr_right fun hs => and_congr_right fun _ =>
    and_congr_right fun hpid => ?_
  rw [hasRecord_eq hwf (mem_objects hs), tracks_of_mem_livePids hpid, if_pos rfl]

theorem update_eq_self {f : LaunchSession → LaunchSession} (hwf : Wf r) (hs : s ∈ r.objects)
    (hf : f s = s) : r.update s.id f = r := by
  have hsame : updateKey LaunchSession.id s.id f r.objects = r.objects := by
    refine (List.map_congr_left fun t ht => ?_).trans (List.map_id _)
    split
    · rename_i hid
      rw [eq_of_id_eq hwf ht hs hid, hf, id]
    · rfl
  rw [Registry.update, hsame]

theorem mergeProcess_attaches (rule : MergeRule) (hopen : s.hasEnded = false)
    (htracks : s.tracks pid = false) :
    (mergeProcess s rule pid).hasEnded = false ∧ pid ∈ (mergeProcess s rule pid).livePids := by
  unfold mergeProcess
  rw [hopen, htracks, Bool.or_self, if_neg Bool.false_ne_true]
  split
  · exact ⟨rfl, (mem_livePids_append (s := s) rfl).mpr (.inr rfl)⟩
  · exact ⟨hopen, (mem_livePids_append (s := s) rfl).mpr (.inr rfl)⟩

theorem hasEnded_reattach (s : LaunchSession) : (reattach s).hasEnded = s.hasEnded := by
  unfold reattach
  split
  · rename_i hwaiting
    rw [LaunchSession.hasEnded, LaunchSession.hasEnded, hwaiting]
    rfl
  · rfl

theorem livePids_reattach (s : LaunchSession) : (reattach s).livePids = s.livePids := by
  unfold reattach
  split <;> rfl

theorem listed_update_mem {f : LaunchSession → LaunchSession} (hf : ∀ s, (f s).id = s.id)
    (hs : s ∈ r.listed) : f s ∈ (r.update s.id f).listed := by
  rw [listed_update hf]
  exact mem_updateKey.mpr (.inl ⟨s, hs, rfl, rfl⟩)

theorem consulted_of_stopsAt (h : r.listed.find? (stopsAt choice hit) = some s) :
    consulted r choice hit = [s] := by
  rw [consulted, h]
  rfl

theorem consulted_of_isForRoute (hstop : r.listed.find? (stopsAt choice hit) = none)
    (h : r.listed.find? (isForRoute choice hit) = some s) : consulted r choice hit = [s] := by
  rw [consulted, hstop, h]
  rfl

theorem consulted_of_none (hstop : r.listed.find? (stopsAt choice hit) = none)
    (h : r.listed.find? (isForRoute choice hit) = none) : consulted r choice hit = r.listed := by
  rw [consulted, hstop, h]
  rfl

theorem attached_same {processStart : ℕ} (hwf : Wf w.pool.shared)
    (h : pool.shared = w.pool.shared) :
    Attached (w.next pool starts) pid processStart ↔ Attached w pid processStart := by
  apply attached_next_iff (g := id) hwf
  · rw [h, List.map_id]
  all_goals exact fun _ => rfl

theorem attached_merged_iff (hr : Sound w.pool.shared)
    (hstop : w.pool.shared.listed.find? (stopsAt choice hit) = some s)
    (hshared : pool.shared = match verdict choice hit s with
      | .alreadyTracked => w.pool.shared
      | .matched s rule => w.pool.shared.update s.id (mergeProcess · rule hit.processId)
      | .unmatched => attachExternalLaunch w.pool.shared choice hit) :
    Attached (w.next pool starts) hit.processId (starts hit.processId) ↔
      Attached w hit.processId (starts hit.processId) ∨ s.tracks hit.processId = false := by
  have hs := List.mem_of_find?_eq_some hstop
  have hstops := List.find?_some hstop
  simp only [stopsAt, Bool.and_eq_true, Bool.not_eq_true', Bool.or_eq_false_iff] at hstops
  cases htracks : s.tracks hit.processId with
  | true =>
    rw [verdict, if_pos htracks] at hshared
    rw [attached_same hr.wf hshared]
    simp
  | false =>
    rw [htracks, Bool.false_or] at hstops
    obtain ⟨rule, hrule⟩ := Option.isSome_iff_exists.mp hstops.2
    rw [verdict, htracks, if_neg Bool.false_ne_true, hrule] at hshared
    obtain ⟨hopen, hlive⟩ := mergeProcess_attaches rule hstops.1.1 htracks
    refine iff_of_true (attached_of_new ?_ hopen hlive ?_) (.inr rfl)
    · rw [hshared]
      exact listed_update_mem (fun s => mergeProcess_id s rule _) hs
    · rw [mergeProcess_id, hasRecord_eq hr.wf (mem_objects hs), htracks]

theorem attached_reattached_iff (hr : Sound w.pool.shared) (hs : s ∈ w.pool.shared.listed)
    (hopen : s.hasEnded = false)
    (hshared : pool.shared = (w.pool.shared.update s.id
      (addProcess · ⟨hit.processId, .root, false⟩)).update s.id reattach) :
    Attached (w.next pool starts) hit.processId (starts hit.processId) ↔
      Attached w hit.processId (starts hit.processId) ∨ s.tracks hit.processId = false := by
  cases htracks : s.tracks hit.processId with
  | true =>
    have hself : addProcess s ⟨hit.processId, .root, false⟩ = s := if_pos htracks
    rw [update_eq_self hr.wf (mem_objects hs) hself] at hshared
    rw [attached_next_iff (g := fun t => if t.id = s.id then reattach t else t) hr.wf]
    · simp
    · rw [hshared, listed_update reattach_id, updateKey]
    · intro t
      split
      · exact reattach_id t
      · rfl
    · intro t
      split
      · exact hasEnded_reattach t
      · rfl
    · intro t
      split
      · exact livePids_reattach t
      · rfl
  | false =>
    refine iff_of_true (attached_of_new (s := reattach (addProcess s ⟨hit.processId, .root, false⟩))
      ?_ ?_ ?_ ?_) (.inr rfl)
    · have hadded := listed_update_mem (r := w.pool.shared)
        (fun s => addProcess_id s ⟨hit.processId, .root, false⟩) hs
      have hmem := listed_update_mem reattach_id hadded
      rw [addProcess_id] at hmem
      rw [hshared]
      exact hmem
    · obtain ⟨processes, hprocesses⟩ := addProcess_processes (s := s) ⟨hit.processId, .root, false⟩
      rw [hasEnded_reattach, hprocesses]
      exact hopen
    · rw [livePids_reattach]
      exact mem_livePids_addProcess.mpr (.inr ⟨rfl, htracks⟩)
    · rw [reattach_id, addProcess_id, hasRecord_eq hr.wf (mem_objects hs), htracks]

theorem attached_added_iff {proxyId routeKey : Text} {ipcManaged : Bool} (hr : Sound w.pool.shared)
    (hshared : pool.shared = if w.pool.shared.isKnown hit.processId then w.pool.shared
      else w.pool.shared.add (externalSession proxyId routeKey ipcManaged hit)) :
    Attached (w.next pool starts) hit.processId (starts hit.processId) ↔
      Attached w hit.processId (starts hit.processId) ∨
        ∀ s ∈ w.pool.shared.listed, s.tracks hit.processId = false := by
  have hfree : (∀ s ∈ w.pool.shared.listed, s.tracks hit.processId = false) ↔
      ¬w.pool.shared.isKnown hit.processId = true := by
    rw [isKnown_iff hr]
    simp
  rw [hfree]
  split at hshared
  · rename_i hknown
    rw [attached_same hr.wf hshared]
    simp [hknown]
  · rename_i hunknown
    refine iff_of_true (attached_of_new (s := w.pool.shared.opened
      (externalSession proxyId routeKey ipcManaged hit)) ?_ rfl ?_ ?_) (.inr hunknown)
    · rw [hshared, listed_add hr.wf]
      exact List.mem_append_right _ (List.mem_singleton_self _)
    · exact List.mem_singleton_self _
    · refine List.any_eq_false.mpr fun t ht hsame => ?_
      rw [Bool.and_eq_true, beq_iff_eq] at hsame
      exact (id_lt_of_wf hr.wf ht).ne hsame.1

/-- After a call for an external process, the process is attached precisely when it was before, or
    no session that the call consults has a record of its PID. -/
theorem attached_handled_iff (hr : Sound w.pool.shared) (hexternal : IsExternal myPid hit choice) :
    Attached (handled myPid w hit choice starts) hit.processId (starts hit.processId) ↔
      Attached w hit.processId (starts hit.processId) ∨
        ∀ s ∈ consulted w.pool.shared choice hit, s.tracks hit.processId = false := by
  rw [handled, handleProcessStarted, if_neg hexternal.1, scan_eq]
  cases hstop : w.pool.shared.listed.find? (stopsAt choice hit) with
  | some s =>
    rw [consulted_of_stopsAt hstop, attached_merged_iff hr hstop rfl, List.forall_mem_singleton]
  | none =>
    obtain ⟨route, hroute⟩ := Option.isSome_iff_exists.mp (List.find?_isSome.mpr hexternal.2)
    have hcall : isForRoute choice hit = fun s =>
        !s.hasEnded && s.routeKey == getStableRouteKey choice.rt route := by
      funext s
      simp only [isForRoute, externalRoute, hroute]
    cases hfind : w.pool.shared.listed.find? (isForRoute choice hit) with
    | some s =>
      have hopen := List.find?_some hfind
      rw [isForRoute, Bool.and_eq_true, Bool.not_eq_true'] at hopen
      rw [consulted_of_isForRoute hstop hfind, attached_reattached_iff hr
        (List.mem_of_find?_eq_some hfind) hopen.1, List.forall_mem_singleton]
      rw [hcall] at hfind
      simp only [Option.elim, attachExternalLaunch, externalRoute, hroute, hfind]
    | none =>
      rw [consulted_of_none hstop hfind]
      rw [hcall] at hfind
      apply attached_added_iff hr
      simp only [Option.elim, attachExternalLaunch, externalRoute, hroute, hfind]
      rfl

theorem sound_moment {v : World} {m : Moment} (hw : Sound w.pool.shared)
    (h : step myPid w m = some v) : Sound v.pool.shared := by
  unfold step at h
  split at h
  · obtain ⟨pool, hpool, rfl⟩ := Option.map_eq_some_iff.mp h
    exact sound_step hw hpool
  · cases h
    exact sound_handleProcessStarted hw

theorem attaches_iff_unrecorded {m : Moment} (hw : Sound w.pool.shared) :
    Attaches myPid w m ↔ Unrecorded myPid w m := by
  unfold Attaches Unrecorded
  split
  · rfl
  · exact forall_congr' fun hexternal => attached_handled_iff hw hexternal

end Attaching

theorem sound_start : Sound start.pool.shared := ⟨wf_start, List.forall_mem_nil _⟩

/-- In a run every call for an external process attaches it precisely when no record of its PID,
    where the call looks for one, is an old one. -/
theorem meets_attaches_iff (myPid : ℕ) (moments : List Moment) :
    Meets (step myPid) (Attaches myPid) start moments ↔
      Meets (step myPid) (Unrecorded myPid) start moments :=
  meets_congr (I := fun w => Sound w.pool.shared) (fun _ _ _ hw h => sound_moment hw h)
    (fun _ _ hw => attaches_iff_unrecorded hw) moments sound_start

def startedNote : ExternalProcessHit := { processId := 7, name := "note.exe".toList }

/-- A launched process has the PID 7 and exits. Then a `note.exe` that the user starts gets it. -/
def reusedPid : List Moment :=
  [⟨.other (.change (.launch
      { id := 0, proxyId := "clash".toList, rootProcessId := some 7 })), fun _ => 1⟩,
    ⟨.other (.change (.exited 0 7)), fun _ => 1⟩,
    ⟨.other (.change (.assign 0 .exited)), fun _ => 1⟩,
    ⟨.processStarted startedNote noteRoutes, fun _ => 2⟩]

theorem reused_pid_unattached : ¬∀ (myPid : ℕ) (moments : List Moment),
    Meets (step myPid) (Attaches myPid) start moments := by
  intro h
  have hlaunched := ((meets_cons rfl).mp (h 1 reusedPid)).2
  have hexited := ((meets_cons rfl).mp hlaunched).2
  have hended := ((meets_cons rfl).mp hexited).2
  have hattaches := ((meets_cons rfl).mp hended).1
  have hexternal : IsExternal 1 startedNote noteRoutes := by
    refine ⟨nofun, _, List.mem_cons_self, ?_⟩
    decide
  obtain ⟨s, hs, hopen, -⟩ := hattaches hexternal
  obtain rfl := List.mem_singleton.mp hs
  cases hopen

end ProxySwitch.ProcessAttachment
