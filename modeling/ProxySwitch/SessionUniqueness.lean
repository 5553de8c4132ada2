import ProxySwitch.SessionMatching
import ProxySwitch.TaskPools

set_option autoImplicit false

/-!
# One session for a process, one external session for a route

`HandleProcessStarted` decides under `_sessions`, lets go of it, and adds to a session or makes
one later. Its calls run beside each other, beside launches and beside everything that adds to a
session or changes its status.
-/
namespace ProxySwitch.SessionUniqueness
open AppRoutes KeyedLists RuntimeStrings SessionMatching TaskPools TransitionRuns
open SessionLifecycle (Role Status ended)

/-- Every session object that was made, and the ones that `RemoveSession` took out of
    `_sessions`. -/
structure Registry where
  objects : List LaunchSession
  removed : List ℕ

structure Choice extends Surroundings where
  ipcAvailable : Bool := false

/-- The lock blocks of `HandleProcessStarted`; `merge` is the second phase of
    `TryMergeActiveSession`, the last four belong to `AttachExternalLaunch`. -/
inductive Action
  | returned
  | tryMerge (hit : ExternalProcessHit)
  | merge (id : ℕ) (rule : MergeRule) (hit : ExternalProcessHit)
  | attach (hit : ExternalProcessHit)
  | addExisting (id : ℕ) (hit : ExternalProcessHit)
  | reattach (id : ℕ)
  | addExternal (proxyId routeKey : Text) (ipcManaged : Bool) (hit : ExternalProcessHit)

abbrev World := Pool Registry Action

section Sessions
variable (s : LaunchSession)

def addProcess (p : TrackedProcess) : LaunchSession :=
  if s.tracks p.processId then s else { s with processes := s.processes ++ [p] }

def mergeProcess (rule : MergeRule) (pid : ℕ) : LaunchSession :=
  if s.hasEnded || s.tracks pid then s
  else if s.status = .waitingForRestart then
    { s with processes := s.processes ++ [⟨pid, .restartedChild, false⟩], status := .running }
  else { s with processes := s.processes ++ [⟨pid, rule.role, false⟩] }

def reattach : LaunchSession :=
  if s.status = .waitingForRestart then { s with status := .running } else s

def forgetDescendants (pids : List ℕ) : LaunchSession :=
  { s with processes := s.processes.filter fun p => p.role != .descendant || pids.contains p.processId }

def addDescendants (pids : List ℕ) : LaunchSession :=
  pids.foldl (fun s pid => addProcess s ⟨pid, .descendant, false⟩) s

def browserProcesses (pids : List ℕ) : LaunchSession :=
  addDescendants (forgetDescendants s pids) (pids.filter (some · != s.rootProcessId))

def markProcessExited (pid : ℕ) : LaunchSession :=
  { s with processes := updateFirst (·.processId == pid) (fun p => { p with exited := true }) s.processes }

end Sessions

namespace Registry
variable (r : Registry)

/-- `_sessions`. -/
def listed : List LaunchSession := r.objects.filter fun s => !r.removed.contains s.id

def update (id : ℕ) (f : LaunchSession → LaunchSession) : Registry :=
  { r with objects := updateKey LaunchSession.id id f r.objects }

def opened (s : LaunchSession) : LaunchSession :=
  { s with
    id := r.objects.length
    processes := s.rootProcessId.toList.map fun pid => ⟨pid, .root, false⟩
    status := .running }

def add (s : LaunchSession) : Registry := { r with objects := r.objects ++ [r.opened s] }

/-- The check of `AttachExternalLaunch` before it adds a session. -/
def isKnown (pid : ℕ) : Bool := r.listed.any fun s => s.rootProcessId == some pid || s.tracks pid

end Registry

def externalSession (proxyId routeKey : Text) (ipcManaged : Bool) (hit : ExternalProcessHit) :
    LaunchSession :=
  { id := 0
    external := true
    exePath := if hit.executablePath = [] then hit.name else hit.executablePath
    proxyId := proxyId
    rootProcessId := some hit.processId
    routeKey := routeKey
    ipcManaged := ipcManaged }

def act (r : Registry) (choice : Choice) : Action → Registry × List Action
  | .returned => (r, [])
  | .tryMerge hit =>
    (r, match scan choice.toSurroundings hit r.listed with
      | .alreadyTracked => []
      | .matched s rule => [.merge s.id rule hit]
      | .unmatched => [.attach hit])
  | .merge id rule hit =>
    -- a session that has ended meanwhile leaves the process to `AttachExternalLaunch`
    (r.update id (mergeProcess · rule hit.processId),
      if r.objects.any fun s => s.id == id && s.hasEnded then [.attach hit] else [])
  | .attach hit =>
    (r, match externalRoute choice.toSurroundings hit with
      | none => []
      | some route =>
        let routeKey := getStableRouteKey choice.rt route
        match r.listed.find? fun s => !s.hasEnded && s.routeKey == routeKey with
        | some s => [.addExisting s.id hit]
        | none =>
          [.addExternal route.proxyId routeKey (route.ipcManaged && choice.ipcAvailable) hit])
  | .addExisting id hit => (r.update id (addProcess · ⟨hit.processId, .root, false⟩), [.reattach id])
  | .reattach id => (r.update id reattach, [])
  | .addExternal proxyId routeKey ipcManaged hit =>
    (if r.isKnown hit.processId then r
      else r.add (externalSession proxyId routeKey ipcManaged hit), [])

def turn (w : World) (action : Action) (choice : Choice) : Option (Registry × List Action) :=
  some (act w.shared choice action)

def processStarted (myPid : ℕ) (hit : ExternalProcessHit) : Action :=
  if hit.parentProcessId = some myPid then .returned else .tryMerge hit

/-- Launches, and what changes a session without a look at the others: `found` is a descendant, a
    process of the store discovery or a correlated one. -/
inductive Outside
  | launch (s : LaunchSession)
  | found (id : ℕ) (pid : ℕ) (role : Role)
  | browserProcesses (id : ℕ) (pids : List ℕ)
  | assign (id : ℕ) (status : Status)
  | exited (id : ℕ) (pid : ℕ)
  | configure (id : ℕ) (storeAppRuntimeRoot : Text) (needsProcessConfirmation : Bool)
  | remove (id : ℕ)

def outside (r : Registry) : Outside → Option Registry
  | .launch s => some (r.add { s with external := false })
  | .found id pid role => some (r.update id (addProcess · ⟨pid, role, false⟩))
  | .browserProcesses id pids => some (r.update id (browserProcesses · pids))
  | .assign id status => some (r.update id fun s => { s with status := status })
  | .exited id pid => some (r.update id (markProcessExited · pid))
  | .configure id storeAppRuntimeRoot needsProcessConfirmation =>
    some (r.update id fun s =>
      { s with
        storeAppRuntimeRoot := storeAppRuntimeRoot
        needsProcessConfirmation := needsProcessConfirmation })
  | .remove id =>
    if id < r.objects.length then some { r with removed := id :: r.removed } else none

abbrev Event := Label ExternalProcessHit Choice Outside

def step (myPid : ℕ) : World → Event → Option World :=
  TaskPools.step (processStarted myPid) turn outside

def start : World where
  shared := ⟨[], []⟩
  tasks := []

/-- Two running sessions have no live process in common, and two external ones no route key. -/
def Apart (s t : LaunchSession) : Prop :=
  s.hasEnded = false → t.hasEnded = false → (∀ pid ∈ s.livePids, pid ∉ t.livePids) ∧
    (s.external = true → t.external = true → s.routeKey ≠ t.routeKey)

/-- Every live process has at most one running session, and every route at most one that was
    attached for it. -/
def Unique (w : World) : Prop := Across LaunchSession.id Apart w.shared.listed

def NotElsewhere (r : Registry) (id pid : ℕ) : Prop :=
  ∀ t ∈ r.listed, t.id ≠ id → t.hasEnded = false → pid ∉ t.livePids

def AddsFree (r : Registry) (id pid : ℕ) : Prop :=
  ∀ s ∈ r.listed, s.id = id → s.hasEnded = false → s.tracks pid = false → NotElsewhere r id pid

/-- A process is added to a session only if no other running session has it, an external session
    only if no running one was attached for its route, and a session that had ended gets another
    status only if its live processes and its route are free. -/
def KeepsUnique (w : World) : Event → Prop
  | .start _ => True
  | .run index _ => ∀ action, w.tasks[index]? = some action →
    match action with
    | .merge id _ hit | .addExisting id hit => AddsFree w.shared id hit.processId
    | .addExternal _ routeKey _ hit => w.shared.isKnown hit.processId = false →
      ∀ t ∈ w.shared.listed, t.hasEnded = false → t.external = true → t.routeKey ≠ routeKey
    | _ => True
  | .change e =>
    match e with
    | .launch s => ∀ pid, s.rootProcessId = some pid →
      ∀ t ∈ w.shared.listed, t.hasEnded = false → pid ∉ t.livePids
    | .found id pid _ => AddsFree w.shared id pid
    | .browserProcesses id pids => ∀ s ∈ w.shared.listed, s.id = id → s.hasEnded = false →
      ∀ pid ∈ pids, some pid ≠ s.rootProcessId → (forgetDescendants s pids).tracks pid = false →
        NotElsewhere w.shared id pid
    | .assign id status => ended.contains status = false → ∀ s ∈ w.shared.listed, s.id = id →
      s.hasEnded = true → ∀ t ∈ w.shared.listed, t.id ≠ id → t.hasEnded = false →
        (∀ pid ∈ s.livePids, pid ∉ t.livePids) ∧
          (s.external = true → t.external = true → s.routeKey ≠ t.routeKey)
    | _ => True

section Pairs
variable {s t u : LaunchSession} {pid : ℕ}

theorem apart_symm (h : Apart s t) : Apart t s := by
  intro ht hs
  obtain ⟨hpids, hkeys⟩ := h hs ht
  exact ⟨fun pid hpid hin => hpids pid hin hpid, fun hext hext' heq => hkeys hext' hext heq.symm⟩

theorem apart_of_shrink (h : Apart s t) (hended : u.hasEnded = false → s.hasEnded = false)
    (hlive : ∀ pid ∈ u.livePids, pid ∈ s.livePids) (hexternal : u.external = s.external)
    (hkey : u.routeKey = s.routeKey) : Apart u t := by
  intro hs ht
  obtain ⟨hpids, hkeys⟩ := h (hended hs) ht
  rw [hexternal, hkey]
  exact ⟨fun pid hpid => hpids pid (hlive pid hpid), hkeys⟩

theorem apart_of_grow {new : ℕ → Prop} (h : Apart s t)
    (hlive : ∀ x, x ∈ u.livePids ↔ x ∈ s.livePids ∨ new x) (hended : u.hasEnded = s.hasEnded)
    (hexternal : u.external = s.external) (hkey : u.routeKey = s.routeKey) :
    Apart u t ↔ (s.hasEnded = false → t.hasEnded = false → ∀ x, new x → x ∉ t.livePids) := by
  simp only [Apart, hended, hexternal, hkey]
  constructor
  · intro hafter hs ht x hx
    exact (hafter hs ht).1 x ((hlive x).mpr (.inr hx))
  · intro hfree hs ht
    obtain ⟨hpids, hkeys⟩ := h hs ht
    refine ⟨fun x hx => ?_, hkeys⟩
    obtain hold | hnew := (hlive x).mp hx
    · exact hpids x hold
    · exact hfree hs ht x hnew

theorem mem_livePids_append {x : ℕ} {role : Role}
    (h : u.processes = s.processes ++ [⟨pid, role, false⟩]) :
    x ∈ u.livePids ↔ x ∈ s.livePids ∨ x = pid := by
  simp [LaunchSession.livePids, h]

theorem mem_livePids_addProcess {x : ℕ} {role : Role} :
    x ∈ (addProcess s ⟨pid, role, false⟩).livePids ↔
      x ∈ s.livePids ∨ x = pid ∧ s.tracks x = false := by
  unfold addProcess
  split
  · rename_i htracks
    refine ⟨.inl, fun h => h.elim id fun hnew => ?_⟩
    rw [hnew.1] at hnew
    rw [hnew.2] at htracks
    cases htracks
  · rename_i htracks
    rw [mem_livePids_append (s := s) rfl]
    refine or_congr_right ⟨fun h => ⟨h, ?_⟩, fun h => h.1⟩
    rw [h]
    exact eq_false_of_ne_true htracks

theorem tracks_addProcess {x : ℕ} {role : Role} :
    (addProcess s ⟨pid, role, false⟩).tracks x = (s.tracks x || x == pid) := by
  unfold addProcess
  split
  · rename_i htracks
    by_cases hx : x = pid
    · rw [hx, htracks, Bool.true_or]
    · simp [hx]
  · simp [LaunchSession.tracks, Bool.beq_comm]

theorem addProcess_processes (p : TrackedProcess) :
    ∃ processes, addProcess s p = { s with processes := processes } := by
  unfold addProcess
  split
  · exact ⟨s.processes, rfl⟩
  · exact ⟨_, rfl⟩

theorem addDescendants_processes (pids : List ℕ) :
    ∃ processes, addDescendants s pids = { s with processes := processes } := by
  induction pids generalizing s with
  | nil => exact ⟨s.processes, rfl⟩
  | cons pid rest ih =>
    obtain ⟨processes, hfirst⟩ := addProcess_processes (s := s) ⟨pid, .descendant, false⟩
    obtain ⟨processes', hrest⟩ := ih (s := addProcess s ⟨pid, .descendant, false⟩)
    exact ⟨processes', by rw [addDescendants, List.foldl_cons, ← addDescendants, hrest, hfirst]⟩

theorem mem_livePids_addDescendants {pids : List ℕ} {x : ℕ} :
    x ∈ (addDescendants s pids).livePids ↔ x ∈ s.livePids ∨ x ∈ pids ∧ s.tracks x = false := by
  induction pids generalizing s with
  | nil => simp [addDescendants]
  | cons pid rest ih =>
    rw [addDescendants, List.foldl_cons, ← addDescendants, ih, mem_livePids_addProcess,
      tracks_addProcess, List.mem_cons]
    by_cases hx : x = pid <;> simp [hx]

theorem apart_addProcess {role : Role} (h : Apart s t) :
    Apart (addProcess s ⟨pid, role, false⟩) t ↔
      (s.hasEnded = false → s.tracks pid = false → t.hasEnded = false → pid ∉ t.livePids) := by
  obtain ⟨processes, hsame⟩ := addProcess_processes (s := s) ⟨pid, role, false⟩
  rw [apart_of_grow h (fun x => mem_livePids_addProcess) (by rw [hsame]; rfl) (by rw [hsame])
    (by rw [hsame])]
  constructor
  · intro hfree hs htracks ht
    exact hfree hs ht pid ⟨rfl, htracks⟩
  · rintro hfree hs ht x ⟨rfl, htracks⟩
    exact hfree hs htracks ht

theorem apart_mergeProcess {rule : MergeRule} (h : Apart s t) :
    Apart (mergeProcess s rule pid) t ↔
      (s.hasEnded = false → s.tracks pid = false → t.hasEnded = false → pid ∉ t.livePids) := by
  have hgrow : ∀ (u : LaunchSession) (role : Role),
      u.processes = s.processes ++ [⟨pid, role, false⟩] → u.hasEnded = s.hasEnded →
        u.external = s.external → u.routeKey = s.routeKey →
          (Apart u t ↔ (s.hasEnded = false → t.hasEnded = false → pid ∉ t.livePids)) := by
    intro u role hprocesses hended hexternal hkey
    rw [apart_of_grow h (fun x => mem_livePids_append hprocesses) hended hexternal hkey]
    exact forall₂_congr fun _ _ => forall_eq
  unfold mergeProcess
  cases hended : s.hasEnded with
  | true => simpa using h
  | false =>
    cases htracks : s.tracks pid with
    | true => simpa using h
    | false =>
      simp only [Bool.or_self, Bool.false_eq_true, if_false, forall_const]
      split
      · refine (hgrow _ .restartedChild ?_ ?_ ?_ ?_).trans
          ⟨fun hfree => hfree hended, fun hfree _ => hfree⟩
        · rfl
        · rw [hended]
          rfl
        · rfl
        · rfl
      · refine (hgrow _ rule.role ?_ ?_ ?_ ?_).trans
          ⟨fun hfree => hfree hended, fun hfree _ => hfree⟩
        all_goals rfl

theorem mem_livePids_forget {pids : List ℕ} {x : ℕ} (h : x ∈ (forgetDescendants s pids).livePids) :
    x ∈ s.livePids := by
  obtain ⟨p, hp, rfl⟩ := List.mem_map.mp h
  obtain ⟨hkept, hlive⟩ := List.mem_filter.mp hp
  exact List.mem_map.mpr ⟨p, List.mem_filter.mpr ⟨(List.mem_filter.mp hkept).1, hlive⟩, rfl⟩

theorem apart_browserProcesses {pids : List ℕ} (h : Apart s t) :
    Apart (browserProcesses s pids) t ↔ (s.hasEnded = false → t.hasEnded = false → ∀ pid ∈ pids,
      some pid ≠ s.rootProcessId → (forgetDescendants s pids).tracks pid = false →
        pid ∉ t.livePids) := by
  have hkept : Apart (forgetDescendants s pids) t :=
    apart_of_shrink h id (fun x => mem_livePids_forget) rfl rfl
  obtain ⟨processes, hsame⟩ := addDescendants_processes (s := forgetDescendants s pids)
    (pids.filter (some · != s.rootProcessId))
  rw [browserProcesses, apart_of_grow hkept (fun x => mem_livePids_addDescendants)
    (by rw [hsame]; rfl) (by rw [hsame]) (by rw [hsame])]
  refine forall₂_congr fun _ _ => forall_congr' fun pid => ?_
  simp only [List.mem_filter, bne_iff_ne]
  exact ⟨fun h hin hroot htracks => h ⟨⟨hin, hroot⟩, htracks⟩, fun h hnew => h hnew.1.1 hnew.1.2 hnew.2⟩

end Pairs

section Listed
variable {r : Registry} {id pid : ℕ} {f : LaunchSession → LaunchSession}

theorem listed_update (hf : ∀ s, (f s).id = s.id) :
    (r.update id f).listed = updateKey LaunchSession.id id f r.listed := by
  unfold Registry.listed Registry.update updateKey
  rw [List.filter_map]
  refine congrArg _ (List.filter_congr fun s _ => ?_)
  simp only [Function.comp]
  split
  · rw [hf]
  · rfl

theorem across_update_iff (hf : ∀ s, (f s).id = s.id)
    (h : Across LaunchSession.id Apart r.listed) :
    Across LaunchSession.id Apart (r.update id f).listed ↔
      ∀ s ∈ r.listed, s.id = id → ∀ t ∈ r.listed, t.id ≠ id → Apart (f s) t := by
  rw [listed_update hf]
  exact across_updateKey_iff (fun _ _ => apart_symm) hf h

/-- A change that adds one process to sessions that do not track it. -/
theorem across_adds_iff (hf : ∀ s, (f s).id = s.id)
    (hadds : ∀ s t, Apart s t → (Apart (f s) t ↔
      (s.hasEnded = false → s.tracks pid = false → t.hasEnded = false → pid ∉ t.livePids)))
    (h : Across LaunchSession.id Apart r.listed) :
    Across LaunchSession.id Apart (r.update id f).listed ↔ AddsFree r id pid := by
  rw [across_update_iff hf h]
  constructor
  · intro hapart s hs hid hopen htracks t ht hne
    exact (hadds s t (h s hs t ht (hid ▸ hne.symm))).mp (hapart s hs hid t ht hne) hopen htracks
  · intro hfree s hs hid t ht hne
    exact (hadds s t (h s hs t ht (hid ▸ hne.symm))).mpr
      fun hopen htracks => hfree s hs hid hopen htracks t ht hne

theorem across_of_shrink (hf : ∀ s, (f s).id = s.id)
    (hended : ∀ s, (f s).hasEnded = false → s.hasEnded = false)
    (hlive : ∀ s, ∀ pid ∈ (f s).livePids, pid ∈ s.livePids)
    (hexternal : ∀ s, (f s).external = s.external) (hkey : ∀ s, (f s).routeKey = s.routeKey)
    (h : Across LaunchSession.id Apart r.listed) :
    Across LaunchSession.id Apart (r.update id f).listed := by
  rw [across_update_iff hf h]
  intro s hs hid t ht hne
  exact apart_of_shrink (h s hs t ht (hid ▸ hne.symm)) (hended s) (hlive s) (hexternal s) (hkey s)

structure Wf (r : Registry) : Prop where
  ids : r.objects.map LaunchSession.id = List.range r.objects.length
  removed : ∀ id ∈ r.removed, id < r.objects.length

theorem id_lt_of_wf (h : Wf r) {s : LaunchSession} (hs : s ∈ r.objects) :
    s.id < r.objects.length := by
  rw [← List.mem_range, ← h.ids]
  exact List.mem_map_of_mem hs

theorem wf_update (hf : ∀ s, (f s).id = s.id) (h : Wf r) : Wf (r.update id f) := by
  have hlength : (r.update id f).objects.length = r.objects.length := List.length_map _
  refine ⟨?_, fun x hx => hlength ▸ h.removed x hx⟩
  rw [hlength, ← h.ids]
  simp only [Registry.update, updateKey, List.map_map]
  refine List.map_congr_left fun s _ => ?_
  simp only [Function.comp]
  split
  · exact hf s
  · rfl

theorem wf_add (h : Wf r) (s : LaunchSession) : Wf (r.add s) := by
  have hlength : (r.add s).objects.length = r.objects.length + 1 := List.length_append
  refine ⟨?_, fun x hx => hlength ▸ Nat.lt_succ_of_lt (h.removed x hx)⟩
  rw [hlength, List.range_succ, ← h.ids]
  exact List.map_append

theorem listed_add (h : Wf r) (s : LaunchSession) :
    (r.add s).listed = r.listed ++ [r.opened s] := by
  have hnew : (r.opened s).id ∉ r.removed := fun hin => lt_irrefl _ (h.removed _ hin)
  unfold Registry.listed Registry.add
  rw [List.filter_append]
  simp [hnew]

theorem apart_opened {s t : LaunchSession} : Apart (r.opened s) t ↔ (t.hasEnded = false →
    (∀ pid, s.rootProcessId = some pid → pid ∉ t.livePids) ∧
      (s.external = true → t.external = true → s.routeKey ≠ t.routeKey)) := by
  have hlive : ∀ pid, pid ∈ (r.opened s).livePids ↔ s.rootProcessId = some pid := by
    intro pid
    cases hroot : s.rootProcessId <;> simp [Registry.opened, LaunchSession.livePids, hroot, eq_comm]
  have hopen : (r.opened s).hasEnded = false := rfl
  simp only [Apart, hlive, hopen, forall_const]
  rfl

theorem across_add_iff (hwf : Wf r) (h : Across LaunchSession.id Apart r.listed)
    (s : LaunchSession) : Across LaunchSession.id Apart (r.add s).listed ↔
      ∀ t ∈ r.listed, t.hasEnded = false →
        (∀ pid, s.rootProcessId = some pid → pid ∉ t.livePids) ∧
          (s.external = true → t.external = true → s.routeKey ≠ t.routeKey) := by
  rw [listed_add hwf, across_append_iff (fun _ _ => apart_symm) h]
  refine forall₂_congr fun t ht => ?_
  have hne : t.id ≠ (r.opened s).id := (id_lt_of_wf hwf (List.mem_filter.mp ht).1).ne
  rw [← apart_opened (r := r)]
  exact ⟨fun hapart => hapart hne, fun hapart _ => hapart⟩

/-- The check before an external session is added sees every live process. -/
theorem not_mem_livePids_of_unknown (h : r.isKnown pid = false) {t : LaunchSession}
    (ht : t ∈ r.listed) : pid ∉ t.livePids := by
  intro hin
  obtain ⟨p, hp, rfl⟩ := List.mem_map.mp hin
  have hknown : r.isKnown p.processId = true := by
    refine List.any_eq_true.mpr ⟨t, ht, ?_⟩
    rw [Bool.or_eq_true]
    exact .inr (List.any_eq_true.mpr ⟨p, (List.mem_filter.mp hp).1, beq_self_eq_true _⟩)
  rw [h] at hknown
  cases hknown

end Listed

section Steps
variable {myPid : ℕ} {w v : World} {e : Event}

theorem markProcessExited_livePids {s : LaunchSession} {pid x : ℕ}
    (h : x ∈ (markProcessExited s pid).livePids) : x ∈ s.livePids := by
  obtain ⟨p, hp, rfl⟩ := List.mem_map.mp h
  obtain ⟨hmem, hlive⟩ := List.mem_filter.mp hp
  obtain hold | ⟨q, -, -, rfl⟩ := mem_updateFirst hmem
  · exact List.mem_map.mpr ⟨p, List.mem_filter.mpr ⟨hold, hlive⟩, rfl⟩
  · cases hlive

theorem mergeProcess_id (s : LaunchSession) (rule : MergeRule) (pid : ℕ) :
    (mergeProcess s rule pid).id = s.id := by
  unfold mergeProcess
  split_ifs <;> rfl

theorem addProcess_id (s : LaunchSession) (p : TrackedProcess) : (addProcess s p).id = s.id := by
  obtain ⟨processes, h⟩ := addProcess_processes (s := s) p
  rw [h]

theorem browserProcesses_id (s : LaunchSession) (pids : List ℕ) :
    (browserProcesses s pids).id = s.id := by
  obtain ⟨processes, h⟩ := addDescendants_processes (s := forgetDescendants s pids)
    (pids.filter (some · != s.rootProcessId))
  rw [browserProcesses, h]
  rfl

theorem reattach_id (s : LaunchSession) : (reattach s).id = s.id := by
  unfold reattach
  split <;> rfl

theorem across_reattach {r : Registry} (id : ℕ) (h : Across LaunchSession.id Apart r.listed) :
    Across LaunchSession.id Apart (r.update id reattach).listed := by
  refine across_of_shrink reattach_id (fun s hopen => ?_) (fun s pid hpid => ?_) (fun s => ?_)
    (fun s => ?_) h
  · unfold reattach at hopen
    split at hopen
    · rename_i hwaiting
      rw [LaunchSession.hasEnded, hwaiting]
      rfl
    · exact hopen
  all_goals unfold reattach at *; split at * <;> first | rfl | assumption

theorem across_act {r : Registry} (hwf : Wf r) (h : Across LaunchSession.id Apart r.listed)
    (choice : Choice) (action : Action) :
    Across LaunchSession.id Apart (act r choice action).1.listed ↔
      match action with
      | .merge id _ hit | .addExisting id hit => AddsFree r id hit.processId
      | .addExternal _ routeKey _ hit => r.isKnown hit.processId = false →
        ∀ t ∈ r.listed, t.hasEnded = false → t.external = true → t.routeKey ≠ routeKey
      | _ => True := by
  cases action with
  | returned | tryMerge hit | attach hit => exact iff_of_true h trivial
  | merge id rule hit =>
    exact across_adds_iff (fun s => mergeProcess_id s rule _) (fun s t => apart_mergeProcess) h
  | addExisting id hit =>
    exact across_adds_iff (fun s => addProcess_id s _) (fun s t => apart_addProcess) h
  | reattach id => exact iff_of_true (across_reattach id h) trivial
  | addExternal proxyId routeKey ipcManaged hit =>
    simp only [act]
    cases hknown : r.isKnown hit.processId with
    | true => exact iff_of_true h nofun
    | false =>
      rw [if_neg Bool.false_ne_true, across_add_iff hwf h]
      constructor
      · intro hadd _ t ht hopen hexternal heq
        exact (hadd t ht hopen).2 rfl hexternal heq.symm
      · intro hfree t ht hopen
        refine ⟨?_, fun _ hexternal heq => hfree rfl t ht hopen hexternal heq.symm⟩
        rintro pid ⟨⟩
        exact not_mem_livePids_of_unknown hknown ht

theorem across_outside {r q : Registry} {o : Outside} (hwf : Wf r)
    (h : Across LaunchSession.id Apart r.listed) (hq : outside r o = some q) :
    Across LaunchSession.id Apart q.listed ↔ KeepsUnique ⟨r, []⟩ (.change o) := by
  cases o with
  | launch s =>
    cases hq
    rw [across_add_iff hwf h]
    constructor
    · intro hadd pid hroot t ht hopen
      exact (hadd t ht hopen).1 pid hroot
    · intro hfree t ht hopen
      exact ⟨fun pid hroot => hfree pid hroot t ht hopen, nofun⟩
  | found id pid role =>
    cases hq
    exact across_adds_iff (fun s => addProcess_id s _) (fun s t => apart_addProcess) h
  | browserProcesses id pids =>
    cases hq
    rw [across_update_iff (fun s => browserProcesses_id s pids) h]
    constructor
    · intro hapart s hs hid hopen pid hpid hroot htracks t ht hne ht'
      exact (apart_browserProcesses (h s hs t ht (hid ▸ hne.symm))).mp (hapart s hs hid t ht hne)
        hopen ht' pid hpid hroot htracks
    · intro hfree s hs hid t ht hne
      refine (apart_browserProcesses (h s hs t ht (hid ▸ hne.symm))).mpr ?_
      intro hopen ht' pid hpid hroot htracks
      exact hfree s hs hid hopen pid hpid hroot htracks t ht hne ht'
  | assign id status =>
    cases hq
    refine Iff.trans (across_update_iff ?_ h) ?_
    · exact fun _ => rfl
    constructor
    · intro hapart hrunning s hs hid _ t ht hne ht'
      exact hapart s hs hid t ht hne hrunning ht'
    · intro hfree s hs hid t ht hne hrunning ht'
      cases hended : s.hasEnded with
      | true => exact hfree hrunning s hs hid hended t ht hne ht'
      | false => exact h s hs t ht (hid ▸ hne.symm) hended ht'
  | exited id pid =>
    cases hq
    exact iff_of_true (across_of_shrink (fun _ => rfl) (fun _ hopen => hopen)
      (fun _ _ => markProcessExited_livePids) (fun _ => rfl) (fun _ => rfl) h) trivial
  | configure id root confirms =>
    cases hq
    exact iff_of_true (across_of_shrink (fun _ => rfl) (fun _ hopen => hopen)
      (fun _ _ hlive => hlive) (fun _ => rfl) (fun _ => rfl) h) trivial
  | remove id =>
    obtain ⟨-, hq⟩ := Option.ite_none_right_eq_some.mp hq
    cases hq
    refine iff_of_true (across_of_subset (fun s hs => ?_) h) trivial
    obtain ⟨hmem, hkept⟩ := List.mem_filter.mp hs
    refine List.mem_filter.mpr ⟨hmem, ?_⟩
    simp only [List.contains_cons, Bool.not_or, Bool.and_eq_true] at hkept
    exact hkept.2

theorem wf_act {r : Registry} (h : Wf r) (choice : Choice) (action : Action) :
    Wf (act r choice action).1 := by
  cases action with
  | returned | tryMerge hit | attach hit => exact h
  | merge id rule hit => exact wf_update (fun s => mergeProcess_id s rule _) h
  | addExisting id hit => exact wf_update (fun s => addProcess_id s _) h
  | reattach id => exact wf_update reattach_id h
  | addExternal proxyId routeKey ipcManaged hit =>
    simp only [act]
    split
    · exact h
    · exact wf_add h _

theorem wf_outside {r q : Registry} {o : Outside} (h : Wf r) (hq : outside r o = some q) :
    Wf q := by
  cases o with
  | launch s =>
    cases hq
    exact wf_add h _
  | found id pid role =>
    cases hq
    exact wf_update (fun s => addProcess_id s _) h
  | browserProcesses id pids =>
    cases hq
    exact wf_update (fun s => browserProcesses_id s pids) h
  | assign id status | exited id pid | configure id root confirms =>
    cases hq
    exact wf_update (fun _ => rfl) h
  | remove id =>
    obtain ⟨hlt, hq⟩ := Option.ite_none_right_eq_some.mp hq
    cases hq
    refine ⟨h.ids, fun x hx => ?_⟩
    obtain rfl | hold := List.mem_cons.mp hx
    · exact hlt
    · exact h.removed x hold

theorem wf_step (hwf : Wf w.shared) (h : step myPid w e = some v) : Wf v.shared := by
  cases e with
  | start hit =>
    cases h
    exact hwf
  | run index choice =>
    obtain ⟨action, next, -, hturn, rfl⟩ := step_run h
    cases hturn
    exact wf_act hwf choice action
  | change o =>
    obtain ⟨r, hr, rfl⟩ := Option.map_eq_some_iff.mp h
    exact wf_outside hwf hr

/-- One step keeps the sessions apart precisely when what it adds is free. -/
theorem unique_step (hwf : Wf w.shared) (hunique : Unique w) (h : step myPid w e = some v) :
    Unique v ↔ KeepsUnique w e := by
  cases e with
  | start hit =>
    cases h
    exact iff_of_true hunique trivial
  | run index choice =>
    obtain ⟨action, next, haction, hturn, rfl⟩ := step_run h
    cases hturn
    refine (across_act hwf hunique choice action).trans ?_
    simp only [KeepsUnique, haction, Option.some.injEq, forall_eq']
  | change o =>
    obtain ⟨r, hr, rfl⟩ := Option.map_eq_some_iff.mp h
    exact across_outside hwf hunique hr

end Steps

theorem wf_start : Wf start.shared := ⟨rfl, List.forall_mem_nil _⟩

theorem unique_start : Unique start := List.forall_mem_nil _

/-- The sessions stay apart through a run precisely when every step of it adds only what no other
    running session has. -/
theorem always_unique_iff (myPid : ℕ) (events : List Event) :
    Always (step myPid) Unique start events ↔ Meets (step myPid) KeepsUnique start events :=
  always_iff_meets (I := fun w => Wf w.shared) (fun _ _ _ hwf h => wf_step hwf h)
    (fun _ _ _ hwf hunique h => unique_step hwf hunique h) events wf_start unique_start

/-- Every `note.exe` goes to the proxy. -/
def noteRoutes : Choice where
  rt := plainRuntime
  routes := [{ proxyId := "clash".toList, processName := "note".toList, matchKind := .processName }]

/-- Two instances of one program start at once, and each call finds no session for the route. -/
def bothAttached : List Event :=
  [.start { processId := 7, name := "note.exe".toList },
    .start { processId := 8, name := "note.exe".toList },
    .run 0 noteRoutes, .run 1 noteRoutes, .run 0 noteRoutes, .run 1 noteRoutes,
    .run 0 noteRoutes, .run 0 noteRoutes]

theorem route_attached_twice :
    ¬∀ (myPid : ℕ) (events : List Event), Always (step myPid) Unique start events := by
  intro h
  have hlast := (always_iff_reached start bothAttached).mp (h 1 bothAttached)
  have hrun : (exec (step 1) start bothAttached).map (fun w => w.shared.listed.map fun s =>
      (s.id, s.hasEnded, s.external, s.routeKey)) =
    some [(0, false, true, "process-name:clash:note.exe".toList),
      (1, false, true, "process-name:clash:note.exe".toList)] := by decide
  obtain ⟨w, hexec, hlisted⟩ := Option.map_eq_some_iff.mp hrun
  have hunique := hlast bothAttached [] w (List.append_nil _).symm hexec
  obtain ⟨s, rest, hs, hfirst, hrest⟩ := List.map_eq_cons_iff.mp hlisted
  obtain ⟨t, rest, ht, hsecond, -⟩ := List.map_eq_cons_iff.mp hrest
  simp only [Prod.mk.injEq] at hfirst hsecond
  refine (hunique s ?_ t ?_ ?_ hfirst.2.1 hsecond.2.1).2 hfirst.2.2.1 hsecond.2.2.1 ?_
  · simp [hs]
  · simp [hs, ht]
  · rw [hfirst.1, hsecond.1]
    exact Nat.zero_ne_one
  · rw [hfirst.2.2.2, hsecond.2.2.2]

end ProxySwitch.SessionUniqueness
