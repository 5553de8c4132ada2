import ProxySwitch.IpcRecovery

set_option autoImplicit false

namespace ProxySwitch.RecoveryReplay
open SessionRouteServer hiding Event step
open RouterPidRoutes SessionRouteIsolation IpcRecovery TaskPools TransitionRuns

variable (sid : SessionId)

def Recorded (s : Shared) (pid : DWORD) : Prop := ∃ state ∈ s.record sid, pid ∈ state.pids

/-- When no task is left, the record lists every acknowledged PID whose process still runs. -/
def KeepsPids (w : World) : Prop :=
  w.tasks = [] → ∀ pid ∈ w.shared.acked, pid ∉ w.shared.gone → Recorded sid w.shared pid

def Handler.recovering : Handler → Bool
  | .processFound _ | .discoverStoreAppProcesses _ _ | .routeDetectedChildren => true
  | _ => false

def Change.restarts : Change → Bool
  | .serverRestart => true
  | _ => false

def Request.addsPid : Request → Bool
  | .addPid _ => true
  | _ => false

/-- The tasks are those that add and recover, the server is not restarted any more, and every
    request succeeds, but for an `addPid` that finds no session. -/
def Undisrupted (w : World) : Event → Prop
  | .start handler => Handler.recovering handler = true
  | .change event => Change.restarts event = false
  | .run index choice =>
    ∀ code ∈ w.tasks[index]?, ∀ request ∈ code.request, choice.delivery = .answered ∧
      ((handle w.shared.traced (request.message sid choice) choice.stored).2.success = true ∨
        Request.addsPid request = true ∧ w.shared.record sid = none)

/-- The task sends an `addPid` of this PID, if its requests succeed. -/
def adds (pid : DWORD) : Code → Bool
  | .send request ok _ _ => request == .addPid pid || adds pid ok
  | .choose a b | .ifEnded a b | .ifTracked _ a b => adds pid a && adds pid b
  | .spawn task next => adds pid task || adds pid next
  | .setEnded _ next | .track _ next | .enterGate next | .leaveGate next | .snapshot next =>
    adds pid next
  | .replay pids next => pids.contains pid || adds pid next
  | .done => false

def recovers : Code → Bool
  | .snapshot _ => true
  | .send _ ok _ _ => recovers ok
  | .choose a b | .ifEnded a b | .ifTracked _ a b => recovers a && recovers b
  | .spawn task next => recovers task || recovers next
  | .setEnded _ next | .track _ next | .enterGate next | .leaveGate next => recovers next
  | .replay _ next => recovers next
  | .done => false

def restores (pid : DWORD) (code : Code) : Bool := adds pid code || recovers code

section Restores
variable {pid : DWORD}

theorem restores_iff {code : Code} :
    restores pid code = true ↔ adds pid code = true ∨ recovers code = true := Bool.or_eq_true_iff

theorem restores_send {request : Request} {ok notFound failed : Code} :
    restores pid (.send request ok notFound failed) = true ↔
      request = .addPid pid ∨ restores pid ok = true := by
  simp only [restores_iff, adds, recovers, Bool.or_eq_true, beq_iff_eq, or_assoc]

theorem restores_spawn {task rest : Code} :
    restores pid (.spawn task rest) = true ↔ restores pid rest = true ∨ restores pid task = true := by
  simp only [restores_iff, adds, recovers, Bool.or_eq_true]
  tauto

theorem restores_replay {pids : List DWORD} {rest : Code} :
    restores pid (.replay pids rest) = true ↔ pid ∈ pids ∨ restores pid rest = true := by
  simp only [restores_iff, adds, recovers, Bool.or_eq_true, List.contains_iff_mem, or_assoc]

end Restores

def afterSnapshot : Code → Option Code
  | .snapshot next => some next
  | _ => none

/-- An acknowledged PID of a running process that the record lacks is in the snapshot, unless a
    task still adds it or takes a later snapshot. -/
def SnapshotComplete (w : World) (index : ℕ) (next : Code) : Prop :=
  ∀ pid ∈ w.shared.acked, pid ∉ w.shared.gone → ¬ Recorded sid w.shared pid →
    pid ∈ w.shared.livePids ∨ restores pid next = true ∨
      ∃ other ∈ w.others index, restores pid other = true

def SnapshotsComplete (w : World) : Event → Prop
  | .start _ | .change _ => True
  | .run index _ =>
    ∀ code ∈ w.tasks[index]?, ∀ next ∈ afterSnapshot code, SnapshotComplete sid w index next

instance (s : Shared) (pid : DWORD) : Decidable (Recorded sid s pid) :=
  inferInstanceAs (Decidable (∃ state ∈ s.record sid, pid ∈ state.pids))

instance (w : World) : (event : Event) → Decidable (Undisrupted sid w event)
  | .start handler => inferInstanceAs (Decidable (Handler.recovering handler = true))
  | .change event => inferInstanceAs (Decidable (Change.restarts event = false))
  | .run index choice => inferInstanceAs (Decidable
      (∀ code ∈ w.tasks[index]?, ∀ request ∈ code.request, choice.delivery = .answered ∧
        ((handle w.shared.traced (request.message sid choice) choice.stored).2.success = true ∨
          Request.addsPid request = true ∧ w.shared.record sid = none)))

instance (w : World) (index : ℕ) (next : Code) : Decidable (SnapshotComplete sid w index next) :=
  decidable_of_iff
    (w.shared.acked.all (fun pid => w.shared.gone.contains pid ||
      decide (Recorded sid w.shared pid) || w.shared.livePids.contains pid ||
        restores pid next || (w.others index).any (restores pid)) = true) <| by
      simp only [SnapshotComplete, List.all_eq_true, Bool.or_eq_true, decide_eq_true_eq,
        List.contains_iff_mem, List.any_eq_true]
      exact forall₂_congr fun pid _ => by tauto

instance (w : World) : (event : Event) → Decidable (SnapshotsComplete sid w event)
  | .start _ | .change _ => isTrue trivial
  | .run index _ => inferInstanceAs (Decidable
      (∀ code ∈ w.tasks[index]?, ∀ next ∈ afterSnapshot code, SnapshotComplete sid w index next))

/-- The code closes nothing, and takes a snapshot after each `createSession`. -/
def sound : Code → Bool
  | .send request ok notFound failed =>
    sound ok && sound notFound && sound failed &&
      match request with
      | .createSession => recovers ok
      | .addPid _ => true
      | .closeSession => false
  | .choose a b | .ifEnded a b | .ifTracked _ a b | .spawn a b => sound a && sound b
  | .setEnded _ next | .track _ next | .enterGate next | .leaveGate next | .snapshot next =>
    sound next
  | .replay _ next => sound next
  | .done => true

def Covered (w : World) (pid : DWORD) : Prop :=
  Recorded sid w.shared pid ∨ ∃ code ∈ w.tasks, restores pid code = true

structure Inv (w : World) : Prop where
  sound : ∀ code ∈ w.tasks, sound code = true
  opened : ∀ pid ∈ w.shared.acked, w.shared.record sid ≠ none
  covered : ∀ pid ∈ w.shared.acked, pid ∉ w.shared.gone → Covered sid w pid

variable {sid}

theorem keepsPids_of_inv {w : World} (hw : Inv sid w) : KeepsPids sid w := by
  intro hdone pid hacked hrunning
  rcases hw.covered pid hacked hrunning with hrecorded | ⟨code, hcode, _⟩
  · exact hrecorded
  · rw [hdone] at hcode
    cases hcode

theorem sound_addPid (pid : DWORD) {ok failed : Code} (hok : sound ok = true)
    (hfailed : sound failed = true) : sound (addPidToIpcSessionAsync pid ok failed) = true := by
  simp [addPidToIpcSessionAsync, recreateIpcSessionAndReplayAsync, sound, recovers, hok, hfailed]

theorem sound_attachCandidates (root : Option DWORD) (candidates : List DWORD) :
    sound (attachCandidates root candidates) = true := by
  induction candidates with
  | nil => rfl
  | cons pid rest ih =>
    have hattach : sound (addPidToIpcSessionAsync pid
        (.track pid (attachCandidates root rest)) (attachCandidates root rest)) = true :=
      sound_addPid pid ih ih
    simp only [attachCandidates]
    split
    · simp [sound, ih, hattach]
    · exact hattach

theorem sound_entry {handler : Handler} (h : Handler.recovering handler = true) :
    sound handler.code = true := by
  cases handler with
  | discoverStoreAppProcesses root candidates =>
    simp [Handler.code, discoverStoreAppProcessesAsync, sound, sound_attachCandidates]
  | processFound pid =>
    have hadd : sound (addPidToIpcSessionAsync pid .done .done) = true := sound_addPid pid rfl rfl
    simpa [Handler.code, onProcess, sound] using hadd
  | routeDetectedChildren => rfl
  | _ => cases h

section Turns
variable {w : World} {code : Code} {choice : Choice} {next : Shared × List Code}

theorem sound_children (h : sound code = true) : ∀ c ∈ code.children, sound c = true := by
  intro c hc
  cases code with
  | done => cases hc
  | send request ok notFound failed =>
    simp only [sound, Bool.and_eq_true] at h
    simp only [Code.children, List.mem_cons, List.not_mem_nil, or_false] at hc
    rcases hc with rfl | rfl | rfl
    · exact h.1.1.1
    · exact h.1.1.2
    · exact h.1.2
  | choose a b | ifEnded a b | ifTracked _ a b | spawn a b =>
    simp only [sound, Bool.and_eq_true] at h
    simp only [Code.children, List.mem_cons, List.not_mem_nil, or_false] at hc
    rcases hc with rfl | rfl
    · exact h.1
    · exact h.2
  | _ => obtain rfl := List.mem_singleton.mp hc; exact h

theorem sound_turn (hturn : turn sid w code choice = some next) (h : sound code = true)
    (hanswered : ∀ request ∈ code.request, choice.delivery = .answered) :
    ∀ c ∈ next.2, sound c = true := by
  have hchildren := sound_children h
  apply forall_turn hturn hchildren
  · intro pids c hc
    exact hchildren c hc
  · intro request hrequest hdelivery
    rw [hanswered request hrequest] at hdelivery
    cases hdelivery

theorem restores_children (hspawn : ∀ task rest, code ≠ .spawn task rest)
    (hrequest : code.request = none) (hsnapshot : ∀ rest, code ≠ .snapshot rest) {pid : DWORD}
    (h : restores pid code = true) : ∀ c ∈ code.children, restores pid c = true := by
  intro c hc
  cases code with
  | done => cases hc
  | send request ok notFound failed => cases hrequest
  | spawn task rest => exact absurd rfl (hspawn task rest)
  | snapshot rest => exact absurd rfl (hsnapshot rest)
  | choose a b | ifEnded a b | ifTracked _ a b =>
    simp only [restores_iff, adds, recovers, Bool.and_eq_true] at h ⊢
    simp only [Code.children, List.mem_cons, List.not_mem_nil, or_false] at hc
    rcases hc with rfl | rfl
    · exact h.imp And.left And.left
    · exact h.imp And.right And.right
  | replay pids rest =>
    obtain rfl := List.mem_singleton.mp hc
    cases pids with
    | nil => exact (restores_replay.mp h).resolve_left List.not_mem_nil
    | cons pid pids => cases hrequest
  | _ => obtain rfl := List.mem_singleton.mp hc; exact h

theorem restores_quiet (hturn : turn sid w code choice = some next) (hrequest : code.request = none)
    (hsnapshot : ∀ rest, code ≠ .snapshot rest) {pid : DWORD} (h : restores pid code = true) :
    ∃ c ∈ next.2, restores pid c = true := by
  by_cases hspawn : ∃ task rest, code = .spawn task rest
  · obtain ⟨task, rest, rfl⟩ := hspawn
    obtain rfl := Option.some.inj hturn
    have hsplit := restores_spawn.mp h
    simpa using hsplit
  · have hchildren :=
      restores_children (fun task rest hs => hspawn ⟨task, rest, hs⟩) hrequest hsnapshot h
    have hdone : code ≠ .done := by
      rintro rfl
      cases h
    obtain ⟨c, rest, hnext, hc, _⟩ := turn_next hturn hdone
    refine ⟨c, hnext ▸ List.mem_cons_self, ?_⟩
    rcases hc with hchild | ⟨pids, after, _, _, rfl | ⟨q, rfl⟩⟩
    · exact hchildren c hchild
    · exact absurd rfl (hsnapshot after)
    · cases hrequest

/-- A request that succeeds restores what the task was to restore, or adds the PID itself. -/
theorem restores_answered (hturn : turn sid w code choice = some next) {request : Request}
    (hrequest : code.request = some request) (hanswered : choice.delivery = .answered)
    (hsuccess : (handle w.shared.traced (request.message sid choice) choice.stored).2.success = true)
    {pid : DWORD} (h : restores pid code = true) :
    request = .addPid pid ∨ ∃ c ∈ next.2, restores pid c = true := by
  cases code with
  | send r ok notFound failed =>
    obtain rfl : r = request := Option.some.inj hrequest
    have hnext : ok ∈ next.2 := by
      rw [← Option.some.inj hturn]
      simp [hanswered, hsuccess]
    rcases restores_send.mp h with rfl | hok
    · exact .inl rfl
    · exact .inr ⟨ok, hnext, hok⟩
  | replay pids rest =>
    cases pids with
    | nil => cases hrequest
    | cons q pids =>
      obtain rfl : .addPid q = request := Option.some.inj hrequest
      obtain rfl := Option.some.inj hturn
      rcases restores_replay.mp h with hmem | hrest
      · rcases List.mem_cons.mp hmem with rfl | hmem
        · exact .inl rfl
        · exact .inr ⟨_, List.mem_cons_self, restores_replay.mpr (.inl hmem)⟩
      · exact .inr ⟨_, List.mem_cons_self, restores_replay.mpr (.inr hrest)⟩
  | _ => cases hrequest

theorem recorded_of_traced {s t : Shared} (h : t.traced = s.traced) {pid : DWORD}
    (hs : Recorded sid s pid) : Recorded sid t pid := by
  unfold Recorded Shared.record at hs ⊢
  rwa [h]

theorem transmit_addPid {s : Shared} (pid : DWORD) (hanswered : choice.delivery = .answered)
    {state : SessionState} (hrecord : s.record sid = some state)
    (hsuccess : (handle s.traced ((Request.addPid pid).message sid choice) choice.stored).2.success =
      true) :
    (transmit sid s (.addPid pid) choice).1.record sid =
        some { state with pids := insert pid state.pids } ∧
      (transmit sid s (.addPid pid) choice).1.acked = pid :: s.acked := by
  rcases handle_addPid sid s choice.stored pid choice.fileTime with
    ⟨hnone, _⟩ | ⟨state', hstate, hfail | ⟨router, hadd⟩⟩
  · rw [hrecord] at hnone
    cases hnone
  · simp only [Request.message, hfail] at hsuccess
    cases hsuccess
  · obtain rfl := Option.some.inj (hrecord.symm.trans hstate)
    simp only [transmit, hanswered, Request.message, hadd]
    exact ⟨setSession_self _ _ _, rfl⟩

theorem transmit_create {s : Shared} (hanswered : choice.delivery = .answered)
    (hsuccess : (handle s.traced (Request.createSession.message sid choice) choice.stored).2.success =
      true) :
    (transmit sid s .createSession choice).1.record sid ≠ none ∧
      (transmit sid s .createSession choice).1.acked = s.acked := by
  rcases handle_create sid s choice.stored choice.endpoint with ⟨e, hfail⟩ | ⟨proxy, _, hcreate⟩
  · simp only [Request.message, hfail] at hsuccess
    cases hsuccess
  · simp only [transmit, hanswered, Request.message, hcreate]
    refine ⟨fun hnone => ?_, rfl⟩
    have hrecord := hnone.symm.trans (setSession_self s.traced.server sid.text _)
    cases hrecord

theorem transmit_gone {s : Shared} (request : Request) :
    (transmit sid s request choice).1.gone = s.gone := by
  unfold transmit
  cases choice.delivery <;> rfl

section Kept
variable {index : ℕ} {pid : DWORD}

theorem covered_of_next {s : Shared} {l m : List Code} (h : ∃ c ∈ l, restores pid c = true) :
    Covered sid ⟨s, l ++ m⟩ pid := by
  obtain ⟨c, hc, hrestores⟩ := h
  exact .inr ⟨c, List.mem_append.mpr (.inl hc), hrestores⟩

theorem covered_of_others {s : Shared} {l m : List Code} (h : ∃ c ∈ m, restores pid c = true) :
    Covered sid ⟨s, l ++ m⟩ pid := by
  obtain ⟨c, hc, hrestores⟩ := h
  exact .inr ⟨c, List.mem_append.mpr (.inr hc), hrestores⟩

theorem covered_or_own {s : Shared} {l : List Code} (hcode : w.tasks[index]? = some code)
    (h : Covered sid w pid) (hrecord : Recorded sid w.shared pid → Recorded sid s pid) :
    Covered sid ⟨s, l ++ w.others index⟩ pid ∨ restores pid code = true := by
  rcases h with hrecorded | ⟨c, hc, hrestores⟩
  · exact .inl (.inl (hrecord hrecorded))
  · rcases (mem_tasks_iff hcode c).mp hc with rfl | hother
    · exact .inr hrestores
    · exact .inl (covered_of_others ⟨c, hother, hrestores⟩)

theorem covered_quiet (hw : Inv sid w) (hcomplete : SnapshotsComplete sid w (.run index choice))
    (hcode : w.tasks[index]? = some code) (hturn : turn sid w code choice = some next)
    (hrequest : code.request = none) (hacked : pid ∈ next.1.acked) (hrunning : pid ∉ next.1.gone) :
    Covered sid ⟨next.1, next.2 ++ w.others index⟩ pid := by
  obtain ⟨htraced, hsame, hgone⟩ := turn_quiet hturn hrequest
  rw [hsame] at hacked
  rw [hgone] at hrunning
  have hrecord : Recorded sid w.shared pid → Recorded sid next.1 pid := recorded_of_traced htraced
  by_cases hsnapshot : ∃ rest, code = .snapshot rest
  · obtain ⟨rest, rfl⟩ := hsnapshot
    obtain rfl := Option.some.inj hturn
    by_cases hrecorded : Recorded sid w.shared pid
    · exact .inl hrecorded
    · rcases hcomplete _ hcode rest rfl pid hacked hrunning hrecorded with hlive | hrest | hother
      · exact covered_of_next ⟨_, List.mem_singleton.mpr rfl, restores_replay.mpr (.inl hlive)⟩
      · exact covered_of_next ⟨_, List.mem_singleton.mpr rfl, restores_replay.mpr (.inr hrest)⟩
      · exact covered_of_others hother
  · have hcovered : Covered sid ⟨next.1, next.2 ++ w.others index⟩ pid ∨ restores pid code = true :=
      covered_or_own hcode (hw.covered pid hacked hrunning) hrecord
    rcases hcovered with hcovered | hown
    · exact hcovered
    · exact covered_of_next
        (restores_quiet hturn hrequest (fun rest h => hsnapshot ⟨rest, h⟩) hown)

theorem covered_addPid (hw : Inv sid w) (hcode : w.tasks[index]? = some code)
    (hturn : turn sid w code choice = some next) {added : DWORD}
    (hrequest : code.request = some (.addPid added)) (hanswered : choice.delivery = .answered)
    (hsuccess : (handle w.shared.traced ((Request.addPid added).message sid choice)
      choice.stored).2.success = true)
    {state : SessionState} (hrecord : w.shared.record sid = some state)
    (hacked : pid ∈ next.1.acked) (hrunning : pid ∉ next.1.gone) :
    Covered sid ⟨next.1, next.2 ++ w.others index⟩ pid := by
  obtain ⟨hafter, hacks⟩ := transmit_addPid added hanswered hrecord hsuccess
  rw [← (turn_request hturn hrequest).1] at hafter hacks
  have hadded : Recorded sid next.1 added := ⟨_, hafter, Finset.mem_insert_self _ _⟩
  have hkept : Recorded sid w.shared pid → Recorded sid next.1 pid := by
    rintro ⟨state', hstate, hlisted⟩
    obtain rfl := Option.some.inj (hrecord.symm.trans hstate)
    exact ⟨_, hafter, Finset.mem_insert_of_mem hlisted⟩
  rw [hacks] at hacked
  rcases List.mem_cons.mp hacked with rfl | hbefore
  · exact .inl hadded
  · have hgone : next.1.gone = w.shared.gone := by
      rw [(turn_request hturn hrequest).1, transmit_gone]
    rw [hgone] at hrunning
    have hcovered : Covered sid ⟨next.1, next.2 ++ w.others index⟩ pid ∨ restores pid code = true :=
      covered_or_own hcode (hw.covered pid hbefore hrunning) hkept
    rcases hcovered with hcovered | hown
    · exact hcovered
    · rcases restores_answered hturn hrequest hanswered hsuccess hown with hsame | hnext
      · obtain rfl := Request.addPid.inj hsame
        exact .inl hadded
      · exact covered_of_next hnext

theorem covered_create (hw : Inv sid w) (hcode : w.tasks[index]? = some code)
    (hturn : turn sid w code choice = some next) (hrequest : code.request = some .createSession)
    (hanswered : choice.delivery = .answered)
    (hsuccess : (handle w.shared.traced (Request.createSession.message sid choice)
      choice.stored).2.success = true) :
    Covered sid ⟨next.1, next.2 ++ w.others index⟩ pid := by
  have hsound := hw.sound code ((mem_tasks_iff hcode code).mpr (.inl rfl))
  have hrecovers : restores pid code = true := by
    cases code with
    | send request ok notFound failed =>
      obtain rfl : request = .createSession := Option.some.inj hrequest
      simp only [sound, Bool.and_eq_true] at hsound
      simp [restores, recovers, hsound.2]
    | replay pids rest => cases pids <;> cases hrequest
    | _ => cases hrequest
  rcases restores_answered hturn hrequest hanswered hsuccess hrecovers with hsame | hnext
  · cases hsame
  · exact covered_of_next hnext

end Kept

theorem request_ne_close (h : sound code = true) : code.request ≠ some .closeSession := by
  intro hrequest
  cases code with
  | send request ok notFound failed =>
    obtain rfl : request = .closeSession := Option.some.inj hrequest
    simp [sound] at h
  | replay pids rest => cases pids <;> cases hrequest
  | _ => cases hrequest

theorem acked_of_missing {s : Shared} (pid : DWORD) (hanswered : choice.delivery = .answered)
    (hrecord : s.record sid = none) : (transmit sid s (.addPid pid) choice).1.acked = s.acked := by
  rcases handle_addPid sid s choice.stored pid choice.fileTime with ⟨_, hfail⟩ | ⟨state, hstate, _⟩
  · simp [transmit, hanswered, Request.message, hfail]
  · rw [hrecord] at hstate
    cases hstate

theorem inv_run {index : ℕ} (hw : Inv sid w) (hok : Undisrupted sid w (.run index choice))
    (hcomplete : SnapshotsComplete sid w (.run index choice))
    (hcode : w.tasks[index]? = some code) (hturn : turn sid w code choice = some next) :
    Inv sid ⟨next.1, next.2 ++ w.others index⟩ := by
  have hsound := hw.sound code ((mem_tasks_iff hcode code).mpr (.inl rfl))
  have hrequests := hok code hcode
  have hnext : ∀ c ∈ next.2 ++ w.others index, sound c = true :=
    forall_tasks_of_turn hcode hw.sound
      (sound_turn hturn hsound fun request hrequest => (hrequests request hrequest).1)
  cases hrequest : code.request with
  | none =>
    obtain ⟨htraced, hsame, _⟩ := turn_quiet hturn hrequest
    refine ⟨hnext, fun pid hacked => ?_, fun pid => covered_quiet hw hcomplete hcode hturn hrequest⟩
    have hopen := hw.opened pid (hsame ▸ hacked)
    show next.1.record sid ≠ none
    unfold Shared.record at hopen ⊢
    rwa [htraced]
  | some request =>
    obtain ⟨hanswered, houtcome⟩ := hrequests request hrequest
    have hafter := (turn_request hturn hrequest).1
    cases request with
    | createSession =>
      have hsuccess := houtcome.resolve_right fun h => by cases h.1
      refine ⟨hnext, fun pid _ => ?_, fun pid _ _ =>
        covered_create hw hcode hturn hrequest hanswered hsuccess⟩
      show next.1.record sid ≠ none
      rw [hafter]
      exact (transmit_create hanswered hsuccess).1
    | closeSession => exact absurd hrequest (request_ne_close hsound)
    | addPid added =>
      cases hrecord : w.shared.record sid with
      | none =>
        -- nothing was acknowledged yet, and this request is not either
        have hsame : next.1.acked = w.shared.acked := by
          rw [hafter, acked_of_missing added hanswered hrecord]
        have hempty : ∀ pid, pid ∉ next.1.acked := fun pid hacked =>
          hw.opened pid (hsame ▸ hacked) hrecord
        exact ⟨hnext, fun pid hacked => absurd hacked (hempty pid),
          fun pid hacked => absurd hacked (hempty pid)⟩
      | some state =>
        have hsuccess := houtcome.resolve_right fun h => by rw [hrecord] at h; cases h.2
        refine ⟨hnext, fun pid _ => ?_, fun pid =>
          covered_addPid hw hcode hturn hrequest hanswered hsuccess hrecord⟩
        show next.1.record sid ≠ none
        rw [hafter, (transmit_addPid added hanswered hrecord hsuccess).1]
        exact Option.some_ne_none _

end Turns

theorem outside_record {s t : Shared} {change : Change} (hchange : outside sid s change = some t)
    (hrestart : Change.restarts change = false) :
    t.record sid = s.record sid ∧ t.acked = s.acked ∧ ∀ pid ∈ s.gone, pid ∈ t.gone := by
  cases change with
  | processExited pid =>
    obtain rfl := Option.some.inj hchange
    exact ⟨rfl, rfl, fun _ hgone => List.mem_cons_of_mem _ hgone⟩
  | markProcessExited pid =>
    simp only [outside, Option.ite_none_right_eq_some, Option.some.injEq] at hchange
    obtain ⟨_, rfl⟩ := hchange
    exact ⟨rfl, rfl, fun _ hgone => hgone⟩
  | otherClient m stored =>
    simp only [outside, Option.ite_none_left_eq_some, Option.some.injEq] at hchange
    obtain ⟨hother, rfl⟩ := hchange
    exact ⟨processMessage_sessions_of_ne _ m stored fun hid => hother hid.symm, rfl,
      fun _ hgone => hgone⟩
  | sweep times =>
    obtain rfl := Option.some.inj hchange
    exact ⟨rfl, rfl, fun _ hgone => hgone⟩
  | serverRestart => cases hrestart

theorem inv_step {w t : World} {event : Event} (hw : Inv sid w)
    (hok : Undisrupted sid w event ∧ SnapshotsComplete sid w event)
    (hstep : step sid w event = some t) : Inv sid t := by
  cases event with
  | start handler =>
    obtain rfl := Option.some.inj hstep
    refine ⟨fun code hcode => ?_, hw.opened, fun pid hacked hrunning => ?_⟩
    · rcases List.mem_cons.mp hcode with rfl | hold
      · exact sound_entry hok.1
      · exact hw.sound code hold
    · exact (hw.covered pid hacked hrunning).imp_right fun ⟨code, hcode, hrestores⟩ =>
        ⟨code, List.mem_cons_of_mem _ hcode, hrestores⟩
  | run index choice =>
    obtain ⟨code, next, hcode, hturn, rfl⟩ := step_run hstep
    exact inv_run hw hok.1 hok.2 hcode hturn
  | change event =>
    obtain ⟨s, hchange, rfl⟩ := Option.map_eq_some_iff.mp hstep
    obtain ⟨hrecord, hsame, hgone⟩ := outside_record hchange hok.1
    refine ⟨hw.sound, fun pid hacked => ?_, fun pid hacked hrunning => ?_⟩
    · show s.record sid ≠ none
      rw [hrecord]
      exact hw.opened pid (hsame ▸ hacked)
    · refine (hw.covered pid (hsame ▸ hacked) fun h => hrunning (hgone pid h)).imp_left ?_
      rintro ⟨state, hstate, hlisted⟩
      exact ⟨state, hrecord.trans hstate, hlisted⟩

/-- A live session without tasks: of what the server acknowledged earlier nothing counts, as it
    may have been restarted since. -/
def live (processes : List TrackedProcess) (traced : Traced) (gone : List DWORD) : World :=
  ⟨{ processes := processes, traced := traced, gone := gone }, []⟩

/-- No acknowledged PID is lost, if every snapshot is complete. -/
theorem always_keepsPids (sid : SessionId) (processes : List TrackedProcess) (traced : Traced)
    (gone : List DWORD) (events : List Event)
    (h : Meets (step sid) (Undisrupted sid) (live processes traced gone) events)
    (hcomplete : Meets (step sid) (SnapshotsComplete sid) (live processes traced gone) events) :
    Always (step sid) (KeepsPids sid) (live processes traced gone) events := by
  have hlive : Inv sid (live processes traced gone) :=
    ⟨fun _ hcode => (List.not_mem_nil hcode).elim, fun _ hacked => (List.not_mem_nil hacked).elim,
      fun _ hacked => (List.not_mem_nil hacked).elim⟩
  exact always_mono (fun _ => keepsPids_of_inv)
    (always_of_meets (fun _ _ _ hw hok hstep => inv_step hw hok hstep) hlive (meets_and h hcomplete))

def restarted : Traced :=
  tracedInit (fun e => if e = "127.0.0.1:1080" then some 0 else none) [⟨some 5000, some 5001⟩]

def recover : Choice := { branch := false, endpoint := "127.0.0.1:1080" }

theorem always_keepsPids_recovered :
    Always (step ⟨"8f00d1e2", by decide⟩) (KeepsPids ⟨"8f00d1e2", by decide⟩)
      (live [⟨100, false⟩] restarted [])
      (.start (.processFound 101) :: List.replicate 14 (.run 0 recover)) :=
  always_keepsPids _ _ _ _ _ (by decide) (by decide)

/-- Both tasks find the session missing. The second recovery replaces the record after the
    discovered process was acknowledged and before it is recorded. -/
theorem second_recovery_loses_discovered :
    ¬ ∀ (sid : SessionId) (processes : List TrackedProcess) (traced : Traced) (gone : List DWORD)
        (events : List Event),
      Meets (step sid) (Undisrupted sid) (live processes traced gone) events →
      Always (step sid) (KeepsPids sid) (live processes traced gone) events := by
  intro h
  have hrun := (always_iff_reached _ _).mp
    (h ⟨"8f00d1e2", by decide⟩ [] restarted []
      (.start (.processFound 102) :: List.replicate 4 (.run 0 recover) ++
        .start (.discoverStoreAppProcesses none [200]) :: List.replicate 10 (.run 0 recover) ++
        .run 1 recover :: List.replicate 10 (.run 0 recover))
      (by decide))
    _ [] _ (List.append_nil _).symm rfl
  have hrecorded := hrun rfl 200 (by decide) (by decide)
  revert hrecorded
  decide

end ProxySwitch.RecoveryReplay
