import ProxySwitch.SessionLifecycle

set_option autoImplicit false

namespace ProxySwitch.TerminalStatuses
open SessionLifecycle TaskPools TransitionRuns

/-- `Status` is assigned before it is tested again, whichever way the code goes. -/
def armed : Code → Bool
  | .ifLive a b | .choose a b | .reap a b | .add _ a b => armed a && armed b
  | .mark _ next | .kill next | .killing _ next | .forget _ next => armed next
  | .cleanup next | .acquire next | .release next => armed next
  | .spawn task next => armed task || armed next
  | .setStatus _ _ _ => true
  | .done | .ifStatus _ _ _ | .monitor => false

/-- The calls of `CleanupSessionRoutes` ahead that nothing can prevent. -/
def pendingCleanups : Code → ℕ
  | .cleanup next => pendingCleanups next + 1
  | .kill next | .killing _ next => pendingCleanups next
  | _ => 0

def endsSession : Code → Bool
  | .setStatus status _ _ => ended.contains status
  | _ => false

/-- The code cleans up once after each assignment that ends the session, before any other
    assignment, and nowhere else. -/
def cleansUp : Code → Bool
  | .done | .monitor => true
  | .ifStatus _ a b | .ifLive a b | .choose a b | .reap a b | .add _ a b | .spawn a b =>
    cleansUp a && cleansUp b && pendingCleanups a == 0 && pendingCleanups b == 0
  | .mark _ next | .forget _ next | .acquire next | .release next =>
    cleansUp next && pendingCleanups next == 0
  | .kill next | .killing _ next | .cleanup next => cleansUp next
  | .setStatus status _ next =>
    cleansUp next &&
      if ended.contains status then pendingCleanups next == 1 && !armed next
      else pendingCleanups next == 0

def StaysEnded (w : World) (event : Event) : Prop :=
  ∀ t ∈ step w event, w.shared.hasEnded = true → t.shared.status = w.shared.status

instance (w : World) (event : Event) : Decidable (StaysEnded w event) :=
  inferInstanceAs (Decidable (∀ t ∈ step w event, _ → _))

structure CleanedUpOnce (w : World) : Prop where
  notBefore : w.shared.hasEnded = false → w.shared.cleanups = 0
  atMost : w.shared.cleanups ≤ 1
  atEnd : w.shared.hasEnded = true → (∀ code ∈ w.tasks, pendingCleanups code = 0) →
    w.shared.cleanups = 1

/-- No turn in an ended session commits a task to an assignment of `Status`; a turn that ends the
    session finds no other task committed to one; and none commits a task to end the session
    without a clean-up. -/
def Undisturbed (w : World) : Event → Prop
  | .start _ | .change _ => True
  | .run index choice =>
    ∀ code ∈ w.tasks[index]?,
      (∀ next ∈ turn w code choice, ∀ c ∈ next.2,
        cleansUp c = true ∧ (w.shared.hasEnded = true → armed c = false)) ∧
      (endsSession code = true → ∀ other ∈ w.others index, armed other = false)

instance (w : World) : (event : Event) → Decidable (Undisturbed w event)
  | .start _ | .change _ => isTrue trivial
  | .run index choice =>
    inferInstanceAs (Decidable (∀ code ∈ w.tasks[index]?,
      (∀ next ∈ turn w code choice, ∀ c ∈ next.2,
        cleansUp c = true ∧ (w.shared.hasEnded = true → armed c = false)) ∧
      (endsSession code = true → ∀ other ∈ w.others index, armed other = false)))

structure Inv (w : World) : Prop where
  tidy : ∀ code ∈ w.tasks, cleansUp code = true ∨ ∃ pid, code = browserRootExited pid
  silent : w.shared.hasEnded = true → ∀ code ∈ w.tasks, armed code = false
  once : w.shared.cleanups + (w.tasks.map pendingCleanups).sum = if w.shared.hasEnded then 1 else 0

theorem cleanedUpOnce_of_inv {w : World} (h : Inv w) : CleanedUpOnce w := by
  have honce := h.once
  refine ⟨fun hlive => ?_, ?_, fun hended hdone => ?_⟩
  · rw [if_neg (by simp [hlive])] at honce
    omega
  · split at honce <;> omega
  · have hsum : (w.tasks.map pendingCleanups).sum = 0 := by
      rw [List.sum_eq_zero]
      intro n hn
      obtain ⟨code, hcode, rfl⟩ := List.mem_map.mp hn
      exact hdone code hcode
    rw [if_pos hended] at honce
    omega

theorem addAll_idle (ps : List TrackedProcess) :
    cleansUp (addAll ps .done) = true ∧ armed (addAll ps .done) = false ∧
      pendingCleanups (addAll ps .done) = 0 := by
  induction ps with
  | nil => exact ⟨rfl, rfl, rfl⟩
  | cons p ps ih =>
    obtain ⟨htidy, harmed, hpending⟩ := ih
    refine ⟨?_, ?_, rfl⟩
    · simp [addAll, cleansUp, htidy, hpending]
    · simp [addAll, armed, harmed]

theorem entry_idle (handler : Handler) :
    (cleansUp handler.code = true ∨ ∃ pid, handler.code = browserRootExited pid) ∧
      armed handler.code = false ∧ pendingCleanups handler.code = 0 := by
  cases handler with
  | browserRootExited pid => exact ⟨.inr ⟨pid, rfl⟩, rfl, rfl⟩
  | discoverStoreAppProcesses candidates =>
    have hidle := addAll_idle (candidates.map fun p => { p with role := .descendant })
    refine ⟨.inl ?_, rfl, rfl⟩
    simp [Handler.code, discoverStoreAppProcessesAsync, cleansUp, pendingCleanups, hidle]
  | onBrowserProcesses root pids =>
    have hidle := addAll_idle ((pids.filter (· != root)).map fun pid => ⟨pid, .descendant, false⟩)
    refine ⟨.inl ?_, ?_, rfl⟩
    · simp [Handler.code, onBrowserProcesses, cleansUp, hidle]
    · simp [Handler.code, onBrowserProcesses, armed, hidle]
  | _ => exact ⟨.inl rfl, rfl, rfl⟩

theorem turn_pending {w : World} {code : Code} {choice : Choice} {next : LaunchSession × List Code}
    (hturn : turn w code choice = some next) (htidy : cleansUp code = true)
    (hstatus : ∀ status byUser rest, code ≠ .setStatus status byUser rest)
    (hcleanup : ∀ rest, code ≠ .cleanup rest) :
    (next.2.map pendingCleanups).sum = pendingCleanups code := by
  cases code with
  | setStatus status byUser rest => exact absurd rfl (hstatus status byUser rest)
  | cleanup rest => exact absurd rfl (hcleanup rest)
  | done => obtain rfl := Option.some.inj hturn; rfl
  | monitor => obtain rfl := Option.some.inj hturn; rfl
  | ifStatus among yes no | ifLive yes no | choose yes no | reap yes no =>
    obtain rfl := Option.some.inj hturn
    simp only [cleansUp, Bool.and_eq_true, beq_iff_eq] at htidy
    simp only [List.map_cons, List.map_nil, List.sum_singleton]
    split
    · exact htidy.1.2
    · exact htidy.2
  | add p fresh known =>
    simp only [cleansUp, Bool.and_eq_true, beq_iff_eq] at htidy
    simp only [turn] at hturn
    split at hturn
    · obtain rfl := Option.some.inj hturn; simp [pendingCleanups, htidy.2]
    · obtain rfl := Option.some.inj hturn; simp [pendingCleanups, htidy.1.2]
  | spawn task rest =>
    obtain rfl := Option.some.inj hturn
    simp only [cleansUp, Bool.and_eq_true, beq_iff_eq] at htidy
    simp [pendingCleanups, htidy.1.2, htidy.2]
  | mark pid rest | forget pid rest | release rest =>
    obtain rfl := Option.some.inj hturn
    simp only [cleansUp, Bool.and_eq_true, beq_iff_eq] at htidy
    simp [pendingCleanups, htidy.2]
  | acquire rest =>
    simp only [cleansUp, Bool.and_eq_true, beq_iff_eq] at htidy
    simp only [turn] at hturn
    split at hturn
    · cases hturn
    · obtain rfl := Option.some.inj hturn; simp [pendingCleanups, htidy.2]
  | kill rest => obtain rfl := Option.some.inj hturn; simp [pendingCleanups]
  | killing pids rest =>
    cases pids <;> (obtain rfl := Option.some.inj hturn; simp [pendingCleanups])

/-- A turn pays one clean-up, or owes one because it ends the session. -/
theorem turn_once {w : World} {code : Code} {choice : Choice} {next : LaunchSession × List Code}
    (hturn : turn w code choice = some next) (htidy : cleansUp code = true)
    (hsilent : w.shared.hasEnded = true → armed code = false) :
    next.1.cleanups + (next.2.map pendingCleanups).sum + (if w.shared.hasEnded then 1 else 0) =
      w.shared.cleanups + pendingCleanups code + (if next.1.hasEnded then 1 else 0) := by
  obtain ⟨hstatus, hcleanups, _⟩ := turn_frame hturn
  by_cases hassign : ∃ status byUser rest, code = .setStatus status byUser rest
  · obtain ⟨status, byUser, rest, rfl⟩ := hassign
    have hlive : w.shared.hasEnded = false := by
      by_contra hended
      have hquiet := hsilent (by simpa using hended)
      cases hquiet
    obtain rfl := Option.some.inj hturn
    have hafter : LaunchSession.hasEnded { w.shared with status := status } = ended.contains status :=
      rfl
    simp only [cleansUp] at htidy
    simp only [hlive, hafter, List.map_cons, List.map_nil, List.sum_singleton, pendingCleanups]
    cases hend : ended.contains status with
    | true =>
      simp only [hend, if_true, Bool.and_eq_true, beq_iff_eq] at htidy
      simp [htidy.2.1]
    | false =>
      simp only [hend, Bool.and_eq_true] at htidy
      simpa using htidy.2
  · have hsame : next.1.hasEnded = w.shared.hasEnded := by
      unfold LaunchSession.hasEnded
      rw [hstatus fun status byUser rest hcode => hassign ⟨status, byUser, rest, hcode⟩]
    rw [hsame]
    by_cases hclean : ∃ rest, code = .cleanup rest
    · obtain ⟨rest, rfl⟩ := hclean
      obtain rfl := Option.some.inj hturn
      simp only [List.map_cons, List.map_nil, List.sum_singleton, pendingCleanups]
      omega
    · rw [hcleanups fun rest hcode => hclean ⟨rest, hcode⟩,
        turn_pending hturn htidy (fun status byUser rest hcode => hassign ⟨status, byUser, rest, hcode⟩)
          fun rest hcode => hclean ⟨rest, hcode⟩]

theorem browser_turn {w : World} {pid : ℕ} {choice : Choice} {next : LaunchSession × List Code}
    (hturn : turn w (browserRootExited pid) choice = some next) :
    next.1 = w.shared ∧ (next.2.map pendingCleanups).sum = 0 := by
  obtain rfl := Option.some.inj hturn
  refine ⟨rfl, ?_⟩
  simp only [List.map_cons, List.map_nil, List.sum_singleton]
  split <;> rfl

theorem inv_start {w : World} (hw : Inv w) (handler : Handler) :
    Inv { w with tasks := handler.code :: w.tasks } := by
  obtain ⟨htidy, harmed, hpending⟩ := entry_idle handler
  refine ⟨?_, fun hended => ?_, ?_⟩
  · intro code hcode
    rcases List.mem_cons.mp hcode with rfl | hold
    · exact htidy
    · exact hw.tidy code hold
  · intro code hcode
    rcases List.mem_cons.mp hcode with rfl | hold
    · exact harmed
    · exact hw.silent hended code hold
  · have honce := hw.once
    simp only [List.map_cons, List.sum_cons, hpending]
    omega

theorem inv_run {w : World} {index : ℕ} {code : Code} {choice : Choice}
    {next : LaunchSession × List Code} (hw : Inv w) (hok : Undisturbed w (.run index choice))
    (hcode : w.tasks[index]? = some code) (hturn : turn w code choice = some next) :
    Inv { shared := next.1, tasks := next.2 ++ w.others index } := by
  obtain ⟨hnext, hends⟩ := hok code hcode
  have hown : code ∈ w.tasks := (mem_tasks_iff hcode code).mpr (.inl rfl)
  refine ⟨forall_tasks_of_turn hcode hw.tidy fun c hc => .inl (hnext next hturn c hc).1,
    fun hended => ?_, ?_⟩
  · by_cases hassign : ∃ status byUser rest, code = .setStatus status byUser rest
    · obtain ⟨status, byUser, rest, rfl⟩ := hassign
      obtain rfl := Option.some.inj hturn
      have hend : ended.contains status = true := hended
      intro c hc
      rcases List.mem_append.mp hc with hnew | hold
      · obtain rfl := List.mem_singleton.mp hnew
        rcases hw.tidy _ hown with htidy | ⟨pid, hbrowser⟩
        · simp only [cleansUp, hend, if_true, Bool.and_eq_true, Bool.not_eq_true'] at htidy
          exact htidy.2.2
        · cases hbrowser
      · exact hends hend c hold
    · have hsame := (turn_frame hturn).1 fun status byUser rest h => hassign ⟨status, byUser, rest, h⟩
      have hbefore : w.shared.hasEnded = true := by
        unfold LaunchSession.hasEnded at hended ⊢
        rwa [hsame] at hended
      exact forall_tasks_of_turn hcode (hw.silent hbefore) fun c hc =>
        (hnext next hturn c hc).2 hbefore
  · have honce := hw.once
    rw [sum_tasks hcode pendingCleanups] at honce
    show next.1.cleanups + ((next.2 ++ w.others index).map pendingCleanups).sum =
      if next.1.hasEnded then 1 else 0
    rw [List.map_append, List.sum_append]
    rcases hw.tidy code hown with htidy | ⟨pid, rfl⟩
    · have hturnOnce := turn_once hturn htidy fun hended => hw.silent hended code hown
      omega
    · obtain ⟨hsame, hpending⟩ := browser_turn hturn
      have hbrowser : pendingCleanups (browserRootExited pid) = 0 := rfl
      rw [hsame, hpending]
      omega

theorem inv_step {w t : World} {event : Event} (hw : Inv w) (hok : Undisturbed w event)
    (hstep : step w event = some t) : Inv t := by
  cases event with
  | start handler =>
    obtain rfl := Option.some.inj hstep
    exact inv_start hw handler
  | run index choice =>
    obtain ⟨code, next, hcode, hturn, rfl⟩ := step_run hstep
    exact inv_run hw hok hcode hturn
  | change event => cases event

theorem staysEnded_of_inv {w : World} (hw : Inv w) (event : Event) : StaysEnded w event := by
  intro t hstep hended
  cases event with
  | start handler => obtain rfl := Option.some.inj hstep; rfl
  | run index choice =>
    obtain ⟨code, next, hcode, hturn, rfl⟩ := step_run hstep
    have hquiet := hw.silent hended code ((mem_tasks_iff hcode code).mpr (.inl rfl))
    refine (turn_frame hturn).1 fun status byUser rest h => ?_
    subst h
    cases hquiet
  | change event => cases event

theorem inv_launched (processes : List TrackedProcess) : Inv (launched processes) :=
  ⟨fun _ hcode => (List.not_mem_nil hcode).elim, fun hended => (by cases hended), rfl⟩

/-- In an undisturbed run an ended session keeps its status, and it is cleaned up once. -/
theorem ended_once (processes : List TrackedProcess) (events : List Event)
    (h : Meets step Undisturbed (launched processes) events) :
    Meets step StaysEnded (launched processes) events ∧
      Always step CleanedUpOnce (launched processes) events := by
  have hkept := always_of_meets (fun _ _ _ hw hok hstep => inv_step hw hok hstep)
    (inv_launched processes) h
  exact ⟨meets_of_always (fun w event hw => staysEnded_of_inv hw event) hkept,
    always_mono (fun _ => cleanedUpOnce_of_inv) hkept⟩

theorem ended_once_by_stop :
    Meets step StaysEnded (launched [⟨10, .root, false⟩])
        [.start .monitorDescendants, .start .stop, .run 1 { branch := false }, .run 0 {}, .run 0 {},
          .run 0 {}, .run 0 {}, .run 0 {}, .run 0 {}, .run 0 {}, .run 0 {}, .run 0 {}] ∧
      Always step CleanedUpOnce (launched [⟨10, .root, false⟩])
        [.start .monitorDescendants, .start .stop, .run 1 { branch := false }, .run 0 {}, .run 0 {},
          .run 0 {}, .run 0 {}, .run 0 {}, .run 0 {}, .run 0 {}, .run 0 {}, .run 0 {}] :=
  ended_once _ _ (by decide)

/-- The user stops a session while its correlated search takes the snapshot that leads to an
    automatic attachment. -/
theorem stop_during_search :
    ¬ ∀ (processes : List TrackedProcess) (events : List Event),
      Meets step StaysEnded (launched processes) events ∧
        Always step CleanedUpOnce (launched processes) events := by
  intro h
  have hrun := (h [⟨10, .root, false⟩]
    [.start (.rootExited 10 ⟨20, .descendant, false⟩), .run 0 {}, .run 0 {}, .run 0 {}, .run 0 {},
      .run 0 {}, .run 0 {}, .run 0 {}, .run 0 { branch := false }, .run 0 {},
      .start .stop, .run 0 {}, .run 0 {},
      .run 1 { branch := false }, .run 0 {}, .run 0 {}, .run 0 {}]).1
  revert hrun
  decide

end ProxySwitch.TerminalStatuses
