import ProxySwitch.GraceWindows

set_option autoImplicit false

/-!
# Grace timers

The tasks of `SessionLifecycle` over a clock in milliseconds. Every entry into the grace window
starts a timer of its own, and a timer that is due tests nothing but `Status`. It cannot tell
the entry that started it from a later one, so a session that leaves the window and enters it
again is finalised by the first timer that finds it there.
-/
namespace ProxySwitch.GraceTimers
open SessionLifecycle GraceWindows TaskPools TransitionRuns

/-- `entry` counts the entries into the grace window, and `since` is the time of the last one. -/
structure Clocked where
  session : LaunchSession
  now : ℕ := 0
  entry : ℕ := 0
  since : ℕ := 0
  deriving DecidableEq

/-- `entered` is the last entry that the task itself made, `timer` the one whose delay it is.
    A task that is due at no time waits for ever. -/
structure TimedTask where
  code : Code
  due : Option ℕ := some 0
  entered : ℕ := 0
  timer : Option ℕ := none
  deriving DecidableEq

/-- `Task.Delay(TimeSpan.FromSeconds(graceSeconds))`, which throws outside this range; the task
    catches the exception and ends. -/
def delay (restartGraceSeconds : ℤ) : Option ℕ :=
  if 0 ≤ restartGraceSeconds ∧ restartGraceSeconds * 1000 ≤ 4294967294 then
    some (restartGraceSeconds * 1000).toNat
  else none

def TimedTask.ready (t : TimedTask) (now : ℕ) : Bool := t.due.any fun due => due ≤ now

abbrev World := Pool Clocked TimedTask

def untimed (w : World) : SessionLifecycle.World := ⟨w.shared.session, w.tasks.map TimedTask.code⟩

def Clocked.advance (s : Clocked) (session : LaunchSession) : Clocked :=
  if session.status = .waitingForRestart ∧ s.session.status ≠ .waitingForRestart then
    { s with session := session, entry := s.entry + 1, since := s.now }
  else { s with session := session }

def entersWindow : Code → Bool
  | .setStatus status _ _ => status == .waitingForRestart
  | _ => false

/-- What a turn leaves of the task, or a task it starts; only the grace timer has a delay. -/
def TimedTask.left (restartGraceSeconds : ℤ) (s : Clocked) (t : TimedTask) (code : Code) :
    TimedTask :=
  let entered := if entersWindow t.code then s.entry else t.entered
  if code = graceTimer then
    { code := code
      due := (delay restartGraceSeconds).map (s.now + ·)
      entered := entered
      timer := some entered }
  else { code := code, entered := entered, timer := t.timer }

def turn (restartGraceSeconds : ℤ) (w : World) (t : TimedTask) (choice : Choice) :
    Option (Clocked × List TimedTask) :=
  if t.ready w.shared.now then
    (SessionLifecycle.turn (untimed w) t.code choice).map fun next =>
      let s := w.shared.advance next.1
      (s, next.2.map (t.left restartGraceSeconds s))
  else none

abbrev Event := Label Handler Choice ℕ

def step (restartGraceSeconds : ℤ) : World → Event → Option World :=
  TaskPools.step (fun handler => { code := handler.code }) (turn restartGraceSeconds)
    fun s milliseconds => some { s with now := s.now + milliseconds }

def launched (processes : List TrackedProcess) : World :=
  ⟨{ session := { processes := processes } }, []⟩

/-- A timer that finalises the session ends the session's current stay in the window, which has
    lasted for the whole window, and which is the one the timer was started for. -/
def GraceInFull (restartGraceSeconds : ℤ) (w : World) : Event → Prop
  | .start _ | .change _ => True
  | .run index _ =>
    ∀ t ∈ w.tasks[index]?, ∀ entry ∈ t.timer, finalizesUnasked t.code = true →
      w.shared.session.status = .waitingForRestart ∧ entry = w.shared.entry ∧
        w.shared.since + restartGraceSeconds * 1000 ≤ (w.shared.now : ℤ)

instance (restartGraceSeconds : ℤ) (w : World) :
    (event : Event) → Decidable (GraceInFull restartGraceSeconds w event)
  | .start _ | .change _ => isTrue trivial
  | .run index _ =>
    inferInstanceAs (Decidable (∀ t ∈ w.tasks[index]?, ∀ entry ∈ t.timer,
      finalizesUnasked t.code = true → _))

def assigned : Code → Option Status
  | .setStatus status _ _ => some status
  | _ => none

def TimedTask.decided (t : TimedTask) : Bool := t.timer.isSome && finalizesUnasked t.code

/-- A timer that tests `Status` while the session waits finds the stay it was started for, and no
    task changes `Status` between the test of a timer and its assignment. -/
def TimersCurrent (w : World) : Event → Prop
  | .start _ | .change _ => True
  | .run index _ =>
    ∀ t ∈ w.tasks[index]?,
      (∀ entry ∈ t.timer, t.code = graceTimer → w.shared.session.status = .waitingForRestart →
        entry = w.shared.entry) ∧
      ∀ status ∈ assigned t.code,
        (status = .waitingForRestart → w.shared.session.status ≠ .waitingForRestart) →
        ∀ other ∈ w.others index, other.decided = false

instance (w : World) : (event : Event) → Decidable (TimersCurrent w event)
  | .start _ | .change _ => isTrue trivial
  | .run index _ =>
    inferInstanceAs (Decidable (∀ t ∈ w.tasks[index]?,
      (∀ entry ∈ t.timer, t.code = graceTimer → w.shared.session.status = .waitingForRestart →
        entry = w.shared.entry) ∧
      ∀ status ∈ assigned t.code,
        (status = .waitingForRestart → w.shared.session.status ≠ .waitingForRestart) →
        ∀ other ∈ w.others index, other.decided = false))

theorem untimed_start {r : ℤ} {w t : World} {handler : Handler}
    (h : step r w (.start handler) = some t) :
    SessionLifecycle.step (untimed w) (.start handler) = some (untimed t) := by
  obtain rfl := Option.some.inj h
  rfl

theorem left_code (r : ℤ) (s : Clocked) (t : TimedTask) (code : Code) :
    (t.left r s code).code = code := by
  simp only [TimedTask.left]
  split <;> rfl

theorem advance_session (s : Clocked) (session : LaunchSession) :
    (s.advance session).session = session := by
  simp only [Clocked.advance]
  split <;> rfl

theorem turn_some {r : ℤ} {w : World} {t : TimedTask} {choice : Choice}
    {next : Clocked × List TimedTask} (h : turn r w t choice = some next) :
    t.ready w.shared.now = true ∧
      ∃ session codes, SessionLifecycle.turn (untimed w) t.code choice = some (session, codes) ∧
        next = (w.shared.advance session, codes.map (t.left r (w.shared.advance session))) := by
  simp only [turn] at h
  split at h
  · rename_i hready
    obtain ⟨⟨session, codes⟩, hturn, rfl⟩ := Option.map_eq_some_iff.mp h
    exact ⟨hready, session, codes, hturn, rfl⟩
  · cases h

theorem untimed_run {r : ℤ} {w t : World} {index : ℕ} {choice : Choice}
    (h : step r w (.run index choice) = some t) :
    SessionLifecycle.step (untimed w) (.run index choice) = some (untimed t) := by
  obtain ⟨task, next, htask, hturn, rfl⟩ := step_run h
  obtain ⟨_, session, codes, hcode, rfl⟩ := turn_some hturn
  have hindex : (untimed w).tasks[index]? = some task.code := by
    simp only [untimed, List.getElem?_map, htask, Option.map_some]
  simp only [SessionLifecycle.step, TaskPools.step, hindex, hcode, Option.map_some]
  simp [untimed, Pool.others, advance_session, List.map_append, List.map_take, List.map_drop,
    Function.comp_def, left_code]

/-- The sessions that the timed tasks reach are reached without a clock. -/
theorem untimed_exec {r : ℤ} {w t : World} {events : List Event}
    (h : exec (step r) w events = some t) :
    ∃ labels, exec SessionLifecycle.step (untimed w) labels = some (untimed t) := by
  have hsimulated : ∃ labels u, exec SessionLifecycle.step (untimed w) labels = some u ∧
      u = untimed t := by
    refine exec_of_simulation (R := fun w u => u = untimed w) ?_ rfl h
    rintro w event t _ rfl hstep
    cases event with
    | start handler => exact ⟨[.start handler], _, by simp [untimed_start hstep], rfl⟩
    | run index choice => exact ⟨[.run index choice], _, by simp [untimed_run hstep], rfl⟩
    | change milliseconds =>
      obtain rfl := Option.some.inj hstep
      exact ⟨[], _, rfl, rfl⟩
  obtain ⟨labels, _, hexec, rfl⟩ := hsimulated
  exact ⟨labels, hexec⟩

def timerCodes : List Code := [graceTimer, finalizeAsExited .done, .cleanup .done, .done]

structure Kept (r : ℤ) (s : Clocked) (t : TimedTask) : Prop where
  entered : t.entered ≤ s.entry
  started : ∀ entry ∈ t.timer, entry ≤ s.entry ∧ t.code ∈ timerCodes
  delayed : t.code = graceTimer → ∀ entry ∈ t.timer, entry = s.entry → ∀ due ∈ t.due,
    s.since + r * 1000 ≤ due
  decided : t.decided = true → s.session.status = .waitingForRestart ∧
    t.timer = some s.entry ∧ s.since + r * 1000 ≤ s.now

structure Inv (r : ℤ) (w : World) : Prop where
  clock : w.shared.since ≤ w.shared.now
  tasks : ∀ t ∈ w.tasks, Kept r w.shared t

theorem due_of_ready {t : TimedTask} {now : ℕ} (h : t.ready now = true) :
    ∃ due ∈ t.due, due ≤ now := by
  simp only [TimedTask.ready] at h
  cases hdue : t.due with
  | none => rw [hdue] at h; cases h
  | some due => rw [hdue] at h; exact ⟨due, rfl, of_decide_eq_true h⟩

theorem decided_iff {t : TimedTask} :
    t.decided = true ↔ ∃ entry, t.timer = some entry ∧ finalizesUnasked t.code = true := by
  simp [TimedTask.decided, Option.isSome_iff_exists]

theorem mem_delay {r : ℤ} {milliseconds : ℕ} (h : milliseconds ∈ delay r) :
    (milliseconds : ℤ) = r * 1000 := by
  simp only [delay, Option.mem_def] at h
  split at h
  · obtain rfl := Option.some.inj h
    omega
  · cases h

theorem advance_stays {s : Clocked} {session : LaunchSession}
    (h : session.status = .waitingForRestart → s.session.status = .waitingForRestart) :
    s.advance session = { s with session := session } :=
  if_neg fun hnew => hnew.2 (h hnew.1)

theorem advance_enters {s : Clocked} {session : LaunchSession}
    (h : session.status = .waitingForRestart) (hnot : s.session.status ≠ .waitingForRestart) :
    s.advance session = { s with session := session, entry := s.entry + 1, since := s.now } :=
  if_pos ⟨h, hnot⟩

theorem kept_advance {r : ℤ} {s : Clocked} {session : LaunchSession} {t : TimedTask}
    (ht : Kept r s t) (hwaits : t.decided = true → session.status = .waitingForRestart) :
    Kept r (s.advance session) t := by
  by_cases hstays : session.status = .waitingForRestart → s.session.status = .waitingForRestart
  · rw [advance_stays hstays]
    exact ⟨ht.entered, ht.started, ht.delayed,
      fun hdecided => ⟨hwaits hdecided, (ht.decided hdecided).2⟩⟩
  · obtain ⟨hnow, hnot⟩ := Classical.not_imp.mp hstays
    rw [advance_enters hnow hnot]
    refine ⟨Nat.le_succ_of_le ht.entered, fun entry hentry => ?_, fun _ entry hentry heq => ?_,
      fun hdecided => absurd (ht.decided hdecided).1 hnot⟩
    · exact ⟨Nat.le_succ_of_le (ht.started entry hentry).1, (ht.started entry hentry).2⟩
    · have hold := (ht.started entry hentry).1
      simp only at heq
      omega

theorem clock_advance {s : Clocked} (session : LaunchSession) (h : s.since ≤ s.now) :
    (s.advance session).since ≤ (s.advance session).now := by
  simp only [Clocked.advance]
  split
  · exact Nat.le_refl s.now
  · exact h

theorem entry_advance (s : Clocked) (session : LaunchSession) :
    s.entry ≤ (s.advance session).entry := by
  simp only [Clocked.advance]
  split
  · exact Nat.le_succ s.entry
  · exact Nat.le_refl s.entry

/-- The turns of a timer: it tests `Status`, finalises the session or ends, and starts no task. -/
theorem timer_turn {w : SessionLifecycle.World} {code : Code} {choice : Choice}
    {session : LaunchSession} {codes : List Code} (hcode : code ∈ timerCodes)
    (h : SessionLifecycle.turn w code choice = some (session, codes)) :
    (session.status = .waitingForRestart → w.shared.status = .waitingForRestart) ∧
    ∀ c ∈ codes, c ∈ timerCodes ∧ c ≠ graceTimer ∧
      (finalizesUnasked c = true → code = graceTimer ∧ session.status = .waitingForRestart) := by
  simp only [timerCodes, List.mem_cons, List.not_mem_nil, or_false] at hcode
  rcases hcode with rfl | rfl | rfl | rfl
  · obtain ⟨rfl, rfl⟩ := Prod.mk.inj (Option.some.inj h)
    refine ⟨id, fun c hc => ?_⟩
    rw [List.mem_singleton.mp hc]
    split
    · rename_i hwaiting
      exact ⟨by decide, by decide, fun _ => ⟨rfl, by simpa using hwaiting⟩⟩
    · exact ⟨by decide, by decide, fun hfinal => (by cases hfinal)⟩
  · obtain ⟨rfl, rfl⟩ := Prod.mk.inj (Option.some.inj h)
    refine ⟨fun hwaiting => (by cases hwaiting), fun c hc => ?_⟩
    rw [List.mem_singleton.mp hc]
    exact ⟨by decide, by decide, fun hfinal => (by cases hfinal)⟩
  · obtain ⟨rfl, rfl⟩ := Prod.mk.inj (Option.some.inj h)
    refine ⟨id, fun c hc => ?_⟩
    rw [List.mem_singleton.mp hc]
    exact ⟨by decide, by decide, fun hfinal => (by cases hfinal)⟩
  · obtain ⟨rfl, rfl⟩ := Prod.mk.inj (Option.some.inj h)
    exact ⟨id, fun c hc => (List.not_mem_nil hc).elim⟩

section Turns
variable {r : ℤ} {w : World} {t : TimedTask} {choice : Choice} {session : LaunchSession}
  {codes : List Code}

theorem kept_left_of_task (hw : Inv r w) (ht : Kept r w.shared t) (htimer : t.timer = none)
    (code : Code) :
    Kept r (w.shared.advance session) (t.left r (w.shared.advance session) code) := by
  have hclock := clock_advance session hw.clock
  have hentry := entry_advance w.shared session
  have hentered : (if entersWindow t.code then (w.shared.advance session).entry else t.entered) ≤
      (w.shared.advance session).entry := by
    split
    · exact Nat.le_refl _
    · exact Nat.le_trans ht.entered hentry
  simp only [TimedTask.left]
  split
  · rename_i hcode
    subst hcode
    refine ⟨hentered, ?_, ?_, fun hdecided => (by cases hdecided)⟩
    · rintro entry hstarted
      obtain rfl := Option.some.inj hstarted
      exact ⟨hentered, List.mem_cons_self⟩
    · rintro - entry - - due hdue
      obtain ⟨milliseconds, hdelay, rfl⟩ := Option.map_eq_some_iff.mp hdue
      have := mem_delay hdelay
      push_cast
      omega
  · refine ⟨hentered, ?_, ?_, ?_⟩ <;> simp [TimedTask.decided, htimer]

/-- A timer that goes on to finalise the session was due, so its delay is over. -/
theorem kept_left_of_timer {entry : ℕ} (ht : Kept r w.shared t)
    (htimer : t.timer = some entry) (hready : t.ready w.shared.now = true)
    (hcurrent : t.code = graceTimer → w.shared.session.status = .waitingForRestart →
      entry = w.shared.entry)
    (hturn : SessionLifecycle.turn (untimed w) t.code choice = some (session, codes)) :
    ∀ code ∈ codes, Kept r (w.shared.advance session)
      (t.left r (w.shared.advance session) code) := by
  intro code hcode
  obtain ⟨hstarted, htimerCode⟩ := ht.started entry htimer
  obtain ⟨hstays, hleft⟩ := timer_turn htimerCode hturn
  obtain ⟨hnext, hnot, hfinal⟩ := hleft code hcode
  have hnotEnters : entersWindow t.code = false := by
    simp only [timerCodes, List.mem_cons, List.not_mem_nil, or_false] at htimerCode
    rcases htimerCode with heq | heq | heq | heq <;> rw [heq] <;> rfl
  simp only [TimedTask.left, if_neg hnot, hnotEnters, advance_stays hstays]
  refine ⟨ht.entered, fun n hn => ?_, fun heq => absurd heq hnot, fun hdecided => ?_⟩
  · exact ⟨(ht.started n hn).1, hnext⟩
  · obtain ⟨_, _, hdone⟩ := decided_iff.mp hdecided
    obtain ⟨htest, hwaiting⟩ := hfinal hdone
    have hnow := hcurrent htest (hstays hwaiting)
    obtain ⟨due, hdue, hover⟩ := due_of_ready hready
    have hwindow := ht.delayed htest entry htimer hnow due hdue
    exact ⟨hwaiting, hnow ▸ htimer, by simp only; omega⟩

end Turns

theorem assigned_of_status {w : SessionLifecycle.World} {code : Code} {choice : Choice}
    {session : LaunchSession} {codes : List Code}
    (h : SessionLifecycle.turn w code choice = some (session, codes)) :
    session.status = w.shared.status ∨ assigned code = some session.status := by
  by_cases hassign : ∃ status byUser rest, code = .setStatus status byUser rest
  · obtain ⟨status, byUser, rest, rfl⟩ := hassign
    obtain ⟨rfl, rfl⟩ := Prod.mk.inj (Option.some.inj h)
    exact .inr rfl
  · exact .inl ((turn_frame h).1 fun status byUser rest hcode =>
      hassign ⟨status, byUser, rest, hcode⟩)

theorem inv_run {r : ℤ} {w : World} {index : ℕ} {t : TimedTask} {choice : Choice}
    {next : Clocked × List TimedTask} (hw : Inv r w) (hok : TimersCurrent w (.run index choice))
    (ht : w.tasks[index]? = some t) (hturn : turn r w t choice = some next) :
    Inv r { shared := next.1, tasks := next.2 ++ w.others index } := by
  obtain ⟨hcurrent, hassigns⟩ := hok t ht
  have hkept := hw.tasks t ((mem_tasks_iff ht t).mpr (.inl rfl))
  obtain ⟨hready, session, codes, hcode, rfl⟩ := turn_some hturn
  refine ⟨clock_advance session hw.clock, fun u hu => ?_⟩
  rcases List.mem_append.mp hu with hnew | hother
  · obtain ⟨code, hmem, rfl⟩ := List.mem_map.mp hnew
    cases htimer : t.timer with
    | none => exact kept_left_of_task hw hkept htimer code
    | some entry =>
      exact kept_left_of_timer hkept htimer hready (hcurrent entry htimer) hcode code hmem
  · have hold := hw.tasks u ((mem_tasks_iff ht u).mpr (.inr hother))
    refine kept_advance hold fun hdecided => ?_
    have hwaits := (hold.decided hdecided).1
    rcases assigned_of_status hcode with hsame | hassigned
    · exact hsame.trans hwaits
    · -- a task that changes the status finds no timer between its test and its assignment
      by_contra hchanged
      have hfree := hassigns session.status hassigned (fun h => absurd h hchanged) u hother
      rw [hdecided] at hfree
      cases hfree

theorem inv_step {r : ℤ} {w t : World} {event : Event} (hw : Inv r w)
    (hok : TimersCurrent w event) (hstep : step r w event = some t) : Inv r t := by
  cases event with
  | start handler =>
    obtain rfl := Option.some.inj hstep
    refine ⟨hw.clock, fun u hu => ?_⟩
    rcases List.mem_cons.mp hu with rfl | hold
    · refine ⟨Nat.zero_le _, ?_, ?_, ?_⟩ <;> simp [TimedTask.decided]
    · exact hw.tasks u hold
  | run index choice =>
    obtain ⟨task, next, htask, hturn, rfl⟩ := step_run hstep
    exact inv_run hw hok htask hturn
  | change milliseconds =>
    obtain rfl := Option.some.inj hstep
    refine ⟨Nat.le_add_right_of_le hw.clock, fun u hu => ?_⟩
    have hold := hw.tasks u hu
    refine ⟨hold.entered, hold.started, hold.delayed, fun hdecided => ?_⟩
    obtain ⟨hwaits, htimer, hover⟩ := hold.decided hdecided
    exact ⟨hwaits, htimer, by push_cast; omega⟩

theorem inv_launched (r : ℤ) (processes : List TrackedProcess) : Inv r (launched processes) :=
  ⟨Nat.le_refl 0, fun _ ht => (List.not_mem_nil ht).elim⟩

theorem graceInFull_of_inv {r : ℤ} {w : World} (hw : Inv r w) (event : Event) :
    GraceInFull r w event := by
  cases event with
  | start handler => trivial
  | change milliseconds => trivial
  | run index choice =>
    intro t ht entry htimer hfinal
    have hkept := hw.tasks t ((mem_tasks_iff ht t).mpr (.inl rfl))
    obtain ⟨hwaits, hcurrent, hover⟩ := hkept.decided (decided_iff.mpr ⟨entry, htimer, hfinal⟩)
    exact ⟨hwaits, Option.some.inj (htimer.symm.trans hcurrent), hover⟩

/-- Timers that test the stay they were started for grant the window in full, over every run. -/
theorem meets_graceInFull (restartGraceSeconds : ℤ) (processes : List TrackedProcess)
    (events : List Event)
    (h : Meets (step restartGraceSeconds) TimersCurrent (launched processes) events) :
    Meets (step restartGraceSeconds) (GraceInFull restartGraceSeconds) (launched processes)
      events :=
  meets_of_meets (fun _ _ _ hw hok hstep => inv_step hw hok hstep)
    (fun _ event hw _ => graceInFull_of_inv hw event) (inv_launched restartGraceSeconds processes) h

/-- The root exits, a process reattaches after 20 s, the first timer finds the session running,
    the process exits, and the second timer grants it another 20 s. -/
theorem meets_graceInFull_twice :
    Meets (step 20) (GraceInFull 20) (launched [⟨10, .root, false⟩])
      [.start (.attachedRootExited 10), .run 0 {}, .run 0 {}, .run 0 {}, .run 0 { branch := false },
        .run 0 {}, .run 0 {}, .change 20000,
        .start (.processStarted ⟨20, .descendant, false⟩), .run 0 {}, .run 0 {},
        .run 0 { branch := false }, .run 0 {}, .run 0 {}, .run 0 {}, .run 0 {}, .run 0 {},
        .run 0 {}, .run 0 {}, .run 0 {}, .run 3 {},
        .run 2 {}, .run 0 {}, .run 0 {}, .run 0 { branch := false }, .run 0 {}, .run 0 {},
        .change 20000, .run 1 {}, .run 0 {}, .run 0 {}] :=
  meets_graceInFull 20 _ _ (by decide)

/-- The process reattaches after 15 s and exits at once; 5 s later the first timer ends the
    second stay in the window. -/
theorem earlier_timer_finalizes :
    ¬ ∀ (restartGraceSeconds : ℤ) (processes : List TrackedProcess) (events : List Event),
      Meets (step restartGraceSeconds) (GraceInFull restartGraceSeconds) (launched processes)
        events := by
  intro h
  have hrun := h 20 [⟨10, .root, false⟩]
    [.start (.attachedRootExited 10), .run 0 {}, .run 0 {}, .run 0 {}, .run 0 { branch := false },
      .run 0 {}, .run 0 {}, .change 15000,
      .start (.processStarted ⟨20, .descendant, false⟩), .run 0 {}, .run 0 {},
      .run 0 { branch := false }, .run 0 {}, .run 0 {}, .run 0 {}, .run 0 {}, .run 0 {}, .run 0 {},
      .run 0 {}, .run 0 {},
      .run 1 {}, .run 0 {}, .run 0 {}, .run 0 { branch := false }, .run 0 {}, .run 0 {},
      .change 5000, .run 4 {}, .run 0 {}]
  revert hrun
  decide

end ProxySwitch.GraceTimers
