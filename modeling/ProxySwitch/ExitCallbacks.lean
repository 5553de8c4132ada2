import Mathlib.Data.List.Nodup
import ProxySwitch.FormsTimers
import ProxySwitch.KeyedLists
import ProxySwitch.RuntimeStrings
import ProxySwitch.TransitionRuns

set_option autoImplicit false

namespace ProxySwitch.ExitCallbacks
open FormsTimers KeyedLists RuntimeStrings TransitionRuns

/-- What one call of `TrackPid` registers: `process` is the one that the PID has at the call, by
    its place among all that had the PID. -/
structure Callback where
  number : ℕ
  session : ℕ
  process : ℕ
  deriving DecidableEq

abbrev Entry := ℕ × Callback

/-- `exited` are the callbacks that `OnTick` has taken out of `_tracked` and has yet to call. The
    entry of a profile directory is the session whose callback it is. -/
structure ProcessMonitor where
  tracked : List Entry := []
  browserTrackers : List (Text × ℕ) := []
  timer : Timer := {}
  exited : List Entry := []

namespace ProcessMonitor
variable (m : ProcessMonitor)

/-- The lock blocks of `TrackPid` and `TrackBrowser`. -/
def trackPid (pid : ℕ) (onExited : Callback) : ProcessMonitor :=
  { m with tracked := setKey pid onExited m.tracked }

def trackBrowser (userDataDir : Text) (onChanged : ℕ) : ProcessMonitor :=
  { m with browserTrackers := setKey userDataDir onChanged m.browserTrackers }

def ensureTimer (pumps : Bool) : ProcessMonitor := { m with timer := m.timer.ensureStarted pumps }

def stopTrackingBrowser (userDataDir : Text) : ProcessMonitor :=
  { m with browserTrackers := dropKey userDataDir m.browserTrackers }

def untrackPid (pid : ℕ) : ProcessMonitor := { m with tracked := dropKey pid m.tracked }

/-- The lock block of `OnTick`. -/
def collect (isAlive : ℕ → Bool) : ProcessMonitor :=
  { m with
    tracked := m.tracked.filter fun e => isAlive e.1
    exited := m.exited ++ m.tracked.filter fun e => !isAlive e.1 }

def callNext (e : Entry) : ProcessMonitor := { m with exited := m.exited.erase e }

def stopTimer : ProcessMonitor := { m with timer := m.timer.stop }

def Idle : Prop := m.tracked = [] ∧ m.browserTrackers = []

instance : Decidable m.Idle := inferInstanceAs (Decidable (_ ∧ _))

end ProcessMonitor

/-- The end of `OnTick` takes no lock: it tests one table, then the other, and stops. -/
inductive TickEnd
  | testTracked
  | testBrowsers
  | stop
  deriving DecidableEq

/-- The monitor, the calls that have left their lock block and come to the timer next (by whether
    their thread pumps messages), where the ticks under way stand, the processes (`processes`
    counts those that had a PID) and what was registered, taken back by the session that had
    registered it, found dead by a tick, and called. -/
structure World where
  monitor : ProcessMonitor
  starting : List Bool
  ending : List TickEnd
  alive : ℕ → Bool
  processes : ℕ → ℕ
  registered : List Entry
  withdrawn : List Entry
  due : List Entry
  called : List Entry
  watching : List (Text × ℕ)

/-- `pumps` says whether the thread of a call pumps messages. -/
inductive Event
  | trackPid (session pid : ℕ) (pumps : Bool)
  | untrackPid (session pid : ℕ)
  | trackBrowser (session : ℕ) (userDataDir : Text) (pumps : Bool)
  | stopTrackingBrowser (session : ℕ) (userDataDir : Text)
  | ensureTimer (pumps : Bool)
  | start (pid : ℕ)
  | exit (pid : ℕ)
  | tick
  | call (e : Entry)
  | tickEnds (stage : TickEnd)

namespace World
variable (w : World)

def isDead (e : Entry) : Bool := e.2.process != w.processes e.1 || !w.alive e.1

def entry (session pid : ℕ) : Entry := (pid, ⟨w.registered.length, session, w.processes pid⟩)

def tickEnds : TickEnd → World
  | .testTracked =>
    let rest := w.ending.erase .testTracked
    { w with ending := if w.monitor.tracked = [] then .testBrowsers :: rest else rest }
  | .testBrowsers =>
    let rest := w.ending.erase .testBrowsers
    { w with ending := if w.monitor.browserTrackers = [] then .stop :: rest else rest }
  | .stop => { w with monitor := w.monitor.stopTimer, ending := w.ending.erase .stop }

end World

def step (w : World) : Event → Option World
  | .trackPid session pid pumps =>
    some
      { w with
        monitor := w.monitor.trackPid pid (w.entry session pid).2
        starting := pumps :: w.starting
        registered := w.registered ++ [w.entry session pid] }
  | .untrackPid session pid =>
    some
      { w with
        monitor := w.monitor.untrackPid pid
        withdrawn := w.withdrawn ++ w.registered.filter fun e => e.1 == pid && e.2.session == session }
  | .trackBrowser session userDataDir pumps =>
    some
      { w with
        monitor := w.monitor.trackBrowser userDataDir session
        starting := pumps :: w.starting
        watching := (userDataDir, session) :: w.watching }
  | .stopTrackingBrowser session userDataDir =>
    some
      { w with
        monitor := w.monitor.stopTrackingBrowser userDataDir
        watching := w.watching.filter (· ≠ (userDataDir, session)) }
  | .ensureTimer pumps =>
    if pumps ∈ w.starting then
      some { w with monitor := w.monitor.ensureTimer pumps, starting := w.starting.erase pumps }
    else none
  | .start pid =>
    if w.alive pid then none
    else some
      { w with
        alive := Function.update w.alive pid true
        processes := Function.update w.processes pid (w.processes pid + 1) }
  | .exit pid => some { w with alive := Function.update w.alive pid false }
  | .tick =>
    if w.monitor.timer.ticks then
      some
        { w with
          monitor := w.monitor.collect w.alive
          ending := .testTracked :: w.ending
          due := w.registered.filter w.isDead }
    else none
  | .call e =>
    if e ∈ w.monitor.exited then
      some { w with monitor := w.monitor.callNext e, called := e :: w.called }
    else none
  | .tickEnds stage => if stage ∈ w.ending then some (w.tickEnds stage) else none

def start (alive : ℕ → Bool) : World where
  monitor := {}
  starting := []
  ending := []
  alive := alive
  processes _ := 0
  registered := []
  withdrawn := []
  due := []
  called := []
  watching := []

/-- What `OnTick` has taken to call, called or not. -/
def World.fired (w : World) : List Entry := w.monitor.exited ++ w.called

/-- A callback that its own session has not taken back waits in `_tracked` until a tick finds its
    process dead; from then on it is called, and no callback is called twice or early. A session
    that watches a profile directory has the entry for it. The timer ticks as long as anything is
    registered, once the calls that register have come to it. -/
structure NoneLost (w : World) : Prop where
  waits : ∀ e ∈ w.registered, e ∉ w.withdrawn → e ∉ w.due → e ∈ w.monitor.tracked
  fires : ∀ e ∈ w.registered, e ∉ w.withdrawn → e ∈ w.due → e ∈ w.fired
  once : w.fired.Nodup
  early : ∀ e ∈ w.fired, e ∈ w.due
  polled : w.starting = [] → ¬ w.monitor.Idle → w.monitor.timer.ticks = true
  watched : ∀ b ∈ w.watching, b ∈ w.monitor.browserTrackers

/-- A PID is registered only while it has no entry, an entry is replaced or removed only by the
    session that it belongs to, and by no tick has a tracked PID passed on to another process. The
    last call to come to the timer finds it started by a thread that pumps messages, or starts it
    on one; and it is stopped only while nothing is registered, or a call has yet to come to it. -/
def KeepsAll (w : World) : Event → Prop
  | .trackPid _ pid _ => ∀ e ∈ w.monitor.tracked, e.1 ≠ pid
  | .untrackPid session pid => ∀ e ∈ w.monitor.tracked, e.1 = pid → e.2.session = session
  | .trackBrowser session userDataDir _ | .stopTrackingBrowser session userDataDir =>
    ∀ b ∈ w.monitor.browserTrackers, b.1 = userDataDir → b.2 = session
  | .ensureTimer pumps => w.starting.erase pumps = [] → ¬ w.monitor.Idle →
    (if w.monitor.timer.enabled then w.monitor.timer.pumped else pumps) = true
  | .tickEnds .stop => w.starting = [] → w.monitor.Idle
  | .tick => ∀ e ∈ w.monitor.tracked, w.isDead e = true → w.alive e.1 = false
  | _ => True

section Steps
variable {w v : World} {event : Event} {e : Entry}

/-- What holds whatever is registered and taken back: every registration has its own number, an
    entry of `_tracked` is one that stands and has not fired, and a process that is gone stays so. -/
structure Wf (w : World) : Prop where
  numbers : w.registered.map (·.2.number) = List.range w.registered.length
  processes : ∀ e ∈ w.registered, e.2.process ≤ w.processes e.1
  tracked : w.monitor.tracked ⊆ w.registered
  withdrawn : w.withdrawn ⊆ w.registered
  stands : ∀ e ∈ w.monitor.tracked, e ∉ w.withdrawn
  fired : w.fired ⊆ w.due
  due : ∀ e ∈ w.due, e ∈ w.registered ∧ w.isDead e = true
  distinct : (w.monitor.tracked ++ w.fired).Nodup
  browsers : w.monitor.browserTrackers ⊆ w.watching

theorem number_lt (hw : Wf w) (he : e ∈ w.registered) : e.2.number < w.registered.length := by
  rw [← List.mem_range, ← hw.numbers]
  exact List.mem_map_of_mem he

theorem entry_not_mem (hw : Wf w) (session pid : ℕ) : w.entry session pid ∉ w.registered :=
  fun hin => lt_irrefl _ (number_lt hw hin)

theorem isDead_start {pid : ℕ} (hw : Wf w) (he : e ∈ w.registered) (hdead : w.isDead e = true)
    (hv : step w (.start pid) = some v) : v.isDead e = true := by
  obtain ⟨-, hv⟩ := Option.ite_none_left_eq_some.mp hv
  cases hv
  have hle := hw.processes e he
  simp only [World.isDead, Bool.or_eq_true, bne_iff_ne] at hdead ⊢
  by_cases hpid : e.1 = pid
  · refine .inl ?_
    rw [← hpid, Function.update_self]
    omega
  · rw [Function.update_of_ne hpid, Function.update_of_ne hpid]
    exact hdead

theorem isDead_exit {pid : ℕ} (hdead : w.isDead e = true) (hv : step w (.exit pid) = some v) :
    v.isDead e = true := by
  cases hv
  simp only [World.isDead, Bool.or_eq_true] at hdead ⊢
  refine hdead.imp_right fun hgone => ?_
  by_cases hpid : e.1 = pid
  · rw [← hpid, Function.update_self]
    rfl
  · rw [Function.update_of_ne hpid]
    exact hgone

theorem fired_collect (w : World) (e : Entry) :
    e ∈ (w.monitor.collect w.alive).exited ++ w.called ↔
      e ∈ w.fired ∨ e ∈ w.monitor.tracked ∧ w.alive e.1 = false := by
  simp [ProcessMonitor.collect, World.fired, or_assoc, or_comm]

theorem distinct_collect (hw : Wf w) :
    ((w.monitor.collect w.alive).tracked ++
      ((w.monitor.collect w.alive).exited ++ w.called)).Nodup := by
  have hsplit := List.filter_append_perm (fun e : Entry => w.alive e.1) w.monitor.tracked
  refine ((hsplit.append_right w.fired).symm.trans ?_).nodup_iff.mp hw.distinct
  rw [List.append_assoc]
  refine List.Perm.append_left _ ?_
  rw [World.fired, ← List.append_assoc]
  exact List.perm_append_comm.append_right _

theorem idle_of_sublist {m m' : ProcessMonitor} (htracked : m'.tracked.Sublist m.tracked)
    (hbrowsers : m'.browserTrackers.Sublist m.browserTrackers) (h : m.Idle) : m'.Idle :=
  ⟨List.sublist_nil.mp (h.1 ▸ htracked), List.sublist_nil.mp (h.2 ▸ hbrowsers)⟩

theorem fired_callNext (he : e ∈ w.monitor.exited) :
    (w.monitor.exited.erase e ++ e :: w.called).Perm w.fired :=
  List.perm_middle.trans ((List.perm_cons_erase he).symm.append_right w.called)

theorem mem_registered_of_fired (hw : Wf w) (he : e ∈ w.fired) : e ∈ w.registered :=
  (hw.due e (hw.fired he)).1

theorem not_mem_fired_of_tracked (hw : Wf w) (he : e ∈ w.monitor.tracked) : e ∉ w.fired :=
  fun hfired => List.disjoint_of_nodup_append hw.distinct he hfired

theorem wf_trackPid (hw : Wf w) {session pid : ℕ} {pumps : Bool}
    (h : step w (.trackPid session pid pumps) = some v) : Wf v := by
  cases h
  have hfresh := entry_not_mem hw session pid
  have hsub : ∀ e ∈ setKey pid (w.entry session pid).2 w.monitor.tracked,
      e = w.entry session pid ∨ e ∈ w.monitor.tracked :=
    fun e he => (mem_setKey.mp he).imp id And.left
  refine
    { hw with
      numbers := ?_
      processes := ?_
      tracked := fun e he => ?_
      withdrawn := fun e he => List.mem_append_left _ (hw.withdrawn he)
      stands := fun e he => ?_
      due := fun e he => ?_
      distinct := ?_ }
  · rw [List.map_append, List.length_append, hw.numbers]
    exact List.range_succ.symm
  · intro e he
    obtain hold | hnew := List.mem_append.mp he
    · exact hw.processes e hold
    · rw [List.mem_singleton.mp hnew]
      exact le_refl _
  · obtain rfl | hold := hsub e he
    · exact List.mem_append_right _ (List.mem_singleton.mpr rfl)
    · exact List.mem_append_left _ (hw.tracked hold)
  · obtain rfl | hold := hsub e he
    · exact fun hback => hfresh (hw.withdrawn hback)
    · exact hw.stands e hold
  · exact ⟨List.mem_append_left _ (hw.due e he).1, (hw.due e he).2⟩
  · refine List.nodup_cons.mpr ⟨fun hin => ?_, ?_⟩
    · obtain hold | hfired := List.mem_append.mp hin
      · exact (mem_dropKey.mp hold).2 rfl
      · exact hfresh (mem_registered_of_fired hw hfired)
    · exact hw.distinct.sublist (List.filter_sublist.append_right _)

theorem wf_step (hw : Wf w) (h : step w event = some v) : Wf v := by
  cases event with
  | trackPid session pid pumps => exact wf_trackPid hw h
  | untrackPid session pid =>
    cases h
    refine
      { hw with
        tracked := fun e he => hw.tracked (mem_dropKey.mp he).1
        withdrawn := List.append_subset.mpr ⟨hw.withdrawn, List.filter_subset_self _⟩
        stands := fun e he => ?_
        distinct := hw.distinct.sublist (List.filter_sublist.append_right _) }
    obtain ⟨hold, hpid⟩ := mem_dropKey.mp he
    rw [List.mem_append, not_or]
    refine ⟨hw.stands e hold, fun hmine => hpid ?_⟩
    have htest := (List.mem_filter.mp hmine).2
    rw [Bool.and_eq_true] at htest
    exact eq_of_beq htest.1
  | trackBrowser session userDataDir pumps =>
    cases h
    refine { hw with browsers := fun b hb => ?_ }
    obtain rfl | ⟨hold, -⟩ := mem_setKey.mp hb
    · exact List.mem_cons_self
    · exact List.mem_cons_of_mem _ (hw.browsers hold)
  | stopTrackingBrowser session userDataDir =>
    cases h
    refine { hw with browsers := fun b hb => ?_ }
    obtain ⟨hold, hdir⟩ := mem_dropKey.mp hb
    refine List.mem_filter.mpr ⟨hw.browsers hold, decide_eq_true fun heq => hdir ?_⟩
    rw [heq]
  | ensureTimer pumps =>
    obtain ⟨-, h⟩ := Option.ite_none_right_eq_some.mp h
    cases h
    exact { hw with }
  | start pid =>
    have hdead : ∀ e ∈ w.due, v.isDead e = true :=
      fun e he => isDead_start hw (hw.due e he).1 (hw.due e he).2 h
    obtain ⟨-, h⟩ := Option.ite_none_left_eq_some.mp h
    cases h
    refine { hw with processes := fun e he => ?_, due := fun e he => ⟨(hw.due e he).1, hdead e he⟩ }
    have hle := hw.processes e he
    by_cases hpid : e.1 = pid
    · refine (hle.trans (Nat.le_succ _)).trans (le_of_eq ?_)
      rw [hpid]
      exact (Function.update_self pid _ w.processes).symm
    · exact hle.trans (le_of_eq (Function.update_of_ne hpid _ w.processes).symm)
  | exit pid =>
    have hdead : ∀ e ∈ w.due, v.isDead e = true := fun e he => isDead_exit (hw.due e he).2 h
    cases h
    exact { hw with due := fun e he => ⟨(hw.due e he).1, hdead e he⟩ }
  | tick =>
    obtain ⟨-, h⟩ := Option.ite_none_right_eq_some.mp h
    cases h
    refine
      { hw with
        tracked := fun e he => hw.tracked (List.mem_filter.mp he).1
        stands := fun e he => hw.stands e (List.mem_filter.mp he).1
        fired := fun e he => ?_
        due := fun e he => List.mem_filter.mp he
        distinct := distinct_collect hw }
    obtain hold | ⟨htracked, hgone⟩ := (fired_collect w e).mp he
    · exact List.mem_filter.mpr (hw.due e (hw.fired hold))
    · refine List.mem_filter.mpr ⟨hw.tracked htracked, ?_⟩
      rw [World.isDead, hgone, Bool.not_false, Bool.or_true]
  | call e =>
    obtain ⟨hin, h⟩ := Option.ite_none_right_eq_some.mp h
    cases h
    exact
      { hw with
        fired := fun x hx => hw.fired ((fired_callNext hin).mem_iff.mp hx)
        distinct := ((fired_callNext hin).append_left _).nodup_iff.mpr hw.distinct }
  | tickEnds stage =>
    obtain ⟨-, h⟩ := Option.ite_none_right_eq_some.mp h
    cases h
    cases stage <;> exact { hw with }

/-- The rest of `NoneLost` holds anyway. -/
theorem noneLost_of_wf (hw : Wf w)
    (hwaits : ∀ e ∈ w.registered, e ∉ w.withdrawn → e ∉ w.due → e ∈ w.monitor.tracked)
    (hfires : ∀ e ∈ w.registered, e ∉ w.withdrawn → e ∈ w.due → e ∈ w.fired)
    (hpolled : w.starting = [] → ¬ w.monitor.Idle → w.monitor.timer.ticks = true)
    (hwatched : ∀ b ∈ w.watching, b ∈ w.monitor.browserTrackers) : NoneLost w :=
  ⟨hwaits, hfires, (List.nodup_append.mp hw.distinct).2.1, fun _ he => hw.fired he, hpolled,
    hwatched⟩

theorem tracked_needed (hw : Wf w) (hnone : NoneLost w) (he : e ∈ w.monitor.tracked) :
    e ∈ w.registered ∧ e ∉ w.withdrawn ∧ e ∉ w.due := by
  refine ⟨hw.tracked he, hw.stands e he, fun hdue => ?_⟩
  exact not_mem_fired_of_tracked hw he (hnone.fires e (hw.tracked he) (hw.stands e he) hdue)

theorem noneLost_trackPid (hw : Wf w) (hnone : NoneLost w) {session pid : ℕ} {pumps : Bool}
    (h : step w (.trackPid session pid pumps) = some v) :
    NoneLost v ↔ ∀ e ∈ w.monitor.tracked, e.1 ≠ pid := by
  have hv := wf_step hw h
  cases h
  constructor
  · intro hafter e he hpid
    obtain ⟨hregistered, hstands, hdue⟩ := tracked_needed hw hnone he
    obtain hnew | ⟨-, hne⟩ :=
      mem_setKey.mp (hafter.waits e (List.mem_append_left _ hregistered) hstands hdue)
    · rw [hnew] at hregistered
      exact entry_not_mem hw session pid hregistered
    · exact hne hpid
  · intro hfree
    refine noneLost_of_wf hv (fun e he hstands hdue => ?_) (fun e he hstands hdue => ?_)
      (fun hnobody => by cases hnobody) hnone.watched
    · obtain hold | hnew := List.mem_append.mp he
      · have htracked := hnone.waits e hold hstands hdue
        exact mem_setKey.mpr (.inr ⟨htracked, hfree e htracked⟩)
      · exact mem_setKey.mpr (.inl (List.mem_singleton.mp hnew))
    · exact hnone.fires e (hw.due e hdue).1 hstands hdue

theorem noneLost_untrackPid (hw : Wf w) (hnone : NoneLost w) {session pid : ℕ}
    (h : step w (.untrackPid session pid) = some v) :
    NoneLost v ↔ ∀ e ∈ w.monitor.tracked, e.1 = pid → e.2.session = session := by
  have hv := wf_step hw h
  cases h
  have hback : ∀ e, e ∉ w.withdrawn ++ w.registered.filter (fun e => e.1 == pid &&
      e.2.session == session) → e ∉ w.withdrawn :=
    fun e hstands hold => hstands (List.mem_append_left _ hold)
  constructor
  · intro hafter e he hpid
    by_contra hother
    obtain ⟨hregistered, hstands, hdue⟩ := tracked_needed hw hnone he
    refine (mem_dropKey.mp (hafter.waits e hregistered ?_ hdue)).2 hpid
    simp [hstands, hother]
  · intro hmine
    refine noneLost_of_wf hv (fun e he hstands hdue => ?_)
      (fun e he hstands hdue => hnone.fires e he (hback e hstands) hdue)
      (fun hnobody hbusy => hnone.polled hnobody fun hidle => hbusy ?_) hnone.watched
    · have htracked := hnone.waits e he (hback e hstands) hdue
      refine mem_dropKey.mpr ⟨htracked, fun hpid => hstands (List.mem_append_right _ ?_)⟩
      simp [he, hpid, hmine e htracked hpid]
    · exact idle_of_sublist (m := w.monitor) List.filter_sublist (List.Sublist.refl _) hidle

theorem noneLost_trackBrowser (hw : Wf w) (hnone : NoneLost w) {session : ℕ} {userDataDir : Text}
    {pumps : Bool} (h : step w (.trackBrowser session userDataDir pumps) = some v) :
    NoneLost v ↔ ∀ b ∈ w.monitor.browserTrackers, b.1 = userDataDir → b.2 = session := by
  have hv := wf_step hw h
  cases h
  constructor
  · intro hafter b hb hdir
    obtain hnew | ⟨-, hne⟩ :=
      mem_setKey.mp (hafter.watched b (List.mem_cons_of_mem _ (hw.browsers hb)))
    · rw [hnew]
    · exact absurd hdir hne
  · intro hmine
    refine noneLost_of_wf hv hnone.waits hnone.fires (fun hnobody => by cases hnobody)
      fun b hb => mem_setKey.mpr ?_
    obtain hnew | hold := List.mem_cons.mp hb
    · exact .inl hnew
    · have hplace := hnone.watched b hold
      by_cases hdir : b.1 = userDataDir
      · exact .inl (Prod.ext hdir (hmine b hplace hdir))
      · exact .inr ⟨hplace, hdir⟩

theorem noneLost_stopTrackingBrowser (hw : Wf w) (hnone : NoneLost w) {session : ℕ}
    {userDataDir : Text} (h : step w (.stopTrackingBrowser session userDataDir) = some v) :
    NoneLost v ↔ ∀ b ∈ w.monitor.browserTrackers, b.1 = userDataDir → b.2 = session := by
  have hv := wf_step hw h
  cases h
  constructor
  · intro hafter b hb hdir
    by_contra hother
    have hwatching : b ∈ w.watching.filter (· ≠ (userDataDir, session)) :=
      List.mem_filter.mpr ⟨hw.browsers hb, decide_eq_true fun heq => hother (by rw [heq])⟩
    exact (mem_dropKey.mp (hafter.watched b hwatching)).2 hdir
  · intro hmine
    refine noneLost_of_wf hv hnone.waits hnone.fires
      (fun hnobody hbusy => hnone.polled hnobody fun hidle => hbusy ?_) fun b hb => ?_
    · exact idle_of_sublist (m := w.monitor) (List.Sublist.refl _) List.filter_sublist hidle
    obtain ⟨hold, hne⟩ := List.mem_filter.mp hb
    have hplace := hnone.watched b hold
    refine mem_dropKey.mpr ⟨hplace, fun hdir => of_decide_eq_true hne ?_⟩
    exact Prod.ext hdir (hmine b hplace hdir)

theorem noneLost_tick (hw : Wf w) (hnone : NoneLost w) (h : step w .tick = some v) :
    NoneLost v ↔ ∀ e ∈ w.monitor.tracked, w.isDead e = true → w.alive e.1 = false := by
  have hv := wf_step hw h
  obtain ⟨hticks, h⟩ := Option.ite_none_right_eq_some.mp h
  cases h
  constructor
  · intro hafter e he hdead
    obtain ⟨hregistered, hstands, -⟩ := tracked_needed hw hnone he
    have hfires := hafter.fires e hregistered hstands (List.mem_filter.mpr ⟨hregistered, hdead⟩)
    obtain hold | ⟨-, hgone⟩ := (fired_collect w e).mp hfires
    · exact absurd hold (not_mem_fired_of_tracked hw he)
    · exact hgone
  · intro hgone
    refine noneLost_of_wf hv (fun e he hstands hdue => ?_) (fun e he hstands hdue => ?_)
      (fun _ _ => hticks) hnone.watched
    · have hlives : w.isDead e = false := by
        refine eq_false_of_ne_true fun hdead => hdue (List.mem_filter.mpr ⟨he, hdead⟩)
      have htracked := hnone.waits e he hstands fun hold => by
        rw [(hw.due e hold).2] at hlives
        cases hlives
      refine List.mem_filter.mpr ⟨htracked, ?_⟩
      simp only [World.isDead, Bool.or_eq_false_iff, Bool.not_eq_false'] at hlives
      exact hlives.2
    · refine (fired_collect w e).mpr ?_
      by_cases hold : e ∈ w.due
      · exact .inl (hnone.fires e he hstands hold)
      · have htracked := hnone.waits e he hstands hold
        exact .inr ⟨htracked, hgone e htracked (List.mem_filter.mp hdue).2⟩

theorem noneLost_ensureTimer (hw : Wf w) (hnone : NoneLost w) {pumps : Bool}
    (h : step w (.ensureTimer pumps) = some v) :
    NoneLost v ↔ (w.starting.erase pumps = [] → ¬ w.monitor.Idle →
      (if w.monitor.timer.enabled then w.monitor.timer.pumped else pumps) = true) := by
  have hv := wf_step hw h
  obtain ⟨-, h⟩ := Option.ite_none_right_eq_some.mp h
  cases h
  rw [← ticks_ensureStarted]
  constructor
  · exact fun hafter => hafter.polled
  · exact fun hpolled => noneLost_of_wf hv hnone.waits hnone.fires hpolled hnone.watched

theorem noneLost_tickEnds (hw : Wf w) (hnone : NoneLost w) {stage : TickEnd}
    (h : step w (.tickEnds stage) = some v) : NoneLost v ↔ KeepsAll w (.tickEnds stage) := by
  have hv := wf_step hw h
  obtain ⟨-, h⟩ := Option.ite_none_right_eq_some.mp h
  cases h
  cases stage with
  | testTracked | testBrowsers =>
    exact iff_of_true (noneLost_of_wf hv hnone.waits hnone.fires hnone.polled hnone.watched) trivial
  | stop =>
    constructor
    · intro hafter hnobody
      by_contra hbusy
      have hticks := hafter.polled hnobody hbusy
      cases hticks
    · intro hidle
      exact noneLost_of_wf hv hnone.waits hnone.fires
        (fun hnobody hbusy => absurd (hidle hnobody) hbusy) hnone.watched

/-- One step loses no callback precisely when it leaves the entries of other sessions alone, finds
    no PID passed on and leaves the timer ticking. -/
theorem noneLost_step (hw : Wf w) (hnone : NoneLost w) (h : step w event = some v) :
    NoneLost v ↔ KeepsAll w event := by
  have hv := wf_step hw h
  cases event with
  | trackPid session pid pumps => exact noneLost_trackPid hw hnone h
  | untrackPid session pid => exact noneLost_untrackPid hw hnone h
  | trackBrowser session userDataDir pumps => exact noneLost_trackBrowser hw hnone h
  | stopTrackingBrowser session userDataDir => exact noneLost_stopTrackingBrowser hw hnone h
  | ensureTimer pumps => exact noneLost_ensureTimer hw hnone h
  | tick => exact noneLost_tick hw hnone h
  | tickEnds stage => exact noneLost_tickEnds hw hnone h
  | start pid =>
    obtain ⟨-, h⟩ := Option.ite_none_left_eq_some.mp h
    cases h
    exact iff_of_true (noneLost_of_wf hv hnone.waits hnone.fires hnone.polled hnone.watched) trivial
  | exit pid =>
    cases h
    exact iff_of_true (noneLost_of_wf hv hnone.waits hnone.fires hnone.polled hnone.watched) trivial
  | call e =>
    obtain ⟨hin, h⟩ := Option.ite_none_right_eq_some.mp h
    cases h
    refine iff_of_true (noneLost_of_wf hv hnone.waits (fun x hx hstands hdue => ?_)
      hnone.polled hnone.watched) trivial
    exact (fired_callNext hin).mem_iff.mpr (hnone.fires x hx hstands hdue)

end Steps

/-- Along a run no callback is lost and none is called twice precisely when every step leaves the
    entries of other sessions alone, no tracked PID passes on before a tick, and the timer ticks
    for what is registered. -/
theorem always_noneLost_iff (alive : ℕ → Bool) (events : List Event) :
    Always step NoneLost (start alive) events ↔ Meets step KeepsAll (start alive) events := by
  have hstart : Wf (start alive) :=
    ⟨rfl, nofun, List.nil_subset _, List.nil_subset _, nofun, List.nil_subset _, nofun,
      List.nodup_nil, List.nil_subset _⟩
  exact always_iff_meets (fun _ _ _ hw h => wf_step hw h)
    (fun _ _ _ hw hnone h => noneLost_step hw hnone h) events hstart
    (noneLost_of_wf hstart nofun nofun (fun _ hbusy => absurd ⟨rfl, rfl⟩ hbusy) nofun)

/-- `LaunchBrowser` finds the profile's browser running and hands its PID to a second session. -/
theorem reused_browser_loses_callback :
    ¬∀ (alive : ℕ → Bool) (events : List Event), Always step NoneLost (start alive) events := by
  intro h
  have hlast := (always_iff_reached _ _).mp (h (· == 7) [.trackPid 0 7 true, .trackPid 1 7 true])
    [.trackPid 0 7 true, .trackPid 1 7 true] [] _ (List.append_nil _).symm rfl
  have hwaits := hlast.waits (7, ⟨0, 0, 0⟩) (by decide) (by decide) (by decide)
  revert hwaits
  decide

end ProxySwitch.ExitCallbacks
