import ProxySwitch.SessionLifecycle
import ProxySwitch.TransitionRuns

set_option autoImplicit false

/-!
# The watcher of the session supervisor

`RefreshWatcherState` runs once for every `SessionsChanged`, on the thread that raises it. It takes
the list of the sessions, asks one after the other for its status, and starts or stops the watcher
under a lock; meanwhile sessions change, and other refreshes run.
-/
namespace ProxySwitch.SupervisedWatcher
open SessionLifecycle (Status ended)
open TransitionRuns

def isActive (status : Status) : Bool :=
  [.starting, .running, .runningViaChild, .runningViaCorrelated, .waitingForRestart].contains status

/-- Where `Status` is assigned. Every place raises `SessionsChanged` afterwards; what is asked
    before may have changed again when the assignment is made. -/
inductive StatusWrite
  | browserExited
  | rootExited (hasLive : Bool)
  | processExited
  | correlatedAttached
  | graceWindowBegun
  | reattached
  | finalized
  | stopped

def StatusWrite.status : StatusWrite → Status
  | .browserExited | .finalized | .stopped => .exited
  | .rootExited hasLive => if hasLive then .runningViaChild else .checkingCorrelated
  | .processExited => .runningViaChild
  | .correlatedAttached => .runningViaCorrelated
  | .graceWindowBegun => .waitingForRestart
  | .reattached => .running

/-- `broken` is a watcher that was made and then failed to start. -/
inductive Watcher
  | none
  | running
  | broken
  deriving DecidableEq

/-- A refresh has read the statuses `read`, and has the sessions `rest` of its list before it. -/
structure Refresh (ι : Type) where
  rest : List ι
  read : List Status

def Refresh.shouldRun {ι : Type} (r : Refresh ι) : Bool := r.read.any isActive

/-- `listed` is the list of `SessionManager`; `raised` counts the notifications, of changes that were
    made, whose refresh has not taken the list yet; `refreshes` are the others, the oldest first. -/
structure World (ι : Type) where
  listed : List ι := []
  status : ι → Status := fun _ => .running
  raised : ℕ := 0
  refreshes : List (Refresh ι) := []
  watcher : Watcher := .none

/-- `notify` is a notification without a change of a status. -/
inductive Event (ι : Type)
  | create (i : ι)
  | assign (i : ι) (write : StatusWrite)
  | remove (i : ι)
  | notify
  | getSessions
  | readStatus (k : ℕ)
  | refreshWatcher (k : ℕ) (starts : Bool)

section Steps
variable {ι : Type} [DecidableEq ι]

/-- The part of `RefreshWatcherState` under the lock; `starts` is whether `Start` succeeds. -/
def refreshed (watcher : Watcher) (shouldRun starts : Bool) : Watcher :=
  match shouldRun, watcher with
  | true, .none => if starts then .running else .broken
  | true, .running => .running
  | true, .broken => .broken
  | false, _ => .none

def step (w : World ι) : Event ι → Option (World ι)
  | .create i => some
    { w with
      listed := w.listed ++ [i]
      status := Function.update w.status i .running
      raised := w.raised + 1 }
  | .assign i write => some
    { w with
      status := Function.update w.status i write.status
      raised := w.raised + 1 }
  | .remove i => some { w with listed := w.listed.erase i, raised := w.raised + 1 }
  | .notify => some { w with raised := w.raised + 1 }
  | .getSessions =>
    if w.raised = 0 then none
    else some
      { w with
        raised := w.raised - 1
        refreshes := w.refreshes ++ [⟨w.listed, []⟩] }
  | .readStatus k =>
    w.refreshes[k]?.bind fun r => match r.rest with
      | [] => none
      | i :: rest =>
        -- the first active session ends the search
        if r.shouldRun then none
        else some { w with refreshes := w.refreshes.set k ⟨rest, r.read ++ [w.status i]⟩ }
  | .refreshWatcher k starts =>
    w.refreshes[k]?.bind fun r =>
      if r.rest ≠ [] ∧ r.shouldRun = false then none
      else some
        { w with
          refreshes := w.refreshes.eraseIdx k
          watcher := refreshed w.watcher r.shouldRun starts }

def Alive (w : World ι) : Prop := ∃ i ∈ w.listed, ended.contains (w.status i) = false

def Watches (w : World ι) : Prop :=
  w.raised = 0 → w.refreshes = [] → (w.watcher = .running ↔ Alive w)

/-- The refreshes come to the lock in the order in which they took the list, a watcher that is made
    starts, and when the last one comes, not only sessions in `checking-correlated` are alive. -/
def Orderly (w : World ι) : Event ι → Prop
  | .refreshWatcher k starts => k = 0 ∧ (w.watcher = .none → starts = true) ∧
      (w.raised = 0 → w.refreshes.length = 1 → (∃ i ∈ w.listed, w.status i = .checkingCorrelated) →
        ∃ i ∈ w.listed, isActive (w.status i) = true)
  | _ => True

end Steps

section Refreshes
variable {ι : Type} {w w' : World ι}

def Fresh (w : World ι) (r : Refresh ι) : Prop :=
  ∃ pre, w.listed = pre ++ r.rest ∧ r.read = pre.map w.status

structure Inv (w : World ι) : Prop where
  sound : w.watcher ≠ .broken
  fresh : w.raised = 0 → ∀ r, w.refreshes.getLast? = some r → Fresh w r
  watches : Watches w

theorem shouldRun_of_fresh {r : Refresh ι} (h : Fresh w r)
    (hdone : r.rest = [] ∨ r.shouldRun = true) :
    r.shouldRun = true ↔ ∃ i ∈ w.listed, isActive (w.status i) = true := by
  obtain ⟨pre, hlisted, hread⟩ := h
  have hiff : r.shouldRun = true ↔ ∃ i ∈ pre, isActive (w.status i) = true := by
    simp only [Refresh.shouldRun, hread, List.any_map, List.any_eq_true, Function.comp_apply]
  rw [hiff, hlisted]
  constructor
  · rintro ⟨i, hi, hactive⟩
    exact ⟨i, List.mem_append_left _ hi, hactive⟩
  · rintro ⟨i, hi, hactive⟩
    obtain hempty | hrun := hdone
    · rw [hempty, List.append_nil] at hi
      exact ⟨i, hi, hactive⟩
    · exact hiff.mp hrun

/-- A session that is alive and not counted as active is looking for a correlated process. -/
theorem active_or_checking {status : Status} (h : ended.contains status = false) :
    isActive status = true ∨ status = .checkingCorrelated := by
  cases status <;> first | exact .inl rfl | exact .inr rfl | cases h

theorem not_ended_of_active {status : Status} (h : isActive status = true) :
    ended.contains status = false := by
  cases status <;> first | rfl | cases h

theorem refreshed_sound {watcher : Watcher} (shouldRun : Bool) {starts : Bool} (h : watcher ≠ .broken)
    (hstarts : watcher = .none → starts = true) :
    refreshed watcher shouldRun starts ≠ .broken ∧
      (refreshed watcher shouldRun starts = .running ↔ shouldRun = true) := by
  cases watcher with
  | broken => exact absurd rfl h
  | running => cases shouldRun <;> simp [refreshed]
  | none => cases shouldRun <;> simp [refreshed, hstarts rfl]

theorem inv_of_raised (hw : Inv w) (hraised : w'.raised = w.raised + 1)
    (hwatcher : w'.watcher = w.watcher) : Inv w' where
  sound := hwatcher ▸ hw.sound
  fresh hzero := absurd (hraised.symm.trans hzero) (Nat.succ_ne_zero _)
  watches hzero := absurd (hraised.symm.trans hzero) (Nat.succ_ne_zero _)

end Refreshes

section Runs
variable {ι : Type} [DecidableEq ι] {w w' : World ι}

theorem inv_readStatus {k : ℕ} (hw : Inv w) (h : step w (.readStatus k) = some w') : Inv w' := by
  obtain ⟨r, hr, h⟩ := Option.bind_eq_some_iff.mp h
  obtain ⟨rest, read⟩ := r
  cases rest with
  | nil => cases h
  | cons i rest =>
    dsimp only at h
    split at h
    · cases h
    · obtain rfl := Option.some.inj h
      have hk : k < w.refreshes.length := (List.getElem?_eq_some_iff.mp hr).1
      refine ⟨hw.sound, fun hzero last hlast => ?_, fun _ hempty => ?_⟩
      · rw [List.getLast?_eq_getElem?, List.length_set, List.getElem?_set] at hlast
        split at hlast
        · rename_i hlastIndex
          obtain rfl := Option.some.inj hlast
          have hfresh := hw.fresh hzero ⟨i :: rest, read⟩
            (by rw [List.getLast?_eq_getElem?, ← hlastIndex, hr])
          obtain ⟨pre, hlisted, hread⟩ := hfresh
          refine ⟨pre ++ [i], ?_, ?_⟩
          · rw [hlisted, List.append_assoc]
            rfl
          · change read ++ [w.status i] = (pre ++ [i]).map w.status
            change read = pre.map w.status at hread
            rw [hread, List.map_append]
            rfl
        · rw [← List.getLast?_eq_getElem?] at hlast
          exact hw.fresh hzero last hlast
      · have hlength := congrArg List.length hempty
        rw [List.length_set] at hlength
        rw [hlength] at hk
        exact absurd hk (Nat.not_lt_zero k)

theorem inv_refreshWatcher {k : ℕ} {starts : Bool} (hw : Inv w)
    (hguard : Orderly w (.refreshWatcher k starts))
    (h : step w (.refreshWatcher k starts) = some w') : Inv w' := by
  obtain ⟨rfl, hstarts, hclassified⟩ := hguard
  obtain ⟨r, hr, h⟩ := Option.bind_eq_some_iff.mp h
  split at h
  · cases h
  · rename_i hdone
    obtain rfl := Option.some.inj h
    obtain ⟨hsound, hrunning⟩ := refreshed_sound r.shouldRun hw.sound hstarts
    cases hrefreshes : w.refreshes with
    | nil => simp [hrefreshes] at hr
    | cons first others =>
      rw [hrefreshes] at hr
      obtain rfl := Option.some.inj hr
      refine ⟨hsound, fun hzero last hlast => ?_, fun hzero hempty => ?_⟩
      · rw [List.eraseIdx_cons_zero] at hlast
        refine hw.fresh hzero last ?_
        rw [hrefreshes, List.getLast?_cons, hlast]
        rfl
      · rw [List.eraseIdx_cons_zero] at hempty
        subst hempty
        have hfresh := hw.fresh hzero first (by rw [hrefreshes]; rfl)
        refine hrunning.trans ((shouldRun_of_fresh hfresh ?_).trans ⟨?_, ?_⟩)
        · by_contra hnot
          rw [not_or, Bool.not_eq_true] at hnot
          exact hdone hnot
        · rintro ⟨i, hi, hactive⟩
          exact ⟨i, hi, not_ended_of_active hactive⟩
        · rintro ⟨i, hi, halive⟩
          obtain hactive | hchecking := active_or_checking halive
          · exact ⟨i, hi, hactive⟩
          · exact hclassified hzero (by rw [hrefreshes]; rfl) ⟨i, hi, hchecking⟩

theorem inv_step {e : Event ι} (hw : Inv w) (hguard : Orderly w e) (h : step w e = some w') :
    Inv w' := by
  cases e with
  | create i =>
    obtain rfl := Option.some.inj h
    exact inv_of_raised hw rfl rfl
  | assign i write =>
    obtain rfl := Option.some.inj h
    exact inv_of_raised hw rfl rfl
  | remove i =>
    obtain rfl := Option.some.inj h
    exact inv_of_raised hw rfl rfl
  | notify =>
    obtain rfl := Option.some.inj h
    exact inv_of_raised hw rfl rfl
  | getSessions =>
    simp only [step] at h
    split at h
    · cases h
    · obtain rfl := Option.some.inj h
      refine ⟨hw.sound, fun _ last hlast => ?_, fun _ hempty => ?_⟩
      · rw [List.getLast?_concat] at hlast
        obtain rfl := Option.some.inj hlast
        exact ⟨[], rfl, rfl⟩
      · simp at hempty
  | readStatus k => exact inv_readStatus hw h
  | refreshWatcher k starts => exact inv_refreshWatcher hw hguard h

end Runs

/-- The supervisor watches in every state of an orderly run. -/
theorem always_watches {ι : Type} [DecidableEq ι] (events : List (Event ι))
    (h : Meets step Orderly {} events) : Always step Watches ({} : World ι) events := by
  refine always_mono (P := Inv) (fun w hw => hw.watches) ?_
  refine always_of_meets (fun w e w' hw hguard h => inv_step hw hguard h) ?_ h
  refine ⟨Watcher.noConfusion, fun _ r hr => ?_, fun _ _ => ?_⟩
  · cases hr
  · refine iff_of_false Watcher.noConfusion ?_
    rintro ⟨i, hi, -⟩
    cases hi

def launched : List (Event ℕ) := [.create 0, .getSessions, .readStatus 0, .refreshWatcher 0 true]

def handedOver : List (Event ℕ) :=
  launched ++ [.assign 0 (.rootExited true), .getSessions, .readStatus 0, .refreshWatcher 0 true] ++
    [.assign 0 .finalized, .getSessions, .readStatus 0, .refreshWatcher 0 true]

theorem always_watches_handed_over : Always step Watches ({} : World ℕ) handedOver := by
  refine always_watches handedOver ⟨trivial, trivial, trivial, ⟨rfl, fun _ => rfl, ?_⟩, trivial, trivial, trivial,
    ⟨rfl, fun _ => rfl, ?_⟩, trivial, trivial, trivial, ⟨rfl, fun _ => rfl, ?_⟩, trivial⟩
  · rintro - - ⟨i, hi, -⟩
    exact ⟨i, hi, by simp [List.mem_singleton.mp hi, isActive]⟩
  · rintro - - ⟨i, hi, -⟩
    exact ⟨i, hi, by simp [List.mem_singleton.mp hi, isActive, StatusWrite.status]⟩
  · rintro - - ⟨i, hi, hchecking⟩
    simp [List.mem_singleton.mp hi, StatusWrite.status] at hchecking

def rootExitedAlone : List (Event ℕ) :=
  launched ++ [.assign 0 (.rootExited false), .getSessions, .readStatus 0, .refreshWatcher 0 true]

theorem unwatched_while_checking :
    ¬∀ (ι : Type) [DecidableEq ι] (events : List (Event ι)),
      Always step Watches ({} : World ι) events := by
  intro h
  have hlast := (always_iff_reached _ _).mp (h ℕ rootExitedAlone) rootExitedAlone [] _
    (List.append_nil _).symm rfl
  exact Watcher.noConfusion ((hlast rfl rfl).mpr ⟨0, List.mem_singleton_self 0, rfl⟩)

end ProxySwitch.SupervisedWatcher
