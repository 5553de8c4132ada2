import Mathlib.Logic.Function.Basic
import ProxySwitch.SessionLifecycle
import ProxySwitch.TransitionRuns

set_option autoImplicit false

/-!
# Who decides about a correlated process

`TryCorrelatedHandoffAsync` hands a doubtful result to the subscribers of
`CorrelatedCandidatesFound`, of which the dashboard is the only one. The sessions and the dashboard
step together here: sessions come and go through their searches, the dashboard opens and closes.
-/
namespace ProxySwitch.CorrelatedHandoff
open SessionLifecycle (Status ended)
open TransitionRuns

/-- The scores of one search, as `Confidence` reports them. -/
inductive Confidence
  | high
  | medium
  | low
  deriving DecidableEq

inductive Verdict
  | attach
  | ask
  | wait
  deriving DecidableEq

def verdict (candidates : List Confidence) : Verdict :=
  let high := candidates.count .high
  if high = 1 then .attach
  else if 1 < high then .ask
  else if 0 < candidates.count .medium then .ask
  else .wait

/-- A search waits three seconds, scores, and may ask; then it is done when `Invoke` returns, which
    is not before the dialog that it opened is closed. -/
inductive Search
  | notStarted
  | delayed
  | scoring
  | asking
  | inDialog
  | finished
  deriving DecidableEq

/-- `movedOn` says that the session has changed its status since the search was over. -/
structure Session where
  status : Status := .running
  search : Search := .notStarted
  movedOn : Bool := false

/-- `dialogs` are the open dialogs, the innermost one first, `pending` is `_pendingCorrelated`, and
    `posted` are the calls of `ShowCorrelatedDialog` by `BeginInvoke` that have not run. -/
structure Dashboard (ι : Type) where
  correlatedDialogOpen : Bool := false
  dialogs : List ι := []
  pending : List ι := []
  posted : List ι := []

structure World (ι : Type) where
  sessions : ι → Session
  dashboard : Option (Dashboard ι) := none

/-- `moves` are the assignments of `Status` by all other handlers. -/
inductive Event (ι : Type)
  | rootExited (i : ι) (hasLive : Bool)
  | searchContinues (i : ι) (throws : Bool)
  | searchScored (i : ι) (candidates : Option (List Confidence))
  | uiReceives (i : ι)
  | uiRunsPosted
  | userDecides (attach : Bool)
  | openDashboard
  | closeDashboard
  | moves (i : ι) (status : Status)

section Steps
variable {ι : Type} [DecidableEq ι] (supervised : Bool)

def World.set (w : World ι) (i : ι) (s : Session) : World ι :=
  { w with sessions := Function.update w.sessions i s }

def Session.finish (s : Session) (status : Status) : Session :=
  { s with status := status, search := .finished, movedOn := false }

/-- `supervised` is the setting `SessionSupervisor.Enabled`. -/
def graceStatus : Status := if supervised then .waitingForRestart else .exited

/-- The handler is called on the thread of the dashboard. -/
def Dashboard.receive (d : Dashboard ι) (i : ι) : Dashboard ι :=
  if d.correlatedDialogOpen then { d with pending := d.pending ++ [i] }
  else { d with correlatedDialogOpen := true, dialogs := i :: d.dialogs }

/-- The dialog of `i`, the innermost, is closed; the next of the queue is posted. -/
def Dashboard.closeDialog (d : Dashboard ι) : Dashboard ι :=
  { correlatedDialogOpen := false
    dialogs := d.dialogs.tail
    pending := d.pending.tail
    posted := d.posted ++ d.pending.head?.toList }

def step (w : World ι) : Event ι → Option (World ι)
  | .rootExited i hasLive =>
    let s := w.sessions i
    if s.search ≠ .notStarted || ended.contains s.status then none
    else if hasLive then some (w.set i { s with status := .runningViaChild })
    else some (w.set i { s with status := .checkingCorrelated, search := .delayed })
  | .searchContinues i throws =>
    let s := w.sessions i
    if s.search ≠ .delayed then none
    else if throws then some (w.set i (s.finish (graceStatus supervised)))
    else if ended.contains s.status then some (w.set i (s.finish s.status))
    else some (w.set i { s with search := .scoring })
  | .searchScored i candidates =>
    let s := w.sessions i
    if s.search ≠ .scoring then none
    else match candidates.map verdict with
      | none | some .wait => some (w.set i (s.finish (graceStatus supervised)))
      | some .attach => some (w.set i (s.finish .runningViaCorrelated))
      | some .ask =>
        match w.dashboard with
        | none => some (w.set i (s.finish s.status))
        | some _ => some (w.set i { s with search := .asking })
  | .uiReceives i =>
    let s := w.sessions i
    if s.search ≠ .asking then none
    else w.dashboard.map fun d =>
      { w.set i (if d.correlatedDialogOpen then s.finish s.status else { s with search := .inDialog }) with
        dashboard := some (d.receive i) }
  | .uiRunsPosted =>
    w.dashboard.bind fun d => match d.posted with
      | [] => none
      | i :: rest => some
        { w with
          dashboard := some
            { d with correlatedDialogOpen := true, dialogs := i :: d.dialogs, posted := rest } }
  | .userDecides attach =>
    w.dashboard.bind fun d => match d.dialogs with
      | [] => none
      | i :: _ =>
        let s := w.sessions i
        let status := if attach then .runningViaCorrelated else .exited
        some
          { w.set i
              (if s.search = .inDialog then s.finish status else { s with status := status }) with
            dashboard := some d.closeDialog }
  | .openDashboard => if w.dashboard.isSome then none else some { w with dashboard := some {} }
  | .closeDashboard =>
    -- the window is disabled while a dialog is open; an `Invoke` that still waits throws
    w.dashboard.bind fun d =>
      if d.dialogs ≠ [] then none
      else some
        { sessions := fun i =>
            let s := w.sessions i
            if s.search = .asking then s.finish (graceStatus supervised) else s
          dashboard := none }
  | .moves i status =>
    let s := w.sessions i
    if status = .starting ∨ status = .checkingCorrelated then none
    else some (w.set i { s with status := status, movedOn := s.search = .finished })

def Event.isOfUser : Event ι → Bool
  | .uiRunsPosted | .userDecides _ => true
  | _ => false

def CanStillDecide (w : World ι) (i : ι) : Prop :=
  ∃ events w', (∀ e ∈ events, Event.isOfUser e = true) ∧ exec (step supervised) w events = some w' ∧
    ∃ d, w'.dashboard = some d ∧ d.dialogs.head? = some i

def settled : List Status := [.runningViaCorrelated, .waitingForRestart, .exited, .failed]

/-- Whose search is over has one of the ends, unless it has changed its status since, or a decision
    can still be given. -/
def NotStuck (w : World ι) : Prop :=
  ∀ i, (w.sessions i).search = .finished →
    (w.sessions i).status ∈ settled ∨ (w.sessions i).movedOn = true ∨ CanStillDecide supervised w i

/-- No dashboard is needed, or there is one, and it is not closed over what waits in its queue. -/
def Answerable (w : World ι) : Event ι → Prop
  | .searchScored i (some candidates) => (w.sessions i).search = .scoring →
      verdict candidates = .ask → w.dashboard = none → (w.sessions i).status ∈ settled
  | .closeDashboard => ∀ d, w.dashboard = some d → ∀ i ∈ d.pending ++ d.posted,
      (w.sessions i).search = .finished →
        (w.sessions i).status ∈ settled ∨ (w.sessions i).movedOn = true
  | _ => True

end Steps

section Dashboards
variable {ι : Type} {w : World ι} {i j : ι} {d : Dashboard ι}

def Dashboard.Holds (d : Dashboard ι) (i : ι) : Prop :=
  i ∈ d.dialogs ∨ i ∈ d.pending ∨ i ∈ d.posted

structure Dashboard.Wf (d : Dashboard ι) : Prop where
  shown : d.correlatedDialogOpen = true → d.dialogs ≠ []
  served : d.pending ≠ [] → d.dialogs ≠ [] ∨ d.posted ≠ []

def Dashboard.runPosted (d : Dashboard ι) (i : ι) (rest : List ι) : Dashboard ι :=
  { d with correlatedDialogOpen := true, dialogs := i :: d.dialogs, posted := rest }

theorem wf_receive (hd : d.Wf) (i : ι) : (d.receive i).Wf := by
  unfold Dashboard.receive
  split
  · rename_i hopen
    exact ⟨hd.shown, fun _ => .inl (hd.shown hopen)⟩
  · exact ⟨fun _ => List.cons_ne_nil _ _, fun _ => .inl (List.cons_ne_nil _ _)⟩

theorem wf_closeDialog (d : Dashboard ι) : d.closeDialog.Wf := by
  refine ⟨Bool.noConfusion, fun hpending => .inr ?_⟩
  cases hqueue : d.pending with
  | nil => simp [Dashboard.closeDialog, hqueue] at hpending
  | cons next rest => simp [Dashboard.closeDialog, hqueue]

theorem wf_runPosted (d : Dashboard ι) (i : ι) (rest : List ι) : (d.runPosted i rest).Wf :=
  ⟨fun _ => List.cons_ne_nil _ _, fun _ => .inl (List.cons_ne_nil _ _)⟩

theorem holds_receive : (d.receive i).Holds j ↔ d.Holds j ∨ j = i := by
  unfold Dashboard.receive Dashboard.Holds
  split
  · simp only [List.mem_append, List.mem_singleton]
    tauto
  · simp only [List.mem_cons]
    tauto

theorem holds_of_closeDialog (h : d.closeDialog.Holds j) : d.Holds j := by
  obtain hdialog | hpending | hposted := h
  · exact .inl (List.mem_of_mem_tail hdialog)
  · exact .inr (.inl (List.mem_of_mem_tail hpending))
  · obtain hposted | hnext := List.mem_append.mp hposted
    · exact .inr (.inr hposted)
    · exact .inr (.inl (List.mem_of_mem_head? (Option.mem_toList.mp hnext)))

theorem closeDialog_holds {rest : List ι} (hdialogs : d.dialogs = i :: rest) (hne : j ≠ i)
    (h : d.Holds j) : d.closeDialog.Holds j := by
  unfold Dashboard.closeDialog Dashboard.Holds at *
  rw [hdialogs] at *
  cases hqueue : d.pending with
  | nil =>
    rw [hqueue] at h
    simp only [List.mem_cons, hne, false_or, List.not_mem_nil, List.tail_cons, List.tail_nil,
      List.head?_nil, Option.toList_none, List.append_nil] at h ⊢
    exact h
  | cons next later =>
    rw [hqueue] at h
    simp only [List.mem_cons, hne, false_or, List.tail_cons, List.head?_cons, Option.toList_some,
      List.mem_append, List.not_mem_nil, or_false] at h ⊢
    tauto

theorem holds_runPosted {rest : List ι} (hposted : d.posted = i :: rest) :
    (d.runPosted i rest).Holds j ↔ d.Holds j := by
  unfold Dashboard.runPosted Dashboard.Holds
  rw [hposted]
  simp only [List.mem_cons]
  tauto

theorem length_closeDialog {rest : List ι} (hdialogs : d.dialogs = i :: rest) :
    d.closeDialog.dialogs.length + 2 * d.closeDialog.posted.length +
      3 * d.closeDialog.pending.length <
        d.dialogs.length + 2 * d.posted.length + 3 * d.pending.length := by
  unfold Dashboard.closeDialog
  rw [hdialogs]
  cases hqueue : d.pending with
  | nil => simp
  | cons next later =>
    simp
    omega

def Waits (w : World ι) (i : ι) : Prop := ∃ d, w.dashboard = some d ∧ d.Holds i

def Inv (w : World ι) : Prop := ∀ d, w.dashboard = some d → d.Wf

def load (w : World ι) : ℕ :=
  (w.dashboard.map fun d => d.dialogs.length + 2 * d.posted.length + 3 * d.pending.length).getD 0

theorem load_of_dashboard (hd : w.dashboard = some d) :
    load w = d.dialogs.length + 2 * d.posted.length + 3 * d.pending.length := by
  unfold load
  rw [hd]
  rfl

theorem inv_of_dashboard (hd : w.dashboard = some d) (hwf : d.Wf) : Inv w :=
  fun _ h => Option.some.inj (hd.symm.trans h) ▸ hwf

end Dashboards

section Runs
variable {ι : Type} [DecidableEq ι] {supervised : Bool} {w w' : World ι} {i j : ι} {d : Dashboard ι}

theorem user_step {e : Event ι} (he : Event.isOfUser e = true)
    (h : step supervised w e = some w') : ∃ d, w.dashboard = some d ∧
      ((∃ i rest, d.posted = i :: rest ∧ w'.dashboard = some (d.runPosted i rest)) ∨
        w'.dashboard = some d.closeDialog) := by
  cases e with
  | uiRunsPosted =>
    obtain ⟨d, hd, h⟩ := Option.bind_eq_some_iff.mp h
    cases hposted : d.posted with
    | nil => simp [hposted] at h
    | cons i rest =>
      rw [hposted] at h
      obtain rfl := Option.some.inj h
      exact ⟨d, hd, .inl ⟨i, rest, hposted, rfl⟩⟩
  | userDecides attach =>
    obtain ⟨d, hd, h⟩ := Option.bind_eq_some_iff.mp h
    cases hdialogs : d.dialogs with
    | nil => simp [hdialogs] at h
    | cons i rest =>
      rw [hdialogs] at h
      obtain rfl := Option.some.inj h
      exact ⟨d, hd, .inr rfl⟩
  | rootExited i hasLive => cases he
  | searchContinues i throws => cases he
  | searchScored i candidates => cases he
  | uiReceives i => cases he
  | openDashboard => cases he
  | closeDashboard => cases he
  | moves i status => cases he

theorem waits_of_user_step {e : Event ι} (he : Event.isOfUser e = true)
    (h : step supervised w e = some w') (hwaits : Waits w' i) : Waits w i := by
  obtain ⟨d', hd', hholds⟩ := hwaits
  obtain ⟨d, hd, ⟨k, rest, hposted, hrun⟩ | hclose⟩ := user_step he h
  · obtain rfl := Option.some.inj (hrun.symm.trans hd')
    exact ⟨d, hd, (holds_runPosted hposted).mp hholds⟩
  · obtain rfl := Option.some.inj (hclose.symm.trans hd')
    exact ⟨d, hd, holds_of_closeDialog hholds⟩

theorem runsPosted (supervised : Bool) {rest : List ι} (hd : w.dashboard = some d)
    (hposted : d.posted = i :: rest) :
    (step supervised w .uiRunsPosted).map World.dashboard = some (some (d.runPosted i rest)) := by
  simp only [step, hd, Option.bind_some, hposted, Option.map_some, Dashboard.runPosted]

theorem closesDialog (supervised : Bool) {rest : List ι} (hd : w.dashboard = some d)
    (hdialogs : d.dialogs = i :: rest) (attach : Bool) :
    (step supervised w (.userDecides attach)).map World.dashboard = some (some d.closeDialog) := by
  simp only [step, hd, Option.bind_some, hdialogs, Option.map_some]

theorem canStillDecide_iff (hw : Inv w) : CanStillDecide supervised w i ↔ Waits w i := by
  constructor
  · rintro ⟨events, w', hevents, hrun, d, hd, hhead⟩
    have hlast : Waits w' i := ⟨d, hd, .inl (List.mem_of_mem_head? hhead)⟩
    clear hd hhead hw
    induction events generalizing w with
    | nil => exact Option.some.inj hrun ▸ hlast
    | cons e rest ih =>
      obtain ⟨v, hv, hrest⟩ := Option.bind_eq_some_iff.mp hrun
      obtain ⟨he, hrestUser⟩ := List.forall_mem_cons.mp hevents
      exact waits_of_user_step he hv (ih hrestUser hrest)
  · intro hwaits
    refine exists_run_of_rank (I := fun w => Inv w ∧ Waits w i) (fun e => Event.isOfUser e = true)
      load ?_ ⟨hw, hwaits⟩
    rintro w ⟨hw, d, hd, hholds⟩
    cases hdialogs : d.dialogs with
    | cons k rest =>
      by_cases hki : i = k
      · exact .inl ⟨d, hd, by rw [hdialogs, hki]; rfl⟩
      · obtain ⟨w', hstep, hd'⟩ := Option.map_eq_some_iff.mp (closesDialog supervised hd hdialogs true)
        refine .inr ⟨_, w', rfl, hstep, ⟨inv_of_dashboard hd' (wf_closeDialog d), ?_⟩, ?_⟩
        · exact ⟨_, hd', closeDialog_holds hdialogs hki hholds⟩
        · rw [load_of_dashboard hd, load_of_dashboard hd']
          exact length_closeDialog hdialogs
    | nil =>
      cases hposted : d.posted with
      | cons k rest =>
        obtain ⟨w', hstep, hd'⟩ := Option.map_eq_some_iff.mp (runsPosted supervised hd hposted)
        refine .inr ⟨_, w', rfl, hstep, ⟨inv_of_dashboard hd' (wf_runPosted d k rest), ?_⟩, ?_⟩
        · exact ⟨_, hd', (holds_runPosted hposted).mpr hholds⟩
        · rw [load_of_dashboard hd, load_of_dashboard hd']
          simp only [Dashboard.runPosted, hdialogs, hposted, List.length_cons, List.length_nil]
          omega
      | nil =>
        have hempty : d.pending = [] := by
          by_contra hpending
          obtain h | h := (hw d hd).served hpending
          · exact h hdialogs
          · exact h hposted
        simp [Dashboard.Holds, hdialogs, hposted, hempty] at hholds

theorem inv_step {e : Event ι} (hw : Inv w) (h : step supervised w e = some w') : Inv w' := by
  cases e with
  | rootExited i hasLive =>
    simp only [step] at h
    split_ifs at h <;> cases h <;> exact hw
  | searchContinues i throws =>
    simp only [step] at h
    split_ifs at h <;> cases h <;> exact hw
  | searchScored i candidates =>
    simp only [step] at h
    split_ifs at h
    split at h
    · cases h; exact hw
    · cases h; exact hw
    · cases h; exact hw
    · split at h <;> cases h <;> exact hw
  | uiReceives i =>
    simp only [step] at h
    split_ifs at h
    obtain ⟨d, hd, rfl⟩ := Option.map_eq_some_iff.mp h
    exact inv_of_dashboard rfl (wf_receive (hw d hd) i)
  | uiRunsPosted =>
    obtain ⟨d, hd, ⟨k, rest, hposted, hrun⟩ | hclose⟩ := user_step rfl h
    · exact inv_of_dashboard hrun (wf_runPosted d k rest)
    · exact inv_of_dashboard hclose (wf_closeDialog d)
  | userDecides attach =>
    obtain ⟨d, hd, ⟨k, rest, hposted, hrun⟩ | hclose⟩ := user_step rfl h
    · exact inv_of_dashboard hrun (wf_runPosted d k rest)
    · exact inv_of_dashboard hclose (wf_closeDialog d)
  | openDashboard =>
    simp only [step] at h
    split_ifs at h
    cases h
    exact inv_of_dashboard rfl ⟨Bool.noConfusion, fun hpending => absurd rfl hpending⟩
  | closeDashboard =>
    obtain ⟨d, hd, h⟩ := Option.bind_eq_some_iff.mp h
    split_ifs at h
    cases h
    exact fun _ hnone => absurd hnone.symm (Option.some_ne_none _)
  | moves i status =>
    simp only [step] at h
    split_ifs at h
    cases h
    exact hw

/-- One session of `NotStuck`, in terms of what the dashboard holds. -/
def Fine (w : World ι) (i : ι) : Prop :=
  (w.sessions i).search = .finished →
    (w.sessions i).status ∈ settled ∨ (w.sessions i).movedOn = true ∨ Waits w i

theorem notStuck_iff (hw : Inv w) : NotStuck supervised w ↔ ∀ i, Fine w i :=
  forall_congr' fun i => by rw [canStillDecide_iff hw]; rfl

theorem forall_fine_set {s : Session} {dashboard : Option (Dashboard ι)} (hfine : ∀ j, Fine w j)
    (hkeep : ∀ j, j ≠ i → Waits w j → Waits { w.set i s with dashboard := dashboard } j) :
    (∀ j, Fine { w.set i s with dashboard := dashboard } j) ↔
      (s.search = .finished → s.status ∈ settled ∨ s.movedOn = true ∨
        Waits { w.set i s with dashboard := dashboard } i) := by
  constructor
  · intro h
    have hi := h i
    simp only [Fine, World.set, Function.update_self] at hi
    exact hi
  · intro hi j
    by_cases hji : j = i
    · subst hji
      simp only [Fine, World.set, Function.update_self]
      exact hi
    · have hj := hfine j
      simp only [Fine, World.set, Function.update_of_ne hji] at hj ⊢
      exact fun hsearch => (hj hsearch).imp_right (Or.imp_right (hkeep j hji))

theorem forall_fine_set_session {s : Session} (hfine : ∀ j, Fine w j) :
    (∀ j, Fine (w.set i s) j) ↔
      (s.search = .finished → s.status ∈ settled ∨ s.movedOn = true ∨ Waits w i) :=
  forall_fine_set hfine fun _ _ hwaits => hwaits

theorem graceStatus_settled (supervised : Bool) : graceStatus supervised ∈ settled := by
  cases supervised <;> decide

theorem settled_of_ended {status : Status} (h : ended.contains status = true) :
    status ∈ settled := by
  cases status <;> first | decide | cases h

theorem fine_searchScored {candidates : Option (List Confidence)} (hfine : ∀ j, Fine w j)
    (h : step supervised w (.searchScored i candidates) = some w') :
    (∀ j, Fine w' j) ↔ Answerable w (.searchScored i candidates) := by
  simp only [step] at h
  split_ifs at h with hscoring
  rw [not_not] at hscoring
  cases candidates with
  | none =>
    cases h
    refine iff_of_true ((forall_fine_set_session hfine).mpr fun _ => ?_) trivial
    exact .inl (graceStatus_settled supervised)
  | some candidates =>
    simp only [Option.map_some] at h
    simp only [Answerable, hscoring, forall_const]
    cases hverdict : verdict candidates with
    | wait =>
      rw [hverdict] at h
      cases h
      refine iff_of_true ((forall_fine_set_session hfine).mpr fun _ => ?_) Verdict.noConfusion
      exact .inl (graceStatus_settled supervised)
    | attach =>
      rw [hverdict] at h
      cases h
      refine iff_of_true ((forall_fine_set_session hfine).mpr fun _ => ?_) Verdict.noConfusion
      exact .inl (by simp [Session.finish, settled])
    | ask =>
      rw [hverdict] at h
      simp only [forall_const]
      cases hdashboard : w.dashboard with
      | none =>
        rw [hdashboard] at h
        cases h
        rw [forall_fine_set_session hfine]
        simp [Session.finish, Waits, hdashboard]
      | some d =>
        rw [hdashboard] at h
        cases h
        refine iff_of_true ((forall_fine_set_session hfine).mpr Search.noConfusion) fun hnone => ?_
        exact absurd hnone (Option.some_ne_none d)

/-- Closing the dashboard takes the questions with it that it has not shown. -/
theorem fine_closeDashboard (hfine : ∀ j, Fine w j)
    (h : step supervised w .closeDashboard = some w') :
    (∀ j, Fine w' j) ↔ Answerable w .closeDashboard := by
  obtain ⟨d, hd, h⟩ := Option.bind_eq_some_iff.mp h
  split_ifs at h with hdialogs
  rw [not_not] at hdialogs
  cases h
  constructor
  · intro h d' hd' j hj hsearch
    have hj := h j
    simp only [Fine, hsearch, reduceCtorEq, if_false, forall_const] at hj
    obtain hsettled | hmoved | ⟨_, hnone, -⟩ := hj
    · exact .inl hsettled
    · exact .inr hmoved
    · cases hnone
  · intro hguard j hsearch
    dsimp only at hsearch ⊢
    split_ifs at hsearch ⊢ with hasking
    · exact .inl (graceStatus_settled supervised)
    · obtain hsettled | hmoved | ⟨d', hd', hdialog | hpending | hposted⟩ := hfine j hsearch
      · exact .inl hsettled
      · exact .inr (.inl hmoved)
      · obtain rfl := Option.some.inj (hd.symm.trans hd')
        rw [hdialogs] at hdialog
        cases hdialog
      · exact (hguard d' hd' j (List.mem_append_left _ hpending) hsearch).imp_right .inl
      · exact (hguard d' hd' j (List.mem_append_right _ hposted) hsearch).imp_right .inl

theorem fine_step {e : Event ι} (hfine : ∀ j, Fine w j) (h : step supervised w e = some w') :
    (∀ j, Fine w' j) ↔ Answerable w e := by
  cases e with
  | rootExited i hasLive =>
    refine iff_of_true ?_ trivial
    simp only [step] at h
    split_ifs at h with hopen hlive
    · cases h
      simp only [Bool.or_eq_true, decide_eq_true_eq, not_or, not_not] at hopen
      refine (forall_fine_set_session hfine).mpr fun hsearch => ?_
      rw [hopen.1] at hsearch
      cases hsearch
    · cases h
      exact (forall_fine_set_session hfine).mpr Search.noConfusion
  | searchContinues i throws =>
    refine iff_of_true ?_ trivial
    simp only [step] at h
    split_ifs at h with hdelayed hthrows hended
    · cases h
      exact (forall_fine_set_session hfine).mpr fun _ => .inl (graceStatus_settled supervised)
    · cases h
      exact (forall_fine_set_session hfine).mpr fun _ => .inl (settled_of_ended hended)
    · cases h
      exact (forall_fine_set_session hfine).mpr Search.noConfusion
  | searchScored i candidates => exact fine_searchScored hfine h
  | uiReceives i =>
    refine iff_of_true ?_ trivial
    simp only [step] at h
    split_ifs at h
    obtain ⟨d, hd, rfl⟩ := Option.map_eq_some_iff.mp h
    refine (forall_fine_set hfine ?_).mpr fun _ => ?_
    · rintro j - ⟨d', hd', hholds⟩
      obtain rfl := Option.some.inj (hd.symm.trans hd')
      exact ⟨_, rfl, holds_receive.mpr (.inl hholds)⟩
    · exact .inr (.inr ⟨_, rfl, holds_receive.mpr (.inr rfl)⟩)
  | uiRunsPosted =>
    refine iff_of_true (fun j hsearch => ?_) trivial
    obtain ⟨d, hd, h⟩ := Option.bind_eq_some_iff.mp h
    cases hposted : d.posted with
    | nil => simp [hposted] at h
    | cons k rest =>
      rw [hposted] at h
      obtain rfl := Option.some.inj h
      refine (hfine j hsearch).imp_right (Or.imp_right ?_)
      rintro ⟨d', hd', hholds⟩
      obtain rfl := Option.some.inj (hd.symm.trans hd')
      exact ⟨_, rfl, (holds_runPosted hposted).mpr hholds⟩
  | userDecides attach =>
    refine iff_of_true ?_ trivial
    obtain ⟨d, hd, h⟩ := Option.bind_eq_some_iff.mp h
    cases hdialogs : d.dialogs with
    | nil => simp [hdialogs] at h
    | cons k rest =>
      rw [hdialogs] at h
      obtain rfl := Option.some.inj h
      refine (forall_fine_set hfine ?_).mpr fun _ => .inl ?_
      · rintro j hjk ⟨d', hd', hholds⟩
        obtain rfl := Option.some.inj (hd.symm.trans hd')
        exact ⟨_, rfl, closeDialog_holds hdialogs hjk hholds⟩
      · split <;> cases attach <;> simp [Session.finish, settled]
  | openDashboard =>
    refine iff_of_true (fun j hsearch => ?_) trivial
    simp only [step] at h
    split_ifs at h with hclosed
    cases h
    refine (hfine j hsearch).imp_right (Or.imp_right ?_)
    rintro ⟨d, hd, -⟩
    exact absurd (Option.isSome_of_eq_some hd) hclosed
  | closeDashboard => exact fine_closeDashboard hfine h
  | moves i status =>
    refine iff_of_true ?_ trivial
    simp only [step] at h
    split_ifs at h
    cases h
    exact (forall_fine_set_session hfine).mpr fun hsearch => .inr (.inl (decide_eq_true hsearch))

end Runs

/-- The searches of sessions that have been launched have not started; the dashboard may be open. -/
def start {ι : Type} (dashboardOpen : Bool) : World ι where
  sessions _ := {}
  dashboard := if dashboardOpen then some {} else none

/-- In every state of a run, no session is stuck, precisely when every doubtful result of the run
    finds the dashboard open and every queue is answered before it closes. -/
theorem always_notStuck_iff {ι : Type} [DecidableEq ι] (supervised dashboardOpen : Bool)
    (events : List (Event ι)) :
    Always (step supervised) (NotStuck supervised) (start dashboardOpen) events ↔
      Meets (step supervised) Answerable (start dashboardOpen) events := by
  have hinv : Inv (start dashboardOpen : World ι) := by
    intro d hd
    cases dashboardOpen with
    | false => cases hd
    | true =>
      obtain rfl := Option.some.inj hd
      exact ⟨Bool.noConfusion, fun hpending => absurd rfl hpending⟩
  refine always_iff_meets (I := Inv) (fun w e w' hw h => inv_step hw h)
    (fun w e w' hw hnotStuck h => ?_) events hinv ?_
  · rw [notStuck_iff (inv_step hw h)]
    exact fine_step ((notStuck_iff hw).mp hnotStuck) h
  · exact (notStuck_iff hinv).mpr fun i => Search.noConfusion

def askedNobody : List (Event ℕ) :=
  [.rootExited 0 false, .searchContinues 0 false, .searchScored 0 (some [.high, .high])]

theorem stuck_without_dashboard :
    ¬∀ (ι : Type) [DecidableEq ι] (supervised dashboardOpen : Bool) (events : List (Event ι)),
      Always (step supervised) (NotStuck supervised) (start dashboardOpen) events := by
  intro h
  have hlast := (always_iff_reached _ _).mp (h ℕ true false askedNobody) askedNobody [] _
    (List.append_nil _).symm rfl
  obtain hsettled | hmoved | hdecide := hlast 0 rfl
  · revert hsettled
    decide
  · cases hmoved
  · obtain ⟨d, hd, -⟩ := (canStillDecide_iff fun d hd => by cases hd).mp hdecide
    cases hd

end ProxySwitch.CorrelatedHandoff
