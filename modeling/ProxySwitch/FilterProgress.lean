import ProxySwitch.PacketStreams

set_option autoImplicit false

namespace ProxySwitch.PacketQueues
open StagedQueues TransitionRuns

variable {ρ ε π : Type} {setup : Setup ρ ε π} {s t : PacketFilter ρ ε π}

def Blocked (setup : Setup ρ ε π) (mine : Label ε π → Bool) (s : PacketFilter ρ ε π) : Prop :=
  ∀ a, mine a = true → step setup s a = none

def Label.isThread : Label ε π → Bool
  | .advance _ | .work _ => true
  | _ => false

/-! ### The running filter -/

section Running

/-- The steps left with a queued block until its packets are put back and it can be read into. -/
def weight : Stage → UnsortedPacketBlock π → ℕ
  | .read, _ => 3
  | .process, b => 35 + b.packetsSuccess
  | .writeMstcp, _ => 25
  | .writeAdapter, _ => 14

def weightJob (i : Stage) (job : Job π) : ℕ :=
  match i, job.phase with
  | .read, .failed => 4
  | .read, .waiting => 3
  | .read, .resetting => 2
  | .read, .reading => 1
  | .read, .done => 45 + job.block.packetsSuccess
  | .process, .processing n => 35 + (job.block.packetsSuccess - n)
  | .writeMstcp, .sending => 25
  | .writeMstcp, .done => 24
  | .writeAdapter, .sending => 14
  | .writeAdapter, .done => 13
  | _, _ => 0

def patience (s : PacketFilter ρ ε π) : ℕ := rank weight weightJob s.line

theorem patience_advance {running : Bool} {line line' : FilterLine π} {i : Stage}
    (hkept : Kept BlockOk JobOk line) (hstep : advance (threads π) running line i = some line') :
    rank weight weightJob line' < rank weight weightJob line := by
  refine advance_rank threads_next_ne (fun i b _ => ?_) (fun i job b hjob hb => ?_) hkept hstep
  · cases i <;> simp [threads, startJob, weight, weightJob]
  · cases i with
    | read =>
      obtain rfl := finishJob_read hjob hb
      simp only [threads, Stage.next, weight, weightJob]
      omega
    | process =>
      obtain ⟨n, hphase, -⟩ := hjob
      simp [threads, Stage.next, weight, weightJob, hphase]
    | writeMstcp | writeAdapter =>
      obtain rfl | ⟨n, rfl, -⟩ := finishJob_block hb
      · simp [threads, Stage.next, weight, weightJob]
      · simp [JobOk] at hjob

theorem patience_thread {a : Label ε π} (hline : LineOk s.filterState s.line)
    (hrunning : s.filterState = .running) (ha : a.isThread = true) (hstep : Does setup s a t) :
    patience t < patience s := by
  have hwork : ∀ {i : Stage} {job job' : Job π}, s.line.place i = .holding job →
      weightJob i job' < weightJob i job →
      rank weight weightJob (s.line.goto i (.holding job')) < rank weight weightJob s.line := by
    intro i job job' hplace hless
    have := rank_goto_job weight weightJob job' hplace
    omega
  cases hstep with
  | advanced i line hline' => exact patience_advance hline.kept hline'
  | waited b hplace hevent => exact hwork hplace (by simp [weightJob])
  | reset b hplace => exact hwork hplace (by simp [weightJob])
  | retried b hplace => exact hwork hplace (by simp [weightJob, PacketFilter.isRunning, hrunning])
  | processed b n hplace hn =>
    refine hwork hplace ?_
    simp only [weightJob, (processPacket_block setup s.router b n).1]
    omega
  | sentMstcp b hplace => exact hwork hplace (by simp [weightJob])
  | sentAdapter b hplace => exact hwork hplace (by simp [weightJob])
  | _ => cases ha

theorem state_of_thread {a : Label ε π} (ha : a.isThread = true) (hstep : Does setup s a t) :
    t.filterState = s.filterState := by
  cases hstep <;> first | rfl | cases ha

def Alive (s : PacketFilter ρ ε π) : Prop := s.filterState = .running → ∀ i, s.line.place i ≠ .exited

theorem hold_alive {line : FilterLine π} {i : Stage} {job : Job π} (h : ∀ j, line.place j ≠ .exited) (j : Stage) :
    (line.goto i (.holding job)).place j ≠ .exited := by
  by_cases hj : j = i
  · subst hj
    simp
  · rw [Line.goto_place_of_ne _ _ hj]
    exact h j

theorem notify_alive {line : FilterLine π} {i : Stage} (h : ∀ j, line.place j ≠ .exited) (j : Stage) :
    (line.notify i).place j ≠ .exited := by
  by_cases hj : j = i
  · subst hj
    rw [Line.notify_place_self]
    exact fun hexited => h j (Place.wake_exited.mp hexited)
  · rw [Line.notify_place_of_ne _ hj]
    exact h j

theorem Alive.does {a : Label ε π} (h : Alive s) (hstep : Does setup s a t) : Alive t := by
  intro hrunning
  cases hstep with
  | started hstopped => exact fun i => nofun
  | startFailed hstopped => exact h hrunning
  | stopped _ | released _ => cases hrunning
  | signalled _ | allNotified _ | joined _ _ _ _ | eventSet | changed _ => exact h hrunning
  | notified i _ _ | wokenForNothing i => exact notify_alive (h hrunning)
  | advanced i line hline =>
    have hrun : s.isRunning = true := by simpa [PacketFilter.isRunning] using hrunning
    rw [hrun] at hline
    exact fun j => advance_not_exited (h hrunning j) hline
  | waited _ _ _ | reset _ _ | retried _ _ | processed _ _ _ _ | sentMstcp _ _ | sentAdapter _ _
  | read _ _ _ _ | readFailed _ _ _ _ _ => exact hold_alive (h hrunning)

def WithDriver (s : PacketFilter ρ ε π) (b : UnsortedPacketBlock π) : Prop :=
  s.line.place .read = .holding ⟨b, .waiting⟩ ∧ s.packetEvent = false ∨
    s.line.place .read = .holding ⟨b, .reading⟩

/-- Where no thread can go on by itself, the writers and the filtering thread hold no block and the
    reader, if it holds one, is with the driver. -/
theorem place_of_blocked_threads (hline : LineOk s.filterState s.line)
    (hblocked : Blocked setup Label.isThread s) (i : Stage) :
    s.line.place i = .asleep ∧ s.line.queue i = [] ∨ s.line.place i = .exited ∨
      i = .read ∧ ∃ b, WithDriver s b := by
  have hadvance : ∀ i, advance (threads π) s.isRunning s.line i = none := by
    intro i
    have := hblocked (.advance i) rfl
    exact Option.map_eq_none_iff.mp this
  obtain hasleep | hexited | ⟨job, hplace, hfinish⟩ := place_of_blocked hline.synced hadvance i
  · exact .inl hasleep
  · exact .inr (.inl hexited)
  · have hwork : workStep setup s i job = none := by
      have := hblocked (.work i) rfl
      simpa [step, hplace] using this
    have hjob := hline.kept.jobs i job hplace
    obtain ⟨b, phase⟩ := job
    cases i with
    | read =>
      obtain ⟨-, rfl | rfl | rfl | ⟨rfl | rfl, -⟩⟩ := hjob
      · refine .inr (.inr ⟨rfl, b, .inl ⟨hplace, ?_⟩⟩)
        by_contra hevent
        simp [workStep, Bool.eq_true_of_not_eq_false hevent] at hwork
      · simp [workStep] at hwork
      · exact .inr (.inr ⟨rfl, b, .inr hplace⟩)
      · simp [workStep] at hwork
      · cases hfinish
    | process =>
      obtain ⟨n, rfl, -⟩ := hjob
      have hn : n < b.packetsSuccess := by
        by_contra hn
        simp [threads, finishJob, hn] at hfinish
      simp [workStep, hn] at hwork
    | writeMstcp =>
      obtain ⟨-, rfl | ⟨rfl, -⟩⟩ := hjob
      · simp [workStep] at hwork
      · cases hfinish
    | writeAdapter =>
      obtain ⟨-, -, rfl | ⟨rfl, -⟩⟩ := hjob
      · simp [workStep] at hwork
      · cases hfinish

/-- All that has been read has been filtered and put back, and every block but the reader's is free. -/
structure Drained (setup : Setup ρ ε π) (s : PacketFilter ρ ε π) : Prop where
  shown : calls s.trace = s.delivered
  sent : ∀ way, s.sent way = goes way (sequential setup s.origin s.trace).2
  reader : ∃ b, WithDriver s b
  free : (s.line.queue .read).length + 1 = maximumBlockNum

theorem drained_of_blocked (h : Invariant setup s) (halive : Alive s) (hrunning : s.filterState = .running)
    (hblocked : Blocked setup Label.isThread s) : Drained setup s := by
  have hplace := place_of_blocked_threads h.line hblocked
  have hidle : ∀ i, i ≠ .read → s.line.place i = .asleep ∧ s.line.queue i = [] := by
    intro i hi
    obtain hasleep | hexited | ⟨rfl, -⟩ := hplace i
    · exact hasleep
    · exact absurd hexited (halive hrunning i)
    · exact absurd rfl hi
  have hblocks := h.line.blocks (by simp [hrunning])
  obtain ⟨hprocess, hprocess'⟩ := hidle .process (by decide)
  obtain ⟨hmstcp, hmstcp'⟩ := hidle .writeMstcp (by decide)
  obtain ⟨hadapter, hadapter'⟩ := hidle .writeAdapter (by decide)
  obtain ⟨b, hreader⟩ : ∃ b, WithDriver s b := by
    obtain ⟨hread, hread'⟩ | hexited | ⟨-, hreader⟩ := hplace .read
    · -- all blocks would be gone
      have := congrArg Multiset.card hblocks
      simp [tokens, total, sum_stages, hread, hread', hprocess, hprocess', hmstcp, hmstcp', hadapter,
        hadapter', Place.job, maximumBlockNum] at this
    · exact absurd hexited (halive hrunning .read)
    · exact hreader
  obtain ⟨job, hjob, hphase⟩ : ∃ job, s.line.place .read = .holding job ∧ job.phase ≠ .done := by
    obtain ⟨hread, -⟩ | hread := hreader
    · exact ⟨_, hread, by simp⟩
    · exact ⟨_, hread, by simp⟩
  have hunread : unread.owed order s.line = [] := by
    simp [Debt.owed, Debt.due, order, unread, hprocess, hprocess', hmstcp, hmstcp', hadapter, hadapter',
      Place.job, hjob, hphase]
  have hunsent : ∀ way, (unsent way).owed order s.line = [] := by
    intro way
    simp [Debt.owed, Debt.due, order, unsent, hprocess, hprocess', hmstcp, hmstcp', hadapter, hadapter',
      Place.job, hjob]
  have hexact := h.exact (by simp [hrunning])
  refine ⟨?_, fun way => ?_, ⟨b, hreader⟩, ?_⟩
  · rw [hexact.delivered, hunread, List.append_nil]
  · rw [hexact.sent way, hunsent way, List.append_nil]
  · have := congrArg Multiset.card hblocks
    simpa [tokens, total, sum_stages, hjob, hprocess, hprocess', hmstcp, hmstcp', hadapter, hadapter',
      Place.job] using this

/-- From here on the threads can take no more than `patience` steps before they need the driver, in
    whatever order, and then everything that was read is out. -/
def Drains (setup : Setup ρ ε π) (s : PacketFilter ρ ε π) : Prop :=
  s.filterState = .running → ∀ more t, (∀ a ∈ more, Label.isThread a = true) →
    exec (step setup) s more = some t →
      more.length ≤ patience s ∧ (Blocked setup Label.isThread t → Drained setup t)

theorem drains_of_invariant (h : Invariant setup s) (halive : Alive s) : Drains setup s := by
  intro hrunning more
  induction more generalizing s with
  | nil =>
    intro t _ hrun
    obtain rfl := Option.some.inj hrun
    exact ⟨Nat.zero_le _, drained_of_blocked h halive hrunning⟩
  | cons a more ih =>
    intro t hmore hrun
    obtain ⟨u, hu, hrun⟩ := Option.bind_eq_some_iff.mp hrun
    obtain ⟨ha, hmore⟩ := List.forall_mem_cons.mp hmore
    have hdoes := step_does hu
    have hless := patience_thread h.line hrunning ha hdoes
    obtain ⟨hlength, hdrained⟩ := ih (invariant_step s a u h hu) (halive.does hdoes)
      ((state_of_thread ha hdoes).trans hrunning) t hmore hrun
    exact ⟨by simp only [List.length_cons]; omega, hdrained⟩

/-- A running filter never stalls with packets inside: without the driver its threads soon come to
    rest, and then all packets have been filtered and put back. -/
theorem always_drains (setup : Setup ρ ε π) (r : ρ) (labels : List (Label ε π)) :
    Always (step setup) (Drains setup) (initial r) labels := by
  have halways : Always (step setup) (fun s => Invariant setup s ∧ Alive s) (initial r) labels :=
    always_of_invariant (fun s a t h hstep => ⟨invariant_step s a t h.1 hstep, h.2.does (step_does hstep)⟩)
      labels ⟨invariant_initial setup r, nofun⟩
  exact always_mono (fun s h => drains_of_invariant h.1 h.2) halways

end Running

/-! ### Stopping -/

section Stopping

/-- The steps that a call of `stop_filter` waits for. -/
def Label.isClosing : Label ε π → Bool
  | .advance _ | .work _ | .readPacketsUnsorted _ | .releaseFilter => true
  | _ => false

def Label.isSpurious : Label ε π → Bool
  | .spurious _ => true
  | _ => false

def most : Stage → ℕ
  | .read => 9
  | .process => 5 + maximumPacketBlock
  | .writeMstcp | .writeAdapter => 6

def closingWeight (i : Stage) (job : Job π) : ℕ :=
  match i, job.phase with
  | .read, .waiting => 9
  | .read, .resetting => 8
  | .read, .reading => 7
  | .read, .failed => 6
  | .process, .processing n => 5 + (job.block.packetsSuccess - n)
  | .writeMstcp, .sending | .writeAdapter, .sending => 6
  | _, _ => 5

def Release.rank : Release → ℕ
  | .idle => 0
  | .signal => 30
  | .notify rest => 10 + 4 * rest.length
  | .join rest => 1 + rest.length

def stopRank (s : PacketFilter ρ ε π) : ℕ := closingRank most closingWeight s.line + s.release.rank

theorem stopRank_closing {a : Label ε π} (hline : LineOk s.filterState s.line)
    (hstopping : s.filterState = .stopping) (ha : a.isClosing = true) (hstep : Does setup s a t) :
    stopRank t < stopRank s := by
  have hwork : ∀ {i : Stage} {job job' : Job π}, s.line.place i = .holding job →
      closingWeight i job' < closingWeight i job →
      closingRank most closingWeight (s.line.goto i (.holding job')) + s.release.rank < stopRank s := by
    intro i job job' hplace hless
    have := closingRank_goto_job most closingWeight job' hplace
    simp only [stopRank]
    omega
  have hrest : ∀ {release : Release}, release.rank < s.release.rank →
      closingRank most closingWeight s.line + release.rank < stopRank s :=
    fun hless => Nat.add_lt_add_left hless _
  have hrunning : s.isRunning = false := by simp [PacketFilter.isRunning, hstopping]
  cases hstep with
  | signalled hrelease => exact hrest (by simp [hrelease, Release.rank, stages])
  | notified i rest hrelease =>
    have := notify_closingRank_le most closingWeight s.line i
    simp only [stopRank, hrelease, Release.rank, List.length_cons]
    omega
  | allNotified hrelease => exact hrest (by simp [hrelease, Release.rank, stages])
  | joined i rest hrelease hplace => exact hrest (by simp [hrelease, Release.rank])
  | released hrelease =>
    exact hrest (show Release.idle.rank < s.release.rank by simp [hrelease, Release.rank])
  | advanced i line hline' =>
    rw [hrunning] at hline'
    refine Nat.add_lt_add_right (advance_closingRank threads_next_ne (fun i b hb => ?_)
      (fun i job b hjob hb => ?_) hline.kept hline') _
    · cases i with
      | process => exact Nat.add_le_add_left hb.2 5
      | _ => exact Nat.le_refl _
    · obtain rfl | ⟨n, rfl, -⟩ := finishJob_block hb
      · cases i <;> simp [closingWeight]
      · cases i <;> simp [closingWeight]
  | waited b hplace hevent => exact hwork hplace (by simp [closingWeight])
  | reset b hplace => exact hwork hplace (by simp [closingWeight])
  | retried b hplace => exact hwork hplace (by simp [closingWeight, hrunning])
  | processed b n hplace hn =>
    refine hwork hplace ?_
    simp only [closingWeight, (processPacket_block setup s.router b n).1]
    omega
  | sentMstcp b hplace => exact hwork hplace (by simp [closingWeight])
  | sentAdapter b hplace => exact hwork hplace (by simp [closingWeight])
  | read b packets hplace hfits => exact hwork hplace (by simp [closingWeight])
  | readFailed b n buffers hplace hfits => exact hwork hplace (by simp [closingWeight])
  | _ => cases ha

def LastRead : Place (Job π) → Prop
  | .holding ⟨_, .reading⟩ | .holding ⟨_, .failed⟩ | .holding ⟨_, .done⟩ | .looping | .exited => True
  | _ => False

def Release.signalled : Release → Bool
  | .notify _ | .join _ => true
  | _ => false

/-- The event that `release_filter` has set is there when the reader needs it. -/
def Signalled (s : PacketFilter ρ ε π) : Prop :=
  s.release.signalled = true → s.packetEvent = true ∨ LastRead (s.line.place .read)

theorem lastRead_wake {p : Place (Job π)} (h : LastRead p) : LastRead p.wake := by
  cases p <;> exact h

theorem lastRead_advance {line line' : FilterLine π} {i : Stage}
    (h : LastRead (line.place .read)) (hstep : advance (threads π) false line i = some line') :
    LastRead (line'.place .read) := by
  obtain ⟨p, hp, rfl⟩ | ⟨b, rest, hp, hq, rfl⟩ | ⟨job, b, hp, hb, hfree, rfl⟩ := advance_cases hstep
  · by_cases hi : Stage.read = i
    · subst hi
      rw [Line.goto_place_self]
      cases hc : line.place .read with
      | looping =>
        rw [hc] at hp
        obtain rfl := Option.some.inj hp
        trivial
      | holding _ | exited => rw [hc] at hp; cases hp
      | _ => rw [hc] at h; exact h.elim
    · rwa [Line.goto_place_of_ne _ _ hi]
  · by_cases hi : Stage.read = i
    · subst hi
      rw [hp] at h
      exact h.elim
    · simpa [Line.take, Function.update_of_ne hi] using h
  · cases i with
    | read => trivial
    | writeAdapter => exact lastRead_wake h
    | process | writeMstcp => exact h

theorem Signalled.does {a : Label ε π} (hlife : Lifecycle s.filterState s.release s.line)
    (h : Signalled s) (hstep : Does setup s a t) : Signalled t := by
  intro hrelease
  have hrunning : s.release.signalled = true → s.isRunning = false := by
    intro hsignalled
    have := hlife.stopping (by rintro hidle; rw [hidle] at hsignalled; cases hsignalled)
    simp [PacketFilter.isRunning, this]
  cases hstep with
  | started hstopped | startFailed hstopped =>
    have hidle : s.release = .idle := hlife.idle (by simp [hstopped])
    cases (congrArg Release.signalled hidle).symm.trans hrelease
  | stopped _ | released _ => cases hrelease
  | signalled _ | eventSet => exact .inl rfl
  | notified i rest hrel =>
    refine (h (by rw [hrel]; rfl)).imp id fun hlast => ?_
    by_cases hi : Stage.read = i
    · subst hi
      exact (Line.notify_place_self s.line .read).symm ▸ lastRead_wake hlast
    · exact (Line.notify_place_of_ne s.line hi).symm ▸ hlast
  | wokenForNothing i =>
    refine (h hrelease).imp id fun hlast => ?_
    by_cases hi : Stage.read = i
    · subst hi
      exact (Line.notify_place_self s.line .read).symm ▸ lastRead_wake hlast
    · exact (Line.notify_place_of_ne s.line hi).symm ▸ hlast
  | allNotified hrel | joined _ _ hrel _ => exact h (by rw [hrel]; rfl)
  | changed e => exact h hrelease
  | advanced i line hline' =>
    rw [hrunning hrelease] at hline'
    exact (h hrelease).imp id fun hlast => lastRead_advance hlast hline'
  | waited b hplace hevent => exact .inl hevent
  | reset b hplace | readFailed b _ _ hplace _ | read b _ hplace _ =>
    exact .inr (Line.goto_place_self s.line .read _ ▸ trivial)
  | retried b hplace =>
    refine .inr ?_
    rw [show (s.hold .read _).line.place .read = _ from Line.goto_place_self .., hrunning hrelease]
    trivial
  | processed _ _ hplace _ | sentMstcp _ hplace | sentAdapter _ hplace =>
    exact (h hrelease).imp id fun hlast =>
      (congrArg LastRead (Line.goto_place_of_ne s.line _ (by decide))).mpr hlast

/-- `stop_filter` waits for ever: what it has yet to join sleeps, and nobody is left to wake it. -/
structure Hung (s : PacketFilter ρ ε π) : Prop where
  stopping : s.filterState = .stopping
  gone : ∀ i, s.line.place i = .asleep ∨ s.line.place i = .exited
  joining : ∃ rest i, s.release = .join rest ∧ i ∈ rest ∧ s.line.place i = .asleep

theorem hung_step {a : Label ε π} (h : Hung s) (ha : a.isSpurious = false) (hstep : Does setup s a t) :
    Hung t := by
  obtain ⟨hstopping, hgone, rest, i, hjoin, hi, hasleep⟩ := h
  have hidle : ∀ {j : Stage} {job : Job π}, s.line.place j ≠ .holding job := by
    intro j job hplace
    obtain hsleeps | hleft := hgone j
    · exact absurd (hsleeps.symm.trans hplace) nofun
    · exact absurd (hleft.symm.trans hplace) nofun
  cases hstep with
  | started hstopped | startFailed hstopped => exact absurd (hstopping.symm.trans hstopped) nofun
  | stopped hrunning => exact absurd (hstopping.symm.trans hrunning) nofun
  | signalled hrelease => exact absurd (hjoin.symm.trans hrelease) nofun
  | notified j rest hrelease => exact absurd (hjoin.symm.trans hrelease) nofun
  | allNotified hrelease => exact absurd (hjoin.symm.trans hrelease) nofun
  | joined j rest' hrelease hplace =>
    obtain rfl : rest = j :: rest' := Release.join.inj (hjoin.symm.trans hrelease)
    rcases List.mem_cons.mp hi with rfl | hi
    · exact absurd (hasleep.symm.trans hplace) nofun
    · exact ⟨hstopping, hgone, rest', i, rfl, hi, hasleep⟩
  | released hrelease =>
    obtain rfl : rest = [] := Release.join.inj (hjoin.symm.trans hrelease)
    cases hi
  | advanced j line hline =>
    obtain hsleeps | hleft := hgone j
    · simp [advance, hsleeps, Plan.move] at hline
    · rw [advance_none_of_exited hleft] at hline
      cases hline
  | eventSet | changed _ => exact ⟨hstopping, hgone, rest, i, hjoin, hi, hasleep⟩
  | wokenForNothing _ => cases ha
  | waited _ hplace | reset _ hplace | retried _ hplace | processed _ _ hplace | sentMstcp _ hplace
  | sentAdapter _ hplace | read _ _ hplace | readFailed _ _ _ hplace => exact absurd hplace hidle

/-- A call of `stop_filter` that hangs never returns, unless a condition variable wakes a thread
    that was not notified. -/
theorem hung_forever {more : List (Label ε π)} (hquiet : ∀ a ∈ more, Label.isSpurious a = false)
    (h : Hung s) (hrun : exec (step setup) s more = some t) : Hung t := by
  induction more generalizing s with
  | nil => exact Option.some.inj hrun ▸ h
  | cons a more ih =>
    obtain ⟨u, hu, hrun⟩ := Option.bind_eq_some_iff.mp hrun
    obtain ⟨ha, hquiet⟩ := List.forall_mem_cons.mp hquiet
    exact ih hquiet (hung_step h ha (step_does hu)) hrun

def bare : Setup Unit Unit Unit := ⟨none, none, fun _ _ => (), fun _ => ⟨0, 0, ()⟩⟩

/-- The last thread has tested its condition when the filter is stopped, and sleeps after it has
    been notified. -/
def missed : List (Label Unit Unit) :=
  [.startFilter true, .advance .writeAdapter, .advance .writeAdapter, .advance .writeAdapter,
    .stopFilter, .releaseFilter, .releaseFilter, .releaseFilter, .releaseFilter, .releaseFilter,
    .releaseFilter, .advance .writeAdapter, .advance .read, .advance .process, .advance .writeMstcp,
    .releaseFilter, .releaseFilter, .releaseFilter]

theorem hung_forever_missed : ∃ s t, exec (step bare) (initial ()) missed = some s ∧ Hung s ∧
    exec (step bare) s [.signalEvent, .change ()] = some t ∧ Hung t := by
  refine ⟨_, _, rfl, ?hung, rfl, @hung_forever _ _ _ bare _ _ [.signalEvent, .change ()]
    (by decide) ?hung rfl⟩
  refine ⟨rfl, fun i => ?_, [.writeAdapter], .writeAdapter, rfl, List.mem_singleton_self _, rfl⟩
  cases i
  · exact .inr rfl
  · exact .inr rfl
  · exact .inr rfl
  · exact .inl rfl

/-- Where nothing that `stop_filter` waits for can happen, it has returned or it hangs. -/
theorem stopped_or_hung_of_blocked (hlife : Lifecycle s.filterState s.release s.line)
    (hline : LineOk s.filterState s.line) (hsignalled : Signalled s) (hstate : s.filterState ≠ .running)
    (hblocked : Blocked setup Label.isClosing s) : s.filterState = .stopped ∨ Hung s := by
  cases hs : s.filterState with
  | stopped => exact .inl rfl
  | running => exact absurd hs hstate
  | stopping =>
    have hrelease : releaseStep s = none := hblocked .releaseFilter rfl
    have hthreads : Blocked setup Label.isThread s := by
      intro a ha
      refine hblocked a ?_
      cases a <;> first | rfl | cases ha
    cases hr : s.release with
    | idle => exact absurd hr (hlife.busy hs)
    | signal => simp [releaseStep, hr] at hrelease
    | notify rest => cases rest <;> simp [releaseStep, hr] at hrelease
    | join rest =>
      have hgone : ∀ i, s.line.place i = .asleep ∨ s.line.place i = .exited := by
        intro i
        obtain ⟨hsleeps, -⟩ | hleft | ⟨rfl, b, ⟨hwaits, hevent⟩ | hreads⟩ :=
          place_of_blocked_threads hline hthreads i
        · exact .inl hsleeps
        · exact .inr hleft
        · obtain hset | hlast := hsignalled (by rw [hr]; rfl)
          · exact absurd (hset.symm.trans hevent) nofun
          · rw [hwaits] at hlast
            exact hlast.elim
        · have := hblocked (.readPacketsUnsorted (.success [])) rfl
          simp [step, hreads, ReadOutcome.fits] at this
      cases rest with
      | nil => simp [releaseStep, hr] at hrelease
      | cons i rest =>
        obtain hsleeps | hleft := hgone i
        · exact .inr ⟨hs, hgone, i :: rest, i, hr, List.mem_cons_self, hsleeps⟩
        · simp [releaseStep, hr, hleft] at hrelease

/-- The notification of a thread is not one it misses: the thread is not between the test of its
    condition, which it holds the lock for, and its sleep. -/
def inTime (s : PacketFilter ρ ε π) (a : Label ε π) : Bool :=
  match a, s.release with
  | .releaseFilter, .notify (i :: _) => !(s.line.place i).isParking
  | _, _ => true

def Release.hasNotified : Release → Stage → Prop
  | .notify rest, i => i ∉ rest
  | .join _, _ => True
  | _, _ => False

def Awake (s : PacketFilter ρ ε π) : Prop :=
  ∀ i, s.release.hasNotified i → (s.line.place i).awake

theorem notify_awake {line : FilterLine π} {i j : Stage} (h : (line.place j).awake) :
    ((line.notify i).place j).awake := by
  by_cases hij : j = i
  · subst hij
    rw [Line.notify_place_self]
    exact Place.wake_awake h
  · rwa [Line.notify_place_of_ne _ hij]

theorem hold_awake {line : FilterLine π} {i j : Stage} {job : Job π} (h : (line.place j).awake) :
    ((line.goto i (.holding job)).place j).awake := by
  by_cases hij : j = i
  · subst hij
    rw [Line.goto_place_self]
    trivial
  · rwa [Line.goto_place_of_ne _ _ hij]

theorem Awake.does {a : Label ε π} (hlife : Lifecycle s.filterState s.release s.line) (h : Awake s)
    (htime : inTime s a = true) (hstep : Does setup s a t) : Awake t := by
  intro j hj
  cases hstep with
  | started hstopped => trivial
  | startFailed _ | eventSet | changed _ => exact h j hj
  | joined i rest hrelease _ => exact h j (by rw [hrelease]; trivial)
  | stopped _ | released _ => exact hj.elim
  | signalled hrelease => exact absurd (show j ∈ stages by cases j <;> decide) hj
  | allNotified hrelease => exact h j (by rw [hrelease]; exact List.not_mem_nil)
  | notified i rest hrelease =>
    by_cases hij : j = i
    · subst hij
      simp only [inTime, hrelease, Bool.not_eq_true'] at htime
      rw [Line.notify_place_self]
      cases hc : s.line.place j with
      | parking => rw [hc] at htime; cases htime
      | _ => trivial
    · exact notify_awake (h j (by rw [hrelease]; exact fun hmem => hj ((List.mem_cons.mp hmem).resolve_left hij)))
  | advanced i line hline =>
    have hrunning : s.isRunning = false := by
      have := hlife.stopping (fun hidle => by rw [hidle] at hj; exact hj)
      simp [PacketFilter.isRunning, this]
    rw [hrunning] at hline
    exact advance_awake (h j hj) hline
  | wokenForNothing _ => exact notify_awake (h j hj)
  | waited _ _ _ | reset _ _ | retried _ _ | processed _ _ _ _ | sentMstcp _ _ | sentAdapter _ _
  | read _ _ _ _ | readFailed _ _ _ _ _ => exact hold_awake (h j hj)

structure Closable (setup : Setup ρ ε π) (s : PacketFilter ρ ε π) : Prop where
  invariant : Invariant setup s
  signalled : Signalled s

theorem closable_step (s : PacketFilter ρ ε π) (a : Label ε π) (t : PacketFilter ρ ε π)
    (h : Closable setup s) (hstep : step setup s a = some t) : Closable setup t :=
  ⟨invariant_step s a t h.invariant hstep, h.signalled.does h.invariant.life (step_does hstep)⟩

theorem closable_initial (setup : Setup ρ ε π) (r : ρ) : Closable setup (initial r) :=
  ⟨invariant_initial setup r, nofun⟩

theorem state_of_closing {a : Label ε π} (ha : a.isClosing = true) (h : s.filterState ≠ .running)
    (hstep : Does setup s a t) : t.filterState ≠ .running := by
  cases hstep with
  | released hrelease => exact nofun
  | started _ | startFailed _ | stopped _ | eventSet | wokenForNothing _ | changed _ => cases ha
  | _ => exact h

theorem stopRank_le {a : Label ε π} (hlife : Lifecycle s.filterState s.release s.line)
    (hline : LineOk s.filterState s.line) (hstate : s.filterState ≠ .running) (ha : a.isClosing = true)
    (hstep : Does setup s a t) : stopRank t < stopRank s := by
  cases hs : s.filterState with
  | running => exact absurd hs hstate
  | stopping => exact stopRank_closing hline hs ha hstep
  | stopped =>
    -- nothing is left to close
    have hexited := fun i => (hlife.stopped hs i).2
    have hidle : s.release = .idle := hlife.idle (by simp [hs])
    cases hstep with
    | signalled hrelease | allNotified hrelease | released hrelease =>
      exact absurd (hidle.symm.trans hrelease) nofun
    | notified _ _ hrelease => exact absurd (hidle.symm.trans hrelease) nofun
    | joined _ _ hrelease _ => exact absurd (hidle.symm.trans hrelease) nofun
    | advanced i line hline' =>
      rw [advance_none_of_exited (hexited i)] at hline'
      cases hline'
    | waited _ hplace | reset _ hplace | retried _ hplace | processed _ _ hplace | sentMstcp _ hplace
    | sentAdapter _ hplace | read _ _ hplace | readFailed _ _ _ hplace =>
      exact absurd ((hexited _).symm.trans hplace) nofun
    | _ => cases ha

/-- Once the filter has left the running state, at most `stopRank` steps of the threads and of
    `release_filter` remain, in whatever order, and then `stop_filter` has returned or hangs. -/
def Ends (setup : Setup ρ ε π) (s : PacketFilter ρ ε π) : Prop :=
  s.filterState ≠ .running → ∀ more t, (∀ a ∈ more, Label.isClosing a = true) →
    exec (step setup) s more = some t →
      more.length ≤ stopRank s ∧
        (Blocked setup Label.isClosing t → t.filterState = .stopped ∨ Hung t)

theorem Closable.ends (h : Closable setup s) : Ends setup s := by
  intro hstate more
  induction more generalizing s with
  | nil =>
    intro t _ hrun
    obtain rfl := Option.some.inj hrun
    exact ⟨Nat.zero_le _,
      stopped_or_hung_of_blocked h.invariant.life h.invariant.line h.signalled hstate⟩
  | cons a more ih =>
    intro t hmore hrun
    obtain ⟨u, hu, hrun⟩ := Option.bind_eq_some_iff.mp hrun
    obtain ⟨ha, hmore⟩ := List.forall_mem_cons.mp hmore
    have hdoes := step_does hu
    have hless := stopRank_le h.invariant.life h.invariant.line hstate ha hdoes
    obtain ⟨hlength, hend⟩ :=
      ih (closable_step s a u h hu) (state_of_closing ha hstate hdoes) t hmore hrun
    exact ⟨by simp only [List.length_cons]; omega, hend⟩

/-- Every call of `stop_filter` comes to an end or to a standstill in which threads sleep that no
    one will notify again. -/
theorem always_ends (setup : Setup ρ ε π) (r : ρ) (labels : List (Label ε π)) :
    Always (step setup) (Ends setup) (initial r) labels :=
  always_mono (fun _ h => h.ends)
    (always_of_invariant closable_step labels (closable_initial setup r))

theorem not_hung_of_awake (h : Awake s) : ¬ Hung s := by
  rintro ⟨-, -, rest, i, hjoin, -, hasleep⟩
  have := h i (by rw [hjoin]; trivial)
  rw [hasleep] at this
  exact this

/-- Once the filter has left the running state, at most `stopRank` steps remain until
    `stop_filter` has returned, if the notifications still to come are in time. -/
def Returns (setup : Setup ρ ε π) (s : PacketFilter ρ ε π) : Prop :=
  s.filterState ≠ .running → ∀ more t, (∀ a ∈ more, Label.isClosing a = true) →
    Meets (step setup) (fun s a => inTime s a = true) s more → exec (step setup) s more = some t →
      more.length ≤ stopRank s ∧ (Blocked setup Label.isClosing t → t.filterState = .stopped)

theorem awake_step (s : PacketFilter ρ ε π) (a : Label ε π) (t : PacketFilter ρ ε π)
    (h : Closable setup s ∧ Awake s) (htime : inTime s a = true) (hstep : step setup s a = some t) :
    Closable setup t ∧ Awake t :=
  ⟨closable_step s a t h.1 hstep, h.2.does h.1.invariant.life htime (step_does hstep)⟩

theorem returns_of_awake (h : Closable setup s ∧ Awake s) : Returns setup s := by
  intro hstate more t hmore htime hrun
  obtain ⟨hlength, hend⟩ := h.1.ends hstate more t hmore hrun
  have hawake : Closable setup t ∧ Awake t :=
    (always_iff_reached s more).mp (always_of_meets awake_step h htime) more [] t
      (List.append_nil more).symm hrun
  exact ⟨hlength, fun hblocked => (hend hblocked).resolve_right (not_hung_of_awake hawake.2)⟩

/-- If no thread is caught between the test of its condition and its sleep when it is notified,
    `stop_filter` returns, however the threads are interleaved. -/
theorem always_returns (setup : Setup ρ ε π) (r : ρ) {labels : List (Label ε π)}
    (htime : Meets (step setup) (fun s a => inTime s a = true) (initial r) labels) :
    Always (step setup) (Returns setup) (initial r) labels :=
  always_mono (fun _ h => returns_of_awake h)
    (always_of_meets awake_step ⟨closable_initial setup r, fun _ => nofun⟩ htime)

def noticed : List (Label Unit Unit) :=
  [.startFilter true, .advance .writeAdapter, .advance .writeAdapter, .advance .writeAdapter,
    .advance .writeAdapter, .stopFilter, .releaseFilter, .releaseFilter, .releaseFilter, .releaseFilter,
    .releaseFilter]

theorem always_returns_noticed : Always (step bare) (Returns bare) (initial ()) noticed :=
  always_returns bare () (by decide)

end Stopping

end ProxySwitch.PacketQueues
