import ProxySwitch.PacketQueueInvariants

set_option autoImplicit false

namespace ProxySwitch.PacketQueues
open StagedQueues TransitionRuns

variable {ρ ε π : Type} {setup : Setup ρ ε π} {s t : PacketFilter ρ ε π}

/-! ### One packet after the other -/

section Sequential

variable (setup) (r : ρ)

theorem sequential_append (turns more : List (Turn ε π)) :
    sequential setup r (turns ++ more) =
      ((sequential setup (sequential setup r turns).1 more).1,
        (sequential setup r turns).2 ++ (sequential setup (sequential setup r turns).1 more).2) := by
  induction turns generalizing r with
  | nil => rfl
  | cons turn turns ih =>
    cases turn with
    | event e => exact ih _
    | call p => simp [sequential, ih]

omit setup r in
theorem calls_append (turns more : List (Turn ε π)) : calls (turns ++ more) = calls turns ++ calls more := by
  induction turns with
  | nil => rfl
  | cons turn turns ih => cases turn <;> simp [calls, ih]

omit setup r in
theorem goes_append (way : Way) (outputs more : List (Way × IntermediateBuffer π)) :
    goes way (outputs ++ more) = goes way outputs ++ goes way more := by
  simp [goes]

end Sequential

def unread : Debt Stage (UnsortedPacketBlock π) (Job π) (IntermediateBuffer π) where
  item i b := match i with
    | .process => if b.fresh then packetsOf b else []
    | _ => []
  job i job := match i, job.phase with
    | .read, .done => if job.block.fresh then packetsOf job.block else []
    | .process, .processing n => if job.block.fresh then (packetsOf job.block).drop n else []
    | _, _ => []

def unsent (way : Way) : Debt Stage (UnsortedPacketBlock π) (Job π) (IntermediateBuffer π) where
  item i b := match i, way with
    | .writeMstcp, _ | .writeAdapter, .adapter => pending b way
    | _, _ => []
  job i job := match i, way with
    | .process, _ | .writeMstcp, _ | .writeAdapter, .adapter => pending job.block way
    | _, _ => []

def order : List Stage := [.writeAdapter, .writeMstcp, .process, .read]

def PacketFilter.sent (s : PacketFilter ρ ε π) : Way → List (IntermediateBuffer π)
  | .adapter => s.toAdapter
  | .mstcp => s.toMstcp

@[simp] theorem flatMap_nothing {γ δ : Type} (l : List γ) : l.flatMap (fun _ => ([] : List δ)) = [] :=
  List.flatMap_eq_nil_iff.mpr fun _ _ => rfl

section Handover

variable {running : Bool} {line line' : FilterLine π} {i : Stage}

theorem pending_of_zero {b : UnsortedPacketBlock π} (h : Requested b 0) (way : Way) : pending b way = [] := by
  obtain ⟨hm, ha⟩ := requested_zero.mp h
  cases way <;> simp [pending, requested, hm, ha]

theorem finishJob_block {job : Job π} {b : UnsortedPacketBlock π} (hb : finishJob job = some b) :
    job = ⟨b, .done⟩ ∨ ∃ n, job = ⟨b, .processing n⟩ ∧ ¬ n < b.packetsSuccess := by
  obtain ⟨block, phase⟩ := job
  unfold finishJob at hb
  split at hb
  · next hphase =>
    obtain rfl : phase = _ := hphase
    exact .inl (by rw [← Option.some.inj hb])
  · next n hphase =>
    obtain rfl : phase = _ := hphase
    split at hb
    · cases hb
    · next hn =>
      obtain rfl := Option.some.inj hb
      exact .inr ⟨n, rfl, hn⟩
  · cases hb

theorem order_chain : List.IsChain (fun j i => (threads π).next i = j) order :=
  .cons_cons rfl (.cons_cons rfl (.cons_cons rfl (.singleton _)))

theorem unread_advance (hkept : Kept BlockOk JobOk line)
    (hstep : advance (threads π) running line i = some line') :
    unread.owed order line' = unread.owed order line := by
  refine owed_advance (fun i => by cases i <;> decide) (by decide) order_chain
    (threads_next_ne _)
    (fun i b hb => ?_) (fun i job b hi hjob hb => ?_) (fun job b hjob hb => ⟨rfl, rfl⟩) hkept hstep
  · cases i <;> rfl
  · cases i with
    | read =>
      obtain rfl := finishJob_read hjob hb
      rfl
    | process =>
      obtain ⟨n, hphase, -⟩ := hjob
      obtain rfl | ⟨m, rfl, hm⟩ := finishJob_block hb
      · cases hphase
      · simp [unread, threads, Stage.next, packetsOf_drop_done hm]
    | writeMstcp | writeAdapter => rfl

theorem unsent_advance (way : Way) (hkept : Kept BlockOk JobOk line)
    (hstep : advance (threads π) running line i = some line') :
    (unsent way).owed order line' = (unsent way).owed order line := by
  refine owed_advance (fun i => by cases i <;> decide) (by decide) order_chain
    (threads_next_ne _)
    (fun i b hb => ?_) (fun i job b hi hjob hb => ?_) (fun job b hjob hb => ?_) hkept hstep
  · cases i with
    | process => exact pending_of_zero hb.1 way
    | writeAdapter => cases way <;> rfl
    | _ => rfl
  · obtain ⟨-, rfl⟩ := finishJob_ok hjob hb
    cases i with
    | read | process => rfl
    | writeMstcp =>
      cases way with
      | adapter => rfl
      | mstcp =>
        obtain ⟨block, phase⟩ := job
        obtain ⟨-, rfl | ⟨rfl, hempty⟩⟩ := hjob
        · cases hb
        · simp [unsent, threads, Stage.next, pending, requested, hempty]
    | writeAdapter => exact absurd rfl hi
  · obtain ⟨hzero, rfl⟩ := finishJob_ok hjob hb
    cases way with
    | adapter => exact ⟨pending_of_zero hzero .adapter, rfl⟩
    | mstcp => exact ⟨rfl, rfl⟩

end Handover

/-- The filter has done to the packets shown to the handlers what `sequential` does, and what is not
    yet shown or not yet put back is on its way in the blocks, in order. -/
structure Exact (setup : Setup ρ ε π) (s : PacketFilter ρ ε π) : Prop where
  router : (sequential setup s.origin s.trace).1 = s.router
  delivered : s.delivered = calls s.trace ++ unread.owed order s.line
  sent : ∀ way, goes way (sequential setup s.origin s.trace).2 = s.sent way ++ (unsent way).owed order s.line

namespace Exact

theorem line (h : Exact setup s) {line : FilterLine π}
    (hunread : unread.owed order line = unread.owed order s.line)
    (hunsent : ∀ way, (unsent way).owed order line = (unsent way).owed order s.line) :
    Exact setup { s with line } :=
  ⟨h.router, hunread ▸ h.delivered, fun way => (hunsent way).symm ▸ h.sent way⟩

theorem notify (h : Exact setup s) {i : Stage} : Exact setup { s with line := s.line.notify i } :=
  h.line (Debt.owed_congr fun _ _ => Debt.due_notify)
    fun _ => Debt.owed_congr fun _ _ => Debt.due_notify

theorem hold (h : Exact setup s) {i : Stage} {job job' : Job π} (hplace : s.line.place i = .holding job)
    (hunread : unread.job i job' = unread.job i job)
    (hunsent : ∀ way, (unsent way).job i job' = (unsent way).job i job) : Exact setup (s.hold i job') :=
  h.line (Debt.owed_goto_same hplace hunread) fun way => Debt.owed_goto_same hplace (hunsent way)

theorem processed (h : Exact setup s) {b : UnsortedPacketBlock π} {n : ℕ}
    (hplace : s.line.place .process = .holding ⟨b, .processing n⟩) (hn : n < b.packetsSuccess)
    (hreq : Requested b n) (hfresh : b.fresh = true) :
    Exact setup ({ s with
      router := (processPacket setup s.router b n).2
      trace := s.trace ++ [Turn.call (b.packetBuffer n)] }.hold .process
        ⟨(processPacket setup s.router b n).1, .processing (n + 1)⟩) := by
  have hturn : sequential setup s.router [(Turn.call (b.packetBuffer n) : Turn ε π)] =
      ((processPacket setup s.router b n).2,
        (wayOf (filterPacket setup s.router (b.packetBuffer n)).2.1
          (filterPacket setup s.router (b.packetBuffer n)).1).toList.map
            fun way => (way, (filterPacket setup s.router (b.packetBuffer n)).2.1)) := by
    simp [sequential, processPacket]
  have hsplit : order = [.writeAdapter, .writeMstcp] ++ .process :: [.read] := rfl
  have hnodup : ([Stage.writeAdapter, .writeMstcp] ++ Stage.process :: [.read]).Nodup := by decide
  refine ⟨?_, ?_, fun way => ?_⟩
  · change (sequential setup s.origin (s.trace ++ [_])).1 = _
    rw [sequential_append, h.router, hturn]
    rfl
  · change s.delivered = calls (s.trace ++ [_]) ++ unread.owed order (s.line.goto .process _)
    have hdrop : unread.job .process ⟨b, .processing n⟩ =
        b.packetBuffer n :: unread.job .process ⟨(processPacket setup s.router b n).1, .processing (n + 1)⟩ := by
      simp [unread, hfresh, (processPacket_block setup s.router b n).2.1, processPacket_packets,
        packetsOf_drop hn]
    have howed : unread.owed order s.line = b.packetBuffer n :: unread.owed order
        (s.line.goto .process (.holding ⟨(processPacket setup s.router b n).1, .processing (n + 1)⟩)) := by
      rw [hsplit, Debt.owed_of_job hplace, Debt.owed_goto_job hnodup, hdrop]
      -- what is past the handlers owes nothing here
      simp [Debt.owed, Debt.due, unread]
    rw [h.delivered, howed, calls_append, List.append_assoc]
    rfl
  · change goes way (sequential setup s.origin (s.trace ++ [_])).2 =
      s.sent way ++ (unsent way).owed order (s.line.goto .process _)
    rw [sequential_append, goes_append, h.router, hturn, h.sent way, hsplit, Debt.owed_of_job hplace,
      Debt.owed_goto_job hnodup]
    have hjob : (unsent way).job .process
        ⟨(processPacket setup s.router b n).1, .processing (n + 1)⟩ =
          pending (processPacket setup s.router b n).1 way := rfl
    have hold : (unsent way).job .process ⟨b, .processing n⟩ = pending b way := rfl
    rw [hjob, hold, processPacket_pending setup _ hreq way]
    -- nothing is younger: the packets behind have not been decided
    simp [Debt.owed, Debt.due, unsent]

theorem sentMstcp (h : Exact setup s) {b : UnsortedPacketBlock π}
    (hplace : s.line.place .writeMstcp = .holding ⟨b, .sending⟩) :
    Exact setup ({ s with toMstcp := s.toMstcp ++ pending b .mstcp }.hold .writeMstcp
      ⟨{ b with writeMstcpRequest := [] }, .done⟩) := by
  have hnodup : ([Stage.writeAdapter] ++ Stage.writeMstcp :: [.process, .read]).Nodup := by decide
  refine ⟨h.router, h.delivered.trans ?_, fun way => (h.sent way).trans ?_⟩
  · exact congrArg _ (Debt.owed_goto_same hplace rfl).symm
  · cases way with
    | adapter =>
      exact congrArg _ (Debt.owed_goto_same hplace rfl).symm
    | mstcp =>
      change s.toMstcp ++ _ = (s.toMstcp ++ pending b .mstcp) ++ (unsent .mstcp).owed
        ([.writeAdapter] ++ .writeMstcp :: [.process, .read]) (s.line.goto .writeMstcp _)
      rw [show order = [.writeAdapter] ++ Stage.writeMstcp :: [.process, .read] from rfl,
        Debt.owed_of_job hplace, Debt.owed_goto_job hnodup]
      simp [Debt.owed, Debt.due, unsent, pending, requested]

theorem sentAdapter (h : Exact setup s) {b : UnsortedPacketBlock π}
    (hplace : s.line.place .writeAdapter = .holding ⟨b, .sending⟩) :
    Exact setup ({ s with toAdapter := s.toAdapter ++ pending b .adapter }.hold .writeAdapter
      ⟨{ b with writeAdapterRequest := [] }, .done⟩) := by
  have hnodup : (([] : List Stage) ++ Stage.writeAdapter :: [.writeMstcp, .process, .read]).Nodup := by
    decide
  refine ⟨h.router, h.delivered.trans ?_, fun way => (h.sent way).trans ?_⟩
  · exact congrArg _ (Debt.owed_goto_same hplace rfl).symm
  · cases way with
    | mstcp =>
      exact congrArg _ (Debt.owed_goto_same hplace rfl).symm
    | adapter =>
      change s.toAdapter ++ _ = (s.toAdapter ++ pending b .adapter) ++ (unsent .adapter).owed
        ([] ++ .writeAdapter :: [.writeMstcp, .process, .read]) (s.line.goto .writeAdapter _)
      rw [show order = [] ++ Stage.writeAdapter :: [.writeMstcp, .process, .read] from rfl,
        Debt.owed_of_job hplace, Debt.owed_goto_job hnodup]
      simp [Debt.owed, Debt.due, unsent, pending, requested]

theorem read (h : Exact setup s) {b : UnsortedPacketBlock π} (packets : List (IntermediateBuffer π))
    (hplace : s.line.place .read = .holding ⟨b, .reading⟩) :
    Exact setup ({ s with delivered := s.delivered ++ packets }.hold .read
      ⟨fill b (.success packets), .done⟩) := by
  have hnodup : ([Stage.writeAdapter, .writeMstcp, .process] ++ Stage.read :: []).Nodup := by decide
  refine ⟨h.router, ?_, fun way => (h.sent way).trans ?_⟩
  · change s.delivered ++ packets = calls s.trace ++ unread.owed
      ([.writeAdapter, .writeMstcp, .process] ++ Stage.read :: []) (s.line.goto .read _)
    have hjob : unread.job .read ⟨fill b (.success packets), .done⟩ = packets :=
      packetsOf_fill b packets
    rw [h.delivered, show order = [.writeAdapter, .writeMstcp, .process] ++ Stage.read :: [] from rfl,
      Debt.owed_of_job hplace, Debt.owed_goto_job hnodup, hjob]
    simp [Debt.owed, unread]
  · exact congrArg _ (Debt.owed_goto_same hplace (by cases way <;> rfl)).symm

theorem does {a : Label ε π} (hlife : Lifecycle s.filterState s.release s.line)
    (hline : LineOk s.filterState s.line) (hfresh : FreshOk s.filterState s.line)
    (h : s.filterState ≠ .stopped → Exact setup s) (hstep : Does setup s a t) :
    t.filterState ≠ .stopped → Exact setup t := by
  intro hstate
  cases hstep with
  | started hstopped =>
    have hempty : ∀ i, s.line.queue i = [] := fun i => (hlife.stopped hstopped i).1
    refine ⟨rfl, ?_, fun way => ?_⟩
    · simp [PacketQueues.started, calls, Debt.owed, Debt.due, order, unread, hempty, Place.job]
    · cases way <;>
        simp [PacketQueues.started, PacketFilter.sent, sequential, goes, Debt.owed, Debt.due, order,
          unsent, hempty, Place.job]
  | startFailed hstopped => exact absurd hstopped hstate
  | stopped hrunning =>
    have hexact := h (by simp [hrunning])
    exact ⟨hexact.router, hexact.delivered, hexact.sent⟩
  | signalled hrelease => exact ⟨(h hstate).router, (h hstate).delivered, (h hstate).sent⟩
  | notified i rest hrelease =>
    have hexact := (h hstate).notify (i := i)
    exact ⟨hexact.router, hexact.delivered, hexact.sent⟩
  | allNotified hrelease => exact ⟨(h hstate).router, (h hstate).delivered, (h hstate).sent⟩
  | joined i rest hrelease hplace => exact ⟨(h hstate).router, (h hstate).delivered, (h hstate).sent⟩
  | released hrelease => exact absurd rfl hstate
  | advanced i line hline' =>
    exact (h hstate).line (unread_advance hline.kept hline') fun way => unsent_advance way hline.kept hline'
  | waited b hplace hevent => exact (h hstate).hold hplace rfl fun way => by cases way <;> rfl
  | reset b hplace =>
    have hexact : Exact setup (s.hold .read ⟨b, .reading⟩) :=
      (h hstate).hold hplace rfl fun way => by cases way <;> rfl
    exact ⟨hexact.router, hexact.delivered, hexact.sent⟩
  | retried b hplace =>
    refine (h hstate).hold hplace ?_ fun way => by cases way <;> rfl
    split
    · rfl
    · simp [unread, hfresh.failed b hplace]
  | processed b n hplace hn =>
    obtain ⟨m, hm, -, hreq, -⟩ := hline.kept.jobs _ _ hplace
    obtain rfl := Phase.processing.inj hm
    exact (h hstate).processed hplace hn hreq (hfresh.held _ hplace)
  | sentMstcp b hplace => exact (h hstate).sentMstcp hplace
  | sentAdapter b hplace => exact (h hstate).sentAdapter hplace
  | read b packets hplace hfits => exact (h hstate).read packets hplace
  | readFailed b n buffers hplace hfits =>
    exact (h hstate).hold hplace rfl fun way => by cases way <;> rfl
  | eventSet => exact ⟨(h hstate).router, (h hstate).delivered, (h hstate).sent⟩
  | wokenForNothing i => exact (h hstate).notify
  | changed e =>
    refine ⟨?_, ?_, fun way => ?_⟩
    · change (sequential setup s.origin (s.trace ++ [_])).1 = _
      rw [sequential_append, (h hstate).router]
      rfl
    · change s.delivered = calls (s.trace ++ [_]) ++ _
      rw [calls_append, (h hstate).delivered]
      simp [calls]
    · change goes way (sequential setup s.origin (s.trace ++ [_])).2 = _
      rw [sequential_append, goes_append, (h hstate).sent way]
      simp [sequential, goes, PacketFilter.sent]

end Exact

/-! ### Whole runs -/

/-- What has been read has been shown to the handlers in its order, each packet at most once, and
    what they decided has gone out in that order. -/
structure AsIfSequential (setup : Setup ρ ε π) (s : PacketFilter ρ ε π) : Prop where
  router : (sequential setup s.origin s.trace).1 = s.router
  shown : calls s.trace <+: s.delivered
  sent : ∀ way, s.sent way <+: goes way (sequential setup s.origin s.trace).2

theorem Exact.asIfSequential (h : Exact setup s) : AsIfSequential setup s :=
  ⟨h.router, ⟨_, h.delivered.symm⟩, fun way => ⟨_, (h.sent way).symm⟩⟩

theorem AsIfSequential.change (h : AsIfSequential setup s) (e : ε) : AsIfSequential setup
    { s with router := setup.change s.router e, trace := s.trace ++ [Turn.event e] } := by
  have hturn : sequential setup s.router [(Turn.event e : Turn ε π)] = (setup.change s.router e, []) := rfl
  refine ⟨?_, ?_, fun way => ?_⟩
  · change (sequential setup s.origin (s.trace ++ [_])).1 = _
    rw [sequential_append, h.router, hturn]
  · change calls (s.trace ++ [_]) <+: s.delivered
    rw [calls_append]
    simpa [calls] using h.shown
  · change s.sent way <+: goes way (sequential setup s.origin (s.trace ++ [_])).2
    rw [sequential_append, h.router, hturn, List.append_nil]
    exact h.sent way

structure Invariant (setup : Setup ρ ε π) (s : PacketFilter ρ ε π) : Prop where
  life : Lifecycle s.filterState s.release s.line
  line : LineOk s.filterState s.line
  fresh : FreshOk s.filterState s.line
  exact : s.filterState ≠ .stopped → Exact setup s
  after : s.filterState = .stopped → AsIfSequential setup s

theorem Invariant.asIfSequential (h : Invariant setup s) : AsIfSequential setup s := by
  by_cases hstate : s.filterState = .stopped
  · exact h.after hstate
  · exact (h.exact hstate).asIfSequential

theorem invariant_initial (setup : Setup ρ ε π) (r : ρ) : Invariant setup (initial r) where
  life := ⟨fun _ _ => ⟨rfl, rfl⟩, fun _ => rfl, nofun, nofun⟩
  line := ⟨fun _ => trivial, ⟨fun _ _ hb => absurd hb List.not_mem_nil, nofun⟩, fun hne => absurd rfl hne⟩
  fresh := ⟨nofun, fun _ _ hb => absurd hb List.not_mem_nil, nofun, nofun⟩
  exact := fun hne => absurd rfl hne
  after := fun _ => ⟨rfl, List.prefix_rfl, fun way => by cases way <;> exact List.prefix_rfl⟩

theorem invariant_step (s : PacketFilter ρ ε π) (a : Label ε π) (t : PacketFilter ρ ε π)
    (h : Invariant setup s) (hstep : step setup s a = some t) : Invariant setup t := by
  have hdoes := step_does hstep
  refine ⟨h.life.does hdoes, LineOk.does h.life h.line hdoes, FreshOk.does h.life h.line h.fresh hdoes,
    Exact.does h.life h.line h.fresh h.exact hdoes, fun hstopped => ?_⟩
  cases hdoes with
  | started _ | stopped _ => cases hstopped
  | startFailed _ | joined _ _ _ _ | allNotified _ | signalled _ | eventSet | wokenForNothing _
  | notified _ _ _ | advanced _ _ _ =>
    exact ⟨h.asIfSequential.router, h.asIfSequential.shown, h.asIfSequential.sent⟩
  | released hrelease => exact ⟨h.asIfSequential.router, h.asIfSequential.shown, h.asIfSequential.sent⟩
  | changed e => exact h.asIfSequential.change e
  | waited _ hplace | reset _ hplace | retried _ hplace | processed _ _ hplace | sentMstcp _ hplace
  | sentAdapter _ hplace | read _ _ hplace | readFailed _ _ _ hplace =>
    exact absurd hstopped (h.life.holding hplace)

theorem always_invariant (setup : Setup ρ ε π) (r : ρ) (labels : List (Label ε π)) :
    Always (step setup) (Invariant setup) (initial r) labels :=
  always_of_invariant invariant_step labels (invariant_initial setup r)

/-- However the threads, the driver, `start_filter`, `stop_filter` and the rest of the world take
    turns, the packets are filtered in the order they were read, none twice and none skipped, and go
    out in the order in which they were filtered. -/
theorem always_asIfSequential (setup : Setup ρ ε π) (r : ρ) (labels : List (Label ε π)) :
    Always (step setup) (AsIfSequential setup) (initial r) labels :=
  always_mono (fun _ h => h.asIfSequential) (always_invariant setup r labels)

/-! ### The blocks -/

/-- Every block has one owner, a queue or a thread; no thread takes from an empty queue, writes or
    names a buffer outside its block, or filters a block it did not read. -/
structure BlocksOwned (s : PacketFilter ρ ε π) : Prop where
  once : tokens (fun b : UnsortedPacketBlock π => b.address) (fun job : Job π => job.block.address) s.line =
    if s.filterState = .stopped then 0 else Multiset.range maximumBlockNum
  front : ∀ i, s.line.place i = .taking → s.line.queue i ≠ []
  inBounds : ∀ i b, (b ∈ s.line.queue i ∨ ∃ phase, s.line.place i = .holding ⟨b, phase⟩) →
    Requested b maximumPacketBlock
  filtered : ∀ b n, s.line.place .process = .holding ⟨b, .processing n⟩ →
    b.fresh = true ∧ b.packetsSuccess ≤ maximumPacketBlock

theorem BlockOk.inBounds {i : Stage} {b : UnsortedPacketBlock π} (h : BlockOk i b) :
    Requested b maximumPacketBlock := by
  cases i with
  | read => exact h.mono (Nat.zero_le _)
  | process => exact h.1.mono (Nat.zero_le _)
  | writeMstcp => exact h.1.mono h.2
  | writeAdapter => exact h.1

theorem JobOk.inBounds {i : Stage} {b : UnsortedPacketBlock π} {phase : Phase} (h : JobOk i ⟨b, phase⟩) :
    Requested b maximumPacketBlock := by
  cases i with
  | read => exact h.1.mono (Nat.zero_le _)
  | process =>
    obtain ⟨n, -, hn, hreq, hsize⟩ := h
    exact hreq.mono (hn.trans hsize)
  | writeMstcp => exact h.1
  | writeAdapter => exact h.1

theorem Invariant.blocksOwned (h : Invariant setup s) : BlocksOwned s where
  once := by
    split_ifs with hstopped
    · have hempty : ∀ i, s.line.queue i = [] := fun i => (h.life.stopped hstopped i).1
      have hexited : ∀ i, s.line.place i = .exited := fun i => (h.life.stopped hstopped i).2
      simp [tokens, total, hempty, hexited, Place.job]
    · exact h.line.blocks hstopped
  front i hplace := by
    have := h.line.synced i
    rwa [hplace] at this
  inBounds i b hb := by
    obtain hqueue | ⟨phase, hplace⟩ := hb
    · exact (h.line.kept.items i b hqueue).inBounds
    · exact (h.line.kept.jobs i _ hplace).inBounds
  filtered b n hplace := by
    obtain ⟨-, -, -, -, hsize⟩ := h.line.kept.jobs _ _ hplace
    exact ⟨h.fresh.held _ hplace, hsize⟩

/-- In every state of every run each of the sixteen blocks is in one place, and is used within its
    bounds and only with packets that were read into it. -/
theorem always_blocksOwned (setup : Setup ρ ε π) (r : ρ) (labels : List (Label ε π)) :
    Always (step setup) BlocksOwned (initial r) labels :=
  always_mono (fun _ h => h.blocksOwned) (always_invariant setup r labels)

end ProxySwitch.PacketQueues
