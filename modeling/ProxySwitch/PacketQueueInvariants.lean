import ProxySwitch.PacketQueues

set_option autoImplicit false

namespace ProxySwitch.PacketQueues
open StagedQueues

variable {ρ ε π : Type} {setup : Setup ρ ε π} {s t : PacketFilter ρ ε π}

/-! ### The blocks on their way -/

/-- Both requests name buffers below `n`, together at most `n`. -/
structure Requested (b : UnsortedPacketBlock π) (n : ℕ) : Prop where
  below : ∀ j ∈ b.writeMstcpRequest ++ b.writeAdapterRequest, j < n
  count : b.writeMstcpRequest.length + b.writeAdapterRequest.length ≤ n

theorem Requested.without_mstcp {b : UnsortedPacketBlock π} {n : ℕ} (h : Requested b n) :
    Requested { b with writeMstcpRequest := [] } n :=
  ⟨fun j hj => h.below j (List.mem_append_right _ hj), Nat.le_trans (by simp) h.count⟩

theorem Requested.without_adapter {b : UnsortedPacketBlock π} {n : ℕ} (h : Requested b n) :
    Requested { b with writeAdapterRequest := [] } n :=
  ⟨fun j hj => h.below j (List.mem_append_left _ (by simpa using hj)), Nat.le_trans (by simp) h.count⟩

theorem Requested.fill {b : UnsortedPacketBlock π} {n : ℕ} (h : Requested b n)
    {outcome : ReadOutcome π} : Requested (fill b outcome) n := by
  cases outcome <;> exact ⟨h.below, h.count⟩

def BlockOk : Stage → UnsortedPacketBlock π → Prop
  | .read, b => Requested b 0
  | .process, b => Requested b 0 ∧ b.packetsSuccess ≤ maximumPacketBlock
  | .writeMstcp, b => Requested b b.packetsSuccess ∧ b.packetsSuccess ≤ maximumPacketBlock
  | .writeAdapter, b => Requested b maximumPacketBlock ∧ b.writeMstcpRequest = []

def JobOk : Stage → Job π → Prop
  | .read, ⟨b, phase⟩ => Requested b 0 ∧
      (phase = .waiting ∨ phase = .resetting ∨ phase = .reading ∨
        (phase = .failed ∨ phase = .done) ∧ b.packetsSuccess ≤ maximumPacketBlock)
  | .process, ⟨b, phase⟩ => ∃ n, phase = .processing n ∧ n ≤ b.packetsSuccess ∧ Requested b n ∧
      b.packetsSuccess ≤ maximumPacketBlock
  | .writeMstcp, ⟨b, phase⟩ => Requested b maximumPacketBlock ∧
      (phase = .sending ∨ phase = .done ∧ b.writeMstcpRequest = [])
  | .writeAdapter, ⟨b, phase⟩ => Requested b maximumPacketBlock ∧ b.writeMstcpRequest = [] ∧
      (phase = .sending ∨ phase = .done ∧ b.writeAdapterRequest = [])

theorem requested_zero {b : UnsortedPacketBlock π} :
    Requested b 0 ↔ b.writeMstcpRequest = [] ∧ b.writeAdapterRequest = [] := by
  constructor
  · intro h
    have := h.count
    exact ⟨List.eq_nil_of_length_eq_zero (by omega), List.eq_nil_of_length_eq_zero (by omega)⟩
  · rintro ⟨hm, ha⟩
    exact ⟨by simp [hm, ha], by simp [hm, ha]⟩

theorem Requested.mono {b : UnsortedPacketBlock π} {n m : ℕ} (h : Requested b n) (hnm : n ≤ m) :
    Requested b m :=
  ⟨fun j hj => Nat.lt_of_lt_of_le (h.below j hj) hnm, h.count.trans hnm⟩

theorem startJob_ok {i : Stage} {b : UnsortedPacketBlock π} (h : BlockOk i b) :
    JobOk i (startJob i b) := by
  cases i with
  | read => exact ⟨h, .inl rfl⟩
  | process => exact ⟨0, rfl, Nat.zero_le _, h⟩
  | writeMstcp => exact ⟨h.1.mono h.2, .inl rfl⟩
  | writeAdapter => exact ⟨h.1, h.2, .inl rfl⟩

theorem finishJob_ok {i : Stage} {job : Job π} {b : UnsortedPacketBlock π} (h : JobOk i job)
    (hb : finishJob job = some b) : BlockOk i.next b ∧ job.block = b := by
  obtain ⟨block, phase⟩ := job
  cases i with
  | read =>
    obtain ⟨hreq, rfl | rfl | rfl | ⟨rfl | rfl, hsize⟩⟩ := h
    · cases hb
    · cases hb
    · cases hb
    · cases hb
    · obtain rfl := Option.some.inj hb
      exact ⟨⟨hreq, hsize⟩, rfl⟩
  | process =>
    obtain ⟨n, rfl, hn, hreq, hsize⟩ := h
    simp only [finishJob] at hb
    split at hb
    · cases hb
    · next hdone =>
      obtain rfl := Option.some.inj hb
      exact ⟨⟨hreq.mono hn, hsize⟩, rfl⟩
  | writeMstcp =>
    obtain ⟨hreq, rfl | ⟨rfl, hempty⟩⟩ := h
    · cases hb
    · obtain rfl := Option.some.inj hb
      exact ⟨⟨hreq, hempty⟩, rfl⟩
  | writeAdapter =>
    obtain ⟨hreq, hempty, rfl | ⟨rfl, hempty'⟩⟩ := h
    · cases hb
    · obtain rfl := Option.some.inj hb
      exact ⟨requested_zero.mpr ⟨hempty, hempty'⟩, rfl⟩

/-! ### The packets of a block -/

def packetsOf (b : UnsortedPacketBlock π) : List (IntermediateBuffer π) :=
  (List.range b.packetsSuccess).map b.packetBuffer

def pending (b : UnsortedPacketBlock π) : Way → List (IntermediateBuffer π)
  | .adapter => requested b b.writeAdapterRequest
  | .mstcp => requested b b.writeMstcpRequest

theorem packetsOf_drop {b : UnsortedPacketBlock π} {n : ℕ} (h : n < b.packetsSuccess) :
    (packetsOf b).drop n = b.packetBuffer n :: (packetsOf b).drop (n + 1) := by
  rw [List.drop_eq_getElem_cons (by simpa [packetsOf] using h)]
  simp [packetsOf]

theorem packetsOf_drop_done {b : UnsortedPacketBlock π} {n : ℕ} (h : ¬ n < b.packetsSuccess) :
    (packetsOf b).drop n = [] :=
  List.drop_eq_nil_of_le (by simpa [packetsOf] using Nat.le_of_not_lt h)

theorem packetsOf_fill (b : UnsortedPacketBlock π) (packets : List (IntermediateBuffer π)) :
    packetsOf (fill b (.success packets)) = packets := by
  refine List.ext_getElem (by simp [packetsOf, fill]) fun n hn hn' => ?_
  simp [packetsOf, fill, hn']

theorem map_update_of_lt {δ : Type} (f : ℕ → δ) {n : ℕ} {request : List ℕ}
    (h : ∀ j ∈ request, j < n) (x : δ) : request.map (Function.update f n x) = request.map f :=
  List.map_congr_left fun j hj => Function.update_of_ne (Nat.ne_of_lt (h j hj)) ..

section ProcessPacket

variable (setup) (r : ρ) (b : UnsortedPacketBlock π) (n : ℕ)

theorem processPacket_block :
    (processPacket setup r b n).1.packetsSuccess = b.packetsSuccess ∧
      (processPacket setup r b n).1.fresh = b.fresh ∧
      (processPacket setup r b n).1.address = b.address := by
  simp only [processPacket]
  split <;> exact ⟨rfl, rfl, rfl⟩

theorem processPacket_buffer : (processPacket setup r b n).1.packetBuffer =
    Function.update b.packetBuffer n (filterPacket setup r (b.packetBuffer n)).2.1 := by
  simp only [processPacket]
  split <;> rfl

theorem processPacket_packets :
    (packetsOf (processPacket setup r b n).1).drop (n + 1) = (packetsOf b).drop (n + 1) := by
  refine List.ext_getElem (by simp [packetsOf, (processPacket_block setup r b n).1]) fun k hk hk' => ?_
  simp only [packetsOf, List.getElem_drop, List.getElem_map, List.getElem_range,
    processPacket_buffer]
  exact Function.update_of_ne (by omega) ..

variable {b n}

theorem processPacket_requested (h : Requested b n) : Requested (processPacket setup r b n).1 (n + 1) := by
  have hbelow : ∀ j ∈ b.writeMstcpRequest ++ b.writeAdapterRequest, j < n + 1 :=
    fun j hj => Nat.lt_succ_of_lt (h.below j hj)
  have hcount := h.count
  simp only [List.mem_append] at hbelow
  simp only [processPacket]
  split
  · constructor
    · simp only [List.mem_append, List.mem_singleton]
      rintro j (hj | hj | rfl)
      · exact hbelow j (.inl hj)
      · exact hbelow j (.inr hj)
      · exact Nat.lt_succ_self j
    · change b.writeMstcpRequest.length + (b.writeAdapterRequest ++ [n]).length ≤ n + 1
      rw [List.length_append, List.length_singleton]
      omega
  · constructor
    · simp only [List.mem_append, List.mem_singleton]
      rintro j ((hj | rfl) | hj)
      · exact hbelow j (.inl hj)
      · exact Nat.lt_succ_self j
      · exact hbelow j (.inr hj)
    · change (b.writeMstcpRequest ++ [n]).length + b.writeAdapterRequest.length ≤ n + 1
      rw [List.length_append, List.length_singleton]
      omega
  · exact ⟨by simpa only [List.mem_append] using hbelow, Nat.le_succ_of_le hcount⟩

/-- What the packet adds to the two requests; the packets requested before stay as they are. -/
theorem processPacket_pending (h : Requested b n) (way : Way) :
    pending (processPacket setup r b n).1 way = pending b way ++
      goes way ((wayOf (filterPacket setup r (b.packetBuffer n)).2.1
        (filterPacket setup r (b.packetBuffer n)).1).toList.map
          fun way => (way, (filterPacket setup r (b.packetBuffer n)).2.1)) := by
  have hm := map_update_of_lt b.packetBuffer (fun j hj => h.below j (List.mem_append_left _ hj))
    (filterPacket setup r (b.packetBuffer n)).2.1
  have ha := map_update_of_lt b.packetBuffer (fun j hj => h.below j (List.mem_append_right _ hj))
    (filterPacket setup r (b.packetBuffer n)).2.1
  simp only [processPacket]
  cases wayOf (filterPacket setup r (b.packetBuffer n)).2.1
      (filterPacket setup r (b.packetBuffer n)).1 with
  | none => cases way <;> simp [pending, requested, goes, -List.map_inj_left, hm, ha]
  | some way' =>
    cases way' <;> cases way <;>
      simp [pending, requested, goes, -List.map_inj_left, hm, ha]

end ProcessPacket

/-! ### What a step does -/

/-- The steps of the filter: the calls, the parts of `release_filter`, the handing over of blocks,
    the threads' own work, the driver and the rest of the world. -/
inductive Does (setup : Setup ρ ε π) (s : PacketFilter ρ ε π) : Label ε π → PacketFilter ρ ε π → Prop
  | started (hstopped : s.filterState = .stopped) :
      Does setup s (.startFilter true) (started setup s)
  | startFailed (hstopped : s.filterState = .stopped) : Does setup s (.startFilter false)
      { s with line := { s.line with queue := Function.update s.line.queue .read [] } }
  | stopped (hrunning : s.filterState = .running) : Does setup s .stopFilter
      { s with filterState := .stopping, release := .signal }
  | signalled (hrelease : s.release = .signal) : Does setup s .releaseFilter
      { s with packetEvent := true, release := .notify stages }
  | notified (i : Stage) (rest : List Stage) (hrelease : s.release = .notify (i :: rest)) :
      Does setup s .releaseFilter { s with line := s.line.notify i, release := .notify rest }
  | allNotified (hrelease : s.release = .notify []) : Does setup s .releaseFilter
      { s with release := .join stages }
  | joined (i : Stage) (rest : List Stage) (hrelease : s.release = .join (i :: rest))
      (hplace : s.line.place i = .exited) : Does setup s .releaseFilter { s with release := .join rest }
  | released (hrelease : s.release = .join []) : Does setup s .releaseFilter
      { s with line := { s.line with queue := fun _ => [] }, release := .idle, filterState := .stopped }
  | advanced (i : Stage) (line : Line Stage (UnsortedPacketBlock π) (Job π))
      (hline : advance (threads π) s.isRunning s.line i = some line) :
      Does setup s (.advance i) { s with line }
  | waited (b : UnsortedPacketBlock π) (hplace : s.line.place .read = .holding ⟨b, .waiting⟩)
      (hevent : s.packetEvent = true) : Does setup s (.work .read) (s.hold .read ⟨b, .resetting⟩)
  | reset (b : UnsortedPacketBlock π) (hplace : s.line.place .read = .holding ⟨b, .resetting⟩) :
      Does setup s (.work .read) ({ s with packetEvent := false }.hold .read ⟨b, .reading⟩)
  | retried (b : UnsortedPacketBlock π) (hplace : s.line.place .read = .holding ⟨b, .failed⟩) :
      Does setup s (.work .read) (s.hold .read ⟨b, if s.isRunning then .waiting else .done⟩)
  | processed (b : UnsortedPacketBlock π) (n : ℕ)
      (hplace : s.line.place .process = .holding ⟨b, .processing n⟩) (hn : n < b.packetsSuccess) :
      Does setup s (.work .process) ({ s with
        router := (processPacket setup s.router b n).2
        trace := s.trace ++ [Turn.call (b.packetBuffer n)] }.hold .process
          ⟨(processPacket setup s.router b n).1, .processing (n + 1)⟩)
  | sentMstcp (b : UnsortedPacketBlock π) (hplace : s.line.place .writeMstcp = .holding ⟨b, .sending⟩) :
      Does setup s (.work .writeMstcp) ({ s with toMstcp := s.toMstcp ++ pending b .mstcp }.hold
        .writeMstcp ⟨{ b with writeMstcpRequest := [] }, .done⟩)
  | sentAdapter (b : UnsortedPacketBlock π)
      (hplace : s.line.place .writeAdapter = .holding ⟨b, .sending⟩) :
      Does setup s (.work .writeAdapter) ({ s with toAdapter := s.toAdapter ++ pending b .adapter }.hold
        .writeAdapter ⟨{ b with writeAdapterRequest := [] }, .done⟩)
  | read (b : UnsortedPacketBlock π) (packets : List (IntermediateBuffer π))
      (hplace : s.line.place .read = .holding ⟨b, .reading⟩) (hfits : packets.length ≤ maximumPacketBlock) :
      Does setup s (.readPacketsUnsorted (.success packets))
        ({ s with delivered := s.delivered ++ packets }.hold .read ⟨fill b (.success packets), .done⟩)
  | readFailed (b : UnsortedPacketBlock π) (n : ℕ) (buffers : ℕ → IntermediateBuffer π)
      (hplace : s.line.place .read = .holding ⟨b, .reading⟩) (hfits : n ≤ maximumPacketBlock) :
      Does setup s (.readPacketsUnsorted (.failure n buffers))
        (s.hold .read ⟨fill b (.failure n buffers), .failed⟩)
  | eventSet : Does setup s .signalEvent { s with packetEvent := true }
  | wokenForNothing (i : Stage) : Does setup s (.spurious i) { s with line := s.line.notify i }
  | changed (e : ε) : Does setup s (.change e)
      { s with router := setup.change s.router e, trace := s.trace ++ [Turn.event e] }

theorem workStep_does {i : Stage} {job : Job π} (hplace : s.line.place i = .holding job)
    (h : workStep setup s i job = some t) : Does setup s (.work i) t := by
  obtain ⟨b, phase⟩ := job
  unfold workStep at h
  split at h
  · next hphase =>
    obtain rfl : phase = _ := hphase
    split at h
    · next hevent => exact Option.some.inj h ▸ .waited b hplace hevent
    · cases h
  · next hphase =>
    obtain rfl : phase = _ := hphase
    exact Option.some.inj h ▸ .reset b hplace
  · next hphase =>
    obtain rfl : phase = _ := hphase
    exact Option.some.inj h ▸ .retried b hplace
  · next n hphase =>
    obtain rfl : phase = _ := hphase
    split at h
    · next hn => exact Option.some.inj h ▸ .processed b n hplace hn
    · cases h
  · next hphase =>
    obtain rfl : phase = _ := hphase
    exact Option.some.inj h ▸ .sentMstcp b hplace
  · next hphase =>
    obtain rfl : phase = _ := hphase
    exact Option.some.inj h ▸ .sentAdapter b hplace
  · cases h

theorem releaseStep_does (h : releaseStep s = some t) : Does setup s .releaseFilter t := by
  unfold releaseStep at h
  split at h
  · cases h
  · next hr => exact Option.some.inj h ▸ .signalled hr
  · next i rest hr => exact Option.some.inj h ▸ .notified i rest hr
  · next hr => exact Option.some.inj h ▸ .allNotified hr
  · next i rest hr =>
    split at h
    · next hp => exact Option.some.inj h ▸ .joined i rest hr hp
    · cases h
  · next hr => exact Option.some.inj h ▸ .released hr

theorem step_does {a : Label ε π} (h : step setup s a = some t) : Does setup s a t := by
  cases a with
  | startFilter allocated =>
    simp only [step] at h
    split at h
    · next hstopped =>
      cases allocated
      · exact Option.some.inj h ▸ .startFailed hstopped
      · exact Option.some.inj h ▸ .started hstopped
    · cases h
  | stopFilter =>
    simp only [step] at h
    split at h
    · next hrunning => exact Option.some.inj h ▸ .stopped hrunning
    · cases h
  | releaseFilter => exact releaseStep_does h
  | advance i =>
    obtain ⟨line, hline, rfl⟩ := Option.map_eq_some_iff.mp h
    exact .advanced i line hline
  | work i =>
    obtain ⟨job, hjob, hwork⟩ := Option.bind_eq_some_iff.mp h
    cases hp : s.line.place i with
    | holding job' =>
      rw [hp] at hjob
      obtain rfl := Option.some.inj hjob
      exact workStep_does hp hwork
    | _ => rw [hp] at hjob; cases hjob
  | readPacketsUnsorted outcome =>
    simp only [step] at h
    split at h
    · next b hp =>
      split at h
      · next hfits =>
        cases outcome with
        | success packets => exact Option.some.inj h ▸ .read b packets hp (of_decide_eq_true hfits)
        | failure n buffers =>
          have hnone : s.delivered ++ (ReadOutcome.failure n buffers).packets = s.delivered :=
            List.append_nil _
          rw [hnone] at h
          exact Option.some.inj h ▸ .readFailed b n buffers hp (of_decide_eq_true hfits)
      · cases h
    · cases h
  | signalEvent => exact Option.some.inj h ▸ .eventSet
  | spurious i => exact Option.some.inj h ▸ .wokenForNothing i
  | change e => exact Option.some.inj h ▸ .changed e

/-! ### Starting and stopping -/

abbrev FilterLine (π : Type) := Line Stage (UnsortedPacketBlock π) (Job π)

structure Lifecycle (state : FilterState) (release : Release) (line : FilterLine π) : Prop where
  stopped : state = .stopped → ∀ i, line.queue i = [] ∧ line.place i = .exited
  idle : state ≠ .stopping → release = .idle
  busy : state = .stopping → release ≠ .idle
  joined : ∀ rest, release = .join rest → ∀ i, i ∉ rest → line.place i = .exited

namespace Lifecycle

variable {state : FilterState} {release : Release} {line : FilterLine π} {i : Stage} {job : Job π}

theorem stopping (h : Lifecycle state release line) (hrelease : release ≠ .idle) : state = .stopping := by
  by_contra hstate
  exact hrelease (h.idle hstate)

/-- No thread runs in the stopped state. -/
theorem holding (h : Lifecycle state release line) (hplace : line.place i = .holding job) :
    state ≠ .stopped := by
  intro hstopped
  have := (h.stopped hstopped i).2
  rw [hplace] at this
  cases this

theorem hold (h : Lifecycle state release line) {p : Place (Job π)}
    (hplace : line.place i = .holding job) : Lifecycle state release (line.goto i p) where
  stopped hstopped := absurd hstopped (h.holding hplace)
  idle := h.idle
  busy := h.busy
  joined rest hrest j hj := by
    have hexited := h.joined rest hrest j hj
    have hij : j ≠ i := by
      rintro rfl
      rw [hplace] at hexited
      cases hexited
    exact (Line.goto_place_of_ne line p hij).trans hexited

theorem notify (h : Lifecycle state release line) : Lifecycle state release (line.notify i) where
  stopped hstopped j := ⟨(h.stopped hstopped j).1, notify_exited (h.stopped hstopped j).2⟩
  idle := h.idle
  busy := h.busy
  joined rest hrest j hj := notify_exited (h.joined rest hrest j hj)

theorem does {a : Label ε π} (h : Lifecycle s.filterState s.release s.line) (hstep : Does setup s a t) :
    Lifecycle t.filterState t.release t.line := by
  have hgoes : ∀ {release : Release}, s.release ≠ .idle → release ≠ .idle →
      (∀ rest, release = .join rest → ∀ i, i ∉ rest → s.line.place i = .exited) →
      Lifecycle s.filterState release s.line := by
    intro release hbusy hnew hjoined
    have hstate := h.stopping hbusy
    exact ⟨fun hstopped => absurd (hstate.symm.trans hstopped) nofun, fun hne => absurd hstate hne,
      fun _ => hnew, hjoined⟩
  cases hstep with
  | started hstopped =>
    have hidle : s.release = .idle := h.idle (by simp [hstopped])
    exact ⟨nofun, fun _ => hidle, nofun, fun rest hrest => absurd (hidle.symm.trans hrest) nofun⟩
  | startFailed hstopped =>
    refine ⟨fun _ i => ⟨?_, (h.stopped hstopped i).2⟩, h.idle, h.busy, h.joined⟩
    change Function.update s.line.queue .read [] i = []
    by_cases hi : i = .read
    · rw [hi, Function.update_self]
    · rw [Function.update_of_ne hi, (h.stopped hstopped i).1]
  | stopped hrunning => exact ⟨nofun, fun hstate => absurd rfl hstate, fun _ => nofun, nofun⟩
  | signalled hrelease => exact hgoes (by rw [hrelease]; nofun) nofun nofun
  | notified i rest hrelease =>
    have hnotify : Lifecycle s.filterState (.notify rest) s.line :=
      hgoes (by rw [hrelease]; nofun) nofun nofun
    exact hnotify.notify
  | allNotified hrelease =>
    refine hgoes (by rw [hrelease]; nofun) nofun ?_
    rintro rest hrest i hi
    obtain rfl : stages = rest := Release.join.inj hrest
    exact absurd (show i ∈ stages by cases i <;> decide) hi
  | joined i rest hrelease hplace =>
    refine hgoes (by rw [hrelease]; nofun) nofun ?_
    rintro rest' hrest j hj
    obtain rfl : rest = rest' := Release.join.inj hrest
    by_cases hji : j = i
    · exact hji ▸ hplace
    · exact h.joined _ hrelease j (by simp [hji, hj])
  | released hrelease =>
    exact ⟨fun _ i => ⟨rfl, h.joined [] hrelease i List.not_mem_nil⟩, fun _ => rfl, nofun, nofun⟩
  | advanced i line hline =>
    refine ⟨fun hstopped => ?_, h.idle, h.busy,
      fun rest hrest j hj => advance_exited (h.joined rest hrest j hj) hline⟩
    rw [advance_none_of_exited (h.stopped hstopped i).2] at hline
    cases hline
  | waited b hplace hevent => exact h.hold hplace
  | reset b hplace => exact h.hold hplace
  | retried b hplace => exact h.hold hplace
  | processed b n hplace hn => exact h.hold hplace
  | sentMstcp b hplace => exact h.hold hplace
  | sentAdapter b hplace => exact h.hold hplace
  | read b packets hplace hfits => exact h.hold hplace
  | readFailed b n buffers hplace hfits => exact h.hold hplace
  | eventSet => exact h
  | wokenForNothing i => exact h.notify
  | changed e => exact h

end Lifecycle

/-! ### The line and its blocks -/

theorem threads_next_ne (i : Stage) : (threads π).next i ≠ i := by
  cases i <;> nofun

theorem sum_stages {M : Type} [AddCommMonoid M] (f : Stage → M) :
    ∑ i, f i = f .read + f .process + f .writeMstcp + f .writeAdapter := by
  change Finset.sum ⟨stages, _⟩ f = _
  simp [Finset.sum, stages, add_assoc]

/-- The locks and the condition variables are used rightly, every block is as it should be at its
    stage, and none is lost or copied. -/
structure LineOk (state : FilterState) (line : FilterLine π) : Prop where
  synced : Synced (state == .running) line
  kept : Kept BlockOk JobOk line
  blocks : state ≠ .stopped → tokens (fun b : UnsortedPacketBlock π => b.address)
    (fun job : Job π => job.block.address) line = Multiset.range maximumBlockNum

namespace LineOk

variable {state : FilterState} {line : FilterLine π} {i : Stage} {job : Job π}

theorem hold (h : LineOk state line) {job' : Job π} (hplace : line.place i = .holding job)
    (hjob : JobOk i job') (haddress : job'.block.address = job.block.address) :
    LineOk state (line.goto i (.holding job')) where
  synced := goto_synced h.synced trivial
  kept := goto_kept h.kept fun job hp => Place.holding.inj hp ▸ hjob
  blocks hstate := by
    rw [tokens_goto (by simp [hplace, haddress]), h.blocks hstate]

theorem notify (h : LineOk state line) : LineOk state (line.notify i) where
  synced := notify_synced h.synced
  kept := notify_kept h.kept
  blocks hstate := by
    rw [Line.notify, tokens_goto (by rw [Place.job_wake]), h.blocks hstate]

theorem does {a : Label ε π} (hlife : Lifecycle s.filterState s.release s.line)
    (h : LineOk s.filterState s.line) (hstep : Does setup s a t) : LineOk t.filterState t.line := by
  cases hstep with
  | started hstopped =>
    have hqueue : (started setup s).line.queue =
        Function.update (fun _ : Stage => []) Stage.read (newBlocks setup) := by
      funext i
      simp [started, (hlife.stopped hstopped _).1, Function.update_apply]
    refine ⟨fun i => trivial, ⟨fun i b hb => ?_, fun i job hp => by cases hp⟩, fun _ => ?_⟩
    · rw [hqueue] at hb
      by_cases hi : i = .read
      · subst hi
        rw [Function.update_self] at hb
        obtain ⟨address, -, rfl⟩ := List.mem_map.mp hb
        exact requested_zero.mpr ⟨rfl, rfl⟩
      · rw [Function.update_of_ne hi] at hb
        cases hb
    · have hempty : ∀ i, s.line.queue i = [] := fun i => (hlife.stopped hstopped i).1
      simp [tokens, total, sum_stages, newBlocks, Function.comp_def, newBlock, Multiset.range,
        started, Place.job, hempty]
  | startFailed hstopped =>
    have hqueue : Function.update s.line.queue .read [] = s.line.queue := by
      rw [← (hlife.stopped hstopped .read).1, Function.update_eq_self]
    simp only [hqueue]
    exact h
  | stopped hrunning =>
    exact ⟨synced_of_stop h.synced (by simp), h.kept, fun _ => h.blocks (by simp [hrunning])⟩
  | signalled hrelease => exact h
  | notified i rest hrelease => exact h.notify
  | allNotified hrelease => exact h
  | joined i rest hrelease hplace => exact h
  | released hrelease =>
    have hexited := fun i => hlife.joined [] hrelease i List.not_mem_nil
    refine ⟨fun i => ?_, ⟨fun i b hb => absurd hb List.not_mem_nil, h.kept.jobs⟩, fun hne => absurd rfl hne⟩
    change Settled _ [] (s.line.place i)
    rw [hexited i]
    trivial
  | advanced i line hline =>
    refine ⟨advance_synced h.synced hline, advance_kept (fun i b => startJob_ok)
      (fun i job b hjob hb => (finishJob_ok hjob hb).1) h.kept hline, fun hstate => ?_⟩
    rw [← h.blocks hstate]
    refine tokens_advance threads_next_ne (fun i b => by cases i <;> rfl) (fun i job b hb => ?_) hline
    simp only [threads, finishJob] at hb
    split at hb
    · exact congrArg _ (Option.some.inj hb).symm
    · split at hb
      · cases hb
      · exact congrArg _ (Option.some.inj hb).symm
    · cases hb
  | waited b hplace hevent =>
    exact h.hold hplace ⟨(h.kept.jobs _ _ hplace).1, .inr (.inl rfl)⟩ rfl
  | reset b hplace =>
    exact h.hold hplace ⟨(h.kept.jobs _ _ hplace).1, .inr (.inr (.inl rfl))⟩ rfl
  | retried b hplace =>
    obtain ⟨hreq, h' | h' | h' | ⟨-, hsize⟩⟩ := h.kept.jobs _ _ hplace
    · cases h'
    · cases h'
    · cases h'
    · refine h.hold hplace ⟨hreq, ?_⟩ rfl
      split_ifs
      · exact .inl rfl
      · exact .inr (.inr (.inr ⟨.inr rfl, hsize⟩))
  | processed b n hplace hn =>
    obtain ⟨m, hm, -, hreq, hsize⟩ := h.kept.jobs _ _ hplace
    obtain rfl := Phase.processing.inj hm
    obtain ⟨hsuccess, -, haddress⟩ := processPacket_block setup s.router b n
    exact h.hold hplace ⟨n + 1, rfl, by rw [hsuccess]; exact hn, processPacket_requested setup _ hreq,
      by rw [hsuccess]; exact hsize⟩ haddress
  | sentMstcp b hplace =>
    obtain ⟨hreq, -⟩ := h.kept.jobs _ _ hplace
    exact h.hold hplace ⟨hreq.without_mstcp, .inr ⟨rfl, rfl⟩⟩ rfl
  | sentAdapter b hplace =>
    obtain ⟨hreq, hempty, -⟩ := h.kept.jobs _ _ hplace
    exact h.hold hplace ⟨hreq.without_adapter, hempty, .inr ⟨rfl, rfl⟩⟩ rfl
  | read b packets hplace hfits =>
    exact h.hold hplace ⟨(h.kept.jobs _ _ hplace).1.fill, .inr (.inr (.inr ⟨.inr rfl, hfits⟩))⟩ rfl
  | readFailed b n buffers hplace hfits =>
    exact h.hold hplace ⟨(h.kept.jobs _ _ hplace).1.fill, .inr (.inr (.inr ⟨.inl rfl, hfits⟩))⟩ rfl
  | eventSet => exact h
  | wokenForNothing i => exact h.notify
  | changed e => exact h

end LineOk

/-! ### The blocks whose last read failed -/

theorem finishJob_read {job : Job π} {b : UnsortedPacketBlock π} (h : JobOk .read job)
    (hb : finishJob job = some b) : job = ⟨b, .done⟩ := by
  obtain ⟨block, phase⟩ := job
  obtain ⟨-, rfl | rfl | rfl | ⟨rfl | rfl, -⟩⟩ := h
  · cases hb
  · cases hb
  · cases hb
  · cases hb
  · rw [← Option.some.inj hb]

/-- The reader hands on a block it could not read only after the filter has left the running
    state, and no later than that the second thread stops taking blocks. -/
structure FreshOk (state : FilterState) (line : FilterLine π) : Prop where
  held : ∀ job, line.place .process = .holding job → job.block.fresh = true
  queued : state = .running ∨ line.place .process = .taking → ∀ b ∈ line.queue .process, b.fresh = true
  read : state = .running → ∀ b, line.place .read = .holding ⟨b, .done⟩ → b.fresh = true
  failed : ∀ b, line.place .read = .holding ⟨b, .failed⟩ → b.fresh = false

namespace FreshOk

variable {state : FilterState} {line line' : FilterLine π} {i : Stage} {job : Job π}

theorem congr (h : FreshOk state line) (hprocess : line'.place .process = line.place .process)
    (hread : line'.place .read = line.place .read) (hqueue : line'.queue .process = line.queue .process) :
    FreshOk state line' where
  held := hprocess ▸ h.held
  queued := by rw [hprocess, hqueue]; exact h.queued
  read := hread ▸ h.read
  failed := hread ▸ h.failed

theorem hold (h : FreshOk state line) {job' : Job π} (hprocess : i = .process → job'.block.fresh = true)
    (hread : i = .read → state = .running → job'.phase = .done → job'.block.fresh = true)
    (hfailed : i = .read → job'.phase = .failed → job'.block.fresh = false) :
    FreshOk state (line.goto i (.holding job')) := by
  constructor
  · intro job hjob
    by_cases hi : Stage.process = i
    · subst hi
      rw [Line.goto_place_self] at hjob
      exact Place.holding.inj hjob ▸ hprocess rfl
    · exact h.held job (by rwa [Line.goto_place_of_ne _ _ hi] at hjob)
  · intro hcase
    refine h.queued (hcase.imp id fun htaking => ?_)
    by_cases hi : Stage.process = i
    · subst hi
      rw [Line.goto_place_self] at htaking
      cases htaking
    · rwa [Line.goto_place_of_ne _ _ hi] at htaking
  · intro hrun b hb
    by_cases hi : Stage.read = i
    · subst hi
      rw [Line.goto_place_self] at hb
      obtain rfl := Place.holding.inj hb
      exact hread rfl hrun rfl
    · exact h.read hrun b (by rwa [Line.goto_place_of_ne _ _ hi] at hb)
  · intro b hb
    by_cases hi : Stage.read = i
    · subst hi
      rw [Line.goto_place_self] at hb
      obtain rfl := Place.holding.inj hb
      exact hfailed rfl rfl
    · exact h.failed b (by rwa [Line.goto_place_of_ne _ _ hi] at hb)

theorem quiet (h : FreshOk state line) {p : Place (Job π)} (hp : p.job = none)
    (htaking : i = .process → p = .taking → state = .running ∨ line.place .process = .taking) :
    FreshOk state (line.goto i p) := by
  have hother : ∀ j job, (line.goto i p).place j = .holding job → line.place j = .holding job := by
    intro j job hj
    by_cases hi : j = i
    · subst hi
      rw [Line.goto_place_self] at hj
      rw [hj] at hp
      cases hp
    · rwa [Line.goto_place_of_ne _ _ hi] at hj
  refine ⟨fun job hj => h.held job (hother _ _ hj), fun hcase => ?_,
    fun hrun b hb => h.read hrun b (hother _ _ hb), fun b hb => h.failed b (hother _ _ hb)⟩
  refine h.queued (hcase.elim .inl fun hplace => ?_)
  by_cases hi : Stage.process = i
  · subst hi
    rw [Line.goto_place_self] at hplace
    exact htaking rfl hplace
  · rw [Line.goto_place_of_ne _ _ hi] at hplace
    exact .inr hplace

theorem notify (h : FreshOk state line) : FreshOk state (line.notify i) := by
  cases hp : line.place i with
  | asleep =>
    have : line.notify i = line.goto i .woken := by rw [Line.notify, hp]; rfl
    rw [this]
    exact h.quiet rfl (by simp)
  | _ =>
    have : (line.notify i).place = line.place := by
      change Function.update line.place i (line.place i).wake = line.place
      rw [Function.update_eq_self_iff, hp]
      rfl
    exact h.congr (congrFun this _) (congrFun this _) rfl

theorem advance (h : FreshOk state line) (hkept : Kept BlockOk JobOk line)
    (hstep : StagedQueues.advance (threads π) (state == .running) line i = some line') :
    FreshOk state line' := by
  obtain ⟨p, hp, rfl⟩ | ⟨b, rest, hp, hq, rfl⟩ | ⟨job, b, hp, hb, hfree, rfl⟩ := advance_cases hstep
  · refine h.quiet (move_job hp).2 ?_
    rintro rfl rfl
    exact .inl (by simpa using move_taking rfl hp)
  · cases i with
    | process =>
      have hall := h.queued (.inr hp)
      rw [hq, List.forall_mem_cons] at hall
      refine ⟨fun job hjob => ?_, fun _ => ?_, h.read, h.failed⟩
      · obtain rfl : startJob .process b = job := Place.holding.inj hjob
        exact hall.1
      · simpa [Line.take] using hall.2
    | read =>
      refine ⟨h.held, h.queued, fun _ c hc => ?_, fun c hc => ?_⟩ <;>
        exact absurd (Place.holding.inj hc) (by simp [threads, startJob])
    | writeMstcp | writeAdapter => exact h.congr rfl rfl rfl
  · cases i with
    | read =>
      obtain rfl := finishJob_read (hkept.jobs _ _ hp) hb
      have hplace : (line.push (threads π) .read b).place .process = (line.place .process).wake := rfl
      refine ⟨fun job hjob => h.held job ?_, fun hcase c hc => ?_, fun _ c hc => ?_, fun c hc => ?_⟩
      · rw [hplace] at hjob
        cases hw : line.place .process with
        | holding _ => rwa [hw] at hjob
        | _ => rw [hw] at hjob; cases hjob
      · have hrun : state = .running := by
          refine hcase.resolve_right fun htaking => ?_
          rw [hplace] at htaking
          cases hw : line.place .process with
          | taking => rw [show (threads π).next .read = .process from rfl, hw] at hfree; cases hfree
          | _ => rw [hw] at htaking; cases htaking
        obtain hc | hc := List.mem_append.mp (show c ∈ line.queue .process ++ [b] from hc)
        · exact h.queued (.inl hrun) c hc
        · obtain rfl := List.mem_singleton.mp hc
          exact h.read hrun c hp
      · cases hc
      · cases hc
    | process =>
      refine ⟨fun job hjob => ?_, fun hcase => h.queued (.inl (hcase.resolve_right ?_)), h.read, h.failed⟩
      · cases hjob
      · intro htaking
        cases htaking
    | writeMstcp => exact h.congr rfl rfl rfl
    | writeAdapter =>
      have hplace : (line.push (threads π) .writeAdapter b).place .read = (line.place .read).wake := rfl
      have hback : ∀ job, (line.push (threads π) .writeAdapter b).place .read = .holding job →
          line.place .read = .holding job := by
        intro job hjob
        rw [hplace] at hjob
        cases hw : line.place .read with
        | holding _ => rwa [hw] at hjob
        | _ => rw [hw] at hjob; cases hjob
      exact ⟨h.held, h.queued, fun hrun c hc => h.read hrun c (hback _ hc),
        fun c hc => h.failed c (hback _ hc)⟩

theorem does {a : Label ε π} (hlife : Lifecycle s.filterState s.release s.line)
    (hline : LineOk s.filterState s.line) (h : FreshOk s.filterState s.line) (hstep : Does setup s a t) :
    FreshOk t.filterState t.line := by
  cases hstep with
  | started hstopped =>
    have hempty : (PacketQueues.started setup s).line.queue .process = [] := by
      simp [PacketQueues.started, (hlife.stopped hstopped .process).1]
    exact ⟨nofun, fun _ b hb => absurd (hempty ▸ hb) List.not_mem_nil, fun _ => nofun, nofun⟩
  | startFailed hstopped =>
    refine h.congr rfl rfl ?_
    change Function.update s.line.queue .read [] .process = s.line.queue .process
    rw [Function.update_of_ne (by decide)]
  | stopped hrunning =>
    exact ⟨h.held, fun hcase => h.queued (.inr (hcase.resolve_left nofun)), nofun, h.failed⟩
  | signalled hrelease => exact h
  | notified i rest hrelease => exact h.notify
  | allNotified hrelease => exact h
  | joined i rest hrelease hplace => exact h
  | released hrelease => exact ⟨h.held, fun _ b hb => absurd hb List.not_mem_nil, nofun, h.failed⟩
  | advanced i line hline' => exact h.advance hline.kept hline'
  | waited b hplace hevent => exact h.hold nofun (fun _ _ => nofun) fun _ => nofun
  | reset b hplace => exact h.hold nofun (fun _ _ => nofun) fun _ => nofun
  | retried b hplace =>
    refine h.hold nofun (fun _ hrun hdone => ?_) fun _ hfailed => ?_
    · simp [PacketFilter.isRunning, hrun] at hdone
    · split at hfailed <;> cases hfailed
  | processed b n hplace hn =>
    exact h.hold (fun _ => (processPacket_block setup s.router b n).2.1.trans (h.held _ hplace)) nofun nofun
  | sentMstcp b hplace => exact h.hold nofun nofun nofun
  | sentAdapter b hplace => exact h.hold nofun nofun nofun
  | read b packets hplace hfits => exact h.hold nofun (fun _ _ _ => rfl) fun _ => nofun
  | readFailed b n buffers hplace hfits => exact h.hold nofun (fun _ _ => nofun) fun _ _ => rfl
  | eventSet => exact h
  | wokenForNothing i => exact h.notify
  | changed e => exact h

end FreshOk

end ProxySwitch.PacketQueues
