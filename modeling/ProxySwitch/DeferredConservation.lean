import Mathlib.Data.List.Nodup
import Mathlib.Data.List.Perm.Basic
import ProxySwitch.DeferredPackets
import ProxySwitch.TransitionRuns
import ProxySwitch.UdpRedirection

set_option autoImplicit false

namespace ProxySwitch.DeferredPackets
open DestinationRules (InAddr)
open PacketPath PacketStages TransitionRuns UdpRedirection
open TcpLocalRedirect (TcpPacket)

def Stage.bound : Stage → List (IntermediateBuffer × Receiver)
  | .resolving _ toAdapters toMstcp =>
    toAdapters.map (fun b => (b, .adapters)) ++ toMstcp.map fun b => (b, .mstcp)
  | .sending toMstcp => toMstcp.map fun b => (b, .mstcp)
  | _ => []

def Resolver.bound : Resolver → List (IntermediateBuffer × Receiver)
  | .running stage | .releasing _ _ _ stage => stage.bound
  | _ => []

/-- The steps of the resolver thread until it waits again, with two for each buffer that goes
    back to the pool. -/
def Stage.stepsLeft : Stage → ℕ
  | .waiting => 0
  | .refreshing localQueue => 3 * localQueue.length + 3
  | .resolving localQueue toAdapters toMstcp =>
    3 * localQueue.length + 2 * toAdapters.length + 2 * toMstcp.length + 2
  | .sending toMstcp => 2 * toMstcp.length + 1

def Resolver.stepsLeft : Resolver → ℕ
  | .running stage => stage.stepsLeft
  | .releasing _ buffers destroying next =>
    2 * buffers.length + (2 - destroying.toNat) + next.stepsLeft
  | _ => 0

def batchSteps : ℕ := 3 * maxResolveQueueDepth + 3

def Directed (decided : List (IntermediateBuffer × PacketAction))
    (h : IntermediateBuffer × Receiver) : Prop :=
  ∃ action, (h.1, action) ∈ decided ∧ putBack h.1.flags action = some h.2

def Deferrable (p : Packet) : Prop := p.flags = .onSend ∧ p.frame.isTransport = true

structure Tracked (q : DeferredQueue) : Prop where
  bounded : q.queue.length ≤ maxResolveQueueDepth
  batch : q.resolver.stepsLeft ≤ batchSteps
  arrived : (q.callback.pending.map Packet.number ++ (q.refused ++ q.accepted)).Perm
    (List.range q.deferred)
  balanced : (numbers q.queue ++ (numbers q.resolver.held ++ q.handedNumbers)).Perm q.accepted
  undecided : ∀ p ∈ q.callback.pending, Deferrable p
  deferrable : ∀ b ∈ q.queue ++ q.resolver.held, Deferrable b.toPacket
  directed : ∀ h ∈ q.resolver.bound ++ q.handed, Directed q.decided h
  sound : q.pool.damaged = false
  distinct : q.pool.live.Nodup
  owned : (addresses (q.callback.owned ++ (q.queue ++ q.resolver.owned))).Perm q.pool.live

def GoesOn (action : Option PacketAction) : Prop := action = some .pass ∨ action = some .revert

section QueueLemmas
variable {q : DeferredQueue} {b : IntermediateBuffer} {p : Packet}

@[simp] theorem numbers_nil : numbers [] = [] := rfl

@[simp] theorem numbers_cons (b : IntermediateBuffer) (rest : List IntermediateBuffer) :
    numbers (b :: rest) = b.number :: numbers rest := rfl

@[simp] theorem numbers_append (l l' : List IntermediateBuffer) :
    numbers (l ++ l') = numbers l ++ numbers l' := List.map_append

theorem release_held (next : Stage) (buffers : List IntermediateBuffer) :
    (Resolver.release next buffers).held = next.held := by cases buffers <;> rfl

theorem release_bound (next : Stage) (buffers : List IntermediateBuffer) :
    (Resolver.release next buffers).bound = next.bound := by cases buffers <;> rfl

theorem release_owned (next : Stage) (buffers : List IntermediateBuffer) :
    (Resolver.release next buffers).owned = buffers ++ next.held := by cases buffers <;> rfl

theorem release_stepsLeft (next : Stage) (buffers : List IntermediateBuffer) :
    (Resolver.release next buffers).stepsLeft = 2 * buffers.length + next.stepsLeft := by
  cases buffers
  · exact (Nat.zero_add _).symm
  · simp only [Resolver.release, Resolver.stepsLeft, Bool.toNat_false, List.length_cons]
    omega

theorem release_ne (next : Stage) (buffers : List IntermediateBuffer) :
    Resolver.release next buffers ≠ .absent ∧ Resolver.release next buffers ≠ .exited := by
  cases buffers <;> exact ⟨Resolver.noConfusion, Resolver.noConfusion⟩

theorem directed_append {decided : List (IntermediateBuffer × PacketAction)}
    {h : IntermediateBuffer × Receiver} (more : List (IntermediateBuffer × PacketAction))
    (hdirected : Directed decided h) : Directed (decided ++ more) h := by
  obtain ⟨action, hmem, hput⟩ := hdirected
  exact ⟨action, List.mem_append_left _ hmem, hput⟩

theorem tracked_defer {flags : DeviceFlags} {frame : Frame} (h : Tracked q)
    (hidle : q.callback = .idle) (hflags : flags = .onSend) (hframe : frame.isTransport = true) :
    Tracked (q.defer flags frame) := by
  have harrived := h.arrived
  have howned := h.owned
  rw [hidle] at harrived howned
  exact {
    bounded := h.bounded
    batch := h.batch
    arrived := by
      rw [show (q.defer flags frame).deferred = q.deferred + 1 from rfl, List.range_succ]
      exact (List.Perm.cons q.deferred harrived).trans (List.perm_append_singleton _ _).symm
    balanced := h.balanced
    undecided := List.forall_mem_singleton.mpr ⟨hflags, hframe⟩
    deferrable := h.deferrable
    directed := h.directed
    sound := h.sound
    distinct := h.distinct
    owned := howned }

theorem tracked_callback {c : Callback} (h : Tracked q) (hpending : c.pending = q.callback.pending)
    (howned : c.owned = q.callback.owned) : Tracked { q with callback := c } where
  bounded := h.bounded
  batch := h.batch
  arrived := by
    have harrived := h.arrived
    rwa [← hpending] at harrived
  balanced := h.balanced
  undecided := by
    have hundecided := h.undecided
    rwa [← hpending] at hundecided
  deferrable := h.deferrable
  directed := h.directed
  sound := h.sound
  distinct := h.distinct
  owned := by
    have hold := h.owned
    rwa [← howned] at hold

theorem tracked_refuse {next : Callback} (h : Tracked q) (hpending : q.callback.pending = [p])
    (hdone : next.pending = []) (howned : next.owned = q.callback.owned) :
    Tracked (q.refuse p next) where
  bounded := h.bounded
  batch := h.batch
  arrived := by
    have harrived := h.arrived
    rw [hpending] at harrived
    refine List.Perm.trans ?_ harrived
    simp only [DeferredQueue.refuse, hdone, List.map_nil, List.map_cons, List.nil_append,
      List.append_assoc, List.singleton_append]
    exact List.perm_middle
  balanced := h.balanced
  undecided p hp := by
    simp only [DeferredQueue.refuse, hdone] at hp
    exact absurd hp List.not_mem_nil
  deferrable := h.deferrable
  directed := h.directed
  sound := h.sound
  distinct := h.distinct
  owned := by
    have hold := h.owned
    rwa [← howned] at hold

theorem tracked_checkCapacity (h : Tracked q) (hchecking : q.callback = .checking p) :
    Tracked (q.checkCapacity p) := by
  unfold DeferredQueue.checkCapacity
  split
  · exact tracked_refuse h (by rw [hchecking]; rfl) rfl (by rw [hchecking]; rfl)
  · exact tracked_callback h (by rw [hchecking]; rfl) (by rw [hchecking]; rfl)

theorem tracked_enter (h : Tracked q) (halone : q.pool.calls = 0) :
    Tracked { q with pool := q.pool.enter } :=
  { h with sound := by simp only [ObjectPool.enter, h.sound, halone, bne_self_eq_false, Bool.or_self] }

theorem tracked_leave (h : Tracked q) : Tracked { q with pool := q.pool.leave } :=
  { h with }

theorem stage_map_eq_self {f : IntermediateBuffer → IntermediateBuffer} {stage : Stage}
    (h : ∀ c ∈ stage.held, f c = c) : stage.map f = stage := by
  have hmap {l : List IntermediateBuffer} (hl : ∀ c ∈ l, f c = c) : l.map f = l :=
    (List.map_congr_left hl).trans (List.map_id' l)
  cases stage with
  | waiting => rfl
  | refreshing localQueue => rw [Stage.map, hmap (l := localQueue) h]
  | resolving localQueue toAdapters toMstcp =>
    obtain ⟨hlocal, hrest⟩ := List.forall_mem_append.mp h
    obtain ⟨hadapters, hmstcp⟩ := List.forall_mem_append.mp hrest
    rw [Stage.map, hmap hlocal, hmap hadapters, hmap hmstcp]
  | sending toMstcp => rw [Stage.map, hmap (l := toMstcp) h]

theorem resolver_map_eq_self {f : IntermediateBuffer → IntermediateBuffer} {r : Resolver}
    (h : ∀ c ∈ r.owned, f c = c) : r.map f = r := by
  cases r with
  | absent => rfl
  | running stage => rw [Resolver.map, stage_map_eq_self h]
  | releasing b buffers destroying next =>
    obtain ⟨hb, hrest⟩ := List.forall_mem_cons.mp h
    obtain ⟨hbuffers, hnext⟩ := List.forall_mem_append.mp hrest
    rw [Resolver.map, hb, (List.map_congr_left hbuffers).trans (List.map_id' buffers),
      stage_map_eq_self hnext]
  | exited => rfl

/-- An intact pool gives out an address that no buffer has. -/
theorem overwrite_eq_self (h : Tracked q) {address : ℕ} (hgives : q.pool.mayGive address = true)
    (p : Packet) : ∀ c ∈ q.callback.owned ++ (q.queue ++ q.resolver.owned),
      (IntermediateBuffer.mk p address).overwrite c = c := by
  intro c hc
  have hlive : c.address ∈ q.pool.live := h.owned.mem_iff.mp (List.mem_map_of_mem hc)
  refine if_neg fun hsame => ?_
  rw [hsame] at hlive
  simp [ObjectPool.mayGive, h.sound, hlive] at hgives

theorem tracked_constructed {address : Option ℕ} (h : Tracked q)
    (hconstructing : q.callback = .constructing p) (hgives : address.all q.pool.mayGive = true) :
    Tracked (q.constructed p address) := by
  have hpending : q.callback.pending = [p] := by rw [hconstructing]; rfl
  cases address with
  | none => exact tracked_leave (tracked_refuse h hpending rfl (by rw [hconstructing]; rfl))
  | some address =>
    have hgives : q.pool.mayGive address = true := hgives
    have hself := overwrite_eq_self h hgives p
    obtain ⟨hqueue, hresolver⟩ :=
      List.forall_mem_append.mp (List.forall_mem_append.mp hself).2
    have hfresh : address ∉ q.pool.live := by
      simpa [ObjectPool.mayGive, h.sound] using hgives
    have hmap : q.queue.map (IntermediateBuffer.mk p address).overwrite = q.queue :=
      (List.map_congr_left hqueue).trans (List.map_id' _)
    have howned := h.owned
    have harrived := h.arrived
    have hundecided := h.undecided
    rw [hconstructing] at howned harrived hundecided
    simp only [DeferredQueue.constructed, hmap, resolver_map_eq_self hresolver]
    exact {
      bounded := h.bounded
      batch := h.batch
      arrived := harrived
      balanced := h.balanced
      undecided := hundecided
      deferrable := h.deferrable
      directed := h.directed
      sound := h.sound
      distinct := List.nodup_cons.mpr ⟨hfresh, h.distinct⟩
      owned := howned.cons address }

theorem tracked_push (h : Tracked q) (hpushing : q.callback = .pushing b) :
    Tracked (q.push b) := by
  have hpending : q.callback.pending = [b.toPacket] := by rw [hpushing]; rfl
  unfold DeferredQueue.push
  split
  · rename_i hroom
    have harrived := h.arrived
    have hundecided := h.undecided
    have howned := h.owned
    rw [hpending] at harrived hundecided
    rw [hpushing] at howned
    constructor
    · rw [List.length_append, List.length_singleton]
      exact hroom
    · exact h.batch
    · refine List.Perm.trans ?_ harrived
      simp only [Callback.pending, List.map_nil, List.map_cons, List.nil_append,
        List.singleton_append, ← List.append_assoc]
      exact List.perm_append_singleton _ _
    · simp only [numbers_append, numbers_cons, numbers_nil, List.append_assoc,
        List.singleton_append]
      have haccepted := (h.balanced.cons b.number).trans (List.perm_append_singleton _ _).symm
      exact List.perm_middle.trans haccepted
    · exact List.forall_mem_nil _
    · intro c hc
      rw [List.append_assoc, List.mem_append, List.singleton_append, List.mem_cons] at hc
      obtain hc | rfl | hc := hc
      · exact h.deferrable c (List.mem_append_left _ hc)
      · exact hundecided _ List.mem_cons_self
      · exact h.deferrable c (List.mem_append_right _ hc)
    · exact h.directed
    · exact h.sound
    · exact h.distinct
    · refine List.Perm.trans (List.Perm.map _ ?_) howned
      simp only [Callback.owned, List.nil_append, List.append_assoc, List.singleton_append]
      exact List.perm_middle
  · exact tracked_refuse h hpending rfl (by rw [hpushing]; rfl)

theorem tracked_take {c : Callback} {r : Resolver} {address : ℕ} (h : Tracked q)
    (hpending : c.pending = q.callback.pending) (hheld : r.held = q.resolver.held)
    (hbound : r.bound = q.resolver.bound) (hsteps : r.stepsLeft ≤ q.resolver.stepsLeft)
    (howned : (addresses (q.callback.owned ++ (q.queue ++ q.resolver.owned))).Perm
      (address :: addresses (c.owned ++ (q.queue ++ r.owned)))) :
    Tracked { q with callback := c, resolver := r, pool := q.pool.take address } where
  bounded := h.bounded
  batch := hsteps.trans h.batch
  arrived := by
    have harrived := h.arrived
    rwa [← hpending] at harrived
  balanced := by
    have hbalanced := h.balanced
    rwa [← hheld] at hbalanced
  undecided := by
    have hundecided := h.undecided
    rwa [← hpending] at hundecided
  deferrable := by
    have hdeferrable := h.deferrable
    rwa [← hheld] at hdeferrable
  directed := by
    have hdirected := h.directed
    rwa [← hbound] at hdirected
  sound := h.sound
  distinct := h.distinct.erase _
  owned := (List.cons_perm_iff_perm_erase.mp (howned.symm.trans h.owned)).2

theorem tracked_discarded (h : Tracked q) (hdestroying : q.callback = .destroying b) :
    Tracked (q.discarded b) := by
  refine tracked_take (c := .idle) (r := q.resolver) h ?_ rfl rfl (Nat.le_refl _) ?_
  · rw [hdestroying]; rfl
  · rw [hdestroying]; exact List.Perm.refl _

theorem tracked_destroyed {buffers : List IntermediateBuffer} {next : Stage} (h : Tracked q)
    (hdestroying : q.resolver = .releasing b buffers true next) :
    Tracked (q.destroyed b buffers next) := by
  refine tracked_take (c := q.callback) (r := .release next buffers) h rfl ?_ ?_ ?_ ?_
  · rw [hdestroying, release_held]; rfl
  · rw [hdestroying, release_bound]; rfl
  · rw [hdestroying, release_stepsLeft]
    simp only [Resolver.stepsLeft, Bool.toNat_true]
    omega
  · rw [hdestroying, release_owned]
    simp only [addresses, Resolver.owned, ← List.map_cons, List.cons_append]
    refine List.Perm.map _ ?_
    rw [← List.append_assoc, ← List.append_assoc]
    exact List.perm_middle

theorem tracked_resolver {r : Resolver} (h : Tracked q) (hheld : r.held = q.resolver.held)
    (hbound : r.bound = q.resolver.bound) (hsteps : r.stepsLeft ≤ q.resolver.stepsLeft)
    (howned : r.owned = q.resolver.owned) : Tracked { q with resolver := r } where
  bounded := h.bounded
  batch := hsteps.trans h.batch
  arrived := h.arrived
  balanced := by
    have hbalanced := h.balanced
    rwa [← hheld] at hbalanced
  undecided := h.undecided
  deferrable := by
    have hdeferrable := h.deferrable
    rwa [← hheld] at hdeferrable
  directed := by
    have hdirected := h.directed
    rwa [← hbound] at hdirected
  sound := h.sound
  distinct := h.distinct
  owned := by
    have hold := h.owned
    rwa [← howned] at hold

theorem tracked_destroy {buffers : List IntermediateBuffer} {next : Stage} (h : Tracked q)
    (hreleasing : q.resolver = .releasing b buffers false next) (halone : q.pool.calls = 0) :
    Tracked (q.destroy b buffers next) := by
  have hentered : Tracked { q with resolver := .releasing b buffers true next } := by
    refine tracked_resolver h ?_ ?_ ?_ ?_
    · rw [hreleasing]; rfl
    · rw [hreleasing]; rfl
    · rw [hreleasing]
      simp only [Resolver.stepsLeft, Bool.toNat_true, Bool.toNat_false]
      omega
    · rw [hreleasing]; rfl
  exact tracked_enter hentered halone

theorem wake_cases (q : DeferredQueue) (resolverShouldExit : Bool) :
    (q.queue = [] ∧ resolverShouldExit = true ∧
      q.wake resolverShouldExit = { q with resolver := .exited }) ∨
    (q.queue = [] ∧ resolverShouldExit = false ∧ q.wake resolverShouldExit = q) ∨
    ∃ b rest, q.queue = b :: rest ∧ q.wake resolverShouldExit =
      { q with resolver := .running (.refreshing (b :: rest)), queue := [] } := by
  unfold DeferredQueue.wake
  cases q.queue with
  | nil =>
    cases resolverShouldExit with
    | true => exact .inl ⟨rfl, rfl, rfl⟩
    | false => exact .inr (.inl ⟨rfl, rfl, rfl⟩)
  | cons b rest => exact .inr (.inr ⟨b, rest, rfl, rfl⟩)

theorem tracked_wake (h : Tracked q) (hwaiting : q.resolver = .running .waiting)
    (resolverShouldExit : Bool) : Tracked (q.wake resolverShouldExit) := by
  obtain ⟨-, -, hwake⟩ | ⟨-, -, hwake⟩ | ⟨b, rest, hqueue, hwake⟩ :=
    wake_cases q resolverShouldExit
  · rw [hwake]
    refine tracked_resolver h ?_ ?_ (Nat.zero_le _) ?_
    · rw [hwaiting]; rfl
    · rw [hwaiting]; rfl
    · rw [hwaiting]; rfl
  · rw [hwake]
    exact h
  · rw [hwake]
    have hbounded := h.bounded
    have hbalanced := h.balanced
    have hdeferrable := h.deferrable
    have hdirected := h.directed
    have howned := h.owned
    rw [hwaiting] at hbalanced hdeferrable hdirected howned
    rw [hqueue] at hbounded hbalanced hdeferrable howned
    exact {
      bounded := Nat.zero_le _
      batch := Nat.add_le_add_right (Nat.mul_le_mul_left 3 hbounded) 3
      arrived := h.arrived
      balanced := hbalanced
      undecided := h.undecided
      deferrable := by simpa [Resolver.held, Stage.held] using hdeferrable
      directed := hdirected
      sound := h.sound
      distinct := h.distinct
      owned := by simpa [Resolver.owned, Stage.held] using howned }

theorem tracked_refreshed {localQueue : List IntermediateBuffer} (h : Tracked q)
    (hrefreshing : q.resolver = .running (.refreshing localQueue)) :
    Tracked { q with resolver := .running (.resolving localQueue [] []) } := by
  refine tracked_resolver h ?_ ?_ ?_ ?_
  · rw [hrefreshing]; exact List.append_nil _
  · rw [hrefreshing]; rfl
  · rw [hrefreshing]; exact Nat.le_succ _
  · rw [hrefreshing]; exact List.append_nil _

theorem tracked_moved {localQueue toAdapters toMstcp : List IntermediateBuffer} {stage : Stage}
    {action : PacketAction} {receiver : Receiver} (h : Tracked q)
    (hresolving : q.resolver = .running (.resolving (b :: localQueue) toAdapters toMstcp))
    (hheld : stage.held.Perm (b :: (localQueue ++ (toAdapters ++ toMstcp))))
    (hbound : ∀ c ∈ stage.bound, c = (b, receiver) ∨ c ∈ q.resolver.bound)
    (hsteps : stage.stepsLeft ≤ q.resolver.stepsLeft)
    (hput : putBack .onSend action = some receiver) :
    Tracked { q with resolver := .running stage, decided := q.decided ++ [(b, action)] } := by
  have hold : q.resolver.held = b :: (localQueue ++ (toAdapters ++ toMstcp)) := by
    rw [hresolving]; rfl
  have howns : q.resolver.owned = b :: (localQueue ++ (toAdapters ++ toMstcp)) := by
    rw [hresolving]; rfl
  have hflags : b.flags = .onSend := by
    refine (h.deferrable b ?_).1
    rw [hold]
    simp
  constructor
  · exact h.bounded
  · exact hsteps.trans h.batch
  · exact h.arrived
  · have hnumbers : (numbers stage.held).Perm (numbers q.resolver.held) := hold ▸ hheld.map _
    exact (List.Perm.append_left _ (hnumbers.append_right _)).trans h.balanced
  · exact h.undecided
  · intro c hc
    apply h.deferrable c
    rw [hold]
    simp only [Resolver.held, List.mem_append, hheld.mem_iff] at hc ⊢
    exact hc
  · intro c hc
    obtain hc | hc := List.mem_append.mp hc
    · obtain rfl | hc := hbound c hc
      · exact ⟨action, by simp, hflags ▸ hput⟩
      · exact directed_append _ (h.directed c (List.mem_append_left _ hc))
    · exact directed_append _ (h.directed c (List.mem_append_right _ hc))
  · exact h.sound
  · exact h.distinct
  · have howned := h.owned
    rw [howns] at howned
    exact ((hheld.append_left _).append_left _).map _ |>.trans howned

theorem tracked_resolved {localQueue toAdapters toMstcp : List IntermediateBuffer}
    {action : Option PacketAction} (h : Tracked q)
    (hresolving : q.resolver = .running (.resolving (b :: localQueue) toAdapters toMstcp))
    (haction : GoesOn action) : Tracked (q.resolved b localQueue toAdapters toMstcp action) := by
  obtain rfl | rfl := haction
  · refine tracked_moved h hresolving ?_ ?_ ?_ rfl
    · simp only [Stage.held, List.append_assoc, List.singleton_append]
      exact (List.Perm.append_left _ List.perm_middle).trans List.perm_middle
    · intro c hc
      simp only [hresolving, Resolver.bound, Stage.bound, List.map_append, List.mem_append,
        List.map_cons, List.map_nil, List.mem_cons, List.not_mem_nil, or_false] at hc ⊢
      tauto
    · simp only [hresolving, Resolver.stepsLeft, Stage.stepsLeft, List.length_append,
        List.length_cons, List.length_nil]
      omega
  · refine tracked_moved h hresolving ?_ ?_ ?_ rfl
    · simp only [Stage.held, ← List.append_assoc]
      exact List.perm_append_singleton _ _
    · intro c hc
      simp only [hresolving, Resolver.bound, Stage.bound, List.map_append, List.mem_append,
        List.map_cons, List.map_nil, List.mem_cons, List.not_mem_nil, or_false] at hc ⊢
      tauto
    · simp only [hresolving, Resolver.stepsLeft, Stage.stepsLeft, List.length_append,
        List.length_cons, List.length_nil]
      omega

theorem tracked_sent {sent : List IntermediateBuffer} {receiver : Receiver} {stage next : Stage}
    (h : Tracked q) (hrunning : q.resolver = .running stage)
    (hheld : stage.held = sent ++ next.held)
    (hbound : stage.bound = sent.map (fun b => (b, receiver)) ++ next.bound)
    (hsteps : 2 * sent.length + next.stepsLeft ≤ stage.stepsLeft) :
    Tracked { q with
      resolver := .release next sent
      handed := q.handed ++ sent.map fun b => (b, receiver) } := by
  have hold : q.resolver.held = sent ++ next.held := by rw [hrunning]; exact hheld
  constructor
  · exact h.bounded
  · have hbatch := h.batch
    rw [hrunning] at hbatch
    rw [release_stepsLeft]
    exact hsteps.trans hbatch
  · exact h.arrived
  · have hbalanced := h.balanced
    rw [hold, numbers_append] at hbalanced
    refine List.Perm.trans ?_ hbalanced
    refine List.Perm.append_left _ ?_
    have hsent : (sent.map fun b => (b, receiver)).map (fun h => h.1.number) = numbers sent := by
      rw [List.map_map]; rfl
    rw [release_held]
    simp only [DeferredQueue.handedNumbers, List.map_append, hsent]
    rw [← List.append_assoc]
    exact List.perm_append_comm.trans (by rw [List.append_assoc])
  · exact h.undecided
  · intro b hb
    apply h.deferrable b
    rw [release_held] at hb
    simp only [hold, List.mem_append] at hb ⊢
    tauto
  · intro c hc
    apply h.directed c
    rw [release_bound] at hc
    rw [hrunning]
    simp only [Resolver.bound, hbound, List.mem_append] at hc ⊢
    tauto
  · exact h.sound
  · exact h.distinct
  · have howned := h.owned
    rw [hrunning] at howned
    rw [release_owned, ← hheld]
    exact howned

end QueueLemmas

section Postponed
variable (cfg : Config) (seen : Seen)

theorem lookupTcp_isSome (r : LocalRouter) (p : TcpPacket InAddr) :
    (lookupTcp r true p).1.isSome = true := by
  simp only [lookupTcp, Bool.and_true]
  split
  · unfold ProcessTables.lookupProcessForTcp
    split
    · rfl
    · simp only [ProcessTables.lookupProtected]
      split
      · split <;> rfl
      · rfl
  · rename_i hsome
    rwa [Bool.not_eq_true, Option.isNone_eq_false_iff] at hsome

theorem goesOn_redirectTcp (r : LocalRouter) (p : TcpPacket InAddr) (port : TcpLocalRedirect.Port) :
    GoesOn (packetAction (redirectTcp r p port).1) := by
  simp only [redirectTcp]
  split
  · exact .inr rfl
  · exact .inl rfl

theorem goesOn_routeTcp (r : LocalRouter) (p : TcpPacket InAddr)
    (process : ProcessTables.NetworkProcess) (port : TcpLocalRedirect.Port) :
    GoesOn (packetAction (routeTcp cfg r p process port).1) := by
  unfold routeTcp
  split
  · split
    · exact .inl rfl
    · exact goesOn_redirectTcp _ p port
  · exact goesOn_redirectTcp r p port

theorem goesOn_outgoingTcp (p : TcpPacket InAddr) :
    GoesOn (packetAction (outgoingTcp cfg seen true p)) := by
  unfold outgoingTcp
  split
  · rename_i hnone
    exact absurd hnone (Option.isSome_iff_ne_none.mp (lookupTcp_isSome seen.lookup p))
  · dsimp only
    split
    · exact .inl rfl
    · split
      · exact .inl rfl
      · split
        · exact goesOn_routeTcp cfg seen.redirect p _ _
        · exact .inl rfl

theorem goesOn_outgoingUdp (p : UdpPacket) :
    GoesOn (packetAction (outgoingUdp cfg seen true p)) := by
  unfold outgoingUdp
  split
  · rename_i hnone
    exact absurd hnone (Option.isSome_iff_ne_none.mp (lookupUdp_isSome seen.lookup p))
  · dsimp only
    split
    · exact .inl rfl
    · split
      · exact .inl rfl
      · split
        · split
          · exact .inl rfl
          · split
            · exact .inr rfl
            · exact .inl rfl
        · exact .inl rfl

/-- The lookups of a postponed packet fall back to the default process, so that there is always a
    result for it. -/
theorem resolvePacket_action {frame : Frame} (h : frame.isTransport = true) :
    GoesOn (resolvePacket cfg seen frame) := by
  cases frame with
  | tcp p =>
    simp only [resolvePacket, tcpDecision]
    split
    · exact .inr rfl
    · exact goesOn_outgoingTcp cfg seen p
  | udp p =>
    simp only [resolvePacket, udpDecision]
    split
    · exact .inl rfl
    · split
      · exact .inr rfl
      · exact goesOn_outgoingUdp cfg seen p
  | other => exact absurd h Bool.false_ne_true

end Postponed

/-- The order of a shutdown: filter, signal, resolver thread. -/
structure Ordered (s : DeferredRouter) : Prop where
  filtering : s.lifecycle.filtering = false → s.callback = .idle
  signalled : s.resolverShouldExit = true → s.lifecycle = .exiting ∨ s.lifecycle = .stopped
  exited : s.resolver = .exited → s.lifecycle = .exiting ∧ s.queue = []
  stopped : s.lifecycle = .stopped → s.resolver = .absent ∧ s.queue = []
  absent : s.resolver = .absent → s.lifecycle = .stopped

structure Invariant (s : DeferredRouter) : Prop where
  tracked : Tracked s.toDeferredQueue
  ordered : Ordered s

section StepLemmas
variable {cfg : Config} {s t : DeferredRouter}

theorem filtering_of_callback (h : Ordered s) (hcallback : s.callback ≠ .idle) :
    s.lifecycle.filtering = true := by
  by_contra hnot
  exact hcallback (h.filtering (Bool.eq_false_of_not_eq_true hnot))

/-- While the filter runs its callback may do what it likes with the queue. -/
theorem ordered_filter {q : DeferredQueue} (h : Ordered s)
    (hfiltering : s.lifecycle.filtering = true)
    (hexited : q.resolver = .exited → s.resolver = .exited)
    (habsent : q.resolver = .absent → s.resolver = .absent) :
    Ordered { s with toDeferredQueue := q } where
  filtering hnot := absurd (hfiltering.symm.trans hnot) (by decide)
  signalled := h.signalled
  exited hleft := by
    have hexiting := (h.exited (hexited hleft)).1
    rw [hexiting] at hfiltering
    exact absurd hfiltering (by decide)
  stopped hstopped := by
    change s.lifecycle = .stopped at hstopped
    rw [hstopped] at hfiltering
    exact absurd hfiltering (by decide)
  absent hleft := h.absent (habsent hleft)

theorem ordered_callback {q : DeferredQueue} (h : Ordered s)
    (hfiltering : s.lifecycle.filtering = true) (hresolver : q.resolver = s.resolver) :
    Ordered { s with toDeferredQueue := q } :=
  ordered_filter h hfiltering (fun hexited => hresolver ▸ hexited) fun habsent => hresolver ▸ habsent

theorem ordered_resolver {q : DeferredQueue} (h : Ordered s) (hthread : s.resolver ≠ .absent)
    (hcallback : q.callback = s.callback) (halive : q.resolver ≠ .absent ∧ q.resolver ≠ .exited) :
    Ordered { s with toDeferredQueue := q } where
  filtering hnot := hcallback.trans (h.filtering hnot)
  signalled := h.signalled
  exited hexited := absurd hexited halive.2
  stopped hstopped := absurd (h.stopped hstopped).1 hthread
  absent habsent := absurd habsent halive.1

theorem ordered_wake (h : Ordered s) (hwaiting : s.resolver = .running .waiting) :
    Ordered { s with toDeferredQueue := s.wake s.resolverShouldExit } := by
  have hthread : s.resolver ≠ .absent := by rw [hwaiting]; exact Resolver.noConfusion
  obtain ⟨hqueue, hexit, hwake⟩ | ⟨-, -, hwake⟩ | ⟨b, rest, -, hwake⟩ :=
    wake_cases s.toDeferredQueue s.resolverShouldExit
  · have hexiting : s.lifecycle = .exiting :=
      (h.signalled hexit).resolve_right fun hstopped => hthread (h.stopped hstopped).1
    rw [hwake]
    exact ⟨h.filtering, h.signalled, fun _ => ⟨hexiting, hqueue⟩,
      fun hstopped => absurd (h.stopped hstopped).1 hthread,
      fun habsent => Resolver.noConfusion habsent⟩
  · rw [hwake]
    exact h
  · rw [hwake]
    exact ordered_resolver h hthread rfl ⟨Resolver.noConfusion, Resolver.noConfusion⟩

theorem filterPacket_none {seen : Seen} {flags : DeviceFlags}
    {frame : Frame} (h : filterPacket cfg seen flags frame = none) :
    flags = .onSend ∧ frame.isTransport = true := by
  cases flags with
  | onReceive => exact absurd h (Option.some_ne_none _)
  | onSend =>
    cases frame with
    | tcp p | udp p => exact ⟨rfl, rfl⟩
    | other => exact absurd h (Option.some_ne_none _)

theorem invariant_receive {flags : DeviceFlags} {seen : Seen}
    {frame : Frame} (h : Invariant s) (hfiltering : s.lifecycle.filtering = true)
    (hidle : s.callback = .idle) : Invariant (receive cfg s flags seen frame) := by
  unfold receive
  split
  · exact h
  · rename_i hnone
    obtain ⟨hflags, hframe⟩ := filterPacket_none hnone
    exact ⟨tracked_defer h.tracked hidle hflags hframe, ordered_callback h.ordered hfiltering rfl⟩

theorem constructed_resolver (q : DeferredQueue) (p : Packet) (address : Option ℕ) :
    ((q.constructed p address).resolver = .exited → q.resolver = .exited) ∧
      ((q.constructed p address).resolver = .absent → q.resolver = .absent) := by
  cases address with
  | none => exact ⟨id, id⟩
  | some address =>
    simp only [DeferredQueue.constructed]
    cases q.resolver <;> simp [Resolver.map]

theorem invariant_resolve {seen : Seen} {b : IntermediateBuffer}
    {localQueue toAdapters toMstcp : List IntermediateBuffer} (h : Invariant s)
    (hresolving : s.resolver = .running (.resolving (b :: localQueue) toAdapters toMstcp)) :
    Invariant { s with
      toDeferredQueue :=
        s.resolved b localQueue toAdapters toMstcp (resolvePacket cfg seen b.frame) } := by
  have hframe : b.frame.isTransport = true := by
    refine (h.tracked.deferrable b ?_).2
    rw [hresolving]
    simp [Resolver.held, Stage.held]
  have haction := resolvePacket_action cfg seen hframe
  have hthread : s.resolver ≠ .absent := by rw [hresolving]; exact Resolver.noConfusion
  refine ⟨tracked_resolved h.tracked hresolving haction, ?_⟩
  obtain haction | haction := haction
  · rw [haction]
    exact ordered_resolver h.ordered hthread rfl ⟨Resolver.noConfusion, Resolver.noConfusion⟩
  · rw [haction]
    exact ordered_resolver h.ordered hthread rfl ⟨Resolver.noConfusion, Resolver.noConfusion⟩

theorem ordered_moved {l₀ l : Lifecycle} {exit : Bool} (h : Ordered s) (hfrom : s.lifecycle = l₀)
    (hbetween : l₀ ≠ .exiting ∧ l₀ ≠ .stopped ∧ l ≠ .stopped)
    (hcallback : l.filtering = false → s.callback = .idle)
    (hsignal : exit = true → s.resolverShouldExit = true ∨ l = .exiting) :
    Ordered { s with lifecycle := l, resolverShouldExit := exit } := by
  obtain ⟨hexiting, hstopped, hto⟩ := hbetween
  rw [← hfrom] at hexiting hstopped
  refine ⟨hcallback, fun hexit => ?_, fun hexited => absurd (h.exited hexited).1 hexiting,
    fun h => absurd h hto, fun habsent => absurd (h.absent habsent) hstopped⟩
  obtain hold | hnew := hsignal hexit
  · obtain hold | hold := h.signalled hold
    · exact absurd hold hexiting
    · exact absurd hold hstopped
  · exact .inl hnew

theorem invariant_start (h : Invariant s) (hstopped : s.lifecycle = .stopped) :
    Invariant { s with
      lifecycle := .starting
      resolverShouldExit := false
      resolver := .running .waiting } := by
  obtain ⟨hresolver, -⟩ := h.ordered.stopped hstopped
  have hidle : s.callback = .idle := h.ordered.filtering (by rw [hstopped]; rfl)
  constructor
  · refine tracked_resolver h.tracked ?_ ?_ (Nat.zero_le _) ?_
    · rw [hresolver]; rfl
    · rw [hresolver]; rfl
    · rw [hresolver]; rfl
  · exact ⟨fun _ => hidle, fun hexit => absurd hexit Bool.false_ne_true,
      fun hexited => Resolver.noConfusion hexited, fun hstopped => Lifecycle.noConfusion hstopped,
      fun habsent => Resolver.noConfusion habsent⟩

theorem invariant_joinResolver (h : Invariant s) (hexited : s.resolver = .exited) :
    Invariant { s with lifecycle := .stopped, resolver := .absent } := by
  obtain ⟨hexiting, hqueue⟩ := h.ordered.exited hexited
  have hidle : s.callback = .idle := h.ordered.filtering (by rw [hexiting]; rfl)
  constructor
  · refine tracked_resolver h.tracked ?_ ?_ (Nat.zero_le _) ?_
    · rw [hexited]; rfl
    · rw [hexited]; rfl
    · rw [hexited]; rfl
  · exact ⟨fun _ => hidle, fun _ => .inr rfl, fun h => Resolver.noConfusion h,
      fun _ => ⟨rfl, hqueue⟩, fun _ => rfl⟩

/-- Where the two threads are not in the pool together, a step keeps the invariant. -/
theorem invariant_step {e : Event} (h : Invariant s) (halone : Alone s e)
    (hstep : step cfg s e = some t) : Invariant t := by
  obtain ⟨htracked, hordered⟩ := h
  cases moves_of_step hstep with
  | start hstopped => exact invariant_start ⟨htracked, hordered⟩ hstopped
  | startFilter started hstarting =>
    have hidle : s.callback = .idle := hordered.filtering (by rw [hstarting]; rfl)
    cases started with
    | true => exact ⟨htracked, ordered_moved hordered hstarting (by decide) (fun _ => hidle) .inl⟩
    | false =>
      exact ⟨htracked,
        ordered_moved hordered hstarting (by decide) (fun _ => hidle) fun _ => .inr rfl⟩
  | stop hrunning =>
    exact ⟨htracked, ordered_moved hordered hrunning (by decide)
      (fun hnot => absurd hnot (by decide)) .inl⟩
  | stopFilter hstopping hidle =>
    exact ⟨htracked, ordered_moved hordered hstopping (by decide) (fun _ => hidle) .inl⟩
  | signalExit hfilter =>
    have hidle : s.callback = .idle := hordered.filtering (by rw [hfilter]; rfl)
    exact ⟨htracked,
      ordered_moved hordered hfilter (by decide) (fun _ => hidle) fun _ => .inr rfl⟩
  | joinResolver _ hexited => exact invariant_joinResolver ⟨htracked, hordered⟩ hexited
  | receive flags seen frame hfiltering hidle =>
    exact invariant_receive ⟨htracked, hordered⟩ hfiltering hidle
  | checkCapacity p hchecking =>
    have hfiltering := filtering_of_callback hordered (by rw [hchecking]; exact Callback.noConfusion)
    refine ⟨tracked_checkCapacity htracked hchecking, ordered_callback hordered hfiltering ?_⟩
    unfold DeferredQueue.checkCapacity
    split <;> rfl
  | construct p hallocating =>
    have hfiltering :=
      filtering_of_callback hordered (by rw [hallocating]; exact Callback.noConfusion)
    have hentered : Tracked { s.toDeferredQueue with callback := .constructing p } :=
      tracked_callback htracked (by rw [hallocating]; rfl) (by rw [hallocating]; rfl)
    exact ⟨tracked_enter hentered (halone rfl), ordered_callback hordered hfiltering rfl⟩
  | constructed p address hconstructing hgives =>
    have hfiltering :=
      filtering_of_callback hordered (by rw [hconstructing]; exact Callback.noConfusion)
    obtain ⟨hexited, habsent⟩ := constructed_resolver s.toDeferredQueue p address
    exact ⟨tracked_constructed htracked hconstructing hgives,
      ordered_filter hordered hfiltering hexited habsent⟩
  | push b hpushing =>
    have hfiltering := filtering_of_callback hordered (by rw [hpushing]; exact Callback.noConfusion)
    refine ⟨tracked_push htracked hpushing, ordered_callback hordered hfiltering ?_⟩
    unfold DeferredQueue.push
    split <;> rfl
  | discard b hdiscarding =>
    have hfiltering :=
      filtering_of_callback hordered (by rw [hdiscarding]; exact Callback.noConfusion)
    have hentered : Tracked { s.toDeferredQueue with callback := .destroying b } :=
      tracked_callback htracked (by rw [hdiscarding]; rfl) (by rw [hdiscarding]; rfl)
    exact ⟨tracked_enter hentered (halone rfl), ordered_callback hordered hfiltering rfl⟩
  | discarded b hdestroying =>
    have hfiltering :=
      filtering_of_callback hordered (by rw [hdestroying]; exact Callback.noConfusion)
    exact ⟨tracked_discarded htracked hdestroying, ordered_callback hordered hfiltering rfl⟩
  | wake hwaiting => exact ⟨tracked_wake htracked hwaiting _, ordered_wake hordered hwaiting⟩
  | actualize localQueue hrefreshing =>
    have hthread : s.resolver ≠ .absent := by rw [hrefreshing]; exact Resolver.noConfusion
    exact ⟨tracked_refreshed htracked hrefreshing,
      ordered_resolver hordered hthread rfl ⟨Resolver.noConfusion, Resolver.noConfusion⟩⟩
  | resolve seen b localQueue toAdapters toMstcp hresolving =>
    exact invariant_resolve ⟨htracked, hordered⟩ hresolving
  | sendPacketsToAdapters toAdapters toMstcp hresolving =>
    have hthread : s.resolver ≠ .absent := by rw [hresolving]; exact Resolver.noConfusion
    refine ⟨tracked_sent htracked hresolving rfl rfl ?_,
      ordered_resolver hordered hthread rfl (release_ne _ _)⟩
    simp only [Stage.stepsLeft, List.length_nil]
    omega
  | sendPacketsToMstcp toMstcp hsending =>
    have hthread : s.resolver ≠ .absent := by rw [hsending]; exact Resolver.noConfusion
    refine ⟨tracked_sent htracked hsending (List.append_nil _).symm (List.append_nil _).symm
      (Nat.le_succ _), ordered_resolver hordered hthread rfl (release_ne _ _)⟩
  | destroy b buffers next hreleasing =>
    have hthread : s.resolver ≠ .absent := by rw [hreleasing]; exact Resolver.noConfusion
    exact ⟨tracked_destroy htracked hreleasing (halone rfl),
      ordered_resolver hordered hthread rfl ⟨Resolver.noConfusion, Resolver.noConfusion⟩⟩
  | destroyed b buffers next hdestroying =>
    have hthread : s.resolver ≠ .absent := by rw [hdestroying]; exact Resolver.noConfusion
    exact ⟨tracked_destroyed htracked hdestroying,
      ordered_resolver hordered hthread rfl (release_ne _ _)⟩

end StepLemmas

theorem invariant_initial : Invariant initial where
  tracked := {
    bounded := Nat.zero_le _
    batch := Nat.zero_le _
    arrived := List.Perm.refl _
    balanced := List.Perm.refl _
    undecided := List.forall_mem_nil _
    deferrable := List.forall_mem_nil _
    directed := List.forall_mem_nil _
    sound := rfl
    distinct := List.nodup_nil
    owned := List.Perm.refl _ }
  ordered := {
    filtering _ := rfl
    signalled _ := .inr rfl
    exited h := Resolver.noConfusion h
    stopped _ := ⟨rfl, rfl⟩
    absent _ := rfl }

/-- Every deferred packet is accepted or refused in the end, no accepted one is lost, none is
    handed on twice, and the shutdown leaves none behind. -/
structure Conserved (s : DeferredRouter) : Prop where
  bounded : s.queue.length ≤ maxResolveQueueDepth
  arrived : (s.callback.pending.map Packet.number ++ (s.refused ++ s.accepted)).Perm
    (List.range s.deferred)
  accounted : (numbers s.queue ++ (numbers s.resolver.held ++ s.handedNumbers)).Perm s.accepted
  once : s.accepted.Nodup
  refused : s.refused.Disjoint s.accepted
  directed : ∀ h ∈ s.handed, Directed s.decided h
  exits : s.resolver = .exited → s.lifecycle.filtering = false ∧ s.callback = .idle ∧
    s.queue = [] ∧ s.handedNumbers.Perm s.accepted

def Accepts (cfg : Config) (s : DeferredRouter) : Prop :=
  ∀ b, s.callback = .pushing b → s.queue.length < maxResolveQueueDepth →
    ∃ t, step cfg s .push = some t ∧ t.accepted = s.accepted ++ [b.number]

def nothingSeen : Seen := alone (PacketPath.start []) fun _ => none

def serviceBound : ℕ := 2 * batchSteps + 1

/-- An accepted packet is handed on, however the steps of the resolver thread are interleaved with
    those of the others; until then the thread can take its next step. -/
def Served (cfg : Config) (s : DeferredRouter) : Prop :=
  ∀ n ∈ s.accepted,
    (n ∈ s.handedNumbers ∨ ∃ e t, e.isResolver = true ∧ step cfg s e = some t) ∧
    ∀ later t, Meets (step cfg) Alone s later → exec (step cfg) s later = some t →
      serviceBound < later.countP Event.isResolver → n ∈ t.handedNumbers

section Service
variable {cfg : Config} {s t : DeferredRouter} {n : ℕ}

theorem conserved_of_invariant (h : Invariant s) : Conserved s := by
  have hnodup := (h.tracked.arrived.nodup_iff.mpr List.nodup_range).of_append_right
  refine ⟨h.tracked.bounded, h.tracked.arrived, h.tracked.balanced, hnodup.of_append_right,
    List.disjoint_of_nodup_append hnodup,
    fun b hb => h.tracked.directed b (List.mem_append_right _ hb), fun hexited => ?_⟩
  obtain ⟨hexiting, hqueue⟩ := h.ordered.exited hexited
  have hfiltering : s.lifecycle.filtering = false := by rw [hexiting]; rfl
  have hbalanced := h.tracked.balanced
  rw [hexited, hqueue] at hbalanced
  exact ⟨hfiltering, h.ordered.filtering hfiltering, hqueue, hbalanced⟩

/-- The steps of the resolver thread until packet `n` is handed on. -/
def stepsUntil (n : ℕ) (s : DeferredRouter) : ℕ :=
  s.resolver.stepsLeft + if n ∈ numbers s.queue then batchSteps + 1 else 0

theorem place_of_accepted (h : Tracked s.toDeferredQueue) (hn : n ∈ s.accepted) :
    n ∈ numbers s.queue ∨ n ∈ numbers s.resolver.held ∨ n ∈ s.handedNumbers := by
  have hmem := h.balanced.mem_iff.mpr hn
  simpa only [List.mem_append] using hmem

structure Quiet (s t : DeferredRouter) (e : Event) : Prop where
  stepsLeft : t.resolver.stepsLeft + e.isResolver.toNat ≤ s.resolver.stepsLeft
  queue : t.queue = s.queue
  accepted : t.accepted = s.accepted
  handed : s.handed <+: t.handed

theorem quiet_of_same {e : Event} (hother : e.isResolver = false)
    (hresolver : t.resolver.stepsLeft ≤ s.resolver.stepsLeft) (hqueue : t.queue = s.queue)
    (haccepted : t.accepted = s.accepted) (hhanded : t.handed = s.handed) : Quiet s t e :=
  ⟨by rw [hother]; exact hresolver, hqueue, haccepted, hhanded ▸ List.prefix_refl _⟩

theorem map_stepsLeft (f : IntermediateBuffer → IntermediateBuffer) (r : Resolver) :
    (r.map f).stepsLeft = r.stepsLeft := by
  have hstage (stage : Stage) : (stage.map f).stepsLeft = stage.stepsLeft := by
    cases stage <;> simp [Stage.map, Stage.stepsLeft]
  cases r <;> simp [Resolver.map, Resolver.stepsLeft, hstage]

theorem quiet_step {e : Event} (h : Invariant s) (hpush : e ≠ .push) (hwake : e ≠ .wake)
    (hstep : step cfg s e = some t) : Quiet s t e := by
  cases moves_of_step hstep with
  | push => exact absurd rfl hpush
  | wake => exact absurd rfl hwake
  | start | joinResolver => exact quiet_of_same rfl (Nat.zero_le _) rfl rfl rfl
  | stop | stopFilter | signalExit | construct | discard | discarded =>
    exact quiet_of_same rfl (Nat.le_refl _) rfl rfl rfl
  | startFilter started =>
    cases started <;> exact quiet_of_same rfl (Nat.le_refl _) rfl rfl rfl
  | receive flags seen frame =>
    unfold receive
    split <;> exact quiet_of_same rfl (Nat.le_refl _) rfl rfl rfl
  | checkCapacity p =>
    unfold DeferredQueue.checkCapacity
    split <;> exact quiet_of_same rfl (Nat.le_refl _) rfl rfl rfl
  | constructed p address hconstructing hgives =>
    cases address with
    | none => exact quiet_of_same rfl (Nat.le_refl _) rfl rfl rfl
    | some address =>
      have hself := overwrite_eq_self h.tracked hgives p
      have hqueue := (List.forall_mem_append.mp (List.forall_mem_append.mp hself).2).1
      exact quiet_of_same rfl (Nat.le_of_eq (map_stepsLeft _ _))
        ((List.map_congr_left hqueue).trans (List.map_id' _)) rfl rfl
  | actualize localQueue hrefreshing =>
    exact ⟨by rw [hrefreshing]; exact Nat.le_refl _, rfl, rfl, List.prefix_refl _⟩
  | resolve seen b localQueue toAdapters toMstcp hresolving =>
    refine ⟨?_, ?_, ?_, ?_⟩
    · rw [hresolving]
      unfold DeferredQueue.resolved
      split <;> simp only [Resolver.stepsLeft, Stage.stepsLeft, Event.isResolver, Bool.toNat_true,
        Bool.toNat_false, List.length_append, List.length_cons, List.length_nil] <;> omega
    · unfold DeferredQueue.resolved
      split <;> rfl
    · unfold DeferredQueue.resolved
      split <;> rfl
    · unfold DeferredQueue.resolved
      split <;> exact List.prefix_refl _
  | sendPacketsToAdapters toAdapters toMstcp hresolving =>
    refine ⟨?_, rfl, rfl, List.prefix_append _ _⟩
    simp only [hresolving, DeferredQueue.sendPacketsToAdapters, release_stepsLeft]
    simp only [Resolver.stepsLeft, Stage.stepsLeft, Event.isResolver, Bool.toNat_true,
      List.length_nil]
    omega
  | sendPacketsToMstcp toMstcp hsending =>
    refine ⟨?_, rfl, rfl, List.prefix_append _ _⟩
    simp only [hsending, DeferredQueue.sendPacketsToMstcp, release_stepsLeft]
    simp only [Resolver.stepsLeft, Stage.stepsLeft, Event.isResolver, Bool.toNat_true]
    omega
  | destroy b buffers next hreleasing =>
    refine ⟨?_, rfl, rfl, List.prefix_refl _⟩
    simp only [hreleasing, DeferredQueue.destroy, Resolver.stepsLeft, Event.isResolver,
      Bool.toNat_true, Bool.toNat_false]
    omega
  | destroyed b buffers next hdestroying =>
    refine ⟨?_, rfl, rfl, List.prefix_refl _⟩
    simp only [hdestroying, DeferredQueue.destroyed, release_stepsLeft]
    simp only [Resolver.stepsLeft, Event.isResolver, Bool.toNat_true]
    omega

theorem push_step (h : Invariant s) (hstep : step cfg s .push = some t) :
    t.resolver = s.resolver ∧ t.handed = s.handed ∧
      (t.queue = s.queue ∧ t.accepted = s.accepted ∨
        ∃ b, b.number ∉ s.accepted ∧ t.queue = s.queue ++ [b] ∧
          t.accepted = s.accepted ++ [b.number]) := by
  cases moves_of_step hstep with
  | push b hpushing =>
    have hfresh : b.number ∉ s.accepted := by
      have hnodup := h.tracked.arrived.nodup_iff.mpr List.nodup_range
      rw [hpushing] at hnodup
      have hrest := (List.nodup_cons.mp hnodup).1
      exact fun hmem => hrest (List.mem_append_right _ (List.mem_append_right _ hmem))
    simp only [DeferredQueue.push]
    split
    · exact ⟨rfl, rfl, .inr ⟨b, hfresh, rfl, rfl⟩⟩
    · exact ⟨rfl, rfl, .inl ⟨rfl, rfl⟩⟩

theorem wake_step (hstep : step cfg s .wake = some t) :
    s.resolver = .running .waiting ∧ t.accepted = s.accepted ∧ t.handed = s.handed ∧
      (s.queue = [] ∨ t.resolver.stepsLeft = 3 * s.queue.length + 3 ∧ t.queue = []) := by
  cases moves_of_step hstep with
  | wake hwaiting =>
    obtain ⟨hqueue, -, hwake⟩ | ⟨hqueue, -, hwake⟩ | ⟨b, rest, hqueue, hwake⟩ :=
      wake_cases s.toDeferredQueue s.resolverShouldExit
    · rw [hwake]
      exact ⟨hwaiting, rfl, rfl, .inl hqueue⟩
    · rw [hwake]
      exact ⟨hwaiting, rfl, rfl, .inl hqueue⟩
    · rw [hwake, hqueue]
      exact ⟨hwaiting, rfl, rfl, .inr ⟨rfl, rfl⟩⟩

theorem handed_step {e : Event} (h : Invariant s) (hstep : step cfg s e = some t) :
    s.handed <+: t.handed := by
  by_cases hpush : e = .push
  · subst hpush
    exact (push_step h hstep).2.1 ▸ List.prefix_refl _
  · by_cases hwake : e = .wake
    · subst hwake
      exact (wake_step hstep).2.2.1 ▸ List.prefix_refl _
    · exact (quiet_step h hpush hwake hstep).handed

theorem accepted_step {e : Event} (h : Invariant s) (hn : n ∈ s.accepted)
    (hstep : step cfg s e = some t) : n ∈ t.accepted := by
  by_cases hpush : e = .push
  · subst hpush
    obtain ⟨-, -, ⟨-, haccepted⟩ | ⟨b, -, -, haccepted⟩⟩ := push_step h hstep
    · exact haccepted ▸ hn
    · exact haccepted ▸ List.mem_append_left _ hn
  · by_cases hwake : e = .wake
    · subst hwake
      exact (wake_step hstep).2.1 ▸ hn
    · exact (quiet_step h hpush hwake hstep).accepted ▸ hn

theorem stepsUntil_step {e : Event} (h : Invariant s) (hn : n ∈ s.accepted)
    (hwaits : n ∉ s.handedNumbers) (hstep : step cfg s e = some t) :
    stepsUntil n t + e.isResolver.toNat ≤ stepsUntil n s := by
  unfold stepsUntil
  by_cases hpush : e = .push
  · subst hpush
    obtain ⟨hresolver, -, ⟨hqueue, -⟩ | ⟨b, hfresh, hqueue, -⟩⟩ := push_step h hstep
    · rw [hresolver, hqueue]
      exact Nat.le_refl _
    · have hne : n ≠ b.number := fun heq => hfresh (heq ▸ hn)
      rw [hresolver, hqueue]
      simp only [numbers_append, numbers_cons, numbers_nil, List.mem_append, List.mem_singleton,
        hne, or_false]
      exact Nat.le_refl _
  · by_cases hwake : e = .wake
    · subst hwake
      obtain ⟨hwaiting, -, -, hrest⟩ := wake_step hstep
      have hmem : n ∈ numbers s.queue := by
        obtain hmem | hheld | hhanded := place_of_accepted h.tracked hn
        · exact hmem
        · rw [hwaiting] at hheld
          exact absurd hheld List.not_mem_nil
        · exact absurd hhanded hwaits
      obtain hempty | ⟨hsteps, hqueue⟩ := hrest
      · rw [hempty] at hmem
        exact absurd hmem List.not_mem_nil
      · have hbounded := h.tracked.bounded
        rw [if_pos hmem, hsteps, hqueue]
        simp only [numbers_nil, List.not_mem_nil, if_false, Event.isResolver, Bool.toNat_true,
          batchSteps]
        omega
    · have hquiet := quiet_step h hpush hwake hstep
      have hsteps := hquiet.stepsLeft
      rw [hquiet.queue]
      omega

theorem stepsUntil_le (h : Tracked s.toDeferredQueue) : stepsUntil n s ≤ serviceBound := by
  have hbatch := h.batch
  unfold stepsUntil serviceBound
  split <;> omega

/-- While an accepted packet waits, the resolver thread is at a point from which it goes on. -/
theorem resolver_enabled (cfg : Config) (h : Invariant s) (hn : n ∈ s.accepted)
    (hwaits : n ∉ s.handedNumbers) : ∃ e t, e.isResolver = true ∧ step cfg s e = some t := by
  have hplace : n ∈ numbers s.queue ∨ n ∈ numbers s.resolver.held := by
    obtain hqueue | hheld | hhanded := place_of_accepted h.tracked hn
    · exact .inl hqueue
    · exact .inr hheld
    · exact absurd hhanded hwaits
  cases hresolver : s.resolver with
  | absent =>
    rw [hresolver, (h.ordered.stopped (h.ordered.absent hresolver)).2] at hplace
    simp [Resolver.held] at hplace
  | exited =>
    rw [hresolver, (h.ordered.exited hresolver).2] at hplace
    simp [Resolver.held] at hplace
  | releasing b buffers destroying next =>
    cases destroying with
    | false => exact ⟨.destroy, _, rfl, by simp only [step, hresolver]; rfl⟩
    | true => exact ⟨.destroyed, _, rfl, by simp only [step, hresolver]; rfl⟩
  | running stage =>
    cases stage with
    | waiting => exact ⟨.wake, _, rfl, by simp only [step, hresolver]; rfl⟩
    | refreshing localQueue => exact ⟨.actualize, _, rfl, by simp only [step, hresolver]; rfl⟩
    | resolving localQueue toAdapters toMstcp =>
      cases localQueue with
      | nil => exact ⟨.sendPacketsToAdapters, _, rfl, by simp only [step, hresolver]; rfl⟩
      | cons b localQueue =>
        exact ⟨.resolve nothingSeen, _, rfl, by simp only [step, hresolver]; rfl⟩
    | sending toMstcp => exact ⟨.sendPacketsToMstcp, _, rfl, by simp only [step, hresolver]; rfl⟩

theorem served_of_invariant (cfg : Config) (h : Invariant s) : Served cfg s := by
  intro n hn
  constructor
  · by_cases hhanded : n ∈ s.handedNumbers
    · exact .inl hhanded
    · exact .inr (resolver_enabled cfg h hn hhanded)
  · intro later t hok hrun hcount
    have hsettled : ∀ (s : DeferredRouter) e t, Invariant s ∧ n ∈ s.handedNumbers → Alone s e →
        step cfg s e = some t → Invariant t ∧ n ∈ t.handedNumbers := by
      intro s e t hs halone hstep
      exact ⟨invariant_step hs.1 halone hstep, ((handed_step hs.1 hstep).map _).subset hs.2⟩
    have hgoal := goal_of_count_of_meets Event.isResolver (stepsUntil n)
      (fun s e t (hs : Invariant s ∧ n ∈ s.accepted) halone hstep =>
        ⟨invariant_step hs.1 halone hstep, accepted_step hs.1 hs.2 hstep⟩)
      hsettled
      (fun s e t hs halone hstep => by
        by_cases hhanded : n ∈ s.handedNumbers
        · exact .inl (hsettled s e t ⟨hs.1, hhanded⟩ halone hstep)
        · exact .inr (stepsUntil_step hs.1 hs.2 hhanded hstep))
      ⟨h, hn⟩ hok hrun (Nat.lt_of_le_of_lt (stepsUntil_le h.tracked) hcount)
    exact hgoal.2

theorem accepts_step (cfg : Config) (s : DeferredRouter) : Accepts cfg s := by
  intro b hpushing hroom
  refine ⟨_, by simp only [step, hpushing]; rfl, ?_⟩
  rw [DeferredQueue.push, if_pos hroom]

end Service

/-- For every interleaving of the packet filter, the resolver thread, `start` and `stop` in which
    the two threads are never in the pool together, in every state on the way: the queue keeps its
    bound and takes what it has room for, every accepted packet is handed on exactly once and where
    it belongs, no refused packet is queued, and the thread ends last. -/
theorem always_conserved (cfg : Config) (events : List Event)
    (halone : Meets (step cfg) Alone initial events) :
    Always (step cfg) (fun s => Conserved s ∧ Accepts cfg s ∧ Served cfg s) initial events := by
  have hinvariant : Always (step cfg) Invariant initial events :=
    always_of_meets (fun _ _ _ => invariant_step) invariant_initial halone
  exact always_mono (fun s h => ⟨conserved_of_invariant h, accepts_step cfg s,
    served_of_invariant cfg h⟩) hinvariant

def plainConfig : Config := ⟨0, [], [], []⟩

def datagram : UdpPacket := ⟨0, 0, 0, 0, 5000, 6000⟩

def deferDatagram : List Event :=
  [.receive .onSend nothingSeen (.udp datagram), .checkCapacity, .construct]

def oneDatagram : List Event :=
  [.start, .startFilter true] ++ deferDatagram ++ [.constructed (some 0), .push, .wake, .actualize,
    .resolve nothingSeen, .sendPacketsToAdapters]

theorem always_conserved_oneDatagram :
    Always (step plainConfig) (fun s => Conserved s ∧ Accepts plainConfig s ∧ Served plainConfig s)
      initial (oneDatagram ++ [.destroy, .destroyed, .sendPacketsToMstcp]) :=
  always_conserved plainConfig _ (by decide)

/-- While the first packet is handed on, the second one comes: its buffer is taken from the pool
    while the other one goes back. The third packet gets the address of the second. -/
def overlappingCalls : List Event :=
  oneDatagram ++ deferDatagram ++ [.destroy, .constructed (some 1), .destroyed, .push] ++
    deferDatagram ++ [.constructed (some 1), .push]

theorem overlappingCalls_lose_packet : ¬∀ (cfg : Config) (events : List Event),
    Always (step cfg) (fun s => Conserved s ∧ Accepts cfg s ∧ Served cfg s) initial events := by
  intro h
  have hplaces : (exec (step plainConfig) initial overlappingCalls).map (fun t =>
      (numbers t.queue ++ (numbers t.resolver.held ++ t.handedNumbers), t.accepted)) =
        some ([2, 2, 0], [0, 1, 2]) := by decide
  obtain ⟨t, hrun, hplaces⟩ := Option.map_eq_some_iff.mp hplaces
  have hreached := (always_iff_reached _ _).mp (h plainConfig overlappingCalls)
  have haccounted := (hreached overlappingCalls [] t (List.append_nil _).symm hrun).1.accounted
  obtain ⟨hheld, haccepted⟩ := Prod.mk.inj hplaces
  rw [hheld, haccepted] at haccounted
  revert haccounted
  decide

end ProxySwitch.DeferredPackets
