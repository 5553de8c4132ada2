import Mathlib.Algebra.BigOperators.Group.List.Basic
import Mathlib.Algebra.Order.Group.Multiset
import Mathlib.Tactic.Abel
import ProxySwitch.CompletionPort

set_option autoImplicit false

namespace ProxySwitch.CompletionPort
open TransitionRuns

variable {w : ℕ} {ο η φ : Type} {n : ℕ} {entry : φ} {s t : IoCompletionPort w ο η φ}

/-! ### One thread changes -/

section Threads

theorem sum_map_set {α M : Type*} [AddCommMonoid M] (f : α → M) {l : List α} {i : ℕ} {x : α} (y : α)
    (h : l[i]? = some x) : ((l.set i y).map f).sum + f x = (l.map f).sum + f y := by
  induction l generalizing i with
  | nil => cases h
  | cons z l ih =>
    cases i with
    | zero =>
      obtain rfl := Option.some.inj h
      simp only [List.set_cons_zero, List.map_cons, List.sum_cons]
      abel
    | succ i =>
      have hrest := ih (i := i) (by simpa using h)
      simp only [List.set_cons_succ, List.map_cons, List.sum_cons]
      rw [add_assoc, hrest, add_assoc]

theorem mem_goto {i : ℕ} {p q : Worker w ο η φ} (h : q ∈ (s.goto i p).threads) : q ∈ s.threads ∨ q = p :=
  List.mem_or_eq_of_mem_set h

end Threads

/-! ### The pool -/

section Pool

def CallerOk (n : ℕ) (s : IoCompletionPort w ο η φ) : Prop :=
  match s.caller with
  | .idle => s.threads.length = if s.active then n * 2 else 0
  | .creating left => s.active = true ∧ s.threads.length + left = n * 2
  | .waking _ => s.active = false ∧ s.halted = true
  | .joining joined => s.active = false ∧ s.halted = true ∧ ∀ i < joined, s.threads[i]? = some .exited

structure PoolOk (n : ℕ) (s : IoCompletionPort w ο η φ) : Prop where
  caller : CallerOk n s
  alive : s.active = true → .exited ∉ s.threads
  discarded : s.discarded ≠ [] → s.halted = true

theorem CallerOk.goto {i : ℕ} {p q : Worker w ο η φ} (h : CallerOk n s) (hthread : s.threads[i]? = some p)
    (hp : p ≠ .exited) : CallerOk n (s.goto i q) := by
  unfold CallerOk at h ⊢
  cases hcaller : s.caller with
  | idle => simpa [IoCompletionPort.goto, hcaller] using h
  | creating left => simpa [IoCompletionPort.goto, hcaller] using h
  | waking left => simpa [IoCompletionPort.goto, hcaller] using h
  | joining joined =>
    simp only [IoCompletionPort.goto, hcaller] at h ⊢
    refine ⟨h.1, h.2.1, fun j hj => ?_⟩
    have hexited := h.2.2 j hj
    have hne : i ≠ j := by
      rintro rfl
      exact hp (Option.some.inj (hthread.symm.trans hexited))
    rw [List.getElem?_set_ne hne, hexited]

theorem CallerOk.halted {i : ℕ} {p : Worker w ο η φ} (h : CallerOk n s) (hthread : s.threads[i]? = some p)
    (hactive : s.active = false) : s.halted = true := by
  unfold CallerOk at h
  cases hcaller : s.caller with
  | idle =>
    simp only [hcaller, hactive] at h
    rw [List.eq_nil_of_length_eq_zero h] at hthread
    cases hthread
  | creating left =>
    simp only [hcaller] at h
    rw [h.1] at hactive
    cases hactive
  | waking left =>
    simp only [hcaller] at h
    exact h.2
  | joining joined =>
    simp only [hcaller] at h
    exact h.2.1

theorem PoolOk.goto {i : ℕ} {p q : Worker w ο η φ} (h : PoolOk n s) (hthread : s.threads[i]? = some p)
    (hp : p ≠ .exited) (hq : s.active = true → q ≠ .exited) : PoolOk n (s.goto i q) := by
  refine ⟨h.caller.goto hthread hp, fun hactive hmem => ?_, h.discarded⟩
  obtain hmem | hmem := mem_goto hmem
  · exact h.alive hactive hmem
  · exact hq hactive hmem.symm

theorem poolOk_halt : PoolOk n s.halt :=
  ⟨⟨rfl, rfl⟩, fun hactive => (by cases hactive), fun _ => rfl⟩

theorem PoolOk.does {a : Label w ο η φ} (h : PoolOk n s) (hstep : Does n entry s a t) : PoolOk n t := by
  have hcaller := h.caller
  unfold CallerOk at hcaller
  cases hstep with
  | alreadyStarted _ | alreadyStopped _ => exact h
  | started hactive hidle =>
    simp only [hidle, hactive] at hcaller
    have hthreads := List.eq_nil_of_length_eq_zero hcaller
    refine ⟨⟨rfl, by rw [hthreads, List.length_nil, Nat.zero_add]⟩, fun _ => ?_, h.discarded⟩
    rw [hthreads]
    exact List.not_mem_nil
  | created left hcreating =>
    simp only [hcreating] at hcaller
    refine ⟨⟨hcaller.1, ?_⟩, fun hactive hmem => ?_, h.discarded⟩
    · rw [List.length_append, List.length_singleton]
      omega
    · obtain hmem | hmem := List.mem_append.mp hmem
      · exact h.alive hactive hmem
      · cases List.mem_singleton.mp hmem
  | allCreated hcreating =>
    simp only [hcreating] at hcaller
    refine ⟨?_, h.alive, h.discarded⟩
    simpa [CallerOk, hcaller.1] using hcaller.2
  | createFailed left hcreating => exact poolOk_halt
  | stopped hactive hidle => exact poolOk_halt
  | woken left overlapped hwaking | wakeUpLost left hwaking =>
    simp only [hwaking] at hcaller
    exact ⟨hcaller, h.alive, h.discarded⟩
  | allWoken hwaking =>
    simp only [hwaking] at hcaller
    exact ⟨⟨hcaller.1, hcaller.2, fun i hi => absurd hi (Nat.not_lt_zero i)⟩, h.alive, h.discarded⟩
  | joined j hjoining hthread =>
    simp only [hjoining] at hcaller
    refine ⟨⟨hcaller.1, hcaller.2.1, fun i hi => ?_⟩, h.alive, h.discarded⟩
    obtain hlt | rfl := Nat.lt_succ_iff_lt_or_eq.mp hi
    · exact hcaller.2.2 i hlt
    · exact hthread
  | allJoined j hjoining hthread =>
    simp only [hjoining] at hcaller
    exact ⟨by simp [CallerOk, hcaller.1], fun _ => List.not_mem_nil, h.discarded⟩
  | checked i hthread =>
    refine h.goto hthread (by simp) fun hactive => ?_
    simp [hactive]
  | dequeued i c rest hthread hqueue =>
    have hrest : PoolOk n { s with queue := rest } := ⟨h.caller, h.alive, h.discarded⟩
    exact hrest.goto hthread (by simp) (by simp)
  | timedOut i hthread => exact h.goto hthread (by simp) (by simp)
  | examined i status hthread =>
    unfold IoCompletionPort.examined
    split_ifs with hactive
    · cases status with
      | none => exact h.goto hthread (by simp) (by simp)
      | some c =>
        simp only
        split_ifs
        · have hrest : PoolOk n { s with ignored := s.ignored ++ [c] } := ⟨h.caller, h.alive, h.discarded⟩
          exact hrest.goto hthread (by simp) (by simp)
        · exact h.goto hthread (by simp) (by simp)
    · have hinactive := Bool.eq_false_of_not_eq_true hactive
      have hrest : PoolOk n { s with discarded := s.discarded ++ status.toList } :=
        ⟨h.caller, h.alive, fun _ => h.caller.halted hthread hinactive⟩
      exact hrest.goto hthread (by simp) fun hcontra => absurd hcontra hactive
  | looked i c hthread =>
    unfold IoCompletionPort.looked
    cases s.handlers c.completionKey with
    | none =>
      have hrest : PoolOk n { s with ignored := s.ignored ++ [c] } := ⟨h.caller, h.alive, h.discarded⟩
      exact hrest.goto hthread (by simp) (by simp)
    | some handler =>
      have hrest : PoolOk n { s with calls := s.calls ++ [(handler, c)] } := ⟨h.caller, h.alive, h.discarded⟩
      exact hrest.goto hthread (by simp) (by simp)
  | handles i handler c phase phase' hthread => exact h.goto hthread (by simp) (by simp)
  | handled i handler c phase hthread => exact h.goto hthread (by simp) (by simp)
  | posted c hkey => exact ⟨h.caller, h.alive, h.discarded⟩
  | reserved ioHandler =>
    unfold IoCompletionPort.reserve
    simp only
    split <;> exact ⟨h.caller, h.alive, h.discarded⟩
  | associated i key ioHandler success hassociating =>
    unfold IoCompletionPort.associated
    simp only
    split_ifs <;> exact ⟨h.caller, h.alive, h.discarded⟩
  | keyFound key _ =>
    unfold IoCompletionPort.associateWithKey
    split_ifs <;> exact ⟨h.caller, h.alive, h.discarded⟩
  | keyShared i key success _ => exact ⟨h.caller, h.alive, h.discarded⟩
  | unregistered key =>
    unfold IoCompletionPort.unregisterHandler
    split_ifs <;> exact ⟨h.caller, h.alive, h.discarded⟩

end Pool

/-! ### Every completion is somewhere -/

section Balance

def Worker.held : Worker w ο η φ → Option (Completion w ο)
  | .returned status => status
  | .looking c => some c
  | _ => none

@[simp] theorem held_checking : (Worker.checking : Worker w ο η φ).held = none := rfl

@[simp] theorem held_waiting : (Worker.waiting : Worker w ο η φ).held = none := rfl

@[simp] theorem held_returned (status : Option (Completion w ο)) :
    (Worker.returned status : Worker w ο η φ).held = status := rfl

@[simp] theorem held_looking (c : Completion w ο) : (Worker.looking c : Worker w ο η φ).held = some c := rfl

@[simp] theorem held_calling (handler : η) (c : Completion w ο) (phase : φ) :
    (Worker.calling handler c phase).held = none := rfl

@[simp] theorem held_exited : (Worker.exited : Worker w ο η φ).held = none := rfl

def inHand (threads : List (Worker w ο η φ)) : Multiset (Completion w ο) :=
  (threads.map fun p => ((p.held.toList : List (Completion w ο)) : Multiset (Completion w ο))).sum

def accounted (s : IoCompletionPort w ο η φ) : Multiset (Completion w ο) :=
  ↑s.queue + inHand s.threads + ↑(s.calls.map Prod.snd) + ↑s.ignored + ↑s.discarded

def Balanced (s : IoCompletionPort w ο η φ) : Prop := (s.posted : Multiset (Completion w ο)) = accounted s

theorem inHand_set {threads : List (Worker w ο η φ)} {i : ℕ} {p q : Worker w ο η φ} (hthread : threads[i]? = some p) :
    inHand (threads.set i q) + (p.held.toList : Multiset (Completion w ο)) =
      inHand threads + (q.held.toList : Multiset (Completion w ο)) :=
  sum_map_set (fun p : Worker w ο η φ => ((p.held.toList : List (Completion w ο)) : Multiset (Completion w ο)))
    q hthread

theorem inHand_set_of_held {threads : List (Worker w ο η φ)} {i : ℕ} {p q : Worker w ο η φ}
    (hthread : threads[i]? = some p) (hheld : q.held = p.held) : inHand (threads.set i q) = inHand threads := by
  have hset := inHand_set (q := q) hthread
  rw [hheld] at hset
  exact add_right_cancel hset

theorem inHand_release {threads : List (Worker w ο η φ)} {i : ℕ} {p q : Worker w ο η φ}
    (hthread : threads[i]? = some p) (hheld : q.held = none) :
    inHand threads = inHand (threads.set i q) + (p.held.toList : Multiset (Completion w ο)) := by
  have hset := inHand_set (q := q) hthread
  rw [hheld] at hset
  exact (add_zero _).symm.trans hset.symm

theorem mem_inHand {threads : List (Worker w ο η φ)} {i : ℕ} {p : Worker w ο η φ} {c : Completion w ο}
    (hthread : threads[i]? = some p) (hheld : p.held = some c) : c ∈ inHand threads := by
  rw [inHand_release (q := .exited) hthread rfl, hheld]
  exact Multiset.mem_add.mpr (.inr (by simp))

theorem inHand_eq_zero {threads : List (Worker w ο η φ)} (h : ∀ p ∈ threads, p.held = none) :
    inHand threads = 0 := by
  induction threads with
  | nil => rfl
  | cons p rest ih =>
    have hp := h p List.mem_cons_self
    have hrest := ih fun q hq => h q (List.mem_cons_of_mem p hq)
    simp only [inHand, List.map_cons, List.sum_cons, hp] at hrest ⊢
    rw [hrest]
    rfl

theorem threads_exited {joined : ℕ} (hfirst : ∀ i < joined, s.threads[i]? = some .exited)
    (hend : s.threads[joined]? = none) : ∀ p ∈ s.threads, p = .exited := by
  intro p hp
  obtain ⟨i, hi, rfl⟩ := List.getElem_of_mem hp
  have hlt := List.getElem?_eq_none_iff.mp hend
  exact (List.getElem_eq_iff hi).mpr (hfirst i (by omega))

theorem Balanced.does {a : Label w ο η φ} (h : Balanced s) (hpool : PoolOk n s) (hstep : Does n entry s a t) :
    Balanced t := by
  unfold Balanced accounted at h ⊢
  cases hstep with
  | alreadyStarted _ | alreadyStopped _ => exact h
  | started _ _ | allCreated _ | createFailed _ _ | stopped _ _ | wakeUpLost _ _ | allWoken _ | joined _ _ _ => exact h
  | created left hcreating =>
    simpa [inHand] using h
  | woken left overlapped hwaking =>
    simp only [IoCompletionPort.enqueue, ← Multiset.coe_add, h]
    abel
  | allJoined j hjoining hthread =>
    have hcaller := hpool.caller
    simp only [CallerOk, hjoining] at hcaller
    have hempty : inHand s.threads = 0 := inHand_eq_zero fun p hp => by
      rw [threads_exited hcaller.2.2 hthread p hp, held_exited]
    rw [hempty] at h
    exact h
  | checked i hthread =>
    have hsame : inHand (s.threads.set i (if s.active then .waiting else .exited)) = inHand s.threads :=
      inHand_set_of_held hthread (by split_ifs <;> rfl)
    simp only [IoCompletionPort.goto, hsame, h]
  | dequeued i c rest hthread hqueue =>
    have hset := inHand_set (q := .returned (some c)) hthread
    simp only [held_waiting, held_returned, Option.toList_none, Option.toList_some, Multiset.coe_nil, add_zero,
      Multiset.coe_singleton] at hset
    simp only [IoCompletionPort.goto, h, hset, hqueue, ← Multiset.cons_coe, ← Multiset.singleton_add]
    abel
  | timedOut i hthread =>
    have hsame : inHand (s.threads.set i (.returned none)) = inHand s.threads := inHand_set_of_held hthread rfl
    simp only [IoCompletionPort.goto, hsame, h]
  | examined i status hthread =>
    unfold IoCompletionPort.examined
    split_ifs with hactive
    · cases status with
      | none =>
        have hsame : inHand (s.threads.set i .checking) = inHand s.threads := inHand_set_of_held hthread rfl
        simp only [IoCompletionPort.goto, hsame, h]
      | some c =>
        simp only
        split_ifs
        · have hset := inHand_release (q := .checking) hthread rfl
          simp only [IoCompletionPort.goto, h, hset, ← Multiset.coe_add, held_returned, Option.toList_some]
          abel
        · have hsame : inHand (s.threads.set i (.looking c)) = inHand s.threads := inHand_set_of_held hthread rfl
          simp only [IoCompletionPort.goto, hsame, h]
    · have hset := inHand_release (q := .exited) hthread rfl
      simp only [IoCompletionPort.goto, h, hset, ← Multiset.coe_add, held_returned]
      abel
  | looked i c hthread =>
    unfold IoCompletionPort.looked
    cases s.handlers c.completionKey with
    | none =>
      have hset := inHand_release (q := .checking) hthread rfl
      simp only [IoCompletionPort.goto, h, hset, ← Multiset.coe_add, held_looking, Option.toList_some]
      abel
    | some handler =>
      have hset := inHand_release (q := .calling handler c entry) hthread rfl
      simp only [IoCompletionPort.goto, h, hset, ← Multiset.coe_add, held_looking, Option.toList_some,
        List.map_append, List.map_cons, List.map_nil]
      abel
  | handles i handler c phase phase' hthread =>
    have hsame : inHand (s.threads.set i (.calling handler c phase')) = inHand s.threads :=
      inHand_set_of_held hthread rfl
    simp only [IoCompletionPort.goto, hsame, h]
  | handled i handler c phase hthread =>
    have hsame : inHand (s.threads.set i .checking) = inHand s.threads := inHand_set_of_held hthread rfl
    simp only [IoCompletionPort.goto, hsame, h]
  | posted c hkey =>
    simp only [IoCompletionPort.enqueue, ← Multiset.coe_add, h]
    abel
  | reserved ioHandler =>
    unfold IoCompletionPort.reserve
    simp only
    split <;> exact h
  | associated i key ioHandler success hassociating =>
    unfold IoCompletionPort.associated
    simp only
    split_ifs <;> exact h
  | keyFound key _ =>
    unfold IoCompletionPort.associateWithKey
    split_ifs <;> exact h
  | keyShared i key success _ => exact h
  | unregistered key =>
    unfold IoCompletionPort.unregisterHandler
    split_ifs <;> exact h

end Balance

/-! ### Keys -/

section Keys

def given (s : IoCompletionPort w ο η φ) : List (BitVec w × η) := s.associations ++ s.associating

structure RegistryOk (s : IoCompletionPort w ο η φ) : Prop where
  next : s.nextKey = BitVec.ofNat w (s.drawn + 1)
  small : ∀ p ∈ given s, p.1 ≠ 0 ∧ p.1.toNat ≤ s.drawn
  nodup : ((given s).map Prod.fst).Nodup
  registered : ∀ k handler, s.handlers k = some handler → (k, handler) ∈ given s
  live : ∀ p ∈ given s, s.handlers p.1 = some p.2 ∨ p.1 ∈ s.unregistered

def registry (s : IoCompletionPort w ο η φ) :=
  (s.nextKey, s.drawn, s.handlers, s.associations, s.associating, s.unregistered)

theorem RegistryOk.congr (h : RegistryOk s) (hsame : registry t = registry s) : RegistryOk t := by
  simp only [registry, Prod.mk.injEq] at hsame
  obtain ⟨hnext, hdrawn, hhandlers, hassociations, hassociating, hunregistered⟩ := hsame
  have hgiven : given t = given s := by rw [given, given, hassociations, hassociating]
  constructor
  · rw [hnext, hdrawn]
    exact h.next
  · rw [hgiven, hdrawn]
    exact h.small
  · rw [hgiven]
    exact h.nodup
  · rw [hgiven, hhandlers]
    exact h.registered
  · rw [hgiven, hhandlers, hunregistered]
    exact h.live

theorem attempts_pos (handlers : BitVec w → Option η) (next : BitVec w) :
    0 < attemptsTaken handlers maxAttempts next := by
  change 0 < attemptsTaken handlers (999 + 1) next
  unfold attemptsTaken
  split_ifs <;> omega

theorem drawn_le_reserve (ioHandler : η) : s.drawn < (s.reserve ioHandler).drawn := by
  have hpos := attempts_pos s.handlers s.nextKey
  unfold IoCompletionPort.reserve
  simp only
  split <;> exact Nat.lt_add_of_pos_right hpos

theorem drawn_le {a : Label w ο η φ} (hstep : Does n entry s a t) : s.drawn ≤ t.drawn := by
  cases hstep with
  | reserved ioHandler => exact Nat.le_of_lt (drawn_le_reserve ioHandler)
  | examined i status _ =>
    unfold IoCompletionPort.examined
    split_ifs
    · cases status with
      | none => exact Nat.le_refl _
      | some c =>
        simp only
        split_ifs <;> exact Nat.le_refl _
    · exact Nat.le_refl _
  | looked i c _ =>
    unfold IoCompletionPort.looked
    split <;> exact Nat.le_refl _
  | associated i key ioHandler success _ =>
    unfold IoCompletionPort.associated
    simp only
    split_ifs <;> exact Nat.le_refl _
  | keyFound key _ =>
    unfold IoCompletionPort.associateWithKey
    split_ifs <;> exact Nat.le_refl _
  | unregistered key =>
    unfold IoCompletionPort.unregisterHandler
    split_ifs <;> exact Nat.le_refl _
  | _ => exact Nat.le_refl _

/-- Before the counter has wrapped, its first candidate is free. -/
theorem nextKey_free (h : RegistryOk s) {ioHandler : η} (hdrawn : (s.reserve ioHandler).drawn < 2 ^ w) :
    s.nextKey.toNat = s.drawn + 1 ∧ s.nextKey ≠ 0 ∧ s.handlers s.nextKey = none := by
  have hless := drawn_le_reserve (s := s) ioHandler
  have htoNat : s.nextKey.toNat = s.drawn + 1 := by
    rw [h.next, BitVec.toNat_ofNat, Nat.mod_eq_of_lt (by omega)]
  have hzero : s.nextKey ≠ 0 := by
    intro hzero
    rw [hzero, BitVec.ofNat_eq_ofNat, BitVec.toNat_ofNat, Nat.zero_mod] at htoNat
    omega
  have hfree : s.handlers s.nextKey = none := by
    cases hhandler : s.handlers s.nextKey with
    | none => rfl
    | some handler =>
      have hsmall := (h.small _ (h.registered _ _ hhandler)).2
      simp only at hsmall
      omega
  exact ⟨htoNat, hzero, hfree⟩

theorem generateKey_eq (h : RegistryOk s) {ioHandler : η} (hdrawn : (s.reserve ioHandler).drawn < 2 ^ w) :
    generateKey s.handlers maxAttempts s.nextKey = (some s.nextKey, s.nextKey + 1) := by
  obtain ⟨-, hzero, hfree⟩ := nextKey_free h hdrawn
  change generateKey s.handlers (999 + 1) s.nextKey = _
  rw [generateKey, if_neg hzero, if_neg (by rw [hfree]; exact Bool.false_ne_true)]

theorem reserve_eq (h : RegistryOk s) {ioHandler : η} (hdrawn : (s.reserve ioHandler).drawn < 2 ^ w) :
    s.reserve ioHandler = { s with
      nextKey := s.nextKey + 1
      drawn := s.drawn + 1
      handlers := Function.update s.handlers s.nextKey (some ioHandler)
      associating := s.associating ++ [(s.nextKey, ioHandler)] } := by
  obtain ⟨-, hzero, hfree⟩ := nextKey_free h hdrawn
  have hgenerated := generateKey_eq h hdrawn
  have htaken : attemptsTaken s.handlers maxAttempts s.nextKey = 1 := by
    change attemptsTaken s.handlers (999 + 1) s.nextKey = _
    rw [attemptsTaken, if_neg hzero, if_neg (by rw [hfree]; exact Bool.false_ne_true)]
  unfold IoCompletionPort.reserve
  simp only [hgenerated, htaken]

theorem RegistryOk.reserve (h : RegistryOk s) {ioHandler : η} (hdrawn : (s.reserve ioHandler).drawn < 2 ^ w) :
    RegistryOk (s.reserve ioHandler) := by
  obtain ⟨htoNat, hzero, -⟩ := nextKey_free h hdrawn
  have heq := reserve_eq h hdrawn
  have hgiven : given (s.reserve ioHandler) = given s ++ [(s.nextKey, ioHandler)] := by
    rw [heq, given, given, List.append_assoc]
  have hfresh : ∀ p ∈ given s, p.1 ≠ s.nextKey := by
    intro p hp hsame
    have hsmall := (h.small p hp).2
    rw [hsame] at hsmall
    omega
  constructor
  · rw [heq]
    simp only
    rw [h.next]
    exact (BitVec.ofNat_add (s.drawn + 1) 1).symm
  · rw [hgiven, heq]
    intro p hp
    obtain hp | hp := List.mem_append.mp hp
    · exact ⟨(h.small p hp).1, Nat.le_succ_of_le (h.small p hp).2⟩
    · obtain rfl := List.mem_singleton.mp hp
      exact ⟨hzero, htoNat.le⟩
  · rw [hgiven, List.map_append, List.map_cons, List.map_nil]
    refine List.nodup_append.mpr ⟨h.nodup, List.nodup_singleton _, fun k hk k' hk' => ?_⟩
    obtain ⟨p, hp, rfl⟩ := List.mem_map.mp hk
    rw [List.mem_singleton.mp hk']
    exact hfresh p hp
  · rw [hgiven, heq]
    intro k handler hk
    by_cases hsame : k = s.nextKey
    · subst hsame
      simp only [Function.update_self, Option.some.injEq] at hk
      subst hk
      simp
    · simp only [Function.update_of_ne hsame] at hk
      exact List.mem_append.mpr (.inl (h.registered k handler hk))
  · rw [hgiven, heq]
    intro p hp
    obtain hp | hp := List.mem_append.mp hp
    · simp only [Function.update_of_ne (hfresh p hp)]
      exact h.live p hp
    · obtain rfl := List.mem_singleton.mp hp
      exact .inl (Function.update_self _ _ _)

theorem given_perm {i : ℕ} {p : BitVec w × η} (h : s.associating[i]? = some p) :
    (given s).Perm (p :: (s.associations ++ s.associating.eraseIdx i)) := by
  obtain ⟨hlt, rfl⟩ := List.getElem?_eq_some_iff.mp h
  have hperm := List.getElem_cons_eraseIdx_perm hlt
  exact (hperm.symm.append_left s.associations).trans List.perm_middle

theorem RegistryOk.associated (h : RegistryOk s) {i : ℕ} {key : BitVec w} {ioHandler : η} {success : Bool}
    (hcall : s.associating[i]? = some (key, ioHandler)) : RegistryOk (s.associated i key ioHandler success) := by
  have hperm := given_perm hcall
  have hnodup := (hperm.map Prod.fst).nodup_iff.mp h.nodup
  cases success with
  | true =>
    have hsame : (given (s.associated i key ioHandler true)).Perm (given s) := by
      refine List.Perm.trans ?_ hperm.symm
      change (s.associations ++ [(key, ioHandler)] ++ s.associating.eraseIdx i).Perm _
      rw [List.append_assoc]
      exact List.perm_middle
    refine ⟨h.next, fun p hp => h.small p (hsame.mem_iff.mp hp), (hsame.map Prod.fst).nodup_iff.mpr h.nodup,
      fun k handler hk => hsame.mem_iff.mpr (h.registered k handler hk), fun p hp => h.live p (hsame.mem_iff.mp hp)⟩
  | false =>
    rw [List.map_cons, List.nodup_cons] at hnodup
    have hother : ∀ p ∈ s.associations ++ s.associating.eraseIdx i, p ∈ given s ∧ p.1 ≠ key := by
      intro p hp
      refine ⟨hperm.mem_iff.mpr (List.mem_cons_of_mem _ hp), fun hsame => hnodup.1 ?_⟩
      exact List.mem_map.mpr ⟨p, hp, hsame⟩
    refine ⟨h.next, fun p hp => h.small p (hother p hp).1, hnodup.2, fun k handler hk => ?_, fun p hp => ?_⟩
    · by_cases hsame : k = key
      · subst hsame
        simp [IoCompletionPort.associated] at hk
      · simp only [IoCompletionPort.associated, Bool.false_eq_true, if_false, Function.update_of_ne hsame] at hk
        obtain hmem | hmem := List.mem_cons.mp (hperm.mem_iff.mp (h.registered k handler hk))
        · exact absurd (congrArg Prod.fst hmem) hsame
        · exact hmem
    · simp only [IoCompletionPort.associated, Bool.false_eq_true, if_false,
        Function.update_of_ne (hother p hp).2]
      exact h.live p (hother p hp).1

theorem RegistryOk.unregister (h : RegistryOk s) (key : BitVec w) : RegistryOk (s.unregisterHandler key) := by
  unfold IoCompletionPort.unregisterHandler
  split_ifs
  swap
  · exact h
  refine ⟨h.next, h.small, h.nodup, fun k handler hk => ?_, fun p hp => ?_⟩
  · by_cases hsame : k = key
    · subst hsame
      simp at hk
    · simp only [Function.update_of_ne hsame] at hk
      exact h.registered k handler hk
  · by_cases hsame : p.1 = key
    · exact .inr (hsame ▸ List.mem_cons_self)
    · simp only [Function.update_of_ne hsame]
      exact (h.live p hp).imp_right (List.mem_cons_of_mem key)

end Keys

/-! ### Calls -/

section Calls

structure CallsOk (s : IoCompletionPort w ο η φ) : Prop where
  posted : ∀ c ∈ s.posted, c.completionKey = 0 ∨ c.completionKey ∈ s.associations.map Prod.fst
  called : ∀ p ∈ s.calls, (p.2.completionKey, p.1) ∈ s.associations
  ignored : ∀ c ∈ s.ignored, c.completionKey = 0 ∨ c.completionKey ∈ s.unregistered

theorem CallsOk.post (h : CallsOk s) {c : Completion w ο}
    (hc : c.completionKey = 0 ∨ c.completionKey ∈ s.associations.map Prod.fst) : CallsOk (s.enqueue c) := by
  refine ⟨fun d hd => ?_, h.called, h.ignored⟩
  obtain hd | hd := List.mem_append.mp hd
  · exact h.posted d hd
  · rw [List.mem_singleton.mp hd]
    exact hc

theorem CallsOk.ignore (h : CallsOk s) {c : Completion w ο}
    (hc : c.completionKey = 0 ∨ c.completionKey ∈ s.unregistered) :
    CallsOk { s with ignored := s.ignored ++ [c] } := by
  refine ⟨h.posted, h.called, fun d hd => ?_⟩
  obtain hd | hd := List.mem_append.mp hd
  · exact h.ignored d hd
  · rw [List.mem_singleton.mp hd]
    exact hc

theorem mem_posted (h : Balanced s) {i : ℕ} {p : Worker w ο η φ} {c : Completion w ο}
    (hthread : s.threads[i]? = some p) (hheld : p.held = some c) : c ∈ s.posted := by
  have hmem : c ∈ accounted s := by
    simp only [accounted, Multiset.mem_add]
    exact .inl (.inl (.inl (.inr (mem_inHand hthread hheld))))
  rw [← h] at hmem
  exact Multiset.mem_coe.mp hmem

/-- The handler found under the key of a completion is that of the completion's device. -/
theorem owner_of_look (h : RegistryOk s) (hcalls : CallsOk s) {c : Completion w ο} {handler : η}
    (hposted : c ∈ s.posted) (hfound : s.handlers c.completionKey = some handler) :
    (c.completionKey, handler) ∈ s.associations := by
  have hgiven := h.registered _ _ hfound
  obtain hmem | hmem := List.mem_append.mp hgiven
  · exact hmem
  · obtain hzero | hkey := hcalls.posted c hposted
    · exact absurd hzero (h.small _ hgiven).1
    · have hnodup := h.nodup
      rw [given, List.map_append] at hnodup
      exact absurd rfl ((List.nodup_append.mp hnodup).2.2 _ hkey _ (List.mem_map_of_mem hmem))

theorem ignored_of_look (h : RegistryOk s) (hcalls : CallsOk s) {c : Completion w ο} (hposted : c ∈ s.posted)
    (hnone : s.handlers c.completionKey = none) : c.completionKey = 0 ∨ c.completionKey ∈ s.unregistered := by
  refine (hcalls.posted c hposted).imp_right fun hkey => ?_
  obtain ⟨p, hp, hsame⟩ := List.mem_map.mp hkey
  obtain hfound | hgone := h.live p (List.mem_append.mpr (.inl hp))
  · rw [hsame, hnone] at hfound
    cases hfound
  · rwa [hsame] at hgone

structure DispatchOk (s : IoCompletionPort w ο η φ) : Prop where
  registry : RegistryOk s
  calls : CallsOk s

theorem DispatchOk.does {a : Label w ο η φ} (h : DispatchOk s) (hbalanced : Balanced s)
    (hdrawn : t.drawn < 2 ^ w) (hstep : Does n entry s a t) : DispatchOk t := by
  obtain ⟨hregistry, hcalls⟩ := h
  have hsame : DispatchOk s := ⟨hregistry, hcalls⟩
  cases hstep with
  | alreadyStarted _ | alreadyStopped _ => exact hsame
  | started _ _ | created _ _ | allCreated _ | createFailed _ _ | stopped _ _ | wakeUpLost _ _ | allWoken _
  | joined _ _ _ | allJoined _ _ _ | checked _ _ | dequeued _ _ _ _ _ | timedOut _ _ | handles _ _ _ _ _ _
  | handled _ _ _ _ _ =>
    exact ⟨hregistry.congr rfl, ⟨hcalls.posted, hcalls.called, hcalls.ignored⟩⟩
  | woken left overlapped hwaking =>
    have hposted := hcalls.post (c := wakeUp w overlapped) (.inl rfl)
    exact ⟨hregistry.congr rfl, ⟨hposted.posted, hposted.called, hposted.ignored⟩⟩
  | posted c hkey =>
    exact ⟨hregistry.congr rfl, hcalls.post (.inr hkey)⟩
  | examined i status hthread =>
    unfold IoCompletionPort.examined
    split_ifs
    · cases status with
      | none => exact ⟨hregistry.congr rfl, ⟨hcalls.posted, hcalls.called, hcalls.ignored⟩⟩
      | some c =>
        simp only
        split_ifs with hzero
        · have hignored := hcalls.ignore (.inl hzero)
          exact ⟨hregistry.congr rfl, ⟨hignored.posted, hignored.called, hignored.ignored⟩⟩
        · exact ⟨hregistry.congr rfl, ⟨hcalls.posted, hcalls.called, hcalls.ignored⟩⟩
    · exact ⟨hregistry.congr rfl, ⟨hcalls.posted, hcalls.called, hcalls.ignored⟩⟩
  | looked i c hthread =>
    have hposted := mem_posted hbalanced hthread rfl
    unfold IoCompletionPort.looked
    cases hfound : s.handlers c.completionKey with
    | none =>
      have hignored := hcalls.ignore (ignored_of_look hregistry hcalls hposted hfound)
      exact ⟨hregistry.congr rfl, ⟨hignored.posted, hignored.called, hignored.ignored⟩⟩
    | some handler =>
      refine ⟨hregistry.congr rfl, ⟨hcalls.posted, fun p hp => ?_, hcalls.ignored⟩⟩
      obtain hp | hp := List.mem_append.mp hp
      · exact hcalls.called p hp
      · rw [List.mem_singleton.mp hp]
        exact owner_of_look hregistry hcalls hposted hfound
  | reserved ioHandler =>
    have hregistry' := hregistry.reserve hdrawn
    rw [reserve_eq hregistry hdrawn] at hregistry' ⊢
    exact ⟨hregistry', ⟨hcalls.posted, hcalls.called, hcalls.ignored⟩⟩
  | associated i key ioHandler success hassociating =>
    refine ⟨hregistry.associated hassociating, ?_⟩
    cases success with
    | true =>
      refine ⟨fun c hc => (hcalls.posted c hc).imp_right fun hkey => ?_, fun p hp => ?_, hcalls.ignored⟩
      · simp only [IoCompletionPort.associated, if_true, List.map_append, List.mem_append]
        exact .inl hkey
      · exact List.mem_append.mpr (.inl (hcalls.called p hp))
    | false => exact ⟨hcalls.posted, hcalls.called, hcalls.ignored⟩
  | keyFound key _ =>
    unfold IoCompletionPort.associateWithKey
    split_ifs
    · exact ⟨hregistry.congr rfl, ⟨hcalls.posted, hcalls.called, hcalls.ignored⟩⟩
    · exact hsame
  | keyShared i key success _ =>
    exact ⟨hregistry.congr rfl, ⟨hcalls.posted, hcalls.called, hcalls.ignored⟩⟩
  | unregistered key =>
    refine ⟨hregistry.unregister key, ?_⟩
    unfold IoCompletionPort.unregisterHandler
    split_ifs
    · refine ⟨hcalls.posted, hcalls.called, fun c hc => ?_⟩
      exact (hcalls.ignored c hc).imp_right (List.mem_cons_of_mem key)
    · exact hcalls

def Copied (s : IoCompletionPort w ο η φ) : Prop :=
  ∀ handler c phase, Worker.calling handler c phase ∈ s.threads → (handler, c) ∈ s.calls

theorem Copied.goto (h : Copied s) {i : ℕ} {p : Worker w ο η φ}
    (hp : ∀ handler c phase, p = .calling handler c phase → (handler, c) ∈ s.calls) : Copied (s.goto i p) := by
  intro handler c phase hmem
  obtain hmem | hmem := mem_goto hmem
  · exact h handler c phase hmem
  · exact hp handler c phase hmem.symm

theorem Copied.does {a : Label w ο η φ} (h : Copied s) (hstep : Does n entry s a t) : Copied t := by
  cases hstep with
  | alreadyStarted _ | alreadyStopped _ => exact h
  | started _ _ | allCreated _ | createFailed _ _ | stopped _ _ | woken _ _ _ | wakeUpLost _ _ | allWoken _
  | joined _ _ _ | posted _ _ => exact h
  | created left hcreating =>
    intro handler c phase hmem
    obtain hmem | hmem := List.mem_append.mp hmem
    · exact h handler c phase hmem
    · cases List.mem_singleton.mp hmem
  | allJoined j hjoining hthread => exact fun handler c phase hmem => absurd hmem List.not_mem_nil
  | checked i hthread =>
    refine h.goto fun handler c phase hp => ?_
    split_ifs at hp
  | dequeued i c rest hthread hqueue =>
    have hrest : Copied { s with queue := rest } := h
    exact hrest.goto fun handler c phase hp => by cases hp
  | timedOut i hthread => exact h.goto fun handler c phase hp => by cases hp
  | examined i status hthread =>
    unfold IoCompletionPort.examined
    split_ifs
    · cases status with
      | none => exact h.goto fun handler c phase hp => by cases hp
      | some c =>
        simp only
        split_ifs
        · have hrest : Copied { s with ignored := s.ignored ++ [c] } := h
          exact hrest.goto fun handler c phase hp => by cases hp
        · exact h.goto fun handler c phase hp => by cases hp
    · have hrest : Copied { s with discarded := s.discarded ++ status.toList } := h
      exact hrest.goto fun handler c phase hp => by cases hp
  | looked i c hthread =>
    unfold IoCompletionPort.looked
    split
    · rename_i handler hfound
      have hrest : Copied { s with calls := s.calls ++ [(handler, c)] } := fun handler' c' phase hmem =>
        List.mem_append.mpr (.inl (h handler' c' phase hmem))
      refine hrest.goto fun handler' c' phase hp => ?_
      obtain ⟨rfl, rfl, rfl⟩ := Worker.calling.inj hp
      exact List.mem_append.mpr (.inr (List.mem_singleton_self _))
    · have hrest : Copied { s with ignored := s.ignored ++ [c] } := h
      exact hrest.goto fun handler c phase hp => by cases hp
  | handles i handler c phase phase' hthread =>
    refine h.goto fun handler' c' phase'' hp => ?_
    obtain ⟨rfl, rfl, rfl⟩ := Worker.calling.inj hp
    exact h _ _ phase (List.mem_of_getElem? hthread)
  | handled i handler c phase hthread => exact h.goto fun handler c phase hp => by cases hp
  | reserved ioHandler =>
    unfold IoCompletionPort.reserve
    simp only
    split <;> exact h
  | associated i key ioHandler success hassociating =>
    unfold IoCompletionPort.associated
    simp only
    split_ifs <;> exact h
  | keyFound key _ =>
    unfold IoCompletionPort.associateWithKey
    split_ifs <;> exact h
  | keyShared i key success _ => exact h
  | unregistered key =>
    unfold IoCompletionPort.unregisterHandler
    split_ifs <;> exact h

/-- Further devices are put under keys that a device has already. -/
def Shared (s : IoCompletionPort w ο η φ) : Prop :=
  ∀ key ∈ s.sharing ++ s.shared, key ∈ s.associations.map Prod.fst

theorem Shared.of_subset (h : Shared s) (hsharing : ∀ key ∈ t.sharing ++ t.shared, key ∈ s.sharing ++ s.shared)
    (hassociations : ∀ p ∈ s.associations, p ∈ t.associations) : Shared t := by
  intro key hkey
  obtain ⟨p, hp, rfl⟩ := List.mem_map.mp (h key (hsharing key hkey))
  exact List.mem_map_of_mem (hassociations p hp)

theorem Shared.does {a : Label w ο η φ} (h : Shared s) (hregistry : RegistryOk s) (hstep : Does n entry s a t) :
    Shared t := by
  cases hstep with
  | examined i status _ =>
    unfold IoCompletionPort.examined
    split_ifs
    · cases status with
      | none => exact h
      | some c =>
        simp only
        split_ifs <;> exact h
    · exact h
  | looked i c _ =>
    unfold IoCompletionPort.looked
    split <;> exact h
  | reserved ioHandler =>
    unfold IoCompletionPort.reserve
    simp only
    split <;> exact h
  | associated i key ioHandler success _ =>
    unfold IoCompletionPort.associated
    cases success with
    | true => exact h.of_subset (fun _ hkey => hkey) fun p hp => List.mem_append.mpr (.inl hp)
    | false => exact h
  | keyFound key hkey =>
    unfold IoCompletionPort.associateWithKey
    split_ifs with hfound
    · obtain ⟨handler, hhandler⟩ := Option.isSome_iff_exists.mp hfound
      have hknown := hkey.resolve_left (hregistry.small _ (hregistry.registered _ _ hhandler)).1
      intro k hk
      simp only [List.mem_append, List.mem_singleton] at hk
      obtain (hk | rfl) | hk := hk
      · exact h k (List.mem_append.mpr (.inl hk))
      · exact hknown
      · exact h k (List.mem_append.mpr (.inr hk))
    · exact h
  | keyShared i key success hcall =>
    refine h.of_subset (fun k hk => ?_) fun p hp => hp
    obtain hk | hk := List.mem_append.mp hk
    · exact List.mem_append.mpr (.inl (List.mem_of_mem_eraseIdx hk))
    · cases success with
      | true =>
        obtain hk | hk := List.mem_append.mp hk
        · exact List.mem_append.mpr (.inr hk)
        · rw [List.mem_singleton.mp hk]
          exact List.mem_append.mpr (.inl (List.mem_of_getElem? hcall))
      | false => exact List.mem_append.mpr (.inr hk)
  | unregistered key =>
    unfold IoCompletionPort.unregisterHandler
    split_ifs <;> exact h
  | _ => exact h

end Calls

/-! ### Every run -/

section Runs

structure Invariant (n : ℕ) (s : IoCompletionPort w ο η φ) : Prop where
  pool : PoolOk n s
  balanced : Balanced s
  copied : Copied s
  dispatch : s.drawn < 2 ^ w → DispatchOk s
  shared : s.drawn < 2 ^ w → Shared s

theorem Invariant.does {a : Label w ο η φ} (h : Invariant n s) (hstep : Does n entry s a t) : Invariant n t := by
  have hbefore : t.drawn < 2 ^ w → s.drawn < 2 ^ w := Nat.lt_of_le_of_lt (drawn_le hstep)
  refine ⟨h.pool.does hstep, h.balanced.does h.pool hstep, h.copied.does hstep, fun hdrawn => ?_, fun hdrawn => ?_⟩
  · exact (h.dispatch (hbefore hdrawn)).does h.balanced hdrawn hstep
  · exact (h.shared (hbefore hdrawn)).does (h.dispatch (hbefore hdrawn)).registry hstep

theorem invariant_step (a : Label w ο η φ) (h : Invariant n s) (hstep : step n entry s a = some t) :
    Invariant n t :=
  h.does (step_does hstep)

theorem invariant_initial (n : ℕ) : Invariant n (initial w ο η φ) := by
  have hregistry : RegistryOk (initial w ο η φ) :=
    ⟨rfl, fun p hp => absurd hp List.not_mem_nil, List.nodup_nil, fun k handler hk => (by cases hk),
      fun p hp => absurd hp List.not_mem_nil⟩
  have hcalls : CallsOk (initial w ο η φ) :=
    ⟨fun c hc => absurd hc List.not_mem_nil, fun p hp => absurd hp List.not_mem_nil,
      fun c hc => absurd hc List.not_mem_nil⟩
  exact ⟨⟨rfl, fun hactive => (by cases hactive), fun hne => absurd rfl hne⟩, rfl,
    fun handler c phase hmem => absurd hmem List.not_mem_nil, fun _ => ⟨hregistry, hcalls⟩,
    fun _ key hkey => absurd hkey List.not_mem_nil⟩

/-- Each completion was called, ignored or thrown away at most once, or is still queued or in a worker's
    hand; the handler called is that of the completion's device, which a device associated by key has in
    common with one that came with a handler. Ignored are wake-ups and what belongs to an unregistered
    handler, and only a halted pool throws completions away. -/
structure Dispatches (n : ℕ) (s : IoCompletionPort w ο η φ) : Prop where
  balanced : Balanced s
  unique : (s.associations.map Prod.fst).Nodup
  shared : ∀ key ∈ s.shared, ∃! handler, (key, handler) ∈ s.associations
  called : ∀ p ∈ s.calls, (p.2.completionKey, p.1) ∈ s.associations
  running : Copied s
  ignored : ∀ c ∈ s.ignored, c.completionKey = 0 ∨ c.completionKey ∈ s.unregistered
  discarded : s.discarded ≠ [] → s.halted = true
  workers : s.active = true → s.caller = .idle → s.threads.length = n * 2 ∧ .exited ∉ s.threads

theorem Invariant.dispatches (h : Invariant n s) (hdrawn : s.drawn < 2 ^ w) : Dispatches n s := by
  obtain ⟨hregistry, hcalls⟩ := h.dispatch hdrawn
  have hunique := hregistry.nodup
  rw [given, List.map_append] at hunique
  have hnodup := (List.nodup_append.mp hunique).1
  refine ⟨h.balanced, hnodup, fun key hkey => ?_, hcalls.called, h.copied, hcalls.ignored,
    h.pool.discarded, fun hactive hidle => ⟨?_, h.pool.alive hactive⟩⟩
  · obtain ⟨p, hp, rfl⟩ := List.mem_map.mp (h.shared hdrawn key (List.mem_append.mpr (.inr hkey)))
    refine ⟨p.2, hp, fun handler hhandler => ?_⟩
    exact congrArg Prod.snd (List.inj_on_of_nodup_map hnodup hhandler hp rfl)
  · have hcaller := h.pool.caller
    simpa only [CallerOk, hidle, hactive, if_true] using hcaller

/-- Until the key counter has wrapped, in every run. -/
theorem always_dispatches (n : ℕ) (entry : φ) (labels : List (Label w ο η φ)) :
    Always (step n entry) (fun s => s.drawn < 2 ^ w → Dispatches n s) (initial w ο η φ) labels :=
  always_mono (fun _ h => h.dispatches)
    (always_of_invariant (fun _ a _ h hstep => invariant_step a h hstep) labels (invariant_initial n))

end Runs

end ProxySwitch.CompletionPort
