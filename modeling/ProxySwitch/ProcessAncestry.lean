import Mathlib.Algebra.Group.Nat.Defs
import Mathlib.Tactic.Common

set_option autoImplicit false

/-!
# The descendants of a process

`IsDescendantOf` walks up the parents in one snapshot of the process table, which may be stale,
incomplete and cyclic, and `TrackProcessTreeAsync` takes what it accepts for new descendants.
`IsAncestorOfAny` walks up as well, a bounded number of parents.
-/
namespace ProxySwitch.ProcessAncestry

abbrev Pid := ℤ

abbrev Dictionary (α : Type) := List (Pid × α)

section Walk
variable (ancestorPid : Pid) (parentMap : Dictionary (Option Pid))
  (createdAtMap : Dictionary (Option ℤ))

def createdAfter (parent child : Pid) : Bool :=
  match (createdAtMap.lookup parent).join, (createdAtMap.lookup child).join with
  | some parentCreated, some currentCreated => currentCreated < parentCreated
  | _, _ => false

/-- The loop, for at most `fuel` rounds. -/
def walk : (fuel : ℕ) → (visited : List Pid) → (current : Pid) → Option Bool
  | 0, _, _ => none
  | fuel + 1, visited, current =>
    match parentMap.lookup current with
    | some (some parent) =>
      if parent = ancestorPid then some true
      else if parent ∈ visited then some false
      else if createdAfter createdAtMap parent current then some false
      else walk fuel (parent :: visited) parent
    | _ => some false

/-- The code does not look at the tolerance. -/
def isDescendantOf (pid : Pid) (_ancestorTolerance : ℤ) (fuel : ℕ) : Option Bool :=
  walk ancestorPid parentMap createdAtMap fuel [pid] pid

def NotBefore (ancestorTolerance : ℤ) (p : Pid) : Prop :=
  ∀ createdAt, (createdAtMap.lookup p).join = some createdAt → ancestorTolerance ≤ createdAt

/-- A chain of parent links to the ancestor: no parent on the way is known to be younger than its
    child, and the last child is not older than the ancestor. -/
inductive Descends (ancestorTolerance : ℤ) : Pid → Prop
  | last {p : Pid} : parentMap.lookup p = some (some ancestorPid) →
      NotBefore createdAtMap ancestorTolerance p → Descends ancestorTolerance p
  | link {p parent : Pid} : parentMap.lookup p = some (some parent) →
      createdAfter createdAtMap parent p = false → Descends ancestorTolerance parent →
      Descends ancestorTolerance p

inductive WayUp : Pid → Pid → Prop
  | here (p : Pid) : WayUp p p
  | link {p parent r : Pid} : parentMap.lookup p = some (some parent) → parent ≠ ancestorPid →
      createdAfter createdAtMap parent p = false → WayUp parent r → WayUp p r

structure AncestrySound (ancestorTolerance : ℤ) (pid : Pid) : Prop where
  terminates : ∀ fuel, parentMap.length + 1 < fuel →
    (isDescendantOf ancestorPid parentMap createdAtMap pid ancestorTolerance fuel).isSome = true
  sound : ∀ fuel,
    isDescendantOf ancestorPid parentMap createdAtMap pid ancestorTolerance fuel = some true →
      Descends ancestorPid parentMap createdAtMap ancestorTolerance pid

/-- The child by which the way up comes to the ancestor is not older than it; or the ancestor is,
    in a cycle, a descendant of itself. -/
def LastLinkFresh (ancestorTolerance : ℤ) (pid : Pid) : Prop :=
  ∀ child, WayUp ancestorPid parentMap createdAtMap pid child →
    parentMap.lookup child = some (some ancestorPid) →
      NotBefore createdAtMap ancestorTolerance child ∨
        createdAfter createdAtMap ancestorPid child = false ∧
          Descends ancestorPid parentMap createdAtMap ancestorTolerance ancestorPid

end Walk

section Termination
variable {ancestorPid : Pid} {parentMap : Dictionary (Option Pid)}
  {createdAtMap : Dictionary (Option ℤ)}

def unvisited (parentMap : Dictionary (Option Pid)) (visited : List Pid) : ℕ :=
  parentMap.countP fun entry => entry.1 ∉ visited

theorem unvisited_cons_le (visited : List Pid) (p : Pid) :
    unvisited parentMap (p :: visited) ≤ unvisited parentMap visited := by
  apply List.countP_mono_left
  intro entry _ hentry
  simp only [List.mem_cons, not_or, decide_eq_true_eq] at hentry ⊢
  exact hentry.2

theorem unvisited_cons_lt {visited : List Pid} {p : Pid}
    (hknown : (parentMap.lookup p).isSome = true) (hnew : p ∉ visited) :
    unvisited parentMap (p :: visited) < unvisited parentMap visited := by
  induction parentMap with
  | nil => cases hknown
  | cons entry rest ih =>
    obtain ⟨key, parent⟩ := entry
    have hle := @unvisited_cons_le rest visited p
    unfold unvisited at ih hle ⊢
    by_cases hkey : p = key
    · subst hkey
      rw [List.countP_cons_of_neg (by simp), List.countP_cons_of_pos (by simpa using hnew)]
      omega
    · have hrest : (rest.lookup p).isSome = true := by
        rwa [List.lookup_cons, beq_false_of_ne hkey] at hknown
      have hkey' : key ≠ p := fun h => hkey h.symm
      by_cases hvisited : key ∈ visited
      · rw [List.countP_cons_of_neg (by simp [hvisited]), List.countP_cons_of_neg (by simp [hvisited])]
        exact ih hrest
      · rw [List.countP_cons_of_pos (by simp [hvisited, hkey']),
          List.countP_cons_of_pos (by simp [hvisited])]
        exact Nat.succ_lt_succ (ih hrest)

/-- The next round either finds a parent that was not visited, or is the last. -/
theorem walk_isSome (fuel : ℕ) (visited : List Pid) (current : Pid)
    (h : unvisited parentMap visited + (if (parentMap.lookup current).isSome then 1 else 0) < fuel) :
    (walk ancestorPid parentMap createdAtMap fuel visited current).isSome = true := by
  induction fuel generalizing visited current with
  | zero => omega
  | succ fuel ih =>
    unfold walk
    cases hparent : parentMap.lookup current with
    | none => rfl
    | some parent =>
      cases parent with
      | none => rfl
      | some parent =>
        simp only
        split_ifs with hancestor hvisited hafter
        · rfl
        · rfl
        · rfl
        · apply ih
          rw [hparent, Option.isSome_some, if_pos rfl] at h
          by_cases hknown : (parentMap.lookup parent).isSome = true
          · have := unvisited_cons_lt hknown hvisited
            rw [if_pos hknown]
            omega
          · have := @unvisited_cons_le parentMap visited parent
            rw [if_neg hknown]
            omega

theorem isDescendantOf_isSome (pid : Pid) (ancestorTolerance : ℤ) (fuel : ℕ)
    (h : parentMap.length + 1 < fuel) :
    (isDescendantOf ancestorPid parentMap createdAtMap pid ancestorTolerance fuel).isSome = true := by
  apply walk_isSome
  have hle : unvisited parentMap [pid] ≤ parentMap.length := List.countP_le_length
  split_ifs <;> omega

end Termination

section Chains
variable {ancestorPid : Pid} {parentMap : Dictionary (Option Pid)}
  {createdAtMap : Dictionary (Option ℤ)} {ancestorTolerance : ℤ} {p r child : Pid}

theorem wayUp_of_walk {fuel : ℕ} {visited : List Pid}
    (h : walk ancestorPid parentMap createdAtMap fuel visited p = some true) :
    ∃ child, WayUp ancestorPid parentMap createdAtMap p child ∧
      parentMap.lookup child = some (some ancestorPid) := by
  induction fuel generalizing visited p with
  | zero => cases h
  | succ fuel ih =>
    unfold walk at h
    cases hparent : parentMap.lookup p with
    | none => simp [hparent] at h
    | some parent =>
      cases parent with
      | none => simp [hparent] at h
      | some parent =>
        simp only [hparent] at h
        split_ifs at h with hancestor hvisited hafter
        · exact ⟨p, .here p, hancestor ▸ hparent⟩
        · cases h
        · cases h
        · obtain ⟨child, hway, hchild⟩ := ih h
          exact ⟨child, .link hparent hancestor (eq_false_of_ne_true hafter) hway, hchild⟩

/-- A set of processes that the links do not leave. -/
theorem wayUp_mem {visited : List Pid}
    (hclosed : ∀ v ∈ visited, ∀ parent, parentMap.lookup v = some (some parent) →
      parent ≠ ancestorPid → createdAfter createdAtMap parent v = false → parent ∈ visited)
    (hway : WayUp ancestorPid parentMap createdAtMap p r) (hp : p ∈ visited) : r ∈ visited := by
  induction hway with
  | here p => exact hp
  | link hparent hne hafter _ ih => exact ih (hclosed _ hp _ hparent hne hafter)

/-- What the loop has visited but for the current process has a parent that was visited too. -/
structure Walked (ancestorPid : Pid) (parentMap : Dictionary (Option Pid)) (visited : List Pid)
    (current : Pid) : Prop where
  current_mem : current ∈ visited
  earlier : ∀ v ∈ visited, v ≠ current →
    ∃ parent ∈ visited, parentMap.lookup v = some (some parent) ∧ parent ≠ ancestorPid

theorem Walked.next {visited : List Pid} {current parent : Pid}
    (h : Walked ancestorPid parentMap visited current)
    (hparent : parentMap.lookup current = some (some parent)) (hne : parent ≠ ancestorPid) :
    Walked ancestorPid parentMap (parent :: visited) parent := by
  refine ⟨List.mem_cons_self, fun v hv hvne => ?_⟩
  have hmem : v ∈ visited := (List.mem_cons.mp hv).resolve_left hvne
  by_cases hcurrent : v = current
  · exact ⟨parent, List.mem_cons_self, hcurrent ▸ hparent, hne⟩
  · obtain ⟨q, hq, hlookup, hqne⟩ := h.earlier v hmem hcurrent
    exact ⟨q, List.mem_cons_of_mem parent hq, hlookup, hqne⟩

theorem Walked.no_child {visited : List Pid} {current : Pid}
    (h : Walked ancestorPid parentMap visited current)
    (hstop : ∀ parent, parentMap.lookup current = some (some parent) →
      parent ≠ ancestorPid ∧
        (createdAfter createdAtMap parent current = false → parent ∈ visited))
    (hway : WayUp ancestorPid parentMap createdAtMap p child) (hp : p ∈ visited) :
    parentMap.lookup child ≠ some (some ancestorPid) := by
  have hclosed : ∀ v ∈ visited, ∀ parent, parentMap.lookup v = some (some parent) →
      parent ≠ ancestorPid → createdAfter createdAtMap parent v = false → parent ∈ visited := by
    intro v hv parent hparent hne hafter
    by_cases hcurrent : v = current
    · subst hcurrent
      exact (hstop parent hparent).2 hafter
    · obtain ⟨q, hq, hlookup, -⟩ := h.earlier v hv hcurrent
      rw [hparent, Option.some.injEq, Option.some.injEq] at hlookup
      exact hlookup ▸ hq
  have hchild := wayUp_mem hclosed hway hp
  intro hancestor
  by_cases hcurrent : child = current
  · subst hcurrent
    exact (hstop ancestorPid hancestor).1 rfl
  · obtain ⟨q, -, hlookup, hqne⟩ := h.earlier child hchild hcurrent
    rw [hancestor, Option.some.injEq, Option.some.injEq] at hlookup
    exact hqne hlookup.symm

theorem no_child_of_walk {fuel : ℕ} {visited : List Pid} {current : Pid}
    (hwalked : Walked ancestorPid parentMap visited current)
    (h : walk ancestorPid parentMap createdAtMap fuel visited current = some false)
    (hway : WayUp ancestorPid parentMap createdAtMap p child) (hp : p ∈ visited) :
    parentMap.lookup child ≠ some (some ancestorPid) := by
  induction fuel generalizing visited current with
  | zero => cases h
  | succ fuel ih =>
    unfold walk at h
    cases hparent : parentMap.lookup current with
    | none =>
      exact hwalked.no_child (fun parent hsome => by rw [hparent] at hsome; cases hsome) hway hp
    | some parent =>
      cases parent with
      | none =>
        exact hwalked.no_child (fun parent hsome => by rw [hparent] at hsome; cases hsome) hway hp
      | some parent =>
        simp only [hparent] at h
        split_ifs at h with hancestor hvisited hafter
        · cases h
        · refine hwalked.no_child (fun q hq => ?_) hway hp
          rw [hparent, Option.some.injEq, Option.some.injEq] at hq
          exact ⟨hq ▸ hancestor, fun _ => hq ▸ hvisited⟩
        · refine hwalked.no_child (fun q hq => ?_) hway hp
          rw [hparent, Option.some.injEq, Option.some.injEq] at hq
          subst hq
          exact ⟨hancestor, fun hfalse => by rw [hafter] at hfalse; cases hfalse⟩
        · exact ih (hwalked.next hparent hancestor) h (List.mem_cons_of_mem parent hp)

theorem descends_of_wayUp (hway : WayUp ancestorPid parentMap createdAtMap p r)
    (hr : Descends ancestorPid parentMap createdAtMap ancestorTolerance r) :
    Descends ancestorPid parentMap createdAtMap ancestorTolerance p := by
  induction hway with
  | here p => exact hr
  | link hparent _ hafter _ ih => exact .link hparent hafter (ih hr)

theorem wayUp_descends (hway : WayUp ancestorPid parentMap createdAtMap p r)
    (hp : Descends ancestorPid parentMap createdAtMap ancestorTolerance p) :
    Descends ancestorPid parentMap createdAtMap ancestorTolerance r := by
  induction hway with
  | here p => exact hp
  | link hparent hne _ _ ih =>
    apply ih
    cases hp with
    | last hlast _ =>
      rw [hparent, Option.some.injEq, Option.some.injEq] at hlast
      exact absurd hlast hne
    | link hlink _ hrest =>
      rw [hparent, Option.some.injEq, Option.some.injEq] at hlink
      exact hlink ▸ hrest

/-- `IsDescendantOf` always ends, and it is sound precisely for the processes whose way up comes
    to the ancestor by a link that is not stale. -/
theorem ancestrySound_iff (ancestorPid : Pid) (parentMap : Dictionary (Option Pid))
    (createdAtMap : Dictionary (Option ℤ)) (ancestorTolerance : ℤ) (pid : Pid) :
    AncestrySound ancestorPid parentMap createdAtMap ancestorTolerance pid ↔
      LastLinkFresh ancestorPid parentMap createdAtMap ancestorTolerance pid := by
  constructor
  · intro hsound child hway hchild
    obtain ⟨accepted, haccepted⟩ := Option.isSome_iff_exists.mp
      (hsound.terminates (parentMap.length + 2) (by omega))
    cases accepted with
    | false =>
      have hwalked : Walked ancestorPid parentMap [pid] pid :=
        ⟨List.mem_cons_self, fun v hv hne => absurd (List.mem_singleton.mp hv) hne⟩
      exact absurd hchild (no_child_of_walk hwalked haccepted hway List.mem_cons_self)
    | true =>
      have hdescends := wayUp_descends hway (hsound.sound _ haccepted)
      cases hdescends with
      | last _ hfresh => exact .inl hfresh
      | link hlink hafter hrest =>
        rw [hchild, Option.some.injEq, Option.some.injEq] at hlink
        subst hlink
        exact .inr ⟨hafter, hrest⟩
  · intro hfresh
    refine ⟨fun fuel hfuel => isDescendantOf_isSome pid ancestorTolerance fuel hfuel, ?_⟩
    intro fuel haccepted
    obtain ⟨child, hway, hchild⟩ := wayUp_of_walk haccepted
    apply descends_of_wayUp hway
    cases hfresh child hway hchild with
    | inl hlast => exact .last hchild hlast
    | inr hcycle => exact .link hchild hcycle.1 hcycle.2

theorem ancestry_stale_link : ¬AncestrySound 10 [(10, some 4), (20, some 10), (30, some 20)]
    [(10, some 500), (20, some 100), (30, some 600)] 490 30 := by
  intro h
  have hway : WayUp 10 [(10, some 4), (20, some 10), (30, some 20)]
      [(10, some 500), (20, some 100), (30, some 600)] 30 20 :=
    .link rfl (by decide) (by decide) (.here 20)
  have hdescends := wayUp_descends hway (h.sound 5 (by decide))
  cases hdescends with
  | last _ hfresh => exact absurd (hfresh 100 (by decide)) (by decide)
  | link hlink hafter _ =>
    obtain rfl := Option.some.inj (Option.some.inj hlink)
    exact absurd hafter (by decide)

end Chains

section Ancestors
variable (ancestorPids : List Pid) (parentMap : Dictionary (Option Pid))

/-- The loop of `IsAncestorOfAny`; each round that goes on raises `depth`. -/
def climb (maxDepth : ℤ) (visited : List Pid) (current : Pid) (depth : ℤ) : Bool :=
  match parentMap.lookup current with
  | some (some parent) =>
    if depth < maxDepth then
      if parent ∈ ancestorPids then true
      else if parent ∈ visited then false
      else climb maxDepth (parent :: visited) parent (depth + 1)
    else false
  | _ => false
termination_by (maxDepth - depth).toNat
decreasing_by omega

def isAncestorOfAny (pid : Pid) (maxDepth : ℤ) : Bool :=
  climb ancestorPids parentMap maxDepth [pid] pid 0

def parentOf (p : Pid) : Option Pid := (parentMap.lookup p).join

/-- The parent's parent and so on, `k` times. -/
def iteratedParent : (k : ℕ) → Pid → Option Pid
  | 0, p => some p
  | k + 1, p => (parentOf parentMap p).bind (iteratedParent k)

/-- The processes that the loop has come to: but for the current one, the parent of each is among
    them, and is no ancestor that is asked for. -/
structure Climbed (visited : List Pid) (current : Pid) : Prop where
  current_mem : current ∈ visited
  earlier : ∀ v ∈ visited, v ≠ current →
    ∃ parent ∈ visited, parentOf parentMap v = some parent ∧ parent ∉ ancestorPids

variable {ancestorPids parentMap} {visited : List Pid} {current parent : Pid} {maxDepth depth : ℤ}

theorem parentOf_eq_some (h : parentMap.lookup current = some (some parent)) :
    parentOf parentMap current = some parent := by
  rw [parentOf, h]
  rfl

theorem iteratedParent_succ (h : parentOf parentMap current = some parent) (k : ℕ) :
    iteratedParent parentMap (k + 1) current = iteratedParent parentMap k parent := by
  rw [iteratedParent, h, Option.bind_some]

theorem Climbed.next (h : Climbed ancestorPids parentMap visited current)
    (hparent : parentOf parentMap current = some parent) (hnew : parent ∉ ancestorPids) :
    Climbed ancestorPids parentMap (parent :: visited) parent := by
  refine ⟨List.mem_cons_self, fun v hv hne => ?_⟩
  have hmem : v ∈ visited := (List.mem_cons.mp hv).resolve_left hne
  by_cases hcurrent : v = current
  · exact ⟨parent, List.mem_cons_self, hcurrent ▸ hparent, hnew⟩
  · obtain ⟨q, hq, hlink, hqnew⟩ := h.earlier v hmem hcurrent
    exact ⟨q, List.mem_cons_of_mem parent hq, hlink, hqnew⟩

/-- In a cycle all that comes was seen before. -/
theorem Climbed.iteratedParent_notMem (h : Climbed ancestorPids parentMap visited current)
    (hparent : parentOf parentMap current = some parent) (hnew : parent ∉ ancestorPids)
    (hseen : parent ∈ visited) {k : ℕ} {v p : Pid} (hv : v ∈ visited)
    (hp : iteratedParent parentMap (k + 1) v = some p) : p ∉ ancestorPids := by
  have hclosed : ∀ v ∈ visited, ∃ q ∈ visited, parentOf parentMap v = some q ∧ q ∉ ancestorPids := by
    intro v hv
    by_cases hcurrent : v = current
    · exact ⟨parent, hseen, hcurrent ▸ hparent, hnew⟩
    · exact h.earlier v hv hcurrent
  induction k generalizing v with
  | zero =>
    obtain ⟨q, -, hlink, hqnew⟩ := hclosed v hv
    rw [iteratedParent_succ hlink, iteratedParent] at hp
    exact Option.some.inj hp ▸ hqnew
  | succ k ih =>
    obtain ⟨q, hq, hlink, -⟩ := hclosed v hv
    rw [iteratedParent_succ hlink] at hp
    exact ih hq hp

theorem climb_iff (h : Climbed ancestorPids parentMap visited current) :
    climb ancestorPids parentMap maxDepth visited current depth = true ↔
      ∃ k : ℕ, 1 ≤ k ∧ depth + k ≤ maxDepth ∧
        ∃ p ∈ ancestorPids, iteratedParent parentMap k current = some p := by
  fun_induction climb ancestorPids parentMap maxDepth visited current depth with
  | case1 visited current depth parent hlookup hdepth hfound =>
    -- the parent is asked for
    refine iff_of_true rfl ⟨1, Nat.le_refl 1, by omega, parent, hfound, ?_⟩
    rw [iteratedParent_succ (parentOf_eq_some hlookup), iteratedParent]
  | case2 visited current depth parent hlookup hdepth hnew hseen =>
    have hparent := parentOf_eq_some hlookup
    refine iff_of_false Bool.false_ne_true ?_
    rintro ⟨k, hk, -, p, hp, hiterated⟩
    obtain ⟨k, rfl⟩ := Nat.exists_eq_add_of_le' hk
    exact h.iteratedParent_notMem hparent hnew hseen h.current_mem hiterated hp
  | case3 visited current depth parent hlookup hdepth hnew hseen ih =>
    have hparent := parentOf_eq_some hlookup
    rw [ih (h.next hparent hnew)]
    constructor
    · rintro ⟨k, hk, hle, p, hp, hiterated⟩
      refine ⟨k + 1, by omega, by push_cast; omega, p, hp, ?_⟩
      rw [iteratedParent_succ hparent, hiterated]
    · rintro ⟨k, hk, hle, p, hp, hiterated⟩
      obtain ⟨k, rfl⟩ := Nat.exists_eq_add_of_le' hk
      rw [iteratedParent_succ hparent] at hiterated
      cases k with
      | zero =>
        obtain rfl := Option.some.inj hiterated
        exact absurd hp hnew
      | succ k => exact ⟨k + 1, by omega, by push_cast at hle ⊢; omega, p, hp, hiterated⟩
  | case4 visited current depth parent hlookup hdepth =>
    refine iff_of_false Bool.false_ne_true ?_
    rintro ⟨k, hk, hle, -⟩
    omega
  | case5 visited current depth hnone =>
    -- no parent is known
    have hparent : parentOf parentMap current = none := by
      unfold parentOf
      cases hlookup : parentMap.lookup current with
      | none => rfl
      | some parent =>
        cases parent with
        | none => rfl
        | some parent => exact (hnone parent hlookup).elim
    refine iff_of_false Bool.false_ne_true ?_
    rintro ⟨k, hk, -, p, -, hiterated⟩
    obtain ⟨k, rfl⟩ := Nat.exists_eq_add_of_le' hk
    rw [iteratedParent, hparent] at hiterated
    cases hiterated

/-- Whatever cycles the table has, the answer is that of the first `maxDepth` iterated parents. -/
theorem isAncestorOfAny_iff (ancestorPids : List Pid) (parentMap : Dictionary (Option Pid))
    (pid : Pid) (maxDepth : ℤ) :
    isAncestorOfAny ancestorPids parentMap pid maxDepth = true ↔
      ∃ k : ℕ, 1 ≤ k ∧ (k : ℤ) ≤ maxDepth ∧
        ∃ p ∈ ancestorPids, iteratedParent parentMap k pid = some p := by
  have hclimbed : Climbed ancestorPids parentMap [pid] pid :=
    ⟨List.mem_cons_self, fun v hv hne => absurd (List.mem_singleton.mp hv) hne⟩
  unfold isAncestorOfAny
  simp only [climb_iff hclimbed, Int.zero_add]

end Ancestors

section Tracking

structure LightProcess where
  processId : Pid
  parentProcessId : Option Pid
  createdAt : Option ℤ

variable (rootPid : Pid) (tolerance : ℤ) (knownPids : List Pid) (lightTable : List LightProcess)

def parentMap : Dictionary (Option Pid) :=
  lightTable.map fun p => (p.processId, p.parentProcessId)

def createdAtMap : Dictionary (Option ℤ) := lightTable.map fun p => (p.processId, p.createdAt)

/-- The new descendants that one round of `TrackProcessTreeAsync` finds; a key that comes twice is
    an exception of `ToDictionary`. -/
def newCandidates : Option (List Pid) :=
  if (lightTable.map LightProcess.processId).Nodup then
    some ((lightTable.filter fun p => p.processId ∉ knownPids ∧
      (p.createdAt.all fun createdAt => tolerance ≤ createdAt) = true ∧
        isDescendantOf rootPid (parentMap lightTable) (createdAtMap lightTable) p.processId tolerance
          (lightTable.length + 2) = some true).map LightProcess.processId)
  else none

variable {rootPid tolerance knownPids lightTable}

/-- Where no child of the root's PID is older than the root, all that is found descends from it. -/
theorem newCandidates_descend {candidates : List Pid}
    (h : newCandidates rootPid tolerance knownPids lightTable = some candidates)
    (hfresh : ∀ child, (parentMap lightTable).lookup child = some (some rootPid) →
      NotBefore (createdAtMap lightTable) tolerance child) :
    ∀ pid ∈ candidates, pid ∉ knownPids ∧
      Descends rootPid (parentMap lightTable) (createdAtMap lightTable) tolerance pid := by
  unfold newCandidates at h
  split_ifs at h with hnodup
  intro pid hpid
  rw [← Option.some.inj h, List.mem_map] at hpid
  obtain ⟨p, hp, rfl⟩ := hpid
  obtain ⟨-, hkeep⟩ := List.mem_filter.mp hp
  obtain ⟨hnew, -, haccepted⟩ := of_decide_eq_true hkeep
  refine ⟨hnew, ?_⟩
  obtain ⟨child, hway, hchild⟩ := wayUp_of_walk haccepted
  exact descends_of_wayUp hway (.last hchild (hfresh child hchild))

end Tracking

end ProxySwitch.ProcessAncestry
