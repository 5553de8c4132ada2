import ProxySwitch.SessionMatching

set_option autoImplicit false

namespace ProxySwitch.MergePriority
open AppRoutes KeyedLists RuntimeStrings SessionMatching

/-- The place of a rule in the order in which they are tried; the first one is the strongest. -/
def rank : MergeRule → ℕ
  | .parentChain => 0
  | .routeIdentity => 1
  | .processName => 2
  | .sameDirectory => 3
  | .pendingStoreApp => 4
  | .runtimeRoot => 5

def chosenRule : Scan → Option MergeRule
  | .matched _ rule => some rule
  | _ => none

section Priority
variable (env : SessionMatching.Surroundings) (hit : ExternalProcessHit)

def skipped (s : LaunchSession) : Bool := s.hasEnded || s.proxyId = []

def applicableRule (s : LaunchSession) : Option MergeRule :=
  if skipped s then none else mergeRule env s hit

/-- How a session would end the loop: `none` inside stands for a process that it tracks. -/
def verdict (s : LaunchSession) : Option (Option MergeRule) :=
  if skipped s then none
  else if s.tracks hit.processId then some none
  else (mergeRule env s hit).map some

/-- A process that some session has a rule for is merged by a rule that is at least as strong as
    that of any session, unless it was merged before; and no order of the sessions gives another
    rule. -/
def PriorityIsGlobal (sessions : List LaunchSession) : Prop :=
  (∀ t ∈ sessions, ∀ other, applicableRule env hit t = some other →
    scan env hit sessions = .alreadyTracked ∨
      ∃ s rule, scan env hit sessions = .matched s rule ∧ rank rule ≤ rank other) ∧
  ∀ order : List LaunchSession, order.Perm sessions →
    chosenRule (scan env hit order) = chosenRule (scan env hit sessions)

/-- No two sessions would end the loop differently: either all that have a rule for the process
    have the same one, or all of them track it. -/
def OneVerdict (sessions : List LaunchSession) : Prop :=
  ∀ s ∈ sessions, ∀ t ∈ sessions, ∀ x y,
    verdict env hit s = some x → verdict env hit t = some y → x = y

variable {env hit} {sessions : List LaunchSession} {s : LaunchSession}

def outcome : Scan → Option (Option MergeRule)
  | .unmatched => none
  | .alreadyTracked => some none
  | .matched _ rule => some (some rule)

theorem chosenRule_eq (result : Scan) : chosenRule result = (outcome result).join := by
  cases result <;> rfl

theorem outcome_scan (sessions : List LaunchSession) :
    outcome (scan env hit sessions) = sessions.findSome? (verdict env hit) := by
  induction sessions with
  | nil => rfl
  | cons head rest ih =>
    unfold scan
    rw [List.findSome?_cons]
    cases hskip : skipped head with
    | true =>
      have hverdict : verdict env hit head = none := by simp only [verdict, hskip, if_true]
      have hopen : (head.hasEnded || decide (head.proxyId = [])) = true := hskip
      rw [hverdict, if_pos hopen]
      exact ih
    | false =>
      have hopen : ¬(head.hasEnded || decide (head.proxyId = [])) = true := by
        rw [show (head.hasEnded || decide (head.proxyId = [])) = false from hskip]
        exact Bool.false_ne_true
      rw [if_neg hopen]
      simp only [verdict, hskip, Bool.false_eq_true, if_false]
      cases head.tracks hit.processId with
      | true => rfl
      | false =>
        simp only [Bool.false_eq_true, if_false]
        cases mergeRule env head hit with
        | some rule => rfl
        | none => exact ih

theorem verdict_of_applicableRule {rule : MergeRule} (h : applicableRule env hit s = some rule) :
    verdict env hit s = some none ∨ verdict env hit s = some (some rule) := by
  unfold applicableRule at h
  unfold verdict
  split at h
  · cases h
  · rename_i hopen
    rw [if_neg hopen, h]
    split
    · exact .inl rfl
    · exact .inr rfl

theorem oneVerdict_of_order (h : ∀ order : List LaunchSession, order.Perm sessions →
    chosenRule (scan env hit order) = chosenRule (scan env hit sessions)) :
    OneVerdict env hit sessions := by
  intro s hs t ht x y hx hy
  obtain ⟨first, hperm, hfirst⟩ := exists_perm_findSome? hs hx
  obtain ⟨second, hperm', hsecond⟩ := exists_perm_findSome? ht hy
  have hsame := (h first hperm).trans (h second hperm').symm
  rw [chosenRule_eq, chosenRule_eq, outcome_scan, outcome_scan, hfirst, hsecond] at hsame
  exact hsame

theorem strongest_of_oneVerdict (h : OneVerdict env hit sessions) {t : LaunchSession}
    (ht : t ∈ sessions) {other : MergeRule} (happlies : applicableRule env hit t = some other) :
    scan env hit sessions = .alreadyTracked ∨
      ∃ s rule, scan env hit sessions = .matched s rule ∧ rank rule ≤ rank other := by
  have hscan : outcome (scan env hit sessions) = _ := outcome_scan sessions
  obtain hverdict | hverdict := verdict_of_applicableRule happlies
  · rw [findSome?_of_agree h ht hverdict] at hscan
    cases hresult : scan env hit sessions with
    | alreadyTracked => exact .inl rfl
    | unmatched => rw [hresult] at hscan; cases hscan
    | matched s rule => rw [hresult] at hscan; cases hscan
  · rw [findSome?_of_agree h ht hverdict] at hscan
    cases hresult : scan env hit sessions with
    | alreadyTracked => exact .inl rfl
    | unmatched => rw [hresult] at hscan; cases hscan
    | matched s rule =>
      rw [hresult] at hscan
      obtain rfl := Option.some.inj (Option.some.inj hscan)
      exact .inr ⟨s, rule, rfl, Nat.le_refl _⟩

/-- The priority is global precisely when no two sessions compete. -/
theorem priorityIsGlobal_iff (env : SessionMatching.Surroundings) (hit : ExternalProcessHit)
    (sessions : List LaunchSession) :
    PriorityIsGlobal env hit sessions ↔ OneVerdict env hit sessions := by
  constructor
  · rintro ⟨-, horder⟩
    exact oneVerdict_of_order horder
  · intro h
    refine ⟨fun t ht other happlies => strongest_of_oneVerdict h ht happlies, ?_⟩
    intro order hperm
    rw [chosenRule_eq, chosenRule_eq, outcome_scan, outcome_scan,
      findSome?_perm_iff.mpr h order hperm]

end Priority

def childOfThree : SessionMatching.Surroundings where
  rt := plainRuntime
  routes := []
  parentMap pid := if pid = 7 then some (some 3) else none

def startedSeven : ExternalProcessHit where
  processId := 7
  parentProcessId := some 3
  executablePath := "C:\\store\\app\\child.exe".toList

def competing : List LaunchSession :=
  [{ id := 1, proxyId := "clash".toList, ipcManaged := true
     storeAppRuntimeRoot := "C:\\store".toList },
    { id := 2, proxyId := "clash".toList, processes := [⟨3, .root, false⟩] }]

/-- The process is merged into the first session although it descends from the second one. -/
theorem weaker_rule_of_first_session :
    ¬∀ (env : SessionMatching.Surroundings) (hit : ExternalProcessHit)
      (sessions : List LaunchSession), PriorityIsGlobal env hit sessions := by
  intro h
  have hscan : chosenRule (scan childOfThree startedSeven competing) = some .runtimeRoot := by decide
  have hswap : chosenRule (scan childOfThree startedSeven competing.reverse) = some .parentChain := by
    decide
  have horder := (h childOfThree startedSeven competing).2 competing.reverse (List.reverse_perm _)
  rw [hscan, hswap] at horder
  cases horder

end ProxySwitch.MergePriority
