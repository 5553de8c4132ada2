set_option autoImplicit false

/-!
# The timer of the Windows Forms library

Its ticks are messages to the thread that has started it. A thread that pumps no messages, as
none of the thread pool does, never sees one, and the timer counts as enabled all the same.
-/
namespace ProxySwitch.FormsTimers

structure Timer where
  enabled : Bool := false
  pumped : Bool := false
  deriving DecidableEq

def Timer.ticks (t : Timer) : Bool := t.enabled && t.pumped

/-- `if (!_timer.Enabled) _timer.Start()`, on a thread that pumps messages or does not. Another
    `Start` between the test and the call makes the call one of an enabled timer, which does
    nothing. -/
def Timer.ensureStarted (t : Timer) (pumps : Bool) : Timer := if t.enabled then t else ⟨true, pumps⟩

def Timer.stop (t : Timer) : Timer := { t with enabled := false }

variable {t : Timer}

theorem ticks_ensureStarted (pumps : Bool) :
    (t.ensureStarted pumps).ticks = if t.enabled then t.pumped else pumps := by
  unfold Timer.ensureStarted
  split
  · rename_i henabled
    simp [Timer.ticks, henabled]
  · rfl

end ProxySwitch.FormsTimers
