/-!
# How long anything sleeps

Nothing sleeps longer at a time than thirty years of 365 days. A limit on how long something may
take can be longer than that.
-/

set_option autoImplicit false

namespace EventFlow.Sleep

/-- The longest sleep, in milliseconds. -/
def longest : Nat := 946080000000

/-- The milliseconds that a sleep of so many lasts. -/
def lasting (ms : Nat) : Nat := min ms longest

theorem lasting_of_le {ms : Nat} (h : ms ≤ longest) : lasting ms = ms := Nat.min_eq_left h

end EventFlow.Sleep
