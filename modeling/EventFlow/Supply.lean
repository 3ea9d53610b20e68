import EventFlow.Data.Uuid
import EventFlow.Time.Instant

/-!
# Clock readings and fresh identifiers

A `Supply` hands out what a program takes from outside. Every reading of the clock is later than
the one before it, and every identifier is new.
-/

set_option autoImplicit false

namespace EventFlow

/-- The next clock reading and the number of the next identifier. -/
structure Supply where
  clock : Instant
  nextId : Nat
deriving DecidableEq, Inhabited

namespace Supply

/-- A reading of the clock. -/
def now (s : Supply) : Instant × Supply := (s.clock, { s with clock := s.clock.succ })

/-- A fresh identifier. -/
def freshId (s : Supply) : Uuid × Supply := (.ofIndex s.nextId, { s with nextId := s.nextId + 1 })

/-- A fresh record identifier: a word, an underscore and 32 hexadecimal digits. -/
def recordId (word : String) (s : Supply) : String × Supply :=
  let (u, s) := s.freshId
  (word ++ "_" ++ u.simple, s)

end Supply

end EventFlow
