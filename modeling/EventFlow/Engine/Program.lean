import EventFlow.Handler.Basic
import EventFlow.Store.Basic

/-!
# Programs

A program is what a run does, with everything it takes from outside left open: a tree whose
branches are the answers that may come. Programs are composed with `bind`, so a run is written as
a program; the machine that performs the requests is elsewhere.
-/

set_option autoImplicit false

namespace EventFlow

/-- How several calls follow each other. -/
inductive CallOrder where
  /-- One after the other, up to the first that fails. -/
  | inTurn
  /-- All at once. -/
  | together
deriving DecidableEq

/-- A program that asks for readings of the clock, for the collections of the store, for a place
in the ledger, for sleep, and for calls of handlers, and ends with a result. -/
inductive Program (α : Type) where
  | done (result : α)
  | clock (next : Instant → Program α)
  | collections (next : Collections → Program α)
  | record (e : Execution) (next : Program α)
  | sleep (ms : Nat) (next : Program α)
  /-- Makes calls and is answered with the replies, or with nothing when the limit in milliseconds
  is reached first. -/
  | call (limit : Option Nat) (order : CallOrder) (calls : List Invocation)
    (next : Option (List Reply) → Program α)

namespace Program

variable {α β : Type}

/-- A program followed by one that depends on its result. -/
protected def bind : Program α → (α → Program β) → Program β
  | done a, f => f a
  | clock next, f => .clock fun time => (next time).bind f
  | collections next, f => .collections fun c => (next c).bind f
  | record e next, f => .record e (next.bind f)
  | sleep ms next, f => .sleep ms (next.bind f)
  | call limit order calls next, f => .call limit order calls fun replies => (next replies).bind f

instance : Monad Program where
  pure := done
  bind := Program.bind

/-- A reading of the clock. -/
def now : Program Instant := .clock .done

/-- The collections of the store as they are. -/
def snapshot : Program Collections := .collections .done

/-- An execution is put into the ledger. -/
def recorded (e : Execution) : Program Unit := .record e (.done ())

/-- Nothing is done for some milliseconds. -/
def pause (ms : Nat) : Program Unit := .sleep ms (.done ())

/-- Handlers are called, for a limited time. -/
def invoke (limit : Option Nat) (order : CallOrder) (calls : List Invocation) :
    Program (Option (List Reply)) :=
  .call limit order calls .done

end Program

end EventFlow
