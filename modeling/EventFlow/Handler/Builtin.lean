import EventFlow.Handler.File
import EventFlow.Handler.Request

/-!
# The built-in handlers

A handler for each built-in type of action. Those that make messages share the outbox.
-/

set_option autoImplicit false

namespace EventFlow

/-- The handler of the actions of a channel. -/
def Channel.handler (channel : Channel) : Handler World := fun call supply world =>
  let (reply, outbox, supply) := Outbox.deliver channel call.action call.data world.outbox supply
  .atOnce { world with outbox } supply reply

/-- The built-in handlers; files are written below a directory. -/
def Registry.builtin (base : String) : Registry World :=
  let messages : Registry World :=
    Channel.all.foldl (fun registry c => Registry.register c.name c.handler registry) []
  Registry.register "file" (FileAction.handler base)
    (Registry.register "api" RequestAction.handler messages)

end EventFlow
