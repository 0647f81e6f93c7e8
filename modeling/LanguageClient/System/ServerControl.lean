import LanguageClient.Session.Basic

/-!
# Running servers

The few things that are done with the processes of servers, for any way `m` of doing them. What they
do comes back as events, one at a time. Times are in milliseconds.
-/

namespace LanguageClient

/-- A way to run servers. -/
class ServerControl (m : Type → Type) where
  /-- Starts the server of a configuration in a folder. -/
  launch : ConnectionId → ServerConfig → Path → m Launched
  /-- Hands a message to a server, which may have stopped reading. -/
  send : ConnectionId → Json → m Unit
  /-- Closes the input of a server, which is killed when it is still there after the given time. -/
  retire : ConnectionId → Nat → m Unit
  /-- Lets the retired servers end, for the given time at most. -/
  reap : Nat → m Unit
  now : m Nat
  /-- The next event, if there is one up to the given moment. -/
  await : Nat → m (Option Event)
  /-- An event that is already there. -/
  ready : m (Option Event)

end LanguageClient
