import LogFanout.Script.Run

/- Sessions: scripts as they are watched from outside.

   Of every step a session shows the reply, what probes told during the step, and what was shown on the console. -/
namespace LogFanout

structure Sight where
  reply : Reply
  events : List (String × Event)
  console : String
  deriving DecidableEq, Repr

/-- What is seen of a step that was taken in one system and ended in another. -/
def Sight.between (before : System) (reply : Reply) (after : System) : Sight :=
  { reply
    events := (after.world.journal.drop before.world.journal.length).filterMap (World.told after.world.labels)
    console := String.join (after.world.host.console.drop before.world.host.console.length) }

def watch : List Step → System → List Sight
  | [], _ => []
  | step :: rest, s =>
    let (reply, after) := step.run s
    Sight.between s reply after :: watch rest after

/-- A session starts in a system in which nothing has happened. The time differs from run to run, so it shows as `T`. -/
def session (steps : List Step) : List Sight := watch steps (.fresh "T")

end LogFanout
