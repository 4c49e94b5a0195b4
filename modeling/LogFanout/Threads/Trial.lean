import LogFanout.Threads

/- Trials: threads that all write to one manager.

   A manager has some probes and then a memory sink. Every thread writes the numbers from zero on in the name of its own
   node, and another memory sink may join while they write. A trial runs them turn by turn and tells what can be told of
   every schedule: how many calls the probes got and how many lines were kept, whether the calls of each message stand
   together in the order of the sinks, whether the lines of each thread are all there in its order, and whether the sink
   that joined late has a tail of the lines of the one that was there from the start. -/
namespace LogFanout

/-- The size of a trial, and the door that its threads write through. -/
structure Trial where
  threads : Nat
  writes : Nat
  probes : Nat
  viaProcess : Bool
  late : Bool
  deriving DecidableEq, Repr

structure Outcome where
  calls : Nat
  lines : Nat
  contiguous : Bool
  ordered : Bool
  lateIsSuffix : Bool
  deriving DecidableEq, Repr

namespace Trial

/-- What thread `t` writes as its `n`th record. -/
def record (t n : Nat) : Record := ⟨.info, some (UInt8.ofNat t), toString n⟩

def buildProbes : Nat → World → List Sink × World
  | 0, w => ([], w)
  | n + 1, w =>
    let (sink, w) := w.number (.probe "probe" true) .probe
    let (rest, w) := buildProbes n w
    (sink :: rest, w)

/-- The sinks of a trial: the probes, the memory sink behind them, and the one that may join. -/
def buildSinks (t : Trial) : (List Sink × Sink × Sink) × World :=
  let (probes, w) := buildProbes t.probes (World.fresh "T")
  let (first, w) := w.number (.memory "first") (.memory (.make (some .debug)))
  let (second, w) := w.number (.memory "second") (.memory (.make (some .debug)))
  ((probes, first, second), w)

/-- A system with one manager that has the sinks, as the instance of the process or on its own. -/
def system (t : Trial) (sinks : List Sink) (world : World) : System :=
  let manager := Manager.ofSinks sinks (if t.viaProcess then .shared else .own true)
  { System.fresh "T" with
    world
    managers := [manager]
    slot := if t.viaProcess then some 0 else none
    processFlag := t.viaProcess
    handles := Table.empty.put "manager" 0 }

/-- The writers of a trial, and behind them one that registers the late sink. -/
def crew (t : Trial) (late : Sink) : List Thread :=
  ((List.range t.threads).map fun i => .ofTasks ((List.range t.writes).map fun n => .write (record i n))) ++
    (if t.late then [.ofTasks [.register late]] else [])

def rounds (threads turns : Nat) : List Nat := (List.range turns).flatMap fun _ => List.range threads

/-- A schedule in which everybody comes to the end: three turns for every write, and the late sink joins halfway. -/
def schedule (t : Trial) : List Nat :=
  let turns := 3 * t.writes
  rounds t.threads (turns / 2) ++ [t.threads] ++ rounds t.threads (turns - turns / 2)

/-- The calls to write in a journal, on sinks with a number below a bound. -/
def writesBelow (bound : Nat) (journal : List Event) : List (Nat × Record) :=
  journal.filterMap fun e =>
    match e with
    | .called sink (.write r) => if sink < bound then some (sink, r) else none
    | _ => none

/-- Whether calls come in blocks, each of which has one record for the sinks `0`, `1`, … in their order. -/
def inBlocks (size : Nat) : Nat → List (Nat × Record) → Bool
  | _, [] => true
  | 0, _ :: _ => false
  | fuel + 1, (sink, r) :: rest =>
    let block := ((sink, r) :: rest).take size
    block == (List.range size).map (fun n => (n, r)) && inBlocks size fuel (((sink, r) :: rest).drop size)

def linesOf (t : Trial) (i : Nat) : List String := (List.range t.writes).map fun n => (record i n).display

/-- Whether the lines of every thread are there in its order. -/
def inOrder (t : Trial) (lines : List String) : Bool :=
  (List.range t.threads).all fun i => lines.filter (t.linesOf i).contains == t.linesOf i

/-- Runs a trial to its end and tells what came of it. -/
def run (t : Trial) : Outcome :=
  let ((probes, first, late), world) := t.buildSinks
  let door : Door := if t.viaProcess then .process else .manager 0
  let after := (Crew.run door t.schedule ⟨t.system (probes ++ [first]) world, t.crew late⟩).system.world
  let calls := writesBelow t.probes after.journal
  let lines := after.buffer first.id
  { calls := calls.length
    lines := lines.length
    contiguous := inBlocks t.probes calls.length calls
    ordered := t.inOrder lines
    lateIsSuffix := (after.buffer late.id).isSuffixOf lines }

end Trial
end LogFanout
