import LogFanout.Reply
import LogFanout.Sink
import LogFanout.Table

/- The world that sinks act on.

   It has a host with its disk and console, the buffers of memory sinks, a label for every sink ever built, a journal of all
   that happened to sinks, in order, and the time, as the mark that a line gets in front. A journal entry says that a sink
   was built, that a call was made on it, that it was dropped, or that a step ended that was taken while an argument was
   being rendered.

   The journal only grows, and each operation of this file says by what: `receive` by the call, `deliver` by one call for
   every sink of a list in its order, `discard` by one drop for every sink of a list in its order. -/
namespace LogFanout

inductive Event where
  | built (sink : Nat)
  | called (sink : Nat) (c : Call)
  | dropped (sink : Nat)
  | nested (r : Reply)
  deriving DecidableEq, Repr

/-- All that sinks act on, and the journal of it. -/
structure World where
  host : Host
  buffers : Table Nat (List String)
  labels : List Sink.Label
  journal : List Event
  stamp : String
  deriving Repr

namespace World

def fresh (stamp : String) : World := ⟨.fresh, .empty, [], [], stamp⟩

def record (w : World) (e : Event) : World := { w with journal := w.journal ++ [e] }

def buffer (w : World) (sink : Nat) : List String := (w.buffers.get? sink).getD []

/-- What a call does, apart from the journal. -/
def act (w : World) (sink : Sink) (c : Call) : Sink × World :=
  match sink.body with
  | .probe => (sink, w)
  | .memory m =>
    let (m, lines) := m.receive c (w.buffer sink.id)
    (⟨sink.id, .memory m⟩, { w with buffers := w.buffers.put sink.id lines })
  | .file f =>
    let (f, host) := f.receive w.stamp c w.host
    (⟨sink.id, .file f⟩, { w with host })

def receive (w : World) (sink : Sink) (c : Call) : Sink × World :=
  (w.record (.called sink.id c)).act sink c

/-- Makes a call on every sink of a list, in its order. -/
def deliver (c : Call) : List Sink → World → List Sink × World
  | [], w => ([], w)
  | sink :: rest, w =>
    let (sink, w) := w.receive sink c
    let (rest, w) := deliver c rest w
    (sink :: rest, w)

/-- Drops every sink of a list, in its order. -/
def discard (w : World) (sinks : List Sink) : World :=
  { w with journal := w.journal ++ sinks.map fun sink => .dropped sink.id }

/-- Gives a body the next number. -/
def number (w : World) (label : Sink.Label) (body : Sink.Body) : Sink × World :=
  let id := w.labels.length
  (⟨id, body⟩, { w with labels := w.labels ++ [label] }.record (.built id))

/-- Builds a sink, unless it has to have a file and cannot. -/
def build (w : World) (spec : Sink.Spec) : Except DiskError Sink × World :=
  match spec with
  | .probe name hearsFlush =>
    let (sink, w) := w.number (.probe name hearsFlush) .probe
    (.ok sink, w)
  | .memory name level =>
    let (sink, w) := w.number (.memory name) (.memory (.make level))
    (.ok sink, w)
  | .file o =>
    let (f, host) := FileSink.make o w.host
    let (sink, w) := { w with host }.number .file (.file f)
    (.ok sink, w)
  | .openFile o =>
    match FileSink.make? o w.host with
    | .error e => (.error e, w)
    | .ok (f, host) =>
      let (sink, w) := { w with host }.number .file (.file f)
      (.ok sink, w)

def clearBuffer (w : World) (sink : Nat) : World := { w with buffers := w.buffers.put sink [] }

/-! ## What the journal shows -/

/-- What the probes of a session tell: an event of a probe under its name, and the end of a nested step under no name.
    Other sinks tell nothing, and some probes do not notice a flush. -/
def told (labels : List Sink.Label) (e : Event) : Option (String × Event) :=
  match e with
  | .nested _ => some ("", e)
  | .built sink =>
    match labels[sink]? with
    | some (.probe name _) => some (name, e)
    | _ => none
  | .dropped sink =>
    match labels[sink]? with
    | some (.probe name _) => some (name, e)
    | _ => none
  | .called sink c =>
    match labels[sink]? with
    | some (.probe name hearsFlush) => if c = .flush ∧ ¬ hearsFlush then none else some (name, e)
    | _ => none

/-! ## Small facts -/

@[simp] theorem act_journal (w : World) (sink : Sink) (c : Call) : (w.act sink c).2.journal = w.journal := by
  unfold act
  split <;> rfl

@[simp] theorem act_id (w : World) (sink : Sink) (c : Call) : (w.act sink c).1.id = sink.id := by
  unfold act
  split <;> rfl

theorem receive_journal (w : World) (sink : Sink) (c : Call) :
    (w.receive sink c).2.journal = w.journal ++ [.called sink.id c] := by
  simp [receive, record]

theorem receive_id (w : World) (sink : Sink) (c : Call) : (w.receive sink c).1.id = sink.id := by
  simp [receive]

/-- A call on a list of sinks is made once on each, in order, and nothing else happens to sinks. -/
theorem deliver_journal (c : Call) (sinks : List Sink) (w : World) :
    (deliver c sinks w).2.journal = w.journal ++ sinks.map fun sink => .called sink.id c := by
  induction sinks generalizing w with
  | nil => simp [deliver]
  | cons sink rest ih => simp [deliver, ih, receive_journal]

theorem deliver_ids (c : Call) (sinks : List Sink) (w : World) :
    (deliver c sinks w).1.map Sink.id = sinks.map Sink.id := by
  induction sinks generalizing w with
  | nil => rfl
  | cons sink rest ih => simp [deliver, ih, receive_id]

end World
end LogFanout
