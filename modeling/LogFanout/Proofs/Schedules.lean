import LogFanout.Proofs.Calls
import LogFanout.Proofs.Memory
import LogFanout.Threads
import Mathlib.Algebra.GroupWithZero.Nat

/- Schedules: what threads do to a manager, whoever moves when.

   Every record that goes out is a block of calls: that record on every sink the manager has at that moment, in the order
   in which they were registered. What a schedule adds to the journal is its blocks, one after the other, and nothing else
   (`schedules`). A thread that has its turns hands out each of its records once and in its order, wherever the others
   come between. So a sink that was there from the start receives a merge of what the threads write, and a sink that
   joins receives the rest of it from then on.

   A move is of one of five kinds (`Crew.Moved`). The checks of a writer are always passed: nobody closes the manager, and
   a sink that joins only makes its list longer. -/
namespace LogFanout

/-! ## What threads have to do -/

def Phase.records : Phase → List Record
  | .idle => []
  | .taken _ r => [r]
  | .rendered _ r => [r]

def Task.records : Task → List Record
  | .write r => [r]
  | .register _ => []

def Task.sinks : Task → List Sink
  | .write _ => []
  | .register sink => [sink]

def Phase.turns : Phase → Nat
  | .idle => 0
  | .taken _ _ => 2
  | .rendered _ _ => 1

/-- The moves that a task takes: three for a write, one to register a sink. -/
def Task.turns : Task → Nat
  | .write _ => 3
  | .register _ => 1

namespace Thread

/-- The records that a thread has still to hand out, in its order. -/
def ahead (t : Thread) : List Record := t.phase.records ++ t.tasks.flatMap Task.records

def joins (t : Thread) : List Nat := (t.tasks.flatMap Task.sinks).map Sink.id

def turns (t : Thread) : Nat := t.phase.turns + (t.tasks.map Task.turns).sum

end Thread

/-- A block of calls: a thread hands out a record, and the sinks that receive it, in order. -/
structure Block where
  thread : Nat
  record : Record
  ids : List Nat
  deriving DecidableEq, Repr

def Block.events (b : Block) : List Event := b.ids.map fun k => .called k (.write b.record)

/-- A block is one call on each of its sinks. -/
theorem Block.callsOn_events {b : Block} (nodup : b.ids.Nodup) (k : Nat) :
    callsOn k b.events = if k ∈ b.ids then [.write b.record] else [] := by
  have one := callsOn_each_of_nodup nodup k [.write b.record]
  rwa [each_cons, each_nil, List.append_nil] at one

theorem callsOn_blocks {blocks : List Block} {ids : List Nat} (nodup : ids.Nodup) (same : ∀ b ∈ blocks, b.ids = ids)
    (k : Nat) : callsOn k (blocks.flatMap Block.events) =
      if k ∈ ids then blocks.map fun b => .write b.record else [] := by
  induction blocks with
  | nil => exact (ite_self _).symm
  | cons b rest ih =>
    obtain ⟨rfl, same⟩ := List.forall_mem_cons.mp same
    rw [List.flatMap_cons, callsOn_append, Block.callsOn_events nodup, ih same]
    split
    · rfl
    · rfl

/-- Whether a list is a merge of lists: each of its elements is from one of them, and those from one list are that list, in
    its order. -/
def IsMerge {α : Type} (lists : List (List α)) (merged : List α) : Prop :=
  ∃ row : List (Nat × α), row.map Prod.snd = merged ∧ (∀ e ∈ row, e.1 < lists.length) ∧
    ∀ i list, lists[i]? = some list → (row.filter fun e => decide (e.1 = i)).map Prod.snd = list

/-- The pairs whose number lies below a bound, counted number by number. -/
theorem length_filter_lt {α : Type} (row : List (Nat × α)) (n : Nat) :
    (row.filter fun e => decide (e.1 < n)).length =
      ((List.range n).map fun i => (row.filter fun e => decide (e.1 = i)).length).sum := by
  induction n with
  | zero => simp
  | succ n ih =>
    have next : (row.filter fun e => decide (e.1 < n + 1)).length =
        (row.filter fun e => decide (e.1 < n)).length + (row.filter fun e => decide (e.1 = n)).length := by
      clear ih
      simp only [← List.countP_eq_length_filter]
      induction row with
      | nil => rfl
      | cons e rest ih =>
        simp only [List.countP_cons, decide_eq_true_eq]
        split <;> split <;> split <;> omega
    rw [next, ih, List.range_succ, List.map_append, List.sum_append]
    rfl

/-- A merge has as many elements as the lists together. -/
theorem IsMerge.length {α : Type} {lists : List (List α)} {merged : List α} (h : IsMerge lists merged) :
    merged.length = (lists.map List.length).sum := by
  obtain ⟨row, rfl, bound, own⟩ := h
  have all : (row.filter fun e => decide (e.1 < lists.length)) = row := by
    apply List.filter_eq_self.mpr
    intro e member
    exact decide_eq_true (bound e member)
  have each : (List.range lists.length).map (fun i => (row.filter fun e => decide (e.1 = i)).length) =
      lists.map List.length := by
    apply List.ext_getElem (by simp)
    intro i inRange inLists
    rw [List.length_map] at inLists
    have list := congrArg List.length (own i lists[i] (List.getElem?_eq_getElem inLists))
    rw [List.length_map] at list
    simpa using list
  calc (row.map Prod.snd).length
      = (row.filter fun e => decide (e.1 < lists.length)).length := by rw [List.length_map, all]
    _ = (lists.map List.length).sum := by rw [length_filter_lt, each]

namespace Crew

def joiners (c : Crew) : List Nat := c.threads.flatMap Thread.joins

/-- The block of a move, if the thread hands out a record. -/
def block (c : Crew) (i : Nat) : List Block :=
  match c.threads[i]? with
  | some ⟨.rendered m r, _⟩ => [⟨i, r, c.system.ids m⟩]
  | _ => []

def joining (c : Crew) (i : Nat) : List Nat :=
  match c.threads[i]? with
  | some ⟨.idle, .register sink :: _⟩ => [sink.id]
  | _ => []

def blocks (door : Door) : List Nat → Crew → List Block
  | [], _ => []
  | i :: schedule, c => c.block i ++ blocks door schedule (c.move door i)

def joined (door : Door) : List Nat → Crew → List Nat
  | [], _ => []
  | i :: schedule, c => c.joining i ++ joined door schedule (c.move door i)

end Crew

/-! ## The door -/

namespace Door

variable {door : Door} {s : System} {m : Nat}

/-- Whether a manager is behind a door. For the process, logging has to be on. -/
def LeadsTo (door : Door) (s : System) (m : Nat) : Prop :=
  match door with
  | .manager n => n = m
  | .process => s.processFlag = true ∧ s.slot = some m

/-- A manager that is behind the door and open takes every record, and no other does. -/
theorem taker_eq {l : Level} (allowed : l ≠ .internal) :
    door.taker s l = .ok (some m) ↔ door.LeadsTo s m ∧ s.isOpen m = true := by
  cases door with
  | manager n =>
    simp only [taker, System.accepts, allowed, if_false, Except.map, LeadsTo, Except.ok.injEq]
    constructor
    · intro taken
      split at taken
      · rename_i opened
        obtain rfl := Option.some.inj taken
        exact ⟨rfl, opened⟩
      · cases taken
    · rintro ⟨rfl, opened⟩
      rw [if_pos opened]
  | process =>
    simp only [taker, System.instanceAccepts, LeadsTo]
    split
    · rename_i on
      split
      · rename_i n found
        simp only [System.accepts, allowed, if_false, Except.map, Except.ok.injEq, on, found, true_and,
          Option.some.injEq]
        constructor
        · intro taken
          split at taken
          · rename_i opened
            obtain rfl := Option.some.inj taken
            exact ⟨rfl, opened⟩
          · cases taken
        · rintro ⟨rfl, opened⟩
          rw [if_pos opened]
      · rename_i none
        simp [none]
    · rename_i off
      simp [off]

/-- To register a sink at an open manager puts it at the end of the list, and changes nothing else. -/
theorem register_open (leads : door.LeadsTo s m) (opened : s.isOpen m = true) (sink : Sink) :
    (door.register s sink).world = s.world ∧ (door.register s sink).ids m = s.ids m ++ [sink.id] ∧
      door.LeadsTo (door.register s sink) m ∧ (door.register s sink).isOpen m = true := by
  have registered : door.register s sink = (s.register m sink true).2 := by
    cases door with
    | manager n =>
      obtain rfl : n = m := leads
      rfl
    | process => simp only [register, System.registerInstance, leads.2]
  cases found : s.managers[m]? with
  | none => simp [System.isOpen, found] at opened
  | some manager =>
    have bound := (List.getElem?_eq_some_iff.mp found).1
    simp only [System.isOpen, found, Manager.isOpen, Bool.and_eq_true, Bool.not_eq_true', decide_eq_true_eq] at opened
    obtain ⟨⟨on, _⟩, used⟩ := opened
    have longer : door.register s sink = s.setManager m
        { manager with sinks := manager.sinks ++ [sink], count := (manager.sinks ++ [sink]).length } := by
      rw [registered]
      simp [System.register, found, used]
    rw [longer]
    refine ⟨rfl, ?_, ?_, ?_⟩
    · rw [System.ids_setManager found, if_pos rfl, System.ids_of found, List.map_append]
      rfl
    · cases door with
      | manager n => exact leads
      | process => exact leads
    · simp only [System.isOpen, System.setManager, List.getElem?_set_self bound, Manager.isOpen, used,
        List.length_append, List.length_singleton]
      simpa [Manager.enabled] using on

theorem leadsTo_fanOut (leads : door.LeadsTo s m) (c : Call) : door.LeadsTo (s.fanOut m c) m := by
  cases door with
  | manager n => exact leads
  | process =>
    unfold System.fanOut
    split
    · exact leads
    · exact leads

end Door

/-! ## One move -/

namespace Crew

variable {door : Door} {m : Nat} {c : Crew}

/-- Threads at an open manager. Those that have begun to write do so to that manager, nobody writes at the level of the
    manager's own messages, and nobody registers a sink twice. -/
structure Writing (door : Door) (m : Nat) (c : Crew) : Prop where
  leads : door.LeadsTo c.system m
  opened : c.system.isOpen m = true
  phases : ∀ t ∈ c.threads, ∀ n r, t.phase = .taken n r ∨ t.phase = .rendered n r → n = m
  levels : ∀ t ∈ c.threads, ∀ r, Task.write r ∈ t.tasks → r.level ≠ .internal
  distinct : (c.system.ids m ++ c.joiners).Nodup

/-- What a move comes to: the thread is through, or it begins to write, renders its record, hands it out, or registers a
    sink. -/
inductive Moved (door : Door) (m : Nat) (c : Crew) (i : Nat) : Crew → Prop where
  | through (finished : ∀ t, c.threads[i]? = some t → t = ⟨.idle, []⟩) : Moved door m c i c
  | begin (r : Record) (tasks : List Task) (here : c.threads[i]? = some ⟨.idle, .write r :: tasks⟩) :
      Moved door m c i ⟨c.system, c.threads.set i ⟨.taken m r, tasks⟩⟩
  | render (r : Record) (tasks : List Task) (here : c.threads[i]? = some ⟨.taken m r, tasks⟩) :
      Moved door m c i ⟨c.system, c.threads.set i ⟨.rendered m r, tasks⟩⟩
  | send (r : Record) (tasks : List Task) (here : c.threads[i]? = some ⟨.rendered m r, tasks⟩) :
      Moved door m c i ⟨c.system.dispatch m r, c.threads.set i ⟨.idle, tasks⟩⟩
  | join (sink : Sink) (tasks : List Task) (here : c.threads[i]? = some ⟨.idle, .register sink :: tasks⟩) :
      Moved door m c i ⟨door.register c.system sink, c.threads.set i ⟨.idle, tasks⟩⟩

theorem Writing.moved (w : Writing door m c) (i : Nat) : Moved door m c i (c.move door i) := by
  cases here : c.threads[i]? with
  | none =>
    have same : c.move door i = c := by simp only [move, here]
    rw [same]
    apply Moved.through
    intro t there
    rw [here] at there
    cases there
  | some t =>
    have member := List.mem_of_getElem? here
    obtain ⟨phase, tasks⟩ := t
    cases phase with
    | taken n r =>
      obtain rfl := w.phases _ member n r (.inl rfl)
      simpa only [move, here, Thread.move] using Moved.render r tasks here
    | rendered n r =>
      obtain rfl := w.phases _ member n r (.inr rfl)
      simpa only [move, here, Thread.move] using Moved.send r tasks here
    | idle =>
      cases tasks with
      | nil =>
        have same : c.move door i = c := by
          obtain ⟨_, found⟩ := List.getElem?_eq_some_iff.mp here
          simp only [move, here, Thread.move]
          rw [← found, List.set_getElem_self]
        rw [same]
        apply Moved.through
        intro t there
        exact Option.some.inj (there.symm.trans here)
      | cons task rest =>
        cases task with
        | register sink => simpa only [move, here, Thread.move] using Moved.join sink rest here
        | write r =>
          -- The manager is open, so the record is let in.
          have taken := (Door.taker_eq (w.levels _ member r List.mem_cons_self)).mpr ⟨w.leads, w.opened⟩
          simpa only [move, here, Thread.move, taken] using Moved.begin r rest here

section Moved

variable {i : Nat} {c' : Crew}

/-- A thread that is through hands out nothing and registers nobody. -/
theorem block_of_through (finished : ∀ t, c.threads[i]? = some t → t = ⟨.idle, []⟩) : c.block i = [] ∧ c.joining i = [] := by
  unfold block joining
  cases here : c.threads[i]? with
  | none => exact ⟨rfl, rfl⟩
  | some t =>
    obtain rfl := finished t here
    exact ⟨rfl, rfl⟩

theorem Moved.journal (moved : Moved door m c i c') (w : Writing door m c) :
    c'.system.world.journal = c.system.world.journal ++ (c.block i).flatMap Block.events := by
  cases moved with
  | through finished => rw [(block_of_through finished).1, List.flatMap_nil, List.append_nil]
  | begin r tasks here => simp [block, here]
  | render r tasks here => simp [block, here]
  | send r tasks here =>
    show (c.system.fanOut m (.write r)).world.journal = _
    simp only [System.fanOut_journal, block, here, List.flatMap_singleton, Block.events]
  | join sink tasks here =>
    rw [(Door.register_open w.leads w.opened sink).1]
    simp [block, here]

theorem Moved.list (moved : Moved door m c i c') (w : Writing door m c) :
    c'.system.ids m = c.system.ids m ++ c.joining i := by
  cases moved with
  | through finished => rw [(block_of_through finished).2, List.append_nil]
  | begin r tasks here => simp [joining, here]
  | render r tasks here => simp [joining, here]
  | send r tasks here =>
    show (c.system.fanOut m (.write r)).ids m = _
    simp [System.ids_fanOut, joining, here]
  | join sink tasks here =>
    rw [(Door.register_open w.leads w.opened sink).2.1]
    simp only [joining, here]

theorem Moved.block (moved : Moved door m c i c') {b : Block} (member : b ∈ c.block i) :
    b.thread = i ∧ b.ids = c.system.ids m := by
  cases moved with
  | through finished => simp [(block_of_through finished).1] at member
  | begin r tasks here => simp [Crew.block, here] at member
  | render r tasks here => simp [Crew.block, here] at member
  | send r tasks here =>
    simp only [Crew.block, here, List.mem_singleton] at member
    subst member
    exact ⟨rfl, rfl⟩
  | join sink tasks here => simp [Crew.block, here] at member

/-- What a move takes off the thread that makes it. -/
structure Turn (m : Nat) (c : Crew) (i : Nat) (old new : Thread) : Prop where
  ahead : (c.block i).map Block.record ++ new.ahead = old.ahead
  joins : c.joining i ++ new.joins = old.joins
  turns : new.turns + 1 = old.turns
  phase : ∀ n r, new.phase = .taken n r ∨ new.phase = .rendered n r → n = m
  tasks : ∀ task ∈ new.tasks, task ∈ old.tasks

/-- A move either finds its thread through, or is a turn of it. -/
theorem Moved.turn (moved : Moved door m c i c') :
    (c' = c ∧ c.block i = [] ∧ c.joining i = [] ∧ ∀ t, c.threads[i]? = some t → t.turns = 0) ∨
      ∃ old new, c.threads[i]? = some old ∧ c'.threads = c.threads.set i new ∧ Turn m c i old new := by
  cases moved with
  | through finished =>
    obtain ⟨block, joining⟩ := block_of_through finished
    refine .inl ⟨rfl, block, joining, ?_⟩
    intro t here
    rw [finished t here]
    rfl
  | begin r tasks here =>
    refine .inr ⟨_, ⟨.taken m r, tasks⟩, here, rfl, ?_, ?_, ?_, ?_, fun _ => List.mem_cons_of_mem _⟩
    · simp [Crew.block, here, Thread.ahead, Phase.records, Task.records]
    · simp [joining, here, Thread.joins, Task.sinks]
    · simp only [Thread.turns, Phase.turns, List.map_cons, Task.turns, List.sum_cons]
      omega
    · intro n r' phase
      obtain phase | phase := phase
      · cases phase
        rfl
      · cases phase
  | render r tasks here =>
    refine .inr ⟨_, ⟨.rendered m r, tasks⟩, here, rfl, ?_, ?_, ?_, ?_, fun _ member => member⟩
    · simp [Crew.block, here, Thread.ahead, Phase.records]
    · simp [joining, here, Thread.joins]
    · simp only [Thread.turns, Phase.turns]
      omega
    · intro n r' phase
      obtain phase | phase := phase
      · cases phase
      · cases phase
        rfl
  | send r tasks here =>
    refine .inr ⟨_, ⟨.idle, tasks⟩, here, rfl, ?_, ?_, ?_, ?_, fun _ member => member⟩
    · simp [Crew.block, here, Thread.ahead, Phase.records]
    · simp [joining, here, Thread.joins]
    · simp only [Thread.turns, Phase.turns]
      omega
    · intro n r' phase
      obtain phase | phase := phase
      · cases phase
      · cases phase
  | join sink tasks here =>
    refine .inr ⟨_, ⟨.idle, tasks⟩, here, rfl, ?_, ?_, ?_, ?_, fun _ => List.mem_cons_of_mem _⟩
    · simp [Crew.block, here, Thread.ahead, Phase.records, Task.records]
    · simp [joining, here, Thread.joins, Task.sinks]
    · simp only [Thread.turns, Phase.turns, List.map_cons, Task.turns, List.sum_cons]
      omega
    · intro n r' phase
      obtain phase | phase := phase
      · cases phase
      · cases phase

/-- A move makes one turn of its thread, which hands out the first of its records or none; the others stay as they are. -/
theorem Moved.thread (moved : Moved door m c i c') {j : Nat} {t : Thread} (found : c.threads[j]? = some t) :
    ∃ t', c'.threads[j]? = some t' ∧
      ((c.block i).filter fun b => decide (b.thread = j)).map Block.record ++ t'.ahead = t.ahead ∧
      t'.turns = t.turns - if i = j then 1 else 0 := by
  obtain ⟨rfl, block, _, finished⟩ | ⟨old, new, here, threads, turn⟩ := moved.turn
  · refine ⟨t, found, by rw [block]; rfl, ?_⟩
    split
    · rename_i same
      have := finished t (same ▸ found)
      omega
    · rfl
  · rw [threads]
    by_cases same : i = j
    · subst same
      obtain rfl := Option.some.inj (found.symm.trans here)
      have own : ((c.block i).filter fun b => decide (b.thread = i)) = c.block i := by
        apply List.filter_eq_self.mpr
        intro b member
        exact decide_eq_true (moved.block member).1
      refine ⟨new, List.getElem?_set_self (List.getElem?_eq_some_iff.mp here).1, ?_, ?_⟩
      · rw [own, turn.ahead]
      · rw [if_pos rfl, ← turn.turns]
        rfl
    · have none : ((c.block i).filter fun b => decide (b.thread = j)) = [] := by
        apply List.filter_eq_nil_iff.mpr
        intro b member
        rw [(moved.block member).1, decide_eq_true_eq]
        exact same
      refine ⟨t, (List.getElem?_set_ne same).trans found, ?_, ?_⟩
      · rw [none]
        rfl
      · rw [if_neg same]
        rfl

theorem Moved.length (moved : Moved door m c i c') : c'.threads.length = c.threads.length := by
  obtain ⟨rfl, _⟩ | ⟨_, _, _, threads, _⟩ := moved.turn
  · rfl
  · rw [threads, List.length_set]

theorem Moved.joiners (moved : Moved door m c i c') (k : Nat) :
    (c.joining i).count k + c'.joiners.count k = c.joiners.count k := by
  obtain ⟨rfl, _, none, _⟩ | ⟨old, new, here, threads, turn⟩ := moved.turn
  · rw [none, List.count_nil, Nat.zero_add]
  · have row := System.count_flatMap_set Thread.joins k here new
    rw [← turn.joins, ← threads, List.count_append] at row
    simp only [Crew.joiners]
    omega

/-- Nobody has closed the manager, and no sink has come twice. -/
theorem Moved.writing (moved : Moved door m c i c') (w : Writing door m c) : Writing door m c' := by
  have list := moved.list w
  have manager : door.LeadsTo c'.system m ∧ c'.system.isOpen m = true := by
    cases moved with
    | send r tasks here =>
      exact ⟨Door.leadsTo_fanOut w.leads (.write r), (System.isOpen_fanOut m (.write r)).trans w.opened⟩
    | join sink tasks here =>
      obtain ⟨_, _, leads, opened⟩ := Door.register_open w.leads w.opened sink
      exact ⟨leads, opened⟩
    | _ => exact ⟨w.leads, w.opened⟩
  obtain ⟨rfl, _⟩ | ⟨old, new, here, threads, turn⟩ := moved.turn
  · exact w
  · have member : ∀ t ∈ c'.threads, t ∈ c.threads ∨ t = new := by
      rw [threads]
      intro t member
      exact List.mem_or_eq_of_mem_set member
    refine ⟨manager.1, manager.2, ?_, ?_, ?_⟩
    · intro t listed n r phase
      obtain before | rfl := member t listed
      · exact w.phases t before n r phase
      · exact turn.phase n r phase
    · intro t listed r task
      obtain before | rfl := member t listed
      · exact w.levels t before r task
      · exact w.levels old (List.mem_of_getElem? here) r (turn.tasks _ task)
    · -- A sink that is registered goes over from those to come to the list, so each is counted as before.
      apply List.nodup_iff_count.mpr
      intro k
      have before := List.nodup_iff_count.mp w.distinct k
      have once := moved.joiners k
      rw [list]
      simp only [List.count_append] at before ⊢
      omega

end Moved

/-! ## A schedule -/

/-- What a schedule adds to the journal is its blocks, one after the other. -/
theorem Writing.run_journal (w : Writing door m c) (schedule : List Nat) :
    (c.run door schedule).system.world.journal =
      c.system.world.journal ++ (c.blocks door schedule).flatMap Block.events := by
  induction schedule generalizing c with
  | nil => exact (List.append_nil _).symm
  | cons i rest ih =>
    have moved := w.moved i
    calc (c.run door (i :: rest)).system.world.journal
        = (c.move door i).system.world.journal ++ ((c.move door i).blocks door rest).flatMap Block.events :=
          ih (moved.writing w)
      _ = c.system.world.journal ++ (c.block i ++ (c.move door i).blocks door rest).flatMap Block.events := by
          rw [moved.journal w, List.flatMap_append, List.append_assoc]

/-- The list of the manager grows by the sinks that are registered, in the order in which they are. -/
theorem Writing.run_list (w : Writing door m c) (schedule : List Nat) :
    (c.run door schedule).system.ids m = c.system.ids m ++ c.joined door schedule := by
  induction schedule generalizing c with
  | nil => exact (List.append_nil _).symm
  | cons i rest ih =>
    have moved := w.moved i
    calc (c.run door (i :: rest)).system.ids m
        = (c.move door i).system.ids m ++ (c.move door i).joined door rest := ih (moved.writing w)
      _ = c.system.ids m ++ (c.joining i ++ (c.move door i).joined door rest) := by
          rw [moved.list w, List.append_assoc]

theorem Writing.run_length (w : Writing door m c) (schedule : List Nat) :
    (c.run door schedule).threads.length = c.threads.length := by
  induction schedule generalizing c with
  | nil => rfl
  | cons i rest ih => exact (ih ((w.moved i).writing w)).trans (w.moved i).length

theorem Writing.run_joiners (w : Writing door m c) (schedule : List Nat) (k : Nat) :
    (c.joined door schedule).count k + (c.run door schedule).joiners.count k = c.joiners.count k := by
  induction schedule generalizing c with
  | nil => exact Nat.zero_add _
  | cons i rest ih =>
    have moved := w.moved i
    have first := moved.joiners k
    have more := ih (moved.writing w)
    rw [joined, List.count_append]
    show _ + ((c.move door i).run door rest).joiners.count k = _
    omega

/-- A block is made by a turn of its thread, and goes to the sinks of that moment. -/
theorem Writing.blocks_ids (w : Writing door m c) (schedule : List Nat) {b : Block}
    (member : b ∈ c.blocks door schedule) :
    ∃ p q, schedule = p ++ b.thread :: q ∧ b.ids = (c.run door p).system.ids m := by
  induction schedule generalizing c with
  | nil => cases member
  | cons i rest ih =>
    have moved := w.moved i
    obtain here | later := List.mem_append.mp member
    · obtain ⟨rfl, ids⟩ := moved.block here
      exact ⟨[], rest, rfl, ids⟩
    · obtain ⟨p, q, split, ids⟩ := ih (moved.writing w) later
      exact ⟨i :: p, q, congrArg (i :: ·) split, ids⟩

/-- A thread hands out the first of its records, in its order, and makes as many moves as it has turns. -/
theorem Writing.run_thread (w : Writing door m c) (schedule : List Nat) {j : Nat} {t : Thread}
    (found : c.threads[j]? = some t) :
    ∃ t', (c.run door schedule).threads[j]? = some t' ∧
      ((c.blocks door schedule).filter fun b => decide (b.thread = j)).map Block.record ++ t'.ahead = t.ahead ∧
      t'.turns = t.turns - schedule.count j := by
  induction schedule generalizing c t with
  | nil => exact ⟨t, found, rfl, rfl⟩
  | cons i rest ih =>
    have moved := w.moved i
    obtain ⟨t₁, found₁, ahead₁, turns₁⟩ := moved.thread found
    obtain ⟨t₂, found₂, ahead₂, turns₂⟩ := ih (moved.writing w) found₁
    refine ⟨t₂, found₂, ?_, ?_⟩
    · rw [blocks, List.filter_append, List.map_append, List.append_assoc, ahead₂, ahead₁]
    · rw [turns₂, turns₁, List.count_cons]
      simp only [beq_iff_eq]
      omega

theorem Writing.ids_nodup (w : Writing door m c) : (c.system.ids m).Nodup :=
  (List.nodup_append.mp w.distinct).1

/-- A sink that is there from the start receives the record of every block. -/
theorem Writing.callsOn_early (w : Writing door m c) (schedule : List Nat) {k : Nat} (early : k ∈ c.system.ids m) :
    callsOn k ((c.blocks door schedule).flatMap Block.events) =
      (c.blocks door schedule).map fun b => .write b.record := by
  induction schedule generalizing c with
  | nil => rfl
  | cons i rest ih =>
    have moved := w.moved i
    have still : k ∈ (c.move door i).system.ids m := by
      rw [moved.list w]
      exact List.mem_append_left _ early
    have first := callsOn_blocks w.ids_nodup (fun b member => (moved.block member).2) k
    rw [if_pos early] at first
    rw [blocks, List.flatMap_append, callsOn_append, List.map_append, first, ih (moved.writing w) still]

/-- A sink that is there in the end, whenever it has come, has received the records of the last blocks. -/
theorem Writing.callsOn_late (w : Writing door m c) (schedule : List Nat) {k : Nat}
    (there : k ∈ (c.run door schedule).system.ids m) :
    callsOn k ((c.blocks door schedule).flatMap Block.events) <:+
      (c.blocks door schedule).map fun b => .write b.record := by
  induction schedule generalizing c with
  | nil => exact List.suffix_refl _
  | cons i rest ih =>
    by_cases early : k ∈ c.system.ids m
    · exact ⟨[], w.callsOn_early (i :: rest) early⟩
    · -- It is not there yet, so the block of this move passes it by.
      have moved := w.moved i
      have first := callsOn_blocks w.ids_nodup (fun b member => (moved.block member).2) k
      rw [if_neg early] at first
      have later := ih (moved.writing w) there
      rw [blocks, List.flatMap_append, callsOn_append, List.map_append, first, List.nil_append]
      exact later.trans (List.suffix_append _ _)

/-! ## When everybody is through -/

theorem eq_of_no_turns {t : Thread} (finished : t.turns = 0) : t = ⟨.idle, []⟩ := by
  obtain ⟨phase, tasks⟩ := t
  obtain ⟨idle, none⟩ := Nat.add_eq_zero_iff.mp finished
  cases phase with
  | idle =>
    cases tasks with
    | nil => rfl
    | cons task rest => cases task <;> simp [Task.turns] at none
  | _ => cases idle

theorem Writing.thread_lt (w : Writing door m c) {schedule : List Nat} {b : Block}
    (member : b ∈ c.blocks door schedule) : b.thread < c.threads.length := by
  induction schedule generalizing c with
  | nil => cases member
  | cons i rest ih =>
    have moved := w.moved i
    obtain here | later := List.mem_append.mp member
    · obtain ⟨rfl, _⟩ := moved.block here
      obtain ⟨_, none, _⟩ | ⟨_, _, found, _⟩ := moved.turn
      · rw [none] at here
        cases here
      · exact (List.getElem?_eq_some_iff.mp found).1
    · exact moved.length ▸ ih (moved.writing w) later

theorem Writing.joined_nil (w : Writing door m c) (nobody : c.joiners = []) (schedule : List Nat) :
    c.joined door schedule = [] := by
  apply List.eq_nil_iff_forall_not_mem.mpr
  intro k member
  have once := w.run_joiners schedule k
  have := List.count_pos_iff.mpr member
  rw [nobody, List.count_nil] at once
  omega

/-- A schedule gives everybody its turns. -/
def Through (c : Crew) (schedule : List Nat) : Prop :=
  ∀ i t, c.threads[i]? = some t → t.turns ≤ schedule.count i

/-- A thread that has had its turns has handed out all of its records, once and in its order. -/
theorem Writing.records_of_through (w : Writing door m c) {schedule : List Nat} (through : c.Through schedule) {i : Nat}
    {t : Thread} (found : c.threads[i]? = some t) :
    ((c.blocks door schedule).filter fun b => decide (b.thread = i)).map Block.record = t.ahead := by
  obtain ⟨t', _, ahead, turns⟩ := w.run_thread schedule found
  have finished : t'.turns = 0 := by
    have := through i t found
    omega
  rw [eq_of_no_turns finished] at ahead
  exact (List.append_nil _).symm.trans ahead

/-- When everybody has had its turns, every sink that was to be registered is. -/
theorem Writing.joined_perm (w : Writing door m c) {schedule : List Nat} (through : c.Through schedule) :
    (c.joined door schedule).Perm c.joiners := by
  have nobody : (c.run door schedule).joiners = [] := by
    apply List.flatMap_eq_nil_iff.mpr
    intro t' member
    obtain ⟨i, bound, found⟩ := List.getElem_of_mem member
    rw [w.run_length] at bound
    obtain ⟨t, there, _, turns⟩ := w.run_thread schedule (List.getElem?_eq_getElem bound)
    have finished : t.turns = 0 := by
      have := through i _ (List.getElem?_eq_getElem bound)
      omega
    obtain ⟨_, found'⟩ := List.getElem?_eq_some_iff.mp there
    rw [← found, found', eq_of_no_turns finished]
    rfl
  apply List.perm_iff_count.mpr
  intro k
  have once := w.run_joiners schedule k
  rwa [nobody, List.count_nil, Nat.add_zero] at once

/-- When everybody has had its turns, the blocks are a merge of what the threads write. -/
theorem Writing.isMerge (w : Writing door m c) {schedule : List Nat} (through : c.Through schedule) :
    IsMerge (c.threads.map Thread.ahead) ((c.blocks door schedule).map Block.record) := by
  refine ⟨(c.blocks door schedule).map fun b => (b.thread, b.record), by rw [List.map_map]; rfl, ?_, ?_⟩
  · intro e member
    obtain ⟨b, made, rfl⟩ := List.mem_map.mp member
    rw [List.length_map]
    exact w.thread_lt made
  · intro i list found
    rw [List.getElem?_map] at found
    obtain ⟨t, there, rfl⟩ := Option.map_eq_some_iff.mp found
    rw [List.filter_map, List.map_map]
    exact w.records_of_through through there

end Crew

/-- Threads write to a manager and register sinks there, in any schedule. The manager is behind the door, open and with a
    sink; nobody has begun, nobody writes at the level of the manager's own messages, and no sink comes twice.

    The journal grows by the blocks of the schedule, one after the other. Each is made by a turn of its thread and goes to
    the sinks registered by then, in their order. Every thread hands out the first of its records, in its order, and has
    used up as many turns as it had. A sink that was there from the start receives every block; one that is there in the
    end has received the last of them. When everybody has had its turns, the blocks are a merge of what the threads write:
    each thread has handed out all its records, and to every sink of the start. All sinks are registered by then, each
    once; if there are none, there are as many calls as records times sinks. -/
theorem schedules (door : Door) (m : Nat) (c : Crew) (schedule : List Nat)
    (takes : door.taker c.system .always = .ok (some m)) (fresh : ∀ t ∈ c.threads, t.phase = .idle)
    (levels : ∀ t ∈ c.threads, ∀ r, Task.write r ∈ t.tasks → r.level ≠ .internal)
    (distinct : (c.system.ids m ++ c.joiners).Nodup) :
    let blocks := c.blocks door schedule
    let after := c.run door schedule
    let since := c.system.since after.system
    since = blocks.flatMap Block.events ∧
    (∀ b ∈ blocks, ∃ p q, schedule = p ++ b.thread :: q ∧ b.ids = c.system.ids m ++ c.joined door p) ∧
    (∀ i t, c.threads[i]? = some t → ∃ t', after.threads[i]? = some t' ∧ t'.turns = t.turns - schedule.count i ∧
      (blocks.filter fun b => decide (b.thread = i)).map Block.record ++ t'.ahead = t.ahead) ∧
    (∀ k ∈ c.system.ids m, callsOn k since = blocks.map fun b => .write b.record) ∧
    (∀ k ∈ after.system.ids m, callsOn k since <:+ blocks.map fun b => .write b.record) ∧
    (c.Through schedule →
      IsMerge (c.threads.map Thread.ahead) (blocks.map Block.record) ∧
      (c.joined door schedule).Perm c.joiners ∧
      (∀ i t, c.threads[i]? = some t → ∀ k ∈ c.system.ids m,
        (blocks.filter fun b => decide (b.thread = i ∧ k ∈ b.ids)).map Block.record = t.ahead) ∧
      (c.joiners = [] →
        since.length = (c.threads.map fun t => t.ahead.length).sum * (c.system.ids m).length)) := by
  intro blocks after since
  obtain ⟨leads, opened⟩ := (Door.taker_eq (by decide)).mp takes
  have w : Crew.Writing door m c := by
    refine ⟨leads, opened, ?_, levels, distinct⟩
    intro t member n r phase
    rw [fresh t member] at phase
    obtain phase | phase := phase
    · cases phase
    · cases phase
  have journal : since = blocks.flatMap Block.events := by
    show after.system.world.journal.drop c.system.world.journal.length = _
    rw [w.run_journal schedule, List.drop_left]
  have ids : ∀ b ∈ blocks, ∃ p q, schedule = p ++ b.thread :: q ∧ b.ids = c.system.ids m ++ c.joined door p := by
    intro b member
    obtain ⟨p, q, split, ids⟩ := w.blocks_ids schedule member
    exact ⟨p, q, split, ids.trans (w.run_list p)⟩
  have early : ∀ b ∈ blocks, ∀ k ∈ c.system.ids m, k ∈ b.ids := by
    intro b member k there
    obtain ⟨p, _, _, list⟩ := ids b member
    rw [list]
    exact List.mem_append_left _ there
  refine ⟨journal, ids, ?_, ?_, ?_, ?_⟩
  · intro i t found
    obtain ⟨t', there, ahead, turns⟩ := w.run_thread schedule found
    exact ⟨t', there, turns, ahead⟩
  · intro k there
    rw [journal]
    exact w.callsOn_early schedule there
  · intro k there
    rw [journal]
    exact w.callsOn_late schedule there
  · intro through
    have merge := w.isMerge through
    refine ⟨merge, w.joined_perm through, ?_, ?_⟩
    · intro i t found k there
      rw [← w.records_of_through through found]
      congr 1
      apply List.filter_congr
      intro b member
      exact decide_eq_decide.mpr (and_iff_left (early b member k there))
    · intro nobody
      have stay : ∀ b ∈ blocks, b.events.length = (c.system.ids m).length := by
        intro b member
        obtain ⟨p, _, _, list⟩ := ids b member
        rw [Block.events, List.length_map, list, w.joined_nil nobody p, List.append_nil]
      calc since.length
          = (blocks.map fun b => b.events.length).sum := by rw [journal, List.length_flatMap]
        _ = (blocks.map fun _ => (c.system.ids m).length).sum := by rw [List.map_congr_left stay]
        _ = (blocks.map Block.record).length * (c.system.ids m).length := by
            rw [List.map_const', List.sum_replicate_nat, List.length_map]
        _ = (c.threads.map fun t => t.ahead.length).sum * (c.system.ids m).length := by
            rw [merge.length, List.map_map]
            rfl

/-- Two threads that write, and one that registers a sink between the check of the first and its fan-out. -/
theorem schedules_joined :
    let s := ((Op.make "m" (.built (.probe "p" true))).run (.fresh "T")).2
    let c : Crew := ⟨s, [.ofTasks [.write ⟨.info, none, "x"⟩], .ofTasks [.write ⟨.error, none, "y"⟩],
      .ofTasks [.register ⟨1, .probe⟩]]⟩
    let schedule := [0, 1, 1, 1, 2, 0, 0]
    c.Through schedule ∧ c.joined (.manager 0) schedule = [1] ∧
      c.blocks (.manager 0) schedule = [⟨1, ⟨.error, none, "y"⟩, [0]⟩, ⟨0, ⟨.info, none, "x"⟩, [0, 1]⟩] ∧
      IsMerge (c.threads.map Thread.ahead) ((c.blocks (.manager 0) schedule).map Block.record) := by
  intro s c schedule
  have levels : ∀ t ∈ c.threads, ∀ r, Task.write r ∈ t.tasks → r.level ≠ .internal := by
    simp [c, Thread.ofTasks]
  have through : c.Through schedule := by
    intro i t found
    obtain _ | _ | _ | i := i
    · cases found
      decide
    · cases found
      decide
    · cases found
      decide
    · cases found
  obtain ⟨_, _, _, _, _, all⟩ := schedules (.manager 0) 0 c schedule rfl (by decide) levels (by decide)
  exact ⟨through, by decide, by decide, (all through).1⟩

end LogFanout
