import LogFanout.Proofs.FanOut

/- Memory sinks in a list.

   A memory sink stores what its calls say (`MemorySink.stored`), and the level it saves at is the last that its calls
   have given (`MemorySink.after`). Every memory sink has a buffer of its own, under its number. So a call on all sinks
   of a list does to each memory sink among them what it would do to that sink alone (`World.deliver_memory`), and
   leaves all other buffers as they are. -/
namespace LogFanout

/-! ## What calls store -/

namespace MemorySink

def after : List Call → MemorySink → MemorySink
  | [], m => m
  | c :: rest, m => after rest (m.receive c []).1

def stored : List Call → MemorySink → List String
  | [], _ => []
  | c :: rest, m => (m.receive c []).2 ++ stored rest (m.receive c []).1

/-- A call puts lines behind those that are there, and what it does to the sink does not depend on them. -/
theorem receive_eq (c : Call) (m : MemorySink) (lines : List String) :
    m.receive c lines = ((m.receive c []).1, lines ++ (m.receive c []).2) := by
  cases c with
  | write r =>
    simp only [receive]
    split <;> simp
  | _ => simp [receive]

@[simp] theorem after_append (a b : List Call) (m : MemorySink) : after (a ++ b) m = after b (after a m) := by
  induction a generalizing m with
  | nil => rfl
  | cons c rest ih => exact ih _

@[simp] theorem stored_append (a b : List Call) (m : MemorySink) :
    stored (a ++ b) m = stored a m ++ stored b (after a m) := by
  induction a generalizing m with
  | nil => rfl
  | cons c rest ih => simp only [List.cons_append, stored, after, ih, List.append_assoc]

end MemorySink

/-! ## Calls on lists of sinks -/

namespace World

/-- A call on a memory sink puts what it stores behind what is in the buffer. -/
theorem receive_memory (w : World) (k : Nat) (mem : MemorySink) (c : Call) :
    w.receive ⟨k, .memory mem⟩ c = (⟨k, .memory (mem.receive c []).1⟩,
      { w.record (.called k c) with buffers := w.buffers.put k (w.buffer k ++ (mem.receive c []).2) }) := by
  simp only [receive, act]
  rw [MemorySink.receive_eq]
  rfl

theorem act_buffer_other {k : Nat} {sink : Sink} (other : sink.id ≠ k) (c : Call) (w : World) :
    (w.act sink c).2.buffer k = w.buffer k := by
  unfold act
  split
  · rfl
  · simp [buffer, Table.get?_put, other]
  · rfl

theorem deliver_buffer_other {k : Nat} {sinks : List Sink} (other : k ∉ sinks.map Sink.id) (c : Call) (w : World) :
    (deliver c sinks w).2.buffer k = w.buffer k := by
  induction sinks generalizing w with
  | nil => rfl
  | cons sink rest ih =>
    simp only [List.map_cons, List.mem_cons, not_or] at other
    calc (deliver c (sink :: rest) w).2.buffer k
        = (w.receive sink c).2.buffer k := ih other.2 _
      _ = w.buffer k := act_buffer_other (Ne.symm other.1) c (w.record (.called sink.id c))

/-- A call on a list of different sinks reaches a memory sink among them once, with its own buffer. -/
theorem deliver_memory {sinks : List Sink} (distinct : (sinks.map Sink.id).Nodup) {sink : Sink} {mem : MemorySink}
    (member : sink ∈ sinks) (body : sink.body = .memory mem) (c : Call) (w : World) :
    ⟨sink.id, .memory (mem.receive c (w.buffer sink.id)).1⟩ ∈ (deliver c sinks w).1 ∧
      (deliver c sinks w).2.buffer sink.id = (mem.receive c (w.buffer sink.id)).2 := by
  induction sinks generalizing w with
  | nil => cases member
  | cons first rest ih =>
    obtain ⟨once, distinct⟩ := List.nodup_cons.mp distinct
    rcases List.mem_cons.mp member with rfl | member
    · have received : w.receive sink c = (⟨sink.id, .memory (mem.receive c (w.buffer sink.id)).1⟩,
          { w.record (.called sink.id c) with buffers := w.buffers.put sink.id (mem.receive c (w.buffer sink.id)).2 }) := by
        simp only [receive, act, body]
        rfl
      refine ⟨?_, ?_⟩
      · simp [deliver, received]
      · simp only [deliver, received]
        rw [deliver_buffer_other once]
        simp [buffer, Table.get?_put]
    · have other : first.id ≠ sink.id := fun same => once (same ▸ List.mem_map_of_mem member)
      have same : (w.receive first c).2.buffer sink.id = w.buffer sink.id :=
        act_buffer_other other c (w.record (.called first.id c))
      obtain ⟨there, stored⟩ := ih distinct member (w.receive first c).2
      rw [same] at there stored
      exact ⟨List.mem_cons_of_mem _ there, stored⟩

end World

namespace System

variable {s : System}

def sinks (s : System) (m : Nat) : List Sink :=
  match s.managers[m]? with
  | some manager => manager.sinks
  | none => []

theorem ids_eq_sinks (m : Nat) : s.ids m = (s.sinks m).map Sink.id := by
  cases found : s.managers[m]? <;> simp [ids, sinks, found]

theorem sinks_of {m : Nat} {manager : Manager} (found : s.managers[m]? = some manager) : s.sinks m = manager.sinks := by
  simp only [sinks, found]

theorem ids_of_sinks {m : Nat} {sink : Sink} (member : sink ∈ s.sinks m) : sink.id ∈ s.ids m := by
  rw [ids_eq_sinks]
  exact List.mem_map_of_mem member

theorem exists_of_ids {m k : Nat} (here : k ∈ s.ids m) : ∃ sink, sink.id = k ∧ sink ∈ s.sinks m := by
  rw [ids_eq_sinks] at here
  obtain ⟨sink, member, same⟩ := List.mem_map.mp here
  exact ⟨sink, same, member⟩

theorem sinks_newcomer {t : System} {newcomer : Manager} (managers : t.managers = s.managers ++ [newcomer]) {m : Nat}
    {sink : Sink} (member : sink ∈ t.sinks m) : sink ∈ s.sinks m ∨ sink ∈ newcomer.sinks := by
  by_cases known : m < s.managers.length
  · refine .inl ?_
    simpa only [sinks, managers, List.getElem?_append_left known] using member
  · cases found : t.managers[m]? with
    | none => simp [sinks, found] at member
    | some manager =>
      rw [sinks_of found] at member
      rw [managers, List.getElem?_append_right (Nat.not_lt.mp known)] at found
      cases List.mem_singleton.mp (List.mem_of_getElem? found)
      exact .inr member

theorem sinks_setManager {m : Nat} {old : Manager} (found : s.managers[m]? = some old) (new : Manager) (n : Nat) :
    (s.setManager m new).sinks n = if m = n then new.sinks else s.sinks n := by
  have bound := (List.getElem?_eq_some_iff.mp found).1
  by_cases same : m = n
  · subst same
    simp [sinks, setManager, bound]
  · simp [sinks, setManager, same]

theorem sinks_setSwitch (m : Nat) (on : Bool) (n : Nat) : (s.setSwitch m on).sinks n = s.sinks n := by
  unfold setSwitch
  split
  · rfl
  · rename_i manager found
    split
    · rfl
    · rw [sinks_setManager found]
      split
      · rename_i same
        rw [← same, sinks_of found]
      · rfl

theorem sinks_fanOut_other {m n : Nat} (other : n ≠ m) (c : Call) : (s.fanOut n c).sinks m = s.sinks m := by
  cases found : s.managers[n]? with
  | none => simp only [fanOut, found]
  | some manager =>
    rw [fanOut_some found]
    exact (sinks_setManager (s := { s with world := _ }) found _ m).trans (if_neg other)

/-- A call on all sinks of a manager does to each memory sink what the call does to it. -/
theorem fanOut_memory {m : Nat} (distinct : (s.ids m).Nodup) {sink : Sink} {mem : MemorySink} (member : sink ∈ s.sinks m)
    (body : sink.body = .memory mem) (c : Call) :
    ⟨sink.id, .memory (mem.receive c (s.world.buffer sink.id)).1⟩ ∈ (s.fanOut m c).sinks m ∧
      (s.fanOut m c).world.buffer sink.id = (mem.receive c (s.world.buffer sink.id)).2 := by
  rw [ids_eq_sinks] at distinct
  cases found : s.managers[m]? with
  | none => simp [sinks, found] at member
  | some manager =>
    have list := (sinks_setManager (s := { s with world := (World.deliver c manager.sinks s.world).2 }) found
      { manager with sinks := (World.deliver c manager.sinks s.world).1 } m).trans (if_pos rfl)
    rw [sinks_of found] at distinct member
    rw [fanOut_some found, list]
    exact World.deliver_memory distinct member body c s.world

theorem isOpen_fanOut (m : Nat) (c : Call) : (s.fanOut m c).isOpen m = s.isOpen m := by
  cases found : s.managers[m]? with
  | none => simp only [fanOut, found]
  | some manager =>
    have bound := (List.getElem?_eq_some_iff.mp found).1
    rw [fanOut_some found]
    simp only [isOpen, found, setManager, List.getElem?_set_self bound]
    rfl

end System

end LogFanout
