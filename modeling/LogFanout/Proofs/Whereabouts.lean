import LogFanout.Proofs.Held
import LogFanout.Proofs.Memory
import Mathlib.Data.List.Nodup

/- Whereabouts of memory sinks.

   A sink is in hand, in the list of a manager, or under a name (`System.Has`), and that once (`Accounted.has_unique`). What
   is said of a memory sink is therefore said wherever it is (`System.Bears`). Changes that only move sinks bring none, and
   so leave each in its state; changes that call sinks change the state of those. So the state of a memory sink follows
   its calls from place to place, from the moment it is built (`Change.bears`). -/
namespace LogFanout
namespace System

variable {s t : System} {x : Loaded} {m k : Nat} {mem : MemorySink} {one other : Sink}

/-! ## Where a sink is -/

def Has (sink : Sink) (x : Loaded) : Prop :=
  sink ∈ x.1 ∨ (∃ m, sink ∈ x.2.sinks m) ∨ ∃ name, x.2.held.get? name = some sink

/-- Two sinks with one number are one. -/
theorem Accounted.has_unique (h : Accounted x) (here : Has one x) (there : Has other x) (same : one.id = other.id) :
    one = other := by
  obtain ⟨hand, s⟩ := x
  obtain inHand | ⟨m, list⟩ | ⟨name, held⟩ := here
  · obtain inHand' | ⟨n, list'⟩ | ⟨name', held'⟩ := there
    · have distinct : (hand.map Sink.id).Nodup := by
        apply List.nodup_iff_count.mpr
        intro k
        have one := h.places_le_one k
        simp only [places, occurs] at one
        omega
      exact List.inj_on_of_nodup_map distinct inHand inHand' same
    · exact absurd (same ▸ ids_of_sinks list') (h.not_listed_of_hand inHand n)
    · exact absurd same.symm (h.not_held_of_hand inHand held')
  · obtain inHand' | ⟨n, list'⟩ | ⟨name', held'⟩ := there
    · exact absurd (same ▸ ids_of_sinks list) (h.not_listed_of_hand inHand' m)
    · obtain rfl : m = n := by
        refine Decidable.byContradiction fun different => ?_
        exact h.ids_disjoint different (ids_of_sinks list) (same ▸ ids_of_sinks list')
      have distinct := h.ids_nodup m
      rw [ids_eq_sinks] at distinct
      exact List.inj_on_of_nodup_map distinct list list' same
    · exact absurd (same ▸ ids_of_sinks list) (h.not_listed_of_held held' m)
  · obtain inHand' | ⟨n, list'⟩ | ⟨name', held'⟩ := there
    · exact absurd same (h.not_held_of_hand inHand' held)
    · exact absurd (same ▸ ids_of_sinks list') (h.not_listed_of_held held n)
    · by_cases names : name = name'
      · subst names
        exact Option.some.inj (held.symm.trans held')
      · exact absurd same (h.held_once held held' names)

theorem Has.stands (here : Has one x) :
    0 < occurs one.id x.1 + x.2.listed one.id + occurs one.id x.2.held.values := by
  obtain inHand | ⟨m, list⟩ | ⟨name, held⟩ := here
  · have first := occurs_pos inHand (k := one.id) rfl
    omega
  · have second := listed_of_ids (ids_of_sinks list)
    omega
  · have third := occurs_held_pos held
    omega

/-- A sink that has not been built yet is nowhere. -/
theorem Accounted.not_has (h : Accounted x) (unborn : x.2.world.labels.length ≤ one.id) : ¬ Has one x := by
  intro here
  have once := h.once one.id
  have there := here.stands
  rw [if_neg (Nat.not_lt.mpr unborn)] at once
  simp only [places] at once
  omega

theorem Accounted.born (h : Accounted x) (here : Has one x) : one.id < x.2.world.labels.length :=
  Nat.lt_of_not_le fun unborn => h.not_has unborn here

theorem Accounted.not_listed_of_unborn (h : Accounted ([], s)) (unborn : s.world.labels.length ≤ k) (m : Nat) :
    k ∉ s.ids m := by
  intro here
  obtain ⟨sink, rfl, member⟩ := exists_of_ids here
  exact h.not_has unborn (.inr (.inl ⟨m, member⟩))

/-! ## In what state a memory sink is -/

/-- Wherever the sink with a number is, it is a memory sink in a state. -/
def Bears (k : Nat) (mem : MemorySink) (x : Loaded) : Prop := ∀ sink, sink.id = k → Has sink x → sink.body = .memory mem

/-- What brings no sink leaves each in its state. -/
theorem Bears.of_has {x y : Loaded} (bears : Bears k mem x) (old : ∀ sink, sink.id = k → Has sink y → Has sink x) :
    Bears k mem y :=
  fun sink same here => bears sink same (old sink same here)

theorem Accounted.bears (h : Accounted x) (here : Has ⟨k, .memory mem⟩ x) : Bears k mem x := by
  intro sink same there
  rw [h.has_unique there here same]

/-- A sink that has been dropped is nowhere. -/
theorem Accounted.bears_of_dropped (h : Accounted x) (dropped : k ∈ drops x.2.world.journal) (mem : MemorySink) :
    Bears k mem x := by
  intro sink same here
  subst same
  exact absurd dropped (h.not_dropped here.stands)

theorem Accounted.bears_of_unborn (h : Accounted x) (unborn : x.2.world.labels.length ≤ k) (mem : MemorySink) :
    Bears k mem x := by
  intro sink same here
  subst same
  exact absurd here (h.not_has unborn)

theorem Bears.listed {hand : List Sink} (bears : Bears k mem (hand, s)) (here : k ∈ s.ids m) : ⟨k, .memory mem⟩ ∈ s.sinks m := by
  rw [ids_eq_sinks] at here
  obtain ⟨⟨id, body⟩, member, rfl⟩ := List.mem_map.mp here
  obtain rfl : body = .memory mem := bears _ rfl (.inr (.inl ⟨m, member⟩))
  exact member

theorem Bears.held {hand : List Sink} {name : String} {sink : Sink} (bears : Bears k mem (hand, s))
    (found : s.held.get? name = some sink) (same : sink.id = k) : sink = ⟨k, .memory mem⟩ := by
  obtain ⟨id, body⟩ := sink
  obtain rfl : body = .memory mem := bears _ same (.inr (.inr ⟨name, found⟩))
  rw [show id = k from same]

/-! ## Changes -/

theorem Has.of_callHeld {hand : List Sink} {name : String} {sink : Sink} {c : Call}
    (here : Has other (hand, { s with
      world := (s.world.receive sink c).2, held := s.held.put name (s.world.receive sink c).1 }))
    (uncalled : sink.id ≠ other.id) : Has other (hand, s) := by
  obtain inHand | list | ⟨name', held⟩ := here
  · exact .inl inHand
  · exact .inr (.inl list)
  · rw [Table.get?_put] at held
    split at held
    · cases held
      exact absurd (World.receive_id s.world sink c).symm uncalled
    · exact .inr (.inr ⟨name', held⟩)

theorem Bears.callHeld {hand : List Sink} {name : String} {sink : Sink} (bears : Bears k mem (hand, s))
    (accounted : Accounted (hand, s)) (found : s.held.get? name = some sink) (c : Call) :
    Bears k (mem.after (callsOn k [.called sink.id c])) (hand, { s with
      world := (s.world.receive sink c).2, held := s.held.put name (s.world.receive sink c).1 }) := by
  by_cases called : sink.id = k
  · obtain rfl : sink = ⟨k, .memory mem⟩ := bears.held found called
    have next := (Change.callHeld hand s name _ c found).accounted accounted
    rw [callsOn_called]
    refine next.bears (.inr (.inr ⟨name, ?_⟩))
    rw [Table.get?_put, if_pos rfl, World.receive_memory]
    rfl
  · rw [callsOn_called_other called]
    refine bears.of_has fun other same here => here.of_callHeld ?_
    rwa [same]

theorem Has.of_fanOut {hand : List Sink} {n : Nat} {c : Call} (here : Has other (hand, s.fanOut n c))
    (uncalled : other.id ∉ s.ids n) : Has other (hand, s) := by
  obtain inHand | ⟨m, list⟩ | ⟨name, held⟩ := here
  · exact .inl inHand
  · have different : n ≠ m := by
      rintro rfl
      have listed := ids_of_sinks list
      rw [ids_fanOut] at listed
      exact uncalled listed
    rw [sinks_fanOut_other different] at list
    exact .inr (.inl ⟨m, list⟩)
  · rw [fanOut_held] at held
    exact .inr (.inr ⟨name, held⟩)

/-- A call on all sinks of a manager changes their states. -/
theorem Bears.fanOut {hand : List Sink} (bears : Bears k mem (hand, s)) (accounted : Accounted (hand, s)) (n : Nat)
    (c : Call) : Bears k (mem.after (callsOn k ((s.ids n).map fun j => .called j c))) (hand, s.fanOut n c) := by
  by_cases called : k ∈ s.ids n
  · have received := (fanOut_memory (accounted.ids_nodup n) (bears.listed called) rfl c).1
    rw [MemorySink.receive_eq] at received
    have next := (Change.fanOut hand s n c).accounted accounted
    rw [callsOn_each (accounted.ids_nodup n) called]
    exact next.bears (.inr (.inl ⟨n, received⟩))
  · rw [callsOn_other called]
    exact bears.of_has fun sink same here => here.of_fanOut (same ▸ called)

/-- The state of a memory sink follows its calls, from place to place. -/
theorem Change.bears {x y : Loaded} (change : Change x y) (accounted : Accounted x)
    (born : k < x.2.world.labels.length) (bears : Bears k mem x) :
    ∃ added, y.2.world.journal = x.2.world.journal ++ added ∧ Bears k (mem.after (callsOn k added)) y := by
  cases change with
  | build hand s label body =>
    refine ⟨[.built s.world.labels.length], rfl, bears.of_has fun sink same here => ?_⟩
    obtain here | elsewhere := here
    · obtain rfl | here := List.mem_cons.mp here
      · -- The new sink has a number that has not been given before.
        exact absurd same (Nat.ne_of_gt born)
      · exact .inl here
    · exact .inr elsewhere
  | discard sinks hand s =>
    refine ⟨_, rfl, ?_⟩
    rw [callsOn_dropped]
    refine bears.of_has fun sink _ here => ?_
    obtain here | elsewhere := here
    · exact .inl (List.mem_append_right _ here)
    · exact .inr elsewhere
  | take hand s name sink found =>
    refine ⟨[], (List.append_nil _).symm, bears.of_has fun other _ here => ?_⟩
    obtain here | list | ⟨name', held⟩ := here
    · obtain rfl | here := List.mem_cons.mp here
      · exact .inr (.inr ⟨name, found⟩)
      · exact .inl here
    · exact .inr (.inl list)
    · rw [Table.get?_erase] at held
      split at held
      · cases held
      · exact .inr (.inr ⟨name', held⟩)
  | keep hand s name sink free =>
    refine ⟨[], (List.append_nil _).symm, bears.of_has fun other _ here => ?_⟩
    obtain here | list | ⟨name', held⟩ := here
    · exact .inl (List.mem_cons_of_mem _ here)
    · exact .inr (.inl list)
    · rw [Table.get?_put] at held
      split at held
      · cases held
        exact .inl List.mem_cons_self
      · exact .inr (.inr ⟨name', held⟩)
  | swap hand s name sink old found =>
    refine ⟨[], (List.append_nil _).symm, bears.of_has fun other _ here => ?_⟩
    obtain here | list | ⟨name', held⟩ := here
    · obtain rfl | here := List.mem_cons.mp here
      · exact .inr (.inr ⟨name, found⟩)
      · exact .inl (List.mem_cons_of_mem _ here)
    · exact .inr (.inl list)
    · rw [Table.get?_put] at held
      split at held
      · cases held
        exact .inl List.mem_cons_self
      · exact .inr (.inr ⟨name', held⟩)
  | callHeld hand s name sink c found => exact ⟨_, World.receive_journal s.world sink c, bears.callHeld accounted found c⟩
  | fanOut hand s n c => exact ⟨_, fanOut_journal s n c, bears.fanOut accounted n c⟩
  | setSwitch hand s n manager on found live =>
    refine ⟨[], by simp [setSwitch_journal], bears.of_has fun sink _ here => ?_⟩
    simpa only [Has, sinks_setSwitch, setSwitch_held] using here
  | join hand s n manager sink found live =>
    refine ⟨[], (List.append_nil _).symm, bears.of_has fun other _ here => ?_⟩
    obtain here | ⟨m, list⟩ | held := here
    · exact .inl (List.mem_cons_of_mem _ here)
    · rw [sinks_setManager found] at list
      split at list
      · obtain list | new := List.mem_append.mp list
        · exact .inr (.inl ⟨n, sinks_of found ▸ list⟩)
        · cases List.mem_singleton.mp new
          exact .inl List.mem_cons_self
      · exact .inr (.inl ⟨m, list⟩)
    · exact .inr (.inr held)
  | clear hand s n manager found =>
    refine ⟨_, rfl, ?_⟩
    rw [callsOn_dropped]
    refine bears.of_has fun sink _ here => ?_
    obtain here | ⟨m, list⟩ | held := here
    · exact .inl here
    · rw [sinks_setManager (s := s.discard manager.sinks) found] at list
      split at list
      · cases list
      · exact .inr (.inl ⟨m, list⟩)
    · exact .inr (.inr held)
  | found sinks hand s =>
    refine ⟨[], (List.append_nil _).symm, bears.of_has fun sink _ here => ?_⟩
    obtain here | ⟨m, list⟩ | held := here
    · exact .inl (List.mem_append_right _ here)
    · obtain list | new := sinks_newcomer (show _ = s.managers ++ [.ofSinks sinks (.own true)] from rfl) list
      · exact .inr (.inl ⟨m, list⟩)
      · exact .inl (List.mem_append_left _ new)
    · exact .inr (.inr held)
  | install hand s sink vacant =>
    refine ⟨[], (List.append_nil _).symm, bears.of_has fun other _ here => ?_⟩
    obtain here | ⟨m, list⟩ | held := here
    · exact .inl (List.mem_cons_of_mem _ here)
    · obtain list | new := sinks_newcomer (show _ = s.managers ++ [.ofSinks [sink] .shared] from rfl) list
      · exact .inr (.inl ⟨m, list⟩)
      · cases List.mem_singleton.mp new
        exact .inl List.mem_cons_self
    · exact .inr (.inr held)
  | depose hand s n manager seated found bare =>
    refine ⟨[], (List.append_nil _).symm, bears.of_has fun sink _ here => ?_⟩
    obtain here | ⟨m, list⟩ | held := here
    · exact .inl here
    · rw [sinks_setManager (s := { s with slot := none }) found] at list
      split at list
      · exact .inr (.inl ⟨n, sinks_of found ▸ list⟩)
      · exact .inr (.inl ⟨m, list⟩)
    · exact .inr (.inr held)
  | _ => exact ⟨[], (List.append_nil _).symm, bears⟩

theorem Change.labels_le {x y : Loaded} (change : Change x y) : x.2.world.labels.length ≤ y.2.world.labels.length := by
  cases change with
  | build hand s label body => simp [World.number, World.record]
  | callHeld hand s name sink c found => simp [World.receive_labels]
  | fanOut hand s n c =>
    simp only [System.fanOut]
    split
    · exact Nat.le_refl _
    · exact Nat.le_of_eq (congrArg List.length (World.deliver_labels c _ s.world).symm)
  | setSwitch hand s n manager on found live => simp [setSwitch_world]
  | _ => exact Nat.le_refl _

theorem Changes.labels_le {x y : Loaded} (changes : Changes x y) :
    x.2.world.labels.length ≤ y.2.world.labels.length := by
  induction changes with
  | refl => exact Nat.le_refl _
  | tail _ change ih => exact Nat.le_trans ih change.labels_le

theorem Changes.bears {x y : Loaded} (changes : Changes x y) (accounted : Accounted x)
    (born : k < x.2.world.labels.length) (bears : Bears k mem x) :
    ∃ added, y.2.world.journal = x.2.world.journal ++ added ∧ Bears k (mem.after (callsOn k added)) y := by
  induction changes with
  | refl => exact ⟨[], (List.append_nil _).symm, bears⟩
  | tail before change ih =>
    obtain ⟨added, journal, bears⟩ := ih
    -- What each change adds to the journal is heard behind what those before it have added.
    obtain ⟨more, journal', bears⟩ :=
      change.bears (Changes.accounted before accounted) (Nat.lt_of_lt_of_le born (Changes.labels_le before)) bears
    refine ⟨added ++ more, by rw [journal', journal, List.append_assoc], ?_⟩
    rwa [callsOn_append, MemorySink.after_append]

end System

theorem Action.labels_le (a : Action) (s : System) : s.world.labels.length ≤ (a.act s).world.labels.length := by
  cases a with
  | op o => exact (System.Changes.op s o).labels_le
  | enter n => exact Nat.le_refl _
  | note r => exact Nat.le_refl _
  | send n r =>
    have changes := (System.Changes.dispatch [] s.leave n r).trans (.release [] _ n)
    exact changes.labels_le
  | giveUp n => exact (System.Changes.release [] s.leave n).labels_le

end LogFanout
