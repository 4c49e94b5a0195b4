import LogFanout.Proofs.Calls
import LogFanout.Proofs.Keeping
import LogFanout.Proofs.StaleHandles
import Mathlib.Logic.ExistsUnique

/- Custody of sinks.

   Every sink that has been built stands in one place (`System.Stands`): at one position in the list of one manager, under
   one name, or among those that have been dropped (`System.Accounted.stands_unique`). Its life in the journal begins when
   it is built (`Begun`) and ends when it is dropped (`Final`), and everything that it is asked for lies in between. -/
namespace LogFanout

/-! ## Tables -/

namespace Table

variable {κ α : Type} [DecidableEq κ]

theorem find_of_mem {k : κ} {v : α} {entries : List (κ × α)} (nodup : (entries.map Prod.fst).Nodup)
    (member : (k, v) ∈ entries) : find k entries = some v := by
  induction entries with
  | nil => cases member
  | cons e rest ih =>
    obtain ⟨once, nodup⟩ := List.nodup_cons.mp nodup
    rcases List.mem_cons.mp member with rfl | member
    · simp [find]
    · have other : e.1 ≠ k := fun same => once (same ▸ List.mem_map_of_mem member)
      simp [find, other, ih nodup member]

/-- Every value stands under a key, if no key stands there twice. -/
theorem exists_get? {t : Table κ α} (nodup : t.keys.Nodup) {v : α} (member : v ∈ t.values) :
    ∃ k, t.get? k = some v := by
  obtain ⟨⟨k, v⟩, there, rfl⟩ := List.mem_map.mp member
  exact ⟨k, find_of_mem nodup there⟩

end Table

/-! ## Beginnings -/

def builds (journal : List Event) : List Nat :=
  journal.filterMap fun e =>
    match e with
    | .built k => some k
    | _ => none

theorem mem_builds {journal : List Event} {k : Nat} : k ∈ builds journal ↔ .built k ∈ journal := by
  simp only [builds, List.mem_filterMap]
  constructor
  · rintro ⟨e, he, hk⟩
    cases e <;> simp at hk
    exact hk ▸ he
  · exact fun h => ⟨_, h, rfl⟩

theorem builds_append (a b : List Event) : builds (a ++ b) = builds a ++ builds b := by simp [builds]

/-- Nothing happens to a sink before it has been built. -/
def Begun (journal : List Event) : Prop :=
  ∀ before e after k, journal = before ++ e :: after → e.sink? = some k → e = .built k ∨ k ∈ builds before

theorem Begun.append {a b : List Event} (ha : Begun a)
    (h : ∀ e ∈ b, ∀ k, e.sink? = some k → e = .built k ∨ k ∈ builds a) : Begun (a ++ b) := by
  intro before e after k parts about
  rcases List.append_eq_append_iff.mp parts with ⟨more, rfl, later⟩ | ⟨more, earlier, later⟩
  · have member : e ∈ b := later ▸ List.mem_append_right more List.mem_cons_self
    rcases h e member k about with built | known
    · exact .inl built
    · exact .inr (builds_append a more ▸ List.mem_append_left _ known)
  · cases more with
    | nil =>
      have member : e ∈ b := by
        rw [List.nil_append] at later
        exact later ▸ List.mem_cons_self
      rw [List.append_nil] at earlier
      exact earlier ▸ h e member k about
    | cons first more =>
      cases later
      exact ha before e more k earlier about

namespace System

/-- All that has happened, has happened to sinks that had been built, and they were built in the order of their numbers. -/
structure Dated (x : Loaded) : Prop where
  built : builds x.2.world.journal = List.range x.2.world.labels.length
  begun : Begun x.2.world.journal

theorem Dated.fresh (stamp : String) : Dated ([], .fresh stamp) := by
  refine ⟨rfl, fun before e after k parts => ?_⟩
  cases before <;> cases parts

/-- The number of a sink that stands anywhere is that of one that has been built. -/
theorem Dated.known {x : Loaded} (dated : Dated x) (accounted : Accounted x) {k : Nat} (there : 0 < places k x) :
    k ∈ builds x.2.world.journal := by
  have once := accounted.once k
  rw [dated.built, List.mem_range]
  split at once
  · assumption
  · omega

theorem Dated.add {x y : Loaded} (dated : Dated x) (accounted : Accounted x) {added : List Event}
    (journal : y.2.world.journal = x.2.world.journal ++ added) (labels : y.2.world.labels = x.2.world.labels)
    (old : builds added = []) (there : ∀ e ∈ added, ∀ k, e.sink? = some k → 0 < places k x) : Dated y where
  built := by rw [journal, builds_append, old, List.append_nil, labels, dated.built]
  begun := by
    rw [journal]
    exact dated.begun.append fun e member k about => .inr (dated.known accounted (there e member k about))

theorem Dated.same {x y : Loaded} (dated : Dated x) (journal : y.2.world.journal = x.2.world.journal)
    (labels : y.2.world.labels = x.2.world.labels) : Dated y :=
  ⟨by rw [journal, labels]; exact dated.built, by rw [journal]; exact dated.begun⟩

theorem places_pos_of_mem {hand : List Sink} {s : System} {sink : Sink} (member : sink ∈ hand) :
    0 < places sink.id (hand, s) := by
  have here := occurs_pos member (k := sink.id) rfl
  simp only [places]
  omega

theorem places_pos_of_ids {hand : List Sink} {s : System} {m k : Nat} (member : k ∈ s.ids m) :
    0 < places k (hand, s) := by
  have here := listed_of_ids member
  simp only [places]
  omega

theorem builds_called (ids : List Nat) (c : Call) : builds (ids.map fun k => .called k c) = [] := by
  simp [builds]

theorem builds_dropped (sinks : List Sink) : builds (sinks.map fun sink => .dropped sink.id) = [] := by
  simp [builds]

/-- Nothing happens to a sink that does not stand anywhere. -/
theorem Change.dated {x y : Loaded} (change : Change x y) (accounted : Accounted x) (dated : Dated x) : Dated y := by
  cases change with
  | fanOut hand s m c =>
    have labels : (s.fanOut m c).world.labels = s.world.labels := by
      unfold System.fanOut
      split
      · rfl
      · exact World.deliver_labels c _ s.world
    refine dated.add accounted (fanOut_journal s m c) labels (builds_called (s.ids m) c) fun e member k about => ?_
    obtain ⟨j, here, rfl⟩ := List.mem_map.mp member
    cases about
    exact places_pos_of_ids here
  | build hand s label body =>
    -- a number that has just been given is the next one
    have next : builds (s.world.journal ++ [.built s.world.labels.length]) = List.range (s.world.labels ++ [label]).length := by
      rw [builds_append, dated.built, List.length_append, List.length_singleton, List.range_succ]
      rfl
    refine ⟨next, dated.begun.append fun e member k about => ?_⟩
    cases List.mem_singleton.mp member
    cases about
    exact .inl rfl
  | discard sinks hand s =>
    refine dated.add accounted rfl rfl (builds_dropped sinks) fun e member k about => ?_
    obtain ⟨sink, here, rfl⟩ := List.mem_map.mp member
    cases about
    exact places_pos_of_mem (List.mem_append_left hand here)
  | callHeld hand s name sink c found =>
    refine dated.add accounted (World.receive_journal s.world sink c) (World.receive_labels s.world sink c) rfl
      fun e member k about => ?_
    cases List.mem_singleton.mp member
    cases about
    have held := occurs_held_pos found
    simp only [places]
    omega
  | setSwitch hand s m manager on found live =>
    have world : (s.setSwitch m on).world = s.world := setSwitch_world on
    exact dated.same (congrArg World.journal world) (congrArg World.labels world)
  | clear hand s m manager found =>
    refine dated.add accounted rfl rfl (builds_dropped manager.sinks) fun e member k about => ?_
    obtain ⟨sink, here, rfl⟩ := List.mem_map.mp member
    cases about
    exact places_pos_of_ids (m := m) (ids_of found ▸ List.mem_map_of_mem here)
  | _ => exact dated.same rfl rfl

end System

theorem play_dated (stamp : String) (actions : List Action) : System.Dated ([], play actions (.fresh stamp)) := by
  have noted (s : System) (r : Reply) (accounted : System.Accounted ([], s)) (dated : System.Dated ([], s)) :
      System.Dated ([], s.note r) := by
    have journal : (s.note r).world.journal = s.world.journal ++ [.nested r] := rfl
    refine dated.add accounted journal rfl rfl fun e member k about => ?_
    cases List.mem_singleton.mp member
    cases about
  have both := play_induction (P := fun x => System.Accounted x ∧ System.Dated x)
    (fun _ _ change h => ⟨change.accounted h.1, change.dated h.1 h.2⟩)
    (fun _ _ h => ⟨⟨h.1.names, h.1.once, h.1.final⟩, ⟨h.2.built, h.2.begun⟩⟩)
    (fun s r h => ⟨System.note_accounted h.1 r, noted s r h.1 h.2⟩) actions (.fresh stamp) ⟨.fresh stamp, .fresh stamp⟩
  exact both.2

/-! ## Places -/

/-- Where a sink can be: at a position in the list of a manager, under a name, or dropped. -/
inductive Place where
  | listed (manager position : Nat)
  | held (name : String)
  | dropped
  deriving DecidableEq, Repr

namespace System

def Stands (s : System) (k : Nat) : Place → Prop
  | .listed m i => (s.ids m)[i]? = some k
  | .held name => ∃ sink, s.held.get? name = some sink ∧ sink.id = k
  | .dropped => .dropped k ∈ s.world.journal

theorem exists_of_listed {s : System} {k : Nat} (h : 0 < s.listed k) : ∃ m, k ∈ s.ids m := by
  obtain ⟨sink, member, rfl⟩ := List.mem_map.mp (List.count_pos_iff.mp h)
  obtain ⟨manager, there, member⟩ := List.mem_flatMap.mp member
  obtain ⟨m, found⟩ := List.mem_iff_getElem?.mp there
  exact ⟨m, ids_of found ▸ List.mem_map_of_mem member⟩

/-- What has been built is somewhere. -/
theorem Accounted.exists_stands {s : System} (accounted : Accounted ([], s)) (dated : Dated ([], s)) {k : Nat}
    (built : .built k ∈ s.world.journal) : ∃ place, s.Stands k place := by
  have bound : k < s.world.labels.length := by
    have known := mem_builds.mpr built
    rw [dated.built] at known
    exact List.mem_range.mp known
  have once := accounted.once k
  rw [if_pos bound] at once
  simp only [places, occurs_nil, Nat.zero_add] at once
  by_cases listed : 0 < s.listed k
  · obtain ⟨m, member⟩ := exists_of_listed listed
    obtain ⟨i, at_i⟩ := List.mem_iff_getElem?.mp member
    exact ⟨.listed m i, at_i⟩
  · by_cases held : 0 < occurs k s.held.values
    · obtain ⟨sink, member, same⟩ := List.mem_map.mp (List.count_pos_iff.mp held)
      obtain ⟨name, found⟩ := Table.exists_get? accounted.names member
      exact ⟨.held name, sink, found, same⟩
    · have dropped : 0 < (drops s.world.journal).count k := by omega
      exact ⟨.dropped, mem_drops.mp (List.count_pos_iff.mp dropped)⟩

/-- A sink is in one place at most. -/
theorem Accounted.stands_unique {s : System} (accounted : Accounted ([], s)) {k : Nat} {place other : Place}
    (here : s.Stands k place) (there : s.Stands k other) : place = other := by
  have one := accounted.places_le_one k
  simp only [places, occurs_nil, Nat.zero_add] at one
  have listed {m i : Nat} (h : (s.ids m)[i]? = some k) : 0 < s.listed k := listed_of_ids (List.mem_of_getElem? h)
  have held {name : String} {sink : Sink} (found : s.held.get? name = some sink) (same : sink.id = k) :
      0 < occurs k s.held.values := same ▸ occurs_held_pos found
  have dropped (h : Event.dropped k ∈ s.world.journal) : 0 < (drops s.world.journal).count k :=
    List.count_pos_iff.mpr (mem_drops.mpr h)
  cases place with
  | listed m i =>
    have first := listed here
    cases other with
    | listed n j =>
      have same : m = n := Decidable.byContradiction fun different =>
        accounted.ids_disjoint different (List.mem_of_getElem? here) (List.mem_of_getElem? there)
      subst same
      have bound := (List.getElem?_eq_some_iff.mp here).1
      rw [(List.getElem?_inj bound (accounted.ids_nodup m)).mp (here.trans there.symm)]
    | held name =>
      obtain ⟨sink, found, same⟩ := there
      have second := held found same
      omega
    | dropped =>
      have second := dropped there
      omega
  | held name =>
    obtain ⟨sink, found, same⟩ := here
    have first := held found same
    cases other with
    | listed n j =>
      have second := listed there
      omega
    | held name' =>
      obtain ⟨sink', found', same'⟩ := there
      refine congrArg Place.held (Decidable.byContradiction fun different => ?_)
      exact accounted.held_once found found' different (same.trans same'.symm)
    | dropped =>
      have second := dropped there
      omega
  | dropped =>
    have first := dropped here
    cases other with
    | listed n j =>
      have second := listed there
      omega
    | held name =>
      obtain ⟨sink, found, same⟩ := there
      have second := held found same
      omega
    | dropped => rfl

theorem places_pos_of_stands {s : System} {k : Nat} {place : Place} (here : s.Stands k place) :
    0 < places k ([], s) := by
  cases place with
  | listed m i => exact places_pos_of_ids (List.mem_of_getElem? here)
  | held name =>
    obtain ⟨sink, found, rfl⟩ := here
    have there := occurs_held_pos found
    simp only [places]
    omega
  | dropped =>
    have gone := List.count_pos_iff.mpr (mem_drops.mpr here)
    simp only [places]
    omega

/-! ## Refusals -/

/-- Whether an address leads to nobody who could take a sink: a retired manager, or a process without an instance. -/
def refuses (s : System) (whom : Address) : Prop := s.stale whom = true ∨ whom = .process ∧ s.slot = none

/-- What refuses a sink answers no and drops the sink. -/
theorem register_refused {s t : System} {whom : Address} (refused : s.refuses whom) {source : Source} {sink : Sink}
    (obtained : obtain source s = (.ok sink, t)) (append : Bool) :
    ((Op.register whom source append).run s).1 = .truth false ∧
      ((Op.register whom source append).run s).2.world.journal = t.world.journal ++ [.dropped sink.id] := by
  rcases refused with stale | ⟨rfl, vacant⟩
  · rw [register_stale stale, withSink, obtained]
    exact ⟨rfl, rfl⟩
  · have slot : t.slot = none := by
      have same := (obtain_managers (s := s) source).2.1
      rw [obtained] at same
      exact same.trans vacant
    simp only [Op.run, withSink, obtained, registerInstance, slot, true_and]
    rfl

/-- What answers no has refused a sink. -/
theorem refuses_of_no {s t : System} (h : s.Possible) {whom : Address} {source : Source} {sink : Sink}
    (obtained : obtain source s = (.ok sink, t)) {append : Bool}
    (no : ((Op.register whom source append).run s).1 = .truth false) : s.refuses whom := by
  cases reached : s.reach whom with
  | none =>
    cases whom with
    | handle name =>
      have missing : s.handles.get? name = none := reached
      simp only [Op.run, withHandle, missing] at no
      cases no
    | process => exact .inr ⟨rfl, reached⟩
  | some m =>
    obtain ⟨manager, found⟩ := h.reach reached
    have same := (obtain_managers (s := s) source).1
    rw [obtained] at same
    have found' : t.managers[m]? = some manager := by rw [same]; exact found
    rw [run_register reached, withSink, obtained] at no
    simp only [register, found'] at no
    cases retired : manager.retired with
    | true => exact .inl (stale_iff.mpr ⟨m, manager, reached, found, retired⟩)
    | false =>
      simp only [retired, Bool.false_eq_true, if_false] at no
      cases no

end System

/-- At every moment of every run: every sink that has been built is in exactly one place, and nothing else is in any. A
    manager that has sinks is in use. No sink is dropped twice, and whatever is called has been built before and has not
    been dropped. A registration that answers no has been refused, by a retired manager or a process without an instance,
    and drops the sink. -/
theorem custody (stamp : String) (steps : List Step) (n : Nat) :
    let s := play ((course steps (.fresh stamp)).take n) (.fresh stamp)
    (∀ k, (.built k ∈ s.world.journal → ∃! place, s.Stands k place) ∧
      ∀ place, s.Stands k place → .built k ∈ s.world.journal) ∧
    (∀ m, s.ids m ≠ [] → s.inUse m = true) ∧
    (drops s.world.journal).Nodup ∧
    (∀ before k c after, s.world.journal = before ++ .called k c :: after →
      .built k ∈ before ∧ .dropped k ∉ before) ∧
    ∀ whom source append sink t, System.obtain source s = (.ok sink, t) →
      let outcome := (Op.register whom source append).run s
      (outcome.1 = .truth false ↔ s.refuses whom) ∧
        (outcome.1 = .truth false → outcome.2.world.journal = t.world.journal ++ [.dropped sink.id]) := by
  intro s
  have h : s.Possible := .play stamp _
  have dated : System.Dated ([], s) := play_dated stamp _
  have accounted : System.Accounted ([], s) := h.accounted
  refine ⟨fun k => ⟨?_, ?_⟩, fun m => (course_kept stamp steps n).used m List.not_mem_nil, accounted.drops_nodup, ?_, ?_⟩
  · intro built
    obtain ⟨place, here⟩ := accounted.exists_stands dated built
    exact ⟨place, here, fun other there => accounted.stands_unique there here⟩
  · intro place here
    exact mem_builds.mp (dated.known accounted (System.places_pos_of_stands here))
  · intro before k c after parts
    refine ⟨?_, ?_⟩
    · rcases dated.begun before _ after k parts rfl with none | known
      · cases none
      · exact mem_builds.mp known
    · intro dropped
      have final := accounted.final
      rw [parts] at final
      exact (List.pairwise_append.mp final).2.2 _ dropped _ List.mem_cons_self k rfl rfl
  · intro whom source append sink t obtained
    have refused (no : s.refuses whom) := System.register_refused no obtained append
    exact ⟨⟨System.refuses_of_no h obtained, fun no => (refused no).1⟩, fun no =>
      (refused (System.refuses_of_no h obtained no)).2⟩

end LogFanout
