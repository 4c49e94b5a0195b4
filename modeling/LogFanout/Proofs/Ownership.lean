import LogFanout.Proofs.Course

/- Where sinks are.

   A sink that has been built is in one place: in the list of one manager, under a name, in the hands of the operation that
   is going on, or dropped. `places` counts how often the number of a sink stands in all of these, and `Accounted` says
   that it is once for every sink that was built and never for any other number. What is dropped stays so: nothing in the
   journal happens to a sink after its drop (`Final`). No change destroys this (`Change.accounted`). -/
namespace LogFanout

/-! ## Tables -/

namespace Table

variable {κ α : Type} [DecidableEq κ]

def keys (t : Table κ α) : List κ := t.entries.map Prod.fst

theorem keys_replace (k : κ) (v : α) : ∀ l : List (κ × α),
    (replace k v l).map Prod.fst = if k ∈ l.map Prod.fst then l.map Prod.fst else l.map Prod.fst ++ [k]
  | [] => rfl
  | (k', v') :: rest => by
    by_cases same : k' = k
    · simp [replace, same]
    · simp only [replace, same, if_false, List.map_cons, keys_replace k v rest, List.mem_cons, Ne.symm same, false_or]
      split <;> rfl

theorem keys_put_nodup {t : Table κ α} (h : t.keys.Nodup) (k : κ) (v : α) : (t.put k v).keys.Nodup := by
  simp only [keys, put, keys_replace]
  split
  · exact h
  · rename_i new
    exact List.nodup_append.mpr ⟨h, by simp, fun a ha b hb => by
      simp only [List.mem_singleton] at hb
      rintro rfl
      exact new (hb ▸ ha)⟩

theorem keys_erase_nodup {t : Table κ α} (h : t.keys.Nodup) (k : κ) : (t.erase k).keys.Nodup :=
  h.sublist (List.filter_sublist.map Prod.fst)

theorem values_put_new {t : Table κ α} {k : κ} (h : t.get? k = none) (v : α) :
    (t.put k v).values = t.values ++ [v] := by
  obtain ⟨entries⟩ := t
  simp only [get?] at h
  simp only [put, values]
  induction entries with
  | nil => rfl
  | cons e rest ih =>
    simp only [find] at h
    split at h
    · cases h
    · rename_i other
      simp [replace, other, ih h]

theorem values_put_old {t : Table κ α} {k : κ} {old : α} (h : t.get? k = some old) (v : α) :
    ∃ before after, t.values = before ++ old :: after ∧ (t.put k v).values = before ++ v :: after := by
  obtain ⟨entries⟩ := t
  simp only [get?] at h
  simp only [put, values]
  induction entries with
  | nil => cases h
  | cons e rest ih =>
    simp only [find] at h
    split at h
    · rename_i same
      cases h
      exact ⟨[], rest.map Prod.snd, rfl, by simp [replace, same]⟩
    · rename_i other
      obtain ⟨before, after, was, is⟩ := ih h
      exact ⟨e.2 :: before, after, by simp [was], by simp [replace, other, is]⟩

theorem values_erase {t : Table κ α} (nodup : t.keys.Nodup) {k : κ} {old : α} (h : t.get? k = some old) :
    ∃ before after, t.values = before ++ old :: after ∧ (t.erase k).values = before ++ after := by
  obtain ⟨entries⟩ := t
  simp only [get?] at h
  simp only [keys] at nodup
  simp only [erase, values]
  induction entries with
  | nil => cases h
  | cons e rest ih =>
    obtain ⟨k', v'⟩ := e
    simp only [List.map_cons, List.nodup_cons] at nodup
    simp only [find] at h
    split at h
    · rename_i same
      cases h
      subst same
      have all : rest.filter (fun e => decide (e.1 ≠ k')) = rest := by
        refine List.filter_eq_self.mpr fun e he => decide_eq_true ?_
        rintro rfl
        exact nodup.1 (List.mem_map_of_mem he)
      exact ⟨[], rest.map Prod.snd, rfl, by rw [List.filter_cons_of_neg (by simp), all]; rfl⟩
    · rename_i other
      obtain ⟨before, after, was, is⟩ := ih nodup.2 h
      refine ⟨v' :: before, after, by simp [was], ?_⟩
      rw [List.filter_cons_of_pos (by simpa using other), List.map_cons, is]
      rfl

end Table

/-! ## The journal -/

def Event.sink? : Event → Option Nat
  | .built k => some k
  | .called k _ => some k
  | .dropped k => some k
  | .nested _ => none

def drops (journal : List Event) : List Nat :=
  journal.filterMap fun e =>
    match e with
    | .dropped k => some k
    | _ => none

theorem mem_drops {journal : List Event} {k : Nat} : k ∈ drops journal ↔ .dropped k ∈ journal := by
  simp only [drops, List.mem_filterMap]
  constructor
  · rintro ⟨e, he, hk⟩
    cases e <;> simp at hk
    exact hk ▸ he
  · exact fun h => ⟨_, h, rfl⟩

@[simp] theorem drops_append (a b : List Event) : drops (a ++ b) = drops a ++ drops b := by simp [drops]

@[simp] theorem drops_dropped (sinks : List Sink) :
    drops (sinks.map fun sink => .dropped sink.id) = sinks.map Sink.id := by
  induction sinks with
  | nil => rfl
  | cons sink rest ih => exact congrArg (List.cons sink.id) ih

@[simp] theorem drops_called (sinks : List Sink) (c : Call) : drops (sinks.map fun sink => .called sink.id c) = [] := by
  simp [drops, List.filterMap_map]

/-- Nothing happens to a sink after its drop. -/
def Final (journal : List Event) : Prop := journal.Pairwise fun e later => ∀ k, e = .dropped k → later.sink? ≠ some k

theorem Final.append {a b : List Event} (ha : Final a) (hb : Final b)
    (h : ∀ e ∈ b, ∀ k, e.sink? = some k → k ∉ drops a) : Final (a ++ b) :=
  List.pairwise_append.mpr
    ⟨ha, hb, fun _ he later hl k dropped about => h later hl k about (mem_drops.mpr (dropped ▸ he))⟩

/-- Entries none of which is a drop can be added as long as they are about sinks that are still there. -/
theorem Final.append_of_no_drop {a b : List Event} (ha : Final a) (none : drops b = [])
    (h : ∀ e ∈ b, ∀ k, e.sink? = some k → k ∉ drops a) : Final (a ++ b) := by
  refine ha.append ?_ h
  apply List.pairwise_of_forall_mem_list
  intro e he later _ k dropped
  have : k ∈ drops b := mem_drops.mpr (dropped ▸ he)
  simp [none] at this

theorem Final.called {journal : List Event} (h : Final journal) {sinks : List Sink} (c : Call)
    (there : ∀ sink ∈ sinks, sink.id ∉ drops journal) :
    Final (journal ++ sinks.map fun sink => .called sink.id c) := by
  apply h.append_of_no_drop (drops_called sinks c)
  intro e he k about
  obtain ⟨sink, member, rfl⟩ := List.mem_map.mp he
  cases about
  exact there sink member

/-! ## Places -/

def occurs (k : Nat) (sinks : List Sink) : Nat := (sinks.map Sink.id).count k

@[simp] theorem occurs_nil (k : Nat) : occurs k [] = 0 := rfl

@[simp] theorem occurs_append (k : Nat) (a b : List Sink) : occurs k (a ++ b) = occurs k a + occurs k b := by
  simp [occurs]

theorem occurs_cons (k : Nat) (sink : Sink) (rest : List Sink) :
    occurs k (sink :: rest) = occurs k [sink] + occurs k rest :=
  occurs_append k [sink] rest

theorem occurs_deliver (k : Nat) (c : Call) (sinks : List Sink) (w : World) :
    occurs k (World.deliver c sinks w).1 = occurs k sinks := by
  simp [occurs, World.deliver_ids]

theorem occurs_receive (k : Nat) (sink : Sink) (c : Call) (w : World) :
    occurs k [(w.receive sink c).1] = occurs k [sink] := by
  simp [occurs, World.receive_id]

theorem occurs_pos {k : Nat} {sinks : List Sink} {sink : Sink} (h : sink ∈ sinks) (hk : sink.id = k) :
    0 < occurs k sinks :=
  List.count_pos_iff.mpr (hk ▸ List.mem_map_of_mem h)

theorem World.act_labels (w : World) (sink : Sink) (c : Call) : (w.act sink c).2.labels = w.labels := by
  unfold act
  split <;> rfl

theorem World.receive_labels (w : World) (sink : Sink) (c : Call) : (w.receive sink c).2.labels = w.labels :=
  World.act_labels _ _ _

theorem World.deliver_labels (c : Call) (sinks : List Sink) (w : World) :
    (World.deliver c sinks w).2.labels = w.labels := by
  induction sinks generalizing w with
  | nil => rfl
  | cons sink rest ih => simp [World.deliver, ih, World.receive_labels]

namespace System

def ids (s : System) (m : Nat) : List Nat :=
  match s.managers[m]? with
  | some manager => manager.sinks.map Sink.id
  | none => []

theorem ids_of {s : System} {m : Nat} {manager : Manager} (found : s.managers[m]? = some manager) :
    s.ids m = manager.sinks.map Sink.id := by
  simp only [ids, found]

theorem ids_setManager {s : System} {m : Nat} {old : Manager} (found : s.managers[m]? = some old) (new : Manager)
    (n : Nat) : (s.setManager m new).ids n = if m = n then new.sinks.map Sink.id else s.ids n := by
  have bound := (List.getElem?_eq_some_iff.mp found).1
  by_cases same : m = n
  · subst same
    simp [ids, setManager, bound]
  · simp [ids, setManager, same]

theorem ids_setManager_of_sinks {s : System} {m : Nat} {old : Manager} (found : s.managers[m]? = some old) (new : Manager)
    (sinks : new.sinks.map Sink.id = old.sinks.map Sink.id) (n : Nat) : (s.setManager m new).ids n = s.ids n := by
  rw [ids_setManager found]
  split
  · rename_i same
    subst same
    rw [sinks, ids_of found]
  · rfl

theorem ids_fanOut (s : System) (m : Nat) (c : Call) (n : Nat) : (s.fanOut m c).ids n = s.ids n := by
  cases found : s.managers[m]? with
  | none => simp only [fanOut, found]
  | some manager =>
    rw [fanOut_some found]
    exact ids_setManager_of_sinks (s := { s with world := _ }) found _ (World.deliver_ids c manager.sinks s.world) n

theorem ids_setSwitch (s : System) (m : Nat) (on : Bool) (n : Nat) : (s.setSwitch m on).ids n = s.ids n := by
  unfold setSwitch
  split
  · rfl
  · rename_i manager found
    split
    · rfl
    · exact ids_setManager_of_sinks found { manager with switch := .own on } rfl n

/-- How often the number of a sink stands in the lists of managers. -/
def listed (s : System) (k : Nat) : Nat := occurs k (s.managers.flatMap Manager.sinks)

/-- How often the number of a sink stands anywhere. -/
def places (k : Nat) (x : Loaded) : Nat :=
  occurs k x.1 + x.2.listed k + occurs k x.2.held.values + (drops x.2.world.journal).count k

/-- Every sink that was built is in one place, no other number is anywhere, and what is dropped stays dropped. -/
structure Accounted (x : Loaded) : Prop where
  names : x.2.held.keys.Nodup
  once : ∀ k, places k x = if k < x.2.world.labels.length then 1 else 0
  final : Final x.2.world.journal

namespace Accounted

theorem fresh (stamp : String) : Accounted ([], .fresh stamp) := ⟨List.nodup_nil, fun _ => rfl, List.Pairwise.nil⟩

theorem places_le_one {x : Loaded} (h : Accounted x) (k : Nat) : places k x ≤ 1 := by
  have once := h.once k
  split at once <;> omega

/-- What stands somewhere has not been dropped. -/
theorem not_dropped {x : Loaded} (h : Accounted x) {k : Nat} (stands : 0 < occurs k x.1 + x.2.listed k +
    occurs k x.2.held.values) : k ∉ drops x.2.world.journal := by
  intro gone
  have pos := List.count_pos_iff.mpr gone
  have one := h.places_le_one k
  simp only [places] at one
  omega

theorem drops_nodup {x : Loaded} (h : Accounted x) :
    (drops x.2.world.journal).Nodup := by
  apply List.nodup_iff_count.mpr
  intro k
  have one := h.places_le_one k
  simp only [places] at one
  omega

/-- A sink that has been dropped was dropped once, and nothing has happened to it since. -/
theorem dropped_once {x : Loaded} (h : Accounted x) {k : Nat}
    (gone : k ∈ drops x.2.world.journal) : ∃ before after, x.2.world.journal = before ++ .dropped k :: after ∧
      k ∉ drops before ∧ ∀ e ∈ after, e.sink? ≠ some k := by
  obtain ⟨before, after, parts⟩ := List.append_of_mem (mem_drops.mp gone)
  refine ⟨before, after, parts, ?_, ?_⟩
  · intro earlier
    have once := h.drops_nodup
    rw [parts, drops_append] at once
    exact (List.nodup_append.mp once).2.2 k earlier k (mem_drops.mpr List.mem_cons_self) rfl
  · intro e member
    have final := h.final
    rw [parts] at final
    exact (List.pairwise_cons.mp (List.pairwise_append.mp final).2.1).1 e member k rfl

end Accounted

theorem count_flatMap_set {α : Type} (f : α → List Nat) (k : Nat) : ∀ {l : List α} {i : Nat} {old : α},
    l[i]? = some old → ∀ new : α,
    ((l.set i new).flatMap f).count k + (f old).count k = (l.flatMap f).count k + (f new).count k
  | [], _, _, h, _ => nomatch h
  | first :: rest, 0, old, h, new => by
    cases h
    simp only [List.set_cons_zero, List.flatMap_cons, List.count_append]
    omega
  | first :: rest, i + 1, old, h, new => by
    have ih := count_flatMap_set f k (l := rest) (i := i) (by simpa using h) new
    simp only [List.set_cons_succ, List.flatMap_cons, List.count_append]
    omega

theorem occurs_flatMap_set (k : Nat) {l : List Manager} {m : Nat} {old : Manager} (found : l[m]? = some old)
    (new : Manager) :
    occurs k ((l.set m new).flatMap Manager.sinks) + occurs k old.sinks =
      occurs k (l.flatMap Manager.sinks) + occurs k new.sinks := by
  simp only [occurs, List.map_flatMap]
  exact count_flatMap_set (fun manager => manager.sinks.map Sink.id) k found new

theorem listed_setManager {s : System} {m : Nat} {old : Manager} (found : s.managers[m]? = some old) (new : Manager)
    (k : Nat) : (s.setManager m new).listed k + occurs k old.sinks = s.listed k + occurs k new.sinks :=
  occurs_flatMap_set k found new

theorem listed_pos {s : System} {m : Nat} {manager : Manager} (found : s.managers[m]? = some manager) {k : Nat}
    (h : 0 < occurs k manager.sinks) : 0 < s.listed k := by
  have moved := listed_setManager found { manager with sinks := [] } k
  simp only [occurs_nil] at moved
  omega

theorem listed_of_ids {s : System} {m k : Nat} (h : k ∈ s.ids m) : 0 < s.listed k := by
  cases found : s.managers[m]? with
  | none => simp [ids, found] at h
  | some manager => exact listed_pos found (List.count_pos_iff.mpr (ids_of found ▸ h))

theorem Accounted.ids_nodup {hand : List Sink} {s : System} (h : Accounted (hand, s)) (m : Nat) : (s.ids m).Nodup := by
  apply List.nodup_iff_count.mpr
  intro k
  cases found : s.managers[m]? with
  | none => simp [ids, found]
  | some manager =>
    have one := h.places_le_one k
    have moved := listed_setManager found { manager with sinks := [] } k
    have here : (s.ids m).count k = occurs k manager.sinks := by rw [ids_of found]; rfl
    simp only [occurs_nil] at moved
    simp only [places] at one
    omega

theorem Accounted.ids_disjoint {hand : List Sink} {s : System} (h : Accounted (hand, s)) {m n : Nat} (other : m ≠ n)
    {k : Nat} (at_m : k ∈ s.ids m) : k ∉ s.ids n := by
  intro at_n
  cases found : s.managers[m]? with
  | none => simp [ids, found] at at_m
  | some manager =>
    have one := h.places_le_one k
    have moved := listed_setManager found { manager with sinks := [] } k
    have here : 0 < occurs k manager.sinks := List.count_pos_iff.mpr (ids_of found ▸ at_m)
    have there : 0 < (s.setManager m { manager with sinks := [] }).listed k :=
      listed_of_ids (m := n) (by rw [ids_setManager found, if_neg other]; exact at_n)
    simp only [occurs_nil] at moved
    simp only [places] at one
    omega

theorem occurs_held_pos {s : System} {name : String} {sink : Sink} (found : s.held.get? name = some sink) :
    0 < occurs sink.id s.held.values := by
  obtain ⟨before, after, values, _⟩ := Table.values_put_old found sink
  exact occurs_pos (by simp [values]) rfl

/-! ## One place for each sink -/

namespace Accounted

variable {hand : List Sink} {s : System} {k : Nat} {name name' : String} {sink other : Sink}

theorem not_dropped_of_ids (h : Accounted (hand, s)) (here : k ∈ s.ids m) : k ∉ drops s.world.journal := by
  apply h.not_dropped
  have listed := listed_of_ids here
  simp only
  omega

theorem not_listed_of_hand (h : Accounted (hand, s)) (member : sink ∈ hand) (m : Nat) : sink.id ∉ s.ids m := by
  intro here
  have one := h.places_le_one sink.id
  have listed := listed_of_ids here
  have inHand := occurs_pos member rfl
  simp only [places] at one
  omega

theorem not_listed_of_held (h : Accounted (hand, s)) (found : s.held.get? name = some sink) (m : Nat) :
    sink.id ∉ s.ids m := by
  intro here
  have one := h.places_le_one sink.id
  have listed := listed_of_ids here
  have held := occurs_held_pos found
  simp only [places] at one
  omega

theorem not_held_of_hand (h : Accounted (hand, s)) (member : sink ∈ hand) (found : s.held.get? name = some other) :
    other.id ≠ sink.id := by
  intro same
  have one := h.places_le_one sink.id
  have inHand := occurs_pos member rfl
  have held := occurs_held_pos found
  rw [same] at held
  simp only [places] at one
  omega

/-- A sink is under one name at most. -/
theorem held_once (h : Accounted (hand, s)) (found : s.held.get? name = some sink)
    (found' : s.held.get? name' = some other) (different : name ≠ name') : sink.id ≠ other.id := by
  intro same
  have one := h.places_le_one sink.id
  -- without the first name the sink would still be there under the second
  obtain ⟨before, after, was, now⟩ := Table.values_erase h.names found
  have still : (s.held.erase name).get? name' = some other := by
    rw [Table.get?_erase, if_neg different]
    exact found'
  have second := occurs_held_pos (s := { s with held := s.held.erase name }) still
  have self : occurs sink.id [sink] = 1 := by simp [occurs]
  simp only [places, was, occurs_append, occurs_cons sink.id sink after] at one
  simp only [now, occurs_append, ← same] at second
  omega

end Accounted

/-! ## Changes keep the account -/

/-- What moves sinks from place to place, and tells the journal only of sinks that are still there, keeps the account. -/
theorem Accounted.move {x y : Loaded} (h : Accounted x) (names : y.2.held.keys.Nodup)
    (labels : y.2.world.labels = x.2.world.labels) (moved : ∀ k, places k y = places k x)
    (final : Final y.2.world.journal) : Accounted y :=
  ⟨names, fun k => by rw [moved, labels]; exact h.once k, final⟩

/-- What moves sinks between the hand and the lists of managers keeps the account. -/
theorem Accounted.relist {hand hand' : List Sink} {s t : System} (h : Accounted (hand, s)) (held : t.held = s.held)
    (world : t.world = s.world) (moved : ∀ k, occurs k hand' + t.listed k = occurs k hand + s.listed k) :
    Accounted (hand', t) := by
  refine h.move (by rw [held]; exact h.names) (by rw [world]) ?_ (by rw [world]; exact h.final)
  intro k
  simp only [places, held, world, moved]

theorem fanOut_accounted {hand : List Sink} {s : System} (h : Accounted (hand, s)) (m : Nat) (c : Call) :
    Accounted (hand, s.fanOut m c) := by
  cases found : s.managers[m]? with
  | none => simpa [fanOut, found] using h
  | some manager =>
    rw [fanOut_some found]
    refine h.move h.names (World.deliver_labels c manager.sinks s.world) ?_ ?_
    · intro k
      have set := listed_setManager found { manager with sinks := (World.deliver c manager.sinks s.world).1 } k
      simp only [occurs_deliver] at set
      have same : (s.setManager m { manager with sinks := (World.deliver c manager.sinks s.world).1 }).listed k =
        s.listed k := by omega
      show _ + (s.setManager m _).listed k + _ + (drops (World.deliver c manager.sinks s.world).2.journal).count k = _
      rw [same, World.deliver_journal, drops_append, drops_called, List.append_nil]
      rfl
    · show Final (World.deliver c manager.sinks s.world).2.journal
      rw [World.deliver_journal]
      refine Final.called h.final c fun sink member => h.not_dropped ?_
      have := listed_pos found (occurs_pos member rfl)
      simp only
      omega

theorem discard_accounted {sinks hand : List Sink} {s : System} (h : Accounted (sinks ++ hand, s)) :
    Accounted (hand, s.discard sinks) := by
  have nodup : (sinks.map Sink.id).Nodup := List.nodup_iff_count.mpr fun k => by
    have one := h.places_le_one k
    have here : (sinks.map Sink.id).count k = occurs k sinks := rfl
    simp only [places, occurs_append] at one
    omega
  refine h.move h.names rfl ?_ ?_
  · intro k
    have ids : (sinks.map Sink.id).count k = occurs k sinks := rfl
    simp only [places, System.discard, World.discard, drops_append, drops_dropped, List.count_append, occurs_append, ids]
    show occurs k hand + s.listed k + _ + _ = _
    omega
  · apply Final.append h.final
    · refine List.pairwise_map.mpr ((List.pairwise_map.mp nodup).imp fun other k dropped about => other ?_)
      simp only [Event.dropped.injEq, Event.sink?, Option.some.injEq] at dropped about
      exact dropped.trans about.symm
    · intro e he k about
      obtain ⟨sink, member, rfl⟩ := List.mem_map.mp he
      cases about
      apply h.not_dropped
      have := occurs_pos member (k := sink.id) rfl
      simp only [occurs_append]
      omega

theorem Accounted.next {hand : List Sink} {s : System} (h : Accounted (hand, s)) :
    places s.world.labels.length (hand, s) = 0 := by
  simpa using h.once s.world.labels.length

theorem number_accounted {hand : List Sink} {s : System} (h : Accounted (hand, s)) (label : Sink.Label)
    (body : Sink.Body) :
    Accounted ((s.world.number label body).1 :: hand, { s with world := (s.world.number label body).2 }) := by
  -- the number is that of the next label, so nothing has happened to it yet
  have next := h.next
  have new : s.world.labels.length ∉ drops s.world.journal := by
    intro gone
    have pos := List.count_pos_iff.mpr gone
    simp only [places] at next
    omega
  refine ⟨h.names, ?_, ?_⟩
  · intro k
    have before := h.once k
    have built : drops [.built s.world.labels.length] = [] := rfl
    have alone : occurs k [(s.world.number label body).1] = if k = s.world.labels.length then 1 else 0 := by
      by_cases same : k = s.world.labels.length <;> simp [occurs, World.number, same, eq_comm]
    have labels : (s.world.number label body).2.labels.length = s.world.labels.length + 1 := by
      simp [World.number, World.record]
    have journal : (s.world.number label body).2.journal = s.world.journal ++ [.built s.world.labels.length] := rfl
    simp only [places, labels, journal, drops_append, built, List.append_nil]
    rw [occurs_cons, alone]
    simp only [places] at before next
    change _ + occurs k hand + s.listed k + _ + _ = _
    by_cases same : k = s.world.labels.length
    · subst same
      simp
      omega
    · simp only [same, if_false]
      split at before <;> split <;> omega
  · apply Final.append_of_no_drop h.final rfl
    intro e he k about
    simp only [List.mem_singleton] at he
    subst he
    cases about
    exact new

theorem listed_newManager (s : System) (sinks : List Sink) (k : Nat) :
    (s.newManager sinks).2.listed k = s.listed k + occurs k sinks := by
  simp [listed, newManager, Manager.ofSinks]

theorem listed_install (s : System) (sink : Sink) (k : Nat) :
    (s.install sink).2.listed k = s.listed k + occurs k [sink] := by
  simp [listed, install, Manager.ofSinks]

theorem note_accounted {s : System} (h : Accounted ([], s)) (r : Reply) : Accounted ([], s.note r) := by
  have drops : drops (s.note r).world.journal = drops s.world.journal := by
    simp [System.note, World.record, LogFanout.drops]
  refine h.move h.names rfl ?_ ?_
  · intro k
    simp only [places, drops]
    rfl
  · apply Final.append_of_no_drop h.final rfl
    intro e he k about
    simp only [List.mem_singleton] at he
    subst he
    cases about

/-- No change loses a sink, has it twice, or brings one back. -/
theorem Change.accounted {x y : Loaded} (change : Change x y) (h : Accounted x) : Accounted y := by
  obtain ⟨names, once, final⟩ := id h
  cases change with
  | outside => exact ⟨names, once, final⟩
  | logs => exact ⟨names, once, final⟩
  | keepHandle => exact ⟨names, once, final⟩
  | dropHandle => exact ⟨names, once, final⟩
  | setFlag => exact ⟨names, once, final⟩
  | vacate => exact ⟨names, once, final⟩
  | fanOut hand s m c => exact fanOut_accounted h m c
  | build hand s label body => exact number_accounted h label body
  | discard sinks hand s => exact discard_accounted h
  -- between a name and the hand
  | take hand s name sink found =>
    obtain ⟨before, after, was, now⟩ := Table.values_erase names found
    refine h.move (Table.keys_erase_nodup names name) rfl ?_ final
    intro k
    simp only [places, was, now, occurs_append]
    rw [occurs_cons k sink hand, occurs_cons k sink after]
    change _ + s.listed k + _ + _ = _
    omega
  | keep hand s name sink free =>
    refine h.move (Table.keys_put_nodup names name sink) rfl ?_ final
    intro k
    simp only [places, Table.values_put_new free, occurs_append]
    rw [occurs_cons k sink hand]
    change _ + s.listed k + _ + _ = _
    omega
  | swap hand s name sink old found =>
    obtain ⟨before, after, was, now⟩ := Table.values_put_old found sink
    refine h.move (Table.keys_put_nodup names name sink) rfl ?_ final
    intro k
    simp only [places, was, now, occurs_append]
    rw [occurs_cons k sink hand, occurs_cons k old hand, occurs_cons k sink after, occurs_cons k old after]
    change _ + s.listed k + _ + _ = _
    omega
  | callHeld hand s name sink c found =>
    obtain ⟨before, after, was, now⟩ := Table.values_put_old found (s.world.receive sink c).1
    apply h.move (Table.keys_put_nodup names name _) (World.receive_labels _ _ _)
    · intro k
      simp only [places, was, now, occurs_append, World.receive_journal, drops_append]
      rw [occurs_cons k sink after, occurs_cons k _ after, occurs_receive]
      change _ + s.listed k + _ + List.count k (_ ++ []) = _
      rw [List.append_nil]
    · show Final (s.world.receive sink c).2.journal
      rw [World.receive_journal]
      have there : ∀ other ∈ [sink], other.id ∉ drops s.world.journal := by
        intro other member
        cases List.mem_singleton.mp member
        apply h.not_dropped
        have := occurs_held_pos found
        simp only
        omega
      exact Final.called final c there
  -- between the hand and the lists
  | setSwitch hand s m manager on found live =>
    simp only [System.setSwitch, found]
    split
    · exact ⟨names, once, final⟩
    · refine h.relist rfl rfl ?_
      intro k
      have set := listed_setManager found { manager with switch := .own on } k
      simp only at set
      omega
  | join hand s m manager sink found live =>
    refine h.relist rfl rfl ?_
    intro k
    have set := listed_setManager found
      { manager with sinks := manager.sinks ++ [sink], count := (manager.sinks ++ [sink]).length } k
    simp only [occurs_append] at set
    rw [occurs_cons k sink hand]
    omega
  | clear hand s m manager found =>
    have left : Accounted (manager.sinks ++ hand, s.setManager m { manager with sinks := [], count := 0 }) := by
      refine h.relist rfl rfl ?_
      intro k
      have set := listed_setManager found { manager with sinks := [], count := 0 } k
      simp only [occurs_nil] at set
      rw [occurs_append]
      omega
    exact discard_accounted left
  | found sinks hand s =>
    refine h.relist rfl rfl ?_
    intro k
    rw [listed_newManager, occurs_append]
    omega
  | install hand s sink vacant =>
    refine h.relist rfl rfl ?_
    intro k
    rw [listed_install, occurs_cons k sink hand]
    omega
  | depose hand s m manager seated found bare =>
    refine h.relist rfl rfl ?_
    intro k
    have set := listed_setManager (s := { s with slot := none }) found { manager with retired := true } k
    simp only at set
    change _ + _ = _ + System.listed { s with slot := none } k
    omega

theorem Changes.accounted {x y : Loaded} (changes : Changes x y) (h : Accounted x) : Accounted y := by
  induction changes with
  | refl => exact h
  | tail _ change ih => exact change.accounted ih

end System

/-- At every moment of every run every sink that was built is in one place, and what is dropped stays so. -/
theorem play_accounted (actions : List Action) {s : System} (h : System.Accounted ([], s)) :
    System.Accounted ([], play actions s) :=
  play_induction (P := System.Accounted) (fun _ _ change => change.accounted) (fun _ _ h => ⟨h.names, h.once, h.final⟩)
    (fun _ r h => System.note_accounted h r) actions s h

end LogFanout
