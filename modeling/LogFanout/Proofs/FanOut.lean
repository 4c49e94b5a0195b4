import LogFanout.Proofs.Lifecycle
import LogFanout.Proofs.Ownership

/- Fan-out.

   What a manager is asked for, it asks of all its sinks, in their order (`fan_out`). So of two sinks in a list the later
   one has received what the earlier one has received since the later one came. That does not depend on what the
   operations are: every chain of changes is `Fair` to a manager, that is, it keeps all sinks, and makes the same calls on
   each of them, or drops all; others can only come behind those that are kept. -/
namespace LogFanout

/-! ## Calls in a journal -/

/-- The calls that entries of a journal make on a sink. -/
def callsOn (k : Nat) (entries : List Event) : List Call :=
  entries.filterMap fun e =>
    match e with
    | .called j c => if j = k then some c else none
    | _ => none

@[simp] theorem callsOn_nil (k : Nat) : callsOn k [] = [] := rfl

@[simp] theorem callsOn_append (k : Nat) (a b : List Event) : callsOn k (a ++ b) = callsOn k a ++ callsOn k b := by
  simp [callsOn]

theorem callsOn_dropped (k : Nat) (sinks : List Sink) : callsOn k (sinks.map fun sink => .dropped sink.id) = [] := by
  simp [callsOn]

theorem callsOn_other {k : Nat} {ids : List Nat} (other : k ∉ ids) (c : Call) :
    callsOn k (ids.map fun j => .called j c) = [] := by
  induction ids with
  | nil => rfl
  | cons j ids ih =>
    simp only [List.mem_cons, not_or] at other
    simpa [callsOn, Ne.symm other.1] using ih other.2

theorem callsOn_called (k : Nat) (c : Call) : callsOn k [.called k c] = [c] := by simp [callsOn]

theorem callsOn_called_other {j k : Nat} (other : j ≠ k) (c : Call) : callsOn k [.called j c] = [] := by
  have out : k ∉ [j] := fun same => other (List.mem_singleton.mp same).symm
  exact callsOn_other out c

theorem callsOn_each {k : Nat} {ids : List Nat} (nodup : ids.Nodup) (member : k ∈ ids) (c : Call) :
    callsOn k (ids.map fun j => .called j c) = [c] := by
  induction ids with
  | nil => cases member
  | cons j ids ih =>
    obtain ⟨once, nodup⟩ := List.nodup_cons.mp nodup
    rw [List.map_cons, ← List.singleton_append, callsOn_append]
    by_cases same : j = k
    · subst same
      rw [callsOn_other once]
      simp [callsOn]
    · have later : k ∈ ids := (List.mem_cons.mp member).resolve_left (Ne.symm same)
      rw [ih nodup later]
      simp [callsOn, same]

namespace System

theorem fanOut_journal (s : System) (m : Nat) (c : Call) :
    (s.fanOut m c).world.journal = s.world.journal ++ (s.ids m).map fun k => .called k c := by
  cases found : s.managers[m]? with
  | none => simp [fanOut, ids, found]
  | some manager =>
    rw [fanOut_some found, ids_of found]
    simp [setManager, World.deliver_journal, Function.comp_def]

/-! ## Changes are fair -/

/-- What changes do to the sinks of a manager. They keep all of them and make the same calls on each, or drop all, and
    those that come behind were not there before. -/
structure Fair (m : Nat) (x y : Loaded) (added : List Event) (old new : List Nat) : Prop where
  journal : y.2.world.journal = x.2.world.journal ++ added
  list : y.2.ids m = old ++ new
  all : old = x.2.ids m ∨ old = []
  alike : ∃ calls, ∀ k ∈ old, callsOn k added = calls
  newcomers : ∀ k ∈ new, k ∉ x.2.ids m
  leavers : ∀ k ∈ x.2.ids m, k ∉ y.2.ids m → k ∈ drops y.2.world.journal

theorem Fair.of_same {m : Nat} {x y : Loaded} (added : List Event)
    (journal : y.2.world.journal = x.2.world.journal ++ added) (list : y.2.ids m = x.2.ids m)
    (none : ∀ k ∈ x.2.ids m, callsOn k added = []) : Fair m x y added (x.2.ids m) [] where
  journal := journal
  list := by rw [list, List.append_nil]
  all := .inl rfl
  alike := ⟨[], none⟩
  newcomers := List.forall_mem_nil _
  leavers := fun k here gone => absurd (list ▸ here) gone

theorem Fair.trans {m : Nat} {x y z : Loaded} {added added' : List Event} {old new old' new' : List Nat}
    (h : Fair m x y added old new) (h' : Fair m y z added' old' new') (accounted : Accounted z) :
    ∃ old'' new'', Fair m x z (added ++ added') old'' new'' := by
  have journal : z.2.world.journal = x.2.world.journal ++ (added ++ added') := by
    rw [h'.journal, h.journal, List.append_assoc]
  have dropped {k : Nat} (gone : k ∈ drops y.2.world.journal) : k ∈ drops z.2.world.journal := by
    rw [h'.journal, drops_append]
    exact List.mem_append_left _ gone
  have stays {k : Nat} (here : k ∈ z.2.ids m) : k ∉ drops z.2.world.journal := accounted.not_dropped_of_ids here
  have leavers : ∀ k ∈ x.2.ids m, k ∉ z.2.ids m → k ∈ drops z.2.world.journal := by
    intro k here gone
    by_cases between : k ∈ y.2.ids m
    · exact h'.leavers k between gone
    · exact dropped (h.leavers k here between)
  -- who is new at the end was not there at first, for else it would have been dropped
  have newcomer : ∀ k ∈ new', k ∉ x.2.ids m := by
    intro k member here
    refine stays ?_ (dropped (h.leavers k here (h'.newcomers k member)))
    rw [h'.list]
    exact List.mem_append_right _ member
  obtain ⟨calls, alike⟩ := h.alike
  obtain ⟨calls', alike'⟩ := h'.alike
  -- either those that were kept before are kept again, and have got the calls of both, or nobody is
  rcases h'.all with kept | cleared
  · have list := h'.list
    rw [kept, h.list, List.append_assoc] at list
    refine ⟨old, new ++ new', journal, list, h.all, ⟨calls ++ calls', ?_⟩, ?_, leavers⟩
    · intro k member
      have still : k ∈ old' := by
        rw [kept, h.list]
        exact List.mem_append_left _ member
      rw [callsOn_append, alike k member, alike' k still]
    · intro k member
      rcases List.mem_append.mp member with first | second
      · exact h.newcomers k first
      · exact newcomer k second
  · have list := h'.list
    rw [cleared] at list
    exact ⟨[], new', journal, list, .inr rfl, ⟨[], List.forall_mem_nil _⟩, newcomer, leavers⟩

/-- A call on all sinks of a manager is made once on each, and is no call on a sink of another. -/
theorem fanOut_fair {hand : List Sink} {s : System} (h : Accounted (hand, s)) (m n : Nat) (c : Call) :
    Fair m (hand, s) (hand, s.fanOut n c) ((s.ids n).map fun k => .called k c) (s.ids m) [] where
  journal := fanOut_journal s n c
  list := by rw [ids_fanOut, List.append_nil]
  all := .inl rfl
  alike := by
    by_cases same : m = n
    · subst same
      exact ⟨[c], fun k here => callsOn_each (h.ids_nodup m) here c⟩
    · exact ⟨[], fun k here => callsOn_other (h.ids_disjoint same here) c⟩
  newcomers := List.forall_mem_nil _
  leavers := fun k here gone => absurd (ids_fanOut s n c m ▸ here) gone

theorem newcomer_fair {hand hand' : List Sink} {s : System} (t : System) (newcomer : Manager)
    (managers : t.managers = s.managers ++ [newcomer]) (world : t.world = s.world) (m : Nat) :
    ∃ added old new, Fair m (hand, s) (hand', t) added old new := by
  by_cases known : m < s.managers.length
  · have list : t.ids m = s.ids m := by simp only [ids, managers, List.getElem?_append_left known]
    exact ⟨_, _, _, .of_same [] (by simp [world]) list fun _ _ => rfl⟩
  · have before : s.ids m = [] := by simp only [ids, List.getElem?_eq_none (Nat.not_lt.mp known)]
    refine ⟨[], [], t.ids m, by simp [world], rfl, .inr rfl, ⟨[], List.forall_mem_nil _⟩, ?_,
      ?_⟩
    · intro k _ here
      simp only [before] at here
      cases here
    · intro k here _
      simp only [before] at here
      cases here

/-- Every change is fair to every manager. -/
theorem Change.fair {x y : Loaded} (change : Change x y) (h : Accounted x) (m : Nat) :
    ∃ added old new, Fair m x y added old new := by
  cases change with
  | fanOut hand s n c => exact ⟨_, _, _, fanOut_fair h m n c⟩
  | build hand s label body => exact ⟨_, _, _, .of_same [.built s.world.labels.length] rfl rfl fun _ _ => rfl⟩
  | discard sinks hand s => exact ⟨_, _, _, .of_same _ rfl rfl fun k _ => callsOn_dropped k sinks⟩
  | callHeld hand s name sink c found =>
    refine ⟨_, _, _, .of_same [.called sink.id c] (World.receive_journal s.world sink c) rfl ?_⟩
    intro k here
    have other : sink.id ≠ k := fun same => h.not_listed_of_held found m (same ▸ here)
    exact callsOn_called_other other c
  | setSwitch hand s n manager on found live =>
    have journal : (s.setSwitch n on).world.journal = s.world.journal ++ [] := by
      simp only [System.setSwitch, found, List.append_nil]
      split <;> rfl
    exact ⟨_, _, _, .of_same [] journal (ids_setSwitch s n on m) fun _ _ => rfl⟩
  | join hand s n manager sink found live =>
    have there := ids_setManager found
      { manager with sinks := manager.sinks ++ [sink], count := (manager.sinks ++ [sink]).length } m
    by_cases same : n = m
    · subst same
      have list := there.trans (if_pos rfl)
      rw [List.map_append, ← ids_of found] at list
      refine ⟨[], s.ids n, [sink.id], ?_⟩
      -- the newcomer comes from the hand, and so it was not in the list
      constructor
      · exact (List.append_nil _).symm
      · exact list
      · exact .inl rfl
      · exact ⟨[], fun _ _ => rfl⟩
      · intro k member here
        cases List.mem_singleton.mp member
        exact h.not_listed_of_hand List.mem_cons_self n here
      · intro k here gone
        rw [list] at gone
        exact absurd (List.mem_append_left _ here) gone
    · rw [if_neg same] at there
      exact ⟨_, _, _, .of_same [] (List.append_nil _).symm there fun _ _ => rfl⟩
  | clear hand s n manager found =>
    have there := ids_setManager (s := s.discard manager.sinks) found { manager with sinks := [], count := 0 } m
    by_cases same : n = m
    · -- all leave the list, and each of them is dropped
      subst same
      have list := there.trans (if_pos rfl)
      refine ⟨manager.sinks.map fun sink => .dropped sink.id, [], [], rfl, list, .inr rfl,
        ⟨[], List.forall_mem_nil _⟩, List.forall_mem_nil _, ?_⟩
      intro k here _
      show k ∈ drops (s.world.journal ++ manager.sinks.map fun sink => .dropped sink.id)
      rw [drops_append, drops_dropped, ← ids_of found]
      exact List.mem_append_right _ here
    · rw [if_neg same] at there
      exact ⟨_, _, _, .of_same _ rfl there fun k _ => callsOn_dropped k manager.sinks⟩
  | found sinks hand s => exact newcomer_fair (s.newManager sinks).2 (.ofSinks sinks (.own true)) rfl rfl m
  | install hand s sink vacant => exact newcomer_fair (s.install sink).2 (.ofSinks [sink] .shared) rfl rfl m
  | depose hand s n manager seated found bare =>
    have list := ids_setManager_of_sinks (s := { s with slot := none }) found { manager with retired := true } rfl m
    exact ⟨_, _, _, .of_same [] (List.append_nil _).symm list fun _ _ => rfl⟩
  | _ => exact ⟨_, _, _, .of_same [] (List.append_nil _).symm rfl fun _ _ => rfl⟩

theorem Changes.fair {x y : Loaded} (changes : Changes x y) (h : Accounted x) (m : Nat) :
    ∃ added old new, Fair m x y added old new := by
  induction changes with
  | refl => exact ⟨_, _, _, .of_same [] (List.append_nil _).symm rfl fun _ _ => rfl⟩
  | tail before change ih =>
    obtain ⟨_, _, _, first⟩ := ih
    have between := Changes.accounted before h
    obtain ⟨_, _, _, last⟩ := change.fair between m
    exact ⟨_, first.trans last (change.accounted between)⟩

end System

/-- Every action is fair to every manager. -/
theorem Action.fair (a : Action) {s : System} (h : System.Accounted ([], s)) (m : Nat) :
    ∃ added old new, System.Fair m ([], s) ([], a.act s) added old new := by
  have left : System.Accounted ([], s.leave) := ⟨h.names, h.once, h.final⟩
  -- who is running makes no difference
  have of_leave {t : System} (changes : System.Changes ([], s.leave) ([], t)) :
      ∃ added old new, System.Fair m ([], s) ([], t) added old new := by
    obtain ⟨added, old, new, fair⟩ := changes.fair left m
    exact ⟨added, old, new, fair.journal, fair.list, fair.all, fair.alike, fair.newcomers, fair.leavers⟩
  cases a with
  | op o => exact System.Changes.fair (System.Changes.op s o) h m
  | enter n => exact ⟨_, _, _, .of_same [] (List.append_nil _).symm rfl fun _ _ => rfl⟩
  | note r => exact ⟨_, _, _, .of_same [.nested r] rfl rfl fun _ _ => rfl⟩
  | send n r =>
    exact of_leave (System.Changes.trans (System.Changes.dispatch [] s.leave n r) (System.Changes.release [] _ n))
  | giveUp n => exact of_leave (System.Changes.release [] s.leave n)

/-! ## What a sink has received -/

/-- What a system has added to the journal of another. -/
def System.since (s t : System) : List Event := t.world.journal.drop s.world.journal.length

/-- The calls that a sink has received through a manager: those that are made on it in actions that find it in the list of
    the manager. -/
def received (m k : Nat) : List Action → System → List Call
  | [], _ => []
  | a :: rest, s => (if k ∈ s.ids m then callsOn k (s.since (a.act s)) else []) ++ received m k rest (a.act s)

/-- A tally of what has been received through a manager: of two sinks the later one has received the end of what the
    earlier one has, and sinks that are still to come have received nothing. -/
structure Tally (m : Nat) (got : Nat → List Call) (s : System) : Prop where
  order : (s.ids m).Pairwise fun earlier later => got later <:+ got earlier
  none : ∀ k, k ∉ s.ids m → k ∉ drops s.world.journal → got k = []

theorem Tally.act {m : Nat} {got : Nat → List Call} {s : System} (h : Tally m got s)
    (accounted : System.Accounted ([], s)) (a : Action) :
    Tally m (fun k => got k ++ if k ∈ s.ids m then callsOn k (s.since (a.act s)) else []) (a.act s) := by
  have after : System.Accounted ([], a.act s) := play_accounted [a] accounted
  obtain ⟨added, old, new, fair⟩ := a.fair accounted m
  have since : s.since (a.act s) = added := by
    rw [System.since, fair.journal]
    exact List.drop_left
  have grown {k : Nat} (there : k ∉ drops (a.act s).world.journal) : k ∉ drops s.world.journal := by
    rw [fair.journal, drops_append] at there
    exact fun gone => there (List.mem_append_left _ gone)
  rw [since]
  refine ⟨?_, ?_⟩
  · -- those that were kept have received the same, and those that came have received nothing
    have nothing : ∀ k ∈ new, (got k ++ if k ∈ s.ids m then callsOn k added else []) = [] := by
      intro k member
      have here : k ∈ (a.act s).ids m := fair.list ▸ List.mem_append_right old member
      have there := after.not_dropped_of_ids here
      have out := fair.newcomers k member
      rw [if_neg out, List.append_nil]
      exact h.none k out (grown there)
    rw [fair.list]
    refine List.pairwise_append.mpr ⟨?_, ?_, ?_⟩
    · rcases fair.all with rfl | rfl
      · obtain ⟨calls, alike⟩ := fair.alike
        refine h.order.imp_of_mem fun {earlier later} first second suffix => ?_
        obtain ⟨more, whole⟩ := suffix
        rw [if_pos first, if_pos second, alike earlier first, alike later second, ← whole]
        exact ⟨more, by rw [List.append_assoc]⟩
      · exact List.Pairwise.nil
    · exact List.pairwise_of_forall_mem_list fun earlier _ later member => by
        rw [nothing later member]
        exact List.nil_suffix
    · intro earlier _ later member
      rw [nothing later member]
      exact List.nil_suffix
  · intro k out there
    by_cases here : k ∈ s.ids m
    · exact absurd (fair.leavers k here out) there
    · simp only [here, if_false, List.append_nil]
      exact h.none k here (grown there)

theorem Tally.play {m : Nat} (actions : List Action) {got : Nat → List Call} {s : System} (h : Tally m got s)
    (accounted : System.Accounted ([], s)) :
    Tally m (fun k => got k ++ received m k actions s) (play actions s) := by
  induction actions generalizing got s with
  | nil => simpa [received] using h
  | cons a rest ih =>
    have next := ih (h.act accounted a) (play_accounted [a] accounted)
    simpa [received] using next

/-! ## What a manager is asked for -/

def Step.flat : Step → Bool
  | .op _ => true
  | .format _ _ _ argument => argument.steps.isEmpty

/-- Whether a manager takes records and targets: logging is on, there is a sink, and the manager is not retired. -/
def Manager.takes (m : Manager) (flag : Bool) : Bool := m.enabled flag && !m.sinks.isEmpty && !m.retired

/-- The announcement that logging has been turned on. -/
def announcement (before after : Bool) : List Call := if !before && after then [.write .banner] else []

/-- The calls that a step asks of every sink of the manager that it is addressed to. -/
def Step.asks (m : Manager) (flag : Bool) : Step → List Call
  | .op (.setEnabled _ on) => if m.retired then [] else announcement (m.enabled flag) on
  | .op (.setSaveLevel _ l) =>
    if m.retired then [] else if l.activates then .saveLevel l :: announcement (m.enabled flag) true else []
  | .op (.write _ r) => if m.takes flag ∧ r.level ≠ .internal then [.write r] else []
  | .op (.rename _ name) => if m.takes flag then [.target name] else []
  | .op (.flush _) => [.flush]
  | .format _ l node argument =>
    match argument.text with
    | some text => if m.takes flag ∧ l ≠ .internal then [.write ⟨l, node, text⟩] else []
    | none => []
  | _ => []

/-- Calls on all sinks of a list: each call on one after the other, and then the next call. -/
def each (ids : List Nat) (calls : List Call) : List Event := calls.flatMap fun c => ids.map fun k => .called k c

@[simp] theorem each_nil (ids : List Nat) : each ids [] = [] := rfl

@[simp] theorem each_cons (ids : List Nat) (c : Call) (calls : List Call) :
    each ids (c :: calls) = (ids.map fun k => .called k c) ++ each ids calls :=
  rfl

theorem Manager.Sound.isOpen_eq {m : Manager} (h : m.Sound) (flag : Bool) : m.isOpen flag = m.takes flag := by
  have counted : decide (0 < m.count) = !m.sinks.isEmpty := by
    rw [h.counted]
    cases m.sinks <;> simp
  rw [Manager.isOpen, Manager.takes, counted]

namespace System

variable {s : System} {m : Nat} {manager : Manager}

theorem isOpen_eq_takes (formed : s.WellFormed) (found : s.managers[m]? = some manager) :
    s.isOpen m = manager.takes s.processFlag := by
  simp only [isOpen, found]
  exact (formed.sound m manager found).isOpen_eq s.processFlag

theorem setSwitch_world (on : Bool) : (s.setSwitch m on).world = s.world := by
  unfold setSwitch
  split
  · rfl
  · split <;> rfl

theorem setSwitch_journal (on : Bool) : (s.setSwitch m on).world.journal = s.world.journal :=
  congrArg World.journal (setSwitch_world on)

theorem announce_journal (before after : Bool) :
    (s.announce m before after).world.journal = s.world.journal ++ each (s.ids m) (announcement before after) := by
  cases turned : (!before && after) <;> simp [announce, announcement, turned, fanOut_journal]

theorem setEnabled_journal (found : s.managers[m]? = some manager) (on : Bool) :
    (s.setEnabled m on).world.journal = s.world.journal ++
      each (s.ids m) (if manager.retired then [] else announcement (manager.enabled s.processFlag) on) := by
  simp only [setEnabled, found]
  split
  · simp
  · rw [announce_journal, setSwitch_journal, ids_setSwitch]

theorem setSaveLevel_journal (found : s.managers[m]? = some manager) (l : Level) :
    (s.setSaveLevel m l).world.journal = s.world.journal ++
      each (s.ids m) (if manager.retired then []
        else if l.activates then .saveLevel l :: announcement (manager.enabled s.processFlag) true else []) := by
  simp only [setSaveLevel, found]
  split
  · simp
  · rw [announce_journal]
    cases active : l.activates with
    | true => simp [fanOut_journal, setSwitch_journal, ids_fanOut, ids_setSwitch]
    | false => simp [setSwitch_journal, ids_setSwitch, announcement]

theorem rename_journal (formed : s.WellFormed) (found : s.managers[m]? = some manager) (name : String) :
    (s.rename m name).world.journal = s.world.journal ++
      each (s.ids m) (if manager.takes s.processFlag then [.target name] else []) := by
  cases taken : manager.takes s.processFlag <;>
    simp [System.rename, isOpen_eq_takes formed found, taken, fanOut_journal]

theorem written_journal (formed : s.WellFormed) (found : s.managers[m]? = some manager) (r : Record) :
    (s.written (s.write m r)).2.world.journal = s.world.journal ++
      each (s.ids m) (if manager.takes s.processFlag ∧ r.level ≠ .internal then [.write r] else []) := by
  by_cases level : r.level = .internal
  · simp [System.write, accepts, level, written]
  · cases taken : manager.takes s.processFlag <;>
      simp [System.write, accepts, level, written, isOpen_eq_takes formed found, taken, dispatch, fanOut_journal]

theorem obtain_journal (source : Source) :
    ∃ built, (obtain source s).2.world.journal = s.world.journal ++ built ∧ ∀ k, callsOn k built = [] := by
  cases source with
  | held name =>
    refine ⟨[], ?_, fun _ => rfl⟩
    simp only [obtain, List.append_nil]
    split <;> rfl
  | built spec =>
    simp only [obtain]
    cases spec with
    | probe name hearsFlush => exact ⟨[.built s.world.labels.length], rfl, fun _ => rfl⟩
    | memory name level => exact ⟨[.built s.world.labels.length], rfl, fun _ => rfl⟩
    | file o => exact ⟨[.built s.world.labels.length], rfl, fun _ => rfl⟩
    | openFile o =>
      simp only [World.build]
      split
      · rename_i failed
        split at failed <;> cases failed
        exact ⟨[], (List.append_nil _).symm, fun _ => rfl⟩
      · rename_i made
        split at made <;> cases made
        exact ⟨[.built s.world.labels.length], rfl, fun _ => rfl⟩

theorem registered_journal (source : Source) (append : Bool) :
    ∃ rest,
      (s.withSink source fun sink t =>
        (.truth (t.register m sink append).1, (t.register m sink append).2)).2.world.journal = s.world.journal ++ rest ∧
      ∀ k, callsOn k rest = [] := by
  obtain ⟨built, fetched, none⟩ := obtain_journal (s := s) source
  unfold withSink
  generalize obtain source s = outcome at fetched ⊢
  obtain ⟨made, t⟩ := outcome
  cases made with
  | error r => exact ⟨built, fetched, none⟩
  | ok sink =>
    have fetched : t.world.journal = s.world.journal ++ built := fetched
    obtain ⟨dropped, journal⟩ : ∃ dropped : List Sink, (t.register m sink append).2.world.journal =
        t.world.journal ++ dropped.map fun sink => .dropped sink.id := by
      unfold register
      split
      · exact ⟨[sink], rfl⟩
      · split
        · exact ⟨[sink], rfl⟩
        · cases append
          · exact ⟨_, rfl⟩
          · exact ⟨[], (List.append_nil _).symm⟩
    refine ⟨built ++ dropped.map fun sink => .dropped sink.id, ?_, ?_⟩
    · rw [← List.append_assoc, ← fetched]
      exact journal
    · intro k
      rw [callsOn_append, none, callsOn_dropped, List.nil_append]

theorem inUse_of_reach {whom : Address} (reached : s.reach whom = some m) : s.inUse m = true := by
  cases whom with
  | handle name =>
    obtain ⟨_, _, values, _⟩ := Table.values_put_old (t := s.handles) reached m
    simp [inUse, values]
  | process => simp [inUse, show s.slot = some m from reached]

theorem release_of_inUse (used : s.inUse m = true) : s.release m = s := by simp [release, used]

end System

/-- A step that is addressed to a manager, and in which no other is taken, makes the calls that it asks for, and no other
    call. -/
theorem Step.run_journal {s : System} (formed : s.WellFormed) {whom : Address} {m : Nat} {manager : Manager}
    (reached : s.reach whom = some m) (found : s.managers[m]? = some manager) {step : Step}
    (addressed : step.addressee = some whom) (flat : step.flat = true) :
    ∃ rest, (step.run s).2.world.journal =
      s.world.journal ++ each (s.ids m) (step.asks manager s.processFlag) ++ rest ∧ ∀ k, callsOn k rest = [] := by
  have only {journal : List Event}
      (h : journal = s.world.journal ++ each (s.ids m) (step.asks manager s.processFlag)) :
      ∃ rest, journal = s.world.journal ++ each (s.ids m) (step.asks manager s.processFlag) ++ rest ∧
        ∀ k, callsOn k rest = [] :=
    ⟨[], by rw [h, List.append_nil], fun _ => rfl⟩
  cases step with
  | format other l node argument =>
    cases addressed
    apply only
    have render := argument.render_flat (by simpa [Step.flat] using flat) (s.enter m)
    by_cases level : l = .internal
    · subst level
      have asks : (Step.format whom .internal node argument).asks manager s.processFlag = [] := by
        simp only [Step.asks]
        split <;> simp
      rw [asks, each_nil, List.append_nil, System.run_internal]
    · have taker := formed.taker reached level
      rw [System.isOpen_eq_takes formed found] at taker
      cases taken : manager.takes s.processFlag with
      | false =>
        simp only [taken, Bool.false_eq_true, if_false] at taker
        simp only [Step.run, taker, Step.asks, taken, Bool.false_eq_true, false_and, if_false]
        split <;> simp
      | true =>
        simp only [taken, if_true] at taker
        rw [Step.run_format taker, render]
        have left : (s.enter m).leave = s := rfl
        have used := System.inUse_of_reach reached
        cases text : argument.text with
        | none => simp [Step.asks, text, left, System.release_of_inUse used]
        | some own =>
          have still : (s.fanOut m (.write ⟨l, node, own⟩)).inUse m = true := (System.fanOut_inUse s m _ m).trans used
          simp only [left, System.dispatch, System.release_of_inUse still, System.fanOut_journal]
          simp [Step.asks, text, taken, level]
  | op o =>
    cases o with
    | register other source append =>
      cases addressed
      obtain ⟨rest, journal, none⟩ := System.registered_journal (s := s) (m := m) source append
      refine ⟨rest, ?_, none⟩
      rw [Step.run, System.run_register reached, journal]
      simp [Step.asks]
    | setEnabled other on =>
      cases addressed
      apply only
      rw [Step.run, System.run_setEnabled reached]
      exact System.setEnabled_journal found on
    | setSaveLevel other l =>
      cases addressed
      apply only
      rw [Step.run, System.run_setSaveLevel reached]
      exact System.setSaveLevel_journal found l
    | status other =>
      apply only
      cases other with
      | handle name =>
        simp only [Step.run, Op.run, System.withHandle, Step.asks]
        split <;> simp
      | process => simp [Step.run, Op.run, Step.asks]
    | write other r =>
      cases addressed
      apply only
      rw [Step.run, formed.run_write reached]
      exact System.written_journal formed found r
    | rename other name =>
      cases addressed
      apply only
      rw [Step.run, System.run_rename reached]
      exact System.rename_journal formed found name
    | flush other =>
      cases addressed
      apply only
      rw [Step.run, System.run_flush reached]
      simp [System.flush, System.fanOut_journal, Step.asks]
    | _ => cases addressed

/-- At every moment of every run: a step that is addressed to a manager, and in which no other is taken, makes the calls
    that it asks for, each once on every sink of the manager in their order, and no other call. And of two sinks of a
    manager, what the later one has received through it is the end of what the earlier one has received. -/
theorem fan_out (stamp : String) (steps : List Step) (n : Nat) :
    let p := (course steps (.fresh stamp)).take n
    let s := play p (.fresh stamp)
    (∀ whom m, s.reach whom = some m → ∃ manager, s.managers[m]? = some manager ∧ (s.ids m).Nodup ∧
      ∀ step : Step, step.addressee = some whom → step.flat = true →
        ∃ rest, (step.run s).2.world.journal =
          s.world.journal ++ each (s.ids m) (step.asks manager s.processFlag) ++ rest ∧ ∀ k, callsOn k rest = []) ∧
    ∀ m, (s.ids m).Pairwise fun earlier later =>
      received m later p (.fresh stamp) <:+ received m earlier p (.fresh stamp) := by
  intro p s
  have formed : s.WellFormed := play_wellFormed p (.fresh stamp)
  have accounted : System.Accounted ([], s) := play_accounted p (.fresh stamp)
  refine ⟨?_, ?_⟩
  · intro whom m reached
    obtain ⟨manager, found⟩ := play_reach p reached
    exact ⟨manager, found, accounted.ids_nodup m, fun step addressed flat =>
      Step.run_journal formed reached found addressed flat⟩
  · intro m
    have start : Tally m (fun _ => []) (.fresh stamp) := ⟨List.Pairwise.nil, fun _ _ _ => rfl⟩
    have tally := (start.play p (.fresh stamp)).order
    simpa using tally

end LogFanout
