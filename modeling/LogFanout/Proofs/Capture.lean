import LogFanout.Proofs.Banner
import LogFanout.Proofs.Buffers

/- What a memory sink captures.

   The reference is read off the actions alone. An action gives a level to the sinks of a manager if it is a setter that is
   addressed to the manager, with a level that activates logging (`Action.levelFor`); the last of these is the effective
   level. And a manager hands out a record that it has taken, or the announcement (`Action.recordsOf`). `captured` are the
   lines that a sink with the manager has to keep of that, and `drained` those that are taken from its buffer meanwhile.

   For a sink in the list the calls of an action come to just that: the level, if there is one, and then the records
   (`Action.hears`). So one action stores what it has to (`Action.capture`), and a run the sum of it (`play_capture`). -/
namespace LogFanout

/-! ## What is to be captured -/

/-- The level that an action gives to the sinks of a manager, if it does. -/
def Action.levelFor (m : Nat) (a : Action) (s : System) : Option Level :=
  match a with
  | .op (.setSaveLevel whom l) => if s.reach whom = some m ∧ .always < l then some l else none
  | _ => none

/-- The records that a manager hands out in an action: a write that it takes, a formatted record that goes out, and the
    announcement if a setter turns logging on for the manager. -/
def Action.recordsOf (m : Nat) (a : Action) (s : System) : List Record :=
  match a with
  | .op (.write whom r) => if s.reach whom = some m ∧ s.isOpen m ∧ r.level ≠ .internal then [r] else []
  | .send n r => if n = m then [r] else []
  | a => if m ∈ a.turnsOn s then [.banner] else []

/-- The effective level of the sinks of a manager after actions: the last that they have been given, or else the first. -/
def effective (m : Nat) : List Action → Level → System → Level
  | [], level, _ => level
  | a :: rest, level, s => effective m rest ((a.levelFor m s).getD level) (a.act s)

/-- The lines that a sink has to keep of what a manager hands out while the sink is in its list, at the effective level of
    the moment. -/
def captured (m k : Nat) : List Action → Level → System → List String
  | [], _, _ => []
  | a :: rest, level, s =>
    let level := (a.levelFor m s).getD level
    (if k ∈ s.ids m then ((a.recordsOf m s).filter fun r => level.Admits r.level).map Record.reading else []) ++
      captured m k rest level (a.act s)

def drained (k : Nat) : List Action → System → List String
  | [], _ => []
  | a :: rest, s => a.drains k s ++ drained k rest (a.act s)

/-! ## What calls come to -/

/-- For a memory sink calls come to a new level, if there is one, and then to records. -/
def MemorySink.Hears (calls : List Call) (level : Option Level) (records : List Record) : Prop :=
  ∀ mem : MemorySink,
    mem.stored calls = (records.filter fun r => (level.getD mem.saveLevel).Admits r.level).map Record.reading ∧
      (mem.after calls).saveLevel = level.getD mem.saveLevel

namespace MemorySink.Hears

theorem nothing : Hears [] none [] := fun _ => ⟨rfl, rfl⟩

theorem target (name : String) : Hears [.target name] none [] := fun _ => ⟨rfl, rfl⟩

theorem flush : Hears [.flush] none [] := fun _ => ⟨rfl, rfl⟩

theorem write (r : Record) : Hears [.write r] none [r] := by
  intro mem
  refine ⟨?_, rfl⟩
  by_cases kept : mem.saveLevel.Admits r.level <;> simp [stored, receive, Level.keeps_iff, kept, Record.display_eq]

theorem saveLevel {calls : List Call} {records : List Record} (heard : Hears calls none records) (l : Level) :
    Hears (.saveLevel l :: calls) (some l) records := by
  intro mem
  exact heard { mem with saveLevel := l }

theorem announcement (before after : Bool) :
    Hears (announcement before after) none (if !before && after then [.banner] else []) := by
  unfold LogFanout.announcement
  split
  · exact write .banner
  · exact nothing

end MemorySink.Hears

variable {s : System} {m k : Nat} {mem : MemorySink}

theorem System.Possible.callsOn_each (h : s.Possible) (here : k ∈ s.ids m) (n : Nat) (calls : List Call) :
    callsOn k (each (s.ids n) calls) = if n = m then calls else [] := by
  rw [callsOn_each_of_nodup (h.accounted.ids_nodup n)]
  by_cases same : n = m
  · subst same
    rw [if_pos here, if_pos rfl]
  · rw [if_neg (h.accounted.ids_disjoint (Ne.symm same) here), if_neg same]

/-- A manager with a sink is not retired. -/
theorem System.Possible.live_of_ids (h : s.Possible) (here : k ∈ s.ids m) :
    ∃ manager, s.managers[m]? = some manager ∧ manager.retired = false := by
  cases found : s.managers[m]? with
  | none => simp [System.ids, found] at here
  | some manager =>
    refine ⟨manager, rfl, Bool.eq_false_iff.mpr fun retired => ?_⟩
    rw [System.ids_of found, (h.formed.sound m manager found).bare retired] at here
    cases here

theorem Op.hears (h : s.Possible) (here : k ∈ s.ids m) {o : Op} {whom : Address}
    (addressed : (Step.op o).addressee = some whom) {level : Option Level} {records : List Record}
    (reached : s.reach whom = some m → ∀ manager, s.managers[m]? = some manager → manager.retired = false →
      MemorySink.Hears ((Step.op o).asks manager s.processFlag) level records)
    (other : s.reach whom ≠ some m → level = none ∧ records = []) :
    MemorySink.Hears (callsOn k (o.calls s)) level records := by
  rw [Op.calls_addressed addressed]
  by_cases same : s.reach whom = some m
  · obtain ⟨manager, found, live⟩ := h.live_of_ids here
    rw [same, Option.elim_some, h.callsOn_each here, if_pos rfl]
    simp only [System.asks, found]
    exact reached same manager found live
  · obtain ⟨rfl, rfl⟩ := other same
    cases whose : s.reach whom with
    | none => exact .nothing
    | some n =>
      have different : n ≠ m := fun one => same (one ▸ whose)
      rw [Option.elim_some, h.callsOn_each here, if_neg different]
      exact .nothing

/-- An operation that asks for neither gives no level and no record. -/
theorem Op.hears_aside (h : s.Possible) (here : k ∈ s.ids m) {o : Op} {whom : Address}
    (addressed : (Step.op o).addressee = some whom)
    (asked : ∀ manager : Manager, MemorySink.Hears ((Step.op o).asks manager s.processFlag) none []) :
    MemorySink.Hears (callsOn k (o.calls s)) none [] :=
  Op.hears h here addressed (fun _ manager _ _ => asked manager) fun _ => ⟨rfl, rfl⟩

theorem Op.hears_end (h : s.Possible) (here : k ∈ s.ids m) :
    MemorySink.Hears (callsOn k (s.slot.elim [] fun n => each (s.ids n) [.flush])) none [] := by
  cases s.slot with
  | none => exact .nothing
  | some n =>
    rw [Option.elim_some, h.callsOn_each here]
    split
    · exact .flush
    · exact .nothing

/-- The calls of an action come to its level and its records. -/
theorem Action.hears (h : s.Possible) (here : k ∈ s.ids m) (a : Action) :
    MemorySink.Hears (callsOn k (a.calls s)) (a.levelFor m s) (a.recordsOf m s) := by
  have live : s.live m = true := System.live_iff.mpr (h.live_of_ids here)
  -- what is no setter announces nothing
  have silent (still : a.switch? = none) {calls : List Call} (heard : MemorySink.Hears calls none []) :
      MemorySink.Hears calls none (if m ∈ a.turnsOn s then [.banner] else []) := by
    rw [Action.turnsOn_of_no_switch still, if_neg List.not_mem_nil]
    exact heard
  cases a with
  | enter n => exact silent rfl .nothing
  | note r => exact silent rfl .nothing
  | giveUp n => exact silent rfl .nothing
  | send n r =>
    simp only [Action.calls, Action.levelFor, Action.recordsOf]
    rw [h.callsOn_each here]
    split
    · exact .write r
    · exact .nothing
  | op o =>
    cases o with
    | setEnabled whom on =>
      have turned : m ∈ (Action.op (.setEnabled whom on)).turnsOn s ↔ _ := Action.mem_turnsOn_iff rfl live
      refine Op.hears h here (o := .setEnabled whom on) rfl (fun reached manager found active => ?_) fun other => ⟨rfl, ?_⟩
      · simp only [Action.levelFor, Action.recordsOf, turned, reached, true_and, System.enabled_of found]
        simp only [Step.asks, active, Bool.false_eq_true, if_false]
        exact .announcement _ _
      · simp only [Action.recordsOf, turned, other, false_and, if_false]
    | setSaveLevel whom l =>
      have turned : m ∈ (Action.op (.setSaveLevel whom l)).turnsOn s ↔ _ := Action.mem_turnsOn_iff rfl live
      refine Op.hears h here (o := .setSaveLevel whom l) rfl (fun reached manager found active => ?_) fun other => ⟨?_, ?_⟩
      · simp only [Action.levelFor, Action.recordsOf, turned, reached, true_and, System.enabled_of found,
          ← Level.activates_iff]
        simp only [Step.asks, active, Bool.false_eq_true, if_false]
        cases l.activates with
        | true => exact .saveLevel (.announcement _ _) l
        | false => simpa using MemorySink.Hears.nothing
      · simp only [Action.levelFor, other, false_and, if_false]
      · simp only [Action.recordsOf, turned, other, false_and, if_false]
    | write whom r =>
      refine Op.hears h here (o := .write whom r) rfl (fun reached manager found active => ?_) fun other => ⟨rfl, ?_⟩
      · simp only [Action.levelFor, Action.recordsOf, reached, true_and, System.isOpen_eq_takes h.formed found, Step.asks]
        split
        · exact .write r
        · exact .nothing
      · simp only [Action.recordsOf, other, false_and, if_false]
    | rename whom name =>
      refine silent rfl (Op.hears_aside h here (o := .rename whom name) rfl fun manager => ?_)
      simp only [Step.asks]
      split
      · exact .target name
      · exact .nothing
    | flush whom => exact silent rfl (Op.hears_aside h here (o := .flush whom) rfl fun _ => .flush)
    | register whom source append =>
      exact silent rfl (Op.hears_aside h here (o := .register whom source append) rfl fun _ => .nothing)
    | status whom => exact silent rfl (Op.hears_aside h here (o := .status whom) rfl fun _ => .nothing)
    | create source handle => exact silent rfl (Op.hears_end h here)
    | destroy => exact silent rfl (Op.hears_end h here)
    | callSink name c =>
      refine silent rfl ?_
      simp only [Action.calls, Op.calls]
      cases found : s.held.get? name with
      | none => exact .nothing
      | some sink =>
        have other : sink.id ≠ k := fun same => h.accounted.not_listed_of_held found m (same ▸ here)
        rw [Option.elim_some, callsOn_called_other other]
        exact .nothing
    | _ => exact silent rfl .nothing

/-! ## One action, and a run -/

/-- What has been dropped stays dropped. -/
theorem Action.dropped (h : s.Possible) (a : Action) (gone : k ∈ drops s.world.journal) :
    k ∈ drops (a.act s).world.journal := by
  obtain ⟨added, journal, _⟩ := a.act_calls h
  rw [journal, drops_append]
  exact List.mem_append_left _ gone

/-- A sink that leaves the list of a manager is dropped. -/
theorem Action.listed_or_dropped (h : s.Possible) (a : Action) (whose : k ∈ s.ids m ∨ k ∈ drops s.world.journal) :
    k ∈ (a.act s).ids m ∨ k ∈ drops (a.act s).world.journal := by
  obtain here | gone := whose
  · obtain ⟨_, _, _, fair⟩ := a.fair h.accounted m
    by_cases still : k ∈ (a.act s).ids m
    · exact .inl still
    · exact .inr (fair.leavers k here still)
  · exact .inr (a.dropped h gone)

theorem Action.callsOn_unlisted (h : s.Possible) (a : Action) (unlisted : ∀ n, k ∉ s.ids n)
    (unnamed : ∀ name c sink, a = .op (.callSink name c) → s.held.get? name = some sink → sink.id ≠ k) :
    callsOn k (a.calls s) = [] := by
  have nobody (n : Nat) (calls : List Call) : callsOn k (each (s.ids n) calls) = [] := by
    rw [callsOn_each_of_nodup (h.accounted.ids_nodup n), if_neg (unlisted n)]
  have unasked {o : Op} {whom : Address} (addressed : (Step.op o).addressee = some whom) :
      callsOn k (o.calls s) = [] := by
    rw [Op.calls_addressed addressed]
    cases s.reach whom with
    | none => rfl
    | some n => exact nobody n _
  have ended : callsOn k (s.slot.elim [] fun n => each (s.ids n) [.flush]) = [] := by
    cases s.slot with
    | none => rfl
    | some n => exact nobody n _
  cases a with
  | send n r => exact nobody n _
  | op o =>
    cases o with
    | create source handle => exact ended
    | destroy => exact ended
    | callSink name c =>
      simp only [Action.calls, Op.calls]
      cases found : s.held.get? name with
      | none => rfl
      | some sink => exact callsOn_called_other (unnamed name c sink rfl found) c
    | register whom source append => exact unasked (o := .register whom source append) rfl
    | setEnabled whom on => exact unasked (o := .setEnabled whom on) rfl
    | setSaveLevel whom l => exact unasked (o := .setSaveLevel whom l) rfl
    | status whom => exact unasked (o := .status whom) rfl
    | write whom r => exact unasked (o := .write whom r) rfl
    | rename whom name => exact unasked (o := .rename whom name) rfl
    | flush whom => exact unasked (o := .flush whom) rfl
    | _ => rfl
  | _ => rfl

/-- What an action takes from the buffer of a sink with a manager and what it leaves there is what was there and what the
    sink has to keep; and the sink saves at the effective level from then on. -/
theorem Action.capture (h : s.Possible) (born : k < s.world.labels.length) (bears : System.Bears k mem ([], s))
    (whose : k ∈ s.ids m ∨ k ∈ drops s.world.journal) (a : Action) :
    ∃ later : MemorySink, System.Bears k later ([], a.act s) ∧ later.saveLevel = (a.levelFor m s).getD mem.saveLevel ∧
      a.drains k s ++ (a.act s).world.buffer k = s.world.buffer k ++
        if k ∈ s.ids m then ((a.recordsOf m s).filter fun r => later.saveLevel.Admits r.level).map Record.reading
        else [] := by
  have stored := a.act_buffer h bears
  obtain here | gone := whose
  · obtain ⟨kept, level⟩ := a.hears h here mem
    refine ⟨_, a.bears h born bears, level, ?_⟩
    rw [stored, kept, level, if_pos here]
  · -- A sink that is gone bears any state, so the effective level can go on without it.
    have unlisted (n : Nat) : k ∉ s.ids n := fun here => h.accounted.not_dropped_of_ids here gone
    have uncalled : callsOn k (a.calls s) = [] := by
      refine a.callsOn_unlisted h unlisted fun name c sink _ found same => ?_
      have there := System.Has.stands (x := ([], s)) (.inr (.inr ⟨name, found⟩))
      exact h.accounted.not_dropped there (same ▸ gone)
    refine ⟨{ mem with saveLevel := (a.levelFor m s).getD mem.saveLevel }, ?_, rfl, ?_⟩
    · exact (h.act a).accounted.bears_of_dropped (a.dropped h gone) _
    · rw [stored, uncalled, if_neg (unlisted m)]
      rfl

/-- What is taken from the buffer of a sink with a manager in a run and what is left there in the end is what was there and
    what the sink has to keep; and in the end the sink saves at the effective level. -/
theorem play_capture (h : s.Possible) (born : k < s.world.labels.length) (bears : System.Bears k mem ([], s))
    (whose : k ∈ s.ids m ∨ k ∈ drops s.world.journal) (q : List Action) :
    drained k q s ++ (play q s).world.buffer k = s.world.buffer k ++ captured m k q mem.saveLevel s ∧
      ∃ later : MemorySink, System.Bears k later ([], play q s) ∧ later.saveLevel = effective m q mem.saveLevel s := by
  induction q generalizing s mem with
  | nil => exact ⟨(List.append_nil _).symm, mem, bears, rfl⟩
  | cons a rest ih =>
    obtain ⟨next, bears', level, one⟩ := a.capture h born bears whose
    obtain ⟨more, last⟩ :=
      ih (h.act a) (Nat.lt_of_lt_of_le born (a.labels_le s)) bears' (a.listed_or_dropped h whose)
    rw [level] at more last one
    refine ⟨?_, last⟩
    rw [drained, play_cons, List.append_assoc, more, ← List.append_assoc, one, List.append_assoc]
    rfl

/-! ## How a sink comes to a manager -/

def Op.gives : Op → Option Source
  | .make _ source | .create source _ | .register _ source _ => some source
  | _ => none

/-- A memory sink that goes from hand to a manager without being called arrives as it is. -/
theorem System.arrive {t u : System} {hand : List Sink} (accounted : System.Accounted (hand, t))
    (inHand : ⟨k, .memory mem⟩ ∈ hand) (changes : System.Changes (hand, t) ([], u)) (calls : t.Calls u [])
    (here : k ∈ u.ids m) : ⟨k, .memory mem⟩ ∈ u.sinks m := by
  have has : System.Has ⟨k, .memory mem⟩ (hand, t) := .inl inHand
  obtain ⟨added, journal, bears⟩ := changes.bears accounted (accounted.born has) (accounted.bears has)
  have uncalled := calls.since k
  rw [System.since, show u.world.journal = t.world.journal ++ added from journal, List.drop_left] at uncalled
  rw [uncalled] at bears
  exact bears.listed here

theorem System.withdraw_labels (s : System) : s.withdraw.world.labels = s.world.labels := by
  unfold System.withdraw
  split
  · rfl
  · unfold System.retire
    split
    · rfl
    · exact World.deliver_labels _ _ s.world

/-- A system in which a memory sink has just been built. -/
def System.withMemory (s : System) (name : String) (level : Option Level) : System :=
  (System.obtain (.built (.memory name level)) s).2

/-- A memory sink that has just been built and goes on to a manager arrives as it was built. -/
theorem System.arrive_built {u : System} (name : String) {level : Option Level} (accounted : System.Accounted ([], s))
    (changes : System.Changes ([⟨s.world.labels.length, .memory (.make level)⟩], s.withMemory name level) ([], u))
    (calls : (s.withMemory name level).Calls u []) (here : s.world.labels.length ∈ u.ids m) :
    ⟨s.world.labels.length, .memory (.make level)⟩ ∈ u.sinks m := by
  have obtained : System.obtain (.built (.memory name level)) s =
      (.ok ⟨s.world.labels.length, .memory (.make level)⟩, s.withMemory name level) := rfl
  have built := (System.Changes.obtain_ok [] s obtained).1
  exact System.arrive (System.Changes.accounted built accounted) List.mem_cons_self changes calls here

theorem Op.gives_built (h : s.Possible) {o : Op} {name : String} {level : Option Level}
    (gives : o.gives = some (.built (.memory name level))) (here : s.world.labels.length ∈ (o.run s).2.ids m) :
    ⟨s.world.labels.length, .memory (.make level)⟩ ∈ (o.run s).2.sinks m := by
  cases o with
  | make handle source =>
    cases gives
    have founded := System.Changes.one (.found [⟨s.world.labels.length, .memory (.make level)⟩] []
      (s.withMemory name level))
    refine System.arrive_built name h.accounted (founded.trans ?_) ?_ here
    · refine System.Changes.keepHandle [] _ handle _ (.inl ?_)
      show s.managers.length < (s.managers ++ [_]).length
      simp
    · exact System.Calls.keepHandle (System.newManager _ _).2 handle _
  | create source handle =>
    cases gives
    -- The instance that ends builds no sink, so the new one has the next number of before.
    rw [← s.withdraw_labels] at here ⊢
    have ended := System.Changes.accounted (System.Changes.withdraw [] s) h.accounted
    have vacant : (s.withdraw.withMemory name level).slot = none := System.Changes.withdraw_slot s
    have installed := System.Changes.one (.install [] (s.withdraw.withMemory name level)
      ⟨s.withdraw.world.labels.length, .memory (.make level)⟩ vacant)
    cases handle with
    | none => exact System.arrive_built name ended installed (.of_journal rfl) here
    | some other =>
      refine System.arrive_built name ended (installed.trans ?_) ?_ here
      · exact System.Changes.keepHandle [] _ other _ (.inr rfl)
      · exact System.Calls.keepHandle (System.install _ _).2 other _
  | register whom source append =>
    cases gives
    -- If there is no manager under the handle, nothing is built.
    have nowhere := h.accounted.not_listed_of_unborn (Nat.le_refl _) m
    cases whom with
    | handle other =>
      simp only [Op.run, System.withHandle] at here ⊢
      split
      · rename_i missing
        rw [missing] at here
        exact absurd here nowhere
      · rename_i n found
        rw [found] at here
        exact System.arrive_built name h.accounted (System.Changes.register [] _ n _ append)
          (System.Calls.register _ n _ append) here
    | process =>
      exact System.arrive_built name h.accounted (System.Changes.registerInstance [] _ _ append)
        (System.Calls.registerInstance _ _ append) here
  | _ => cases gives

/-- A memory sink that was under a name and comes to a manager is there as it was, and its buffer is as it was. -/
theorem Action.arrive_held (h : s.Possible) (a : Action) {name : String}
    (found : s.held.get? name = some ⟨k, .memory mem⟩) (here : k ∈ (a.act s).ids m) :
    ⟨k, .memory mem⟩ ∈ (a.act s).sinks m ∧ a.drains k s ++ (a.act s).world.buffer k = s.world.buffer k := by
  have has : System.Has ⟨k, .memory mem⟩ ([], s) := .inr (.inr ⟨name, found⟩)
  have bears := h.accounted.bears has
  have unlisted (n : Nat) : k ∉ s.ids n := h.accounted.not_listed_of_held found n
  have uncalled : callsOn k (a.calls s) = [] := by
    refine a.callsOn_unlisted h unlisted fun other c sink same found' _ => ?_
    -- a call under a name changes no list
    subst same
    simp only [Action.act, Op.run, System.callSink, found'] at here
    exact unlisted m here
  have after := a.bears h (h.accounted.born has) bears
  have stored := a.act_buffer h bears
  rw [uncalled] at after stored
  exact ⟨after.listed here, stored.trans (List.append_nil _)⟩

theorem Action.buffer_unborn (h : s.Possible) (a : Action) (unborn : s.world.labels.length ≤ k)
    (empty : s.world.buffer k = []) : (a.act s).world.buffer k = [] := by
  have stored := a.act_buffer h (h.accounted.bears_of_unborn unborn (.make none))
  have uncalled : callsOn k (a.calls s) = [] := by
    refine a.callsOn_unlisted h (h.accounted.not_listed_of_unborn unborn) fun name c sink _ found same => ?_
    exact h.accounted.not_has (same ▸ unborn) (.inr (.inr ⟨name, found⟩))
  rw [uncalled, empty] at stored
  exact (List.append_eq_nil_iff.mp stored).2

theorem play_buffer_unborn (h : s.Possible) (empty : ∀ k, s.world.labels.length ≤ k → s.world.buffer k = [])
    (p : List Action) (unborn : (play p s).world.labels.length ≤ k) : (play p s).world.buffer k = [] := by
  induction p generalizing s with
  | nil => exact empty k unborn
  | cons a rest ih =>
    refine ih (h.act a) (fun k unborn => ?_) unborn
    have before := Nat.le_trans (a.labels_le s) unborn
    exact a.buffer_unborn h before (empty k before)

/-- What a memory sink captures, after the actions of any run. A sink that an operation builds and gives to a manager starts
    there at the level that it was built with, and with an empty buffer; one that was under a name comes as it was. As
    long as it lives, and after that, what is taken from its buffer and what is left there are what was there and the
    lines that the manager has given it to keep: its records while the sink was in the list, as far as the effective level
    of the moment keeps them, in their order. And those who ask for a buffer get all of it, as lines, as one text with a
    line feed between each line and the next, or on the console, and leave it empty. -/
theorem memory_capture (stamp : String) (p : List Action) :
    let s := play p (.fresh stamp)
    (∀ (o : Op) (name : String) (level : Option Level) (m : Nat), o.gives = some (.built (.memory name level)) →
      s.world.labels.length ∈ (o.run s).2.ids m →
        ⟨s.world.labels.length, .memory ⟨level.getD .debug, none⟩⟩ ∈ (o.run s).2.sinks m ∧
        (o.run s).2.world.buffer s.world.labels.length = []) ∧
    (∀ (a : Action) (name : String) (k : Nat) (mem : MemorySink) (m : Nat),
      s.held.get? name = some ⟨k, .memory mem⟩ → k ∈ (a.act s).ids m →
        ⟨k, .memory mem⟩ ∈ (a.act s).sinks m ∧ a.drains k s ++ (a.act s).world.buffer k = s.world.buffer k) ∧
    (∀ (m k : Nat) (mem : MemorySink), ⟨k, .memory mem⟩ ∈ s.sinks m → ∀ q : List Action,
      drained k q s ++ (play q s).world.buffer k = s.world.buffer k ++ captured m k q mem.saveLevel s ∧
      ∀ later : MemorySink, ⟨k, .memory later⟩ ∈ (play q s).sinks m →
        later.saveLevel = effective m q mem.saveLevel s) ∧
    ∀ (logs : String) (k : Nat), s.logs.get? logs = some k →
      let lines := s.world.buffer k
      (Op.drainLines logs).run s = (.lines lines, s.clearBuffer k) ∧
      (Op.drainText logs).run s = (.text ("\n".intercalate lines), s.clearBuffer k) ∧
      (Op.bufferSize logs).run s = (.bufferSize lines.length, s) ∧
      (Op.drainToConsole logs).run s = (.nothing, (s.showAll lines).clearBuffer k) ∧
      ∀ j, (s.clearBuffer k).world.buffer j = if k = j then [] else s.world.buffer j := by
  intro s
  have h : s.Possible := .play stamp p
  refine ⟨?_, ?_, ?_, ?_⟩
  · intro o name level m gives here
    refine ⟨o.gives_built h gives here, ?_⟩
    exact (Action.op o).buffer_unborn h (Nat.le_refl _)
      (play_buffer_unborn (.play stamp []) (fun _ _ => rfl) p (Nat.le_refl _))
  · intro a name k mem m found here
    exact a.arrive_held h found here
  · intro m k mem member q
    have has : System.Has ⟨k, .memory mem⟩ ([], s) := .inr (.inl ⟨m, member⟩)
    have listed : k ∈ s.ids m := System.ids_of_sinks member
    obtain ⟨lines, last, bears, level⟩ :=
      play_capture h (h.accounted.born has) (h.accounted.bears has) (.inl listed) q
    refine ⟨lines, fun later there => ?_⟩
    have body := bears ⟨k, .memory later⟩ rfl (.inr (.inl ⟨m, there⟩))
    cases body
    exact level
  · intro logs k found lines
    refine ⟨?_, ?_, ?_, ?_, s.world.clearBuffer_buffer k⟩
    · simp only [Op.run, System.withBuffer, found]
      rfl
    · simp only [Op.run, System.withBuffer, found]
      rfl
    · simp only [Op.run, System.withBuffer, found]
      rfl
    · simp only [Op.run, System.withBuffer, found, System.sayAll_eq]
      rfl

/-- A level that turns logging off does not touch the effective level, so what comes after logging has been turned on again
    is kept as before. -/
example :
    let s := play [.op (.make "a" (.built (.memory "kept" (some .warning))))] (.fresh "T")
    let q : List Action :=
      [.op (.setSaveLevel (.handle "a") .always), .op (.write (.handle "a") ⟨.fatal, none, "unheard"⟩),
        .op (.setEnabled (.handle "a") true), .op (.drainLines "kept"),
        .op (.write (.handle "a") ⟨.info, none, "too chatty"⟩), .op (.write (.handle "a") ⟨.error, some 2, "disk full"⟩)]
    drained 0 q s = ["Logging started"] ∧ (play q s).world.buffer 0 = ["Node002, disk full"] := by
  decide

end LogFanout
