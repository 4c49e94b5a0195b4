import LogFanout.Proofs.Calls
import LogFanout.Proofs.Whereabouts

/- What is in a buffer.

   A buffer loses lines only when somebody takes them (`Action.drains`), and gets lines only from calls on its sink. So
   what an action takes from a buffer and what it leaves there are what was there and what the calls store, one behind the
   other (`Action.act_buffer`). Operations on a manager come down to calls on all its sinks (`System.Asked`), and operations
   that call nobody leave every buffer as it is (`System.SameBuffers`). -/
namespace LogFanout
namespace System

variable {s t : System} {m k : Nat} {mem : MemorySink}

/-! ## Calls on all sinks of a manager -/

def fanOuts (n : Nat) : List Call → System → System
  | [], s => s
  | c :: rest, s => fanOuts n rest (s.fanOut n c)

theorem fanOut_buffer (accounted : Accounted ([], s)) (bears : Bears k mem ([], s)) (n : Nat) (c : Call) :
    (s.fanOut n c).world.buffer k =
        s.world.buffer k ++ mem.stored (callsOn k ((s.ids n).map fun j => .called j c)) ∧
      Bears k (mem.after (callsOn k ((s.ids n).map fun j => .called j c))) ([], s.fanOut n c) := by
  refine ⟨?_, ?_⟩
  · by_cases here : k ∈ s.ids n
    · have member := bears.listed here
      have received := (fanOut_memory (accounted.ids_nodup n) member rfl c).2
      rw [MemorySink.receive_eq] at received
      rw [callsOn_each (accounted.ids_nodup n) here, received]
      exact congrArg _ (List.append_nil _).symm
    · rw [callsOn_other here]
      refine Eq.trans ?_ (List.append_nil _).symm
      cases found : s.managers[n]? with
      | none => simp only [fanOut, found]
      | some manager =>
        rw [fanOut_some found]
        rw [ids_of found] at here
        exact World.deliver_buffer_other here c s.world
  · exact bears.fanOut accounted n c

theorem fanOuts_buffer (accounted : Accounted ([], s)) (bears : Bears k mem ([], s)) (n : Nat) (calls : List Call) :
    (s.fanOuts n calls).world.buffer k = s.world.buffer k ++ mem.stored (callsOn k (each (s.ids n) calls)) := by
  induction calls generalizing s mem with
  | nil => exact (List.append_nil _).symm
  | cons c rest ih =>
    obtain ⟨stored, bears⟩ := fanOut_buffer accounted bears n c
    have more := ih ((Change.fanOut [] s n c).accounted accounted) bears
    rw [ids_fanOut, stored] at more
    rw [fanOuts, more, each_cons, callsOn_append, MemorySink.stored_append, List.append_assoc]

/-- What comes of a request that makes calls on all sinks of a manager: apart from the switch, just the calls. -/
def Asked (n : Nat) (calls : List Call) (s t : System) : Prop :=
  ∃ u : System, t = u.fanOuts n calls ∧ u.world = s.world ∧ (∀ m, u.sinks m = s.sinks m) ∧ u.held = s.held ∧
    Accounted ([], u)

namespace Asked

variable {n : Nat} {calls : List Call}

theorem buffer (asked : Asked n calls s t) (bears : Bears k mem ([], s)) :
    t.world.buffer k = s.world.buffer k ++ mem.stored (callsOn k (each (s.ids n) calls)) := by
  obtain ⟨u, rfl, world, sinks, held, accounted⟩ := asked
  have bears' : Bears k mem ([], u) := by
    intro sink same here
    refine bears sink same ?_
    simpa only [Has, sinks, held] using here
  have ids : u.ids n = s.ids n := by rw [ids_eq_sinks, ids_eq_sinks, sinks]
  rw [fanOuts_buffer accounted bears', ids, world]

theorem unswitched (accounted : Accounted ([], s)) (calls : List Call) : Asked n calls s (s.fanOuts n calls) :=
  ⟨s, rfl, rfl, fun _ => rfl, rfl, accounted⟩

theorem switched (accounted : Accounted ([], s)) {manager : Manager} (found : s.managers[n]? = some manager)
    (live : manager.retired = false) (on : Bool) (calls : List Call) :
    Asked n calls s ((s.setSwitch n on).fanOuts n calls) :=
  ⟨s.setSwitch n on, rfl, setSwitch_world on, fun m => sinks_setSwitch n on m, setSwitch_held s n on,
    (Change.setSwitch [] s n manager on found live).accounted accounted⟩

end Asked

theorem announce_eq (n : Nat) (before after : Bool) :
    s.announce n before after = s.fanOuts n (announcement before after) := by
  unfold announce announcement
  split <;> rfl

section Requests

variable {n : Nat} {manager : Manager}

theorem setEnabled_asked (accounted : Accounted ([], s)) (found : s.managers[n]? = some manager) (on : Bool) :
    Asked n (if manager.retired then [] else announcement (manager.enabled s.processFlag) on) s (s.setEnabled n on) := by
  simp only [setEnabled, found]
  split
  · exact .unswitched accounted []
  · rename_i live
    rw [announce_eq]
    exact .switched accounted found (by simpa using live) on _

theorem setSaveLevel_asked (accounted : Accounted ([], s)) (found : s.managers[n]? = some manager) (l : Level) :
    Asked n (if manager.retired then [] else if l.activates then
      .saveLevel l :: announcement (manager.enabled s.processFlag) true else []) s (s.setSaveLevel n l) := by
  simp only [setSaveLevel, found]
  split
  · exact .unswitched accounted []
  · rename_i live
    have live : manager.retired = false := by simpa using live
    rw [announce_eq]
    cases l.activates with
    | true => exact .switched accounted found live true _
    | false =>
      -- Turning logging off is never announced.
      have silent : announcement (manager.enabled s.processFlag) false = [] := by simp [announcement]
      rw [silent]
      exact .switched accounted found live false []

theorem written_asked (h : s.Possible) (found : s.managers[n]? = some manager) (r : Record) :
    Asked n (if manager.takes s.processFlag ∧ r.level ≠ .internal then [.write r] else []) s
      (s.written (s.write n r)).2 := by
  by_cases level : r.level = .internal
  · simp only [System.write, accepts, level, if_true, written, ne_eq, not_true_eq_false, and_false, if_false]
    exact .unswitched h.accounted []
  · rw [← isOpen_eq_takes h.formed found]
    simp only [System.write, accepts, level, if_false, written, ne_eq, not_false_eq_true, and_true]
    split
    · exact .unswitched h.accounted [.write r]
    · exact .unswitched h.accounted []

theorem rename_asked (h : s.Possible) (found : s.managers[n]? = some manager) (name : String) :
    Asked n (if manager.takes s.processFlag then [.target name] else []) s (s.rename n name) := by
  rw [← isOpen_eq_takes h.formed found, rename]
  split
  · exact .unswitched h.accounted [.target name]
  · exact .unswitched h.accounted []

end Requests

/-! ## What leaves buffers alone -/

def SameBuffers (s t : System) : Prop := ∀ k, t.world.buffer k = s.world.buffer k

/-- What is pending in a memory sink is nothing, so a flush changes no buffer. -/
theorem deliver_flush_buffer (sinks : List Sink) (w : World) (k : Nat) :
    (World.deliver .flush sinks w).2.buffer k = w.buffer k := by
  induction sinks generalizing w with
  | nil => rfl
  | cons sink rest ih =>
    refine (ih _).trans ?_
    obtain ⟨id, body⟩ := sink
    cases body with
    | probe => rfl
    | file f => rfl
    | memory mem =>
      show (Option.getD ((w.buffers.put id (w.buffer id)).get? k) []) = w.buffer k
      rw [Table.get?_put]
      split
      · rename_i same
        rw [same]
        rfl
      · rfl

namespace SameBuffers

variable {u : System}

theorem of_buffers (same : t.world.buffers = s.world.buffers) : SameBuffers s t := by
  intro k
  rw [World.buffer, same]
  rfl

theorem refl (s : System) : SameBuffers s s := of_buffers rfl

theorem trans (first : SameBuffers s t) (second : SameBuffers t u) : SameBuffers s u :=
  fun k => (second k).trans (first k)

theorem release (s : System) (m : Nat) : SameBuffers s (s.release m) := by
  unfold System.release
  split
  · exact refl s
  · split
    · exact refl s
    · exact of_buffers rfl

theorem keepHandle (s : System) (name : String) (m : Nat) : SameBuffers s (s.keepHandle name m) := by
  unfold System.keepHandle
  split
  · exact of_buffers rfl
  · exact release { s with handles := s.handles.put name m } _

theorem dropHandle (s : System) (name : String) : SameBuffers s (s.dropHandle name).2 := by
  unfold System.dropHandle
  split
  · exact refl s
  · exact release { s with handles := s.handles.erase name } _

theorem holdSink (s : System) (name : String) (sink : Sink) : SameBuffers s (s.holdSink name sink) := by
  unfold System.holdSink
  split
  · exact of_buffers rfl
  · exact of_buffers rfl

theorem dropSink (s : System) (name : String) : SameBuffers s (s.dropSink name).2 := by
  unfold System.dropSink
  split
  · exact refl s
  · exact of_buffers rfl

theorem obtain (s : System) (source : Source) : SameBuffers s (obtain source s).2 := by
  cases source with
  | held name =>
    simp only [System.obtain]
    split <;> exact of_buffers rfl
  | built spec =>
    cases spec with
    | openFile o =>
      simp only [System.obtain, World.build]
      cases FileSink.make? o s.world.host <;> exact of_buffers rfl
    | _ => exact of_buffers rfl

theorem withSink {source : Source} {f : Sink → System → Reply × System}
    (run : ∀ sink (t : System), SameBuffers t (f sink t).2) : SameBuffers s (s.withSink source f).2 := by
  have fetched := obtain s source
  unfold System.withSink
  generalize System.obtain source s = outcome at fetched ⊢
  obtain ⟨made, t⟩ := outcome
  cases made with
  | error r => exact fetched
  | ok sink => exact fetched.trans (run sink t)

theorem withHandle {name : String} {f : Nat → Reply × System} (run : ∀ m, SameBuffers s (f m).2) :
    SameBuffers s (s.withHandle name f).2 := by
  unfold System.withHandle
  split
  · exact refl s
  · exact run _

theorem register (s : System) (m : Nat) (sink : Sink) (append : Bool) :
    SameBuffers s (s.register m sink append).2 := by
  unfold System.register
  split
  · exact of_buffers rfl
  · split
    · exact of_buffers rfl
    · cases append <;> exact of_buffers rfl

theorem registerInstance (s : System) (sink : Sink) (append : Bool) :
    SameBuffers s (s.registerInstance sink append).2 := by
  unfold System.registerInstance
  split
  · exact register s _ sink append
  · exact of_buffers rfl

theorem changeDisk (s : System) (changed : Except DiskError Disk) : SameBuffers s (s.changeDisk changed).2 := by
  cases changed <;> exact of_buffers rfl

theorem withdraw (s : System) : SameBuffers s s.withdraw := by
  unfold System.withdraw
  split
  · exact refl s
  · unfold retire
    split
    · exact of_buffers rfl
    · exact fun k => deliver_flush_buffer _ s.world k

theorem unreached {o : Op} {whom : Address} (addressed : (Step.op o).addressee = some whom)
    (nobody : s.reach whom = none) : SameBuffers s (o.run s).2 := by
  obtain same | ⟨on, same⟩ | ⟨source, append, rfl⟩ := Op.run_nobody addressed nobody
  · rw [same]
    exact refl s
  · rw [same]
    exact of_buffers rfl
  · exact withSink fun sink t => registerInstance t sink append

theorem create (s : System) (source : Source) (handle : Option String) :
    SameBuffers s ((Op.create source handle).run s).2 := by
  have ended := withdraw s
  have fetched := obtain s.withdraw source
  simp only [Op.run, System.create]
  generalize System.obtain source s.withdraw = outcome at fetched ⊢
  obtain ⟨made, t⟩ := outcome
  cases made with
  | error r => exact ended.trans fetched
  | ok sink =>
    have installed : SameBuffers t (t.install sink).2 := of_buffers rfl
    cases handle with
    | none => exact ended.trans (fetched.trans installed)
    | some name => exact ended.trans (fetched.trans (installed.trans (keepHandle _ name _)))

end SameBuffers

end System

/-! ## What operations do to a buffer -/

variable {s : System} {m k : Nat} {mem : MemorySink}

/-- An operation on a manager makes the calls that it asks for on all its sinks, unless it brings another sink. -/
theorem Op.run_asked (h : s.Possible) {o : Op} {whom : Address} {n : Nat} {manager : Manager}
    (reached : s.reach whom = some n) (found : s.managers[n]? = some manager)
    (addressed : (Step.op o).addressee = some whom) :
    System.Asked n ((Step.op o).asks manager s.processFlag) s (o.run s).2 ∨
      (Step.op o).asks manager s.processFlag = [] ∧ System.SameBuffers s (o.run s).2 := by
  cases o with
  | register whom source append =>
    cases addressed
    refine .inr ⟨rfl, ?_⟩
    rw [System.run_register reached]
    exact System.SameBuffers.withSink fun sink t => .register t n sink append
  | setEnabled whom on =>
    cases addressed
    rw [System.run_setEnabled reached]
    exact .inl (System.setEnabled_asked h.accounted found on)
  | setSaveLevel whom l =>
    cases addressed
    rw [System.run_setSaveLevel reached]
    exact .inl (System.setSaveLevel_asked h.accounted found l)
  | status whom =>
    cases whom with
    | handle name => exact .inr ⟨rfl, System.SameBuffers.withHandle fun _ => .refl s⟩
    | process => exact .inr ⟨rfl, .refl s⟩
  | write whom r =>
    cases addressed
    rw [h.formed.run_write reached]
    exact .inl (System.written_asked h found r)
  | rename whom name =>
    cases addressed
    rw [System.run_rename reached]
    exact .inl (System.rename_asked h found name)
  | flush whom =>
    cases addressed
    rw [System.run_flush reached]
    exact .inl (.unswitched h.accounted [.flush])
  | _ => cases addressed

theorem Op.run_addressed_buffer (h : s.Possible) (bears : System.Bears k mem ([], s)) {o : Op} {whom : Address}
    (addressed : (Step.op o).addressee = some whom) :
    (o.run s).2.world.buffer k = s.world.buffer k ++ mem.stored (callsOn k (o.calls s)) := by
  rw [Op.calls_addressed addressed]
  cases reached : s.reach whom with
  | none => exact (System.SameBuffers.unreached addressed reached k).trans (List.append_nil _).symm
  | some n =>
    obtain ⟨manager, found⟩ := h.reach reached
    simp only [Option.elim_some, System.asks, found]
    obtain asked | ⟨nothing, same⟩ := Op.run_asked h reached found addressed
    · exact asked.buffer bears
    · rw [nothing]
      exact (same k).trans (List.append_nil _).symm

/-- The lines that an operation takes from a buffer. -/
def Op.drains (k : Nat) (o : Op) (s : System) : List String :=
  match o with
  | .drainText logs | .drainLines logs | .drainToConsole logs =>
    if s.logs.get? logs = some k then s.world.buffer k else []
  | _ => []

def Action.drains (k : Nat) : Action → System → List String
  | .op o, s => o.drains k s
  | _, _ => []

def System.showAll (s : System) (lines : List String) : System :=
  { s with world := { s.world with
    host := { s.world.host with console := s.world.host.console ++ lines.map (· ++ "\n") } } }

theorem System.sayAll_eq (lines : List String) (s : System) :
    lines.foldl (fun s line => s.say (line ++ "\n")) s = s.showAll lines := by
  induction lines generalizing s with
  | nil => simp [System.showAll]
  | cons line rest ih =>
    rw [List.foldl_cons, ih]
    simp [System.showAll, System.say, Host.show]

theorem World.clearBuffer_buffer (w : World) (j k : Nat) :
    (w.clearBuffer j).buffer k = if j = k then [] else w.buffer k := by
  rw [World.buffer, World.clearBuffer, Table.get?_put]
  split <;> rfl

theorem System.withBuffer_buffer (logs : String) {f : Nat → List String → Reply × System}
    (cleared : ∀ j lines, (f j lines).2.world.buffer k = if j = k then [] else s.world.buffer k) :
    (if s.logs.get? logs = some k then s.world.buffer k else []) ++ (s.withBuffer logs f).2.world.buffer k =
      s.world.buffer k := by
  unfold System.withBuffer
  cases found : s.logs.get? logs with
  | none => rfl
  | some j =>
    simp only [cleared, Option.some.injEq]
    split
    · exact List.append_nil _
    · rfl

theorem Op.stored_flushes (h : s.Possible) (k : Nat) (mem : MemorySink) :
    mem.stored (callsOn k (s.slot.elim [] fun n => each (s.ids n) [.flush])) = [] := by
  cases s.slot with
  | none => rfl
  | some n =>
    rw [Option.elim_some, callsOn_each_of_nodup (h.accounted.ids_nodup n)]
    split <;> rfl

/-- A call on a sink under a name puts into the buffer of a memory sink what it stores there. -/
theorem System.receive_buffer (bears : System.Bears k mem ([], s)) {name : String}
    {sink : Sink} (found : s.held.get? name = some sink) (c : Call) :
    (s.world.receive sink c).2.buffer k = s.world.buffer k ++ mem.stored (callsOn k [.called sink.id c]) := by
  by_cases same : sink.id = k
  · obtain rfl : sink = ⟨k, .memory mem⟩ := bears.held found same
    rw [World.receive_memory, callsOn_called, World.buffer, Table.get?_put, if_pos rfl]
    exact congrArg (s.world.buffer k ++ ·) (List.append_nil _).symm
  · rw [callsOn_called_other same]
    refine Eq.trans ?_ (List.append_nil _).symm
    exact World.act_buffer_other same c _

/-- What an operation takes from a buffer and what it leaves there is what was there and what its calls store. -/
theorem Op.run_buffer (h : s.Possible) (bears : System.Bears k mem ([], s)) (o : Op) :
    o.drains k s ++ (o.run s).2.world.buffer k = s.world.buffer k ++ mem.stored (callsOn k (o.calls s)) := by
  -- operations that call nobody and take nothing
  have still {t : System} (same : System.SameBuffers s t) : t.world.buffer k = s.world.buffer k ++ [] := by
    rw [same k, List.append_nil]
  cases o with
  | make handle source =>
    exact still (System.SameBuffers.withSink fun sink t =>
      (System.SameBuffers.of_buffers rfl).trans (.keepHandle (t.newManager [sink]).2 handle _))
  | makeEmpty handle =>
    exact still ((System.SameBuffers.of_buffers rfl).trans (.keepHandle (s.newManager []).2 handle _))
  | dropHandle handle => exact still (.dropHandle s handle)
  | same one other => exact still (.withHandle fun m => .withHandle fun n => .refl s)
  | create source handle =>
    rw [Op.calls, Op.stored_flushes h]
    exact still (.create s source handle)
  | destroy =>
    rw [Op.calls, Op.stored_flushes h]
    exact still (.withdraw s)
  | takeInstance handle =>
    simp only [Op.run]
    split
    · exact still (.refl s)
    · exact still (.keepHandle s handle _)
  | register whom source append => exact Op.run_addressed_buffer h bears rfl
  | setEnabled whom on => exact Op.run_addressed_buffer h bears rfl
  | setSaveLevel whom l => exact Op.run_addressed_buffer h bears rfl
  | status whom => exact Op.run_addressed_buffer h bears rfl
  | write whom r => exact Op.run_addressed_buffer h bears rfl
  | rename whom name => exact Op.run_addressed_buffer h bears rfl
  | flush whom => exact Op.run_addressed_buffer h bears rfl
  | drainText logs =>
    refine (System.withBuffer_buffer logs fun j lines => ?_).trans (List.append_nil _).symm
    exact World.clearBuffer_buffer s.world j k
  | drainLines logs =>
    refine (System.withBuffer_buffer logs fun j lines => ?_).trans (List.append_nil _).symm
    exact World.clearBuffer_buffer s.world j k
  | bufferSize logs =>
    simp only [Op.run, System.withBuffer]
    split <;> exact still (.refl s)
  | drainToConsole logs =>
    refine (System.withBuffer_buffer logs fun j lines => ?_).trans (List.append_nil _).symm
    rw [System.sayAll_eq]
    exact World.clearBuffer_buffer _ j k
  | hold name source => exact still (.withSink fun sink t => .holdSink t name sink)
  | callSink name c =>
    simp only [Op.run, System.callSink, Op.calls]
    cases found : s.held.get? name with
    | none => exact still (.refl s)
    | some sink =>
      exact System.receive_buffer bears found c
  | sinkStatus name => exact still (.refl s)
  | dropSink name => exact still (.dropSink s name)
  | put path bytes => exact still (.changeDisk s _)
  | makeFolder path => exact still (.changeDisk s _)
  | remove path => exact still (.changeDisk s _)
  | read path =>
    simp only [Op.run]
    split <;> exact still (.refl s)
  | list => exact still (.refl s)
  | loadOptions path =>
    simp only [Op.run]
    split <;> exact still (.refl s)
  | wait stamp => exact still (.of_buffers rfl)

/-! ## What actions do to a buffer -/

/-- What an action takes from a buffer and what it leaves there is what was there and what its calls store. -/
theorem Action.act_buffer (h : s.Possible) (bears : System.Bears k mem ([], s)) (a : Action) :
    a.drains k s ++ (a.act s).world.buffer k = s.world.buffer k ++ mem.stored (callsOn k (a.calls s)) := by
  cases a with
  | op o => exact Op.run_buffer h bears o
  | enter n => exact (List.append_nil _).symm
  | note r => exact (List.append_nil _).symm
  | send n r =>
    have accounted : System.Accounted ([], s.leave) := ⟨h.accounted.names, h.accounted.once, h.accounted.final⟩
    have stored := (System.fanOut_buffer (s := s.leave) accounted bears n (.write r)).1
    have kept := System.SameBuffers.release (s.leave.dispatch n r) n k
    simp only [Action.drains, Action.act, List.nil_append, kept]
    exact stored.trans (by rw [Action.calls, each_cons, each_nil, List.append_nil]; rfl)
  | giveUp n => exact (System.SameBuffers.release s.leave n k).trans (List.append_nil _).symm

theorem Action.bears (h : s.Possible) (born : k < s.world.labels.length) (bears : System.Bears k mem ([], s))
    (a : Action) :
    System.Bears k (mem.after (callsOn k (a.calls s))) ([], a.act s) := by
  have accounted : System.Accounted ([], s.leave) := ⟨h.accounted.names, h.accounted.once, h.accounted.final⟩
  -- What the changes have added to the journal are the calls of the action.
  have of_added {added : List Event} (journal : (a.act s).world.journal = s.world.journal ++ added)
      (after : System.Bears k (mem.after (callsOn k added)) ([], a.act s)) :
      System.Bears k (mem.after (callsOn k (a.calls s))) ([], a.act s) := by
    rw [← (a.act_calls h).since, System.since, journal, List.drop_left]
    exact after
  cases a with
  | op o =>
    obtain ⟨added, journal, after⟩ := (System.Changes.op s o).bears h.accounted born bears
    exact of_added journal after
  | enter n => exact bears
  | note r => exact bears
  | send n r =>
    have changes := (System.Changes.dispatch [] s.leave n r).trans (.release [] _ n)
    obtain ⟨added, journal, after⟩ := changes.bears accounted born bears
    exact of_added journal after
  | giveUp n =>
    obtain ⟨added, journal, after⟩ := (System.Changes.release [] s.leave n).bears accounted born bears
    exact of_added journal after

end LogFanout
