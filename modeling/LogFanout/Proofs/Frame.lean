import LogFanout.Proofs.Course

/- What steps do not look at.

   The journal is written and never read, and nobody sees a sink that is kept under a name that he does not use. `frame`
   puts older entries in front of a journal, as if they had been there all along, and takes away the sinks under names that
   are not kept. Every operation that uses only kept names commutes with that (`Op.run_frame`), and so does every step
   (`Step.run_frame`). So a run only adds to the journal (`Step.journal_prefix`), and what it adds does not depend on what
   is there (`Step.run_eq_behind`). -/
namespace LogFanout

/-! ## Tables -/

namespace Table

variable {κ α : Type} [DecidableEq κ]

/-- The table with those keys alone that are kept. -/
def restrict (t : Table κ α) (keep : κ → Bool) : Table κ α := ⟨t.entries.filter fun e => keep e.1⟩

omit [DecidableEq κ] in
@[simp] theorem restrict_all (t : Table κ α) : t.restrict (fun _ => true) = t :=
  congrArg Table.mk (List.filter_eq_self.mpr fun _ _ => rfl)

theorem find_filter {keep : κ → Bool} {k : κ} (kept : keep k = true) (l : List (κ × α)) :
    find k (l.filter fun e => keep e.1) = find k l := by
  induction l with
  | nil => rfl
  | cons e rest ih =>
    by_cases same : e.1 = k
    · simp [find, same, kept]
    · cases there : keep e.1 <;> simp [find, same, there, ih]

theorem replace_filter {keep : κ → Bool} {k : κ} (kept : keep k = true) (v : α) (l : List (κ × α)) :
    replace k v (l.filter fun e => keep e.1) = (replace k v l).filter fun e => keep e.1 := by
  induction l with
  | nil => simp [replace, kept]
  | cons e rest ih =>
    by_cases same : e.1 = k
    · simp [replace, same, kept]
    · cases there : keep e.1 <;> simp [replace, same, there, ih]

theorem get?_restrict (t : Table κ α) {keep : κ → Bool} {k : κ} (kept : keep k = true) :
    (t.restrict keep).get? k = t.get? k :=
  find_filter kept t.entries

theorem put_restrict (t : Table κ α) {keep : κ → Bool} {k : κ} (kept : keep k = true) (v : α) :
    (t.restrict keep).put k v = (t.put k v).restrict keep :=
  congrArg Table.mk (replace_filter kept v t.entries)

theorem erase_restrict (t : Table κ α) (keep : κ → Bool) (k : κ) :
    (t.restrict keep).erase k = (t.erase k).restrict keep := by
  simp [restrict, erase, Bool.and_comm]

theorem restrict_put (t : Table κ α) {keep : κ → Bool} {k : κ} (hidden : keep k = false) (v : α) :
    (t.put k v).restrict keep = t.restrict keep := by
  obtain ⟨entries⟩ := t
  simp only [put, restrict, mk.injEq]
  induction entries with
  | nil => simp [replace, hidden]
  | cons e rest ih =>
    by_cases same : e.1 = k
    · simp [replace, same, hidden]
    · cases there : keep e.1 <;> simp [replace, same, there, ih]

end Table

/-! ## Worlds -/

namespace World

def prepend (w : World) (old : List Event) : World := { w with journal := old ++ w.journal }

variable (w : World) (old : List Event)

@[simp] theorem record_prepend (e : Event) : (w.prepend old).record e = (w.record e).prepend old := by
  simp [record, prepend]

@[simp] theorem act_prepend (sink : Sink) (c : Call) :
    (w.prepend old).act sink c = ((w.act sink c).1, (w.act sink c).2.prepend old) := by
  unfold act
  split <;> rfl

@[simp] theorem receive_prepend (sink : Sink) (c : Call) :
    (w.prepend old).receive sink c = ((w.receive sink c).1, (w.receive sink c).2.prepend old) := by
  simp [receive]

@[simp] theorem deliver_prepend (c : Call) (sinks : List Sink) :
    deliver c sinks (w.prepend old) = ((deliver c sinks w).1, (deliver c sinks w).2.prepend old) := by
  induction sinks generalizing w with
  | nil => rfl
  | cons sink rest ih => simp [deliver, ih]

@[simp] theorem discard_prepend (sinks : List Sink) :
    (w.prepend old).discard sinks = (w.discard sinks).prepend old := by
  simp [discard, prepend]

@[simp] theorem number_prepend (label : Sink.Label) (body : Sink.Body) :
    (w.prepend old).number label body = ((w.number label body).1, (w.number label body).2.prepend old) := by
  simp [number, record, prepend]

@[simp] theorem build_prepend (spec : Sink.Spec) :
    (w.prepend old).build spec = ((w.build spec).1, (w.build spec).2.prepend old) := by
  cases spec with
  | probe name hearsFlush => simp [build]
  | memory name level => simp [build]
  | file o =>
    simp only [build]
    exact Prod.ext rfl (by simp [number, record, prepend])
  | openFile o =>
    have host : (w.prepend old).host = w.host := rfl
    cases opened : FileSink.make? o w.host with
    | error e => simp [build, host, opened]
    | ok made =>
      simp only [build, host, opened]
      exact Prod.ext rfl (by simp [number, record, prepend])

end World

/-! ## Names of sinks -/

/-- The names under which a source looks for a sink. -/
def Source.names : Source → List String
  | .built _ => []
  | .held name => [name]

/-- The names of sinks that an operation uses. -/
def Op.names : Op → List String
  | .make _ source | .create source _ | .register _ source _ => source.names
  | .hold name source => name :: source.names
  | .callSink name _ | .sinkStatus name | .dropSink name => [name]
  | _ => []

mutual

def Step.names : Step → List String
  | .op o => o.names
  | .format _ _ _ argument => argument.names

def Argument.names : Argument → List String
  | .done => []
  | .piece _ rest => rest.names
  | .take step rest => step.names ++ rest.names

end

/-! ## Systems -/

namespace System

/-- The system with older entries in its journal, and those sinks alone whose names are kept. -/
def frame (s : System) (old : List Event) (keep : String → Bool) : System :=
  { s with world := s.world.prepend old, held := s.held.restrict keep }

/-- An outcome with its system in a frame. -/
def onto {α : Type} (old : List Event) (keep : String → Bool) (x : α × System) : α × System :=
  (x.1, x.2.frame old keep)

@[simp] theorem onto_mk {α : Type} (old : List Event) (keep : String → Bool) (a : α) (s : System) :
    onto old keep (a, s) = (a, s.frame old keep) := rfl

variable (s : System) (old : List Event) (keep : String → Bool)

@[simp] theorem frame_world : (s.frame old keep).world = s.world.prepend old := rfl
@[simp] theorem frame_managers : (s.frame old keep).managers = s.managers := rfl
@[simp] theorem frame_slot : (s.frame old keep).slot = s.slot := rfl
@[simp] theorem frame_processFlag : (s.frame old keep).processFlag = s.processFlag := rfl
@[simp] theorem frame_handles : (s.frame old keep).handles = s.handles := rfl
@[simp] theorem frame_held : (s.frame old keep).held = s.held.restrict keep := rfl
@[simp] theorem frame_logs : (s.frame old keep).logs = s.logs := rfl

@[simp] theorem setManager_frame (m : Nat) (manager : Manager) :
    (s.frame old keep).setManager m manager = (s.setManager m manager).frame old keep := rfl

@[simp] theorem isOpen_frame (m : Nat) : (s.frame old keep).isOpen m = s.isOpen m := rfl

@[simp] theorem inUse_frame (m : Nat) : (s.frame old keep).inUse m = s.inUse m := rfl

@[simp] theorem setSwitch_frame (m : Nat) (on : Bool) :
    (s.frame old keep).setSwitch m on = (s.setSwitch m on).frame old keep := by
  simp only [setSwitch, frame_managers]
  split
  · rfl
  · split <;> rfl

@[simp] theorem fanOut_frame (m : Nat) (c : Call) : (s.frame old keep).fanOut m c = (s.fanOut m c).frame old keep := by
  cases found : s.managers[m]? with
  | none => simp [fanOut, found]
  | some manager =>
    rw [fanOut_some (s := s.frame old keep) found, fanOut_some found]
    simp
    rfl

@[simp] theorem dispatch_frame (m : Nat) (r : Record) :
    (s.frame old keep).dispatch m r = (s.dispatch m r).frame old keep :=
  fanOut_frame s old keep m (.write r)

@[simp] theorem accepts_frame (m : Nat) (l : Level) : (s.frame old keep).accepts m l = s.accepts m l := rfl

@[simp] theorem write_frame (m : Nat) (r : Record) :
    (s.frame old keep).write m r = (s.write m r).map fun after => after.frame old keep := by
  simp only [write, accepts_frame]
  split
  · rfl
  · split <;> simp [Except.map]

@[simp] theorem rename_frame (m : Nat) (name : String) :
    (s.frame old keep).rename m name = (s.rename m name).frame old keep := by
  cases taken : s.isOpen m <;> simp [rename, taken]

@[simp] theorem flush_frame (m : Nat) : (s.frame old keep).flush m = (s.flush m).frame old keep :=
  fanOut_frame s old keep m .flush

@[simp] theorem announce_frame (m : Nat) (before after : Bool) :
    (s.frame old keep).announce m before after = (s.announce m before after).frame old keep := by
  simp only [announce]
  split <;> simp

@[simp] theorem setEnabled_frame (m : Nat) (on : Bool) :
    (s.frame old keep).setEnabled m on = (s.setEnabled m on).frame old keep := by
  simp only [setEnabled, frame_managers]
  split
  · rfl
  · split <;> simp

@[simp] theorem setSaveLevel_frame (m : Nat) (l : Level) :
    (s.frame old keep).setSaveLevel m l = (s.setSaveLevel m l).frame old keep := by
  simp only [setSaveLevel, frame_managers]
  split
  · rfl
  · split
    · rfl
    · cases l.activates <;> simp

@[simp] theorem discard_frame (sinks : List Sink) :
    (s.frame old keep).discard sinks = (s.discard sinks).frame old keep := by
  simp [discard, frame]

@[simp] theorem register_frame (m : Nat) (sink : Sink) (append : Bool) :
    (s.frame old keep).register m sink append = onto old keep (s.register m sink append) := by
  simp only [register, frame_managers]
  split
  · simp
  · split
    · simp
    · cases append <;> simp

@[simp] theorem retire_frame (m : Nat) : (s.frame old keep).retire m = (s.retire m).frame old keep := by
  simp only [retire, frame_managers]
  split
  · rfl
  · simp [frame, discard, setManager]

@[simp] theorem newManager_frame (sinks : List Sink) :
    (s.frame old keep).newManager sinks = onto old keep (s.newManager sinks) := rfl

@[simp] theorem release_frame (m : Nat) : (s.frame old keep).release m = (s.release m).frame old keep := by
  cases used : s.inUse m with
  | true => simp [release, used]
  | false =>
    simp only [release, inUse_frame, used, frame_managers]
    cases s.managers[m]? <;> simp

@[simp] theorem keepHandle_frame (name : String) (m : Nat) :
    (s.frame old keep).keepHandle name m = (s.keepHandle name m).frame old keep := by
  simp only [keepHandle, frame_handles]
  split
  · rfl
  · exact release_frame { s with handles := s.handles.put name m } old keep _

@[simp] theorem dropHandle_frame (name : String) :
    (s.frame old keep).dropHandle name = onto old keep (s.dropHandle name) := by
  simp only [dropHandle, frame_handles]
  split
  · rfl
  · exact Prod.ext rfl (release_frame { s with handles := s.handles.erase name } old keep _)

theorem holdSink_frame {name : String} (kept : keep name = true) (sink : Sink) :
    (s.frame old keep).holdSink name sink = (s.holdSink name sink).frame old keep := by
  have put := s.held.put_restrict kept sink
  simp only [holdSink, frame_held, Table.get?_restrict _ kept, put]
  split
  · rfl
  · exact discard_frame { s with held := s.held.put name sink } old keep _

@[simp] theorem dropSink_frame {name : String} (kept : keep name = true) :
    (s.frame old keep).dropSink name = onto old keep (s.dropSink name) := by
  have erased := s.held.erase_restrict keep name
  simp only [dropSink, frame_held, Table.get?_restrict _ kept, erased]
  split
  · rfl
  · exact Prod.ext rfl (discard_frame { s with held := s.held.erase name } old keep _)

theorem callSink_frame {name : String} (kept : keep name = true) (c : Call) :
    (s.frame old keep).callSink name c = (s.callSink name c).map fun after => after.frame old keep := by
  simp only [callSink, frame_held, Table.get?_restrict _ kept]
  split
  · rfl
  · simp [frame, Table.put_restrict _ kept]

/-! ## The process -/

@[simp] theorem withdraw_frame : (s.frame old keep).withdraw = s.withdraw.frame old keep := by
  simp only [withdraw, frame_slot]
  split
  · rfl
  · exact retire_frame { s with slot := none } old keep _

@[simp] theorem install_frame (sink : Sink) : (s.frame old keep).install sink = onto old keep (s.install sink) := rfl

theorem create_frame {ε : Type} (make : System → Except ε Sink × System)
    (h : ∀ t, make (t.frame old keep) = onto old keep (make t)) :
    (s.frame old keep).create make = onto old keep (s.create make) := by
  simp only [create, withdraw_frame, h]
  obtain ⟨made, t⟩ := make s.withdraw
  cases made <;> rfl

@[simp] theorem say_frame (text : String) : (s.frame old keep).say text = (s.say text).frame old keep := rfl

@[simp] theorem registerInstance_frame (sink : Sink) (append : Bool) :
    (s.frame old keep).registerInstance sink append = onto old keep (s.registerInstance sink append) := by
  simp only [registerInstance, frame_slot]
  split <;> simp

@[simp] theorem setInstanceEnabled_frame (on : Bool) :
    (s.frame old keep).setInstanceEnabled on = (s.setInstanceEnabled on).frame old keep := by
  simp only [setInstanceEnabled, frame_slot]
  split
  · simp
  · rfl

@[simp] theorem setInstanceSaveLevel_frame (l : Level) :
    (s.frame old keep).setInstanceSaveLevel l = (s.setInstanceSaveLevel l).frame old keep := by
  simp only [setInstanceSaveLevel, frame_slot]
  split
  · simp
  · rfl

@[simp] theorem instanceAccepts_frame (l : Level) : (s.frame old keep).instanceAccepts l = s.instanceAccepts l := rfl

@[simp] theorem writeInstance_frame (r : Record) :
    (s.frame old keep).writeInstance r = (s.writeInstance r).map fun after => after.frame old keep := by
  cases flag : s.processFlag with
  | true =>
    simp only [writeInstance, frame_processFlag, flag, if_true, frame_slot]
    cases s.slot <;> simp [Except.map]
  | false => simp [writeInstance, flag, Except.map]

@[simp] theorem renameInstance_frame (name : String) :
    (s.frame old keep).renameInstance name = (s.renameInstance name).frame old keep := by
  simp only [renameInstance, frame_slot]
  split <;> simp

@[simp] theorem flushInstance_frame : (s.frame old keep).flushInstance = s.flushInstance.frame old keep := by
  simp only [flushInstance, frame_slot]
  split <;> simp

/-! ## What scripts use -/

theorem obtain_frame {source : Source} (kept : ∀ name ∈ source.names, keep name = true) :
    obtain source (s.frame old keep) = onto old keep (obtain source s) := by
  cases source with
  | held name =>
    have kept := kept name (List.mem_singleton_self name)
    simp only [obtain, frame_held, Table.get?_restrict _ kept, Table.erase_restrict]
    split <;> rfl
  | built spec =>
    simp only [obtain, frame_world, World.build_prepend]
    obtain ⟨made, w⟩ := s.world.build spec
    cases made <;> rfl

theorem withSink_frame {source : Source} (kept : ∀ name ∈ source.names, keep name = true)
    (f : Sink → System → Reply × System) (h : ∀ sink t, f sink (t.frame old keep) = onto old keep (f sink t)) :
    (s.frame old keep).withSink source f = onto old keep (s.withSink source f) := by
  simp only [withSink, s.obtain_frame old keep kept]
  obtain ⟨made, t⟩ := obtain source s
  cases made with
  | error r => rfl
  | ok sink => exact h sink t

theorem withHandle_frame (name : String) (f g : Nat → Reply × System) (h : ∀ m, f m = onto old keep (g m)) :
    (s.frame old keep).withHandle name f = onto old keep (s.withHandle name g) := by
  simp only [withHandle, frame_handles]
  split
  · rfl
  · exact h _

theorem withBuffer_frame (name : String) (f g : Nat → List String → Reply × System)
    (h : ∀ sink lines, f sink lines = onto old keep (g sink lines)) :
    (s.frame old keep).withBuffer name f = onto old keep (s.withBuffer name g) := by
  simp only [withBuffer, frame_logs]
  split
  · rfl
  · exact h _ _

@[simp] theorem clearBuffer_frame (sink : Nat) :
    (s.frame old keep).clearBuffer sink = (s.clearBuffer sink).frame old keep := rfl

@[simp] theorem disk_frame : (s.frame old keep).disk = s.disk := rfl

@[simp] theorem changeDisk_frame (changed : Except DiskError Disk) :
    (s.frame old keep).changeDisk changed = onto old keep (s.changeDisk changed) := by
  cases changed <;> rfl

@[simp] theorem written_frame (outcome : Except Misuse System) :
    (s.frame old keep).written (outcome.map fun after => after.frame old keep) = onto old keep (s.written outcome) := by
  cases outcome <;> rfl

@[simp] theorem taker_frame (whom : Address) (l : Level) : (s.frame old keep).taker whom l = s.taker whom l := by
  cases whom <;> rfl

theorem sayAll_frame (lines : List String) :
    lines.foldl (fun s line => s.say (line ++ "\n")) (s.frame old keep) =
      (lines.foldl (fun s line => s.say (line ++ "\n")) s).frame old keep := by
  induction lines generalizing s with
  | nil => rfl
  | cons line rest ih => exact ih (s.say (line ++ "\n"))

@[simp] theorem enter_frame (m : Nat) : (s.frame old keep).enter m = (s.enter m).frame old keep := rfl

@[simp] theorem note_frame (r : Reply) : (s.frame old keep).note r = (s.note r).frame old keep := by
  simp [note, frame]

@[simp] theorem leave_frame : (s.frame old keep).leave = s.leave.frame old keep := rfl

end System

open LogFanout.System (onto)

/-- An operation does not read the journal, and does not see sinks under names that it does not use. -/
theorem Op.run_frame {o : Op} {keep : String → Bool} (kept : ∀ name ∈ o.names, keep name = true) (s : System)
    (old : List Event) : o.run (s.frame old keep) = onto old keep (o.run s) := by
  cases o with
  | make handle source => exact s.withSink_frame old keep kept _ fun sink t => by simp [onto]
  | makeEmpty handle => simp [Op.run, onto]
  | dropHandle handle => simp [Op.run, onto]
  | same one other =>
    exact s.withHandle_frame old keep one _ _ fun m => s.withHandle_frame old keep other _ _ fun n => rfl
  | create source handle =>
    simp only [Op.run, s.create_frame old keep _ fun t => t.obtain_frame old keep kept]
    obtain ⟨made, t⟩ := s.create (System.obtain source)
    cases made with
    | error r => rfl
    | ok m => cases handle <;> simp
  | destroy => simp [Op.run, System.destroy]
  | takeInstance handle =>
    simp only [Op.run, System.frame_slot]
    cases s.slot <;> simp
  | register whom source append =>
    cases whom with
    | handle name =>
      exact s.withHandle_frame old keep name _ _ fun m => s.withSink_frame old keep kept _ fun sink t => by simp [onto]
    | process => exact s.withSink_frame old keep kept _ fun sink t => by simp [onto]
  | setEnabled whom on =>
    cases whom with
    | handle name => exact s.withHandle_frame old keep name _ _ fun m => by simp
    | process => simp [Op.run]
  | setSaveLevel whom l =>
    cases whom with
    | handle name => exact s.withHandle_frame old keep name _ _ fun m => by simp
    | process => simp [Op.run]
  | status whom =>
    cases whom with
    | handle name => exact s.withHandle_frame old keep name _ _ fun m => rfl
    | process => rfl
  | write whom r =>
    cases whom with
    | handle name => exact s.withHandle_frame old keep name _ _ fun m => by simp
    | process => simp [Op.run]
  | rename whom target =>
    cases whom with
    | handle name => exact s.withHandle_frame old keep name _ _ fun m => by simp
    | process => simp [Op.run]
  | flush whom =>
    cases whom with
    | handle name => exact s.withHandle_frame old keep name _ _ fun m => by simp
    | process => simp [Op.run]
  | drainText logs =>
    simp only [Op.run]
    exact s.withBuffer_frame old keep logs _ _ fun sink lines => rfl
  | drainLines logs =>
    simp only [Op.run]
    exact s.withBuffer_frame old keep logs _ _ fun sink lines => rfl
  | bufferSize logs =>
    simp only [Op.run]
    exact s.withBuffer_frame old keep logs _ _ fun sink lines => rfl
  | drainToConsole logs =>
    simp only [Op.run, s.sayAll_frame old keep]
    exact s.withBuffer_frame old keep logs _ _ fun sink lines => rfl
  | hold name source =>
    have both := List.forall_mem_cons.mp kept
    exact s.withSink_frame old keep both.2 _ fun sink t => by simp [t.holdSink_frame old keep both.1]
  | callSink name c =>
    simp only [Op.run, s.callSink_frame old keep (kept name (List.mem_singleton_self name))]
    cases s.callSink name c <;> rfl
  | sinkStatus name =>
    have there := s.held.get?_restrict (kept name (List.mem_singleton_self name))
    simp [Op.run, System.sinkStatus, there]
  | dropSink name => simp [Op.run, onto, s.dropSink_frame old keep (kept name (List.mem_singleton_self name))]
  | put path bytes => exact s.changeDisk_frame old keep _
  | makeFolder path => exact s.changeDisk_frame old keep _
  | remove path => exact s.changeDisk_frame old keep _
  | read path =>
    simp only [Op.run, System.disk_frame]
    cases s.disk.readText path <;> rfl
  | list => rfl
  | loadOptions path =>
    simp only [Op.run, System.disk_frame]
    cases Options.load s.disk path <;> rfl
  | wait stamp => rfl

mutual

/-- A step does not read the journal, and does not see sinks under names that are not used in it. -/
theorem Step.run_frame {keep : String → Bool} : ∀ (step : Step) (_ : ∀ name ∈ step.names, keep name = true)
    (s : System) (old : List Event), step.run (s.frame old keep) = onto old keep (step.run s)
  | .op o, kept, s, old => Op.run_frame kept s old
  | .format whom l node argument, kept, s, old => by
    cases taken : s.taker whom l with
    | error r => simp [Step.run, taken]
    | ok taker =>
      cases taker with
      | none => simp [Step.run, taken]
      | some m =>
        -- the same manager takes the write on both sides
        rw [Step.run_format taken, Step.run_format ((s.taker_frame old keep whom l).trans taken), s.enter_frame old keep,
          Argument.render_frame argument kept]
        obtain ⟨text, after⟩ := argument.render (s.enter m)
        cases text <;> simp

theorem Argument.render_frame {keep : String → Bool} : ∀ (argument : Argument)
    (_ : ∀ name ∈ argument.names, keep name = true) (s : System) (old : List Event),
    argument.render (s.frame old keep) = onto old keep (argument.render s)
  | .done, _, _, _ => rfl
  | .piece p rest, kept, s, old => by
    cases rendered : p.render with
    | none => simp [Argument.render, rendered]
    | some text =>
      simp only [Argument.render, rendered, Argument.render_frame rest kept s old]
      obtain ⟨more, after⟩ := rest.render s
      cases more <;> rfl
  | .take step rest, kept, s, old => by
    have both := List.forall_mem_append.mp kept
    simp only [Argument.render_take, Step.run_frame step both.1 s old, onto, System.note_frame]
    exact Argument.render_frame rest both.2 _ old

end

/-! ## What a run adds to the journal -/

namespace System

def prepend (s : System) (old : List Event) : System := { s with world := s.world.prepend old }

theorem frame_all (s : System) (old : List Event) : s.frame old (fun _ => true) = s.prepend old := by
  simp [frame, prepend]

def mute (s : System) : System := { s with world := { s.world with journal := [] } }

theorem mute_prepend (s : System) : s.mute.prepend s.world.journal = s := by
  simp [mute, prepend, World.prepend]

/-- Does something to a system without a journal, and puts the journal in front of what comes of it. -/
def behind {α : Type} (s : System) (f : System → α × System) : α × System :=
  ((f s.mute).1, (f s.mute).2.prepend s.world.journal)

theorem eq_behind {α : Type} {f : System → α × System}
    (h : ∀ (s : System) (old : List Event), f (s.frame old fun _ => true) = onto old (fun _ => true) (f s))
    (s : System) : f s = s.behind f := by
  have framed := h s.mute s.world.journal
  rw [frame_all, mute_prepend] at framed
  simpa [behind, onto, frame_all] using framed

end System

/-- What a step adds to the journal, and what it does otherwise, does not depend on what is there. -/
theorem Step.run_eq_behind (step : Step) (s : System) : step.run s = s.behind step.run :=
  System.eq_behind (fun s old => Step.run_frame step (fun _ _ => rfl) s old) s

theorem Argument.render_eq_behind (argument : Argument) (s : System) :
    argument.render s = s.behind argument.render :=
  System.eq_behind (fun s old => Argument.render_frame argument (fun _ _ => rfl) s old) s

/-- A step only adds to the journal. -/
theorem Step.journal_prefix (step : Step) (s : System) : s.world.journal <+: (step.run s).2.world.journal := by
  rw [Step.run_eq_behind]
  exact List.prefix_append _ _

theorem Argument.journal_prefix (argument : Argument) (s : System) :
    s.world.journal <+: (argument.render s).2.world.journal := by
  rw [Argument.render_eq_behind]
  exact List.prefix_append _ _

end LogFanout
