import LogFanout.Proofs.FanOut

/- What actions call.

   `s.Calls t calls` says that the journal of `s` has only grown on the way to `t`, and that the calls among what was added
   are just these, in this order. Every action makes the calls that can be read off the system before it (`Action.calls`):
   an operation on a manager asks all sinks of the manager, the end of an instance flushes its sinks, a call on a held sink
   is made on that sink alone, a record that goes out goes to all sinks of its manager, and nothing else calls anybody
   (`Action.act_calls`). -/
namespace LogFanout

def Event.isCall : Event → Bool
  | .called _ _ => true
  | _ => false

theorem callsOn_isCall (k : Nat) (entries : List Event) : callsOn k (entries.filter Event.isCall) = callsOn k entries := by
  induction entries with
  | nil => rfl
  | cons e rest ih =>
    cases e with
    | called j c =>
      show callsOn k ([.called j c] ++ rest.filter Event.isCall) = callsOn k ([.called j c] ++ rest)
      rw [callsOn_append, callsOn_append, ih]
    | _ => exact ih

theorem filter_isCall_eq_nil {entries : List Event} (none : ∀ k, callsOn k entries = []) :
    entries.filter Event.isCall = [] := by
  apply List.filter_eq_nil_iff.mpr
  intro e member call
  cases e with
  | called k c =>
    have here : c ∈ callsOn k entries := List.mem_filterMap.mpr ⟨.called k c, member, if_pos rfl⟩
    rw [none] at here
    cases here
  | _ => cases call

theorem each_append (ids : List Nat) (a b : List Call) : each ids (a ++ b) = each ids a ++ each ids b := by
  simp [each]

theorem callsOn_each_of_nodup {ids : List Nat} (nodup : ids.Nodup) (k : Nat) (calls : List Call) :
    callsOn k (each ids calls) = if k ∈ ids then calls else [] := by
  induction calls with
  | nil => simp
  | cons c calls ih =>
    rw [each_cons, callsOn_append, ih]
    split
    · rename_i here
      rw [callsOn_each nodup here]
      rfl
    · rename_i out
      rw [callsOn_other out]
      rfl

@[simp] theorem filter_isCall_each (ids : List Nat) (calls : List Call) :
    (each ids calls).filter Event.isCall = each ids calls := by
  apply List.filter_eq_self.mpr
  intro e member
  obtain ⟨c, _, member⟩ := List.mem_flatMap.mp member
  obtain ⟨k, _, rfl⟩ := List.mem_map.mp member
  rfl

@[simp] theorem filter_isCall_dropped (sinks : List Sink) :
    (sinks.map fun sink => Event.dropped sink.id).filter Event.isCall = [] :=
  filter_isCall_eq_nil fun k => callsOn_dropped k sinks

namespace System

/-- The journal has grown, and the calls among what was added are just these. -/
def Calls (s t : System) (calls : List Event) : Prop :=
  ∃ added, t.world.journal = s.world.journal ++ added ∧ added.filter Event.isCall = calls

namespace Calls

variable {s t u : System}

theorem of_journal (same : t.world.journal = s.world.journal) : s.Calls t [] := ⟨[], by rw [same, List.append_nil], rfl⟩

theorem refl (s : System) : s.Calls s [] := of_journal rfl

theorem trans {a b : List Event} (first : s.Calls t a) (second : t.Calls u b) : s.Calls u (a ++ b) := by
  obtain ⟨added, journal, rfl⟩ := first
  obtain ⟨more, journal', rfl⟩ := second
  exact ⟨added ++ more, by rw [journal', journal, List.append_assoc], List.filter_append ..⟩

theorem followed {a : List Event} (first : s.Calls t a) (second : t.Calls u []) : s.Calls u a := by
  simpa using first.trans second

/-- What is made on a sink can be read off the calls. -/
theorem since {calls : List Event} (h : s.Calls t calls) (k : Nat) : callsOn k (s.since t) = callsOn k calls := by
  obtain ⟨added, journal, rfl⟩ := h
  rw [System.since, journal, List.drop_left, callsOn_isCall]

theorem discard (s : System) (sinks : List Sink) : s.Calls (s.discard sinks) [] :=
  ⟨_, rfl, filter_isCall_dropped sinks⟩

theorem fanOut (s : System) (m : Nat) (c : Call) : s.Calls (s.fanOut m c) (each (s.ids m) [c]) :=
  ⟨_, fanOut_journal s m c, by simpa using filter_isCall_each (s.ids m) [c]⟩

theorem release (s : System) (m : Nat) : s.Calls (s.release m) [] := by
  unfold System.release
  split
  · exact refl s
  · split
    · exact refl s
    · exact discard s _

theorem keepHandle (s : System) (name : String) (m : Nat) : s.Calls (s.keepHandle name m) [] := by
  unfold System.keepHandle
  split
  · exact of_journal rfl
  · exact release { s with handles := s.handles.put name m } _

theorem dropHandle (s : System) (name : String) : s.Calls (s.dropHandle name).2 [] := by
  unfold System.dropHandle
  split
  · exact refl s
  · exact release { s with handles := s.handles.erase name } _

theorem holdSink (s : System) (name : String) (sink : Sink) : s.Calls (s.holdSink name sink) [] := by
  unfold System.holdSink
  split
  · exact of_journal rfl
  · exact discard { s with held := s.held.put name sink } _

theorem dropSink (s : System) (name : String) : s.Calls (s.dropSink name).2 [] := by
  unfold System.dropSink
  split
  · exact refl s
  · exact discard { s with held := s.held.erase name } _

theorem obtain (s : System) (source : Source) : s.Calls (obtain source s).2 [] := by
  obtain ⟨built, journal, none⟩ := obtain_journal (s := s) source
  exact ⟨built, journal, filter_isCall_eq_nil none⟩

theorem withSink {source : Source} {f : Sink → System → Reply × System} (run : ∀ sink (t : System), t.Calls (f sink t).2 []) :
    s.Calls (s.withSink source f).2 [] := by
  have fetched := obtain s source
  unfold System.withSink
  generalize System.obtain source s = outcome at fetched ⊢
  obtain ⟨made, t⟩ := outcome
  cases made with
  | error r => exact fetched
  | ok sink => exact fetched.followed (run sink t)

theorem withHandle {name : String} {f : Nat → Reply × System} (run : ∀ m, s.Calls (f m).2 []) :
    s.Calls (s.withHandle name f).2 [] := by
  unfold System.withHandle
  split
  · exact refl s
  · exact run _

theorem withBuffer {name : String} {f : Nat → List String → Reply × System}
    (run : ∀ sink lines, s.Calls (f sink lines).2 []) : s.Calls (s.withBuffer name f).2 [] := by
  unfold System.withBuffer
  split
  · exact refl s
  · exact run _ _

theorem changeDisk (s : System) (changed : Except DiskError Disk) : s.Calls (s.changeDisk changed).2 [] := by
  cases changed <;> exact of_journal rfl

theorem sayAll (s : System) (lines : List String) :
    s.Calls (lines.foldl (fun s line => s.say (line ++ "\n")) s) [] := by
  induction lines generalizing s with
  | nil => exact refl s
  | cons line rest ih => exact (of_journal rfl : s.Calls (s.say (line ++ "\n")) []).trans (ih _)

theorem withdraw (s : System) :
    s.Calls s.withdraw (s.slot.elim [] fun m => each (s.ids m) [.flush]) := by
  unfold System.withdraw
  split
  · rename_i vacant
    rw [vacant]
    exact refl s
  · rename_i m seated
    rw [seated]
    show s.Calls _ (each (s.ids m) [.flush])
    unfold retire
    split
    · rename_i unknown
      have nobody : s.ids m = [] := by simp only [ids, show s.managers[m]? = none from unknown]
      rw [nobody]
      exact of_journal rfl
    · rename_i manager found
      have found : s.managers[m]? = some manager := found
      have flushed := fanOut s m .flush
      rw [fanOut_some found] at flushed
      exact flushed.followed (discard _ _)

end Calls

def asks (s : System) (m : Nat) (step : Step) : List Call :=
  match s.managers[m]? with
  | some manager => step.asks manager s.processFlag
  | none => []

end System

/-- The calls that an operation makes, in their order. -/
def Op.calls (o : Op) (s : System) : List Event :=
  match o with
  | .create _ _ | .destroy => s.slot.elim [] fun m => each (s.ids m) [.flush]
  | .callSink name c => (s.held.get? name).elim [] fun sink => [.called sink.id c]
  | o => ((Step.op o).addressee.bind s.reach).elim [] fun m => each (s.ids m) (s.asks m (.op o))

def Action.calls : Action → System → List Event
  | .op o, s => o.calls s
  | .send m r, s => each (s.ids m) [.write r]
  | _, _ => []

theorem Op.calls_addressed {s : System} {o : Op} {whom : Address} (addressed : (Step.op o).addressee = some whom) :
    o.calls s = (s.reach whom).elim [] fun m => each (s.ids m) (s.asks m (.op o)) := by
  cases o <;> cases addressed <;> rfl

/-- A system that actions can lead to. -/
def System.Possible (s : System) : Prop := ∃ stamp p, play p (.fresh stamp) = s

namespace System.Possible

variable {s : System}

theorem play (stamp : String) (p : List Action) : (play p (.fresh stamp)).Possible := ⟨stamp, p, rfl⟩

theorem formed (h : s.Possible) : s.WellFormed := by
  obtain ⟨stamp, p, rfl⟩ := h
  exact play_wellFormed p (.fresh stamp)

theorem accounted (h : s.Possible) : Accounted ([], s) := by
  obtain ⟨stamp, p, rfl⟩ := h
  exact play_accounted p (.fresh stamp)

theorem reach (h : s.Possible) {whom : Address} {m : Nat} (reached : s.reach whom = some m) :
    ∃ manager, s.managers[m]? = some manager := by
  obtain ⟨_, p, rfl⟩ := h
  exact play_reach p reached

theorem act (h : s.Possible) (a : Action) : (a.act s).Possible := by
  obtain ⟨stamp, p, rfl⟩ := h
  exact ⟨stamp, p ++ [a], by simp⟩

end System.Possible

theorem System.Calls.register (s : System) (m : Nat) (sink : Sink) (append : Bool) :
    s.Calls (s.register m sink append).2 [] := by
  unfold System.register
  split
  · exact discard s [sink]
  · rename_i manager found
    split
    · exact discard s [sink]
    · cases append
      · exact discard s manager.sinks
      · exact refl s

theorem System.Calls.registerInstance (s : System) (sink : Sink) (append : Bool) :
    s.Calls (s.registerInstance sink append).2 [] := by
  unfold System.registerInstance
  split
  · exact .register s _ sink append
  · exact .discard s [sink]

/-- An operation that is addressed to nobody sets the flag of the process at most, unless it brings a sink. -/
theorem Op.run_nobody {s : System} {o : Op} {whom : Address} (addressed : (Step.op o).addressee = some whom)
    (nobody : s.reach whom = none) :
    (o.run s).2 = s ∨ (∃ on, (o.run s).2 = { s with processFlag := on }) ∨
      ∃ source append, o = .register .process source append := by
  cases whom with
  | handle name =>
    have missing : s.handles.get? name = none := nobody
    refine .inl ?_
    cases o <;> cases addressed <;> simp only [Op.run, System.withHandle, missing]
  | process =>
    have vacant : s.slot = none := nobody
    cases o with
    | register whom source append =>
      cases addressed
      exact .inr (.inr ⟨source, append, rfl⟩)
    | setEnabled whom on =>
      cases addressed
      exact .inr (.inl ⟨on, by simp only [Op.run, System.setInstanceEnabled, vacant]⟩)
    | setSaveLevel whom l =>
      cases addressed
      exact .inr (.inl ⟨l.activates, by simp only [Op.run, System.setInstanceSaveLevel, vacant]⟩)
    | status whom =>
      cases addressed
      exact .inl rfl
    | write whom r =>
      cases addressed
      refine .inl ?_
      simp only [Op.run, System.writeInstance, vacant, ite_self]
      rfl
    | rename whom name =>
      cases addressed
      exact .inl (by simp only [Op.run, System.renameInstance, vacant])
    | flush whom =>
      cases addressed
      exact .inl (by simp only [Op.run, System.flushInstance, vacant])
    | _ => cases addressed

/-- An operation that is addressed to nobody calls nobody. -/
theorem Op.run_unreached {s : System} {o : Op} {whom : Address} (addressed : (Step.op o).addressee = some whom)
    (nobody : s.reach whom = none) : s.Calls (o.run s).2 [] := by
  obtain same | ⟨on, same⟩ | ⟨source, append, rfl⟩ := Op.run_nobody addressed nobody
  · rw [same]
    exact .refl s
  · rw [same]
    exact .of_journal rfl
  · exact System.Calls.withSink fun sink t => .registerInstance t sink append

theorem Op.run_addressed {s : System} (h : s.Possible) {o : Op} {whom : Address}
    (addressed : (Step.op o).addressee = some whom) : s.Calls (o.run s).2 (o.calls s) := by
  rw [Op.calls_addressed addressed]
  cases reached : s.reach whom with
  | none => exact Op.run_unreached addressed reached
  | some m =>
    obtain ⟨manager, found⟩ := h.reach reached
    obtain ⟨rest, journal, none⟩ := Step.run_journal h.formed reached found addressed rfl
    refine ⟨_, journal.trans (List.append_assoc ..), ?_⟩
    rw [List.filter_append, filter_isCall_each, filter_isCall_eq_nil none, List.append_nil]
    simp only [Option.elim_some, System.asks, found]

/-- An operation makes its calls, and no other. -/
theorem Op.run_calls {s : System} (h : s.Possible) (o : Op) :
    s.Calls (o.run s).2 (o.calls s) := by
  cases o with
  | make handle source => exact System.Calls.withSink fun sink t => .keepHandle (t.newManager [sink]).2 _ _
  | makeEmpty handle => exact System.Calls.keepHandle (s.newManager []).2 _ _
  | dropHandle handle => exact System.Calls.dropHandle s handle
  | same one other => exact System.Calls.withHandle fun m => System.Calls.withHandle fun n => .refl s
  | create source handle =>
    have ended := System.Calls.withdraw s
    have fetched := System.Calls.obtain s.withdraw source
    simp only [Op.run, System.create]
    generalize System.obtain source s.withdraw = outcome at fetched ⊢
    obtain ⟨made, t⟩ := outcome
    cases made with
    | error r => exact ended.followed fetched
    | ok sink =>
      have installed : t.Calls (t.install sink).2 [] := .of_journal rfl
      cases handle with
      | none => exact ended.followed (fetched.followed installed)
      | some name =>
        exact ended.followed (fetched.followed (installed.followed (.keepHandle (t.install sink).2 name _)))
  | destroy => exact System.Calls.withdraw s
  | takeInstance handle =>
    simp only [Op.run]
    split
    · exact .refl s
    · exact .keepHandle s handle _
  | register whom source append => exact Op.run_addressed h rfl
  | setEnabled whom on => exact Op.run_addressed h rfl
  | setSaveLevel whom l => exact Op.run_addressed h rfl
  | status whom => exact Op.run_addressed h rfl
  | write whom r => exact Op.run_addressed h rfl
  | rename whom name => exact Op.run_addressed h rfl
  | flush whom => exact Op.run_addressed h rfl
  | drainText logs => exact System.Calls.withBuffer fun _ _ => .of_journal rfl
  | drainLines logs => exact System.Calls.withBuffer fun _ _ => .of_journal rfl
  | bufferSize logs => exact System.Calls.withBuffer fun _ _ => .refl s
  | drainToConsole logs =>
    exact System.Calls.withBuffer fun sink lines => (System.Calls.sayAll s lines).followed (.of_journal rfl)
  | hold name source => exact System.Calls.withSink fun sink t => .holdSink t name sink
  | callSink name c =>
    simp only [Op.run, System.callSink, Op.calls]
    cases there : s.held.get? name with
    | none => exact .refl s
    | some sink => exact ⟨[.called sink.id c], World.receive_journal s.world sink c, rfl⟩
  | sinkStatus name => exact .refl s
  | dropSink name => exact System.Calls.dropSink s name
  | put path bytes => exact .changeDisk s _
  | makeFolder path => exact .changeDisk s _
  | remove path => exact .changeDisk s _
  | read path =>
    simp only [Op.run]
    split <;> exact .refl s
  | list => exact .refl s
  | loadOptions path =>
    simp only [Op.run]
    split <;> exact .refl s
  | wait stamp => exact .of_journal rfl

theorem Action.act_calls {s : System} (h : s.Possible) (a : Action) :
    s.Calls (a.act s) (a.calls s) := by
  cases a with
  | op o => exact Op.run_calls h o
  | enter m => exact .of_journal rfl
  | note r => exact ⟨[.nested r], rfl, rfl⟩
  | send m r =>
    have sent : s.Calls (s.leave.dispatch m r) (each (s.ids m) [.write r]) := System.Calls.fanOut s.leave m (.write r)
    exact sent.followed (.release _ m)
  | giveUp m => exact System.Calls.release s.leave m

end LogFanout
