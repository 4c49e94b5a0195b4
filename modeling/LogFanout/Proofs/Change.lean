import LogFanout.Script.Run
import Mathlib.Logic.Relation

/- Changes: the smallest things that steps do to a system.

   Every operation is a chain of changes of a few kinds (`Changes.op`). A change is about a system and about the sinks
   that the operation has in hand, that is, which are out of one place and not yet in the next. A property that no change
   destroys holds all through every run, and it has to be looked at once for each kind of change instead of once for each
   operation. -/
namespace LogFanout
namespace System

theorem fanOut_some {s : System} {m : Nat} {manager : Manager} (found : s.managers[m]? = some manager) (c : Call) :
    s.fanOut m c = { s with world := (World.deliver c manager.sinks s.world).2 }.setManager m
      { manager with sinks := (World.deliver c manager.sinks s.world).1 } := by
  simp only [fanOut, found]

theorem fanOut_inUse (s : System) (m : Nat) (c : Call) (n : Nat) : (s.fanOut m c).inUse n = s.inUse n := by
  unfold fanOut
  split <;> rfl

/-- A system, and in front of it the sinks that a step has in hand. -/
abbrev Loaded := List Sink × System

/-- One change. The guards say what the operations have looked at before they make it. -/
inductive Change : Loaded → Loaded → Prop where
  /-- Something happens outside of all sinks: on the disk, on the console, in a buffer that is emptied, or time passes. -/
  | outside (hand : List Sink) (s : System) (host : Host) (buffers : Table Nat (List String)) (stamp : String) :
      Change (hand, s) (hand, { s with world := { s.world with host, buffers, stamp } })
  | logs (hand : List Sink) (s : System) (logs : Table String Nat) : Change (hand, s) (hand, { s with logs })
  | build (hand : List Sink) (s : System) (label : Sink.Label) (body : Sink.Body) :
      Change (hand, s) ((s.world.number label body).1 :: hand, { s with world := (s.world.number label body).2 })
  | discard (sinks hand : List Sink) (s : System) : Change (sinks ++ hand, s) (hand, s.discard sinks)
  /-- A sink that no manager has: taken from under its name, put under a free name or in the place of another, called. -/
  | take (hand : List Sink) (s : System) (name : String) (sink : Sink) (found : s.held.get? name = some sink) :
      Change (hand, s) (sink :: hand, { s with held := s.held.erase name })
  | keep (hand : List Sink) (s : System) (name : String) (sink : Sink) (free : s.held.get? name = none) :
      Change (sink :: hand, s) (hand, { s with held := s.held.put name sink })
  | swap (hand : List Sink) (s : System) (name : String) (sink old : Sink) (found : s.held.get? name = some old) :
      Change (sink :: hand, s) (old :: hand, { s with held := s.held.put name sink })
  | callHeld (hand : List Sink) (s : System) (name : String) (sink : Sink) (c : Call)
      (found : s.held.get? name = some sink) :
      Change (hand, s) (hand, { s with
        world := (s.world.receive sink c).2, held := s.held.put name (s.world.receive sink c).1 })
  | keepHandle (hand : List Sink) (s : System) (name : String) (m : Nat)
      (known : m < s.managers.length ∨ s.slot = some m) :
      Change (hand, s) (hand, { s with handles := s.handles.put name m })
  | dropHandle (hand : List Sink) (s : System) (name : String) :
      Change (hand, s) (hand, { s with handles := s.handles.erase name })
  | fanOut (hand : List Sink) (s : System) (m : Nat) (c : Call) : Change (hand, s) (hand, s.fanOut m c)
  | setSwitch (hand : List Sink) (s : System) (m : Nat) (manager : Manager) (on : Bool)
      (found : s.managers[m]? = some manager) (live : manager.retired = false) :
      Change (hand, s) (hand, s.setSwitch m on)
  | setFlag (hand : List Sink) (s : System) (on : Bool) (vacant : s.slot = none) :
      Change (hand, s) (hand, { s with processFlag := on })
  /-- The list of a manager: a sink joins it, or all leave it and are dropped. -/
  | join (hand : List Sink) (s : System) (m : Nat) (manager : Manager) (sink : Sink)
      (found : s.managers[m]? = some manager) (live : manager.retired = false) :
      Change (sink :: hand, s) (hand, s.setManager m
        { manager with sinks := manager.sinks ++ [sink], count := (manager.sinks ++ [sink]).length })
  | clear (hand : List Sink) (s : System) (m : Nat) (manager : Manager) (found : s.managers[m]? = some manager) :
      Change (hand, s) (hand, (s.discard manager.sinks).setManager m { manager with sinks := [], count := 0 })
  /-- Managers come, as the instance or on their own, and the instance goes, which has no sinks by then. -/
  | found (sinks hand : List Sink) (s : System) : Change (sinks ++ hand, s) (hand, (s.newManager sinks).2)
  | install (hand : List Sink) (s : System) (sink : Sink) (vacant : s.slot = none) :
      Change (sink :: hand, s) (hand, (s.install sink).2)
  | depose (hand : List Sink) (s : System) (m : Nat) (manager : Manager) (seated : s.slot = some m)
      (found : s.managers[m]? = some manager) (bare : manager.sinks = []) :
      Change (hand, s) (hand, { s with slot := none }.setManager m { manager with retired := true })
  | vacate (hand : List Sink) (s : System) (m : Nat) (seated : s.slot = some m) (unknown : s.managers[m]? = none) :
      Change (hand, s) (hand, { s with slot := none })

abbrev Changes : Loaded → Loaded → Prop := Relation.ReflTransGen Change

namespace Changes

theorem one {x y : Loaded} (h : Change x y) : Changes x y := Relation.ReflTransGen.single h

theorem refl (x : Loaded) : Changes x x := Relation.ReflTransGen.refl

theorem trans {x y z : Loaded} (h₁ : Changes x y) (h₂ : Changes y z) : Changes x z :=
  Relation.ReflTransGen.trans h₁ h₂

variable (hand : List Sink) (s : System)

/-! ## The operations on a manager -/

theorem announce (m : Nat) (before after : Bool) : Changes (hand, s) (hand, s.announce m before after) := by
  unfold System.announce
  split
  · exact one (.fanOut _ _ _ _)
  · exact refl _

theorem setEnabled (m : Nat) (on : Bool) : Changes (hand, s) (hand, s.setEnabled m on) := by
  unfold System.setEnabled
  split
  · exact refl _
  · rename_i manager found
    split
    · exact refl _
    · rename_i live
      exact trans (one (.setSwitch hand s m manager on found (by simpa using live))) (announce hand _ m _ on)

theorem setSaveLevel (m : Nat) (l : Level) : Changes (hand, s) (hand, s.setSaveLevel m l) := by
  unfold System.setSaveLevel
  split
  · exact refl _
  · rename_i manager found
    split
    · exact refl _
    · rename_i live
      have switched := one (.setSwitch hand s m manager l.activates found (by simpa using live))
      refine trans switched (trans ?_ (announce hand _ m _ l.activates))
      split
      · exact one (.fanOut _ _ _ _)
      · exact refl _

theorem dispatch (m : Nat) (r : Record) : Changes (hand, s) (hand, s.dispatch m r) := one (.fanOut hand s m (.write r))

theorem rename (m : Nat) (name : String) : Changes (hand, s) (hand, s.rename m name) := by
  unfold System.rename
  split
  · exact one (.fanOut _ _ _ _)
  · exact refl _

theorem flush (m : Nat) : Changes (hand, s) (hand, s.flush m) := one (.fanOut hand s m .flush)

theorem write {m : Nat} {r : Record} {after : System} (h : s.write m r = .ok after) :
    Changes (hand, s) (hand, after) := by
  unfold System.write at h
  split at h
  · cases h
  · cases h
    split
    · exact dispatch hand s m r
    · exact refl _

theorem register (m : Nat) (sink : Sink) (append : Bool) :
    Changes (sink :: hand, s) (hand, (s.register m sink append).2) := by
  unfold System.register
  split
  · exact one (.discard [sink] hand s)
  · rename_i manager found
    split
    · exact one (.discard [sink] hand s)
    · rename_i live
      have live : manager.retired = false := by simpa using live
      cases append with
      | true => exact one (.join hand s m manager sink found live)
      | false =>
        -- all that are there leave the list and are dropped, and then the new one joins
        have left := Change.clear (sink :: hand) s m manager found
        have here : ((s.discard manager.sinks).setManager m { manager with sinks := [], count := 0 }).managers[m]? =
            some { manager with sinks := [], count := 0 } := by
          have bound := (List.getElem?_eq_some_iff.mp found).1
          simp [setManager, System.discard, bound]
        have joined := Change.join hand _ m _ sink here live
        apply trans (one left)
        have same := one joined
        simpa [setManager, System.discard] using same

theorem release (m : Nat) : Changes (hand, s) (hand, s.release m) := by
  unfold System.release
  split
  · exact refl _
  · split
    · exact refl _
    · rename_i manager found
      exact one (.clear hand s m manager found)

/-! ## The instance -/

theorem withdraw : Changes (hand, s) (hand, s.withdraw) := by
  unfold System.withdraw
  split
  · exact refl _
  · rename_i m seated
    unfold retire
    split
    · rename_i unknown
      exact one (.vacate hand s m seated unknown)
    · rename_i manager found
      have found : s.managers[m]? = some manager := found
      have bound := (List.getElem?_eq_some_iff.mp found).1
      -- every sink is flushed, all leave the list and are dropped, and then the manager is deposed
      have flushed := Change.fanOut hand s m .flush
      rw [fanOut_some found] at flushed
      have left := Change.clear hand
        ({ s with world := (World.deliver .flush manager.sinks s.world).2 }.setManager m
          { manager with sinks := (World.deliver .flush manager.sinks s.world).1 }) m
        { manager with sinks := (World.deliver .flush manager.sinks s.world).1 } (by simp [setManager, bound])
      refine trans (one flushed) (trans (one left) ?_)
      have deposed := one (Change.depose hand
        (({ s with world := (World.deliver .flush manager.sinks s.world).2 }.discard
          (World.deliver .flush manager.sinks s.world).1).setManager m { manager with sinks := [], count := 0 }) m
        { manager with sinks := [], count := 0 } seated (by simp [setManager, System.discard, bound]) rfl)
      simpa [setManager, System.discard] using deposed

theorem withdraw_slot : s.withdraw.slot = none := by
  unfold System.withdraw
  split
  · assumption
  · unfold retire
    split <;> rfl

theorem create {ε : Type} (make : System → Except ε Sink × System)
    (failed : ∀ t e t', t.slot = none → make t = (.error e, t') → Changes (hand, t) (hand, t'))
    (made : ∀ t sink t', t.slot = none → make t = (.ok sink, t') →
      Changes (hand, t) (sink :: hand, t') ∧ t'.slot = none) :
    Changes (hand, s) (hand, (s.create make).2) := by
  have gone := withdraw hand s
  have vacant := withdraw_slot s
  unfold System.create
  split
  · rename_i e t made'
    exact trans gone (failed _ _ _ vacant made')
  · rename_i sink t made'
    obtain ⟨there, vacant⟩ := made _ _ _ vacant made'
    exact trans gone (trans there (one (.install hand t sink vacant)))

theorem setInstanceEnabled (on : Bool) : Changes (hand, s) (hand, s.setInstanceEnabled on) := by
  unfold System.setInstanceEnabled
  split
  · exact setEnabled hand s _ on
  · rename_i vacant
    exact one (.setFlag hand s on vacant)

theorem setInstanceSaveLevel (l : Level) : Changes (hand, s) (hand, s.setInstanceSaveLevel l) := by
  unfold System.setInstanceSaveLevel
  split
  · exact setSaveLevel hand s _ l
  · rename_i vacant
    exact one (.setFlag hand s l.activates vacant)

theorem say (text : String) : Changes (hand, s) (hand, s.say text) :=
  one (.outside hand s (s.world.host.show text) s.world.buffers s.world.stamp)

theorem registerInstance (sink : Sink) (append : Bool) :
    Changes (sink :: hand, s) (hand, (s.registerInstance sink append).2) := by
  unfold System.registerInstance
  split
  · exact register hand s _ sink append
  · exact trans (one (.discard [sink] hand s)) (say hand _ _)

theorem writeInstance {r : Record} {after : System} (h : s.writeInstance r = .ok after) :
    Changes (hand, s) (hand, after) := by
  unfold System.writeInstance at h
  split at h
  · split at h
    · exact write hand s h
    · cases h
      exact refl _
  · cases h
    exact refl _

theorem renameInstance (name : String) : Changes (hand, s) (hand, s.renameInstance name) := by
  unfold System.renameInstance
  split
  · exact rename hand s _ name
  · exact refl _

theorem flushInstance : Changes (hand, s) (hand, s.flushInstance) := by
  unfold System.flushInstance
  split
  · exact flush hand s _
  · exact refl _

/-! ## Handles, and sinks that no manager has -/

theorem keepHandle (name : String) (m : Nat) (known : m < s.managers.length ∨ s.slot = some m) :
    Changes (hand, s) (hand, s.keepHandle name m) := by
  have kept := one (.keepHandle hand s name m known)
  unfold System.keepHandle
  split
  · exact kept
  · exact trans kept (release hand _ _)

theorem dropHandle (name : String) : Changes (hand, s) (hand, (s.dropHandle name).2) := by
  unfold System.dropHandle
  split
  · exact refl _
  · exact trans (one (.dropHandle hand s name)) (release hand _ _)

theorem holdSink (name : String) (sink : Sink) : Changes (sink :: hand, s) (hand, s.holdSink name sink) := by
  unfold System.holdSink
  split
  · rename_i free
    exact one (.keep hand s name sink free)
  · rename_i old found
    exact trans (one (.swap hand s name sink old found)) (one (.discard [old] hand _))

theorem dropSink (name : String) : Changes (hand, s) (hand, (s.dropSink name).2) := by
  unfold System.dropSink
  split
  · exact refl _
  · rename_i sink found
    exact trans (one (.take hand s name sink found)) (one (.discard [sink] hand _))

theorem callSink {name : String} {c : Call} {after : System} (h : s.callSink name c = some after) :
    Changes (hand, s) (hand, after) := by
  unfold System.callSink at h
  split at h
  · cases h
  · rename_i sink found
    cases h
    exact one (.callHeld hand s name sink c found)

theorem number (host : Host) (logs : Table String Nat) (label : Sink.Label) (body : Sink.Body) :
    Changes (hand, s) ((({ s.world with host } : World).number label body).1 :: hand,
      { s with world := (({ s.world with host } : World).number label body).2, logs }) :=
  trans (one (.outside hand s host s.world.buffers s.world.stamp))
    (trans (one (.build hand _ label body)) (one (.logs _ _ logs)))

theorem obtain_ok {source : Source} {sink : Sink} {after : System} (h : s.obtain source = (.ok sink, after)) :
    Changes (hand, s) (sink :: hand, after) ∧ after.slot = s.slot := by
  cases source with
  | held name =>
    simp only [System.obtain] at h
    split at h
    · cases h
    · rename_i found
      cases h
      exact ⟨one (.take hand s name sink found), rfl⟩
  | built spec =>
    cases spec with
    | probe name hearsFlush =>
      cases h
      exact ⟨number hand s s.world.host s.logs _ _, rfl⟩
    | memory name level =>
      cases h
      exact ⟨number hand s s.world.host _ _ _, rfl⟩
    | file o =>
      cases h
      exact ⟨number hand s (FileSink.make o s.world.host).2 s.logs _ _, rfl⟩
    | openFile o =>
      simp only [System.obtain, World.build] at h
      split at h
      · cases h
      · rename_i w built
        split at built
        · cases built
        · rename_i f host opened
          cases built
          cases h
          exact ⟨number hand s host s.logs _ _, rfl⟩

theorem obtain_error {source : Source} {r : Reply} {after : System} (h : s.obtain source = (.error r, after)) :
    after = s := by
  cases source with
  | held name =>
    simp only [System.obtain] at h
    split at h <;> cases h
    rfl
  | built spec =>
    cases spec with
    | openFile o =>
      simp only [System.obtain, World.build] at h
      split at h
      · rename_i e w failed
        split at failed <;> cases failed
        cases h
        rfl
      · cases h
    | _ => cases h

/-! ## Replies and what happens beside them -/

theorem withSink {source : Source} {f : Sink → System → Reply × System}
    (run : ∀ sink t, t.slot = s.slot → Changes (sink :: hand, t) (hand, (f sink t).2)) :
    Changes (hand, s) (hand, (s.withSink source f).2) := by
  unfold System.withSink
  split
  · rename_i r t failed
    cases obtain_error s failed
    exact refl _
  · rename_i sink t made
    obtain ⟨there, slot⟩ := obtain_ok hand s made
    exact trans there (run sink t slot)

theorem withHandle {name : String} {f : Nat → Reply × System}
    (run : ∀ m, s.handles.get? name = some m → Changes (hand, s) (hand, (f m).2)) :
    Changes (hand, s) (hand, (s.withHandle name f).2) := by
  unfold System.withHandle
  split
  · exact refl _
  · rename_i m found
    exact run m found

theorem withBuffer {name : String} {f : Nat → List String → Reply × System}
    (run : ∀ sink lines, Changes (hand, s) (hand, (f sink lines).2)) :
    Changes (hand, s) (hand, (s.withBuffer name f).2) := by
  unfold System.withBuffer
  split
  · exact refl _
  · exact run _ _

theorem clearBuffer (sink : Nat) : Changes (hand, s) (hand, s.clearBuffer sink) :=
  one (.outside hand s s.world.host (s.world.buffers.put sink []) s.world.stamp)

theorem changeDisk (changed : Except DiskError Disk) : Changes (hand, s) (hand, (s.changeDisk changed).2) := by
  unfold System.changeDisk
  split
  · exact refl _
  · rename_i disk
    exact one (.outside hand s { s.world.host with disk } s.world.buffers s.world.stamp)

theorem written {outcome : Except Misuse System}
    (run : ∀ after, outcome = .ok after → Changes (hand, s) (hand, after)) :
    Changes (hand, s) (hand, (s.written outcome).2) := by
  cases outcome with
  | error e => exact refl _
  | ok after => exact run after rfl

theorem sayAll (lines : List String) :
    Changes (hand, s) (hand, lines.foldl (fun s line => s.say (line ++ "\n")) s) := by
  induction lines generalizing s with
  | nil => exact refl _
  | cons line rest ih => exact trans (say hand s _) (ih _)

/-! ## Operations -/

/-- An operation is a chain of changes that begins and ends with empty hands. -/
theorem op (o : Op) : Changes ([], s) ([], (o.run s).2) := by
  cases o with
  | make handle source =>
    apply withSink
    intro sink t _
    refine trans (one (.found [sink] [] t)) (keepHandle [] _ handle _ (.inl ?_))
    simp [newManager]
  | makeEmpty handle =>
    refine trans (one (.found [] [] s)) (keepHandle [] _ handle _ (.inl ?_))
    simp [newManager]
  | dropHandle handle => exact dropHandle [] s handle
  | same one other => exact withHandle [] s fun m _ => withHandle [] s fun n _ => refl _
  | create source handle =>
    have created : Changes ([], s) ([], (s.create (obtain source)).2) := by
      apply create
      · intro t e t' _ failed
        cases obtain_error t failed
        exact refl _
      · intro t sink t' vacant made
        obtain ⟨there, slot⟩ := obtain_ok [] t made
        exact ⟨there, slot.trans vacant⟩
    simp only [Op.run]
    split
    · rename_i r t made
      rw [made] at created
      exact created
    · rename_i m t made
      rw [made] at created
      cases handle with
      | none => exact created
      | some name =>
        refine trans created (keepHandle [] t name m (.inr ?_))
        unfold System.create at made
        split at made
        · cases made
        · cases made
          rfl
  | destroy => exact withdraw [] s
  | takeInstance handle =>
    simp only [Op.run]
    split
    · exact refl _
    · rename_i m seated
      exact keepHandle [] s handle m (.inr seated)
  | register whom source append =>
    cases whom with
    | handle name =>
      exact withHandle [] s fun m _ => withSink [] s fun sink t _ => register [] t m sink append
    | process => exact withSink [] s fun sink t _ => registerInstance [] t sink append
  | setEnabled whom on =>
    cases whom with
    | handle name => exact withHandle [] s fun m _ => setEnabled [] s m on
    | process => exact setInstanceEnabled [] s on
  | setSaveLevel whom l =>
    cases whom with
    | handle name => exact withHandle [] s fun m _ => setSaveLevel [] s m l
    | process => exact setInstanceSaveLevel [] s l
  | status whom =>
    cases whom with
    | handle name => exact withHandle [] s fun m _ => refl _
    | process => exact refl _
  | write whom r =>
    cases whom with
    | handle name => exact withHandle [] s fun m _ => written [] s fun after h => write [] s h
    | process => exact written [] s fun after h => writeInstance [] s h
  | rename whom target =>
    cases whom with
    | handle name => exact withHandle [] s fun m _ => rename [] s m target
    | process => exact renameInstance [] s target
  | flush whom =>
    cases whom with
    | handle name => exact withHandle [] s fun m _ => flush [] s m
    | process => exact flushInstance [] s
  | drainText logs => exact withBuffer [] s fun sink _ => clearBuffer [] s sink
  | drainLines logs => exact withBuffer [] s fun sink _ => clearBuffer [] s sink
  | bufferSize logs => exact withBuffer [] s fun _ _ => refl _
  | drainToConsole logs =>
    exact withBuffer [] s fun sink lines => trans (sayAll [] s lines) (clearBuffer [] _ sink)
  | hold name source => exact withSink [] s fun sink t _ => holdSink [] t name sink
  | callSink name c =>
    simp only [Op.run]
    split
    · exact refl _
    · rename_i after h
      exact callSink [] s h
  | sinkStatus name => exact refl _
  | dropSink name => exact dropSink [] s name
  | put path bytes => exact changeDisk [] s _
  | makeFolder path => exact changeDisk [] s _
  | remove path => exact changeDisk [] s _
  | read path =>
    simp only [Op.run]
    split <;> exact refl _
  | list => exact refl _
  | loadOptions path =>
    simp only [Op.run]
    split <;> exact refl _
  | wait stamp => exact one (.outside [] s s.world.host s.world.buffers stamp)

end Changes
end System
end LogFanout
