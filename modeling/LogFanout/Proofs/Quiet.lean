import LogFanout.Proofs.Ownership

/- Quiet operations.

   Most operations change neither who has a manager nor which sinks it has (`Op.run_quiet`). The others make a manager, keep
   or drop a handle, make or destroy the instance, or give a sink to a manager. -/
namespace LogFanout

namespace System

variable {s t : System}

theorem ids_congr (managers : t.managers = s.managers) (m : Nat) : t.ids m = s.ids m := by
  simp only [ids, managers]

/-- A manager that has just been made has no part in the lists of the others. -/
theorem ids_push {newcomer : Manager} (managers : t.managers = s.managers ++ [newcomer]) {m : Nat}
    (other : m ≠ s.managers.length) : t.ids m = s.ids m := by
  by_cases known : m < s.managers.length
  · simp only [ids, managers, List.getElem?_append_left known]
  · have before : s.managers[m]? = none := List.getElem?_eq_none (by omega)
    have after : (s.managers ++ [newcomer])[m]? = none :=
      List.getElem?_eq_none (by simp only [List.length_append, List.length_singleton]; omega)
    simp only [ids, managers, before, after]

/-- Nothing changes as to who has a manager and which managers have sinks. -/
structure Quiet (s t : System) : Prop where
  ids : ∀ m, t.ids m = s.ids m
  slot : t.slot = s.slot
  handles : t.handles = s.handles
  running : t.running = s.running

namespace Quiet

theorem of_eq (managers : t.managers = s.managers) (slot : t.slot = s.slot) (handles : t.handles = s.handles)
    (running : t.running = s.running) : s.Quiet t :=
  ⟨ids_congr managers, slot, handles, running⟩

theorem refl (s : System) : s.Quiet s := of_eq rfl rfl rfl rfl

theorem trans {u : System} (first : s.Quiet t) (second : t.Quiet u) : s.Quiet u where
  ids := fun m => (second.ids m).trans (first.ids m)
  slot := second.slot.trans first.slot
  handles := second.handles.trans first.handles
  running := second.running.trans first.running

theorem fanOut (s : System) (m : Nat) (c : Call) : s.Quiet (s.fanOut m c) := by
  refine ⟨ids_fanOut s m c, ?_, ?_, ?_⟩ <;> (unfold System.fanOut; split <;> rfl)

theorem setSwitch (s : System) (m : Nat) (on : Bool) : s.Quiet (s.setSwitch m on) := by
  cases found : s.managers[m]? with
  | none =>
    simp only [System.setSwitch, found]
    exact refl s
  | some manager =>
    simp only [System.setSwitch, found]
    split
    · exact of_eq rfl rfl rfl rfl
    · exact ⟨ids_setManager_of_sinks found { manager with switch := .own on } rfl, rfl, rfl, rfl⟩

theorem announce (s : System) (m : Nat) (before after : Bool) : s.Quiet (s.announce m before after) := by
  unfold System.announce
  split
  · exact fanOut s m _
  · exact refl s

theorem setEnabled (s : System) (m : Nat) (on : Bool) : s.Quiet (s.setEnabled m on) := by
  unfold System.setEnabled
  split
  · exact refl s
  · split
    · exact refl s
    · exact (setSwitch s m on).trans (announce _ m _ on)

theorem setSaveLevel (s : System) (m : Nat) (l : Level) : s.Quiet (s.setSaveLevel m l) := by
  unfold System.setSaveLevel
  split
  · exact refl s
  · split
    · exact refl s
    · refine (setSwitch s m l.activates).trans (Quiet.trans ?_ (announce _ m _ l.activates))
      split
      · exact fanOut _ m _
      · exact refl _

theorem written (s : System) (m : Nat) (r : Record) : s.Quiet (s.written (s.write m r)).2 := by
  unfold System.write
  split
  · exact refl s
  · simp only [System.written]
    split
    · exact fanOut s m _
    · exact refl s

theorem rename (s : System) (m : Nat) (name : String) : s.Quiet (s.rename m name) := by
  unfold System.rename
  split
  · exact fanOut s m _
  · exact refl s

theorem obtain (s : System) (source : Source) : s.Quiet (obtain source s).2 := by
  unfold System.obtain
  split
  · split <;> exact of_eq rfl rfl rfl rfl
  · split <;> exact of_eq rfl rfl rfl rfl

theorem holdSink (s : System) (name : String) (sink : Sink) : s.Quiet (s.holdSink name sink) := by
  unfold System.holdSink
  split <;> exact of_eq rfl rfl rfl rfl

theorem dropSink (s : System) (name : String) : s.Quiet (s.dropSink name).2 := by
  unfold System.dropSink
  split <;> exact of_eq rfl rfl rfl rfl

theorem changeDisk (s : System) (changed : Except DiskError Disk) : s.Quiet (s.changeDisk changed).2 := by
  cases changed <;> exact of_eq rfl rfl rfl rfl

theorem sayAll (s : System) (lines : List String) : s.Quiet (lines.foldl (fun s line => s.say (line ++ "\n")) s) := by
  induction lines generalizing s with
  | nil => exact refl s
  | cons line rest ih => exact (of_eq rfl rfl rfl rfl : s.Quiet (s.say (line ++ "\n"))).trans (ih _)

theorem inUse (quiet : s.Quiet t) (m : Nat) : t.inUse m = s.inUse m := by
  simp only [System.inUse, quiet.slot, quiet.handles, quiet.running]

end Quiet

end System

/-- Whether an operation is of those that are quiet in every system. -/
def Op.quiet : Op → Bool
  | .make _ _ | .makeEmpty _ | .dropHandle _ | .create _ _ | .destroy | .takeInstance _ | .register _ _ _ => false
  | _ => true

open LogFanout.System (Quiet)

/-- A quiet operation changes nothing as to who has a manager and which sinks it has. -/
theorem Op.run_quiet {o : Op} (quiet : o.quiet = true) (s : System) : s.Quiet (o.run s).2 := by
  have handle {name : String} {f : Nat → Reply × System} (kept : ∀ m, s.Quiet (f m).2) :
      s.Quiet (s.withHandle name f).2 := by
    unfold System.withHandle
    split
    · exact .refl s
    · exact kept _
  have buffer {name : String} {f : Nat → List String → Reply × System} (kept : ∀ sink lines, s.Quiet (f sink lines).2) :
      s.Quiet (s.withBuffer name f).2 := by
    unfold System.withBuffer
    split
    · exact .refl s
    · exact kept _ _
  cases o with
  | same one other => exact handle fun _ => handle fun _ => .refl s
  | setEnabled whom on =>
    cases whom with
    | handle name => exact handle fun m => .setEnabled s m on
    | process =>
      simp only [Op.run, System.setInstanceEnabled]
      split
      · exact .setEnabled s _ on
      · exact .of_eq rfl rfl rfl rfl
  | setSaveLevel whom l =>
    cases whom with
    | handle name => exact handle fun m => .setSaveLevel s m l
    | process =>
      simp only [Op.run, System.setInstanceSaveLevel]
      split
      · exact .setSaveLevel s _ l
      · exact .of_eq rfl rfl rfl rfl
  | status whom =>
    cases whom with
    | handle name => exact handle fun _ => .refl s
    | process => exact .refl s
  | write whom r =>
    cases whom with
    | handle name => exact handle fun m => .written s m r
    | process =>
      simp only [Op.run, System.writeInstance]
      split
      · split
        · exact .written s _ r
        · exact .refl s
      · exact .refl s
  | rename whom name =>
    cases whom with
    | handle _ => exact handle fun m => .rename s m name
    | process =>
      simp only [Op.run, System.renameInstance]
      split
      · exact .rename s _ name
      · exact .refl s
  | flush whom =>
    cases whom with
    | handle name => exact handle fun m => .fanOut s m .flush
    | process =>
      simp only [Op.run, System.flushInstance]
      split
      · exact .fanOut s _ .flush
      · exact .refl s
  | drainText logs => exact buffer fun _ _ => .of_eq rfl rfl rfl rfl
  | drainLines logs => exact buffer fun _ _ => .of_eq rfl rfl rfl rfl
  | bufferSize logs => exact buffer fun _ _ => .refl s
  | drainToConsole logs => exact buffer fun _ lines => (Quiet.sayAll s lines).trans (.of_eq rfl rfl rfl rfl)
  | hold name source =>
    have fetched := Quiet.obtain s source
    simp only [Op.run, System.withSink]
    generalize System.obtain source s = outcome at fetched ⊢
    obtain ⟨made, t⟩ := outcome
    cases made with
    | error r => exact fetched
    | ok sink => exact fetched.trans (.holdSink t name sink)
  | callSink name c =>
    simp only [Op.run, System.callSink]
    split <;> (rename_i called; split at called <;> cases called)
    · exact .refl s
    · exact .of_eq rfl rfl rfl rfl
  | sinkStatus name => exact .refl s
  | dropSink name => exact .dropSink s name
  | put path bytes => exact .changeDisk s _
  | makeFolder path => exact .changeDisk s _
  | remove path => exact .changeDisk s _
  | read path =>
    simp only [Op.run]
    split <;> exact .refl s
  | list => exact .refl s
  | loadOptions path =>
    simp only [Op.run]
    split <;> exact .refl s
  | wait stamp => exact .of_eq rfl rfl rfl rfl
  | _ => cases quiet

end LogFanout
