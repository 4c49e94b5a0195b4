import LogFanout.Proofs.Heard
import LogFanout.Proofs.Replacement

/- What operations do not look at.

   The running calls count only when a manager is let go of, and the sinks of a manager count only for those who reach it.
   `System.aside` is the system with other running calls and, if it is told so, without the sinks of one manager. What is
   done to a system through the other managers commutes with it, and so does every operation that moves no manager from
   one hand to another, if nobody but a running call has that manager (`Op.run_aside`). -/
namespace LogFanout

def Manager.emptied (manager : Manager) : Manager := { manager with sinks := [], count := 0 }

namespace System

/-- The system with other running calls, and with one manager emptied if there is one to be. -/
def aside (s : System) (running : List Nat) (gone : Option Nat) : System :=
  { s with
    running
    managers := match gone with
      | none => s.managers
      | some m => s.managers.modify m Manager.emptied }

def putAside {α : Type} (running : List Nat) (gone : Option Nat) (x : α × System) : α × System :=
  (x.1, x.2.aside running gone)

section Aside

variable (s : System) (r : List Nat) (g : Option Nat)

@[simp] theorem aside_world : (s.aside r g).world = s.world := rfl
@[simp] theorem aside_slot : (s.aside r g).slot = s.slot := rfl
@[simp] theorem aside_processFlag : (s.aside r g).processFlag = s.processFlag := rfl
@[simp] theorem aside_handles : (s.aside r g).handles = s.handles := rfl
@[simp] theorem aside_held : (s.aside r g).held = s.held := rfl
@[simp] theorem aside_logs : (s.aside r g).logs = s.logs := rfl
@[simp] theorem aside_running : (s.aside r g).running = r := rfl

@[simp] theorem putAside_mk {α : Type} (a : α) : putAside r g (a, s) = (a, s.aside r g) := rfl

theorem aside_managers_length : (s.aside r g).managers.length = s.managers.length := by
  cases g with
  | none => rfl
  | some m => exact List.length_modify _ _ _

variable {g} {n : Nat}

theorem found_aside (other : g ≠ some n) : (s.aside r g).managers[n]? = s.managers[n]? := by
  cases g with
  | none => rfl
  | some m =>
    have different : m ≠ n := fun same => other (congrArg some same)
    simp [aside, different]

theorem setManager_aside (other : g ≠ some n) (manager : Manager) :
    (s.aside r g).setManager n manager = (s.setManager n manager).aside r g := by
  cases g with
  | none => rfl
  | some m =>
    have different : m ≠ n := fun same => other (congrArg some same)
    have managers : (s.managers.modify m Manager.emptied).set n manager =
        (s.managers.set n manager).modify m Manager.emptied := by
      apply List.ext_getElem?
      intro k
      simp only [List.getElem?_set, List.getElem?_modify, List.length_modify]
      by_cases here : n = k
      · subst here
        simp [different]
      · simp [here]
    simp only [setManager, aside, managers]

theorem isOpen_aside (other : g ≠ some n) : (s.aside r g).isOpen n = s.isOpen n := by
  simp only [isOpen, found_aside s r other]
  rfl

theorem fanOut_aside (other : g ≠ some n) (c : Call) : (s.aside r g).fanOut n c = (s.fanOut n c).aside r g := by
  have found := found_aside s r other
  cases there : s.managers[n]? with
  | none => simp only [fanOut, found, there]
  | some manager =>
    rw [fanOut_some (found.trans there), fanOut_some there]
    exact setManager_aside { s with world := (World.deliver c manager.sinks s.world).2 } r other _

theorem write_aside (other : g ≠ some n) (record : Record) :
    (s.aside r g).write n record = (s.write n record).map fun after => after.aside r g := by
  simp only [write, accepts, isOpen_aside s r other]
  split
  · rfl
  · split
    · exact congrArg Except.ok (fanOut_aside s r other _)
    · rfl

theorem rename_aside (other : g ≠ some n) (name : String) :
    (s.aside r g).rename n name = (s.rename n name).aside r g := by
  simp only [rename, isOpen_aside s r other]
  split
  · exact fanOut_aside s r other _
  · rfl

theorem announce_aside (other : g ≠ some n) (before after : Bool) :
    (s.aside r g).announce n before after = (s.announce n before after).aside r g := by
  simp only [announce]
  split
  · exact fanOut_aside s r other _
  · rfl

theorem setSwitch_aside (other : g ≠ some n) (on : Bool) :
    (s.aside r g).setSwitch n on = (s.setSwitch n on).aside r g := by
  simp only [setSwitch, found_aside s r other]
  split
  · rfl
  · split
    · rfl
    · exact setManager_aside s r other _

theorem setEnabled_aside (other : g ≠ some n) (on : Bool) :
    (s.aside r g).setEnabled n on = (s.setEnabled n on).aside r g := by
  simp only [setEnabled, found_aside s r other]
  split
  · rfl
  · split
    · rfl
    · rw [setSwitch_aside s r other]
      exact announce_aside _ r other _ on

theorem setSaveLevel_aside (other : g ≠ some n) (l : Level) :
    (s.aside r g).setSaveLevel n l = (s.setSaveLevel n l).aside r g := by
  simp only [setSaveLevel, found_aside s r other]
  split
  · rfl
  · split
    · rfl
    · rw [setSwitch_aside s r other]
      cases l.activates with
      | true =>
        simp only [if_true, fanOut_aside _ r other]
        exact announce_aside _ r other _ true
      | false => exact announce_aside _ r other _ false

theorem register_aside (other : g ≠ some n) (sink : Sink) (append : Bool) :
    (s.aside r g).register n sink append = putAside r g (s.register n sink append) := by
  simp only [register, found_aside s r other]
  split
  · rfl
  · split
    · rfl
    · cases append with
      | true => exact congrArg (Prod.mk true) (setManager_aside s r other _)
      | false => exact congrArg (Prod.mk true) (setManager_aside (s.discard _) r other _)

theorem retire_aside (other : g ≠ some n) : (s.aside r g).retire n = (s.retire n).aside r g := by
  simp only [retire, found_aside s r other]
  split
  · rfl
  · rename_i manager there
    exact setManager_aside ({ s with world := (World.deliver .flush manager.sinks s.world).2 }.discard _) r other _

theorem release_aside (other : g ≠ some n) (running : n ∈ r ↔ n ∈ s.running) :
    (s.aside r g).release n = (s.release n).aside r g := by
  have used : (s.aside r g).inUse n = s.inUse n := by
    rw [Bool.eq_iff_iff, inUse_iff, inUse_iff]
    show s.slot = some n ∨ n ∈ s.handles.values ∨ n ∈ r ↔ _
    rw [running]
  simp only [release, used, found_aside s r other]
  split
  · rfl
  · split
    · rfl
    · rename_i manager there
      exact setManager_aside (s.discard manager.sinks) r other _

theorem append_aside (known : ∀ m, g = some m → m < s.managers.length) (newcomer : Manager) :
    { s.aside r g with managers := (s.aside r g).managers ++ [newcomer] } =
      { s with managers := s.managers ++ [newcomer] }.aside r g := by
  cases g with
  | none => rfl
  | some m =>
    have bound : m < s.managers.length := known m rfl
    have managers : s.managers.modify m Manager.emptied ++ [newcomer] =
        (s.managers ++ [newcomer]).modify m Manager.emptied := by
      apply List.ext_getElem?
      intro k
      simp only [List.getElem?_append, List.getElem?_modify, List.length_modify]
      by_cases inside : k < s.managers.length
      · simp [inside]
      · have other : m ≠ k := by omega
        simp [inside, other]
    simp only [aside, managers]

end Aside

/-! ### Emptying a manager -/

theorem aside_aside {g : Option Nat} {n : Nat} (s : System) (r r' : List Nat) (gone : ∀ k, g = some k → k = n) :
    (s.aside r g).aside r' (some n) = s.aside r' (some n) := by
  cases g with
  | none => rfl
  | some k =>
    obtain rfl := gone k rfl
    have twice : Manager.emptied ∘ Manager.emptied = Manager.emptied := rfl
    simp only [aside, List.modify_modify_eq, twice]

/-- A manager that nobody has is emptied when it is let go of. -/
theorem release_unused {s : System} {m : Nat} (known : m < s.managers.length) (unused : s.inUse m = false) :
    (s.release m).heard = (s.aside s.running (some m)).heard := by
  have found : s.managers[m]? = some s.managers[m] := List.getElem?_eq_getElem known
  have released : s.release m = (s.setManager m s.managers[m].emptied).discard s.managers[m].sinks := by
    simp only [System.release, unused, found]
    rfl
  have managers : s.managers.set m s.managers[m].emptied = s.managers.modify m Manager.emptied := by
    apply List.ext_getElem?
    intro k
    simp only [List.getElem?_set, List.getElem?_modify]
    split
    · rename_i here
      subst here
      simp [known]
    · simp
  rw [released, heard_discard, setManager, managers]
  rfl

theorem release_length (s : System) (n : Nat) : (s.release n).managers.length = s.managers.length := by
  unfold System.release
  split
  · rfl
  · split
    · rfl
    · exact List.length_set

theorem aside_bare {s : System} (formed : s.WellFormed) {m : Nat} (bare : s.ids m = []) (r : List Nat) :
    s.aside r (some m) = s.aside r none := by
  have managers : s.managers.modify m Manager.emptied = s.managers := by
    apply List.ext_getElem?
    intro k
    rw [List.getElem?_modify]
    cases found : s.managers[k]? with
    | none => rfl
    | some manager =>
      by_cases here : m = k
      · subst here
        have none : manager.sinks = [] := by
          rw [ids_of found] at bare
          exact List.map_eq_nil_iff.mp bare
        have zero : manager.count = 0 := by rw [(formed.sound m manager found).counted, none, List.length_nil]
        have same : manager.emptied = manager := by rw [Manager.emptied, ← none, ← zero]
        simp [same]
      · simp [here]
  simp only [aside, managers]

/-! ## Operations that move no manager -/

/-- Nobody but a running call has a manager. -/
def Unkept (s : System) (m : Nat) : Prop := s.slot ≠ some m ∧ m ∉ s.handles.values

theorem Unkept.not_reached {s : System} {m : Nat} (unkept : s.Unkept m) (whom : Address) : s.reach whom ≠ some m := by
  intro reached
  cases whom with
  | process => exact unkept.1 reached
  | handle name =>
    obtain ⟨_, _, values, _⟩ := Table.values_put_old (t := s.handles) reached m
    apply unkept.2
    simp [values]

section Reached

variable {s : System} {r : List Nat} {g : Option Nat}

theorem obtain_aside (s : System) (r : List Nat) (g : Option Nat) (source : Source) :
    obtain source (s.aside r g) = putAside r g (obtain source s) := by
  cases source with
  | held name =>
    simp only [obtain, aside_held]
    split <;> rfl
  | built spec =>
    simp only [obtain, aside_world]
    obtain ⟨made, world⟩ := s.world.build spec
    cases made <;> rfl

theorem withSink_aside {source : Source} {f : Sink → System → Reply × System}
    (h : ∀ sink t, (obtain source s) = (.ok sink, t) → f sink (t.aside r g) = putAside r g (f sink t)) :
    (s.aside r g).withSink source f = putAside r g (s.withSink source f) := by
  simp only [withSink, obtain_aside]
  cases fetched : obtain source s with
  | mk made t =>
    cases made with
    | error reply => rfl
    | ok sink => exact h sink t fetched

theorem withHandle_aside {name : String} {f f' : Nat → Reply × System}
    (h : ∀ n, s.reach (.handle name) = some n → f n = putAside r g (f' n)) :
    (s.aside r g).withHandle name f = putAside r g (s.withHandle name f') := by
  simp only [withHandle, aside_handles]
  cases found : s.handles.get? name with
  | none => rfl
  | some n => exact h n found

theorem withBuffer_aside {name : String} {f f' : Nat → List String → Reply × System}
    (h : ∀ sink lines, f sink lines = putAside r g (f' sink lines)) :
    (s.aside r g).withBuffer name f = putAside r g (s.withBuffer name f') := by
  simp only [withBuffer, aside_logs]
  cases s.logs.get? name with
  | none => rfl
  | some sink => exact h sink _

theorem written_aside (outcome : Except Misuse System) :
    (s.aside r g).written (outcome.map fun after => after.aside r g) = putAside r g (s.written outcome) := by
  cases outcome <;> rfl

theorem sayAll_aside (s : System) (r : List Nat) (g : Option Nat) (lines : List String) :
    lines.foldl (fun s line => s.say (line ++ "\n")) (s.aside r g) =
      (lines.foldl (fun s line => s.say (line ++ "\n")) s).aside r g := by
  induction lines generalizing s with
  | nil => rfl
  | cons line rest ih => exact ih (s.say (line ++ "\n"))

theorem not_gone (free : ∀ m, g = some m → s.Unkept m) (whom : Address) {n : Nat} (reached : s.reach whom = some n) :
    g ≠ some n :=
  fun gone => (free n gone).not_reached whom reached

theorem taker_aside (free : ∀ m, g = some m → s.Unkept m) (whom : Address) (l : Level) :
    (s.aside r g).taker whom l = s.taker whom l := by
  cases whom with
  | handle name =>
    simp only [System.taker, aside_handles]
    cases found : s.handles.get? name with
    | none => rfl
    | some n =>
      have other := not_gone free (.handle name) found
      simp only [accepts, isOpen_aside s r other]
  | process =>
    simp only [System.taker, instanceAccepts, aside_processFlag, aside_slot]
    cases seated : s.slot with
    | none => rfl
    | some n =>
      have other := not_gone free .process seated
      simp only [accepts, isOpen_aside s r other]

theorem Unkept.of_quiet {t : System} {m : Nat} (unkept : s.Unkept m) (quiet : s.Quiet t) : t.Unkept m := by
  rw [Unkept, quiet.slot, quiet.handles]
  exact unkept

end Reached

end System

/-- Whether an operation gives no manager to anybody and takes none away. -/
def Op.staysPut : Op → Bool
  | .register _ _ _ => true
  | o => o.quiet

open LogFanout.System (putAside)

theorem System.register_unkept {s : System} {m : Nat} (unkept : s.Unkept m) (n : Nat) (sink : Sink) (append : Bool) :
    (s.register n sink append).2.Unkept m := by
  unfold System.register
  split
  · exact unkept
  · split
    · exact unkept
    · cases append <;> exact unkept

theorem Op.run_unkept {o : Op} (stays : o.staysPut = true) {s : System} {m : Nat} (unkept : s.Unkept m) :
    (o.run s).2.Unkept m := by
  have sink {source : Source} {f : Sink → System → Reply × System} (kept : ∀ sink t, t.Unkept m → (f sink t).2.Unkept m) :
      (s.withSink source f).2.Unkept m := by
    have fetched := unkept.of_quiet (System.Quiet.obtain s source)
    unfold System.withSink
    generalize System.obtain source s = outcome at fetched ⊢
    obtain ⟨made, t⟩ := outcome
    cases made with
    | error r => exact fetched
    | ok sink => exact kept sink t fetched
  cases kind : o.quiet with
  | true => exact unkept.of_quiet (o.run_quiet kind s)
  | false =>
    cases o with
    | register whom source append =>
      cases whom with
      | handle name =>
        simp only [Op.run, System.withHandle]
        split
        · exact unkept
        · exact sink fun one t kept => System.register_unkept kept _ one append
      | process =>
        refine sink fun one t kept => ?_
        show (t.registerInstance one append).2.Unkept m
        unfold System.registerInstance
        split
        · exact System.register_unkept kept _ one append
        · exact kept
    | make name source => cases stays
    | makeEmpty name => cases stays
    | dropHandle name => cases stays
    | create source name => cases stays
    | destroy => cases stays
    | takeInstance name => cases stays
    | _ => cases kind

/-- An operation that moves no manager does not look at the running calls, nor at a manager that only they have. -/
theorem Op.run_aside {o : Op} (stays : o.staysPut = true) {s : System} {r : List Nat} {g : Option Nat}
    (free : ∀ m, g = some m → s.Unkept m) : o.run (s.aside r g) = putAside r g (o.run s) := by
  have other {name : String} {n : Nat} (found : s.reach (.handle name) = some n) : g ≠ some n :=
    System.not_gone free (.handle name) found
  have seated {n : Nat} (slot : s.slot = some n) : g ≠ some n := System.not_gone free .process slot
  have silent {t t' : System} (after : t = t'.aside r g) : (Reply.nothing, t) = putAside r g (.nothing, t') := by
    rw [after]
    rfl
  cases o with
  | same one another =>
    exact System.withHandle_aside fun n _ => System.withHandle_aside fun n' _ => rfl
  | register whom source append =>
    cases whom with
    | handle name =>
      refine System.withHandle_aside fun n found => System.withSink_aside fun sink t _ => ?_
      simp only [t.register_aside r (other found) sink append]
      rfl
    | process =>
      refine System.withSink_aside fun sink t fetched => ?_
      have same : t.slot = s.slot := by
        have kept := (System.obtain_managers (s := s) source).2.1
        rwa [fetched] at kept
      simp only [System.registerInstance, System.aside_slot, same]
      cases there : s.slot with
      | none => rfl
      | some n =>
        simp only [t.register_aside r (seated there) sink append]
        rfl
  | setEnabled whom on =>
    cases whom with
    | handle name =>
      exact System.withHandle_aside fun n found => silent (s.setEnabled_aside r (other found) on)
    | process =>
      simp only [Op.run, System.setInstanceEnabled, System.aside_slot]
      cases slot : s.slot with
      | none => rfl
      | some n => exact silent (s.setEnabled_aside r (seated slot) on)
  | setSaveLevel whom l =>
    cases whom with
    | handle name =>
      exact System.withHandle_aside fun n found => silent (s.setSaveLevel_aside r (other found) l)
    | process =>
      simp only [Op.run, System.setInstanceSaveLevel, System.aside_slot]
      cases slot : s.slot with
      | none => rfl
      | some n => exact silent (s.setSaveLevel_aside r (seated slot) l)
  | status whom =>
    cases whom with
    | handle name =>
      refine System.withHandle_aside fun n found => ?_
      simp only [System.managerStatus, s.found_aside r (other found)]
      rfl
    | process => rfl
  | write whom record =>
    cases whom with
    | handle name =>
      refine System.withHandle_aside fun n found => ?_
      rw [s.write_aside r (other found), System.written_aside]
    | process =>
      have passed : (s.aside r g).writeInstance record = (s.writeInstance record).map fun after => after.aside r g := by
        cases flag : s.processFlag with
        | true =>
          simp only [System.writeInstance, System.aside_processFlag, flag, if_true, System.aside_slot]
          cases slot : s.slot with
          | none => rfl
          | some n => exact s.write_aside r (seated slot) record
        | false => simp [System.writeInstance, flag, Except.map]
      simp only [Op.run, passed, System.written_aside]
  | rename whom name =>
    cases whom with
    | handle _ =>
      exact System.withHandle_aside fun n found => silent (s.rename_aside r (other found) name)
    | process =>
      simp only [Op.run, System.renameInstance, System.aside_slot]
      cases slot : s.slot with
      | none => rfl
      | some n => exact silent (s.rename_aside r (seated slot) name)
  | flush whom =>
    cases whom with
    | handle name =>
      exact System.withHandle_aside fun n found => silent (s.fanOut_aside r (other found) .flush)
    | process =>
      simp only [Op.run, System.flushInstance, System.aside_slot]
      cases slot : s.slot with
      | none => rfl
      | some n => exact silent (s.fanOut_aside r (seated slot) .flush)
  | drainText logs =>
    simp only [Op.run]
    exact System.withBuffer_aside fun sink lines => rfl
  | drainLines logs =>
    simp only [Op.run]
    exact System.withBuffer_aside fun sink lines => rfl
  | bufferSize logs =>
    simp only [Op.run]
    exact System.withBuffer_aside fun sink lines => rfl
  | drainToConsole logs =>
    simp only [Op.run, System.sayAll_aside]
    exact System.withBuffer_aside fun sink lines => rfl
  | hold name source =>
    refine System.withSink_aside fun sink t _ => ?_
    simp only [System.holdSink, System.aside_held]
    split <;> rfl
  | callSink name c =>
    simp only [Op.run, System.callSink, System.aside_held, System.aside_world]
    cases s.held.get? name <;> rfl
  | sinkStatus name => rfl
  | dropSink name =>
    simp only [Op.run, System.dropSink, System.aside_held]
    cases s.held.get? name <;> rfl
  | put path bytes =>
    simp only [Op.run, System.disk, System.aside_world, System.changeDisk]
    split <;> rfl
  | makeFolder path =>
    simp only [Op.run, System.disk, System.aside_world, System.changeDisk]
    split <;> rfl
  | remove path =>
    simp only [Op.run, System.disk, System.aside_world, System.changeDisk]
    split <;> rfl
  | read path =>
    simp only [Op.run, System.disk, System.aside_world]
    split <;> rfl
  | list => rfl
  | loadOptions path =>
    simp only [Op.run, System.disk, System.aside_world]
    split <;> rfl
  | wait stamp => rfl
  | _ => cases stays

end LogFanout
