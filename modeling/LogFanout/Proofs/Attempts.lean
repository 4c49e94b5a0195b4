import LogFanout.Proofs.FileLines

/- The target of a file sink, while others change the disk.

   Between two calls the disk may become any other disk. What a sink has open is then no longer said by its target and the
   disk alone, but by the last attempt to open a target, on the disk of that time. An attempt is made when the sink is
   made and whenever a target is set, except that the target of an attempt that opened something is not tried again;
   this is said by `Attempt.next`, which does not look at the sink. `last_attempt` says that the sink always is as its last
   attempt has left it: it has that target, and open is just what that attempt opened. -/
namespace LogFanout

open FileSink (make make? openTarget openTarget_ok receive_target)

/-- What may happen next: a call, with the time at which a line would be written, or a change of the disk by others. -/
inductive Moment where
  | call (stamp : String) (c : Call)
  | outside (change : Disk → Disk)

namespace Moment

def act : Moment → FileSink × Host → FileSink × Host
  | .call stamp c, (f, h) => f.receive stamp c h
  | .outside change, (f, h) => (f, { h with disk := change h.disk })

def target? : Moment → Option String
  | .call _ (.target name) => some name
  | _ => none

def play (moments : List Moment) (s : FileSink × Host) : FileSink × Host := moments.foldl (fun s m => m.act s) s

end Moment

/-! ## Attempts -/

/-- An attempt to open a target, with the disk that it finds. -/
structure Attempt where
  target : String
  append : Bool
  disk : Disk

namespace Attempt

/-- The number of what an attempt opens, if its target is not empty and can be opened. -/
def opened? (a : Attempt) : Option Nat :=
  if a.target = "" then none
  else
    match a.disk.openFile a.target a.append with
    | .ok (handle, _) => some handle.item
    | .error _ => none

/-- The last attempt after a moment that finds the disk `d`. A target that is set is tried, and is to be extended, unless
    the last attempt has opened it. -/
def next (d : Disk) : Moment → Attempt → Attempt
  | .call _ (.target name), a => if name = a.target ∧ a.opened?.isSome then a else ⟨name, true, d⟩
  | _, a => a

def last : List Moment → Attempt → FileSink × Host → Attempt
  | [], a, _ => a
  | m :: rest, a, s => last rest (a.next s.2.disk m) (m.act s)

theorem opened?_eq_some {a : Attempt} {n : Nat} :
    a.opened? = some n ↔
      a.target ≠ "" ∧ ∃ handle d, a.disk.openFile a.target a.append = .ok (handle, d) ∧ handle.item = n := by
  unfold opened?
  by_cases empty : a.target = ""
  · simp [empty]
  · rw [if_neg empty]
    cases a.disk.openFile a.target a.append with
    | error e => simp
    | ok pair =>
      obtain ⟨handle, d⟩ := pair
      simp [empty]

theorem opened?_isSome {a : Attempt} :
    a.opened?.isSome = true ↔ a.target ≠ "" ∧ ∃ handle d, a.disk.openFile a.target a.append = .ok (handle, d) := by
  rw [Option.isSome_iff_exists]
  simp only [opened?_eq_some]
  constructor
  · rintro ⟨n, proper, handle, d, file, _⟩
    exact ⟨proper, handle, d, file⟩
  · rintro ⟨proper, handle, d, file⟩
    exact ⟨handle.item, proper, handle, d, file, rfl⟩

variable {d d' : Disk} {target : String} {append : Bool}

theorem opened?_of_ok {handle? : Option Disk.Handle} (opened : openTarget d target append = .ok (handle?, d')) :
    opened? ⟨target, append, d⟩ = handle?.map Disk.Handle.item := by
  obtain ⟨empty, rfl, _⟩ | ⟨handle, rfl, file⟩ := openTarget_ok opened
  · rw [opened?, if_pos empty]
    rfl
  · have proper : target ≠ "" := by
      rintro rfl
      cases opened
    exact opened?_eq_some.mpr ⟨proper, handle, d', file, rfl⟩

theorem opened?_of_error {e : DiskError} (refused : openTarget d target append = .error e) :
    opened? ⟨target, append, d⟩ = none := by
  unfold openTarget at refused
  split at refused
  · cases refused
  · rename_i proper
    cases file : d.openFile target append with
    | error e => simp only [opened?, if_neg proper, file]
    | ok pair =>
      rw [file] at refused
      cases refused

end Attempt

/-! ## What a sink has open -/

namespace FileSink

/-- A sink with the target of an attempt, and open just what that attempt opened. -/
structure LeftBy (f : FileSink) (a : Attempt) : Prop where
  target : f.target = a.target
  item : f.handle.map Disk.Handle.item = a.opened?

theorem receive_write_item (stamp : String) (r : Record) (f : FileSink) (h : Host) :
    (f.receive stamp (.write r) h).1.handle.map Disk.Handle.item = f.handle.map Disk.Handle.item := by
  cases kept : f.saveLevel.keeps r.level with
  | false => rw [receive_write_skipped kept]
  | true =>
    rw [receive_write_kept kept]
    cases has : f.handle with
    | none => rw [writeBytes_of_no_handle has, has]
    | some handle =>
      rw [writeBytes_of_handle has]
      exact congrArg some (Disk.write_handle _ _ _).1

theorem LeftBy.isSome {f : FileSink} {a : Attempt} (left : f.LeftBy a) : f.handle.isSome = a.opened?.isSome := by
  rw [← left.item, Option.isSome_map]

theorem LeftBy.make (o : Options) (h : Host) : (make o h).1.LeftBy ⟨o.target, o.append, h.disk⟩ := by
  unfold FileSink.make
  split
  · rename_i handle? d opened
    exact ⟨rfl, (Attempt.opened?_of_ok opened).symm⟩
  · rename_i e refused
    exact ⟨rfl, (Attempt.opened?_of_error refused).symm⟩

/-- Whatever happens next, the sink is as its last attempt has left it. -/
theorem LeftBy.act {f : FileSink} {a : Attempt} (left : f.LeftBy a) (m : Moment) (h : Host) :
    (m.act (f, h)).1.LeftBy (a.next h.disk m) := by
  cases m with
  | outside change => exact left
  | call stamp c =>
    cases c with
    | write r =>
      have settings := congrArg FileSink.target (receive_settings stamp (.write r) f h)
      exact ⟨settings.trans left.target, (receive_write_item stamp r f h).trans left.item⟩
    | saveLevel l => exact ⟨left.target, left.item⟩
    | flush => exact left
    | target name =>
      have again : (name = a.target ∧ a.opened?.isSome) ↔ (name = f.target ∧ f.handle.isSome) := by
        rw [left.target, left.isSome]
      simp only [Attempt.next, again, Moment.act]
      by_cases same : name = f.target ∧ f.handle.isSome
      · rw [if_pos same]
        show (f.retarget name h).1.LeftBy a
        rw [retarget, if_pos same]
        exact left
      · rw [if_neg same]
        obtain ⟨no, _⟩ | ⟨e, refused, there⟩ | ⟨handle?, d, opened, there⟩ := receive_target stamp name f h
        · exact absurd no same
        · rw [there]
          exact ⟨rfl, (Attempt.opened?_of_error refused).symm⟩
        · rw [there]
          exact ⟨rfl, (Attempt.opened?_of_ok opened).symm⟩

theorem LeftBy.play {s : FileSink × Host} {a : Attempt} (left : s.1.LeftBy a) (moments : List Moment) :
    (Moment.play moments s).1.LeftBy (a.last moments s) := by
  induction moments generalizing s a with
  | nil => exact left
  | cons m rest ih => exact ih (left.act m s.2)

theorem act_target (m : Moment) (s : FileSink × Host) : (m.act s).1.target = m.target?.getD s.1.target := by
  cases m with
  | outside change => rfl
  | call stamp c =>
    have settings := congrArg FileSink.target (receive_settings stamp c s.1 s.2)
    refine settings.trans ?_
    cases c <;> rfl

theorem play_target (moments : List Moment) (s : FileSink × Host) :
    (Moment.play moments s).1.target = (moments.filterMap Moment.target?).getLast?.getD s.1.target := by
  induction moments generalizing s with
  | nil => rfl
  | cons m rest ih =>
    calc (Moment.play rest (m.act s)).1.target
        = (rest.filterMap Moment.target?).getLast?.getD (m.act s).1.target := ih (m.act s)
      _ = (rest.filterMap Moment.target?).getLast?.getD (m.target?.getD s.1.target) := by rw [act_target]
      _ = ((m :: rest).filterMap Moment.target?).getLast?.getD s.1.target := by
        cases named : m.target? with
        | none => rw [List.filterMap_cons_none named, Option.getD_none]
        | some name => rw [List.filterMap_cons_some named, List.getLast?_cons, Option.getD_some, Option.getD_some]

/-- A target that is set once more changes nothing more: what was opened is open, and what was refused is refused. -/
theorem receive_target_again (stamp stamp' name : String) (f : FileSink) (h : Host) :
    let once := f.receive stamp (.target name) h
    (once.1.receive stamp' (.target name) once.2).1 = once.1 ∧
      (once.1.receive stamp' (.target name) once.2).2.disk = once.2.disk := by
  intro once
  obtain ⟨there, same⟩ | ⟨e, refused, left⟩ | ⟨handle?, d, opened, moved⟩ := receive_target stamp name f h
  · rw [show once = (f, h) from same]
    simp only [receive, retarget, if_pos there, and_self]
  · rw [show once = _ from left]
    simp [receive, retarget, Host.show, refused]
  · rw [show once = _ from moved]
    obtain ⟨empty, rfl, rfl⟩ | ⟨handle, rfl, _⟩ := openTarget_ok opened
    · simp [receive, retarget, opened]
    · simp [receive, retarget]

/-! ## The first attempt -/

theorem make_of_refused {o : Options} {h : Host} {e : DiskError} (refused : make? o h = .error e) :
    make o h = (withHandle o none, h.show (report o.target e)) := by
  unfold make? at refused
  unfold make
  split at refused
  · cases refused
  · cases refused
    rfl

theorem make?_ok_iff {o : Options} {h : Host} :
    (∃ made, make? o h = .ok made) ↔ (make o h).2.console = h.console := by
  rw [make_console, refusals_eq]
  unfold make?
  split <;> rename_i outcome
  · rw [outcome]
    simp
  · rw [outcome]
    simp

end FileSink

/-- A file sink that has been made, with any calls and any changes of the disk by others in between: its target is the last
    one that was set, or the first one. It has a file just when that target is not empty and the last attempt succeeded,
    and open is then what the target stood for when that attempt had been made. To set the target that has just been set
    changes neither the sink nor the disk. A sink that must have its file is made just when none is reported, and it is the
    same sink with the same disk; where it is refused, the sink is made without a file, and the disk stays. -/
theorem last_attempt (o : Options) (h : Host) (moments : List Moment) :
    let now := Moment.play moments (make o h)
    let a := Attempt.last moments ⟨o.target, o.append, h.disk⟩ (make o h)
    now.1.target = (moments.filterMap Moment.target?).getLast?.getD o.target ∧ a.target = now.1.target ∧
      (now.1.handle.isSome = true ↔
        now.1.target ≠ "" ∧ ∃ handle d, a.disk.openFile a.target a.append = .ok (handle, d)) ∧
      (∀ handle, now.1.handle = some handle →
        ∃ opened d, a.disk.openFile a.target a.append = .ok (opened, d) ∧ handle.item = opened.item ∧
          d.place? now.1.target = some handle.item) ∧
      (∀ stamp stamp' name,
        let once := now.1.receive stamp (.target name) now.2
        let twice := once.1.receive stamp' (.target name) once.2
        twice.1 = once.1 ∧ twice.2.disk = once.2.disk) ∧
      ((∃ made, make? o h = .ok made) ↔ (make o h).2.console = h.console) ∧
      (∀ made, make? o h = .ok made → make o h = made) ∧
      ∀ e, make? o h = .error e → (make o h).1.handle = none ∧ (make o h).2.disk = h.disk := by
  intro now a
  have left : now.1.LeftBy a := (FileSink.LeftBy.make o h).play moments
  have first : (make o h).1.target = o.target := congrArg FileSink.target (FileSink.make_settings o h)
  refine ⟨?_, left.target.symm, ?_, ?_, ?_, FileSink.make?_ok_iff, fun made => FileSink.make_of_make?, ?_⟩
  · rw [← first]
    exact FileSink.play_target moments (make o h)
  · rw [left.isSome, left.target]
    exact Attempt.opened?_isSome
  · intro handle has
    have item : a.opened? = some handle.item := by
      rw [← left.item, has, Option.map_some]
    obtain ⟨_, opened, d, file, same⟩ := Attempt.opened?_eq_some.mp item
    refine ⟨opened, d, file, same.symm, ?_⟩
    rw [left.target, ← same]
    exact Disk.openFile_place file
  · intro stamp stamp' name
    exact now.1.receive_target_again stamp stamp' name now.2
  · intro e refused
    rw [FileSink.make_of_refused refused]
    exact ⟨rfl, rfl⟩

end LogFanout
