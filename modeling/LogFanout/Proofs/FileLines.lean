import LogFanout.Proofs.Growth
import LogFanout.Sink.File

/- What a file sink leaves behind.

   A file sink takes calls one after the other, and nobody else touches the disk. The reference is read off the calls: a
   call makes a line if it is a write at a level that the last given save level keeps (`Call.lines`), the line is the
   heading of the record (`Record.heading`: the time in brackets, the level, a colon and how the record reads) with a
   line feed behind it, and it belongs to the file that the sink has open at that moment (`linesIn`). `file_lines` says
   that every file ends up with just the lines that belong to it, in order, behind what it held: the one exception is
   the file that was opened to be emptied. The console is told apart from it (`shown`): every line if the sink is asked
   to, and a report for every target that cannot be opened.

   The handle of a sink is ready at all times, also one with an offset of its own, since nobody else writes. So every call
   extends the disk by the lines it makes, and the extensions add up. -/
namespace LogFanout

open Text (Bytes)

/-! ## What calls ask for -/

namespace Call

def levelAfter : Call → Level → Level
  | .saveLevel l, _ => l
  | _, l => l

def targetAfter : Call → String → String
  | .target name, _ => name
  | _, name => name

/-- The line that a call makes at a save level, if it makes one. -/
def lines (stamp : String) (level : Level) : Call → List String
  | .write r => if level.Admits r.level then [r.heading stamp ++ "\n"] else []
  | _ => []

theorem lines_write (stamp : String) (level : Level) (r : Record) :
    lines stamp level (.write r) = if level.keeps r.level then [r.line stamp] else [] := by
  simp only [lines, Level.keeps_iff, Record.line_eq]

end Call

namespace FileSink

/-- A file sink after calls. Each comes with the time at which a line would be written. -/
def receiveAll : List (String × Call) → FileSink → Host → FileSink × Host
  | [], f, h => (f, h)
  | (stamp, c) :: rest, f, h => receiveAll rest (f.receive stamp c h).1 (f.receive stamp c h).2

def isOn (f : FileSink) (n : Nat) : Bool := f.handle.any fun handle => handle.item == n

/-- The lines that belong to a file: those made while the sink has it open, at the save level of that moment. -/
def linesIn (n : Nat) : List (String × Call) → Level → FileSink → Host → List String
  | [], _, _, _ => []
  | (stamp, c) :: rest, level, f, h =>
    (if f.isOn n then c.lines stamp level else []) ++
      linesIn n rest (c.levelAfter level) (f.receive stamp c h).1 (f.receive stamp c h).2

/-- The report if a target cannot be opened. The empty target stands for no file. -/
def refusals (d : Disk) (target : String) (append : Bool) : List String :=
  if target = "" then []
  else
    match d.openFile target append with
    | .ok _ => []
    | .error e => ["sinkwise: can't open log target " ++ Text.quoted target ++ ": " ++ e.message ++ "\n"]

/-- What a call shows on the console: its line, or the report on a target that is tried and cannot be opened. -/
def shows (console : Bool) (stamp : String) (level : Level) (f : FileSink) (d : Disk) : Call → List String
  | .target name => if name = f.target ∧ f.handle.isSome then [] else refusals d name true
  | c => if console then c.lines stamp level else []

def shown (console : Bool) : List (String × Call) → Level → FileSink → Host → List String
  | [], _, _, _ => []
  | (stamp, c) :: rest, level, f, h =>
    f.shows console stamp level h.disk c ++
      shown console rest (c.levelAfter level) (f.receive stamp c h).1 (f.receive stamp c h).2

/-! ## Opening a target -/

theorem refusals_eq (d : Disk) (target : String) (append : Bool) :
    refusals d target append =
      match openTarget d target append with
      | .ok _ => []
      | .error e => [report target e] := by
  unfold refusals openTarget
  split
  · rfl
  · cases d.openFile target append <;> rfl

theorem openTarget_ok {d d' : Disk} {target : String} {append : Bool} {handle? : Option Disk.Handle}
    (opened : openTarget d target append = .ok (handle?, d')) :
    target = "" ∧ handle? = none ∧ d' = d ∨
      ∃ handle, handle? = some handle ∧ d.openFile target append = .ok (handle, d') := by
  unfold openTarget at opened
  split at opened
  · rename_i empty
    obtain ⟨rfl, rfl⟩ := Prod.mk.inj (Except.ok.inj opened)
    exact .inl ⟨empty, rfl, rfl⟩
  · cases found : d.openFile target append with
    | error e =>
      rw [found] at opened
      cases opened
    | ok pair =>
      rw [found] at opened
      obtain ⟨rfl, rfl⟩ := Prod.mk.inj (Except.ok.inj opened)
      exact .inr ⟨pair.1, rfl, rfl⟩

/-- The disk that a sink goes on from: the one it finds, with its first file emptied unless that is to be extended. -/
def cleared (append : Bool) (handle? : Option Disk.Handle) (d : Disk) : Disk :=
  match handle? with
  | none => d
  | some handle => if append then d else d.emptied handle.item

theorem openTarget_extends {d d' : Disk} {target : String} {append : Bool} {handle? : Option Disk.Handle}
    (opened : openTarget d target append = .ok (handle?, d')) : (cleared append handle? d).Extends d' fun _ => [] := by
  obtain ⟨_, rfl, rfl⟩ | ⟨handle, rfl, file⟩ := openTarget_ok opened
  · exact .refl _
  · exact Disk.openFile_extends file

/-- A handle that has been opened is ready, is on what the target stands for, and writes at the end if the file is to be
    extended. -/
theorem openTarget_handle {d d' : Disk} {target : String} {append : Bool} {handle : Disk.Handle}
    (opened : openTarget d target append = .ok (some handle, d')) :
    d'.Ready handle ∧ d'.place? target = some handle.item ∧ handle.mode = if append then .atEnd else .at 0 := by
  obtain ⟨_, none, _⟩ | ⟨handle, same, file⟩ := openTarget_ok opened
  · cases none
  · obtain rfl := Option.some.inj same
    exact ⟨Disk.openFile_ready file, Disk.openFile_place file, Disk.openFile_mode file⟩

/-- A sink whose handle, if it has one, is ready. -/
def Ready (f : FileSink) (d : Disk) : Prop := ∀ handle, f.handle = some handle → d.Ready handle

/-- A sink whose handle, if it has one, is on what its target stands for. -/
def OnTarget (f : FileSink) (d : Disk) : Prop :=
  ∀ handle, f.handle = some handle → d.place? f.target = some handle.item

theorem isOn_of_handle {f : FileSink} {handle : Disk.Handle} (has : f.handle = some handle) (n : Nat) :
    f.isOn n = decide (n = handle.item) := by
  unfold isOn
  rw [has, Option.any_some, Bool.beq_eq_decide_eq]
  exact decide_eq_decide.mpr eq_comm

/-! ## What one call does -/

theorem writeBytes_settings (f : FileSink) (bytes : Bytes) (d : Disk) :
    (f.writeBytes bytes d).1 = { f with handle := (f.writeBytes bytes d).1.handle } := by
  unfold writeBytes
  split <;> rfl

theorem writeBytes_of_handle {f : FileSink} {handle : Disk.Handle} (has : f.handle = some handle) (bytes : Bytes)
    (d : Disk) : f.writeBytes bytes d =
      ({ f with handle := some (d.write handle bytes).1 }, (d.write handle bytes).2) := by
  simp only [writeBytes, has]

theorem writeBytes_of_no_handle {f : FileSink} (has : f.handle = none) (bytes : Bytes) (d : Disk) :
    f.writeBytes bytes d = (f, d) := by
  simp only [writeBytes, has]

theorem receive_write_skipped {stamp : String} {r : Record} {f : FileSink} {h : Host}
    (skipped : f.saveLevel.keeps r.level = false) : f.receive stamp (.write r) h = (f, h) := by
  simp only [receive, write, skipped, Bool.false_eq_true, if_false]

/-- A record that is kept is written as a line. -/
theorem receive_write_kept {stamp : String} {r : Record} {f : FileSink} {h : Host}
    (kept : f.saveLevel.keeps r.level = true) :
    f.receive stamp (.write r) h =
      ((f.writeBytes (Text.utf8 (r.line stamp)) h.disk).1,
        { disk := (f.writeBytes (Text.utf8 (r.line stamp)) h.disk).2
          console := h.console ++ if f.console then [r.line stamp] else [] }) := by
  have settings := congrArg FileSink.console (writeBytes_settings f (Text.utf8 (r.line stamp)) h.disk)
  simp only [receive, write, kept, if_true, settings]
  cases f.console <;> simp [Host.show]

/-- A write leaves a sink the file it has open, and leaves the handle at the end if it always writes there. -/
theorem receive_write_handle {stamp : String} {r : Record} {f : FileSink} {h : Host} {later : Disk.Handle}
    (has : (f.receive stamp (.write r) h).1.handle = some later) :
    ∃ handle, f.handle = some handle ∧ later.item = handle.item ∧ (later.mode = .atEnd ↔ handle.mode = .atEnd) := by
  cases kept : f.saveLevel.keeps r.level with
  | false =>
    rw [receive_write_skipped kept] at has
    exact ⟨later, has, rfl, Iff.rfl⟩
  | true =>
    rw [receive_write_kept kept] at has
    cases before : f.handle with
    | none =>
      rw [writeBytes_of_no_handle before, before] at has
      cases has
    | some handle =>
      rw [writeBytes_of_handle before] at has
      obtain rfl := Option.some.inj has
      exact ⟨handle, rfl, Disk.write_handle _ _ _⟩

/-- A target is either the one that is open, or cannot be opened, or is opened to be extended. -/
theorem receive_target (stamp name : String) (f : FileSink) (h : Host) :
    (name = f.target ∧ f.handle.isSome) ∧ f.receive stamp (.target name) h = (f, h) ∨
      (∃ e, openTarget h.disk name true = .error e ∧
        f.receive stamp (.target name) h = ({ f with target := name, handle := none }, h.show (report name e))) ∨
      ∃ handle? d, openTarget h.disk name true = .ok (handle?, d) ∧
        f.receive stamp (.target name) h = ({ f with target := name, handle := handle? }, { h with disk := d }) := by
  simp only [receive, retarget]
  split
  · rename_i same
    exact .inl ⟨same, rfl⟩
  · refine .inr ?_
    split
    · rename_i handle? d opened
      exact .inr ⟨handle?, d, opened, rfl⟩
    · rename_i e opened
      exact .inl ⟨e, opened, rfl⟩

section Receive

variable (stamp : String) (c : Call) (f : FileSink) (h : Host)

theorem receive_settings :
    (f.receive stamp c h).1 =
      { f with
        target := c.targetAfter f.target
        saveLevel := c.levelAfter f.saveLevel
        handle := (f.receive stamp c h).1.handle } := by
  cases c with
  | write r =>
    cases kept : f.saveLevel.keeps r.level with
    | false => rw [receive_write_skipped kept]; rfl
    | true => rw [receive_write_kept kept]; exact writeBytes_settings f _ _
  | saveLevel l => rfl
  | target name =>
    obtain ⟨same, unchanged⟩ | ⟨_, _, left⟩ | ⟨_, _, _, moved⟩ := receive_target stamp name f h
    · rw [unchanged, Call.targetAfter, same.1]
      rfl
    · rw [left]
      rfl
    · rw [moved]
      rfl
  | flush => rfl

theorem receive_shows :
    (f.receive stamp c h).2.console = h.console ++ f.shows f.console stamp f.saveLevel h.disk c := by
  cases c with
  | write r =>
    cases kept : f.saveLevel.keeps r.level with
    | false =>
      rw [receive_write_skipped kept]
      simp [shows, Call.lines_write, kept]
    | true =>
      rw [receive_write_kept kept]
      simp [shows, Call.lines_write, kept]
  | saveLevel l => simp [receive, shows, Call.lines]
  | target name =>
    simp only [receive, retarget, shows]
    split
    · exact (List.append_nil _).symm
    · rw [refusals_eq]
      split <;> rename_i opened
      · rw [opened]
        exact (List.append_nil _).symm
      · rw [opened]
        rfl
  | flush => simp [receive, shows, Call.lines]

end Receive

/-- The bytes that a call adds to a file. -/
def adds (stamp : String) (c : Call) (f : FileSink) (n : Nat) : Bytes :=
  if f.isOn n then (c.lines stamp f.saveLevel).flatMap Text.utf8 else []

section Extends

variable {stamp : String} {c : Call} {f : FileSink} {h : Host}

theorem adds_of_no_line (no : c.lines stamp f.saveLevel = []) (n : Nat) : f.adds stamp c n = [] := by
  rw [adds, no, List.flatMap_nil, ite_self]

theorem extends_of_no_line (no : c.lines stamp f.saveLevel = []) {d d' : Disk} (grown : d.Extends d' fun _ => []) :
    d.Extends d' (f.adds stamp c) := by
  apply grown.congr
  intro n
  exact (adds_of_no_line no n).symm

theorem adds_of_line {handle : Disk.Handle} {line : String} (has : f.handle = some handle)
    (one : c.lines stamp f.saveLevel = [line]) (n : Nat) :
    f.adds stamp c n = if n = handle.item then Text.utf8 line else [] := by
  simp only [adds, isOn_of_handle has, one, List.flatMap_singleton, decide_eq_true_eq]

variable (stamp c)

/-- A call adds its line to the file that a ready sink has open, and leaves the sink ready. -/
theorem Ready.receive (ready : f.Ready h.disk) :
    (f.receive stamp c h).1.Ready (f.receive stamp c h).2.disk ∧
      h.disk.Extends (f.receive stamp c h).2.disk (f.adds stamp c) := by
  cases c with
  | write r =>
    cases kept : f.saveLevel.keeps r.level with
    | false =>
      have no : Call.lines stamp f.saveLevel (.write r) = [] := by simp [Call.lines_write, kept]
      rw [receive_write_skipped kept]
      exact ⟨ready, extends_of_no_line no (.refl _)⟩
    | true =>
      have one : Call.lines stamp f.saveLevel (.write r) = [r.line stamp] := by simp [Call.lines_write, kept]
      rw [receive_write_kept kept]
      cases has : f.handle with
      | none =>
        rw [writeBytes_of_no_handle has]
        refine ⟨ready, (Disk.Extends.refl h.disk).congr fun n => ?_⟩
        simp [adds, isOn, has]
      | some handle =>
        rw [writeBytes_of_handle has]
        obtain ⟨still, grown⟩ := (ready handle has).write (Text.utf8 (r.line stamp))
        refine ⟨?_, grown.congr fun n => (adds_of_line has one n).symm⟩
        intro later same
        obtain rfl := Option.some.inj same
        exact still
  | saveLevel l => exact ⟨ready, extends_of_no_line rfl (.refl _)⟩
  | target name =>
    obtain ⟨_, unchanged⟩ | ⟨_, _, left⟩ | ⟨handle?, d, opened, moved⟩ := receive_target stamp name f h
    · rw [unchanged]
      exact ⟨ready, extends_of_no_line rfl (.refl _)⟩
    · rw [left]
      exact ⟨nofun, extends_of_no_line rfl (.refl _)⟩
    · rw [moved]
      have grown := openTarget_extends opened
      cases handle? with
      | none => exact ⟨nofun, extends_of_no_line rfl grown⟩
      | some handle =>
        refine ⟨?_, extends_of_no_line rfl grown⟩
        intro later same
        obtain rfl := Option.some.inj same
        exact (openTarget_handle opened).1
  | flush => exact ⟨ready, extends_of_no_line rfl (.refl _)⟩

/-- A sink that is on its target stays there. -/
theorem OnTarget.receive (on : f.OnTarget h.disk) (ready : f.Ready h.disk) :
    (f.receive stamp c h).1.OnTarget (f.receive stamp c h).2.disk := by
  have names := (ready.receive stamp c).2.names
  cases c with
  | write r =>
    intro later has
    obtain ⟨handle, before, item, _⟩ := receive_write_handle has
    rw [receive_settings, item]
    exact names.place? (on handle before)
  | saveLevel l => exact on
  | target name =>
    obtain ⟨_, unchanged⟩ | ⟨_, _, left⟩ | ⟨handle?, d, opened, moved⟩ := receive_target stamp name f h
    · rwa [unchanged]
    · rw [left]
      exact nofun
    · rw [moved]
      intro handle same
      obtain rfl : handle? = some handle := same
      exact (openTarget_handle opened).2.1
  | flush => exact on

end Extends

/-! ## The first file -/

/-- A sink that has been made has extended the disk it goes on from, is ready, and is on its target. -/
theorem make_extends (o : Options) (h : Host) :
    (cleared o.append (make o h).1.handle h.disk).Extends (make o h).2.disk (fun _ => []) ∧
      (make o h).1.Ready (make o h).2.disk ∧ (make o h).1.OnTarget (make o h).2.disk := by
  unfold make
  split
  · rename_i handle? d opened
    refine ⟨openTarget_extends opened, ?_, ?_⟩
    · intro handle same
      obtain rfl : handle? = some handle := same
      exact (openTarget_handle opened).1
    · intro handle same
      obtain rfl : handle? = some handle := same
      exact (openTarget_handle opened).2.1
  · exact ⟨.refl _, nofun, nofun⟩

theorem make_settings (o : Options) (h : Host) : (make o h).1 = withHandle o (make o h).1.handle := by
  unfold make
  split <;> rfl

theorem make_console (o : Options) (h : Host) :
    (make o h).2.console = h.console ++ refusals h.disk o.target o.append := by
  rw [refusals_eq]
  unfold make
  split <;> rename_i opened
  · rw [opened]
    exact (List.append_nil _).symm
  · rw [opened]
    rfl

theorem make_of_make? {o : Options} {h : Host} {start : FileSink × Host} (made : make? o h = .ok start) :
    make o h = start := by
  unfold make? at made
  unfold make
  split at made
  · exact Except.ok.inj made
  · cases made

/-! ## Many calls -/

/-- Calls one after the other: the settings follow the calls, the disk is extended by the lines that belong to each file,
    and the console shows what the calls show. -/
theorem receiveAll_extends (calls : List (String × Call)) (f : FileSink) (h : Host) (ready : f.Ready h.disk)
    (on : f.OnTarget h.disk) :
    (receiveAll calls f h).1.OnTarget (receiveAll calls f h).2.disk ∧
      (receiveAll calls f h).1.target = calls.foldl (fun name call => call.2.targetAfter name) f.target ∧
      h.disk.Extends (receiveAll calls f h).2.disk
        (fun n => (linesIn n calls f.saveLevel f h).flatMap Text.utf8) ∧
      (receiveAll calls f h).2.console = h.console ++ shown f.console calls f.saveLevel f h := by
  induction calls generalizing f h with
  | nil => exact ⟨on, rfl, .refl _, (List.append_nil _).symm⟩
  | cons call rest ih =>
    obtain ⟨stamp, c⟩ := call
    obtain ⟨still, grown⟩ := ready.receive stamp c
    obtain ⟨onTarget, target, added, console⟩ := ih _ _ still (on.receive stamp c ready)
    have settings := receive_settings stamp c f h
    have level : (f.receive stamp c h).1.saveLevel = c.levelAfter f.saveLevel := by rw [settings]
    have mirror : (f.receive stamp c h).1.console = f.console := by rw [settings]
    have name : (f.receive stamp c h).1.target = c.targetAfter f.target := by rw [settings]
    rw [level] at added console
    rw [mirror, receive_shows] at console
    rw [name] at target
    refine ⟨onTarget, target, (grown.trans added).congr ?_, ?_⟩
    · intro n
      rw [linesIn, List.flatMap_append, adds]
      split <;> rfl
    · rw [receiveAll, console, shown, List.append_assoc]

/-! ## The disk in the end -/

theorem cleared_contents? (o : Options) (f : FileSink) (d : Disk) (n : Nat) :
    (cleared o.append f.handle d).contents? n =
      (d.contents? n).map fun old => if o.append = false ∧ f.isOn n then [] else old := by
  cases has : f.handle with
  | none => simp [cleared, isOn, has]
  | some handle =>
    rw [isOn_of_handle has]
    cases append : o.append with
    | true => simp [cleared]
    | false =>
      have other : handle.item = n ↔ n = handle.item := eq_comm
      simp only [cleared, Bool.false_eq_true, if_false, Disk.emptied_contents?, other, true_and, decide_eq_true_eq]
      split <;> simp

theorem cleared_length (append : Bool) (handle? : Option Disk.Handle) (d : Disk) :
    (cleared append handle? d).items.length = d.items.length := by
  unfold cleared
  split
  · rfl
  · split
    · rfl
    · exact Disk.emptied_length d _

theorem isDevice_cleared (append : Bool) (handle? : Option Disk.Handle) (d : Disk) (n : Nat) :
    (cleared append handle? d).IsDevice n ↔ d.IsDevice n := by
  unfold cleared
  split
  · exact Iff.rfl
  · split
    · exact Iff.rfl
    · exact Disk.isDevice_emptied d _ n

theorem keepsNames_cleared (append : Bool) (handle? : Option Disk.Handle) (d : Disk) :
    d.KeepsNames (cleared append handle? d) := by
  unfold cleared
  split
  · exact .refl d
  · split
    · exact .refl d
    · exact .emptied d _

end FileSink

theorem Call.utf8_ne_nil_of_mem_lines {stamp : String} {level : Level} {c : Call} {line : String}
    (member : line ∈ c.lines stamp level) : Text.utf8 line ≠ [] := by
  cases c with
  | write r =>
    simp only [Call.lines] at member
    split at member
    · obtain rfl := List.mem_singleton.mp member
      rw [Text.utf8_append]
      intro nothing
      exact absurd (List.append_eq_nil_iff.mp nothing).2 (by decide)
    · cases member
  | _ => cases member

theorem FileSink.utf8_ne_nil_of_mem_linesIn {n : Nat} {calls : List (String × Call)} {level : Level} {f : FileSink}
    {h : Host} {line : String} (member : line ∈ linesIn n calls level f h) : Text.utf8 line ≠ [] := by
  induction calls generalizing level f h with
  | nil => cases member
  | cons call rest ih =>
    rw [linesIn, List.mem_append] at member
    obtain here | later := member
    · split at here
      · exact Call.utf8_ne_nil_of_mem_lines here
      · cases here
    · exact ih later

theorem FileSink.linesIn_utf8_ne_nil {n : Nat} {calls : List (String × Call)} {level : Level} {f : FileSink} {h : Host}
    (some : linesIn n calls level f h ≠ []) : (linesIn n calls level f h).flatMap Text.utf8 ≠ [] := by
  intro nothing
  apply some
  apply List.eq_nil_iff_forall_not_mem.mpr
  intro line member
  exact utf8_ne_nil_of_mem_linesIn member (List.flatMap_eq_nil_iff.mp nothing line member)

/-- What a file sink leaves behind, whatever it is made from, whatever the disk, and whatever calls it takes. Every file
    that was there holds what it held, or nothing if it was opened to be emptied, and then the lines made while the sink
    had it open; every file made since holds the lines alone; no line is lost, unless to a device. Every path stands for
    what it stood for, and the file that is open is the one that the last target stands for. The console shows the report
    on the first target if it could not be opened, and then what the calls show. -/
theorem file_lines (o : Options) (h : Host) (calls : List (String × Call)) :
    (∀ start, FileSink.make? o h = .ok start → FileSink.make o h = start) ∧
    ∀ f start, FileSink.make o h = (f, start) → ∀ f' finish, f.receiveAll calls start = (f', finish) →
      (∀ n old, h.disk.contents? n = some old →
        finish.disk.contents? n = some ((if o.append = false ∧ f.isOn n then [] else old) ++
          (FileSink.linesIn n calls o.saveLevel f start).flatMap Text.utf8)) ∧
      (∀ n, h.disk.contents? n = none →
        finish.disk.contents? n = none ∨ h.disk.items.length ≤ n ∧
          finish.disk.contents? n = some ((FileSink.linesIn n calls o.saveLevel f start).flatMap Text.utf8)) ∧
      (∀ n, FileSink.linesIn n calls o.saveLevel f start ≠ [] →
        (finish.disk.contents? n).isSome ∨ h.disk.IsDevice n) ∧
      (∀ path n, h.disk.place? path = some n → finish.disk.place? path = some n) ∧
      (∀ handle, f'.handle = some handle → finish.disk.place? f'.target = some handle.item) ∧
      f'.target = calls.foldl (fun name call => call.2.targetAfter name) o.target ∧
      finish.console = h.console ++ FileSink.refusals h.disk o.target o.append ++
        FileSink.shown o.console calls o.saveLevel f start := by
  refine ⟨fun start made => FileSink.make_of_make? made, ?_⟩
  intro f start made f' finish received
  obtain ⟨opened, ready, on⟩ := FileSink.make_extends o h
  have settings := FileSink.make_settings o h
  have report := FileSink.make_console o h
  rw [made] at opened ready on settings report
  obtain ⟨onTarget, target, added, console⟩ := FileSink.receiveAll_extends calls f start ready on
  have level : f.saveLevel = o.saveLevel := congrArg FileSink.saveLevel settings
  have mirror : f.console = o.console := congrArg FileSink.console settings
  have name : f.target = o.target := congrArg FileSink.target settings
  rw [received] at onTarget target added console
  rw [level] at added
  rw [level, mirror, report] at console
  rw [name] at target
  have grown := opened.trans added
  simp only [List.nil_append] at grown
  refine ⟨?_, ?_, ?_, ?_, onTarget, target, console⟩
  · intro n old here
    apply grown.old
    rw [FileSink.cleared_contents?, here]
    rfl
  · intro n missing
    have missing' : (FileSink.cleared o.append f.handle h.disk).contents? n = none := by
      rw [FileSink.cleared_contents?, missing]
      rfl
    have new := grown.new n missing'
    rwa [FileSink.cleared_length] at new
  · intro n some
    cases content : finish.disk.contents? n with
    | some bytes => exact .inl rfl
    | none =>
      have device := grown.lost n (FileSink.linesIn_utf8_ne_nil some) content
      exact .inr ((FileSink.isDevice_cleared _ _ _ n).mp device)
  · intro path n there
    exact ((FileSink.keepsNames_cleared _ _ _).trans grown.names).place? there

end LogFanout
