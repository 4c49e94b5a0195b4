import LogFanout.Proofs.Course
import LogFanout.Proofs.FileLines
import LogFanout.Proofs.Memory

/- File sinks that share a manager.

   A rename gives all sinks of a manager one target, so their files become one. What they write stays whole as long as
   every handle that is not alone on its file writes at the end of it. A handle that has been opened by a rename does; one
   that a sink was made with does if the file was to be extended, and otherwise writes at an offset of its own. So the one
   way to lose something is a rename to a target that is being written at an offset: its sink keeps its handle, the others
   join it, and it writes over their lines (`shared_target_overwritten`).

   `shared_target` says that nothing is lost otherwise: the file sinks of a manager, opened on different files, go through
   writes and renames, and every file only grows, by the lines of those who have it open, if the first rename leaves all
   targets that are written at an offset. After it no handle has an offset any more, so the renames behind it are free.
   The invariant is `FileSink.Safe`. Each request comes at a time, which stands in front of the lines that it makes. -/
namespace LogFanout

open Text (Bytes)

def Sink.file? (sink : Sink) : Option FileSink :=
  match sink.body with
  | .file f => some f
  | _ => none

namespace FileSink

def makeAll : List Options → Host → List FileSink × Host
  | [], h => ([], h)
  | o :: rest, h => ((make o h).1 :: (makeAll rest (make o h).2).1, (makeAll rest (make o h).2).2)

def receiveEach (stamp : String) (c : Call) : List FileSink → Host → List FileSink × Host
  | [], h => ([], h)
  | f :: rest, h =>
    ((f.receive stamp c h).1 :: (receiveEach stamp c rest (f.receive stamp c h).2).1,
      (receiveEach stamp c rest (f.receive stamp c h).2).2)

def item? (f : FileSink) : Option Nat := f.handle.map Disk.Handle.item

/-- The thing that a sink has open, and whether the sink always writes at the end of it. -/
def grip (f : FileSink) : Option (Nat × Bool) :=
  f.handle.map fun handle => (handle.item, decide (handle.mode = .atEnd))

/-- A sink that always writes at the end of its file, if it has one. -/
def Appending (f : FileSink) : Prop := ∀ n atEnd, f.grip = some (n, atEnd) → atEnd = true

/-- Grips on different things, or on one thing at its end. -/
def Compatible (a b : Option (Nat × Bool)) : Prop :=
  ∀ n p q, a = some (n, p) → b = some (n, q) → p = true ∧ q = true

/-- File sinks that do not write over each other's lines: all are ready, and those that are on one file write at its end.
    The targets of those with an offset are among `names`. -/
structure Safe (names : List String) (sinks : List FileSink) (d : Disk) : Prop where
  ready : ∀ f ∈ sinks, f.Ready d
  compatible : (sinks.map grip).Pairwise Compatible
  offset : ∀ f ∈ sinks, f.Appending ∨ f.target ∈ names

/-! ## Grips -/

theorem grip_of_handle {f : FileSink} {handle : Disk.Handle} (has : f.handle = some handle) :
    f.grip = some (handle.item, decide (handle.mode = .atEnd)) := by
  rw [grip, has, Option.map_some]

theorem item?_of_grip {f : FileSink} {n : Nat} {atEnd : Bool} (has : f.grip = some (n, atEnd)) : f.item? = some n := by
  unfold grip at has
  unfold item?
  cases handle : f.handle with
  | none =>
    rw [handle] at has
    cases has
  | some found =>
    rw [handle, Option.map_some] at has
    rw [Option.map_some, (Prod.mk.inj (Option.some.inj has)).1]

theorem adds_eq_nil {f : FileSink} {n : Nat} (out : ∀ atEnd, f.grip ≠ some (n, atEnd)) (stamp : String) (c : Call) :
    f.adds stamp c n = [] := by
  have off : f.isOn n = false := by
    cases has : f.handle with
    | none => rw [isOn, has, Option.any_none]
    | some handle =>
      rw [isOn_of_handle has, decide_eq_false_iff_not]
      intro same
      exact out _ (same ▸ grip_of_handle has)
  rw [adds, off]
  rfl

/-- A sink stays ready while others add to other files, and if it is appending whatever they add. -/
theorem Ready.after {f : FileSink} {d d' : Disk} {added : Nat → Bytes} (ready : f.Ready d) (grown : d.Extends d' added)
    (apart : ∀ n atEnd, f.grip = some (n, atEnd) → atEnd = true ∨ added n = []) : f.Ready d' := by
  intro handle has
  apply (ready handle has).after grown
  have choice := apart _ _ (grip_of_handle has)
  rwa [decide_eq_true_eq] at choice

theorem compatible_of_appending {sinks : List FileSink} (all : ∀ f ∈ sinks, f.Appending) :
    (sinks.map grip).Pairwise Compatible := by
  apply List.pairwise_map.mpr
  apply List.Pairwise.imp_of_mem _ (List.pairwise_of_forall fun _ _ => trivial)
  intro f g first second _ n p q here there
  exact ⟨all f first n p here, all g second n q there⟩

/-! ## One call on all -/

theorem receive_write_grip (stamp : String) (r : Record) (f : FileSink) (h : Host) :
    (f.receive stamp (.write r) h).1.grip = f.grip := by
  cases kept : f.saveLevel.keeps r.level with
  | false => rw [receive_write_skipped kept]
  | true =>
    rw [receive_write_kept kept]
    cases has : f.handle with
    | none => rw [writeBytes_of_no_handle has]
    | some handle =>
      obtain ⟨item, mode⟩ := Disk.write_handle h.disk handle (Text.utf8 (r.line stamp))
      rw [writeBytes_of_handle has, grip_of_handle has]
      simp only [grip, Option.map_some, item, mode]

theorem receiveEach_write (stamp : String) (r : Record) {sinks : List FileSink} {h : Host}
    (ready : ∀ f ∈ sinks, f.Ready h.disk) (compatible : (sinks.map grip).Pairwise Compatible) :
    (∀ f ∈ (receiveEach stamp (.write r) sinks h).1, f.Ready (receiveEach stamp (.write r) sinks h).2.disk) ∧
      (receiveEach stamp (.write r) sinks h).1.map (fun f => (f.grip, f.target)) =
        sinks.map (fun f => (f.grip, f.target)) ∧
      h.disk.Extends (receiveEach stamp (.write r) sinks h).2.disk
        (fun n => sinks.flatMap fun f => f.adds stamp (.write r) n) := by
  induction sinks generalizing h with
  | nil => exact ⟨nofun, rfl, .refl _⟩
  | cons f rest ih =>
    obtain ⟨ahead, compatible⟩ := List.pairwise_cons.mp compatible
    obtain ⟨still, grown⟩ := (ready f List.mem_cons_self).receive stamp (.write r)
    have grip := receive_write_grip stamp r f h
    have target : (f.receive stamp (.write r) h).1.target = f.target := by rw [receive_settings]; rfl
    -- One that is on the file of the first writes at its end; on any other file the first has added nothing.
    have others : ∀ g ∈ rest, g.Ready (f.receive stamp (.write r) h).2.disk := by
      intro g member
      apply (ready g (List.mem_cons_of_mem _ member)).after grown
      intro n atEnd there
      by_cases here : ∃ e, f.grip = some (n, e)
      · obtain ⟨e, here⟩ := here
        exact .inl (ahead _ (List.mem_map_of_mem member) n e atEnd here there).2
      · exact .inr (adds_eq_nil (not_exists.mp here) stamp _)
    obtain ⟨readyRest, same, grownRest⟩ := ih others compatible
    refine ⟨?_, ?_, ?_⟩
    · intro g member
      obtain rfl | member := List.mem_cons.mp member
      · -- The others write after the first, and the same holds of it on their files.
        apply still.after grownRest
        intro n e here
        rw [grip] at here
        by_cases alone : ∃ g ∈ rest, ∃ atEnd, g.grip = some (n, atEnd)
        · obtain ⟨g, member, atEnd, there⟩ := alone
          exact .inl (ahead _ (List.mem_map_of_mem member) n e atEnd here there).1
        · refine .inr (List.flatMap_eq_nil_iff.mpr ?_)
          intro g member
          exact adds_eq_nil (fun atEnd there => alone ⟨g, member, atEnd, there⟩) stamp _
      · exact readyRest g member
    · rw [receiveEach, List.map_cons, List.map_cons, same, grip, target]
    · apply (grown.trans grownRest).congr
      intro n
      rw [List.flatMap_cons]

/-- A rename that no sink with an offset takes for its own target leaves all sinks appending, and adds nothing. -/
theorem receiveEach_target (stamp name : String) {sinks : List FileSink} {h : Host}
    (ready : ∀ f ∈ sinks, f.Ready h.disk) (leaves : ∀ f ∈ sinks, f.Appending ∨ f.target ≠ name) :
    (∀ f ∈ (receiveEach stamp (.target name) sinks h).1,
        f.Ready (receiveEach stamp (.target name) sinks h).2.disk ∧ f.Appending) ∧
      h.disk.Extends (receiveEach stamp (.target name) sinks h).2.disk fun _ => [] := by
  induction sinks generalizing h with
  | nil => exact ⟨nofun, .refl _⟩
  | cons f rest ih =>
    obtain ⟨still, grown⟩ := (ready f List.mem_cons_self).receive stamp (.target name)
    have silent : h.disk.Extends (f.receive stamp (.target name) h).2.disk fun _ => [] := by
      apply grown.congr
      intro n
      exact adds_of_no_line rfl n
    have others : ∀ g ∈ rest, g.Ready (f.receive stamp (.target name) h).2.disk := by
      intro g member
      exact (ready g (List.mem_cons_of_mem _ member)).after silent fun _ _ _ => .inr rfl
    obtain ⟨readyRest, grownRest⟩ := ih others fun g member => leaves g (List.mem_cons_of_mem _ member)
    have appending : (f.receive stamp (.target name) h).1.Appending := by
      obtain ⟨same, unchanged⟩ | ⟨_, _, left⟩ | ⟨handle?, d, opened, moved⟩ := receive_target stamp name f h
      · -- The target is its own, so it keeps its handle, which writes at the end by assumption.
        rw [unchanged]
        exact (leaves f List.mem_cons_self).resolve_right fun other => other same.1.symm
      · rw [left]
        exact nofun
      · rw [moved]
        intro n atEnd here
        cases handle? with
        | none => cases here
        | some handle =>
          rw [grip_of_handle rfl, (openTarget_handle opened).2.2] at here
          exact (Prod.mk.inj (Option.some.inj here)).2.symm
    refine ⟨?_, silent.trans grownRest⟩
    intro g member
    obtain rfl | member := List.mem_cons.mp member
    · exact ⟨still.after grownRest fun _ _ _ => .inr rfl, appending⟩
    · exact readyRest g member

theorem Safe.write {names : List String} {sinks : List FileSink} {h : Host} (safe : Safe names sinks h.disk)
    (stamp : String) (r : Record) :
    Safe names (receiveEach stamp (.write r) sinks h).1 (receiveEach stamp (.write r) sinks h).2.disk := by
  obtain ⟨ready, same, _⟩ := receiveEach_write stamp r safe.ready safe.compatible
  have grips : (receiveEach stamp (.write r) sinks h).1.map grip = sinks.map grip := by
    have first := congrArg (List.map Prod.fst) same
    rwa [List.map_map, List.map_map] at first
  refine ⟨ready, grips ▸ safe.compatible, ?_⟩
  intro f member
  have listed : (f.grip, f.target) ∈ sinks.map fun f => (f.grip, f.target) := same ▸ List.mem_map_of_mem member
  obtain ⟨before, listed, pair⟩ := List.mem_map.mp listed
  obtain ⟨grip, target⟩ := Prod.mk.inj pair
  have offset := safe.offset before listed
  rwa [Appending, grip, target] at offset

/-- Sinks that are safe are safe for good after a rename that leaves every target with an offset. -/
theorem Safe.rename {names : List String} {sinks : List FileSink} {h : Host} (safe : Safe names sinks h.disk)
    (stamp : String) {name : String} (new : name ∉ names) :
    Safe [] (receiveEach stamp (.target name) sinks h).1 (receiveEach stamp (.target name) sinks h).2.disk ∧
      h.disk.Extends (receiveEach stamp (.target name) sinks h).2.disk fun _ => [] := by
  have leaves : ∀ f ∈ sinks, f.Appending ∨ f.target ≠ name := by
    intro f member
    apply (safe.offset f member).imp_right
    intro listed same
    exact new (same ▸ listed)
  obtain ⟨still, grown⟩ := receiveEach_target stamp name safe.ready leaves
  exact ⟨⟨fun f member => (still f member).1, compatible_of_appending fun f member => (still f member).2,
    fun f member => .inl (still f member).2⟩, grown⟩

/-! ## Sinks as they are made -/

/-- Emptying one file leaves the handles on the others ready. -/
theorem ready_cleared {d : Disk} {handle : Disk.Handle} (ready : d.Ready handle) {append : Bool}
    {handle? : Option Disk.Handle} (other : ∀ opened, handle? = some opened → opened.item ≠ handle.item) :
    (cleared append handle? d).Ready handle := by
  cases handle? with
  | none => exact ready
  | some opened =>
    cases append with
    | true => exact ready
    | false =>
      obtain device | ⟨bytes, file, mode⟩ := ready
      · exact .inl ((Disk.isDevice_emptied d _ _).mpr device)
      · refine .inr ⟨bytes, ?_, mode⟩
        show (d.emptied opened.item).contents? handle.item = some bytes
        rw [Disk.emptied_contents?, if_neg (other opened rfl), file]

theorem ready_makeAll {handle : Disk.Handle} {os : List Options} {h : Host} (ready : h.disk.Ready handle)
    (out : handle.item ∉ (makeAll os h).1.filterMap item?) : (makeAll os h).2.disk.Ready handle := by
  induction os generalizing h with
  | nil => exact ready
  | cons o rest ih =>
    obtain ⟨grown, _⟩ := make_extends o h
    rw [makeAll, List.filterMap_cons] at out
    apply ih
    · apply (ready_cleared ready ?_).after grown (.inr rfl)
      intro opened has same
      rw [item?, has] at out
      exact out (same ▸ List.mem_cons_self)
    · intro member
      apply out
      split
      · exact member
      · exact List.mem_cons_of_mem _ member

theorem make_appending {o : Options} (append : o.append = true) (h : Host) : (make o h).1.Appending := by
  unfold make
  split
  · rename_i handle? d opened
    intro n atEnd here
    cases handle? with
    | none => cases here
    | some handle =>
      rw [grip_of_handle rfl, (openTarget_handle opened).2.2, append] at here
      exact (Prod.mk.inj (Option.some.inj here)).2.symm
  · exact nofun

def offsetTargets (os : List Options) : List String := (os.filter fun o => !o.append).map Options.target

/-- Sinks that have been opened on different files are safe. -/
theorem makeAll_safe {os : List Options} {h : Host} (apart : ((makeAll os h).1.filterMap item?).Nodup) :
    Safe (offsetTargets os) (makeAll os h).1 (makeAll os h).2.disk := by
  induction os generalizing h with
  | nil => exact ⟨nofun, .nil, nofun⟩
  | cons o rest ih =>
    obtain ⟨_, ready, _⟩ := make_extends o h
    have settings := make_settings o h
    -- The first file is none of the others.
    have out : ∀ n, (make o h).1.item? = some n → n ∉ (makeAll rest (make o h).2).1.filterMap item? := by
      intro n here
      rw [makeAll, List.filterMap_cons, here] at apart
      exact (List.nodup_cons.mp apart).1
    have apartRest : ((makeAll rest (make o h).2).1.filterMap item?).Nodup := by
      rw [makeAll, List.filterMap_cons] at apart
      split at apart
      · exact apart
      · exact (List.nodup_cons.mp apart).2
    obtain ⟨readyRest, compatible, offset⟩ := ih apartRest
    refine ⟨?_, ?_, ?_⟩
    · intro f member
      obtain rfl | member := List.mem_cons.mp member
      · intro handle has
        apply ready_makeAll (ready handle has)
        exact out handle.item (by rw [item?, has, Option.map_some])
      · exact readyRest f member
    · rw [makeAll, List.map_cons]
      refine List.pairwise_cons.mpr ⟨?_, compatible⟩
      intro there member n p q here same
      obtain ⟨g, listed, rfl⟩ := List.mem_map.mp member
      exact absurd (List.mem_filterMap.mpr ⟨g, listed, item?_of_grip same⟩) (out n (item?_of_grip here))
    · intro f member
      obtain rfl | member := List.mem_cons.mp member
      · cases append : o.append with
        | true => exact .inl (make_appending append h)
        | false =>
          refine .inr (List.mem_map.mpr ⟨o, ?_, ?_⟩)
          · simp [append]
          · rw [settings]
            rfl
      · obtain appending | member := offset f member
        · exact .inl appending
        · obtain ⟨o', listed, target⟩ := List.mem_map.mp member
          obtain ⟨listed, append⟩ := List.mem_filter.mp listed
          exact .inr (List.mem_map.mpr ⟨o', List.mem_filter.mpr ⟨List.mem_cons_of_mem _ listed, append⟩, target⟩)

end FileSink

/-! ## The sinks of a manager -/

/-- What is asked of a manager: to write a record, or to give all sinks a new target. -/
inductive Request where
  | write (r : Record)
  | rename (name : String)
  deriving DecidableEq, Repr

namespace Request

def call : Request → Call
  | .write r => .write r
  | .rename name => .target name

def taken (m : Nat) (q : Request) (s : System) : Bool :=
  match q with
  | .write r => decide (r.level ≠ .internal) && s.isOpen m
  | .rename _ => s.isOpen m

/-- The system after a request. A misuse changes nothing. -/
def run (m : Nat) (q : Request) (s : System) : System :=
  match q with
  | .write r =>
    match s.write m r with
    | .ok s => s
    | .error _ => s
  | .rename name => s.rename m name

/-- The first target that requests ask for, each of which comes at its time. -/
def firstName : List (String × Request) → Option String
  | [] => none
  | (_, .rename name) :: _ => some name
  | (_, .write _) :: rest => firstName rest

end Request

namespace System

variable {s : System} {m : Nat}

def files (s : System) (m : Nat) : List FileSink := (s.sinks m).filterMap Sink.file?

/-- The system after requests to a manager, each of which comes at its time. -/
def serve (m : Nat) : List (String × Request) → System → System
  | [], s => s
  | (stamp, q) :: rest, s => serve m rest (q.run m (s.wait stamp))

/-- The bytes that a request adds to a file: for a record that is taken, the line of each file sink that keeps it and has
    the file open, in the order of the list. -/
def addedBy (m : Nat) (q : Request) (s : System) (n : Nat) : Bytes :=
  if q.taken m s then (s.files m).flatMap fun f => f.adds s.world.stamp q.call n else []

/-- The bytes that requests add to a file, one after the other. -/
def addedTo (m : Nat) : List (String × Request) → System → Nat → Bytes
  | [], _, _ => []
  | (stamp, q) :: rest, s, n => addedBy m q (s.wait stamp) n ++ addedTo m rest (q.run m (s.wait stamp)) n

theorem serve_append (p q : List (String × Request)) : serve m (p ++ q) s = serve m q (serve m p s) := by
  induction p generalizing s with
  | nil => rfl
  | cons first rest ih => exact ih

theorem deliver_files (c : Call) (sinks : List Sink) (w : World) :
    (World.deliver c sinks w).1.filterMap Sink.file? =
        (FileSink.receiveEach w.stamp c (sinks.filterMap Sink.file?) w.host).1 ∧
      (World.deliver c sinks w).2.host = (FileSink.receiveEach w.stamp c (sinks.filterMap Sink.file?) w.host).2 := by
  induction sinks generalizing w with
  | nil => exact ⟨rfl, rfl⟩
  | cons sink rest ih =>
    obtain ⟨files, host⟩ := ih (w.receive sink c).2
    obtain ⟨id, body⟩ := sink
    cases body with
    | probe => exact ⟨files, host⟩
    | memory mem => exact ⟨files, host⟩
    | file f => exact ⟨congrArg (_ :: ·) files, host⟩

theorem fanOut_files (c : Call) :
    (s.fanOut m c).files m = (FileSink.receiveEach s.world.stamp c (s.files m) s.world.host).1 ∧
      (s.fanOut m c).world.host = (FileSink.receiveEach s.world.stamp c (s.files m) s.world.host).2 := by
  cases found : s.managers[m]? with
  | none =>
    have none : s.files m = [] := by simp [files, sinks, found]
    have same : s.fanOut m c = s := by simp only [fanOut, found]
    rw [same, none]
    exact ⟨rfl, rfl⟩
  | some manager =>
    have bound := (List.getElem?_eq_some_iff.mp found).1
    have list : s.files m = manager.sinks.filterMap Sink.file? := by simp only [files, sinks, found]
    obtain ⟨files, host⟩ := deliver_files c manager.sinks s.world
    rw [fanOut_some found, list, ← files, ← host]
    refine ⟨?_, rfl⟩
    simp [System.files, sinks, setManager, bound]

end System

/-- A request that is taken is its call on all sinks, and any other is nothing. -/
theorem Request.run_eq (q : Request) (m : Nat) (s : System) :
    q.run m s = if q.taken m s then s.fanOut m q.call else s := by
  cases q with
  | rename name => rfl
  | write r =>
    by_cases internal : r.level = .internal
    · simp only [run, taken, System.write, System.accepts, internal, if_true, ne_eq, not_true_eq_false, decide_false,
        Bool.false_and, Bool.false_eq_true, if_false]
    · simp only [run, taken, System.write, System.accepts, internal, if_false, ne_eq, not_false_eq_true, decide_true,
        Bool.true_and, call, System.dispatch]

namespace System

variable {s : System} {m : Nat} {names : List String}

theorem isOpen_run (q : Request) : (q.run m s).isOpen m = s.isOpen m := by
  rw [q.run_eq]
  split
  · exact isOpen_fanOut m q.call
  · rfl

theorem isOpen_serve (p : List (String × Request)) : (serve m p s).isOpen m = s.isOpen m := by
  induction p generalizing s with
  | nil => rfl
  | cons ask rest ih => exact ih.trans (isOpen_run ask.2)

/-- One request to a manager with safe sinks: every file grows by the lines of those who have it open, and the sinks stay
    safe. After a rename none of them has an offset any more. -/
theorem run_safe (safe : FileSink.Safe names (s.files m) s.disk) (opened : s.isOpen m = true) {q : Request}
    {stamp : String} {rest : List (String × Request)}
    (first : ∀ name, Request.firstName ((stamp, q) :: rest) = some name → name ∉ names) :
    s.disk.Extends (q.run m s).disk (addedBy m q s) ∧
      ∃ names', FileSink.Safe names' ((q.run m s).files m) (q.run m s).disk ∧
        ∀ name, Request.firstName rest = some name → name ∉ names' := by
  obtain ⟨files, host⟩ := fanOut_files (s := s) (m := m) q.call
  have disk : (s.fanOut m q.call).disk = (FileSink.receiveEach s.world.stamp q.call (s.files m) s.world.host).2.disk :=
    congrArg Host.disk host
  cases q with
  | write r =>
    cases taken : (Request.write r).taken m s with
    | false =>
      have same : (Request.write r).run m s = s := by rw [Request.run_eq, taken, if_neg Bool.false_ne_true]
      rw [same]
      refine ⟨(Disk.Extends.refl _).congr ?_, names, safe, first⟩
      intro n
      rw [addedBy, taken, if_neg Bool.false_ne_true]
    | true =>
      obtain ⟨_, _, grown⟩ := FileSink.receiveEach_write s.world.stamp r safe.ready safe.compatible
      rw [Request.run_eq, if_pos taken, disk, files]
      refine ⟨grown.congr ?_, names, safe.write s.world.stamp r, first⟩
      intro n
      rw [addedBy, if_pos taken]
      rfl
  | rename name =>
    have taken : (Request.rename name).taken m s = true := opened
    obtain ⟨still, grown⟩ := safe.rename s.world.stamp (first name rfl)
    rw [Request.run_eq, if_pos taken, disk, files]
    refine ⟨grown.congr ?_, [], still, fun _ _ => List.not_mem_nil⟩
    intro n
    rw [addedBy, if_pos taken]
    refine (List.flatMap_eq_nil_iff.mpr ?_).symm
    intro f _
    exact FileSink.adds_of_no_line rfl n

/-- Requests to a manager with safe sinks: every file grows by the lines of those who have it open, and the sinks are
    safe at every moment. -/
theorem serve_safe (p q : List (String × Request)) (safe : FileSink.Safe names (s.files m) s.disk)
    (opened : s.isOpen m = true) (first : ∀ name, Request.firstName (p ++ q) = some name → name ∉ names) :
    s.disk.Extends (serve m p s).disk (addedTo m p s) ∧
      (∃ names', FileSink.Safe names' ((serve m p s).files m) (serve m p s).disk ∧
        ∀ name, Request.firstName q = some name → name ∉ names') := by
  induction p generalizing s names with
  | nil => exact ⟨.refl _, names, safe, first⟩
  | cons ask rest ih =>
    obtain ⟨stamp, ask⟩ := ask
    obtain ⟨grown, names', safe', first'⟩ := run_safe (s := s.wait stamp) safe opened first
    obtain ⟨grown', still⟩ := ih safe' ((isOpen_run ask).trans opened) first'
    exact ⟨grown.trans grown', still⟩

theorem serve_closed (p : List (String × Request)) (closed : s.isOpen m = false) :
    (serve m p s).disk = s.disk ∧ ∀ n, addedTo m p s n = [] := by
  induction p generalizing s with
  | nil => exact ⟨rfl, fun _ => rfl⟩
  | cons ask rest ih =>
    obtain ⟨stamp, ask⟩ := ask
    have refused : ask.taken m (s.wait stamp) = false := by
      cases ask with
      | write r =>
        have closed : (s.wait stamp).isOpen m = false := closed
        rw [Request.taken, closed, Bool.and_false]
      | rename name => exact closed
    have same : ask.run m (s.wait stamp) = s.wait stamp := by rw [Request.run_eq, refused, if_neg Bool.false_ne_true]
    obtain ⟨disk, nothing⟩ := ih (s := s.wait stamp) closed
    refine ⟨?_, ?_⟩
    · rw [serve, same, disk]
      rfl
    · intro n
      rw [addedTo, same, nothing, addedBy, refused, if_neg Bool.false_ne_true]
      rfl

end System

/-- File sinks that were opened on different files and given to one manager go through writes and renames. If the first
    rename leaves every target that is written at an offset, then nothing that has been written is ever changed: from any
    moment on, every file only grows, by the lines of the sinks that have it open, and every path keeps its file. -/
theorem shared_target (os : List Options) (h : Host) (s : System) (m : Nat) (p q : List (String × Request))
    (registered : s.files m = (FileSink.makeAll os h).1) (untouched : s.disk = (FileSink.makeAll os h).2.disk)
    (apart : ((FileSink.makeAll os h).1.filterMap FileSink.item?).Nodup)
    (leaves : ∀ name, Request.firstName (p ++ q) = some name → name ∉ FileSink.offsetTargets os) :
    (System.serve m p s).disk.Extends (System.serve m (p ++ q) s).disk (System.addedTo m q (System.serve m p s)) := by
  rw [System.serve_append]
  cases opened : s.isOpen m with
  | false =>
    obtain ⟨unchanged, nothing⟩ := System.serve_closed q ((System.isOpen_serve p).trans opened)
    rw [unchanged]
    exact (Disk.Extends.refl _).congr fun n => (nothing n).symm
  | true =>
    have safe : FileSink.Safe (FileSink.offsetTargets os) (s.files m) s.disk := by
      rw [registered, untouched]
      exact FileSink.makeAll_safe apart
    obtain ⟨_, names, still, first⟩ := System.serve_safe p q safe opened leaves
    have opened' : (System.serve m p s).isOpen m = true := (System.isOpen_serve p).trans opened
    rw [← List.append_nil q] at first
    exact (System.serve_safe q [] still opened' first).1

/-- Two sinks, one of them with an offset: a line of theirs stays when they are renamed to a third target. -/
theorem shared_target_elsewhere :
    let os : List Options := [⟨"a", false, false, .error⟩, ⟨"b", true, false, .info⟩]
    let s := play [.op (.make "m" (.built (.file ⟨"a", false, false, .error⟩))),
      .op (.register (.handle "m") (.built (.file ⟨"b", true, false, .info⟩)) true)] (.fresh "0.000")
    let p : List (String × Request) := [("0.001", .write ⟨.error, none, "x"⟩)]
    let q : List (String × Request) := [("0.002", .rename "c"), ("0.003", .write ⟨.error, none, "y"⟩)]
    (s.files 0 = (FileSink.makeAll os Host.fresh).1 ∧ s.disk = (FileSink.makeAll os Host.fresh).2.disk ∧
      ((FileSink.makeAll os Host.fresh).1.filterMap FileSink.item?).Nodup ∧ "c" ∉ FileSink.offsetTargets os) ∧
      (System.serve 0 p s).disk.Extends (System.serve 0 (p ++ q) s).disk (System.addedTo 0 q (System.serve 0 p s)) := by
  intro os s p q
  have registered : s.files 0 = (FileSink.makeAll os Host.fresh).1 := by decide
  have untouched : s.disk = (FileSink.makeAll os Host.fresh).2.disk := by decide
  have apart : ((FileSink.makeAll os Host.fresh).1.filterMap FileSink.item?).Nodup := by decide
  have elsewhere : "c" ∉ FileSink.offsetTargets os := by decide
  refine ⟨⟨registered, untouched, apart, elsewhere⟩, ?_⟩
  apply shared_target os Host.fresh s 0 p q registered untouched apart
  intro name first
  exact Option.some.inj first ▸ elsewhere

theorem Disk.read_of_toOption {d : Disk} {path : String} {bytes : Bytes} (found : (d.read path).toOption = some bytes) :
    d.read path = .ok bytes := by
  cases read : d.read path with
  | error e => simp [read, Except.toOption] at found
  | ok there =>
    rw [read] at found
    exact congrArg Except.ok (Option.some.inj found)

/-- A sink that was made to empty its file keeps its offset when the file becomes the target of all, and writes over the
    line of another sink. -/
theorem shared_target_overwritten :
    let os : List Options := [⟨"a", false, false, .error⟩, ⟨"b", true, false, .info⟩]
    let s := play [.op (.make "m" (.built (.file ⟨"a", false, false, .error⟩))),
      .op (.register (.handle "m") (.built (.file ⟨"b", true, false, .info⟩)) true)] (.fresh "0.000")
    let before := System.serve 0 [("0.001", .rename "a"), ("0.002", .write ⟨.info, none, "x"⟩)] s
    let after := System.serve 0 [("0.003", .write ⟨.error, none, "y"⟩)] before
    (s.files 0 = (FileSink.makeAll os Host.fresh).1 ∧ s.disk = (FileSink.makeAll os Host.fresh).2.disk ∧
      ((FileSink.makeAll os Host.fresh).1.filterMap FileSink.item?).Nodup) ∧
      before.disk.read "a" = .ok (Text.utf8 "[0.002] Info: x\n") ∧
      after.disk.read "a" = .ok (Text.utf8 "[0.003] Error: y\n[0.003] Error: y\n") := by
  intro os s before after
  refine ⟨⟨?_, ?_, ?_⟩, ?_, ?_⟩
  · decide
  · decide
  · decide
  · exact Disk.read_of_toOption (by decide +kernel)
  · exact Disk.read_of_toOption (by decide +kernel)

end LogFanout
