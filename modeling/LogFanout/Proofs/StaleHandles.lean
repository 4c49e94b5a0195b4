import LogFanout.Proofs.FanOut
import LogFanout.Proofs.Held

/- Stale handles.

   A handle is stale if its manager is retired. `prune` takes out of a script the steps that are addressed to stale handles
   at the moment at which they would be taken, also in arguments. What would have been passed to such a handle stays with
   the caller, under a name of its own. `stale_handles` says that the script and what is left of it come to the same: the
   two systems are `Apart` only in the sinks that were refused, which are dropped in the one and held in the other. -/
namespace LogFanout

/-! ## Steps on stale handles -/

namespace System

def stale (s : System) (whom : Address) : Bool :=
  match s.reach whom with
  | some m =>
    match s.managers[m]? with
    | some manager => manager.retired
    | none => false
  | none => false

theorem stale_iff {s : System} {whom : Address} : s.stale whom = true ↔
    ∃ m manager, s.reach whom = some m ∧ s.managers[m]? = some manager ∧ manager.retired = true := by
  unfold stale
  constructor
  · intro h
    split at h
    · rename_i m reached
      split at h
      · rename_i manager found
        exact ⟨m, manager, reached, found, h⟩
      · cases h
    · cases h
  · rintro ⟨m, manager, reached, found, retired⟩
    simp only [reached, found, retired]

theorem closed_of_retired {s : System} {m : Nat} {manager : Manager} (found : s.managers[m]? = some manager)
    (retired : manager.retired = true) : s.isOpen m = false := by
  simp [isOpen, found, Manager.isOpen, retired]

theorem setManager_self {s : System} {m : Nat} {manager : Manager} (found : s.managers[m]? = some manager) :
    s.setManager m manager = s := by
  obtain ⟨bound, rfl⟩ := List.getElem?_eq_some_iff.mp found
  simp [setManager]

theorem fanOut_bare {s : System} {m : Nat} {manager : Manager} (found : s.managers[m]? = some manager)
    (bare : manager.sinks = []) (c : Call) : s.fanOut m c = s := by
  obtain ⟨sinks, count, switch, retired⟩ := manager
  cases bare
  rw [fanOut_some found]
  exact setManager_self found

theorem register_stale {s : System} {whom : Address} (stale : s.stale whom = true) (source : Source) (append : Bool) :
    (Op.register whom source append).run s = s.withSink source fun sink t => (.truth false, t.discard [sink]) := by
  obtain ⟨m, manager, reached, found, retired⟩ := stale_iff.mp stale
  have same := (obtain_managers (s := s) source).1
  rw [run_register reached]
  unfold withSink
  generalize obtain source s = outcome at same ⊢
  obtain ⟨made, t⟩ := outcome
  cases made with
  | error r => rfl
  | ok sink =>
    have found : t.managers[m]? = some manager := (congrArg (·[m]?) same).trans found
    simp [register, found, retired]

/-- A write to a stale handle does nothing; it is a misuse at the level of the manager's own messages. -/
theorem write_stale {s : System} {name : String} (stale : s.stale (.handle name) = true) (r : Record) :
    (Op.write (.handle name) r).run s =
      (if r.level = .internal then .failed (.misuse .reservedLevel) else .nothing, s) := by
  obtain ⟨m, manager, reached, found, retired⟩ := stale_iff.mp stale
  have reached : s.handles.get? name = some m := reached
  have closed := closed_of_retired found retired
  by_cases level : r.level = .internal <;>
    simp [Op.run, withHandle, reached, System.write, accepts, level, written, closed]

theorem format_stale {s : System} {name : String} (stale : s.stale (.handle name) = true) (l : Level)
    (node : Option Node) (argument : Argument) :
    (Step.format (.handle name) l node argument).run s =
      (if l = .internal then .failed (.misuse .reservedLevel) else .rendered 0, s) := by
  obtain ⟨m, manager, reached, found, retired⟩ := stale_iff.mp stale
  have reached : s.handles.get? name = some m := reached
  have closed := closed_of_retired found retired
  by_cases level : l = .internal <;> simp [Step.run, System.taker, reached, accepts, level, closed]

end System

def Step.stale (step : Step) (s : System) : Bool :=
  match step.addressee with
  | some whom => s.stale whom
  | none => false

def Step.registers : Step → Bool
  | .op (.register _ _ _) => true
  | _ => false

/-- A step on a stale handle that does not pass it a sink changes nothing. -/
theorem Step.run_stale {s : System} (formed : s.WellFormed) {step : Step} (stale : step.stale s = true)
    (other : step.registers = false) : (step.run s).2 = s := by
  cases addressed : step.addressee with
  | none => simp [Step.stale, addressed] at stale
  | some whom =>
    simp only [Step.stale, addressed] at stale
    obtain ⟨m, manager, reached, found, retired⟩ := System.stale_iff.mp stale
    have closed := System.closed_of_retired found retired
    cases step with
    | format whom l node argument =>
      cases addressed
      by_cases level : l = .internal
      · subst level
        exact System.run_internal s _ node argument
      · have nobody := formed.taker reached level
        simp only [closed, Bool.false_eq_true, if_false] at nobody
        simp only [Step.run, nobody]
    | op o =>
      cases o with
      | register => cases other
      | setEnabled whom on =>
        cases addressed
        rw [Step.run, System.run_setEnabled reached]
        simp [System.setEnabled, found, retired]
      | setSaveLevel whom l =>
        cases addressed
        rw [Step.run, System.run_setSaveLevel reached]
        simp [System.setSaveLevel, found, retired]
      | status whom =>
        cases whom with
        | handle name =>
          simp only [Step.run, Op.run, System.withHandle]
          split <;> rfl
        | process => rfl
      | write whom r =>
        cases addressed
        rw [Step.run, formed.run_write reached]
        by_cases level : r.level = .internal <;> simp [System.write, System.accepts, level, System.written, closed]
      | rename whom name =>
        cases addressed
        rw [Step.run, System.run_rename reached]
        simp [System.rename, closed]
      | flush whom =>
        cases addressed
        rw [Step.run, System.run_flush reached]
        exact System.fanOut_bare found ((formed.sound m manager found).bare retired) .flush
      | _ => cases addressed

/-! ## Scripts without them -/

/-- A name under which the caller keeps a sink that would have been refused. It is longer than those of the script. -/
def spare (bound k : Nat) : String := String.ofList (List.replicate (bound + k) 'x')

/-- The sink that a step passes to a stale handle. -/
def Step.refuses (step : Step) (s : System) : Option Sink :=
  match step with
  | .op (.register whom source _) => if s.stale whom then (System.obtain source s).1.toOption else none
  | _ => none

mutual

/-- What is left of a step: nothing if it is on a stale handle, but a sink that it would have passed stays with the
    caller; and if it is a write that is taken, its argument is looked at in the same way. -/
def Step.prune (bound : Nat) : Step → System → Option Step
  | .op o, s =>
    if (Step.op o).stale s then
      match o with
      | .register _ source _ => ((Step.op o).refuses s).map fun sink => .op (.hold (spare bound sink.id) source)
      | _ => none
    else some (.op o)
  | .format whom l node argument, s =>
    if s.stale whom then none
    else
      match s.taker whom l with
      | .ok (some m) => some (.format whom l node (argument.prune bound (s.enter m)))
      | _ => some (.format whom l node argument)

/-- What is left of an argument: all pieces, and what is left of each step. -/
def Argument.prune (bound : Nat) : Argument → System → Argument
  | .done, _ => .done
  | .piece p rest, s => .piece p (rest.prune bound s)
  | .take step rest, s =>
    let later := rest.prune bound ((step.run s).2.note (step.run s).1)
    match step.prune bound s with
    | some left => .take left later
    | none => later

end

def prune (bound : Nat) : List Step → System → List Step
  | [], _ => []
  | step :: rest, s => (step.prune bound s).toList ++ prune bound rest (step.run s).2

/-- The sinks that have been passed to stale handles in a course of actions. -/
def refused : List Action → System → List Nat
  | [], _ => []
  | a :: rest, s =>
    let first := match a with
      | .op o => ((Step.op o).refuses s).toList.map Sink.id
      | _ => []
    first ++ refused rest (a.act s)

theorem refused_append (p q : List Action) (s : System) :
    refused (p ++ q) s = refused p s ++ refused q (play p s) := by
  induction p generalizing s with
  | nil => rfl
  | cons a rest ih => simp [refused, ih]

/-! ## Two systems -/

theorem spare_length (bound k : Nat) : (spare bound k).length = bound + k := by
  simp [spare]

theorem spare_inj {bound j k : Nat} : spare bound j = spare bound k ↔ j = k := by
  refine ⟨?_, fun same => by rw [same]⟩
  intro same
  have lengths := congrArg String.length same
  rw [spare_length, spare_length] at lengths
  omega

def short (bound : Nat) (name : String) : Bool := decide (name.length < bound)

theorem short_spare (bound k : Nat) : short bound (spare bound k) = false := by
  simp [short, spare_length]

/-- Whether an entry of a journal is one that has to be in both: the ends of nested steps do not, nor the drops of sinks
    that have been refused. -/
def Event.shows (gone : List Nat) : Event → Bool
  | .nested _ => false
  | .dropped k => !gone.contains k
  | _ => true

/-- Two systems that are apart only in sinks that have been refused. They are dropped in the first and held in the
    second. -/
structure Apart (bound : Nat) (gone : List Nat) (s t : System) : Prop where
  same : s.mute = (t.frame [] (short bound)).mute
  shown : s.world.journal.filter (Event.shows gone) = t.world.journal.filter (Event.shows [])
  dropped : ∀ k ∈ gone, k ∈ drops s.world.journal
  aside : ∀ k ∈ gone, ∃ sink, t.held.get? (spare bound k) = some sink ∧ sink.id = k
  free : ∀ k, k ∉ gone → t.held.get? (spare bound k) = none

theorem shows_eq {gone : List Nat} {entries : List Event} (there : ∀ k ∈ gone, k ∉ drops entries)
    (more : List Nat) : entries.filter (Event.shows (more ++ gone)) = entries.filter (Event.shows more) := by
  apply List.filter_congr
  intro e member
  cases e with
  | dropped k =>
    have out : k ∉ gone := fun inside => there k inside (mem_drops.mpr member)
    simp [Event.shows, out]
  | _ => rfl

namespace Apart

variable {bound : Nat} {gone : List Nat} {s t : System}

/-- What neither reads the journal nor uses names that are not in the script comes to the same on both sides. -/
theorem map (h : Apart bound gone s t) {α : Type} (f : System → α × System)
    (framed : ∀ keep : String → Bool, (∀ name, name.length < bound → keep name = true) →
      ∀ (u : System) (old : List Event), f (u.frame old keep) = System.onto old keep (f u))
    (aside : ∀ k, (f t).2.held.get? (spare bound k) = t.held.get? (spare bound k))
    (once : (drops (f s).2.world.journal).Nodup) :
    (f t).1 = (f s).1 ∧ Apart bound gone (f s).2 (f t).2 := by
  have behind := System.eq_behind (framed (fun _ => true) fun _ _ => rfl)
  -- both are what comes of the muted system, behind the one journal or the other
  have left : f s = ((f s.mute).1, (f s.mute).2.prepend s.world.journal) := behind s
  have right : System.onto [] (short bound) (f t) = ((f s.mute).1, (f s.mute).2.prepend t.world.journal) := by
    rw [← framed (short bound) (fun _ fits => decide_eq_true fits) t [], behind, System.behind, ← h.same]
    rfl
  have answer : (f t).1 = (f s.mute).1 := (Prod.ext_iff.mp right).1
  have system : (f t).2.frame [] (short bound) = (f s.mute).2.prepend t.world.journal :=
    (Prod.ext_iff.mp right).2
  have journal : (f t).2.world.journal = t.world.journal ++ (f s.mute).2.world.journal :=
    congrArg (fun u : System => u.world.journal) system
  have journal' : (f s).2.world.journal = s.world.journal ++ (f s.mute).2.world.journal := by
    rw [left]
    rfl
  refine ⟨by rw [answer, left], ?_, ?_, ?_, ?_, ?_⟩
  · rw [system, left]
    rfl
  · rw [journal', drops_append] at once
    have there : ∀ k ∈ gone, k ∉ drops (f s.mute).2.world.journal := fun k member again =>
      (List.nodup_append.mp once).2.2 k (h.dropped k member) k again rfl
    rw [journal, journal', List.filter_append, List.filter_append, h.shown]
    exact congrArg _ (shows_eq there [])
  · intro k member
    rw [journal', drops_append]
    exact List.mem_append_left _ (h.dropped k member)
  · intro k member
    rw [aside]
    exact h.aside k member
  · intro k out
    rw [aside]
    exact h.free k out

/-- The ends of nested steps do not matter, on either side. -/
theorem note_left (h : Apart bound gone s t) (r : Reply) : Apart bound gone (s.note r) t := by
  have shown : (s.note r).world.journal.filter (Event.shows gone) = s.world.journal.filter (Event.shows gone) := by
    simp [System.note, World.record, Event.shows]
  have dropped : drops (s.note r).world.journal = drops s.world.journal := by simp [System.note, World.record, drops]
  exact ⟨h.same, shown.trans h.shown, fun k member => dropped ▸ h.dropped k member, h.aside, h.free⟩

theorem note_right (h : Apart bound gone s t) (r : Reply) : Apart bound gone s (t.note r) := by
  have shown : (t.note r).world.journal.filter (Event.shows []) = t.world.journal.filter (Event.shows []) := by
    simp [System.note, World.record, Event.shows]
  exact ⟨h.same, h.shown.trans shown.symm, h.dropped, h.aside, h.free⟩

/-- A sink that is dropped on the one side and stays with the caller on the other. -/
theorem refuse (h : Apart bound gone s t) {sink : Sink} (there : sink.id ∉ drops s.world.journal) :
    Apart bound (gone ++ [sink.id]) (s.discard [sink]) (t.holdSink (spare bound sink.id) sink) := by
  have out : sink.id ∉ gone := fun member => there (h.dropped _ member)
  have held : t.holdSink (spare bound sink.id) sink = { t with held := t.held.put (spare bound sink.id) sink } := by
    simp only [System.holdSink, h.free _ out]
  rw [held]
  refine ⟨?_, ?_, ?_, ?_, ?_⟩
  · have same := h.same
    simp only [System.frame, System.mute, System.discard] at same ⊢
    rw [t.held.restrict_put (short_spare bound sink.id)]
    exact same
  · show (s.world.journal ++ [Event.dropped sink.id]).filter _ = _
    have fits : ∀ k ∈ [sink.id], k ∉ drops s.world.journal := fun k member => List.mem_singleton.mp member ▸ there
    rw [List.filter_append, shows_eq fits, h.shown]
    simp [Event.shows]
  · intro k member
    show k ∈ drops (s.world.journal ++ [Event.dropped sink.id])
    rw [drops_append]
    rcases List.mem_append.mp member with before | now
    · exact List.mem_append_left _ (h.dropped k before)
    · exact List.mem_append_right _ now
  · intro k member
    simp only [Table.get?_put, spare_inj]
    split
    · rename_i same
      exact ⟨sink, rfl, same⟩
    · rename_i other
      refine h.aside k ((List.mem_append.mp member).resolve_right fun now => other ?_)
      exact (List.mem_singleton.mp now).symm
  · intro k free
    simp only [List.mem_append, List.mem_singleton, not_or] at free
    simp only [Table.get?_put, spare_inj, if_neg (Ne.symm free.2)]
    exact h.free k free.1

end Apart

/-- What the caller is told when he takes what is left of a step: the same, or nothing if he keeps a sink instead. -/
def Step.answer (step : Step) (s : System) : Reply := if step.stale s then .nothing else (step.run s).1

/-- A step and what is left of it come to the same. -/
def Step.Agrees (bound : Nat) (gone : List Nat) (step : Step) (left : Option Step) (s t : System) : Prop :=
  match left with
  | none => Apart bound (gone ++ refused (step.course s) s) (step.run s).2 t
  | some left => (left.run t).1 = step.answer s ∧
      Apart bound (gone ++ refused (step.course s) s) (step.run s).2 (left.run t).2

section

variable {bound : Nat} {gone : List Nat} {s t : System}

theorem spare_unused {names : List String} (fits : ∀ name ∈ names, name.length < bound) (k : Nat) :
    spare bound k ∉ names := by
  intro used
  have length := fits _ used
  rw [spare_length] at length
  omega

/-- An operation that is not on a stale handle stays. -/
theorem Op.prune_live {o : Op} (live : (Step.op o).stale s = false) (fits : ∀ name ∈ o.names, name.length < bound)
    (accounted : System.Accounted ([], s)) (h : Apart bound gone s t) :
    (Step.op o).Agrees bound gone ((Step.op o).prune bound s) s t := by
  have left : (Step.op o).prune bound s = some (.op o) := by simp [Step.prune, live]
  have nothing : refused ((Step.op o).course s) s = [] := by
    cases o with
    | register whom source append =>
      have live : s.stale whom = false := live
      simp [Step.course, refused, Step.refuses, live]
    | _ => rfl
  have after : System.Accounted ([], (o.run s).2) := play_accounted [.op o] accounted
  have both := h.map o.run (fun keep kept u old => Op.run_frame (fun name used => kept name (fits name used)) u old)
    (fun k => Op.run_held (spare_unused fits k) t) after.drops_nodup
  rw [left, Step.Agrees, nothing, List.append_nil, Step.answer, live]
  exact both

/-- A sink that is passed to a stale handle stays with the caller. -/
theorem Op.prune_refused {whom : Address} {source : Source} {append : Bool} (stale : s.stale whom = true)
    (fits : ∀ name ∈ source.names, name.length < bound) (accounted : System.Accounted ([], s))
    (h : Apart bound gone s t) :
    (Step.op (.register whom source append)).Agrees bound gone ((Step.op (.register whom source append)).prune bound s)
      s t := by
  have stale' : (Step.op (.register whom source append)).stale s = true := stale
  have run : (Step.op (.register whom source append)).run s = _ := System.register_stale stale source append
  generalize fetched : System.obtain source s = outcome
  obtain ⟨made, u⟩ := outcome
  cases made with
  | error r =>
    -- there is no sink to refuse, and nothing is left of the step
    have left : (Step.op (.register whom source append)).prune bound s = none := by
      simp [Step.prune, stale', Step.refuses, stale, fetched, Except.toOption]
    have nothing : refused ((Step.op (.register whom source append)).course s) s = [] := by
      simp [Step.course, refused, Step.refuses, stale, fetched, Except.toOption]
    have same := System.Changes.obtain_error s fetched
    rw [left, Step.Agrees, nothing, List.append_nil, run, System.withSink, fetched, same]
    exact h
  | ok sink =>
    -- the same sink is fetched on both sides; here it is dropped, and there it gets a name that is free
    have left : (Step.op (.register whom source append)).prune bound s =
        some (.op (.hold (spare bound sink.id) source)) := by
      simp [Step.prune, stale', Step.refuses, stale, fetched, Except.toOption]
    have one : refused ((Step.op (.register whom source append)).course s) s = [sink.id] := by
      simp [Step.course, refused, Step.refuses, stale, fetched, Except.toOption]
    have carried : System.Accounted ([sink], u) := (System.Changes.obtain_ok [] s fetched).1.accounted accounted
    have both := h.map (System.obtain source)
      (fun keep kept v old => v.obtain_frame old keep fun name used => kept name (fits name used))
      (fun k => t.obtain_held (spare_unused fits k)) (by rw [fetched]; exact carried.drops_nodup)
    generalize fetched' : System.obtain source t = outcome' at both
    obtain ⟨made', v⟩ := outcome'
    rw [fetched] at both
    obtain ⟨rfl, apart⟩ := both
    have kept : (Step.op (.hold (spare bound sink.id) source)).run t =
        (.nothing, v.holdSink (spare bound sink.id) sink) := by
      simp only [Step.run, Op.run, System.withSink, fetched']
    rw [left, Step.Agrees, one, run, System.withSink, fetched, kept, Step.answer, stale']
    refine ⟨rfl, apart.refuse (carried.not_dropped ?_)⟩
    have inHand := occurs_pos (List.mem_singleton_self sink) rfl
    simp only
    omega

theorem Op.prune_run (o : Op) (fits : ∀ name ∈ o.names, name.length < bound) (formed : s.WellFormed)
    (accounted : System.Accounted ([], s)) (h : Apart bound gone s t) :
    (Step.op o).Agrees bound gone ((Step.op o).prune bound s) s t := by
  cases stale : (Step.op o).stale s with
  | false => exact Op.prune_live stale fits accounted h
  | true =>
    cases registers : (Step.op o).registers with
    | true =>
      cases o with
      | register whom source append => exact Op.prune_refused stale fits accounted h
      | _ => cases registers
    | false =>
      have left : (Step.op o).prune bound s = none := by
        cases o with
        | register => cases registers
        | _ => simp [Step.prune, stale]
      have nothing : refused ((Step.op o).course s) s = [] := by
        cases o with
        | register => cases registers
        | _ => rfl
      rw [left, Step.Agrees, nothing, List.append_nil, Step.run_stale formed stale registers]
      exact h

end

namespace Apart

variable {bound : Nat} {gone : List Nat} {s t : System}

theorem taker (h : Apart bound gone s t) (whom : Address) (l : Level) : t.taker whom l = s.taker whom l := by
  have muted (u : System) : u.mute.taker whom l = u.taker whom l := by cases whom <;> rfl
  have same := congrArg (fun u : System => u.taker whom l) h.same
  simpa [muted] using same.symm

theorem enter (h : Apart bound gone s t) (m : Nat) : Apart bound gone (s.enter m) (t.enter m) :=
  ⟨congrArg (fun u : System => u.enter m) h.same, h.shown, h.dropped, h.aside, h.free⟩

theorem leave (h : Apart bound gone s t) : Apart bound gone s.leave t.leave :=
  ⟨congrArg System.leave h.same, h.shown, h.dropped, h.aside, h.free⟩

theorem release (h : Apart bound gone s t) (m : Nat) (accounted : System.Accounted ([], s)) :
    Apart bound gone (s.release m) (t.release m) := by
  have after := (System.Changes.release [] s m).accounted accounted
  refine (h.map (fun u => ((), u.release m)) ?_ ?_ after.drops_nodup).2
  · intro keep _ u old
    simp [System.onto]
  · intro k
    simp

theorem dispatch (h : Apart bound gone s t) (m : Nat) (r : Record) (accounted : System.Accounted ([], s)) :
    Apart bound gone (s.dispatch m r) (t.dispatch m r) := by
  have after := (System.Changes.dispatch [] s m r).accounted accounted
  refine (h.map (fun u => ((), u.dispatch m r)) ?_ ?_ after.drops_nodup).2
  · intro keep _ u old
    simp [System.onto]
  · intro k
    simp [System.dispatch]

end Apart

theorem System.taker_stale {s : System} (formed : s.WellFormed) {whom : Address} (stale : s.stale whom = true) (l : Level)
    (m : Nat) : s.taker whom l ≠ .ok (some m) := by
  by_cases level : l = .internal
  · rw [level]
    exact s.taker_internal whom m
  · obtain ⟨n, manager, reached, found, retired⟩ := System.stale_iff.mp stale
    have closed := closed_of_retired found retired
    rw [formed.taker reached level, closed]
    simp

mutual

/-- Every step and what is left of it come to the same. -/
theorem Step.prune_run : ∀ (step : Step) {bound : Nat} {gone : List Nat} {s t : System}
    (_ : ∀ name ∈ step.names, name.length < bound) (_ : s.WellFormed) (_ : System.Accounted ([], s))
    (_ : Apart bound gone s t), step.Agrees bound gone (step.prune bound s) s t
  | .op o, _, _, _, _, fits, formed, accounted, h => Op.prune_run o fits formed accounted h
  | .format whom l node argument, bound, gone, s, t, fits, formed, accounted, h => by
    cases stale : s.stale whom with
    | true =>
      -- nothing is rendered, so the steps in the argument are in neither run
      have left : (Step.format whom l node argument).prune bound s = none := by simp [Step.prune, stale]
      have nothing : refused ((Step.format whom l node argument).course s) s = [] := by
        simp only [Step.course]
        split
        · rename_i m taken
          exact absurd taken (System.taker_stale formed stale l m)
        · rfl
      have same : ((Step.format whom l node argument).run s).2 = s := Step.run_stale formed stale rfl
      rw [left, Step.Agrees, nothing, List.append_nil, same]
      exact h
    | false =>
      have answer : (Step.format whom l node argument).answer s = ((Step.format whom l node argument).run s).1 := by
        simp [Step.answer, Step.stale, Step.addressee, stale]
      have taker := h.taker whom l
      -- a write that is not taken is the same on both sides, and nothing in it is looked at
      have untaken (r : Reply)
          (kept : (Step.format whom l node argument).prune bound s = some (.format whom l node argument))
          (nothing : (Step.format whom l node argument).course s = [])
          (ran : ∀ u : System, u.taker whom l = s.taker whom l → (Step.format whom l node argument).run u = (r, u)) :
          (Step.format whom l node argument).Agrees bound gone ((Step.format whom l node argument).prune bound s) s t := by
        rw [kept, Step.Agrees, nothing, answer, ran s rfl, ran t taker, refused, List.append_nil]
        exact ⟨rfl, h⟩
      cases taken : s.taker whom l with
      | error r =>
        exact untaken r (by simp [Step.prune, stale, taken]) (by simp [Step.course, taken]) fun u same => by
          simp only [Step.run, same, taken]
      | ok who =>
        cases who with
        | none =>
          exact untaken (.rendered 0) (by simp [Step.prune, stale, taken]) (by simp [Step.course, taken])
            fun u same => by simp only [Step.run, same, taken]
        | some m =>
          -- the write is taken on both sides, and the arguments come to the same by induction
          rw [taken] at taker
          have entered : System.Accounted ([], s.enter m) := ⟨accounted.names, accounted.once, accounted.final⟩
          have ih := Argument.prune_render argument (s := s.enter m) fits (formed.of_eq rfl rfl) entered (h.enter m)
          have after : System.Accounted ([], (argument.render (s.enter m)).2) := by
            rw [← Argument.play_course]
            exact play_accounted _ entered
          have gone' : refused ((Step.format whom l node argument).course s) s =
              refused (argument.course (s.enter m)) (s.enter m) := by
            simp only [Step.course, taken]
            cases (argument.render (s.enter m)).1 <;> simp [refused, refused_append, Action.act]
          have left : (Step.format whom l node argument).prune bound s =
              some (.format whom l node (argument.prune bound (s.enter m))) := by
            simp [Step.prune, stale, taken]
          rw [left, Step.Agrees, answer, gone', Step.run_format taken, Step.run_format taker]
          obtain ⟨text, apart⟩ := ih
          generalize argument.render (s.enter m) = outcome at text apart after ⊢
          generalize (argument.prune bound (s.enter m)).render (t.enter m) = outcome' at text apart ⊢
          obtain ⟨own, u⟩ := outcome
          obtain ⟨own', v⟩ := outcome'
          cases text
          have ready : System.Accounted ([], u.leave) := ⟨after.names, after.once, after.final⟩
          cases own with
          | none => exact ⟨rfl, apart.leave.release m ready⟩
          | some text =>
            have sent := (System.Changes.dispatch [] u.leave m ⟨l, node, text⟩).accounted ready
            exact ⟨rfl, (apart.leave.dispatch m ⟨l, node, text⟩ ready).release m sent⟩

theorem Argument.prune_render : ∀ (argument : Argument) {bound : Nat} {gone : List Nat} {s t : System}
    (_ : ∀ name ∈ argument.names, name.length < bound) (_ : s.WellFormed) (_ : System.Accounted ([], s))
    (_ : Apart bound gone s t),
    ((argument.prune bound s).render t).1 = (argument.render s).1 ∧
      Apart bound (gone ++ refused (argument.course s) s) (argument.render s).2 ((argument.prune bound s).render t).2
  | .done, _, _, _, _, _, _, _, h =>
    ⟨rfl, by simpa [Argument.course, Argument.render, Argument.prune, refused] using h⟩
  | .piece p rest, bound, gone, s, t, fits, formed, accounted, h => by
    cases rendered : p.render with
    | none => simpa [Argument.prune, Argument.render, Argument.course, rendered, refused] using h
    | some text =>
      have ih := Argument.prune_render rest fits formed accounted h
      simp only [Argument.prune, Argument.render, Argument.course, rendered]
      generalize rest.render s = outcome at ih ⊢
      generalize (rest.prune bound s).render t = outcome' at ih ⊢
      obtain ⟨more, u⟩ := outcome
      obtain ⟨more', v⟩ := outcome'
      obtain ⟨rfl, apart⟩ := ih
      cases more' <;> exact ⟨rfl, apart⟩
  | .take step rest, bound, gone, s, t, fits, formed, accounted, h => by
    have both := List.forall_mem_append.mp fits
    have first := Step.prune_run step both.1 formed accounted h
    have played := Step.play_course step s
    have formed' : ((step.run s).2.note (step.run s).1).WellFormed := by
      rw [← played]
      exact (play_wellFormed _ formed).of_eq rfl rfl
    have accounted' : System.Accounted ([], (step.run s).2.note (step.run s).1) := by
      rw [← played]
      exact System.note_accounted (play_accounted _ accounted) _
    have gone' : refused ((Argument.take step rest).course s) s = refused (step.course s) s ++
        refused (rest.course ((step.run s).2.note (step.run s).1)) ((step.run s).2.note (step.run s).1) := by
      simp only [Argument.course, refused_append, refused, List.nil_append, played, Action.act]
    rw [gone', ← List.append_assoc, Argument.render_take]
    simp only [Argument.prune]
    -- the end of the step is noted on this side in any case, and on the other if something is left of it
    cases left : step.prune bound s with
    | none =>
      rw [left, Step.Agrees] at first
      exact Argument.prune_render rest both.2 formed' accounted' (first.note_left _)
    | some kept =>
      rw [left, Step.Agrees] at first
      simp only [Argument.render_take]
      exact Argument.prune_render rest both.2 formed' accounted' ((first.2.note_left _).note_right _)

end

/-! ## Scripts -/

def answers (bound : Nat) : List Step → System → List Reply
  | [], _ => []
  | step :: rest, s =>
    ((step.prune bound s).toList.map fun _ => step.answer s) ++ answers bound rest (step.run s).2

theorem prune_runAll (steps : List Step) {bound : Nat} {gone : List Nat} {s t : System}
    (fits : ∀ step ∈ steps, ∀ name ∈ step.names, name.length < bound) (formed : s.WellFormed)
    (accounted : System.Accounted ([], s)) (h : Apart bound gone s t) :
    (runAll (prune bound steps s) t).1 = answers bound steps s ∧
      Apart bound (gone ++ refused (course steps s) s) (runAll steps s).2 (runAll (prune bound steps s) t).2 := by
  induction steps generalizing gone s t with
  | nil => exact ⟨rfl, by simpa [course, refused, runAll, prune] using h⟩
  | cons step rest ih =>
    obtain ⟨here, later⟩ := List.forall_mem_cons.mp fits
    have first := Step.prune_run step here formed accounted h
    have played := Step.play_course step s
    have formed' : (step.run s).2.WellFormed := played ▸ play_wellFormed (step.course s) formed
    have accounted' : System.Accounted ([], (step.run s).2) := played ▸ play_accounted (step.course s) accounted
    have gone' : refused (course (step :: rest) s) s =
        refused (step.course s) s ++ refused (course rest (step.run s).2) (step.run s).2 := by
      simp only [course, refused_append, played]
    rw [gone', ← List.append_assoc]
    cases left : step.prune bound s with
    | none =>
      rw [left, Step.Agrees] at first
      simpa [prune, answers, left, runAll] using ih later formed' accounted' first
    | some kept =>
      rw [left, Step.Agrees] at first
      obtain ⟨replies, apart⟩ := ih later formed' accounted' first.2
      simp only [prune, answers, left, runAll, Option.toList, List.cons_append, List.nil_append, List.map_cons,
        List.map_nil]
      exact ⟨by rw [replies, first.1], apart⟩

/-- A length that no name in a list has. -/
def longer : List String → Nat
  | [] => 0
  | name :: rest => max (name.length + 1) (longer rest)

theorem length_lt_longer {names : List String} {name : String} (h : name ∈ names) : name.length < longer names := by
  induction names with
  | nil => cases h
  | cons first rest ih =>
    simp only [longer]
    rcases List.mem_cons.mp h with rfl | member
    · omega
    · have := ih member
      omega

/-- A length that no name of a script has. -/
def bound (steps : List Step) : Nat := longer (steps.flatMap Step.names)

theorem length_lt_bound {steps : List Step} : ∀ step ∈ steps, ∀ name ∈ step.names, name.length < bound steps :=
  fun step member _ used => length_lt_longer (List.mem_flatMap.mpr ⟨step, member, used⟩)

theorem callsOn_shows (k : Nat) (gone : List Nat) (entries : List Event) :
    callsOn k (entries.filter (Event.shows gone)) = callsOn k entries := by
  rw [callsOn, callsOn, List.filterMap_filter]
  congr 1
  funext e
  cases e <;> simp [Event.shows]

/-- A run with steps on stale handles and the same run without them. They end in the same system, with the same calls on
    every sink and the same replies to all other steps. A sink that was passed to a stale handle has been dropped in the
    first run, once, and nothing has happened to it since; in the second the caller still has it. At every moment a step on
    a stale handle leaves the system as it is, but for a sink that it passes, which is dropped; it is a misuse to write at
    the level of the manager's own messages; and no argument is rendered. -/
theorem stale_handles (stamp : String) (steps : List Step) :
    let left := prune (bound steps) steps (.fresh stamp)
    let gone := refused (course steps (.fresh stamp)) (.fresh stamp)
    let s := (runAll steps (.fresh stamp)).2
    let t := (runAll left (.fresh stamp)).2
    (t.slot = s.slot ∧ t.processFlag = s.processFlag ∧ t.managers = s.managers ∧ t.handles = s.handles ∧
      t.held.restrict (short (bound steps)) = s.held ∧ t.logs = s.logs ∧ t.running = s.running ∧
      t.world.host = s.world.host ∧ t.world.buffers = s.world.buffers ∧ t.world.labels = s.world.labels ∧
      t.world.stamp = s.world.stamp) ∧
    t.world.journal.filter (Event.shows []) = s.world.journal.filter (Event.shows gone) ∧
    (∀ k, callsOn k t.world.journal = callsOn k s.world.journal) ∧
    (runAll left (.fresh stamp)).1 = answers (bound steps) steps (.fresh stamp) ∧
    (∀ k ∈ gone,
      (∃ before after, s.world.journal = before ++ .dropped k :: after ∧ k ∉ drops before ∧
        ∀ e ∈ after, e.sink? ≠ some k) ∧
      k ∉ drops t.world.journal ∧ ∃ sink, t.held.get? (spare (bound steps) k) = some sink ∧ sink.id = k) ∧
    ∀ n name, let u := play ((course steps (.fresh stamp)).take n) (.fresh stamp)
      u.stale (.handle name) = true →
        (∀ step : Step, step.addressee = some (.handle name) → step.registers = false → (step.run u).2 = u) ∧
        (∀ source append, (Op.register (.handle name) source append).run u =
          u.withSink source fun sink v => (.truth false, v.discard [sink])) ∧
        (∀ r, (Op.write (.handle name) r).run u =
          (if r.level = .internal then .failed (.misuse .reservedLevel) else .nothing, u)) ∧
        ∀ l node argument, (Step.format (.handle name) l node argument).run u =
          (if l = .internal then .failed (.misuse .reservedLevel) else .rendered 0, u) := by
  intro left gone s t
  have start : Apart (bound steps) [] (.fresh stamp) (.fresh stamp) :=
    ⟨rfl, rfl, List.forall_mem_nil _, List.forall_mem_nil _, fun _ _ => rfl⟩
  obtain ⟨replies, apart⟩ := prune_runAll steps length_lt_bound (.fresh stamp) (.fresh stamp) start
  have ended : System.Accounted ([], s) := by
    rw [show s = play (course steps (.fresh stamp)) (.fresh stamp) from (play_course steps (.fresh stamp)).symm]
    exact play_accounted _ (.fresh stamp)
  have same : s.mute = (t.frame [] (short (bound steps))).mute := apart.same
  have shown : s.world.journal.filter (Event.shows gone) = t.world.journal.filter (Event.shows []) := apart.shown
  refine ⟨?_, shown.symm, ?_, replies, fun k member => ⟨?_, ?_, ?_⟩, ?_⟩
  · have managers := congrArg System.managers same
    have world := congrArg System.world same
    refine ⟨(congrArg System.slot same).symm, (congrArg System.processFlag same).symm, managers.symm,
      (congrArg System.handles same).symm, (congrArg System.held same).symm, (congrArg System.logs same).symm,
      (congrArg System.running same).symm, (congrArg World.host world).symm, (congrArg World.buffers world).symm,
      (congrArg World.labels world).symm, (congrArg World.stamp world).symm⟩
  · intro k
    rw [← callsOn_shows k [], ← shown, callsOn_shows]
  · exact ended.dropped_once (apart.dropped k member)
  · intro again
    have there : Event.dropped k ∈ t.world.journal.filter (Event.shows []) :=
      List.mem_filter.mpr ⟨mem_drops.mp again, rfl⟩
    rw [← shown] at there
    simp [Event.shows, member] at there
  · exact apart.aside k member
  · intro n name u stale
    refine ⟨?_, System.register_stale stale, System.write_stale stale,
      System.format_stale stale⟩
    intro step addressed other
    have stale' : step.stale u = true := by rw [Step.stale, addressed]; exact stale
    exact Step.run_stale (play_wellFormed _ (.fresh stamp)) stale' other

/-- A sink that is passed to a handle whose manager has been destroyed. -/
example : refused (course [.op (.create (.built (.probe "a" true)) (some "old")), .op .destroy,
    .op (.hold "b" (.built (.probe "b" true))), .op (.register (.handle "old") (.held "b") true)] (.fresh "T"))
    (.fresh "T") = [1] := by
  decide

end LogFanout
