import LogFanout.Proofs.Surface
import LogFanout.Proofs.Within

/- Calls that are aborted.

   A write at the level of the manager's own messages is refused before anything is looked at, so nothing has happened by
   then. A formatted write whose argument cannot be rendered has taken the steps in front of the piece that fails, and
   nothing more: it lets go of its manager, and the system is what those steps leave on their own
   (`System.Within.ended`). Only the journal tells the difference, in which the steps are noted and the sinks of a manager
   that only the write still had are dropped a little later; and nobody reads the journal (`play_heard`).

   A call that is aborted unwinds, and its guards go with it: the hold on a manager, which the state has in `running`, and
   the locks, which it has not. Neither misuse happens while a list is locked, a write of the process gives the slot's
   lock back, and no lock is poisoned (see `System`). So what is proved here of the state is all that later calls meet. -/
namespace LogFanout

/-- Two systems of which the same is heard, and in which the same sinks have been dropped. -/
def System.Matches (s t : System) : Prop := s.heard = t.heard ∧ (drops s.world.journal).Perm (drops t.world.journal)

/-! ## The end of a write -/

namespace System

section Ended

variable {m : Nat} {g : Option Nat} {u v : System}

/-- A manager that somebody else has keeps its sinks. -/
theorem Within.shared (h : Within m g u v) (inUse : v.inUse m = true) : g = none := by
  cases g with
  | none => rfl
  | some n =>
    obtain ⟨rfl, unkept, unused⟩ := h.gone n rfl
    rcases (h.inUse_iff n).mp inUse with seated | handle | member
    · exact absurd seated unkept.1
    · exact absurd handle unkept.2
    · exact absurd member unused

/-- A manager that nobody else has is empty without the write, so the write has to empty it. -/
theorem Within.alone (h : Within m g u v) (kept : Kept [] v) (formed : v.WellFormed) (unused : v.inUse m = false) :
    (u.aside v.running (some m)).heard = v.heard := by
  cases here : g with
  | some n =>
    obtain ⟨rfl, _, _⟩ := h.gone n here
    rw [h.same, here]
  | none =>
    have empty : v.ids m = [] := by
      apply Decidable.byContradiction
      intro some
      exact absurd (unused.symm.trans (kept.used m List.not_mem_nil some)) Bool.false_ne_true
    have same : v.heard = (u.aside v.running none).heard := here ▸ h.same
    calc (u.aside v.running (some m)).heard
        = (u.aside v.running none).heard.aside v.running (some m) := rfl
      _ = v.heard.aside v.running (some m) := by rw [same]
      _ = (v.aside v.running (some m)).heard := rfl
      _ = (v.aside v.running none).heard := by rw [aside_bare formed empty]
      _ = v.heard := rfl

/-- When a write comes to an end without a record, the system is what it would be without the write. -/
theorem Within.ended (h : Within m g u v) (running : u.running = m :: v.running) (kept : Kept [] v)
    (formed : v.WellFormed) : (u.leave.release m).heard = v.heard := by
  have left : u.leave = u.aside v.running none := by
    simp only [System.leave, aside, running, List.tail_cons]
  have used : (u.aside v.running none).inUse m = v.inUse m := by
    rw [Bool.eq_iff_iff, h.inUse_iff, System.inUse_iff]
    exact Iff.rfl
  rw [left]
  cases inUse : v.inUse m with
  | true =>
    rw [System.release, used, inUse, if_pos rfl, h.same, h.shared inUse]
  | false =>
    have known : m < (u.aside v.running none).managers.length := h.busy.2
    rw [release_unused known (used.trans inUse)]
    exact h.alone kept formed inUse

end Ended

/-- What is heard of a system and which sinks it has built tell which sinks have been dropped. -/
theorem drops_perm {s t : System} (accounted : Accounted ([], s)) (accounted' : Accounted ([], t))
    (same : s.heard = t.heard) : (drops s.world.journal).Perm (drops t.world.journal) := by
  apply List.perm_iff_count.mpr
  intro k
  have once := accounted.once k
  have once' := accounted'.once k
  have listed : s.listed k = t.listed k := congrArg (fun u => u.listed k) same
  have held : occurs k s.held.values = occurs k t.held.values := congrArg (fun u => occurs k u.held.values) same
  have labels : s.world.labels.length = t.world.labels.length := congrArg (fun u => u.world.labels.length) same
  simp only [places, listed, held, labels] at once once'
  omega

end System

/-! ## Scripts with a call that is aborted -/

theorem runAll_cons (step : Step) (rest : List Step) (s : System) :
    runAll (step :: rest) s = ((step.run s).1 :: (runAll rest (step.run s).2).1, (runAll rest (step.run s).2).2) := rfl

theorem runAll_append (before rest : List Step) (s : System) :
    runAll (before ++ rest) s =
      ((runAll before s).1 ++ (runAll rest (runAll before s).2).1, (runAll rest (runAll before s).2).2) := by
  induction before generalizing s with
  | nil => rfl
  | cons step before ih =>
    simp only [List.cons_append, runAll, ih]

theorem runAll_length (steps : List Step) (s : System) : (runAll steps s).1.length = steps.length := by
  induction steps generalizing s with
  | nil => rfl
  | cons step rest ih =>
    simp only [runAll, List.length_cons, ih]

theorem runAll_running (steps : List Step) (s : System) : (runAll steps s).2.running = s.running := by
  induction steps generalizing s with
  | nil => rfl
  | cons step rest ih => exact (ih (step.run s).2).trans (step.run_running s)

/-- A formatted write that is taken and cannot be rendered comes to what the steps come to that are taken for it. -/
theorem run_unrenderable {s : System} (formed : s.WellFormed) (kept : System.Kept [] s) {whom : Address} {l : Level}
    {m : Nat} (opened : s.isOpen m = true) (taken : s.taker whom l = .ok (some m)) (node : Option Node)
    {argument : Argument} (fails : argument.text = none) :
    ((Step.format whom l node argument).run s).1 = .failed (.misuse .unrenderable) ∧
      ((Step.format whom l node argument).run s).2.heard = (runAll argument.taken s).2.heard := by
  have known : m < s.managers.length := by
    apply Nat.lt_of_not_le
    intro beyond
    rw [System.isOpen, List.getElem?_eq_none beyond] at opened
    cases opened
  have begun : System.Within m none (s.enter m) s := by
    refine ⟨⟨List.mem_cons_self, known⟩, rfl, ?_, ?_⟩
    · intro n other
      show n ∈ s.running ↔ n ∈ m :: s.running
      rw [List.mem_cons]
      exact (or_iff_right other).symm
    · intro n emptied
      cases emptied
  obtain ⟨g, after⟩ := perform_within argument.taken begun
  have rendered := argument.render_eq (s.enter m)
  have running : (perform argument.taken (s.enter m)).running = m :: (runAll argument.taken s).2.running := by
    have rendering := argument.render_running (s.enter m)
    rw [rendered] at rendering
    rw [runAll_running]
    exact rendering
  have kept' : System.Kept [] (runAll argument.taken s).2 := by
    rw [← play_course]
    exact play_kept (course_fits _ _) kept
  have formed' : (runAll argument.taken s).2.WellFormed := by
    rw [← play_course]
    exact play_wellFormed _ formed
  rw [Step.run_format taken, rendered, fails]
  exact ⟨rfl, after.ended running kept' formed'⟩

/-- Also if the argument drops the last handle of the manager that it is rendered for, before it fails. -/
example :
    let s := (runAll [.op (.make "h" (.built (.probe "p" true)))] (.fresh "T")).2
    let after := ((Step.format (.handle "h") .info none (.take (.op (.dropHandle "h")) (.piece .fail .done))).run s).2
    after.heard = ((Op.dropHandle "h").run s).2.heard ∧ drops after.world.journal = [0] := by
  exact ⟨rfl, rfl⟩

/-- At every moment of every run: a write at the level of the manager's own messages is a misuse of every handle,
    whatever the state of its manager, and a misuse of the process just when logging is on and there is an instance;
    otherwise the process ignores it. In all of these cases nothing changes at all. A formatted write that is taken and
    whose argument cannot be rendered is a misuse, too, and a script that has it goes on just as if the steps had been
    there alone that are taken before the rendering fails: all later replies are the same, every call on a sink is the
    same, and so is the system in the end, also when the script is part of a rendering and the write around it comes to
    its end. -/
theorem misuse (stamp : String) (steps : List Step) (n : Nat) :
    let s := play ((course steps (.fresh stamp)).take n) (.fresh stamp)
    (∀ q : Demand, q.reserved = true →
      (∀ name m, s.reach (.handle name) = some m →
        (q.step (.handle name)).run s = (.failed (.misuse .reservedLevel), s)) ∧
      (q.step .process).run s =
        (if s.processFlag = true ∧ s.slot.isSome = true then .failed (.misuse .reservedLevel) else q.ignored, s)) ∧
    ∀ whom m l node argument, s.reach whom = some m → l ≠ .internal → s.isOpen m = true → argument.text = none →
      ∀ rest : List Step,
        let failing := runAll (.format whom l node argument :: rest) s
        let without := runAll (argument.taken ++ rest) s
        failing.1 = .failed (.misuse .unrenderable) :: without.1.drop argument.taken.length ∧
          ∀ later : List Action, (play later failing.2).Matches (play later without.2) := by
  intro s
  have formed : s.WellFormed := play_wellFormed _ (.fresh stamp)
  have kept : System.Kept [] s := course_kept stamp steps n
  have accounted : System.Accounted ([], s) := play_accounted _ (.fresh stamp)
  have counted (script : List Step) (later : List Action) : System.Accounted ([], play later (runAll script s).2) := by
    rw [← play_course]
    exact play_accounted later (play_accounted _ accounted)
  refine ⟨fun q reserved => ⟨fun name m led => ?_, ?_⟩, ?_⟩
  · exact Demand.run_reserved_handle led reserved
  · exact Demand.run_reserved_process s reserved
  · intro whom m l node argument reached level opened fails rest failing without
    have taken := formed.taker reached level
    rw [opened, if_pos rfl] at taken
    obtain ⟨reply, after⟩ := run_unrenderable formed kept opened taken node fails
    obtain ⟨replies, last⟩ := runAll_heard rest after
    have parts : without = _ := runAll_append argument.taken rest s
    have same : failing.2.heard = without.2.heard := by
      rw [parts]
      exact last
    constructor
    · rw [show failing = _ from runAll_cons _ rest s, reply, replies, parts, ← runAll_length argument.taken s,
        List.drop_left]
    · intro later
      have equal := play_heard later same
      exact ⟨equal, System.drops_perm (counted _ later) (counted _ later) equal⟩

end LogFanout
