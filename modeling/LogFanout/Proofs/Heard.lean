import LogFanout.Proofs.Frame

/- What is heard of a run.

   Sinks hear that they are built and called. The end of a nested step is noted in the journal and heard by nobody, and so
   is the moment at which a sink is dropped. What a system is apart from that (`System.heard`) decides what every step
   does to it: nobody reads the journal (`System.heard_map`). So two systems of which the same is heard have the same
   future (`runAll_heard`, `play_heard`). -/
namespace LogFanout

def Event.heard : Event → Bool
  | .built _ => true
  | .called _ _ => true
  | .dropped _ => false
  | .nested _ => false

namespace System

/-- The system with those entries of its journal alone that are heard. -/
def heard (s : System) : System :=
  { s with world := { s.world with journal := s.world.journal.filter Event.heard } }

variable {s t : System}

theorem heard_prepend (old : List Event) : (s.prepend old).heard = s.heard.prepend (old.filter Event.heard) := by
  simp [heard, prepend, World.prepend]

theorem heard_discard (sinks : List Sink) : (s.discard sinks).heard = s.heard := by
  have silent : (sinks.map fun sink => Event.dropped sink.id).filter Event.heard = [] := by
    apply List.filter_eq_nil_iff.mpr
    simp [Event.heard]
  simp [heard, discard, World.discard, silent]

theorem heard_note (r : Reply) : (s.note r).heard = s.heard := by
  simp [heard, note, World.record, Event.heard]

/-- What does not read the journal comes to the same in systems of which the same is heard. -/
theorem heard_map {α : Type} {f : System → α × System}
    (framed : ∀ (u : System) (old : List Event), f (u.frame old fun _ => true) = onto old (fun _ => true) (f u))
    (same : s.heard = t.heard) : (f s).1 = (f t).1 ∧ (f s).2.heard = (f t).2.heard := by
  have mute : s.mute = t.mute := by
    show s.heard.mute = t.heard.mute
    rw [same]
  have journal : s.world.journal.filter Event.heard = t.world.journal.filter Event.heard :=
    congrArg (fun u => u.world.journal) same
  rw [eq_behind framed s, eq_behind framed t]
  constructor
  · show (f s.mute).1 = (f t.mute).1
    rw [mute]
  · show ((f s.mute).2.prepend s.world.journal).heard = ((f t.mute).2.prepend t.world.journal).heard
    rw [heard_prepend, heard_prepend, mute, journal]

theorem heard_step {f : System → System}
    (framed : ∀ (u : System) (old : List Event), f (u.frame old fun _ => true) = (f u).frame old fun _ => true)
    (same : s.heard = t.heard) : (f s).heard = (f t).heard :=
  (heard_map (f := fun u => ((), f u)) (fun u old => congrArg (Prod.mk ()) (framed u old)) same).2

end System

theorem Step.run_heard (step : Step) {s t : System} (same : s.heard = t.heard) :
    (step.run s).1 = (step.run t).1 ∧ (step.run s).2.heard = (step.run t).2.heard :=
  System.heard_map (fun u old => Step.run_frame step (fun _ _ => rfl) u old) same

/-- A script goes on in the same way in systems of which the same is heard. -/
theorem runAll_heard (steps : List Step) {s t : System} (same : s.heard = t.heard) :
    (runAll steps s).1 = (runAll steps t).1 ∧ (runAll steps s).2.heard = (runAll steps t).2.heard := by
  induction steps generalizing s t with
  | nil => exact ⟨rfl, same⟩
  | cons step rest ih =>
    obtain ⟨reply, after⟩ := step.run_heard same
    obtain ⟨replies, last⟩ := ih after
    constructor
    · show (step.run s).1 :: (runAll rest (step.run s).2).1 = (step.run t).1 :: (runAll rest (step.run t).2).1
      rw [reply, replies]
    · exact last

theorem Action.act_heard (a : Action) {s t : System} (same : s.heard = t.heard) : (a.act s).heard = (a.act t).heard := by
  cases a with
  | op o => exact ((Step.op o).run_heard same).2
  | enter m => exact System.heard_step (f := fun u => u.enter m) (fun _ _ => rfl) same
  | note r => rw [act, act, System.heard_note, System.heard_note, same]
  | send m r =>
    refine System.heard_step (f := fun u => (u.leave.dispatch m r).release m) (fun u old => ?_) same
    simp only [System.leave_frame, System.dispatch_frame, System.release_frame]
  | giveUp m =>
    refine System.heard_step (f := fun u => u.leave.release m) (fun u old => ?_) same
    simp only [System.leave_frame, System.release_frame]

theorem play_heard (actions : List Action) {s t : System} (same : s.heard = t.heard) :
    (play actions s).heard = (play actions t).heard := by
  induction actions generalizing s t with
  | nil => exact same
  | cons a rest ih => exact ih (a.act_heard same)

end LogFanout
