import LogFanout.Proofs.Change

/- The course of a run: what happens in it, one thing after the other.

   Steps are nested: while an argument is being rendered, others are taken. The course of a script lays them out in a row,
   in the order in which they happen, and `play` makes them happen; `play_course` says that this is the run. So whatever
   is true after every beginning of every course is true at every moment of every run, also in the middle of a rendering
   (`play_induction`). -/
namespace LogFanout

def System.enter (s : System) (m : Nat) : System := { s with running := m :: s.running }

def System.leave (s : System) : System := { s with running := s.running.tail }

/-- The system when a step in an argument has come to its end. -/
def System.note (s : System) (r : Reply) : System := { s with world := s.world.record (.nested r) }

/-- A thing that happens in a run: an operation, or one of the four turns of a formatted write. When a manager has taken
    one, its argument is rendered; a step in the argument comes to its end; the record goes out, or there is none. -/
inductive Action where
  | op (o : Op)
  | enter (m : Nat)
  | note (r : Reply)
  | send (m : Nat) (r : Record)
  | giveUp (m : Nat)
  deriving DecidableEq, Repr

def Action.act : Action → System → System
  | .op o, s => (o.run s).2
  | .enter m, s => s.enter m
  | .note r, s => s.note r
  | .send m r, s => (s.leave.dispatch m r).release m
  | .giveUp m, s => s.leave.release m

def play : List Action → System → System
  | [], s => s
  | a :: rest, s => play rest (a.act s)

@[simp] theorem play_nil (s : System) : play [] s = s := rfl

@[simp] theorem play_cons (a : Action) (rest : List Action) (s : System) : play (a :: rest) s = play rest (a.act s) := rfl

@[simp] theorem play_append (p q : List Action) (s : System) : play (p ++ q) s = play q (play p s) := by
  induction p generalizing s with
  | nil => rfl
  | cons a rest ih => simp [ih]

/-- What actions have of something, one after the other, in a run. -/
def occurrences {α : Type} (f : Action → System → Option α) : List Action → System → List α
  | [], _ => []
  | a :: rest, s => (f a s).toList ++ occurrences f rest (a.act s)

theorem occurrences_append {α : Type} (f : Action → System → Option α) (p q : List Action) (s : System) :
    occurrences f (p ++ q) s = occurrences f p s ++ occurrences f q (play p s) := by
  induction p generalizing s with
  | nil => rfl
  | cons a rest ih => simp [occurrences, ih]

/-! ## The course of a script -/

mutual

def Step.course : Step → System → List Action
  | .op o, _ => [.op o]
  | .format whom l node argument, s =>
    match s.taker whom l with
    | .ok (some m) =>
      let last := match (argument.render (s.enter m)).1 with
        | none => .giveUp m
        | some text => .send m ⟨l, node, text⟩
      .enter m :: argument.course (s.enter m) ++ [last]
    | _ => []

/-- The actions of the steps in an argument, as far as it is rendered. -/
def Argument.course : Argument → System → List Action
  | .done, _ => []
  | .piece p rest, s =>
    match p.render with
    | none => []
    | some _ => rest.course s
  | .take step rest, s =>
    step.course s ++ .note (step.run s).1 :: rest.course ((step.run s).2.note (step.run s).1)

end

def course : List Step → System → List Action
  | [], _ => []
  | step :: rest, s => step.course s ++ course rest (step.run s).2

/-! ## Playing the course is running the script -/

theorem System.Change.running_eq {x y : System.Loaded} (h : System.Change x y) : y.2.running = x.2.running := by
  cases h with
  | fanOut =>
    simp only [System.fanOut]
    split <;> rfl
  | setSwitch hand s m manager on found live =>
    simp only [System.setSwitch, found]
    split <;> rfl
  | _ => rfl

theorem System.Changes.running_eq {x y : System.Loaded} (h : System.Changes x y) : y.2.running = x.2.running := by
  induction h with
  | refl => rfl
  | tail _ change ih => exact change.running_eq.trans ih

theorem System.release_running (s : System) (m : Nat) : (s.release m).running = s.running :=
  (System.Changes.release [] s m).running_eq

theorem System.dispatch_running (s : System) (m : Nat) (r : Record) : (s.dispatch m r).running = s.running :=
  (System.Changes.dispatch [] s m r).running_eq

mutual

theorem Step.run_running : ∀ (step : Step) (s : System), (step.run s).2.running = s.running
  | .op o, s => (System.Changes.op s o).running_eq
  | .format whom l node argument, s => by
    simp only [Step.run]
    split
    · rfl
    · rfl
    · split
      · rw [System.release_running]
      · rw [System.release_running, System.dispatch_running]

theorem Argument.render_running : ∀ (argument : Argument) (s : System), (argument.render s).2.running = s.running
  | .done, _ => rfl
  | .piece p rest, s => by
    have ih := Argument.render_running rest s
    cases rendered : p.render with
    | none => simp [Argument.render, rendered]
    | some text =>
      simp only [Argument.render, rendered]
      split <;> (rename_i h; rw [h] at ih; exact ih)
  | .take step rest, s => by
    simp only [Argument.render]
    rw [Argument.render_running rest]
    exact Step.run_running step s

end

theorem Argument.render_take (step : Step) (rest : Argument) (s : System) :
    (Argument.take step rest).render s = rest.render ((step.run s).2.note (step.run s).1) := rfl

/-- A formatted write that a manager takes, in terms of `enter` and `leave`. -/
theorem Step.run_format {whom : Address} {l : Level} {s : System} {m : Nat} (taken : s.taker whom l = .ok (some m))
    (node : Option Node) (argument : Argument) :
    (Step.format whom l node argument).run s =
      match argument.render (s.enter m) with
      | (none, after) => (.failed (.misuse .unrenderable), after.leave.release m)
      | (some text, after) => (.rendered 1, (after.leave.dispatch m ⟨l, node, text⟩).release m) := by
  have running := Argument.render_running argument (s.enter m)
  simp only [Step.run, taken]
  change (match argument.render (s.enter m) with
    | (none, after) => (Reply.failed (.misuse .unrenderable), { after with running := s.running }.release m)
    | (some text, after) =>
      (.rendered 1, ({ after with running := s.running }.dispatch m ⟨l, node, text⟩).release m)) = _
  generalize argument.render (s.enter m) = rendered at running ⊢
  obtain ⟨text, after⟩ := rendered
  have tail : after.running.tail = s.running := by rw [running]; rfl
  cases text <;> simp [System.leave, tail]

mutual

theorem Step.play_course : ∀ (step : Step) (s : System), play (step.course s) s = (step.run s).2
  | .op _, _ => rfl
  | .format whom l node argument, s => by
    cases taken : s.taker whom l with
    | error r => simp [Step.course, Step.run, taken]
    | ok taker =>
      cases taker with
      | none => simp [Step.course, Step.run, taken]
      | some m =>
        have rendered := Argument.play_course argument (s.enter m)
        rw [Step.run_format taken]
        simp only [Step.course, taken, List.cons_append, play_cons, play_append, Action.act, rendered]
        obtain ⟨text, after⟩ := argument.render (s.enter m)
        cases text <;> rfl

theorem Argument.play_course : ∀ (argument : Argument) (s : System),
    play (argument.course s) s = (argument.render s).2
  | .done, _ => rfl
  | .piece p rest, s => by
    have ih := Argument.play_course rest s
    cases rendered : p.render with
    | none => simp [Argument.course, Argument.render, rendered]
    | some text =>
      simp only [Argument.course, Argument.render, rendered]
      split <;> (rename_i h; rw [h] at ih; exact ih)
  | .take step rest, s => by
    simp only [Argument.course, Argument.render_take, play_append, play_cons, Step.play_course step s]
    exact Argument.play_course rest _

end

/-- Playing the course of a script leaves the system that running the script leaves. -/
theorem play_course (steps : List Step) (s : System) : play (course steps s) s = (runAll steps s).2 := by
  induction steps generalizing s with
  | nil => rfl
  | cons step rest ih => simp [course, runAll, Step.play_course, ih]

/-! ## Arguments as programs -/

/-- The steps in an argument, in the order in which they are taken. -/
def Argument.steps : Argument → List Step
  | .done => []
  | .piece _ rest => rest.steps
  | .take step rest => step :: rest.steps

def Argument.text : Argument → Option String
  | .done => some ""
  | .piece p rest =>
    match p.render, rest.text with
    | some text, some more => some (text ++ more)
    | _, _ => none
  | .take _ rest => rest.text

/-- The system after steps that are taken one after the other in an argument, with a note at the end of each. -/
def perform : List Step → System → System
  | [], s => s
  | step :: rest, s => perform rest ((step.run s).2.note (step.run s).1)

theorem perform_append (before rest : List Step) (s : System) :
    perform (before ++ rest) s = perform rest (perform before s) := by
  induction before generalizing s with
  | nil => rfl
  | cons step before ih => exact ih _

/-- The steps that are taken when an argument is rendered: those in front of the first piece that fails. -/
def Argument.taken : Argument → List Step
  | .done => []
  | .piece p rest => if p.render.isSome then rest.taken else []
  | .take step rest => step :: rest.taken

/-- An argument has the same text in every system, or fails in every system, and rendering it takes the same steps. -/
theorem Argument.render_eq : ∀ (argument : Argument) (s : System),
    argument.render s = (argument.text, perform argument.taken s)
  | .done, _ => rfl
  | .piece p rest, s => by
    have ih := Argument.render_eq rest s
    cases rendered : p.render with
    | none => simp [Argument.render, Argument.text, Argument.taken, rendered, perform]
    | some own =>
      cases text : rest.text with
      | none => simp [Argument.render, Argument.text, Argument.taken, rendered, ih, text]
      | some more => simp [Argument.render, Argument.text, Argument.taken, rendered, ih, text]
  | .take step rest, s => by
    rw [Argument.render_take]
    exact Argument.render_eq rest _

/-- Without a failing piece every step is taken. -/
theorem Argument.taken_of_text : ∀ (argument : Argument) {text : String}, argument.text = some text →
    argument.taken = argument.steps
  | .done, _, _ => rfl
  | .piece p rest, _, h => by
    simp only [Argument.text] at h
    split at h
    · rename_i own more rendered text
      simp [Argument.taken, rendered, Argument.taken_of_text rest text, Argument.steps]
    · cases h
  | .take step rest, _, h => congrArg (step :: ·) (Argument.taken_of_text rest h)

theorem Argument.taken_prefix : ∀ argument : Argument, argument.taken <+: argument.steps
  | .done => List.prefix_rfl
  | .piece p rest => by
    simp only [Argument.taken, Argument.steps]
    split
    · exact Argument.taken_prefix rest
    · exact List.nil_prefix
  | .take _ rest => List.cons_prefix_cons.mpr ⟨rfl, Argument.taken_prefix rest⟩

theorem Argument.render_of_text (argument : Argument) {text : String} (h : argument.text = some text) (s : System) :
    argument.render s = (some text, perform argument.steps s) := by
  rw [Argument.render_eq, h, argument.taken_of_text h]

theorem Argument.render_flat (argument : Argument) (flat : argument.steps = []) (s : System) :
    argument.render s = (argument.text, s) := by
  have none : argument.taken = [] := List.prefix_nil.mp (flat ▸ argument.taken_prefix)
  rw [Argument.render_eq, none]
  rfl

/-! ## What holds at every moment -/

/-- What no change destroys, and does not depend on who is running or on the notes of nested steps, holds at every
    moment of a run in which it holds at first. -/
theorem play_induction {P : System.Loaded → Prop} (change : ∀ x y, System.Change x y → P x → P y)
    (running : ∀ (s : System) (l : List Nat), P ([], s) → P ([], { s with running := l }))
    (note : ∀ (s : System) (r : Reply), P ([], s) → P ([], s.note r))
    (actions : List Action) (s : System) (h : P ([], s)) : P ([], play actions s) := by
  have changes : ∀ {x y}, System.Changes x y → P x → P y := by
    intro x y chain hx
    induction chain with
    | refl => exact hx
    | tail _ last ih => exact change _ _ last ih
  induction actions generalizing s with
  | nil => exact h
  | cons a rest ih =>
    apply ih
    cases a with
    | op o => exact changes (System.Changes.op s o) h
    | enter m => exact running s _ h
    | note r => exact note s r h
    | send m r =>
      have sent := changes (System.Changes.dispatch [] s.leave m r) (running s s.running.tail h)
      exact changes (System.Changes.release [] _ m) sent
    | giveUp m => exact changes (System.Changes.release [] s.leave m) (running s s.running.tail h)

end LogFanout
