import LogFanout.Proofs.Aside

/- The same steps within a formatted write and without it.

   While the argument of a formatted write is being rendered, the write holds on to its manager. That is all that the
   steps in the argument have of it. Without the write they would find the same system, unless they take the manager away
   from everybody else: then its sinks go at once, and otherwise only when the write has come to an end.

   `System.Within` compares a system within a write to the same system without it, and every step preserves it
   (`Step.run_within`). What moves no manager commutes with `System.aside`; the rest is put together from handles that are
   put and forgotten, managers that come and go, and managers that are let go of. Only the last makes a difference
   (`System.Within.release`). -/
namespace LogFanout

/-! ## Two systems -/

namespace System

/-- A system within a write that holds on to the manager `m`, and the same system without this write: the same is heard of
    them, but for the running calls, and for the sinks of the manager if only the write has it still. -/
structure Within (m : Nat) (g : Option Nat) (u v : System) : Prop where
  busy : u.Busy m
  same : v.heard = (u.aside v.running g).heard
  others : ∀ n, n ≠ m → (n ∈ v.running ↔ n ∈ u.running)
  gone : ∀ n, g = some n → n = m ∧ u.Unkept m ∧ m ∉ v.running

/-- Outcomes of something that is done within a write, and without it. -/
def WithinOutcome {α : Type} (m : Nat) (x y : α × System) : Prop := y.1 = x.1 ∧ ∃ g, Within m g x.2 y.2

namespace Within

variable {m : Nat} {g : Option Nat} {u v : System}

theorem free (h : Within m g u v) : ∀ n, g = some n → u.Unkept n := by
  intro n gone
  obtain ⟨rfl, unkept, _⟩ := h.gone n gone
  exact unkept

theorem known (h : Within m g u v) : ∀ n, g = some n → n < u.managers.length := by
  intro n gone
  obtain ⟨rfl, _⟩ := h.gone n gone
  exact h.busy.2

theorem slot (h : Within m g u v) : v.slot = u.slot := congrArg (fun s => s.slot) h.same

theorem handles (h : Within m g u v) : v.handles = u.handles := congrArg (fun s => s.handles) h.same

theorem inUse_iff (h : Within m g u v) (n : Nat) :
    v.inUse n = true ↔ u.slot = some n ∨ n ∈ u.handles.values ∨ n ∈ v.running := by
  rw [System.inUse_iff, h.slot, h.handles]

/-- What comes to the same within the write and without it, and neither looks at the journal nor moves running calls. -/
theorem map {α : Type} (h : Within m g u v) {f : System → α × System}
    (framed : ∀ (s : System) (old : List Event), f (s.frame old fun _ => true) = onto old (fun _ => true) (f s))
    (commutes : f (u.aside v.running g) = putAside v.running g (f u)) (running : (f u).2.running = u.running)
    (length : u.managers.length ≤ (f u).2.managers.length) (free : g = some m → (f u).2.Unkept m) :
    (f v).1 = (f u).1 ∧ Within m g (f u).2 (f v).2 := by
  obtain ⟨answer, heard⟩ := heard_map framed (t := u.aside v.running g) h.same
  rw [commutes] at answer heard
  have still : (f v).2.running = v.running := congrArg (fun s => s.running) heard
  refine ⟨answer, ?_, ?_, ?_, ?_⟩
  · exact ⟨by rw [running]; exact h.busy.1, Nat.lt_of_lt_of_le h.busy.2 length⟩
  · rw [still]
    exact heard
  · rw [running, still]
    exact h.others
  · intro n gone
    obtain ⟨rfl, _, unused⟩ := h.gone n gone
    exact ⟨rfl, free gone, by rwa [still]⟩

theorem step (h : Within m g u v) {f : System → System}
    (framed : ∀ (s : System) (old : List Event), f (s.frame old fun _ => true) = (f s).frame old fun _ => true)
    (commutes : f (u.aside v.running g) = (f u).aside v.running g) (running : (f u).running = u.running)
    (length : u.managers.length ≤ (f u).managers.length) (free : g = some m → (f u).Unkept m) :
    Within m g (f u) (f v) :=
  (h.map (f := fun s => ((), f s)) (fun s old => congrArg (Prod.mk ()) (framed s old))
    (congrArg (Prod.mk ()) commutes) running length free).2

theorem same_reply {α : Type} (h : Within m g u v) (a : α) : WithinOutcome m (a, u) (a, v) := ⟨rfl, g, h⟩

/-- Notes are not heard. -/
theorem note_left (h : Within m g u v) (r : Reply) : Within m g (u.note r) v := by
  refine ⟨h.busy, ?_, h.others, h.gone⟩
  rw [h.same]
  exact (heard_note (s := u.aside v.running g) r).symm

theorem note_right (h : Within m g u v) (r : Reply) : Within m g u (v.note r) :=
  ⟨h.busy, (heard_note r).trans h.same, h.others, h.gone⟩

/-! ### Letting go of a manager -/

/-- A manager that is let go of keeps its sinks within the write if it is the one that the write holds on to. -/
theorem release (h : Within m g u v) (n : Nat) : ∃ g', Within m g' (u.release n) (v.release n) := by
  by_cases same : n = m
  · subst same
    have kept : u.release n = u := by
      rw [System.release, inUse_of_running h.busy.1, if_pos rfl]
    rw [kept]
    cases used : v.inUse n with
    | true =>
      rw [System.release, used, if_pos rfl]
      exact ⟨g, h⟩
    | false =>
      -- without the write nobody has the manager any more
      have unused : (u.aside v.running g).inUse n = false :=
        (congrArg (fun s => s.inUse n) h.same).symm.trans used
      have known : n < (u.aside v.running g).managers.length := by
        rw [aside_managers_length]
        exact h.busy.2
      have heard : (v.release n).heard = (u.aside v.running (some n)).heard := by
        calc (v.release n).heard
            = ((u.aside v.running g).release n).heard :=
              heard_step (f := fun s => s.release n) (fun s old => release_frame s old _ n) h.same
          _ = ((u.aside v.running g).aside v.running (some n)).heard := release_unused known unused
          _ = (u.aside v.running (some n)).heard := by rw [aside_aside u _ _ fun k gone => (h.gone k gone).1]
      refine ⟨some n, h.busy, ?_, ?_, ?_⟩
      · rw [release_running]
        exact heard
      · rw [release_running]
        exact h.others
      · rintro k ⟨⟩
        have nobody := mt (h.inUse_iff n).mpr (Bool.eq_false_iff.mp used)
        rw [not_or, not_or] at nobody
        rw [release_running]
        exact ⟨rfl, ⟨nobody.1, nobody.2.1⟩, nobody.2.2⟩
  · refine ⟨g, h.step (f := fun s => s.release n) (fun s old => release_frame s old _ n) ?_ ?_ ?_ ?_⟩
    · have other : g ≠ some n := fun gone => same (h.gone n gone).1
      exact release_aside u v.running other (h.others n same)
    · exact release_running u n
    · exact Nat.le_of_eq (release_length u n).symm
    · intro gone
      rw [Unkept, release_slot, release_handles]
      exact h.free m gone

theorem putHandle (h : Within m g u v) (name : String) {n : Nat} (other : g ≠ some n) :
    Within m g { u with handles := u.handles.put name n } { v with handles := v.handles.put name n } := by
  refine h.step (f := fun s => { s with handles := s.handles.put name n }) (fun _ _ => rfl) rfl rfl (Nat.le_refl _) ?_
  intro gone
  have unkept := h.free m gone
  refine ⟨unkept.1, fun member => ?_⟩
  rcases Table.mem_values_put member with same | before
  · exact other (gone.trans (congrArg some same))
  · exact unkept.2 before

theorem keepHandle (h : Within m g u v) (name : String) {n : Nat} (other : g ≠ some n) :
    ∃ g', Within m g' (u.keepHandle name n) (v.keepHandle name n) := by
  have kept := h.putHandle name other
  simp only [System.keepHandle, h.handles] at kept ⊢
  split
  · exact ⟨g, kept⟩
  · exact kept.release _

theorem dropHandle (h : Within m g u v) (name : String) : WithinOutcome m (u.dropHandle name) (v.dropHandle name) := by
  have erased : Within m g { u with handles := u.handles.erase name } { v with handles := v.handles.erase name } := by
    refine h.step (f := fun s => { s with handles := s.handles.erase name }) (fun _ _ => rfl) rfl rfl (Nat.le_refl _) ?_
    intro gone
    have unkept := h.free m gone
    exact ⟨unkept.1, fun member => unkept.2 (Table.mem_values_erase member)⟩
  simp only [System.dropHandle, h.handles] at erased ⊢
  split
  · exact h.same_reply false
  · exact ⟨rfl, erased.release _⟩

/-! ### Managers that come and go -/

theorem obtain (h : Within m g u v) (source : Source) :
    (obtain source v).1 = (obtain source u).1 ∧ Within m g (obtain source u).2 (obtain source v).2 := by
  have managers := obtain_managers (s := u) source
  refine h.map (fun s old => s.obtain_frame old _ fun _ _ => rfl) (obtain_aside u _ _ source) managers.2.2 ?_ ?_
  · exact Nat.le_of_eq (congrArg List.length managers.1).symm
  · exact fun gone => (h.free m gone).of_quiet (.obtain u source)

theorem withSink (h : Within m g u v) {source : Source} {f : Sink → System → Reply × System}
    (later : ∀ sink {t t'}, Within m g t t' → WithinOutcome m (f sink t) (f sink t')) :
    WithinOutcome m (u.withSink source f) (v.withSink source f) := by
  obtain ⟨same, after⟩ := h.obtain source
  unfold System.withSink
  generalize System.obtain source u = x at same after ⊢
  generalize System.obtain source v = y at same after ⊢
  obtain ⟨made, t⟩ := x
  obtain ⟨made', t'⟩ := y
  obtain rfl : made' = made := same
  cases made' with
  | error r => exact after.same_reply r
  | ok sink => exact later sink after

theorem newManager (h : Within m g u v) (sinks : List Sink) :
    (v.newManager sinks).1 = (u.newManager sinks).1 ∧ Within m g (u.newManager sinks).2 (v.newManager sinks).2 := by
  refine h.map (f := fun s => s.newManager sinks) (fun s old => s.newManager_frame old _ sinks) ?_ rfl ?_ ?_
  · exact Prod.ext (u.aside_managers_length _ g) (u.append_aside _ h.known _)
  · simp [System.newManager]
  · exact fun gone => h.free m gone

theorem newest (h : Within m g u v) : g ≠ some u.managers.length := by
  intro gone
  have inside := h.known _ gone
  omega

theorem found (h : Within m g u v) (sinks : List Sink) (name : String) :
    ∃ g', Within m g' ((u.newManager sinks).2.keepHandle name (u.newManager sinks).1)
      ((v.newManager sinks).2.keepHandle name (v.newManager sinks).1) := by
  obtain ⟨number, made⟩ := h.newManager sinks
  rw [number]
  exact made.keepHandle name h.newest

theorem install (h : Within m g u v) (sink : Sink) :
    (v.install sink).1 = (u.install sink).1 ∧ Within m g (u.install sink).2 (v.install sink).2 := by
  refine h.map (f := fun s => s.install sink) (fun s old => s.install_frame old _ sink) ?_ rfl ?_ ?_
  · have seated : (u.aside v.running g).managers.length = u.managers.length := u.aside_managers_length _ g
    refine Prod.ext seated ?_
    have grown := u.append_aside v.running h.known (.ofSinks [sink] .shared)
    simp only [System.install, seated]
    exact congrArg (fun s : System => { s with slot := some u.managers.length, processFlag := true }) grown
  · simp [System.install]
  · exact fun gone => ⟨fun seated => h.newest (gone.trans seated.symm), (h.free m gone).2⟩

theorem withdraw (h : Within m g u v) : Within m g u.withdraw v.withdraw := by
  refine h.step (fun s old => s.withdraw_frame old _) ?_ (Changes.withdraw [] u).running_eq ?_ ?_
  · cases seated : u.slot with
    | none => simp only [System.withdraw, aside_slot, seated]
    | some n =>
      simp only [System.withdraw, aside_slot, seated]
      exact retire_aside { u with slot := none } _ (not_gone h.free .process seated)
  · unfold System.withdraw
    split
    · exact Nat.le_refl _
    · unfold retire
      split
      · exact Nat.le_refl _
      · exact Nat.le_of_eq List.length_set.symm
  · intro gone
    rw [Unkept, Changes.withdraw_slot, withdraw_handles]
    exact ⟨by rintro ⟨⟩, (h.free m gone).2⟩

end Within

end System

open LogFanout.System (Within WithinOutcome)

/-- An operation comes to the same within a write and without it. -/
theorem Op.run_within (o : Op) {m : Nat} {g : Option Nat} {u v : System} (h : Within m g u v) :
    WithinOutcome m (o.run u) (o.run v) := by
  have framed (s : System) (old : List Event) :
      o.run (s.frame old fun _ => true) = System.onto old (fun _ => true) (o.run s) :=
    Op.run_frame (fun _ _ => rfl) s old
  cases stays : o.staysPut with
  | true =>
    obtain ⟨reply, after⟩ := h.map framed (Op.run_aside stays h.free) (Step.run_running (.op o) u)
      (play_managers_length [.op o] u) fun gone => Op.run_unkept stays (h.free m gone)
    exact ⟨reply, g, after⟩
  | false =>
    cases o with
    | make name source => exact h.withSink fun sink t t' h => ⟨rfl, h.found [sink] name⟩
    | makeEmpty name => exact ⟨rfl, h.found [] name⟩
    | dropHandle name =>
      obtain ⟨was, after⟩ := h.dropHandle name
      exact ⟨congrArg Reply.truth was, after⟩
    | create source name =>
      obtain ⟨same, after⟩ := h.withdraw.obtain source
      simp only [Op.run, System.create]
      generalize System.obtain source u.withdraw = x at same after ⊢
      generalize System.obtain source v.withdraw = y at same after ⊢
      obtain ⟨made, t⟩ := x
      obtain ⟨made', t'⟩ := y
      obtain rfl : made' = made := same
      cases made' with
      | error r => exact after.same_reply r
      | ok sink =>
        obtain ⟨number, seated⟩ := after.install sink
        cases name with
        | none => exact ⟨rfl, g, seated⟩
        | some name =>
          refine ⟨rfl, ?_⟩
          show ∃ g', Within m g' ((t.install sink).2.keepHandle name (t.install sink).1)
            ((t'.install sink).2.keepHandle name (t'.install sink).1)
          rw [number]
          exact seated.keepHandle name after.newest
    | destroy => exact ⟨rfl, g, h.withdraw⟩
    | takeInstance name =>
      simp only [Op.run, h.slot]
      cases seated : u.slot with
      | none => exact h.same_reply _
      | some n => exact ⟨rfl, h.keepHandle name (System.not_gone h.free .process seated)⟩
    | _ => cases stays

/-! ## Steps in arguments -/

namespace System.Within

variable {m : Nat} {g : Option Nat} {u v : System}

theorem taker (h : Within m g u v) (whom : Address) (l : Level) : v.taker whom l = u.taker whom l := by
  have heard (s : System) : s.heard.taker whom l = s.taker whom l := by cases whom <;> rfl
  rw [← heard v, h.same, heard, taker_aside h.free]

theorem enter (h : Within m g u v) {n : Nat} (other : g ≠ some n) : Within m g (u.enter n) (v.enter n) := by
  refine ⟨⟨List.mem_cons_of_mem n h.busy.1, h.busy.2⟩, congrArg (fun s => s.enter n) h.same, ?_, ?_⟩
  · intro k different
    show k ∈ n :: v.running ↔ k ∈ n :: u.running
    rw [List.mem_cons, List.mem_cons, h.others k different]
  · intro k gone
    obtain ⟨rfl, unkept, unused⟩ := h.gone k gone
    have different : k ≠ n := fun same => other (gone.trans (congrArg some same))
    exact ⟨rfl, unkept, fun member => unused ((List.mem_cons.mp member).resolve_left different)⟩

/-- Another write that has held on to a manager in between comes to its end. -/
theorem leave (h : Within m g u v) {n : Nat} {r r' : List Nat} (running : u.running = n :: r)
    (running' : v.running = n :: r') (busy : m ∈ r) (others : ∀ k, k ≠ m → (k ∈ r' ↔ k ∈ r)) :
    Within m g u.leave v.leave := by
  have left : u.leave.running = r := congrArg List.tail running
  have left' : v.leave.running = r' := congrArg List.tail running'
  refine ⟨⟨left ▸ busy, h.busy.2⟩, ?_, ?_, ?_⟩
  · exact congrArg (fun s => s.leave) h.same
  · rw [left, left']
    exact others
  · intro k gone
    obtain ⟨rfl, unkept, unused⟩ := h.gone k gone
    exact ⟨rfl, unkept, fun member => unused (List.mem_of_mem_tail member)⟩

theorem dispatch (h : Within m g u v) {n : Nat} (other : g ≠ some n) (record : Record) :
    Within m g (u.dispatch n record) (v.dispatch n record) := by
  have quiet : u.Quiet (u.dispatch n record) := .fanOut u n (.write record)
  refine h.step (f := fun s => s.dispatch n record) (fun s old => s.dispatch_frame old _ n record)
    (u.fanOut_aside _ other _) quiet.running ?_ fun gone => (h.free m gone).of_quiet quiet
  unfold System.dispatch System.fanOut
  split
  · exact Nat.le_refl _
  · exact Nat.le_of_eq List.length_set.symm

end System.Within

mutual

/-- A step comes to the same within a write and without it, whatever is in its own argument. -/
theorem Step.run_within : ∀ (step : Step) {m : Nat} {g : Option Nat} {u v : System}, Within m g u v →
    WithinOutcome m (step.run u) (step.run v)
  | .op o, _, _, _, _, h => o.run_within h
  | .format whom l node argument, m, g, u, v, h => by
    have same := h.taker whom l
    cases taken : u.taker whom l with
    | error r =>
      simp only [Step.run, taken, same.trans taken]
      exact h.same_reply r
    | ok taker =>
      cases taker with
      | none =>
        simp only [Step.run, taken, same.trans taken]
        exact h.same_reply _
      | some n =>
        have other : g ≠ some n := System.not_gone h.free whom (System.reach_of_taker taken)
        obtain ⟨answer, g', after⟩ := Argument.render_within argument (h.enter other)
        have running := argument.render_running (u.enter n)
        have running' := argument.render_running (v.enter n)
        rw [Step.run_format taken, Step.run_format (same.trans taken)]
        generalize argument.render (u.enter n) = x at answer after running ⊢
        generalize argument.render (v.enter n) = y at answer after running' ⊢
        obtain ⟨text, t⟩ := x
        obtain ⟨text', t'⟩ := y
        obtain rfl : text' = text := answer
        -- the manager of the inner write has not been let go of while that write had it
        have kept : g' ≠ some n := by
          intro gone
          obtain ⟨rfl, _, unused⟩ := after.gone n gone
          have running' : t'.running = n :: v.running := running'
          exact unused (by simp [running'])
        have left : Within m g' t.leave t'.leave := after.leave running running' h.busy.1 h.others
        cases text' with
        | none => exact ⟨rfl, left.release n⟩
        | some text => exact ⟨rfl, (left.dispatch kept ⟨l, node, text⟩).release n⟩

theorem Argument.render_within : ∀ (argument : Argument) {m : Nat} {g : Option Nat} {u v : System}, Within m g u v →
    WithinOutcome m (argument.render u) (argument.render v)
  | .done, _, _, _, _, h => h.same_reply (some "")
  | .piece p rest, m, g, u, v, h => by
    cases rendered : p.render with
    | none =>
      simp only [Argument.render, rendered]
      exact h.same_reply none
    | some text =>
      obtain ⟨same, after⟩ := Argument.render_within rest h
      simp only [Argument.render, rendered]
      generalize rest.render u = x at same after ⊢
      generalize rest.render v = y at same after ⊢
      obtain ⟨more, t⟩ := x
      obtain ⟨more', t'⟩ := y
      obtain rfl : more' = more := same
      cases more' with
      | none => exact ⟨rfl, after⟩
      | some more => exact ⟨rfl, after⟩
  | .take step rest, m, g, u, v, h => by
    obtain ⟨reply, g', after⟩ := Step.run_within step h
    rw [Argument.render_take, Argument.render_take, reply]
    exact Argument.render_within rest ((after.note_left _).note_right _)

end

/-- The steps in an argument come to what they would come to on their own. -/
theorem perform_within (steps : List Step) {m : Nat} {g : Option Nat} {u v : System} (h : Within m g u v) :
    ∃ g', Within m g' (perform steps u) (runAll steps v).2 := by
  induction steps generalizing g u v with
  | nil => exact ⟨g, h⟩
  | cons step rest ih =>
    obtain ⟨_, g', after⟩ := step.run_within h
    exact ih (after.note_left _)

end LogFanout
