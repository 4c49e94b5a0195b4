import LogFanout.Proofs.FanOut
import LogFanout.Proofs.Reentry

/- Who has a manager.

   A manager that has sinks is in use: the slot, a handle or a running call has it (`System.Kept`). An operation that takes
   a manager from one of these looks whether it was the last, and lets go of the sinks if so; in between the manager is
   loose. Formatted writes come to an end in the reverse order of their beginnings (`Fits`), so the call that ends is the
   one that has held on to the manager last. -/
namespace LogFanout

namespace System

variable {s t : System} {loose : List Nat}

theorem inUse_iff {m : Nat} : s.inUse m = true ↔ s.slot = some m ∨ m ∈ s.handles.values ∨ m ∈ s.running := by
  simp [inUse, or_assoc]

/-- What is in use stays in use if everybody who has it keeps it. -/
theorem inUse_mono {m : Nat} (used : s.inUse m = true) (slot : s.slot = some m → t.slot = some m)
    (handles : m ∈ s.handles.values → m ∈ t.handles.values) (running : m ∈ s.running → m ∈ t.running) :
    t.inUse m = true :=
  inUse_iff.mpr ((inUse_iff.mp used).imp slot (Or.imp handles running))

theorem ids_release_unused {m : Nat} (unused : s.inUse m = false) : (s.release m).ids m = [] := by
  simp only [System.release, unused, Bool.false_eq_true, if_false]
  split
  · rename_i unknown
    simp only [ids, unknown]
  · rename_i manager found
    exact (ids_setManager (s := s.discard manager.sinks) found _ m).trans (if_pos rfl)

theorem release_inUse (m n : Nat) : (s.release m).inUse n = s.inUse n := by
  unfold System.release
  split
  · rfl
  · split <;> rfl

theorem release_handles (m : Nat) : (s.release m).handles = s.handles := by
  unfold System.release
  split
  · rfl
  · split <;> rfl

theorem release_slot (m : Nat) : (s.release m).slot = s.slot := by
  unfold System.release
  split
  · rfl
  · split <;> rfl

theorem keepHandle_handles (name : String) (m : Nat) : (s.keepHandle name m).handles = s.handles.put name m := by
  unfold keepHandle
  split
  · rfl
  · exact release_handles (s := { s with handles := s.handles.put name m }) _

theorem keepHandle_slot (name : String) (m : Nat) : (s.keepHandle name m).slot = s.slot := by
  unfold keepHandle
  split
  · rfl
  · exact release_slot (s := { s with handles := s.handles.put name m }) _

theorem keepHandle_reach (name : String) (m : Nat) : (s.keepHandle name m).reach (.handle name) = some m := by
  simp only [reach, keepHandle_handles, Table.get?_put, if_true]

theorem ids_retire (m n : Nat) : (s.retire m).ids n = if m = n then [] else s.ids n := by
  unfold System.retire
  split
  · rename_i unknown
    split
    · rename_i same
      simp only [ids, ← same, unknown]
    · rfl
  · rename_i manager found
    exact ids_setManager (s := { s with world := (World.deliver .flush manager.sinks s.world).2 }.discard _) found _ n

/-- Every manager with sinks is in use, except those that are loose. -/
structure Kept (loose : List Nat) (s : System) : Prop where
  names : s.handles.keys.Nodup
  used : ∀ m, m ∉ loose → s.ids m ≠ [] → s.inUse m = true

namespace Kept

theorem quiet (h : Kept loose s) (quiet : s.Quiet t) : Kept loose t where
  names := quiet.handles ▸ h.names
  used := by
    intro m tight some
    rw [quiet.ids] at some
    rw [quiet.inUse]
    exact h.used m tight some

theorem loosen (h : Kept [] s) : Kept loose s := ⟨h.names, fun m _ some => h.used m List.not_mem_nil some⟩

/-- A manager that was loose is in use after all, or lets go of its sinks. -/
theorem release {m : Nat} (h : Kept (m :: loose) s) : Kept loose (s.release m) where
  names := by
    rw [release_handles]
    exact h.names
  used := by
    intro n tight some
    rw [release_inUse]
    by_cases same : m = n
    · subst same
      cases used : s.inUse m with
      | true => rfl
      | false => exact absurd (ids_release_unused used) some
    · rw [ids_release_other same] at some
      exact h.used n (by simp [Ne.symm same, tight]) some

/-- A manager whose handle takes the place of another is not loose, and the other one lets go if that was all. -/
theorem keepHandle {m : Nat} (h : Kept [m] s) (name : String) : Kept [] (s.keepHandle name m) := by
  unfold System.keepHandle
  have names : (s.handles.put name m).keys.Nodup := Table.keys_put_nodup h.names name m
  cases there : s.handles.get? name with
  | none =>
    have now := Table.values_put_new there m
    refine ⟨names, fun n _ some => ?_⟩
    by_cases same : n = m
    · exact inUse_iff.mpr (.inr (.inl (by simp [now, same])))
    · refine inUse_mono (h.used n (by simpa using same) some) id (fun handle => ?_) id
      rw [now]
      exact List.mem_append_left _ handle
  | some old =>
    obtain ⟨before, after, was, now⟩ := Table.values_put_old there m
    apply release
    refine ⟨names, fun n tight some => ?_⟩
    by_cases same : n = m
    · exact inUse_iff.mpr (.inr (.inl (by simp [now, same])))
    · refine inUse_mono (h.used n (by simpa using same) some) id (fun handle => ?_) id
      have other : n ≠ old := by simpa using tight
      rw [was] at handle
      rw [now]
      simpa [same, other] using handle

theorem dropHandle (h : Kept [] s) (name : String) : Kept [] (s.dropHandle name).2 := by
  unfold System.dropHandle
  cases there : s.handles.get? name with
  | none => exact h
  | some m =>
    obtain ⟨before, after, was, now⟩ := Table.values_erase h.names there
    apply release
    refine ⟨Table.keys_erase_nodup h.names name, fun n tight some => ?_⟩
    refine inUse_mono (h.used n List.not_mem_nil some) id (fun handle => ?_) id
    have other : n ≠ m := by simpa using tight
    rw [was] at handle
    rw [now]
    simpa [other] using handle

/-- A manager that has just been made is loose until somebody keeps it. -/
theorem newManager (h : Kept [] s) (sinks : List Sink) : Kept [s.managers.length] (s.newManager sinks).2 where
  names := h.names
  used := by
    intro m tight some
    have other : m ≠ s.managers.length := by simpa using tight
    rw [ids_push (t := (s.newManager sinks).2) rfl other] at some
    exact h.used m List.not_mem_nil some

theorem install (h : Kept [] s) (vacant : s.slot = none) (sink : Sink) : Kept [] (s.install sink).2 where
  names := h.names
  used := by
    intro m _ some
    by_cases same : m = s.managers.length
    · exact inUse_iff.mpr (.inl (by rw [same]; rfl))
    · rw [ids_push (t := (s.install sink).2) rfl same] at some
      refine inUse_mono (h.used m List.not_mem_nil some) (fun slot => ?_) id id
      rw [vacant] at slot
      cases slot

theorem withdraw (h : Kept [] s) : Kept [] s.withdraw := by
  unfold System.withdraw
  split
  · exact h
  · rename_i m seated
    have rest : ({ s with slot := none }.retire m).handles = s.handles ∧
        ({ s with slot := none }.retire m).running = s.running := by
      unfold System.retire
      split <;> exact ⟨rfl, rfl⟩
    refine ⟨by rw [rest.1]; exact h.names, fun n _ some => ?_⟩
    rw [ids_retire] at some
    split at some
    · exact absurd rfl some
    · rename_i other
      have elsewhere (slot : s.slot = Option.some n) : m = n := Option.some.inj (seated.symm.trans slot)
      refine inUse_mono (h.used n List.not_mem_nil some) (fun slot => absurd (elsewhere slot) other) ?_ ?_
      · rw [rest.1]
        exact id
      · rw [rest.2]
        exact id

theorem register {m : Nat} (h : Kept [] s) (used : s.inUse m = true) (sink : Sink) (append : Bool) :
    Kept [] (s.register m sink append).2 := by
  have dropped (sinks : List Sink) : Kept [] (s.discard sinks) := h.quiet (.of_eq rfl rfl rfl rfl)
  unfold System.register
  split
  · exact dropped [sink]
  · rename_i manager found
    split
    · exact dropped [sink]
    · -- the others have the sinks that they had
      have joined {t : System} (quiet : s.Quiet t) (there : t.managers[m]? = some manager) (new : Manager) :
          Kept [] (t.setManager m new) := by
        refine ⟨quiet.handles ▸ h.names, fun n _ some => ?_⟩
        have same : (t.setManager m new).inUse n = s.inUse n := quiet.inUse n
        rw [same]
        rw [ids_setManager there, quiet.ids] at some
        split at some
        · rename_i here
          exact here ▸ used
        · exact h.used n List.not_mem_nil some
      cases append
      · exact joined (t := s.discard manager.sinks) (.of_eq rfl rfl rfl rfl) found _
      · exact joined (.refl s) found _

end Kept
end System

/-! ## Operations -/

open LogFanout.System (Kept Quiet)

theorem Op.run_kept (o : Op) {s : System} (h : Kept [] s) : Kept [] (o.run s).2 := by
  have sink {source : Source} {f : Sink → System → Reply × System}
      (kept : ∀ sink t, s.Quiet t → Kept [] t → Kept [] (f sink t).2) : Kept [] (s.withSink source f).2 := by
    have fetched := Quiet.obtain s source
    unfold System.withSink
    generalize System.obtain source s = outcome at fetched ⊢
    obtain ⟨made, t⟩ := outcome
    cases made with
    | error r => exact h.quiet fetched
    | ok sink => exact kept sink t fetched (h.quiet fetched)
  cases kind : o.quiet with
  | true => exact h.quiet (o.run_quiet kind s)
  | false =>
    cases o with
    | make name source => exact sink fun sink t _ kept => (kept.newManager [sink]).keepHandle name
    | makeEmpty name => exact (h.newManager []).keepHandle name
    | dropHandle name => exact h.dropHandle name
    | create source name =>
      have ended := h.withdraw
      have fetched := Quiet.obtain s.withdraw source
      have vacant := fetched.slot.trans (System.Changes.withdraw_slot s)
      simp only [Op.run, System.create]
      generalize System.obtain source s.withdraw = outcome at fetched vacant ⊢
      obtain ⟨made, t⟩ := outcome
      cases made with
      | error r => exact ended.quiet fetched
      | ok sink =>
        have installed := (ended.quiet fetched).install vacant sink
        cases name with
        | none => exact installed
        | some name => exact installed.loosen.keepHandle name
    | destroy => exact h.withdraw
    | takeInstance name =>
      simp only [Op.run]
      split
      · exact h
      · exact h.loosen.keepHandle name
    | register whom source append =>
      cases reached : s.reach whom with
      | none =>
        cases whom with
        | handle name =>
          have missing : s.handles.get? name = none := reached
          simp only [Op.run, System.withHandle, missing]
          exact h
        | process =>
          refine sink fun sink t quiet kept => ?_
          have vacant : t.slot = none := quiet.slot.trans reached
          simp only [System.registerInstance, vacant]
          exact kept.quiet (.of_eq rfl rfl rfl rfl)
      | some m =>
        rw [System.run_register reached]
        refine sink fun sink t quiet kept => ?_
        have used : t.inUse m = true := (quiet.inUse m).trans (System.inUse_of_reach reached)
        exact kept.register used sink append
    | _ => cases kind

/-! ## Calls that end -/

/-- A formatted write that ends is the one that has begun last. -/
def Action.Fits : Action → System → Prop
  | .send m _, s | .giveUp m, s => s.running.head? = some m
  | _, _ => True

def Fits : List Action → System → Prop
  | [], _ => True
  | a :: rest, s => a.Fits s ∧ Fits rest (a.act s)

theorem fits_append {p q : List Action} {s : System} : Fits (p ++ q) s ↔ Fits p s ∧ Fits q (play p s) := by
  induction p generalizing s with
  | nil => simp [Fits]
  | cons a p ih => simp [Fits, ih, and_assoc]

mutual

theorem Step.course_fits : ∀ (step : Step) (s : System), Fits (step.course s) s
  | .op _, _ => ⟨trivial, trivial⟩
  | .format whom l node argument, s => by
    cases taken : s.taker whom l with
    | error r => simp [Step.course, taken, Fits]
    | ok taker =>
      cases taker with
      | none => simp [Step.course, taken, Fits]
      | some m =>
        have running : (play (argument.course (s.enter m)) (s.enter m)).running = m :: s.running := by
          rw [Argument.play_course, Argument.render_running]
          rfl
        simp only [Step.course, taken, List.cons_append]
        refine ⟨trivial, fits_append.mpr ⟨Argument.course_fits argument (s.enter m), ?_, trivial⟩⟩
        show Action.Fits _ (play (argument.course (s.enter m)) (s.enter m))
        split <;> simp [Action.Fits, running]

theorem Argument.course_fits : ∀ (argument : Argument) (s : System), Fits (argument.course s) s
  | .done, _ => trivial
  | .piece p rest, s => by
    simp only [Argument.course]
    split
    · trivial
    · exact Argument.course_fits rest s
  | .take step rest, s => by
    refine fits_append.mpr ⟨Step.course_fits step s, trivial, ?_⟩
    rw [Step.play_course]
    exact Argument.course_fits rest _

end

theorem course_fits (steps : List Step) (s : System) : Fits (course steps s) s := by
  induction steps generalizing s with
  | nil => trivial
  | cons step rest ih =>
    refine fits_append.mpr ⟨step.course_fits s, ?_⟩
    rw [Step.play_course]
    exact ih _

theorem Action.act_kept {a : Action} {s : System} (fits : a.Fits s) (h : Kept [] s) : Kept [] (a.act s) := by
  -- the manager of the call that ends is loose until it has been looked at
  have left {m : Nat} (last : s.running.head? = some m) : Kept [m] s.leave := by
    refine ⟨h.names, fun n tight some => ?_⟩
    refine System.inUse_mono (h.used n List.not_mem_nil some) id id fun running => ?_
    have other : n ≠ m := by simpa using tight
    obtain ⟨others, parts⟩ := List.head?_eq_some_iff.mp last
    rw [parts] at running
    have still : n ∈ others := by simpa [other] using running
    simpa [System.leave, parts] using still
  cases a with
  | op o => exact o.run_kept h
  | enter m =>
    refine ⟨h.names, fun n _ some => ?_⟩
    exact System.inUse_mono (h.used n List.not_mem_nil some) id id (List.mem_cons_of_mem m)
  | note r => exact h.quiet (.of_eq rfl rfl rfl rfl)
  | send m r => exact ((left fits).quiet (.fanOut s.leave m (.write r))).release
  | giveUp m => exact (left fits).release

theorem play_kept {p : List Action} {s : System} (fits : Fits p s) (h : Kept [] s) : Kept [] (play p s) := by
  induction p generalizing s with
  | nil => exact h
  | cons a p ih => exact ih fits.2 (Action.act_kept fits.1 h)

/-- At every moment of every run a manager that has sinks is in use. -/
theorem course_kept (stamp : String) (steps : List Step) (n : Nat) :
    Kept [] (play ((course steps (.fresh stamp)).take n) (.fresh stamp)) := by
  have whole := course_fits steps (.fresh stamp)
  rw [← List.take_append_drop n (course steps (.fresh stamp))] at whole
  exact play_kept (fits_append.mp whole).1 ⟨List.nodup_nil, fun m _ some => absurd rfl some⟩

end LogFanout
