import LogFanout.Proofs.Keeping
import LogFanout.Proofs.LastWriter

/- The list of a manager, and the ends of lists.

   A list begins with the sink that its manager is made with, if there is one. A sink that is registered joins it or takes
   the place of all that are there (`roster`). Nothing else changes the list of a manager that is in use and has not been
   torn down (`Action.ids_act`), and a manager that nobody has any more is never in use again (`Action.inUse_act`); so the
   list is what the registrations in the run have made of it.

   A list ends in two ways. The sinks that another takes the place of are dropped in their order and without a flush. With
   the instance its sinks are flushed in their order, and then dropped in their order; `create` makes the next sink only
   after that. `replacement` has all of this. -/
namespace LogFanout

def enlist (list : List Nat) : Nat × Bool → List Nat
  | (k, true) => list ++ [k]
  | (k, false) => [k]

/-! ## Teardown -/

namespace System

variable {s t : System} {m : Nat}

theorem ids_out (out : s.managers[m]? = none) : s.ids m = [] := by simp only [ids, out]

def instanceIds (s : System) : List Nat := s.slot.elim [] s.ids

/-- When the instance is torn down, all its sinks are flushed, and then all are dropped. -/
theorem withdraw_journal (s : System) :
    s.withdraw.world.journal =
      s.world.journal ++ s.instanceIds.map (.called · .flush) ++ s.instanceIds.map .dropped := by
  unfold System.withdraw instanceIds
  cases seated : s.slot with
  | none => simp
  | some m =>
    simp only [Option.elim_some]
    unfold retire
    split
    · rename_i unknown
      simp [ids_out (show s.managers[m]? = none from unknown)]
    · rename_i manager found
      have sinks : s.ids m = manager.sinks.map Sink.id := ids_of found
      have dropped : (World.deliver .flush manager.sinks s.world).1.map (fun sink => Event.dropped sink.id) =
          (s.ids m).map .dropped := by
        rw [sinks, ← World.deliver_ids .flush manager.sinks s.world, List.map_map]
        rfl
      show (World.deliver .flush manager.sinks s.world).2.journal ++ _ = _
      rw [dropped, World.deliver_journal, sinks]
      simp only [List.map_map, Function.comp_def]

theorem withdraw_handles (s : System) : s.withdraw.handles = s.handles := by
  unfold System.withdraw
  split
  · rfl
  · unfold retire
    split <;> rfl

theorem ids_withdraw (s : System) (n : Nat) : s.withdraw.ids n = if s.slot = some n then [] else s.ids n := by
  unfold System.withdraw
  split
  · rename_i vacant
    simp [vacant]
  · rename_i m seated
    rw [ids_retire, seated]
    simp only [Option.some.injEq]
    rfl

theorem withdraw_withdraw (s : System) : s.withdraw.withdraw = s.withdraw := by
  have vacant := Changes.withdraw_slot s
  rw [System.withdraw, vacant]

/-! ## Registration -/

/-- A manager that is not retired takes a sink. If it takes the place of those that are there, they are dropped in their
    order; nothing else happens, and nobody is called. -/
theorem register_taken {manager : Manager} (found : s.managers[m]? = some manager) (active : manager.retired = false)
    (sink : Sink) (append : Bool) :
    (s.register m sink append).1 = true ∧
      (s.register m sink append).2.world.journal =
        s.world.journal ++ (if append then [] else (s.ids m).map .dropped) ∧
      ∀ n, (s.register m sink append).2.ids n = if m = n then enlist (s.ids m) (sink.id, append) else s.ids n := by
  have sinks := ids_of found
  cases append with
  | true =>
    have registered : s.register m sink true = (true, s.setManager m
        { manager with sinks := manager.sinks ++ [sink], count := (manager.sinks ++ [sink]).length }) := by
      simp only [register, found, active]
      rfl
    rw [registered]
    refine ⟨rfl, (List.append_nil _).symm, fun n => (ids_setManager found _ n).trans ?_⟩
    simp [sinks, enlist]
  | false =>
    have registered : s.register m sink false = (true, (s.discard manager.sinks).setManager m
        { manager with sinks := [sink], count := 1 }) := by
      simp only [register, found, active]
      rfl
    rw [registered, sinks, List.map_map]
    exact ⟨rfl, rfl, ids_setManager (s := s.discard manager.sinks) found _⟩

/-- A registration changes the list of the manager that takes the sink, and no other. -/
theorem register_ids (n m : Nat) (sink : Sink) (append : Bool) :
    (s.register n sink append).2.ids m =
      if n = m ∧ (s.register n sink append).1 = true then enlist (s.ids m) (sink.id, append) else s.ids m := by
  have refused (same : s.register n sink append = (false, s.discard [sink])) : (s.register n sink append).2.ids m =
      if n = m ∧ (s.register n sink append).1 = true then enlist (s.ids m) (sink.id, append) else s.ids m := by
    rw [same, if_neg (by simp)]
    rfl
  cases found : s.managers[n]? with
  | none => exact refused (by simp only [register, found])
  | some manager =>
    cases retired : manager.retired with
    | true => exact refused (by simp only [register, found, retired, if_true])
    | false =>
      obtain ⟨taken, _, ids⟩ := register_taken found retired sink append
      rw [taken, ids]
      by_cases here : n = m
      · simp [here]
      · simp [here]

end System

/-! ## Who is in use -/

namespace Table

variable {κ α : Type} [DecidableEq κ]

theorem mem_values_put {t : Table κ α} {k : κ} {v w : α} (h : w ∈ (t.put k v).values) : w = v ∨ w ∈ t.values := by
  cases there : t.get? k with
  | none =>
    rw [values_put_new there] at h
    simpa [or_comm] using h
  | some old =>
    obtain ⟨before, after, was, now⟩ := values_put_old there v
    rw [now] at h
    rw [was]
    simp only [List.mem_append, List.mem_cons] at h ⊢
    rcases h with h | h | h
    · exact .inr (.inl h)
    · exact .inl h
    · exact .inr (.inr (.inr h))

theorem mem_values_erase {t : Table κ α} {k : κ} {w : α} (h : w ∈ (t.erase k).values) : w ∈ t.values :=
  (List.filter_sublist.map Prod.snd).subset h

end Table

namespace System

variable {s t : System} {m : Nat}

theorem inUse_of_keepHandle {name : String} {n : Nat} (used : (s.keepHandle name n).inUse m = true) :
    m = n ∨ s.inUse m = true := by
  have kept : (s.keepHandle name n).inUse m = { s with handles := s.handles.put name n }.inUse m := by
    unfold keepHandle
    split
    · rfl
    · exact release_inUse (s := { s with handles := s.handles.put name n }) _ m
  rw [kept, inUse_iff] at used
  rcases used with slot | handle | running
  · exact .inr (inUse_iff.mpr (.inl slot))
  · exact (Table.mem_values_put handle).imp id fun old => inUse_iff.mpr (.inr (.inl old))
  · exact .inr (inUse_iff.mpr (.inr (.inr running)))

theorem inUse_of_dropHandle {name : String} (used : (s.dropHandle name).2.inUse m = true) : s.inUse m = true := by
  unfold dropHandle at used
  split at used
  · exact used
  · rw [release_inUse (s := { s with handles := s.handles.erase name })] at used
    exact inUse_mono used id Table.mem_values_erase id

theorem inUse_of_withdraw (used : s.withdraw.inUse m = true) : s.inUse m = true := by
  unfold System.withdraw at used
  split at used
  · exact used
  · unfold retire at used
    split at used <;> exact inUse_mono used (fun vacant => nomatch vacant) id id

theorem register_inUse (n : Nat) (sink : Sink) (append : Bool) : (s.register n sink append).2.inUse m = s.inUse m := by
  unfold register
  split
  · rfl
  · split
    · rfl
    · cases append <;> rfl

theorem ids_keepHandle_used {name : String} {n : Nat} (used : (s.keepHandle name n).inUse m = true) :
    (s.keepHandle name n).ids m = s.ids m := by
  unfold keepHandle at used ⊢
  cases there : s.handles.get? name with
  | none => rfl
  | some old =>
    simp only [there, release_inUse] at used
    exact ids_release used old

theorem ids_dropHandle_used {name : String} (used : (s.dropHandle name).2.inUse m = true) :
    (s.dropHandle name).2.ids m = s.ids m := by
  unfold dropHandle at used ⊢
  cases there : s.handles.get? name with
  | none => rfl
  | some n =>
    simp only [there, release_inUse] at used
    exact ids_release used n

/-! ## Managers that have been torn down -/

/-- No change takes back that a manager is retired. -/
theorem Change.retired {x y : Loaded} (change : Change x y) {was : Manager} (found : x.2.managers[m]? = some was)
    (retired : was.retired = true) : ∃ manager, y.2.managers[m]? = some manager ∧ manager.retired = true := by
  have bound := (List.getElem?_eq_some_iff.mp found).1
  -- a manager takes the place of another that is not retired, or is as retired as it
  have replaced {u : System} {n : Nat} {old new : Manager} (same : u.managers = x.2.managers)
      (there : x.2.managers[n]? = some old) (kept : old.retired = true → new.retired = true) :
      ∃ manager, (u.setManager n new).managers[m]? = some manager ∧ manager.retired = true := by
    by_cases here : n = m
    · subst here
      cases found.symm.trans there
      exact ⟨new, by simp [setManager, same, bound], kept retired⟩
    · exact ⟨was, by simpa [setManager, same, here] using found, retired⟩
  have added (newcomer : Manager) : ∃ manager, (x.2.managers ++ [newcomer])[m]? = some manager ∧ manager.retired = true :=
    ⟨was, by rw [List.getElem?_append_left bound]; exact found, retired⟩
  cases change with
  | fanOut hand s n c =>
    cases there : s.managers[n]? with
    | none =>
      simp only [System.fanOut, there]
      exact ⟨was, found, retired⟩
    | some manager =>
      rw [fanOut_some there]
      exact replaced rfl there id
  | setSwitch hand s n manager on there live =>
    simp only [System.setSwitch, there]
    split
    · exact ⟨was, found, retired⟩
    · exact replaced rfl there id
  | join hand s n manager sink there live => exact replaced rfl there id
  | clear hand s n manager there => exact replaced (u := s.discard manager.sinks) rfl there id
  | found sinks hand s => exact added _
  | install hand s sink vacant => exact added _
  | depose hand s n manager seated there bare => exact replaced (u := { s with slot := none }) rfl there fun _ => rfl
  | _ => exact ⟨was, found, retired⟩

end System

theorem play_retired (p : List Action) {s : System} (formed : s.WellFormed) {m : Nat} {was : Manager}
    (found : s.managers[m]? = some was) (retired : was.retired = true) :
    ∃ manager, (play p s).managers[m]? = some manager ∧ manager.retired = true ∧ (play p s).ids m = [] := by
  obtain ⟨manager, there, gone⟩ :=
    play_induction (P := fun x => ∃ manager, x.2.managers[m]? = some manager ∧ manager.retired = true)
      (fun _ _ change ⟨_, found, retired⟩ => change.retired found retired) (fun _ _ h => h) (fun _ _ h => h)
      p s ⟨was, found, retired⟩
  have sound := (play_wellFormed p formed).sound m manager there
  exact ⟨manager, there, gone, by rw [System.ids_of there, sound.bare gone]; rfl⟩

/-! ## The list of a manager -/

/-- A list after registrations, one after the other. -/
def roster (start : List Nat) (registered : List (Nat × Bool)) : List Nat := registered.foldl enlist start

/-- If all sinks join, they stand behind those that were there, in the order of their registrations. -/
theorem roster_joined {start : List Nat} {registered : List (Nat × Bool)} (joined : ∀ r ∈ registered, r.2 = true) :
    roster start registered = start ++ registered.map Prod.fst := by
  induction registered generalizing start with
  | nil => simp [roster]
  | cons r rest ih =>
    obtain ⟨k, append⟩ := r
    obtain ⟨rfl, others⟩ := List.forall_mem_cons.mp joined
    exact (ih others).trans (by simp [enlist])

/-- What was before the last sink that took the place of all others does not matter. -/
theorem roster_replaced {start : List Nat} {earlier later : List (Nat × Bool)} {k : Nat}
    (joined : ∀ r ∈ later, r.2 = true) :
    roster start (earlier ++ (k, false) :: later) = k :: later.map Prod.fst := by
  have rest : roster start (earlier ++ (k, false) :: later) = roster [k] later := by
    simp [roster, List.foldl_append, enlist]
  rw [rest, roster_joined joined]
  rfl

/-- The sink that an action gives to a manager, and whether it joins those that are there. -/
def Action.registers (m : Nat) (a : Action) (s : System) : Option (Nat × Bool) :=
  match a with
  | .op (.register whom source append) =>
    match System.obtain source s with
    | (.ok sink, _) =>
      if s.reach whom = some m ∧ ((Op.register whom source append).run s).1 = .truth true then some (sink.id, append)
      else none
    | _ => none
  | _ => none

variable {s : System} {m : Nat}

/-- A source gives a sink and changes nothing as to the managers, or there is none and nothing changes at all. -/
@[elab_as_elim]
theorem System.obtain_cases {P : Except Reply Sink × System → Prop} (source : Source)
    (failed : ∀ r, P (.error r, s)) (made : ∀ sink t, s.Quiet t → t.managers = s.managers → P (.ok sink, t)) :
    P (System.obtain source s) := by
  have fetched := System.Quiet.obtain s source
  have managers := (System.obtain_managers (s := s) source).1
  cases obtained : System.obtain source s with
  | mk outcome t =>
    rw [obtained] at fetched managers
    cases outcome with
    | error r =>
      cases System.Changes.obtain_error s obtained
      exact failed r
    | ok sink => exact made sink t fetched managers

theorem Op.ids_register (whom : Address) (source : Source) (append : Bool) :
    ((Op.register whom source append).run s).2.ids m =
      roster (s.ids m) ((Action.op (.register whom source append)).registers m s).toList := by
  cases reached : s.reach whom with
  | none =>
    have nobody : (Action.op (.register whom source append)).registers m s = none := by
      simp only [Action.registers, reached, reduceCtorEq, false_and, if_false]
      split <;> rfl
    rw [nobody]
    cases whom with
    | handle name =>
      have unknown : s.handles.get? name = none := reached
      simp only [Op.run, System.withHandle, unknown]
      rfl
    | process =>
      simp only [Op.run, System.withSink]
      refine System.obtain_cases source (fun r => rfl) (fun sink t quiet _ => ?_)
      have vacant : t.slot = none := quiet.slot.trans reached
      simp only [System.registerInstance, vacant]
      exact quiet.ids m
  | some n =>
    simp only [Action.registers, System.run_register reached, System.withSink]
    refine System.obtain_cases source (fun r => rfl) (fun sink t quiet _ => ?_)
    simp only [reached, Option.some.injEq, Reply.truth.injEq]
    rw [System.register_ids]
    split
    · exact congrArg (enlist · (sink.id, append)) (quiet.ids m)
    · exact quiet.ids m

/-! ## Operations that tear the instance down -/

/-- Operations that tear the instance down, if there is one. -/
def Op.tearsDown : Op → Bool
  | .create _ _ | .destroy => true
  | _ => false

theorem System.withdraw_grown (s : System) : s.managers.length ≤ s.withdraw.managers.length := by
  simpa [System.kinds] using (System.Changes.withdraw [] s).kinds.length_le

theorem Op.slot_tearsDown {o : Op} (tears : o.tearsDown = true) (known : m < s.managers.length) :
    (o.run s).2.slot ≠ some m := by
  have vacant := System.Changes.withdraw_slot s
  cases o with
  | destroy =>
    show s.withdraw.slot ≠ some m
    simp [vacant]
  | create source handle =>
    have grown := s.withdraw_grown
    simp only [Op.run, System.create]
    refine System.obtain_cases source (fun r => ?_) (fun sink t _ managers => ?_)
    · simp [vacant]
    · have seat : (t.install sink).2.slot ≠ some m := fun here => by
        have here : t.managers.length = m := Option.some.inj here
        rw [managers] at here
        omega
      cases handle with
      | none => exact seat
      | some name =>
        show ((t.install sink).2.keepHandle name t.managers.length).slot ≠ some m
        rwa [System.keepHandle_slot]
  | _ => cases tears

/-- The manager that was the instance before a teardown is retired. -/
theorem Op.retired_tearsDown {o : Op} (formed : s.WellFormed) (tears : o.tearsDown = true) (seated : s.slot = some m) :
    ∃ manager, (o.run s).2.managers[m]? = some manager ∧ manager.retired = true := by
  obtain ⟨manager, found, _, shared⟩ := formed.seated m seated
  have kind : (o.run s).2.kinds[m]? = some true :=
    System.kind_of_prefix (play_kinds [.op o] s) (by simp [System.kinds, found, shared])
  obtain ⟨after, there, shared⟩ := exists_of_kind kind
  have out := Op.slot_tearsDown tears (List.getElem?_eq_some_iff.mp found).1
  exact ⟨after, there, (play_wellFormed [.op o] formed).unseated m after there (by simpa using shared) out⟩

/-! ## What changes a list -/

/-- Other operations than registrations leave the list of a manager as it is, if it is in use afterwards and was not the
    instance before a teardown. -/
theorem Op.ids_used {o : Op} (other : ∀ whom source append, o ≠ .register whom source append)
    (known : m < s.managers.length) (used : (o.run s).2.inUse m = true)
    (spared : o.tearsDown = true → s.slot ≠ some m) : (o.run s).2.ids m = s.ids m := by
  cases kind : o.quiet with
  | true => exact (o.run_quiet kind s).ids m
  | false =>
    cases o with
    | make handle source =>
      simp only [Op.run, System.withSink] at used ⊢
      revert used
      refine System.obtain_cases source (fun r _ => rfl) (fun sink t quiet managers used => ?_)
      have new : m ≠ t.managers.length := by rw [managers]; omega
      calc ((t.newManager [sink]).2.keepHandle handle t.managers.length).ids m
          = (t.newManager [sink]).2.ids m := System.ids_keepHandle_used used
        _ = t.ids m := System.ids_push (t := (t.newManager [sink]).2) rfl new
        _ = s.ids m := quiet.ids m
    | makeEmpty handle =>
      calc ((s.newManager []).2.keepHandle handle s.managers.length).ids m
          = (s.newManager []).2.ids m := System.ids_keepHandle_used used
        _ = s.ids m := System.ids_push (t := (s.newManager []).2) rfl (Nat.ne_of_lt known)
    | dropHandle handle => exact System.ids_dropHandle_used used
    | takeInstance handle =>
      simp only [Op.run] at used ⊢
      split at used
      · rfl
      · exact System.ids_keepHandle_used used
    | create source handle =>
      have ended : s.withdraw.ids m = s.ids m := (System.ids_withdraw s m).trans (if_neg (spared rfl))
      have grown := s.withdraw_grown
      simp only [Op.run, System.create] at used ⊢
      revert used
      refine System.obtain_cases source (fun r _ => ended) (fun sink t quiet managers used => ?_)
      have new : m ≠ t.managers.length := by rw [managers]; omega
      have installed : (t.install sink).2.ids m = s.ids m :=
        (System.ids_push (t := (t.install sink).2) rfl new).trans ((quiet.ids m).trans ended)
      cases handle with
      | none => exact installed
      | some name => exact (System.ids_keepHandle_used used).trans installed
    | destroy => exact (System.ids_withdraw s m).trans (if_neg (spared rfl))
    | register whom source append => exact absurd rfl (other whom source append)
    | _ => cases kind

theorem Op.inUse_run {o : Op} (known : m < s.managers.length) (used : (o.run s).2.inUse m = true) : s.inUse m = true := by
  cases kind : o.quiet with
  | true => rwa [(o.run_quiet kind s).inUse] at used
  | false =>
    cases o with
    | make handle source =>
      simp only [Op.run, System.withSink] at used
      revert used
      refine System.obtain_cases source (fun r => id) (fun sink t quiet managers used => ?_)
      have new : m ≠ t.managers.length := by rw [managers]; omega
      have old := (System.inUse_of_keepHandle used).resolve_left new
      exact (quiet.inUse m).symm.trans old
    | makeEmpty handle => exact (System.inUse_of_keepHandle used).resolve_left (Nat.ne_of_lt known)
    | dropHandle handle => exact System.inUse_of_dropHandle used
    | takeInstance handle =>
      simp only [Op.run] at used
      split at used
      · exact used
      · rename_i n seated
        rcases System.inUse_of_keepHandle used with rfl | old
        · exact System.inUse_iff.mpr (.inl seated)
        · exact old
    | create source handle =>
      have grown := s.withdraw_grown
      simp only [Op.run, System.create] at used
      revert used
      refine System.obtain_cases source (fun r => System.inUse_of_withdraw) (fun sink t quiet managers used => ?_)
      have new : m ≠ t.managers.length := by rw [managers]; omega
      have before (used : (t.install sink).2.inUse m = true) : s.inUse m = true := by
        have old : t.inUse m = true :=
          System.inUse_mono used (fun here => absurd (Option.some.inj here).symm new) id id
        rw [quiet.inUse] at old
        exact System.inUse_of_withdraw old
      cases handle with
      | none => exact before used
      | some name => exact before ((System.inUse_of_keepHandle used).resolve_left new)
    | destroy => exact System.inUse_of_withdraw used
    | register whom source append =>
      cases reached : s.reach whom with
      | some n =>
        simp only [System.run_register reached, System.withSink] at used
        revert used
        refine System.obtain_cases source (fun r => id) (fun sink t quiet _ used => ?_)
        rwa [System.register_inUse, quiet.inUse] at used
      | none =>
        cases whom with
        | handle name =>
          have unknown : s.handles.get? name = none := reached
          simpa only [Op.run, System.withHandle, unknown] using used
        | process =>
          simp only [Op.run, System.withSink] at used
          revert used
          refine System.obtain_cases source (fun r => id) (fun sink t quiet _ used => ?_)
          have vacant : t.slot = none := quiet.slot.trans reached
          simp only [System.registerInstance, vacant] at used
          exact (quiet.inUse m).symm.trans used
    | _ => cases kind

/-! ## Calls that begin -/

/-- Whether the manager of a formatted write that begins is in use. -/
def Action.grips (a : Action) (s : System) : Option Bool :=
  match a with
  | .enter m => some (s.inUse m)
  | _ => none

theorem System.reach_of_taker {whom : Address} {l : Level} (taken : s.taker whom l = .ok (some m)) :
    s.reach whom = some m := by
  have level : l ≠ .internal := by
    rintro rfl
    exact System.taker_internal s whom m taken
  cases whom with
  | handle name =>
    simp only [System.taker, System.accepts, level, if_false] at taken
    split at taken
    · cases taken
    · rename_i n found
      simp only [Except.ok.injEq, Option.ite_none_right_eq_some, Option.some.injEq] at taken
      exact taken.2 ▸ found
  | process =>
    simp only [System.taker, System.instanceAccepts] at taken
    cases flag : s.processFlag <;> cases seated : s.slot <;>
      simp [flag, seated, System.accepts, level, Except.map] at taken
    simpa [System.reach, seated] using taken.2

mutual

/-- A manager that takes a formatted write is in use. -/
theorem Step.course_grips : ∀ (step : Step) (s : System), ∀ used ∈ occurrences Action.grips (step.course s) s, used = true
  | .op _, _ => by simp [Step.course, occurrences, Action.grips]
  | .format whom l node argument, s => by
    cases taken : s.taker whom l with
    | error r => simp [Step.course, taken, occurrences]
    | ok taker =>
      cases taker with
      | none => simp [Step.course, taken, occurrences]
      | some m =>
        have inside := Argument.course_grips argument (s.enter m)
        have begun := System.inUse_of_reach (System.reach_of_taker taken)
        simp only [Step.course, taken, List.cons_append, occurrences, occurrences_append, List.mem_append]
        rintro used (own | nested | last)
        · cases own with
          | head => exact begun
          | tail _ none => cases none
        · exact inside used nested
        · split at last <;> (rcases last with none | none <;> cases none)

theorem Argument.course_grips : ∀ (argument : Argument) (s : System),
    ∀ used ∈ occurrences Action.grips (argument.course s) s, used = true
  | .done, _ => by simp [Argument.course, occurrences]
  | .piece p rest, s => by
    simp only [Argument.course]
    split
    · simp [occurrences]
    · exact Argument.course_grips rest s
  | .take step rest, s => by
    simp only [Argument.course, occurrences_append, occurrences, List.mem_append]
    rintro used (first | none | others)
    · exact Step.course_grips step s used first
    · cases none
    · rw [Step.play_course] at others
      exact Argument.course_grips rest _ used others

end

theorem course_grips (steps : List Step) (s : System) :
    ∀ used ∈ occurrences Action.grips (course steps s) s, used = true := by
  induction steps generalizing s with
  | nil => simp [course, occurrences]
  | cons step rest ih =>
    rw [course, occurrences_append, Step.play_course]
    exact List.forall_mem_append.mpr ⟨step.course_grips s, ih _⟩

/-! ## Lists over a run -/

variable {a : Action}

theorem Action.inUse_act (grips : ∀ used ∈ (a.grips s).toList, used = true) (known : m < s.managers.length)
    (used : (a.act s).inUse m = true) : s.inUse m = true := by
  have left (used : s.leave.inUse m = true) : s.inUse m = true :=
    System.inUse_mono used id id List.mem_of_mem_tail
  cases a with
  | op o => exact Op.inUse_run known used
  | enter n =>
    rcases System.inUse_iff.mp used with slot | handle | running
    · exact System.inUse_iff.mpr (.inl slot)
    · exact System.inUse_iff.mpr (.inr (.inl handle))
    · rcases List.mem_cons.mp running with rfl | old
      · exact grips _ List.mem_cons_self
      · exact System.inUse_iff.mpr (.inr (.inr old))
  | note r => exact used
  | send n r =>
    rw [Action.act, System.release_inUse, System.dispatch, System.fanOut_inUse] at used
    exact left used
  | giveUp n =>
    rw [Action.act, System.release_inUse] at used
    exact left used

theorem Action.live_act (formed : s.WellFormed) (known : m < s.managers.length) (live : (a.act s).live m = true) :
    s.live m = true := by
  refine System.live_iff.mpr ⟨s.managers[m], List.getElem?_eq_getElem known, Bool.eq_false_iff.mpr fun retired => ?_⟩
  obtain ⟨_, there, gone, _⟩ := play_retired [a] formed (List.getElem?_eq_getElem known) retired
  obtain ⟨_, here, active⟩ := System.live_iff.mp live
  cases there.symm.trans here
  cases gone.symm.trans active

/-- Only registrations change the list of a manager that is in use after an action and not retired by then. -/
theorem Action.ids_act (formed : s.WellFormed) (known : m < s.managers.length) (used : (a.act s).inUse m = true)
    (live : (a.act s).live m = true) : (a.act s).ids m = roster (s.ids m) (a.registers m s).toList := by
  cases a with
  | op o =>
    by_cases registers : ∃ whom source append, o = .register whom source append
    · obtain ⟨whom, source, append, rfl⟩ := registers
      exact Op.ids_register whom source append
    · have other : ∀ whom source append, o ≠ .register whom source append :=
        fun whom source append same => registers ⟨whom, source, append, same⟩
      have nothing : (Action.op o).registers m s = none := by
        unfold Action.registers
        split
        · rename_i same
          cases same
          exact absurd rfl (other _ _ _)
        · rfl
      rw [nothing]
      refine Op.ids_used other known used fun tears seated => ?_
      obtain ⟨_, there, retired⟩ := Op.retired_tearsDown formed tears seated
      obtain ⟨_, here, active⟩ := System.live_iff.mp live
      cases there.symm.trans here
      cases retired.symm.trans active
  | enter n => rfl
  | note r => rfl
  | send n r =>
    rw [Action.act, System.release_inUse] at used
    exact (System.ids_release used n).trans (System.ids_fanOut s.leave n _ m)
  | giveUp n =>
    rw [Action.act, System.release_inUse] at used
    exact System.ids_release used n

theorem Action.known_act (known : m < s.managers.length) : m < (a.act s).managers.length :=
  Nat.lt_of_lt_of_le known (play_managers_length [a] s)

theorem play_inUse (p : List Action) (grips : ∀ used ∈ occurrences Action.grips p s, used = true)
    (known : m < s.managers.length) (used : (play p s).inUse m = true) : s.inUse m = true := by
  induction p generalizing s with
  | nil => exact used
  | cons a rest ih =>
    obtain ⟨own, others⟩ := List.forall_mem_append.mp grips
    exact Action.inUse_act own known (ih others (Action.known_act known) used)

theorem play_live (p : List Action) (formed : s.WellFormed) (known : m < s.managers.length)
    (live : (play p s).live m = true) : s.live m = true := by
  induction p generalizing s with
  | nil => exact live
  | cons a rest ih =>
    exact Action.live_act formed known (ih (play_wellFormed [a] formed) (Action.known_act known) live)

/-- The list of a manager that is in use after a run and not retired by then is what the registrations have made of it. -/
theorem play_ids (p : List Action) (formed : s.WellFormed)
    (grips : ∀ used ∈ occurrences Action.grips p s, used = true) (known : m < s.managers.length)
    (used : (play p s).inUse m = true) (live : (play p s).live m = true) :
    (play p s).ids m = roster (s.ids m) (occurrences (Action.registers m) p s) := by
  induction p generalizing s with
  | nil => rfl
  | cons a rest ih =>
    obtain ⟨_, others⟩ := List.forall_mem_append.mp grips
    have known' := Action.known_act (a := a) known
    have formed' : (a.act s).WellFormed := play_wellFormed [a] formed
    have first := Action.ids_act formed known (play_inUse rest others known' used) (play_live rest formed' known' live)
    rw [play_cons, ih formed' others known' used live, first, occurrences, roster, roster, roster, List.foldl_append]

/-- The manager that an operation makes, and the list that it begins with. -/
def Op.begins (o : Op) (s : System) : Option (Nat × List Nat) :=
  match o with
  | .make _ source =>
    match System.obtain source s with
    | (.ok sink, t) => some (t.managers.length, [sink.id])
    | _ => none
  | .makeEmpty _ => some (s.managers.length, [])
  | .create source _ =>
    match System.obtain source s.withdraw with
    | (.ok sink, t) => some (t.managers.length, [sink.id])
    | _ => none
  | _ => none

theorem System.ids_newManager_self (s : System) (sinks : List Sink) :
    (s.newManager sinks).2.ids s.managers.length = sinks.map Sink.id := by
  simp [System.ids, System.newManager, Manager.ofSinks]

theorem System.ids_install_self (s : System) (sink : Sink) : (s.install sink).2.ids s.managers.length = [sink.id] := by
  simp [System.ids, System.install, Manager.ofSinks]

theorem System.ids_keepHandle_self (s : System) (name : String) (n : Nat) : (s.keepHandle name n).ids n = s.ids n :=
  System.ids_keepHandle_used (System.inUse_of_reach (System.keepHandle_reach name n))

theorem Op.begins_ids {o : Op} {start : List Nat} (begins : o.begins s = some (m, start)) :
    (o.run s).2.ids m = start ∧ m < (o.run s).2.managers.length := by
  -- whether it shares the flag does not matter here, only that it is there
  have bound {kind : Bool} (known : (o.run s).2.kinds[m]? = some kind) : m < (o.run s).2.managers.length := by
    obtain ⟨_, found, _⟩ := exists_of_kind known
    exact (List.getElem?_eq_some_iff.mp found).1
  cases o with
  | make handle source =>
    simp only [Op.begins] at begins
    split at begins
    · rename_i sink t obtained
      cases begins
      refine ⟨?_, bound (Op.makes_kind (by simp only [Op.makes, obtained]; rfl))⟩
      simp only [Op.run, System.withSink, obtained]
      exact ((t.newManager [sink]).2.ids_keepHandle_self handle _).trans (t.ids_newManager_self [sink])
    · cases begins
  | makeEmpty handle =>
    cases begins
    exact ⟨((s.newManager []).2.ids_keepHandle_self handle _).trans (s.ids_newManager_self []),
      bound (Op.makes_kind rfl)⟩
  | create source handle =>
    simp only [Op.begins] at begins
    split at begins
    · rename_i sink t obtained
      cases begins
      refine ⟨?_, bound (Op.creates_kind (by simp only [Op.creates, System.create, obtained]; rfl))⟩
      simp only [Op.run, System.create, obtained]
      cases handle with
      | none => exact t.ids_install_self sink
      | some name => exact ((t.install sink).2.ids_keepHandle_self name _).trans (t.ids_install_self sink)
    · cases begins
  | _ => cases begins

/-! ## Where a sink comes from -/

/-- What stands in the journal about a source that gives a sink: a sink that was held has been built before. -/
def Source.record (source : Source) (k : Nat) : List Event :=
  match source with
  | .built _ => [.built k]
  | .held _ => []

theorem System.obtain_record {source : Source} {sink : Sink} {t : System}
    (obtained : System.obtain source s = (.ok sink, t)) :
    t.world.journal = s.world.journal ++ source.record sink.id := by
  cases source with
  | held name =>
    simp only [System.obtain] at obtained
    split at obtained
    · cases obtained
    · cases obtained
      exact (List.append_nil _).symm
  | built spec =>
    cases spec with
    | openFile o =>
      simp only [System.obtain, World.build] at obtained
      split at obtained
      · cases obtained
      · rename_i built
        split at built
        · cases built
        · cases built
          cases obtained
          rfl
    | _ =>
      cases obtained
      rfl

/-- A handle that takes the place of another may be the end of a manager, the sinks of which are dropped then. -/
theorem System.keepHandle_journal (s : System) (name : String) (m : Nat) :
    ∃ released : List Nat, (s.keepHandle name m).world.journal = s.world.journal ++ released.map .dropped ∧
      (s.handles.get? name = none → released = []) := by
  unfold System.keepHandle
  cases there : s.handles.get? name with
  | none => exact ⟨[], (List.append_nil _).symm, fun _ => rfl⟩
  | some old =>
    refine ⟨if { s with handles := s.handles.put name m }.inUse old then [] else s.ids old, ?_, nofun⟩
    simp only [System.release]
    split
    · exact (List.append_nil _).symm
    · cases found : s.managers[old]? with
      | none => simp [System.ids_out found]
      | some manager =>
        rw [System.ids_of found, List.map_map]
        rfl

/-- Once the instance has been torn down and there is a sink, `create` puts a new manager with the sink in the slot and
    turns the flag on. -/
theorem Op.run_create {source : Source} {sink : Sink} {t : System}
    (obtained : System.obtain source s.withdraw = (.ok sink, t)) (handle : Option String) :
    let outcome := (Op.create source handle).run s
    outcome.1 = .nothing ∧ outcome.2.slot = some t.managers.length ∧ outcome.2.processFlag = true ∧
    (∀ name, handle = some name → outcome.2.reach (.handle name) = some t.managers.length) ∧
    ∃ released : List Nat, outcome.2.world.journal = t.world.journal ++ released.map .dropped ∧
      (handle.bind s.handles.get? = none → released = []) := by
  have handles : t.handles = s.handles := by
    have quiet := System.Quiet.obtain s.withdraw source
    rw [obtained] at quiet
    exact quiet.handles.trans s.withdraw_handles
  simp only [Op.run, System.create, obtained]
  cases handle with
  | none => exact ⟨rfl, rfl, rfl, by rintro _ ⟨⟩, [], (List.append_nil _).symm, fun _ => rfl⟩
  | some name =>
    have kept := System.keepHandle_slot (s := (t.install sink).2) name t.managers.length
    have flag := (System.Unswitched.keepHandle (t.install sink).2 name t.managers.length).flag
    obtain ⟨released, journal, free⟩ := (t.install sink).2.keepHandle_journal name t.managers.length
    refine ⟨rfl, kept, flag, ?_, released, journal, fun unknown => free ?_⟩
    · rintro _ ⟨⟩
      exact System.keepHandle_reach name _
    · show t.handles.get? name = none
      rw [handles]
      exact unknown

/-- At every moment of every run.

    The list of a manager that is in use and not retired is what it began with and all that has been registered since, in
    this order; or, from the last sink on that took the place of the others, all that has been registered. The list of an
    instance that is torn down is empty from then on, whatever happens.

    `create` flushes the sinks of the instance in their order, drops them in their order, and only then gets its sink. It
    calls no other sink. The slot has a new manager then, with this sink alone and the flag on, and the handle that it gives
    is one of that manager. Apart from this nothing is dropped, unless the name of the handle was taken by the last handle of
    another manager. `destroy` flushes and drops the sinks of the instance in the same way, empties the slot and leaves the
    flag as it is; done again, it does nothing.

    A sink that is registered with a manager that is not retired joins its list, and nothing else happens; or the sinks that
    are there are dropped in their order, without a flush or any other call, and it is alone in the list. -/
theorem replacement (stamp : String) (steps : List Step) (n : Nat) :
    let p := (course steps (.fresh stamp)).take n
    let s := play p (.fresh stamp)
    (∀ (before : List Action) (o : Op) (after : List Action) (m : Nat) (start : List Nat), p = before ++ .op o :: after →
      o.begins (play before (.fresh stamp)) = some (m, start) → s.inUse m = true → s.live m = true →
      let registered := occurrences (Action.registers m) after (play (before ++ [.op o]) (.fresh stamp))
      ((∀ r ∈ registered, r.2 = true) → s.ids m = start ++ registered.map Prod.fst) ∧
      ∀ earlier k later, registered = earlier ++ (k, false) :: later → (∀ r ∈ later, r.2 = true) →
        s.ids m = k :: later.map Prod.fst) ∧
    (∀ (o : Op) (m : Nat), o.tearsDown = true → s.slot = some m → ∀ more, (play more (o.run s).2).ids m = []) ∧
    (∀ (source : Source) (sink : Sink) (t : System), System.obtain source s.withdraw = (.ok sink, t) →
      ∀ handle, let outcome := (Op.create source handle).run s
      outcome.1 = .nothing ∧ outcome.2.slot = some t.managers.length ∧ s.managers.length ≤ t.managers.length ∧
      outcome.2.ids t.managers.length = [sink.id] ∧ outcome.2.processFlag = true ∧
      (∀ name, handle = some name → outcome.2.reach (.handle name) = outcome.2.slot) ∧
      ∃ released : List Nat, outcome.2.world.journal =
          s.world.journal ++ s.instanceIds.map (.called · .flush) ++ s.instanceIds.map .dropped ++
            source.record sink.id ++ released.map .dropped ∧
        (handle.bind s.handles.get? = none → released = [])) ∧
    (let ended := (Op.destroy.run s).2
     ended.world.journal = s.world.journal ++ s.instanceIds.map (.called · .flush) ++ s.instanceIds.map .dropped ∧
     ended.slot = none ∧ ended.processFlag = s.processFlag ∧ Op.destroy.run ended = (.nothing, ended)) ∧
    ∀ (whom : Address) (m : Nat) (source : Source) (append : Bool) (sink : Sink) (t : System),
      s.reach whom = some m → s.live m = true → System.obtain source s = (.ok sink, t) →
      let outcome := (Op.register whom source append).run s
      outcome.1 = .truth true ∧
      outcome.2.world.journal = s.world.journal ++ source.record sink.id ++
        (if append then [] else (s.ids m).map .dropped) ∧
      outcome.2.ids m = (if append then s.ids m ++ [sink.id] else [sink.id]) ∧
      ∀ other, other ≠ m → outcome.2.ids other = s.ids other := by
  intro p s
  have formed : s.WellFormed := play_wellFormed p (.fresh stamp)
  refine ⟨?_, ?_, ?_, ?_, ?_⟩
  · intro before o after m start split begins used live registered
    have played : play (before ++ [.op o]) (.fresh stamp) = (o.run (play before (.fresh stamp))).2 := by rw [play_append]; rfl
    have all : s = play after (play (before ++ [.op o]) (.fresh stamp)) := by
      rw [← play_append, List.append_assoc, List.singleton_append, ← split]
    obtain ⟨first, known⟩ := Op.begins_ids begins
    rw [← played] at first known
    have grips : ∀ used ∈ occurrences Action.grips after (play (before ++ [.op o]) (.fresh stamp)), used = true := by
      have whole := course_grips steps (.fresh stamp)
      rw [← List.take_append_drop n (course steps (.fresh stamp)), occurrences_append] at whole
      have part := (List.forall_mem_append.mp whole).1
      rw [show (course steps (.fresh stamp)).take n = before ++ .op o :: after from split, List.append_cons,
        occurrences_append] at part
      exact (List.forall_mem_append.mp part).2
    have list : s.ids m = roster start registered := by
      rw [all] at used live ⊢
      rw [play_ids after (play_wellFormed _ (.fresh stamp)) grips known used live, first]
    exact ⟨fun joined => list.trans (roster_joined joined),
      fun earlier k later parts joined => by rw [list, parts, roster_replaced joined]⟩
  · intro o m tears seated more
    obtain ⟨manager, found, retired⟩ := Op.retired_tearsDown formed tears seated
    obtain ⟨_, _, _, bare⟩ := play_retired more (play_wellFormed [.op o] formed) found retired
    exact bare
  · intro source sink t obtained handle outcome
    obtain ⟨reply, slot, flag, led, released, journal, free⟩ := Op.run_create obtained handle
    have managers := (System.obtain_managers (s := s.withdraw) source).1
    rw [obtained] at managers
    have begins : (Op.create source handle).begins s = some (t.managers.length, [sink.id]) := by
      simp only [Op.begins, obtained]
    refine ⟨reply, slot, ?_, (Op.begins_ids begins).1, flag, fun name taken => (led name taken).trans slot.symm, released,
      ?_, free⟩
    · rw [show t.managers = s.withdraw.managers from managers]
      exact s.withdraw_grown
    · rw [journal, System.obtain_record obtained, System.withdraw_journal]
  · exact ⟨s.withdraw_journal, System.Changes.withdraw_slot s, (System.Unswitched.withdraw s).flag,
      congrArg (Prod.mk Reply.nothing) s.withdraw_withdraw⟩
  · intro whom m source append sink t reached live obtained outcome
    obtain ⟨manager, found, active⟩ := System.live_iff.mp live
    have quiet := System.Quiet.obtain s source
    have managers := (System.obtain_managers (s := s) source).1
    rw [obtained] at quiet managers
    have found : t.managers[m]? = some manager := by rw [show t.managers = s.managers from managers]; exact found
    have ran : outcome = (.truth (t.register m sink append).1, (t.register m sink append).2) := by
      simp only [outcome, System.run_register reached, System.withSink, obtained]
    obtain ⟨taken, journal, ids⟩ := System.register_taken found active sink append
    have list : t.ids m = s.ids m := quiet.ids m
    rw [ran]
    refine ⟨by rw [taken], ?_, ?_, fun other different => ?_⟩
    · rw [journal, System.obtain_record obtained, list]
    · rw [ids, if_pos rfl, list]
      cases append <;> rfl
    · rw [ids, if_neg (Ne.symm different)]
      exact quiet.ids other

end LogFanout
