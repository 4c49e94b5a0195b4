import LogFanout.Proofs.Frame
import LogFanout.Proofs.Lifecycle
import LogFanout.Proofs.Quiet

/- Steps in arguments.

   A formatted write looks at its manager twice: before its argument is rendered, to find out whether it is taken, and
   afterwards, to find out which sinks get the record. In between, the steps in the argument may do anything, to this
   manager as to others. `reentry` says that they come first, and that the record then goes to the list as they left it.

   Whatever these steps are, the manager is held on to as long as they go on (`System.Busy`). So its list changes only if
   a sink is registered or an instance is made or destroyed (`Step.run_ids`). -/
namespace LogFanout

/-! ## Steps that leave the lists alone -/

/-- Operations other than those that give a sink to a manager and those that make or destroy an instance. -/
def Op.keepsLists : Op → Bool
  | .register _ _ _ | .create _ _ | .destroy => false
  | _ => true

mutual

/-- Steps in which, at any depth, no sink is given to a manager and no instance is made or destroyed. -/
def Step.keepsLists : Step → Bool
  | .op o => o.keepsLists
  | .format _ _ _ argument => argument.keepsLists

def Argument.keepsLists : Argument → Bool
  | .done => true
  | .piece _ rest => rest.keepsLists
  | .take step rest => step.keepsLists && rest.keepsLists

end

namespace System

/-- A manager that a running call holds on to. -/
def Busy (s : System) (m : Nat) : Prop := m ∈ s.running ∧ m < s.managers.length

variable {s : System} {m : Nat}

theorem inUse_of_running (h : m ∈ s.running) : s.inUse m = true := by simp [inUse, h]

theorem ids_release_other {n : Nat} (other : n ≠ m) : (s.release n).ids m = s.ids m := by
  unfold System.release
  split
  · rfl
  · split
    · rfl
    · rename_i manager found
      exact (ids_setManager (s := s.discard manager.sinks) found _ m).trans (if_neg other)

theorem ids_release (used : s.inUse m = true) (n : Nat) : (s.release n).ids m = s.ids m := by
  by_cases same : n = m
  · simp only [release, same, used, if_true]
  · exact ids_release_other same

theorem ids_keepHandle (used : m ∈ s.running) (name : String) (n : Nat) : (s.keepHandle name n).ids m = s.ids m := by
  unfold keepHandle
  split
  · rfl
  · exact ids_release (s := { s with handles := s.handles.put name n }) (inUse_of_running used) _

theorem ids_dropHandle (used : m ∈ s.running) (name : String) : (s.dropHandle name).2.ids m = s.ids m := by
  unfold dropHandle
  split
  · rfl
  · exact ids_release (s := { s with handles := s.handles.erase name }) (inUse_of_running used) _

theorem ids_newManager (h : s.Busy m) (sinks : List Sink) : (s.newManager sinks).2.ids m = s.ids m :=
  ids_push rfl (Nat.ne_of_lt h.2)

end System

/-- The list of a manager that a call holds on to changes only if a sink is given to a manager or an instance is made or
    destroyed. -/
theorem Op.run_ids {o : Op} (quiet : o.keepsLists = true) {s : System} {m : Nat} (h : s.Busy m) :
    (o.run s).2.ids m = s.ids m := by
  cases kind : o.quiet with
  | true => exact (o.run_quiet kind s).ids m
  | false =>
    cases o with
    | make handle source =>
      have fetched := System.Quiet.obtain s source
      have same := s.obtain_managers source
      simp only [Op.run, System.withSink]
      generalize System.obtain source s = outcome at fetched same ⊢
      obtain ⟨made, t⟩ := outcome
      cases made with
      | error r => exact fetched.ids m
      | ok sink =>
        have busy : t.Busy m := ⟨by rw [same.2.2]; exact h.1, by rw [same.1]; exact h.2⟩
        calc ((t.newManager [sink]).2.keepHandle handle t.managers.length).ids m
            = (t.newManager [sink]).2.ids m := System.ids_keepHandle (s := (t.newManager [sink]).2) busy.1 handle _
          _ = t.ids m := System.ids_newManager busy [sink]
          _ = s.ids m := fetched.ids m
    | makeEmpty handle =>
      calc ((s.newManager []).2.keepHandle handle s.managers.length).ids m
          = (s.newManager []).2.ids m := System.ids_keepHandle (s := (s.newManager []).2) h.1 handle _
        _ = s.ids m := System.ids_newManager h []
    | dropHandle handle => exact System.ids_dropHandle h.1 handle
    | takeInstance handle =>
      simp only [Op.run]
      split
      · rfl
      · exact System.ids_keepHandle h.1 handle _
    | create source handle => cases quiet
    | destroy => cases quiet
    | register whom source append => cases quiet
    | _ => cases kind

theorem play_managers_length (actions : List Action) (s : System) :
    s.managers.length ≤ (play actions s).managers.length := by
  simpa [System.kinds] using (play_kinds actions s).length_le

theorem Step.run_busy (step : Step) {s : System} {m : Nat} (h : s.Busy m) : (step.run s).2.Busy m := by
  have length := play_managers_length (step.course s) s
  rw [Step.play_course] at length
  exact ⟨by rw [Step.run_running]; exact h.1, Nat.lt_of_lt_of_le h.2 length⟩

mutual

/-- The same is true of every step, whatever is taken in its argument. -/
theorem Step.run_ids : ∀ (step : Step), step.keepsLists = true → ∀ {s : System} {m : Nat}, s.Busy m →
    (step.run s).2.ids m = s.ids m
  | .op _, quiet, _, _, h => Op.run_ids quiet h
  | .format whom l node argument, quiet, s, m, h => by
    cases taken : s.taker whom l with
    | error r => simp [Step.run, taken]
    | ok taker =>
      cases taker with
      | none => simp [Step.run, taken]
      | some n =>
        have entered : (s.enter n).Busy m := ⟨List.mem_cons_of_mem n h.1, h.2⟩
        have rendered : (argument.render (s.enter n)).2.ids m = s.ids m := Argument.render_ids argument quiet entered
        have running := Argument.render_running argument (s.enter n)
        rw [Step.run_format taken]
        generalize argument.render (s.enter n) = outcome at rendered running ⊢
        obtain ⟨text, after⟩ := outcome
        -- the manager of this write may go now, but not the one that was busy before
        have running : after.running = n :: s.running := running
        have still : m ∈ after.leave.running := by simpa [System.leave, running] using h.1
        cases text with
        | none =>
          calc (after.leave.release n).ids m
              = after.leave.ids m := System.ids_release (System.inUse_of_running still) n
            _ = s.ids m := rendered
        | some text =>
          have used : m ∈ (after.leave.dispatch n ⟨l, node, text⟩).running := by rwa [System.dispatch_running]
          calc ((after.leave.dispatch n ⟨l, node, text⟩).release n).ids m
              = (after.leave.dispatch n ⟨l, node, text⟩).ids m := System.ids_release (System.inUse_of_running used) n
            _ = after.leave.ids m := System.ids_fanOut after.leave n _ m
            _ = s.ids m := rendered

theorem Argument.render_ids : ∀ (argument : Argument), argument.keepsLists = true →
    ∀ {s : System} {m : Nat}, s.Busy m → (argument.render s).2.ids m = s.ids m
  | .done, _, _, _, _ => rfl
  | .piece p rest, quiet, s, m, h => by
    have ih := Argument.render_ids rest quiet h
    cases rendered : p.render with
    | none => simp [Argument.render, rendered]
    | some text =>
      simp only [Argument.render, rendered]
      split <;> (rename_i h; rw [h] at ih; exact ih)
  | .take step rest, quiet, s, m, h => by
    obtain ⟨first, others⟩ := Bool.and_eq_true_iff.mp quiet
    have busy : ((step.run s).2.note (step.run s).1).Busy m := Step.run_busy step h
    calc ((Argument.take step rest).render s).2.ids m
        = ((step.run s).2.note (step.run s).1).ids m := Argument.render_ids rest others busy
      _ = s.ids m := Step.run_ids step first h

end

theorem perform_busy (steps : List Step) {s : System} {m : Nat} (h : s.Busy m) : (perform steps s).Busy m := by
  induction steps generalizing s with
  | nil => exact h
  | cons step rest ih => exact ih (Step.run_busy step h)

theorem perform_ids {steps : List Step} (quiet : ∀ step ∈ steps, step.keepsLists = true) {s : System} {m : Nat}
    (h : s.Busy m) : (perform steps s).ids m = s.ids m := by
  induction steps generalizing s with
  | nil => rfl
  | cons step rest ih =>
    obtain ⟨first, others⟩ := List.forall_mem_cons.mp quiet
    have busy : ((step.run s).2.note (step.run s).1).Busy m := Step.run_busy step h
    calc (perform (step :: rest) s).ids m
        = ((step.run s).2.note (step.run s).1).ids m := ih others busy
      _ = s.ids m := Step.run_ids step first h

/-- A sink that takes the place of all others is the only one of its manager, as long as nothing changes the lists. -/
theorem perform_replaced {before rest : List Step} {whom : Address} {source : Source}
    (quiet : ∀ step ∈ rest, step.keepsLists = true) {s : System} {m : Nat} (h : s.Busy m)
    (reached : (perform before s).reach whom = some m) {sink : Sink}
    (got : (System.obtain source (perform before s)).1 = .ok sink)
    (taken : ((Op.register whom source false).run (perform before s)).1 = .truth true) :
    (perform (before ++ .op (.register whom source false) :: rest) s).ids m = [sink.id] := by
  -- right after the registration the sink is alone, and what follows leaves the list as it is
  rw [perform_append]
  have busy := perform_busy before h
  generalize perform before s = t at reached got taken busy ⊢
  have registered : ((Op.register whom source false).run t).2.ids m = [sink.id] := by
    have same := System.obtain_managers (s := t) source
    generalize obtained : System.obtain source t = outcome at got same
    obtain ⟨made, u⟩ := outcome
    cases got
    have run : (Op.register whom source false).run t =
        (.truth (u.register m sink false).1, (u.register m sink false).2) := by
      simp only [System.run_register reached, System.withSink, obtained]
    rw [run] at taken ⊢
    unfold System.register at taken ⊢
    split at taken
    · cases taken
    · rename_i manager found
      split at taken
      · cases taken
      · rename_i live
        simp only [live]
        exact (System.ids_setManager (s := u.discard manager.sinks) found _ m).trans (if_pos rfl)
  have after : (((Op.register whom source false).run t).2.note (.truth true)).Busy m :=
    Step.run_busy (.op (.register whom source false)) busy
  simp only [perform, Step.run]
  rw [taken, perform_ids quiet after]
  exact registered

/-! ## The record -/

theorem World.discard_congr (w : World) {a b : List Sink} (h : a.map Sink.id = b.map Sink.id) :
    w.discard a = w.discard b := by
  have dropped (sinks : List Sink) :
      (sinks.map fun sink => Event.dropped sink.id) = (sinks.map Sink.id).map Event.dropped := by
    simp [Function.comp_def]
  simp only [World.discard, dropped, h]

/-- A record goes to all sinks of a manager, and if nobody has the manager any more, they are dropped after that. -/
theorem System.send_world {s : System} {m : Nat} {manager : Manager} (found : s.managers[m]? = some manager)
    (r : Record) :
    ((s.dispatch m r).release m).world =
      let sent := (World.deliver (.write r) manager.sinks s.world).2
      if s.inUse m then sent else sent.discard manager.sinks := by
  have bound := (List.getElem?_eq_some_iff.mp found).1
  rw [System.dispatch, System.release, System.fanOut_inUse]
  cases used : s.inUse m with
  | true => rw [fanOut_some found]; rfl
  | false =>
    have there : (s.fanOut m (.write r)).managers[m]? =
        some { manager with sinks := (World.deliver (.write r) manager.sinks s.world).1 } := by
      simp [fanOut_some found, System.setManager, bound]
    rw [there, fanOut_some found]
    exact World.discard_congr _ (World.deliver_ids (.write r) manager.sinks s.world)

/-- At every moment of every run: a formatted write to a closed manager changes nothing. If the manager is open and the
    argument can be rendered, the steps in the argument come first, and then the record goes to each of the sinks that the
    manager has by then, in their order, and to no other. So it goes to none if the steps have torn the manager down, to
    those that were there if the steps have not changed the list, even if they have turned logging off, and to the new one
    alone if a step has put it in the place of all others. -/
theorem reentry (stamp : String) (steps : List Step) (n : Nat) (whom : Address) (m : Nat) (l : Level) (node : Option Node)
    (argument : Argument) :
    let s := play ((course steps (.fresh stamp)).take n) (.fresh stamp)
    let outcome := (Step.format whom l node argument).run s
    s.reach whom = some m → l ≠ .internal →
    (s.isOpen m = false → outcome = (.rendered 0, s)) ∧
    (s.isOpen m = true → ∀ text, argument.text = some text →
      let after := perform argument.steps (s.enter m)
      ∃ manager, after.managers[m]? = some manager ∧ outcome.1 = .rendered 1 ∧
        (let sent := (World.deliver (.write ⟨l, node, text⟩) manager.sinks after.world).2
         outcome.2.world = if after.leave.inUse m then sent else sent.discard manager.sinks) ∧
        s.world.journal <+: after.world.journal ∧
        outcome.2.world.journal = after.world.journal ++
          ((after.ids m).map fun k => .called k (.write ⟨l, node, text⟩)) ++
          (if after.leave.inUse m then [] else (after.ids m).map .dropped) ∧
        (after.ids m).Nodup ∧
        (manager.retired = true → after.ids m = []) ∧
        ((∀ step ∈ argument.steps, step.keepsLists = true) → after.ids m = s.ids m ∧ s.ids m ≠ []) ∧
        ∀ before other source rest sink, argument.steps = before ++ .op (.register other source false) :: rest →
          (∀ step ∈ rest, step.keepsLists = true) → (perform before (s.enter m)).reach other = some m →
          (System.obtain source (perform before (s.enter m))).1 = .ok sink →
          ((Op.register other source false).run (perform before (s.enter m))).1 = .truth true →
          after.ids m = [sink.id]) := by
  intro s outcome reached level
  have formed : s.WellFormed := play_wellFormed _ (.fresh stamp)
  refine ⟨?_, ?_⟩
  · intro closed
    have nobody := formed.taker reached level
    simp only [closed, Bool.false_eq_true, if_false] at nobody
    simp only [outcome, Step.run, nobody]
  · intro taken text rendered after
    have taker := formed.taker reached level
    simp only [taken, if_true] at taker
    have render := argument.render_of_text rendered (s.enter m)
    have ran : outcome = (.rendered 1, (after.leave.dispatch m ⟨l, node, text⟩).release m) := by
      simp only [outcome, Step.run_format taker, render]
      rfl
    -- the manager is there at first, with a sink, and it stays
    obtain ⟨first, there, some_sink⟩ : ∃ first, s.managers[m]? = some first ∧ first.sinks ≠ [] := by
      cases found : s.managers[m]? with
      | none => simp [System.isOpen, found] at taken
      | some first =>
        simp only [System.isOpen, found] at taken
        exact ⟨first, rfl, (((formed.sound m first found).isOpen_iff s.processFlag).mp taken).2.1⟩
    have busy : (s.enter m).Busy m := ⟨List.mem_cons_self, (List.getElem?_eq_some_iff.mp there).1⟩
    have played : after = play (argument.course (s.enter m)) (s.enter m) := by
      rw [Argument.play_course, render]
    obtain ⟨manager, found⟩ : ∃ manager, after.managers[m]? = some manager :=
      ⟨_, List.getElem?_eq_getElem (perform_busy argument.steps busy).2⟩
    have ids : after.ids m = manager.sinks.map Sink.id := System.ids_of found
    have world := System.send_world (s := after.leave) found ⟨l, node, text⟩
    refine ⟨manager, found, by rw [ran], by rw [ran]; exact world, ?_, ?_, ?_, ?_, ?_, ?_⟩
    · have added := argument.journal_prefix (s.enter m)
      rwa [render] at added
    · rw [ran, world, ids]
      simp only [List.map_map, Function.comp_def]
      split
      · rw [World.deliver_journal, List.append_nil]
        rfl
      · simp only [World.discard, World.deliver_journal]
        rfl
    · have before : System.Accounted ([], s) := play_accounted _ (.fresh stamp)
      have accounted : System.Accounted ([], after) := by
        rw [played]
        exact play_accounted _ ⟨before.names, before.once, before.final⟩
      exact accounted.ids_nodup m
    · intro gone
      have formed' : after.WellFormed := by
        rw [played]
        exact play_wellFormed _ (formed.of_eq rfl rfl)
      rw [ids, (formed'.sound m manager found).bare gone]
      rfl
    · intro quiet
      have here : s.ids m = first.sinks.map Sink.id := System.ids_of there
      exact ⟨perform_ids quiet busy, by simpa [here] using some_sink⟩
    · intro before other source rest sink parts quiet led got replaced
      simp only [after, parts]
      exact perform_replaced quiet busy led got replaced

/-- The record of a write in the argument of which another sink takes the place of the one that was there. -/
theorem reentry_replaced :
    let s := play ((course [.op (.make "a" (.built (.probe "old" true)))] (.fresh "T")).take 1) (.fresh "T")
    let argument : Argument :=
      .piece (.text "x") (.take (.op (.register (.handle "a") (.built (.probe "new" true)) false)) .done)
    s.reach (.handle "a") = some 0 ∧ s.isOpen 0 = true ∧
      ((Step.format (.handle "a") .info none argument).run s).2.world.journal =
        (perform argument.steps (s.enter 0)).world.journal ++ [.called 1 (.write ⟨.info, none, "x"⟩)] := by
  intro s argument
  have reached : s.reach (.handle "a") = some 0 := by decide
  have opened : s.isOpen 0 = true := by decide
  obtain ⟨_, _, _, _, _, journal, _, _, _, replaced⟩ :=
    (reentry "T" [.op (.make "a" (.built (.probe "old" true)))] 1 (.handle "a") 0 .info none argument reached
      (by decide)).2 opened "x" (by decide)
  have ids : (perform argument.steps (s.enter 0)).ids 0 = [1] :=
    replaced [] (.handle "a") (.built (.probe "new" true)) [] ⟨1, .probe⟩ rfl (by decide) (by decide) rfl (by decide)
  have used : (perform argument.steps (s.enter 0)).leave.inUse 0 = true := by decide
  refine ⟨reached, opened, ?_⟩
  rw [used, ids] at journal
  simpa using journal

end LogFanout
