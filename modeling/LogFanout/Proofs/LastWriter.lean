import LogFanout.Proofs.Banner

/- Who has set the flag.

   The flag of the process is one cell that the process, the instance and all handles of former instances know. It is set by
   `create`, and by the setters that are addressed to the process or to the manager in the slot (`Action.sets`); a manager
   that was made on its own has a cell of its own, which is set by the setters that are addressed to it (`Action.setsOwn`).
   Each action leaves a cell at what it sets it to, if it sets it, and else as it was. So after a run a cell holds what it
   was last set to (`last_writer`), which is a fact about any cell with such an equation (`last_setting`). -/
namespace LogFanout

namespace System

variable {s t : System}

def switches (s : System) : List Switch := s.managers.map Manager.switch

/-- No switch is turned: the flag stays as it is, and every manager looks where it has looked, and sees the same there. -/
structure Unswitched (s t : System) : Prop where
  flag : t.processFlag = s.processFlag
  switches : s.switches <+: t.switches

namespace Unswitched

theorem of_eq (flag : t.processFlag = s.processFlag) (managers : t.managers = s.managers) : s.Unswitched t :=
  ⟨flag, by simp only [System.switches, managers, List.prefix_rfl]⟩

theorem refl (s : System) : s.Unswitched s := of_eq rfl rfl

theorem trans {u : System} (first : s.Unswitched t) (second : t.Unswitched u) : s.Unswitched u :=
  ⟨second.flag.trans first.flag, first.switches.trans second.switches⟩

theorem of_set {m : Nat} {old new : Manager} (found : s.managers[m]? = some old) (managers : t.managers = s.managers.set m new)
    (same : new.switch = old.switch) (flag : t.processFlag = s.processFlag) : s.Unswitched t := by
  refine ⟨flag, ?_⟩
  have here : (s.managers.map Manager.switch)[m]? = some new.switch := by simp [found, same]
  obtain ⟨bound, here⟩ := List.getElem?_eq_some_iff.mp here
  simp only [System.switches, managers, List.map_set, ← here, List.set_getElem_self, List.prefix_rfl]

theorem fanOut (s : System) (m : Nat) (c : Call) : s.Unswitched (s.fanOut m c) := by
  cases found : s.managers[m]? with
  | none =>
    simp only [System.fanOut, found]
    exact refl s
  | some manager =>
    rw [fanOut_some found]
    exact of_set found rfl rfl rfl

theorem announce (s : System) (m : Nat) (before after : Bool) : s.Unswitched (s.announce m before after) := by
  unfold System.announce
  split
  · exact fanOut s m _
  · exact refl s

theorem written (s : System) (m : Nat) (r : Record) : s.Unswitched (s.written (s.write m r)).2 := by
  unfold System.write
  split
  · exact refl s
  · simp only [System.written]
    split
    · exact fanOut s m _
    · exact refl s

theorem rename (s : System) (m : Nat) (name : String) : s.Unswitched (s.rename m name) := by
  unfold System.rename
  split
  · exact fanOut s m _
  · exact refl s

/-! ## Managers that get and lose sinks -/

theorem discard (s : System) (sinks : List Sink) : s.Unswitched (s.discard sinks) := of_eq rfl rfl

theorem register (s : System) (m : Nat) (sink : Sink) (append : Bool) : s.Unswitched (s.register m sink append).2 := by
  unfold System.register
  split
  · exact discard s _
  · rename_i manager found
    split
    · exact discard s _
    · cases append <;> exact of_set found rfl rfl rfl

theorem release (s : System) (m : Nat) : s.Unswitched (s.release m) := by
  unfold System.release
  split
  · exact refl s
  · split
    · exact refl s
    · rename_i manager found
      exact of_set found rfl rfl rfl

theorem withdraw (s : System) : s.Unswitched s.withdraw := by
  unfold System.withdraw
  split
  · exact refl s
  · rename_i m seated
    unfold System.retire
    split
    · exact of_eq rfl rfl
    · rename_i manager found
      have found : s.managers[m]? = some manager := found
      exact of_set found rfl rfl rfl

theorem newManager (s : System) (sinks : List Sink) : s.Unswitched (s.newManager sinks).2 :=
  ⟨rfl, ⟨[.own true], by simp [System.switches, System.newManager, Manager.ofSinks]⟩⟩

theorem keepHandle (s : System) (name : String) (m : Nat) : s.Unswitched (s.keepHandle name m) := by
  have kept : s.Unswitched { s with handles := s.handles.put name m } := of_eq rfl rfl
  unfold System.keepHandle
  split
  · exact kept
  · exact kept.trans (release _ _)

theorem dropHandle (s : System) (name : String) : s.Unswitched (s.dropHandle name).2 := by
  unfold System.dropHandle
  split
  · exact refl s
  · exact (of_eq rfl rfl : s.Unswitched { s with handles := s.handles.erase name }).trans (release _ _)

/-! ## Sinks that no manager has -/

theorem obtain (s : System) (source : Source) : s.Unswitched (obtain source s).2 := by
  unfold System.obtain
  split
  · split <;> exact of_eq rfl rfl
  · split <;> exact of_eq rfl rfl

theorem withSink (s : System) (source : Source) {f : Sink → System → Reply × System}
    (kept : ∀ (sink : Sink) (t : System), t.Unswitched (f sink t).2) : s.Unswitched (s.withSink source f).2 := by
  have fetched := obtain s source
  unfold System.withSink
  generalize System.obtain source s = outcome at fetched ⊢
  obtain ⟨made, t⟩ := outcome
  cases made with
  | error r => exact fetched
  | ok sink => exact fetched.trans (kept sink t)

theorem holdSink (s : System) (name : String) (sink : Sink) : s.Unswitched (s.holdSink name sink) := by
  unfold System.holdSink
  split <;> exact of_eq rfl rfl

theorem dropSink (s : System) (name : String) : s.Unswitched (s.dropSink name).2 := by
  unfold System.dropSink
  split <;> exact of_eq rfl rfl

theorem changeDisk (s : System) (changed : Except DiskError Disk) : s.Unswitched (s.changeDisk changed).2 := by
  cases changed <;> exact of_eq rfl rfl

theorem sayAll (s : System) (lines : List String) :
    s.Unswitched (lines.foldl (fun s line => s.say (line ++ "\n")) s) := by
  induction lines generalizing s with
  | nil => exact refl s
  | cons line rest ih => exact (of_eq rfl rfl : s.Unswitched (s.say (line ++ "\n"))).trans (ih _)

theorem withHandle (s : System) {name : String} {f : Nat → Reply × System} (kept : ∀ m, s.Unswitched (f m).2) :
    s.Unswitched (s.withHandle name f).2 := by
  unfold System.withHandle
  split
  · exact refl s
  · exact kept _

theorem withBuffer (s : System) {name : String} {f : Nat → List String → Reply × System}
    (kept : ∀ sink lines, s.Unswitched (f sink lines).2) : s.Unswitched (s.withBuffer name f).2 := by
  unfold System.withBuffer
  split
  · exact refl s
  · exact kept _ _

end Unswitched

end System

open LogFanout.System (Unswitched)

variable {s t : System} {a : Action} {o : Op}

def Op.founds : Op → Bool
  | .create _ _ => true
  | _ => false

/-- Operations turn no switch, except the setters and `create`. -/
theorem Op.run_unswitched (plain : (Action.op o).switch? = none) (other : o.founds = false) (s : System) :
    s.Unswitched (o.run s).2 := by
  cases o with
  | make handle source => exact .withSink s source fun sink t => (Unswitched.newManager t [sink]).trans (.keepHandle _ handle _)
  | makeEmpty handle => exact (Unswitched.newManager s []).trans (.keepHandle _ handle _)
  | dropHandle handle => exact .dropHandle s handle
  | same one other => exact .withHandle s fun _ => .withHandle s fun _ => .refl s
  | create source handle => cases other
  | destroy => exact .withdraw s
  | takeInstance handle =>
    simp only [Op.run]
    split
    · exact .refl s
    · exact .keepHandle s handle _
  | register whom source append =>
    cases whom with
    | handle name => exact .withHandle s fun m => .withSink s source fun sink t => .register t m sink append
    | process =>
      refine .withSink s source fun sink t => ?_
      simp only [System.registerInstance]
      split
      · exact .register t _ sink append
      · exact .of_eq rfl rfl
  | setEnabled whom on => cases plain
  | setSaveLevel whom l => cases plain
  | status whom =>
    cases whom with
    | handle name => exact .withHandle s fun _ => .refl s
    | process => exact .refl s
  | write whom r =>
    cases whom with
    | handle name => exact .withHandle s fun m => .written s m r
    | process =>
      simp only [Op.run, System.writeInstance]
      split
      · split
        · exact .written s _ r
        · exact .refl s
      · exact .refl s
  | rename whom name =>
    cases whom with
    | handle _ => exact .withHandle s fun m => .rename s m name
    | process =>
      simp only [Op.run, System.renameInstance]
      split
      · exact .rename s _ name
      · exact .refl s
  | flush whom =>
    cases whom with
    | handle name => exact .withHandle s fun m => .fanOut s m .flush
    | process =>
      simp only [Op.run, System.flushInstance]
      split
      · exact .fanOut s _ .flush
      · exact .refl s
  | drainText logs => exact .withBuffer s fun _ _ => .of_eq rfl rfl
  | drainLines logs => exact .withBuffer s fun _ _ => .of_eq rfl rfl
  | bufferSize logs => exact .withBuffer s fun _ _ => .refl s
  | drainToConsole logs => exact .withBuffer s fun _ lines => (Unswitched.sayAll s lines).trans (.of_eq rfl rfl)
  | hold name source => exact .withSink s source fun sink t => .holdSink t name sink
  | callSink name c =>
    simp only [Op.run, System.callSink]
    split <;> (rename_i called; split at called <;> cases called)
    · exact .refl s
    · exact .of_eq rfl rfl
  | sinkStatus name => exact .refl s
  | dropSink name => exact .dropSink s name
  | put path bytes => exact .changeDisk s _
  | makeFolder path => exact .changeDisk s _
  | remove path => exact .changeDisk s _
  | read path =>
    simp only [Op.run]
    split <;> exact .refl s
  | list => exact .refl s
  | loadOptions path =>
    simp only [Op.run]
    split <;> exact .refl s
  | wait stamp => exact .of_eq rfl rfl

/-- Making the instance sets the flag, unless there is no sink for it, and leaves the switches of all others alone. -/
theorem Op.run_founds (founds : o.founds = true) (s : System) :
    (o.run s).2.processFlag = ((o.creates s).map fun _ => true).getD s.processFlag ∧ s.switches <+: (o.run s).2.switches := by
  cases o with
  | create source handle =>
    have fetched := (Unswitched.withdraw s).trans (.obtain s.withdraw source)
    simp only [Op.run, Op.creates, System.create]
    generalize System.obtain source s.withdraw = outcome at fetched ⊢
    obtain ⟨made, t⟩ := outcome
    cases made with
    | error r => exact ⟨fetched.flag, fetched.switches⟩
    | ok sink =>
      have installed : t.switches <+: (t.install sink).2.switches :=
        ⟨[.shared], by simp [System.switches, System.install, Manager.ofSinks]⟩
      cases handle with
      | none => exact ⟨rfl, fetched.switches.trans installed⟩
      | some name =>
        have kept := Unswitched.keepHandle (t.install sink).2 name t.managers.length
        exact ⟨kept.flag, (fetched.switches.trans installed).trans kept.switches⟩
  | _ => cases founds

/-! ## What sets a flag -/

/-- What an action sets the flag of the process to: `create` sets it if it makes an instance, and so does a setter that is
    addressed to the process or to the manager in the slot. -/
def Action.sets (a : Action) (s : System) : Option Bool :=
  match a with
  | .op (.create source handle) => ((Op.create source handle).creates s).map fun _ => true
  | a =>
    match a.switch? with
    | none => none
    | some (whom, on) => if whom = .process ∨ s.slot ≠ none ∧ s.reach whom = s.slot then some on else none

/-- What an action sets the flag of a manager with a flag of its own to: a setter sets it if it is addressed to it. -/
def Action.setsOwn (m : Nat) (a : Action) (s : System) : Option Bool :=
  match a.switch? with
  | none => none
  | some (whom, on) => if s.reach whom = some m then some on else none

variable {whom : Address} {on : Bool}

/-- A setter that is addressed to the process, which has no instance, sets the flag and does no more. -/
theorem Action.act_switch_vacant (switch : a.switch? = some (.process, on)) (vacant : s.slot = none) :
    a.act s = { s with processFlag := on } := by
  unfold Action.switch? at switch
  split at switch <;> cases switch
  · simp only [Action.act, Op.run, System.setInstanceEnabled, vacant]
  · simp only [Action.act, Op.run, System.setInstanceSaveLevel, vacant]

theorem Action.act_switch_unknown {name : String} (switch : a.switch? = some (.handle name, on))
    (unknown : s.handles.get? name = none) : a.act s = s := by
  unfold Action.switch? at switch
  split at switch <;> cases switch <;> simp only [Action.act, Op.run, System.withHandle, unknown]

theorem System.turn_flag {m : Nat} {manager : Manager} (found : s.managers[m]? = some manager) (on : Bool)
    (level : Option Level) :
    (s.turn m on level).processFlag = if manager.switch = .shared then on else s.processFlag := by
  have switched : (s.setSwitch m on).processFlag = if manager.switch = .shared then on else s.processFlag := by
    simp only [System.setSwitch, found]
    split
    · rename_i shared
      rw [if_pos shared]
    · rename_i own
      rw [if_neg (by simp [own])]
      rfl
  unfold System.turn
  split
  · split
    · rw [(Unswitched.fanOut _ m _).flag, switched]
    · exact switched
  · exact switched

/-- A setter sets the flag of the process if it is addressed to the process or to the manager in the slot. On the way, the
    managers that are not retired and those that share the flag have to be told apart: only the instance is both. -/
theorem Action.flag_switch (h : s.Possible) (switch : a.switch? = some (whom, on)) :
    (a.act s).processFlag =
      if whom = .process ∨ s.slot ≠ none ∧ s.reach whom = s.slot then on else s.processFlag := by
  cases reached : s.reach whom with
  | none =>
    have other : ¬ (s.slot ≠ none ∧ none = s.slot) := fun both => both.1 both.2.symm
    cases whom with
    | handle name => rw [Action.act_switch_unknown switch reached, if_neg (by simp [other])]
    | process => rw [Action.act_switch_vacant switch reached, if_pos (.inl rfl)]
  | some m =>
    obtain ⟨manager, found⟩ := h.reach reached
    have seated : (whom = .process ∨ s.slot ≠ none ∧ some m = s.slot) ↔ s.slot = some m := by
      refine ⟨?_, fun here => .inr ⟨by simp [here], here.symm⟩⟩
      rintro (rfl | ⟨_, here⟩)
      · exact reached
      · exact here.symm
    simp only [seated]
    rw [a.act_switch switch reached found]
    cases retired : manager.retired with
    | true =>
      have out : s.slot ≠ some m := by
        intro here
        obtain ⟨_, there, active, _⟩ := h.formed.seated m here
        cases found.symm.trans there
        cases retired.symm.trans active
      rw [if_pos rfl, if_neg out]
    | false =>
      have shares : manager.switch = .shared ↔ s.slot = some m := by
        refine ⟨h.formed.seated_of_shared found retired, fun here => ?_⟩
        obtain ⟨_, there, _, shared⟩ := h.formed.seated m here
        cases found.symm.trans there
        exact shared
      rw [if_neg Bool.false_ne_true, (Unswitched.announce _ m _ on).flag, System.turn_flag found]
      simp only [shares]

/-- The flag of the process after an action is what the action sets it to, if it sets it. -/
theorem Action.flag_act (h : s.Possible) (a : Action) : (a.act s).processFlag = (a.sets s).getD s.processFlag := by
  cases switch : a.switch? with
  | some pair =>
    obtain ⟨whom, on⟩ := pair
    have set : a.sets s = if whom = .process ∨ s.slot ≠ none ∧ s.reach whom = s.slot then some on else none := by
      unfold Action.sets
      split
      · cases switch
      · simp only [switch]
    rw [a.flag_switch h switch, set]
    split <;> rfl
  | none =>
    cases a with
    | op o =>
      cases founds : o.founds with
      | true =>
        have made := (Op.run_founds founds s).1
        cases o with
        | create source handle => exact made
        | _ => cases founds
      | false =>
        have set : (Action.op o).sets s = none := by
          unfold Action.sets
          split
          · rename_i same
            cases same
            cases founds
          · simp only [switch]
        rw [set]
        exact (Op.run_unswitched switch founds s).flag
    | enter m => rfl
    | note r => rfl
    | send m r => exact (((Unswitched.of_eq rfl rfl : s.Unswitched s.leave).trans (.fanOut _ m _)).trans (.release _ m)).flag
    | giveUp m => exact ((Unswitched.of_eq rfl rfl : s.Unswitched s.leave).trans (.release _ m)).flag

theorem Op.sets_aside (addressed : (Step.op o).addressee = some whom) {m : Nat} (reached : s.reach whom = some m)
    (out : s.slot ≠ some m) : (Action.op o).sets s = none := by
  have nobody : ¬ (whom = .process ∨ s.slot ≠ none ∧ s.reach whom = s.slot) := by
    rintro (rfl | ⟨_, seated⟩)
    · exact out reached
    · exact out (seated.symm.trans reached)
  cases o with
  | setEnabled other on =>
    cases addressed
    simp only [Action.sets, Action.switch?, if_neg nobody]
  | setSaveLevel other l =>
    cases addressed
    simp only [Action.sets, Action.switch?, if_neg nobody]
  | create source handle => cases addressed
  | _ => rfl

/-! ## Managers with a flag of their own -/

/-- All managers keep their switches, except for what setters do. -/
theorem Action.switches_act (plain : a.switch? = none) (s : System) : s.switches <+: (a.act s).switches := by
  cases a with
  | op o =>
    cases founds : o.founds with
    | true => exact (Op.run_founds founds s).2
    | false => exact (Op.run_unswitched plain founds s).switches
  | enter m => exact List.prefix_rfl
  | note r => exact List.prefix_rfl
  | send m r =>
    exact (((Unswitched.of_eq rfl rfl : s.Unswitched s.leave).trans (.fanOut _ m _)).trans (.release _ m)).switches
  | giveUp m => exact ((Unswitched.of_eq rfl rfl : s.Unswitched s.leave).trans (.release _ m)).switches

theorem System.enabled_of_switch {m : Nat} {on : Bool} (switch : s.switches[m]? = some (.own on)) :
    s.enabled m = on := by
  simp only [System.switches, List.getElem?_map, Option.map_eq_some_iff] at switch
  obtain ⟨manager, found, own⟩ := switch
  rw [System.enabled_of found, Manager.enabled, own]

theorem System.switch_of_prefix (kept : s.switches <+: t.switches) {m : Nat} {switch : Switch}
    (here : s.switches[m]? = some switch) : t.switches[m]? = some switch := by
  obtain ⟨bound, rfl⟩ := List.getElem?_eq_some_iff.mp here
  exact List.prefix_iff_getElem?.mp kept m bound

/-- A manager's own flag is set by the setters that are addressed to the manager, and by nothing else. -/
theorem Action.enabled_own (h : s.Possible) {m : Nat} (own : s.kinds[m]? = some false) (a : Action) :
    (a.act s).enabled m = (a.setsOwn m s).getD (s.enabled m) := by
  obtain ⟨manager, found, kind⟩ := exists_of_kind own
  have kind : manager.switch ≠ .shared := by simpa using kind
  unfold Action.setsOwn
  cases switch : a.switch? with
  | some pair =>
    obtain ⟨whom, on⟩ := pair
    have active : manager.retired = false :=
      Bool.eq_false_iff.mpr fun retired => kind ((h.formed.sound m manager found).former retired)
    rw [Action.enabled_act h switch (System.live_iff.mpr ⟨manager, found, active⟩)]
    simp only
    split <;> rfl
  | none =>
    obtain ⟨on, own⟩ : ∃ on, manager.switch = .own on := by
      cases switch : manager.switch with
      | own on => exact ⟨on, rfl⟩
      | shared => exact absurd switch kind
    have here : s.switches[m]? = some (.own on) := by simp [System.switches, found, own]
    have there := System.switch_of_prefix (Action.switches_act switch s) here
    exact (System.enabled_of_switch there).trans (System.enabled_of_switch here).symm

/-- A manager that is made on its own begins with its flag on. -/
theorem Op.makes_enabled {m : Nat} (made : o.makes s = some m) : (o.run s).2.enabled m = true := by
  have begun (t : System) (sinks : List Sink) (handle : String) :
      ((t.newManager sinks).2.keepHandle handle t.managers.length).enabled t.managers.length = true := by
    have here : (t.newManager sinks).2.switches[t.managers.length]? = some (.own true) := by
      simp [System.switches, System.newManager, Manager.ofSinks]
    exact System.enabled_of_switch (System.switch_of_prefix (Unswitched.keepHandle _ handle _).switches here)
  cases o with
  | make handle source =>
    simp only [Op.makes] at made
    split at made
    · rename_i sink t obtained
      cases made
      simp only [Op.run, System.withSink, obtained]
      exact begun t [sink] handle
    · cases made
  | makeEmpty handle =>
    cases made
    exact begun s [] handle
  | _ => cases made

/-! ## Cells over a run -/

/-- A cell that each action leaves at what it sets it to, and else as it was, holds what it was last set to. -/
theorem last_setting (cell : System → Bool) (sets : Action → System → Option Bool) {P : System → Prop}
    (step : ∀ a s, P s → P (a.act s) ∧ cell (a.act s) = (sets a s).getD (cell s)) (p : List Action) (h : P s) :
    cell (play p s) = (occurrences sets p s).getLast?.getD (cell s) := by
  induction p generalizing s with
  | nil => rfl
  | cons a rest ih =>
    obtain ⟨kept, set⟩ := step a s h
    rw [play_cons, ih kept, set, occurrences]
    -- what comes later counts; only if there is nothing does the first action
    cases last : (occurrences sets rest (a.act s)).getLast? with
    | none =>
      rw [List.getLast?_eq_none_iff.mp last, List.append_nil]
      cases sets a s <;> rfl
    | some on => simp [List.getLast?_append, last]

/-- At every moment of every run. The flag of the process is what it was last set to, by `create` or by a setter that was
    addressed to the process or to the manager in the slot, and off if it was never set; that is also what the process
    replies. An action that sets it to nothing leaves it as it is, and no operation on a manager that is retired or was made
    on its own sets it. The flag of a manager that was made on its own is what the setters that were addressed to it have
    last set it to, and on if there was none. -/
theorem last_writer (stamp : String) (steps : List Step) (n : Nat) :
    let p := (course steps (.fresh stamp)).take n
    let s := play p (.fresh stamp)
    s.processFlag = (occurrences Action.sets p (.fresh stamp)).getLast?.getD false ∧
    (Op.status .process).run s =
      (.processStatus ((occurrences Action.sets p (.fresh stamp)).getLast?.getD false) s.slot.isSome, s) ∧
    (∀ a : Action, a.sets s = none → (a.act s).processFlag = s.processFlag) ∧
    (∀ (o : Op) (whom : Address) (m : Nat) (manager : Manager), (Step.op o).addressee = some whom →
      s.reach whom = some m → s.managers[m]? = some manager → manager.retired = true ∨ Private stamp p m →
      (o.run s).2.processFlag = s.processFlag) ∧
    ∀ (before : List Action) (o : Op) (after : List Action) (m : Nat), p = before ++ .op o :: after →
      o.makes (play before (.fresh stamp)) = some m →
      s.enabled m =
        (occurrences (Action.setsOwn m) after (play (before ++ [.op o]) (.fresh stamp))).getLast?.getD true := by
  intro p s
  have possible : s.Possible := .play stamp p
  have flag : s.processFlag = (occurrences Action.sets p (.fresh stamp)).getLast?.getD false :=
    last_setting System.processFlag Action.sets (P := System.Possible) (fun a t h => ⟨h.act a, a.flag_act h⟩) p
      (.play stamp [])
  refine ⟨flag, by rw [← flag]; rfl, ?_, ?_, ?_⟩
  · intro a none
    rw [a.flag_act possible, none]
    rfl
  · intro o whom m manager addressed reached found aside
    have out : s.slot ≠ some m := by
      intro seated
      obtain ⟨_, there, active, shared⟩ := possible.formed.seated m seated
      cases found.symm.trans there
      rcases aside with retired | made
      · cases active.symm.trans retired
      · obtain ⟨_, there, own⟩ := made.kind
        cases found.symm.trans there
        exact own shared
    have set := Action.flag_act possible (.op o)
    rwa [Op.sets_aside addressed reached out] at set
  · rintro before o after m split made
    have begun : play (before ++ [.op o]) (.fresh stamp) = (o.run (play before (.fresh stamp))).2 := by
      rw [play_append]
      rfl
    have all : s = play after (play (before ++ [.op o]) (.fresh stamp)) := by
      rw [← play_append, List.append_assoc, List.singleton_append, ← split]
    have on : (play (before ++ [.op o]) (.fresh stamp)).enabled m = true := begun ▸ Op.makes_enabled made
    have own : (play (before ++ [.op o]) (.fresh stamp)).kinds[m]? = some false := begun ▸ Op.makes_kind made
    rw [all, ← on]
    refine last_setting (fun t => t.enabled m) (Action.setsOwn m) (P := fun t => t.Possible ∧ t.kinds[m]? = some false)
      (fun a t h => ⟨⟨h.1.act a, ?_⟩, ?_⟩) after ⟨.play stamp _, own⟩
    · exact System.kind_of_prefix (play_kinds [a] t) h.2
    · exact Action.enabled_own h.1 h.2 a

end LogFanout
