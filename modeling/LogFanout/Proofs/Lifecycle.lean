import LogFanout.Proofs.Course

/- The life of a manager.

   `WellFormed` ties together what a system keeps in four places: the slot, the switch of a manager, the bit that says that
   it is retired, and the count beside its list. A manager that shares the flag of the process is either the one in the
   slot or retired, and a retired one has no sinks; every other manager is never retired; the count is the length of the
   list. No change destroys this (`Change.wellFormed`), so it holds at every moment of every run.

   What a manager shares is settled when it is made (`kinds`): the managers that `create` has returned share the flag, and
   those that were made on their own do not. `lifecycle` puts both together. -/
namespace LogFanout

/-- A manager that agrees with itself: its count is right, and if it is retired, it was the instance and has no sinks. -/
structure Manager.Sound (m : Manager) : Prop where
  counted : m.count = m.sinks.length
  bare : m.retired = true → m.sinks = []
  former : m.retired = true → m.switch = .shared

theorem Manager.ofSinks_sound (sinks : List Sink) (switch : Switch) : (Manager.ofSinks sinks switch).Sound :=
  ⟨rfl, fun retired => absurd retired Bool.false_ne_true, fun retired => absurd retired Bool.false_ne_true⟩

theorem Manager.Sound.isOpen_iff {m : Manager} (h : m.Sound) (flag : Bool) :
    m.isOpen flag = true ↔ m.enabled flag = true ∧ m.sinks ≠ [] ∧ m.retired = false := by
  simp [Manager.isOpen, h.counted, List.length_pos_iff, and_assoc]

namespace System

/-- Every manager is sound; the one in the slot is live and shares the flag; all others that share it are retired. -/
structure WellFormed (s : System) : Prop where
  sound : ∀ (m : Nat) (manager : Manager), s.managers[m]? = some manager → manager.Sound
  seated : ∀ m, s.slot = some m →
    ∃ manager, s.managers[m]? = some manager ∧ manager.retired = false ∧ manager.switch = .shared
  unseated : ∀ (m : Nat) (manager : Manager), s.managers[m]? = some manager → manager.switch = .shared →
    s.slot ≠ some m → manager.retired = true

namespace WellFormed

theorem fresh (stamp : String) : WellFormed (.fresh stamp) := by
  constructor
  · intro m manager found
    cases found
  · intro m seated
    cases seated
  · intro m manager found
    cases found

theorem of_eq {s t : System} (h : WellFormed s) (managers : t.managers = s.managers) (slot : t.slot = s.slot) :
    WellFormed t := by
  obtain ⟨sound, seated, unseated⟩ := h
  constructor
  · rw [managers]; exact sound
  · rw [managers, slot]; exact seated
  · rw [managers, slot]; exact unseated

/-- A sound manager can stand in for another that is as retired as it and shares the flag exactly if it does. -/
theorem setManager {s : System} (h : WellFormed s) {m : Nat} {old new : Manager} (found : s.managers[m]? = some old)
    (sound : new.Sound) (retired : new.retired = old.retired) (kind : new.switch = .shared ↔ old.switch = .shared) :
    WellFormed (s.setManager m new) := by
  have bound := (List.getElem?_eq_some_iff.mp found).1
  have here : (s.managers.set m new)[m]? = some new := by simp [bound]
  refine ⟨?_, ?_, ?_⟩
  · intro n manager hn
    by_cases same : m = n
    · subst same
      cases here.symm.trans hn
      exact sound
    · exact h.sound n manager (by simpa [System.setManager, same] using hn)
  · intro n hn
    obtain ⟨manager, at_n, live, shared⟩ := h.seated n hn
    by_cases same : m = n
    · subst same
      cases found.symm.trans at_n
      exact ⟨new, here, retired.trans live, kind.mpr shared⟩
    · exact ⟨manager, by simpa [System.setManager, same] using at_n, live, shared⟩
  · intro n manager hn shared out
    by_cases same : m = n
    · subst same
      cases here.symm.trans hn
      exact retired.trans (h.unseated m old found (kind.mp shared) out)
    · exact h.unseated n manager (by simpa [System.setManager, same] using hn) shared out

end WellFormed

theorem deliver_length (c : Call) (sinks : List Sink) (w : World) :
    (World.deliver c sinks w).1.length = sinks.length := by
  simpa using congrArg List.length (World.deliver_ids c sinks w)

theorem fanOut_wellFormed {s : System} (h : WellFormed s) (m : Nat) (c : Call) : WellFormed (s.fanOut m c) := by
  cases found : s.managers[m]? with
  | none => simpa [fanOut, found] using h
  | some manager =>
    have sound := h.sound m manager found
    have called : WellFormed { s with world := (World.deliver c manager.sinks s.world).2 } := h.of_eq rfl rfl
    rw [fanOut_some found]
    refine called.setManager found ⟨?_, ?_, sound.former⟩ rfl Iff.rfl
    · exact sound.counted.trans (deliver_length c manager.sinks s.world).symm
    · intro retired
      show (World.deliver c manager.sinks s.world).1 = []
      rw [sound.bare retired]
      rfl

/-- No change makes an ill-formed system of a well-formed one. -/
theorem Change.wellFormed {x y : Loaded} (change : Change x y) (h : WellFormed x.2) : WellFormed y.2 := by
  cases change with
  | fanOut hand s m c => exact fanOut_wellFormed h m c
  | setSwitch hand s m manager on found live =>
    have sound := h.sound m manager found
    simp only [System.setSwitch, found]
    split
    · exact h.of_eq rfl rfl
    · rename_i was own
      refine h.setManager found ⟨sound.counted, sound.bare, ?_⟩ rfl (by simp [own])
      intro retired
      exact absurd (retired : manager.retired = true) (by simp [live])
  | join hand s m manager sink found live =>
    refine h.setManager found ⟨rfl, ?_, ?_⟩ rfl Iff.rfl
    · intro retired
      exact absurd (retired : manager.retired = true) (by simp [live])
    · intro retired
      exact absurd (retired : manager.retired = true) (by simp [live])
  | clear hand s m manager found =>
    exact WellFormed.setManager (s := s.discard manager.sinks) (h.of_eq rfl rfl) found
      ⟨rfl, fun _ => rfl, (h.sound m manager found).former⟩ rfl Iff.rfl
  | found sinks hand s =>
    -- the newcomer is on its own, so the slot and those who share the flag are who they were
    have old {m : Nat} {manager : Manager} (at_m : s.managers[m]? = some manager) :
        (s.newManager sinks).2.managers[m]? = some manager := by
      have bound := (List.getElem?_eq_some_iff.mp at_m).1
      simpa [newManager, List.getElem?_append_left bound] using at_m
    have split {m : Nat} {manager : Manager} (at_m : (s.newManager sinks).2.managers[m]? = some manager) :
        s.managers[m]? = some manager ∨ manager = .ofSinks sinks (.own true) := by
      simp only [newManager, List.getElem?_append] at at_m
      split at at_m
      · exact .inl at_m
      · exact .inr (by simpa using List.mem_of_getElem? at_m)
    refine ⟨?_, ?_, ?_⟩
    · intro m manager at_m
      rcases split at_m with at_m | rfl
      · exact h.sound m manager at_m
      · exact Manager.ofSinks_sound _ _
    · intro m seated
      obtain ⟨manager, at_m, rest⟩ := h.seated m seated
      exact ⟨manager, old at_m, rest⟩
    · intro m manager at_m shared out
      rcases split at_m with at_m | rfl
      · exact h.unseated m manager at_m shared out
      · cases shared
  | install hand s sink vacant =>
    have split {m : Nat} {manager : Manager} (at_m : (s.install sink).2.managers[m]? = some manager) :
        (m < s.managers.length ∧ s.managers[m]? = some manager) ∨
          (m = s.managers.length ∧ manager = .ofSinks [sink] .shared) := by
      simp only [System.install, List.getElem?_append] at at_m
      split at at_m
      · exact .inl ⟨‹_›, at_m⟩
      · rename_i past
        have bound := (List.getElem?_eq_some_iff.mp at_m).1
        simp only [List.length_singleton] at bound
        exact .inr ⟨by omega, by simpa using List.mem_of_getElem? at_m⟩
    refine ⟨?_, ?_, ?_⟩
    · intro m manager at_m
      rcases split at_m with ⟨_, at_m⟩ | ⟨_, rfl⟩
      · exact h.sound m manager at_m
      · exact Manager.ofSinks_sound _ _
    · intro m seated
      cases seated
      exact ⟨.ofSinks [sink] .shared, by simp [System.install], rfl, rfl⟩
    · intro m manager at_m shared out
      rcases split at_m with ⟨_, at_m⟩ | ⟨rfl, _⟩
      · exact h.unseated m manager at_m shared (by simp [vacant])
      · exact absurd rfl out
  | depose hand s m manager seated found bare =>
    -- the manager is retired by the very change that takes it out of the slot
    obtain ⟨_, at_m, live, shared⟩ := h.seated m seated
    cases found.symm.trans at_m
    have sound := h.sound m manager found
    have bound := (List.getElem?_eq_some_iff.mp found).1
    refine ⟨?_, fun n seated => absurd seated.symm (Option.some_ne_none n), ?_⟩
    · intro n other hn
      by_cases same : m = n
      · subst same
        simp only [System.setManager, List.getElem?_set_self bound, Option.some.injEq] at hn
        subst hn
        exact ⟨sound.counted, fun _ => bare, fun _ => shared⟩
      · exact h.sound n other (by simpa [System.setManager, same] using hn)
    · intro n other hn kind _
      by_cases same : m = n
      · subst same
        simp only [System.setManager, List.getElem?_set_self bound, Option.some.injEq] at hn
        subst hn
        rfl
      · apply h.unseated n other (by simpa [System.setManager, same] using hn) kind
        rw [seated]
        simpa using same
  | vacate hand s m seated unknown =>
    -- the manager in the slot is always there
    obtain ⟨manager, at_m, _⟩ := h.seated m seated
    cases unknown.symm.trans at_m
  | _ => exact h.of_eq rfl rfl

end System

/-- At every moment of a run the system is well-formed. -/
theorem play_wellFormed (actions : List Action) {s : System} (h : s.WellFormed) : (play actions s).WellFormed :=
  play_induction (P := fun x => x.2.WellFormed) (fun _ _ change => change.wellFormed) (fun _ _ h => h.of_eq rfl rfl)
    (fun _ _ h => h.of_eq rfl rfl) actions s h

/-! ## Whom a step reaches -/

/-- Whom a step is addressed to, if it is addressed to a manager. -/
def Step.addressee : Step → Option Address
  | .op (.register whom _ _) | .op (.setEnabled whom _) | .op (.setSaveLevel whom _) | .op (.status whom)
  | .op (.write whom _) | .op (.rename whom _) | .op (.flush whom) | .format whom _ _ _ => some whom
  | _ => none

namespace System

def reach (s : System) : Address → Option Nat
  | .handle name => s.handles.get? name
  | .process => s.slot

/-- The instance looks at the flag twice, once for the process and once as a manager, and sees the same. -/
theorem WellFormed.closed_of_flag {s : System} (h : s.WellFormed) {m : Nat} (seated : s.slot = some m)
    (off : s.processFlag = false) : s.isOpen m = false := by
  obtain ⟨manager, found, _, shared⟩ := h.seated m seated
  simp [isOpen, found, Manager.isOpen, Manager.enabled, shared, off]

theorem WellFormed.taker {s : System} (h : s.WellFormed) {whom : Address} {m : Nat} (reached : s.reach whom = some m)
    {l : Level} (level : l ≠ .internal) : s.taker whom l = .ok (if s.isOpen m then some m else none) := by
  cases whom with
  | handle name =>
    have reached : s.handles.get? name = some m := reached
    simp [System.taker, reached, accepts, level]
  | process =>
    have reached : s.slot = some m := reached
    cases flag : s.processFlag with
    | true => simp [System.taker, instanceAccepts, flag, reached, accepts, level, Except.map]
    | false => simp [System.taker, instanceAccepts, flag, h.closed_of_flag reached flag]

theorem taker_internal (s : System) (whom : Address) (m : Nat) : s.taker whom .internal ≠ .ok (some m) := by
  intro taken
  cases whom with
  | handle name =>
    simp only [System.taker] at taken
    split at taken
    · cases taken
    · simp [accepts] at taken
  | process =>
    simp only [System.taker, instanceAccepts] at taken
    cases flag : s.processFlag <;> cases seated : s.slot <;> simp [flag, seated, accepts, Except.map] at taken

theorem run_internal (s : System) (whom : Address) (node : Option Node) (argument : Argument) :
    ((Step.format whom .internal node argument).run s).2 = s := by
  cases taken : s.taker whom .internal with
  | error r => simp only [Step.run, taken]
  | ok taker =>
    cases taker with
    | none => simp only [Step.run, taken]
    | some m => exact absurd taken (taker_internal s whom m)

variable {s : System} {whom : Address} {m : Nat}

theorem obtain_managers (source : Source) : (obtain source s).2.managers = s.managers ∧
    (obtain source s).2.slot = s.slot ∧ (obtain source s).2.running = s.running := by
  unfold obtain
  split
  · split <;> exact ⟨rfl, rfl, rfl⟩
  · split <;> exact ⟨rfl, rfl, rfl⟩

theorem run_setEnabled (reached : s.reach whom = some m) (on : Bool) :
    (Op.setEnabled whom on).run s = (.nothing, s.setEnabled m on) := by
  cases whom with
  | handle name => simp only [Op.run, withHandle, show s.handles.get? name = some m from reached]
  | process => simp only [Op.run, setInstanceEnabled, show s.slot = some m from reached]

theorem run_setSaveLevel (reached : s.reach whom = some m) (l : Level) :
    (Op.setSaveLevel whom l).run s = (.nothing, s.setSaveLevel m l) := by
  cases whom with
  | handle name => simp only [Op.run, withHandle, show s.handles.get? name = some m from reached]
  | process => simp only [Op.run, setInstanceSaveLevel, show s.slot = some m from reached]

theorem run_rename (reached : s.reach whom = some m) (name : String) :
    (Op.rename whom name).run s = (.nothing, s.rename m name) := by
  cases whom with
  | handle name => simp only [Op.run, withHandle, show s.handles.get? name = some m from reached]
  | process => simp only [Op.run, renameInstance, show s.slot = some m from reached]

theorem run_flush (reached : s.reach whom = some m) : (Op.flush whom).run s = (.nothing, s.flush m) := by
  cases whom with
  | handle name => simp only [Op.run, withHandle, show s.handles.get? name = some m from reached]
  | process => simp only [Op.run, flushInstance, show s.slot = some m from reached]

theorem run_register (reached : s.reach whom = some m) (source : Source) (append : Bool) :
    (Op.register whom source append).run s =
      s.withSink source fun sink t => (.truth (t.register m sink append).1, (t.register m sink append).2) := by
  cases whom with
  | handle name => simp only [Op.run, withHandle, show s.handles.get? name = some m from reached]
  | process =>
    have slot := (obtain_managers (s := s) source).2.1
    simp only [Op.run, withSink]
    generalize obtain source s = outcome at slot ⊢
    obtain ⟨made, t⟩ := outcome
    cases made with
    | error r => rfl
    | ok sink =>
      have seated : t.slot = some m := slot.trans reached
      simp only [registerInstance, seated]

/-- Only the reply to a misuse depends on who is asked: the process does not look at the level with logging off. -/
theorem WellFormed.run_write (h : s.WellFormed) (reached : s.reach whom = some m) (r : Record) :
    ((Op.write whom r).run s).2 = (s.written (s.write m r)).2 := by
  cases whom with
  | handle name => simp only [Op.run, withHandle, show s.handles.get? name = some m from reached]
  | process =>
    have reached : s.slot = some m := reached
    cases flag : s.processFlag with
    | true => simp only [Op.run, writeInstance, flag, if_true, reached]
    | false =>
      have closed := h.closed_of_flag reached flag
      by_cases level : r.level = .internal <;> simp [Op.run, writeInstance, flag, System.write, accepts, level, closed,
        written]

end System

/-! ## Who has made a manager -/

namespace System

/-- Of every manager, whether it shares the flag of the process. -/
def kinds (s : System) : List Bool := s.managers.map fun m => decide (m.switch = .shared)

theorem kinds_setManager_eq {s : System} {m : Nat} {old new : Manager} (found : s.managers[m]? = some old)
    (kind : new.switch = .shared ↔ old.switch = .shared) : (s.setManager m new).kinds = s.kinds := by
  obtain ⟨bound, rfl⟩ := List.getElem?_eq_some_iff.mp found
  apply List.ext_getElem (by simp [kinds, System.setManager])
  intro n h₁ h₂
  by_cases same : m = n
  · subst same
    simp [kinds, System.setManager, kind]
  · simp [kinds, System.setManager, same]

theorem kinds_setManager {s : System} {m : Nat} {old new : Manager} (found : s.managers[m]? = some old)
    (kind : new.switch = .shared ↔ old.switch = .shared) : s.kinds <+: (s.setManager m new).kinds := by
  simp [kinds_setManager_eq found kind]

theorem Change.kinds {x y : Loaded} (change : Change x y) : x.2.kinds <+: y.2.kinds := by
  cases change with
  | fanOut hand s m c =>
    cases found : s.managers[m]? with
    | none => simp [System.fanOut, found]
    | some manager =>
      rw [fanOut_some found]
      exact kinds_setManager (s := { s with world := _ }) found Iff.rfl
  | setSwitch hand s m manager on found live =>
    simp only [System.setSwitch, found]
    split
    · exact List.prefix_rfl
    · rename_i was own
      exact kinds_setManager found (by simp [own])
  | join hand s m manager sink found live => exact kinds_setManager found Iff.rfl
  | clear hand s m manager found => exact kinds_setManager (s := s.discard manager.sinks) found Iff.rfl
  | found sinks hand s => exact ⟨[false], by simp [System.kinds, newManager, Manager.ofSinks]⟩
  | install hand s sink vacant => exact ⟨[true], by simp [System.kinds, System.install, Manager.ofSinks]⟩
  | depose hand s m manager seated found bare =>
    exact kinds_setManager (s := { s with slot := none }) found Iff.rfl
  | _ => exact List.prefix_rfl

theorem Changes.kinds {x y : Loaded} (changes : Changes x y) : x.2.kinds <+: y.2.kinds := by
  induction changes with
  | refl => exact List.prefix_rfl
  | tail _ change ih => exact ih.trans change.kinds

theorem kind_of_prefix {s t : System} (h : s.kinds <+: t.kinds) {m : Nat} {kind : Bool} (at_m : s.kinds[m]? = some kind) :
    t.kinds[m]? = some kind := by
  obtain ⟨bound, rfl⟩ := List.getElem?_eq_some_iff.mp at_m
  exact List.prefix_iff_getElem?.mp h m bound

end System

namespace System

def Linked (s : System) : Prop := ∀ (name : String) (m : Nat), s.handles.get? name = some m → m < s.managers.length

/-- No change leaves a handle without a manager. -/
theorem Change.linked {x y : Loaded} (change : Change x y) (formed : x.2.WellFormed) (h : x.2.Linked) : y.2.Linked := by
  have grown : x.2.managers.length ≤ y.2.managers.length := by simpa [System.kinds] using change.kinds.length_le
  have same (handles : y.2.handles = x.2.handles) : y.2.Linked := by
    intro name m found
    rw [handles] at found
    exact Nat.lt_of_lt_of_le (h name m found) grown
  cases change with
  | keepHandle hand s kept n known =>
    intro name m found
    simp only [Table.get?_put] at found
    split at found
    · cases found
      rcases known with known | seated
      · exact known
      · obtain ⟨_, there, _⟩ := formed.seated n seated
        exact (List.getElem?_eq_some_iff.mp there).1
    · exact h name m found
  | dropHandle hand s dropped =>
    intro name m found
    simp only [Table.get?_erase] at found
    split at found
    · cases found
    · exact h name m found
  | fanOut hand s m c =>
    apply same
    simp only [System.fanOut]
    split <;> rfl
  | setSwitch hand s m manager on found live =>
    apply same
    simp only [System.setSwitch, found]
    split <;> rfl
  | _ => exact same rfl

end System

/-- At every moment of a run an address leads to a manager that is there, or to none. -/
theorem play_reach {stamp : String} (actions : List Action) {whom : Address} {m : Nat}
    (reached : (play actions (.fresh stamp)).reach whom = some m) :
    ∃ manager, (play actions (.fresh stamp)).managers[m]? = some manager := by
  have both := play_induction (P := fun x => x.2.WellFormed ∧ x.2.Linked)
    (fun _ _ change h => ⟨change.wellFormed h.1, change.linked h.1 h.2⟩) (fun _ _ h => ⟨h.1.of_eq rfl rfl, h.2⟩)
    (fun _ _ h => ⟨h.1.of_eq rfl rfl, h.2⟩) actions (.fresh stamp)
    ⟨.fresh stamp, fun _ m found => absurd found.symm (Option.some_ne_none m)⟩
  obtain ⟨formed, linked⟩ := both
  cases whom with
  | handle name => exact ⟨_, List.getElem?_eq_getElem (linked name m reached)⟩
  | process =>
    obtain ⟨manager, there, _⟩ := formed.seated m reached
    exact ⟨manager, there⟩

/-- The manager that an operation makes the instance. -/
def Op.creates (o : Op) (s : System) : Option Nat :=
  match o with
  | .create source _ => (s.create (System.obtain source)).1.toOption
  | _ => none

/-- The manager that an operation makes on its own. -/
def Op.makes (o : Op) (s : System) : Option Nat :=
  match o with
  | .make _ source =>
    match s.obtain source with
    | (.ok sink, s) => some (s.newManager [sink]).1
    | _ => none
  | .makeEmpty _ => some (s.newManager []).1
  | _ => none

theorem play_kinds (actions : List Action) (s : System) : s.kinds <+: (play actions s).kinds :=
  play_induction (P := fun x => s.kinds <+: x.2.kinds) (fun _ _ change h => h.trans change.kinds) (fun _ _ h => h)
    (fun _ _ h => h) actions s List.prefix_rfl

theorem Op.creates_kind {o : Op} {s : System} {m : Nat} (h : o.creates s = some m) :
    (o.run s).2.kinds[m]? = some true := by
  cases o with
  | create source handle =>
    simp only [Op.creates, System.create] at h
    simp only [Op.run, System.create]
    split at h
    · cases h
    · rename_i sink t made
      cases h
      have kind : (t.install sink).2.kinds[t.managers.length]? = some true := by
        simp [System.kinds, System.install, Manager.ofSinks]
      cases handle with
      | none => exact kind
      | some name =>
        have kept := System.Changes.keepHandle [] (t.install sink).2 name t.managers.length (.inr rfl)
        exact System.kind_of_prefix kept.kinds kind
  | _ => cases h

theorem Op.makes_kind {o : Op} {s : System} {m : Nat} (h : o.makes s = some m) :
    (o.run s).2.kinds[m]? = some false := by
  have own (t : System) (sinks : List Sink) (handle : String) :
      (((t.newManager sinks).2.keepHandle handle t.managers.length).kinds)[t.managers.length]? = some false := by
    have kind : (t.newManager sinks).2.kinds[t.managers.length]? = some false := by
      simp [System.kinds, System.newManager, Manager.ofSinks]
    have kept := System.Changes.keepHandle [] (t.newManager sinks).2 handle t.managers.length
      (.inl (by simp [System.newManager]))
    exact System.kind_of_prefix kept.kinds kind
  cases o with
  | make handle source =>
    simp only [Op.makes] at h
    split at h
    · rename_i sink t made
      cases h
      simp only [Op.run, System.withSink, made]
      exact own t [sink] handle
    · cases h
  | makeEmpty handle =>
    cases h
    exact own s [] handle
  | _ => cases h

/-! ## The invariant -/

/-- Managers that `create` has returned in the course of a run, or that have been the instance at some moment of it. -/
def Public (stamp : String) (p : List Action) (m : Nat) : Prop :=
  (∃ before o after, p = before ++ .op o :: after ∧ o.creates (play before (.fresh stamp)) = some m) ∨
    ∃ before after, p = before ++ after ∧ (play before (.fresh stamp)).slot = some m

/-- Managers that have been made on their own in the course of a run. -/
def Private (stamp : String) (p : List Action) (m : Nat) : Prop :=
  ∃ before o after, p = before ++ .op o :: after ∧ o.makes (play before (.fresh stamp)) = some m

theorem exists_of_kind {s : System} {m : Nat} {kind : Bool} (h : s.kinds[m]? = some kind) :
    ∃ manager, s.managers[m]? = some manager ∧ decide (manager.switch = .shared) = kind := by
  simpa [System.kinds] using h

theorem Public.kind {stamp : String} {p : List Action} {m : Nat} (h : Public stamp p m) :
    ∃ manager, (play p (.fresh stamp)).managers[m]? = some manager ∧ manager.switch = .shared := by
  have kind : (play p (.fresh stamp)).kinds[m]? = some true := by
    obtain ⟨before, o, after, rfl, made⟩ | ⟨before, after, rfl, seated⟩ := h
    · rw [play_append, play_cons]
      exact System.kind_of_prefix (play_kinds after _) (Op.creates_kind made)
    · obtain ⟨manager, found, _, shared⟩ := (play_wellFormed before (.fresh stamp)).seated m seated
      rw [play_append]
      exact System.kind_of_prefix (play_kinds after _) (by simp [System.kinds, found, shared])
  simpa using exists_of_kind kind

theorem Private.kind {stamp : String} {p : List Action} {m : Nat} (h : Private stamp p m) :
    ∃ manager, (play p (.fresh stamp)).managers[m]? = some manager ∧ manager.switch ≠ .shared := by
  have kind : (play p (.fresh stamp)).kinds[m]? = some false := by
    obtain ⟨before, o, after, rfl, made⟩ := h
    rw [play_append, play_cons]
    exact System.kind_of_prefix (play_kinds after _) (Op.makes_kind made)
  simpa using exists_of_kind kind

/-- At every moment of every run: the instance is live and follows the flag of the process; all others that `create` has
    returned, or that have been the instance, are retired and have no sinks; managers made on their own are not retired;
    counts are right, so that looking at them tells whether a write is taken. -/
theorem lifecycle (stamp : String) (steps : List Step) (n : Nat) :
    let p := (course steps (.fresh stamp)).take n
    let s := play p (.fresh stamp)
    (∀ m, s.slot = some m →
      ∃ manager, s.managers[m]? = some manager ∧ manager.retired = false ∧ manager.switch = .shared) ∧
    (∀ m, Public stamp p m → ∃ manager, s.managers[m]? = some manager ∧
      (manager.retired = true ↔ s.slot ≠ some m) ∧ (s.slot ≠ some m → manager.sinks = [])) ∧
    (∀ m, Private stamp p m → ∃ manager, s.managers[m]? = some manager ∧ manager.retired = false) ∧
    ∀ (m : Nat) (manager : Manager), s.managers[m]? = some manager →
      manager.count = manager.sinks.length ∧
      (s.isOpen m = true ↔ s.enabled m = true ∧ manager.sinks ≠ [] ∧ manager.retired = false) := by
  intro p s
  have formed : s.WellFormed := play_wellFormed p (.fresh stamp)
  refine ⟨formed.seated, ?_, ?_, ?_⟩
  · intro m made
    obtain ⟨manager, found, shared⟩ := made.kind
    have retired (out : s.slot ≠ some m) : manager.retired = true := formed.unseated m manager found shared out
    refine ⟨manager, found, ⟨?_, retired⟩, ?_⟩
    · intro gone seated
      obtain ⟨_, here, live, _⟩ := formed.seated m seated
      cases found.symm.trans here
      simp [live] at gone
    · intro out
      exact (formed.sound m manager found).bare (retired out)
  · intro m made
    obtain ⟨manager, found, own⟩ := made.kind
    exact ⟨manager, found, Bool.eq_false_iff.mpr fun retired => own ((formed.sound m manager found).former retired)⟩
  · intro m manager found
    have sound := formed.sound m manager found
    refine ⟨sound.counted, ?_⟩
    simp only [System.isOpen, System.enabled, found]
    exact sound.isOpen_iff s.processFlag

end LogFanout
