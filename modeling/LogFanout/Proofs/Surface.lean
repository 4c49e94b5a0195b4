import LogFanout.Proofs.Calls
import LogFanout.Proofs.Keeping

/- Two ways to the instance.

   What can be asked of a manager can be asked of the process, too (`Demand`). The process looks at its flag and at its slot
   before it passes a demand on, and the instance looks at its flag again. `surface` says that this makes no difference:
   a demand on the process comes to what it comes to on a handle that leads to the instance. The one exception is a write
   at the level of the manager's own messages, about which the process says nothing with logging off. So a run stays what it
   is if it goes through handles of the instance wherever there is one (`redirect_runAll`).

   Without an instance the setters set the flag, a sink is dropped, and nothing else happens. -/
namespace LogFanout

/-! ## Demands -/

/-- What can be asked of a manager behind a handle and of the process alike. -/
inductive Demand where
  | register (source : Source) (append : Bool)
  | setEnabled (on : Bool)
  | setSaveLevel (l : Level)
  | write (r : Record)
  | format (l : Level) (node : Option Node) (argument : Argument)
  | rename (name : String)
  | flush

namespace Demand

def step (whom : Address) : Demand → Step
  | .register source append => .op (.register whom source append)
  | .setEnabled on => .op (.setEnabled whom on)
  | .setSaveLevel l => .op (.setSaveLevel whom l)
  | .write r => .op (.write whom r)
  | .format l node argument => .format whom l node argument
  | .rename name => .op (.rename whom name)
  | .flush => .op (.flush whom)

def reserved : Demand → Bool
  | .write r => decide (r.level = .internal)
  | .format l _ _ => decide (l = .internal)
  | _ => false

/-- The reply to a demand that comes to nothing. -/
def ignored : Demand → Reply
  | .format _ _ _ => .rendered 0
  | _ => .nothing

end Demand

namespace System

variable {s : System} {name : String} {m : Nat} {l : Level}

/-- Both ways lead to the same manager with a record, except at the reserved level with logging off. -/
theorem taker_process (formed : s.WellFormed) (seated : s.slot = some m) (led : s.reach (.handle name) = some m)
    (looked : l = .internal → s.processFlag = true) : s.taker .process l = s.taker (.handle name) l := by
  by_cases level : l = .internal
  · have flag := looked level
    subst level
    have led : s.handles.get? name = some m := led
    simp [System.taker, instanceAccepts, flag, seated, led, accepts, Except.map]
  · have seated : s.reach .process = some m := seated
    rw [formed.taker seated level, formed.taker led level]

theorem write_process (formed : s.WellFormed) (seated : s.slot = some m) {r : Record}
    (looked : r.level = .internal → s.processFlag = true) : s.writeInstance r = s.write m r := by
  cases flag : s.processFlag with
  | true => simp only [writeInstance, flag, if_true, seated]
  | false =>
    -- the process does not pass the record on, and the instance would not take it
    have level : r.level ≠ .internal := fun reserved => by simp [flag] at looked; exact looked reserved
    have closed := formed.closed_of_flag seated flag
    simp [writeInstance, flag, System.write, accepts, level, closed]

end System

namespace Demand

variable {s : System} {name : String} {m : Nat}

/-- Through the process a demand comes to what it comes to through a handle of the instance. -/
theorem run_process (formed : s.WellFormed) (seated : s.slot = some m) (led : s.reach (.handle name) = some m)
    {q : Demand} (looked : q.reserved = true → s.processFlag = true) :
    (q.step .process).run s = (q.step (.handle name)).run s := by
  have seated' : s.reach .process = some m := seated
  cases q with
  | register source append => exact (System.run_register seated' source append).trans (System.run_register led source append).symm
  | setEnabled on => exact (System.run_setEnabled seated' on).trans (System.run_setEnabled led on).symm
  | setSaveLevel l => exact (System.run_setSaveLevel seated' l).trans (System.run_setSaveLevel led l).symm
  | rename target => exact (System.run_rename seated' target).trans (System.run_rename led target).symm
  | flush => exact (System.run_flush seated').trans (System.run_flush led).symm
  | write r =>
    have led : s.handles.get? name = some m := led
    have passed := System.write_process formed seated (r := r) (by simpa [reserved] using looked)
    simp only [step, Step.run, Op.run, System.withHandle, led, passed]
  | format l node argument =>
    have taker := System.taker_process formed seated led (l := l) (by simpa [reserved] using looked)
    simp only [step, Step.run, taker]

/-- A write at the reserved level is a misuse of every handle. -/
theorem run_reserved_handle (led : s.reach (.handle name) = some m) {q : Demand} (reserved : q.reserved = true) :
    (q.step (.handle name)).run s = (.failed (.misuse .reservedLevel), s) := by
  have led : s.handles.get? name = some m := led
  cases q with
  | write r =>
    have level : r.level = .internal := by simpa [Demand.reserved] using reserved
    simp [step, Step.run, Op.run, System.withHandle, led, System.write, System.accepts, level, System.written]
  | format l node argument =>
    have level : l = .internal := by simpa [Demand.reserved] using reserved
    simp [step, Step.run, System.taker, led, System.accepts, level]
  | _ => cases reserved

/-- It is a misuse of the process if logging is on and there is an instance; otherwise nobody looks at the level. -/
theorem run_reserved_process (s : System) {q : Demand} (reserved : q.reserved = true) :
    (q.step .process).run s =
      (if s.processFlag = true ∧ s.slot.isSome = true then .failed (.misuse .reservedLevel) else q.ignored, s) := by
  cases q with
  | write r =>
    have level : r.level = .internal := by simpa [Demand.reserved] using reserved
    cases flag : s.processFlag <;> cases slot : s.slot <;>
      simp [step, Step.run, Op.run, System.writeInstance, flag, slot, System.write, System.accepts, level, System.written,
        ignored]
  | format l node argument =>
    have level : l = .internal := by simpa [Demand.reserved] using reserved
    cases flag : s.processFlag <;> cases slot : s.slot <;>
      simp [step, Step.run, System.taker, System.instanceAccepts, flag, slot, System.accepts, level, Except.map, ignored]
  | _ => cases reserved

/-- With logging off a write at the reserved level is a misuse of a handle, and the process ignores it. -/
theorem run_reserved (led : s.reach (.handle name) = some m) {q : Demand} (reserved : q.reserved = true)
    (off : s.processFlag = false) :
    (q.step (.handle name)).run s = (.failed (.misuse .reservedLevel), s) ∧ (q.step .process).run s = (q.ignored, s) := by
  have aside : ¬ (s.processFlag = true ∧ s.slot.isSome = true) := by simp [off]
  refine ⟨run_reserved_handle led reserved, ?_⟩
  rw [run_reserved_process s reserved, if_neg aside]

/-- Without an instance nobody hears a demand, a registration and the setters apart. -/
theorem run_vacant (vacant : s.slot = none) (q : Demand) :
    match q with
    | .setEnabled on => (q.step .process).run s = (.nothing, { s with processFlag := on })
    | .setSaveLevel l => (q.step .process).run s = (.nothing, { s with processFlag := l.activates })
    | .register source _ => ∀ sink t, System.obtain source s = (.ok sink, t) →
      (q.step .process).run s = (.truth false, { t with world := { t.world with
        journal := t.world.journal ++ [.dropped sink.id]
        host := { t.world.host with
          console := t.world.host.console ++ ["sinkwise: set_logging_class called before create\n"] } } })
    | q => (q.step .process).run s = (q.ignored, s) := by
  cases q with
  | register source append =>
    intro sink t obtained
    have slot := (System.obtain_managers (s := s) source).2.1
    rw [obtained] at slot
    have vacant : t.slot = none := slot.trans vacant
    have refused : t.registerInstance sink append = (false, (t.discard [sink]).say System.noInstance) := by
      simp only [System.registerInstance, vacant]
    simp only [step, Step.run, Op.run, System.withSink, obtained, refused]
    rfl
  | setEnabled on => simp only [step, Step.run, Op.run, System.setInstanceEnabled, vacant]
  | setSaveLevel l => simp only [step, Step.run, Op.run, System.setInstanceSaveLevel, vacant]
  | write r => simp only [step, Step.run, Op.run, System.writeInstance, vacant, ite_self, System.written, ignored]
  | format l node argument =>
    have nobody : s.instanceAccepts l = .ok none := by simp [System.instanceAccepts, vacant]
    simp only [step, Step.run, System.taker, nobody, ignored]
  | rename name => simp only [step, Step.run, Op.run, System.renameInstance, vacant, ignored]
  | flush => simp only [step, Step.run, Op.run, System.flushInstance, vacant, ignored]

end Demand

/-! ## Runs through handles -/

namespace System

/-- A handle that leads to the instance, if somebody has one. -/
def alias? (s : System) : Option String :=
  if s.slot.isSome then s.handles.keys.find? fun name => decide (s.handles.get? name = s.slot) else none

/-- Another way to the same: through a handle of the instance in place of the process. A write at the reserved level stays
    with the process as long as logging is off. -/
def detour (s : System) (reserved : Bool) : Address → Address
  | .handle name => .handle name
  | .process => if reserved && !s.processFlag then .process else (s.alias?.map .handle).getD .process

theorem alias?_leads {s : System} {name : String} (h : s.alias? = some name) :
    ∃ m, s.slot = some m ∧ s.reach (.handle name) = some m := by
  unfold alias? at h
  cases seated : s.slot with
  | none => simp [seated] at h
  | some m =>
    simp only [seated, Option.isSome_some, if_true] at h
    have led : s.handles.get? name = some m := by simpa [seated] using List.find?_some h
    exact ⟨m, rfl, led⟩

/-- A detour leads to the same outcome. -/
theorem run_detour {s : System} (formed : s.WellFormed) (q : Demand) (whom : Address) :
    (q.step (s.detour q.reserved whom)).run s = (q.step whom).run s := by
  cases whom with
  | handle name => rfl
  | process =>
    simp only [detour]
    split
    · rfl
    · rename_i looked
      cases found : s.alias? with
      | none => rfl
      | some name =>
        obtain ⟨m, seated, led⟩ := alias?_leads found
        exact (Demand.run_process formed seated led (by simpa using looked)).symm

end System

/-- An operation, with what it asks of the process asked of a handle of the instance. -/
def Op.redirect (o : Op) (s : System) : Op :=
  match o with
  | .register whom source append => .register (s.detour false whom) source append
  | .setEnabled whom on => .setEnabled (s.detour false whom) on
  | .setSaveLevel whom l => .setSaveLevel (s.detour false whom) l
  | .write whom r => .write (s.detour (decide (r.level = .internal)) whom) r
  | .rename whom name => .rename (s.detour false whom) name
  | .flush whom => .flush (s.detour false whom)
  | o => o

mutual

/-- A step in which all that is asked of the process is asked of handles of the instance, as far as there are any. -/
def Step.redirect : Step → System → Step
  | .op o, s => .op (o.redirect s)
  | .format whom l node argument, s =>
    let inside := match s.taker whom l with
      | .ok (some m) => argument.redirect (s.enter m)
      | _ => argument
    .format (s.detour (decide (l = .internal)) whom) l node inside

def Argument.redirect : Argument → System → Argument
  | .done, _ => .done
  | .piece p rest, s => .piece p (rest.redirect s)
  | .take step rest, s => .take (step.redirect s) (rest.redirect ((step.run s).2.note (step.run s).1))

end

def redirect : List Step → System → List Step
  | [], _ => []
  | step :: rest, s => step.redirect s :: redirect rest (step.run s).2

theorem Op.run_redirect {s : System} (formed : s.WellFormed) (o : Op) :
    (Step.op (o.redirect s)).run s = (Step.op o).run s := by
  cases o with
  | register whom source append => exact System.run_detour formed (.register source append) whom
  | setEnabled whom on => exact System.run_detour formed (.setEnabled on) whom
  | setSaveLevel whom l => exact System.run_detour formed (.setSaveLevel l) whom
  | write whom r => exact System.run_detour formed (.write r) whom
  | rename whom name => exact System.run_detour formed (.rename name) whom
  | flush whom => exact System.run_detour formed .flush whom
  | _ => rfl

theorem Step.run_wellFormed (step : Step) {s : System} (formed : s.WellFormed) : (step.run s).2.WellFormed := by
  rw [← Step.play_course]
  exact play_wellFormed _ formed

mutual

/-- A step and its detour come to the same, whatever is in its argument. -/
theorem Step.run_redirect : ∀ (step : Step) {s : System}, s.WellFormed → (step.redirect s).run s = step.run s
  | .op o, _, formed => Op.run_redirect formed o
  | .format whom l node argument, s, formed => by
    have detoured (inside : Argument) := System.run_detour formed (.format l node inside) whom
    simp only [Step.redirect]
    refine (detoured _).trans ?_
    simp only [Demand.step]
    cases taken : s.taker whom l with
    | error r => rfl
    | ok taker =>
      cases taker with
      | none => rfl
      | some m =>
        have inside := Argument.render_redirect argument (s := s.enter m) (formed.of_eq rfl rfl)
        rw [Step.run_format taken, Step.run_format taken, inside]

theorem Argument.render_redirect : ∀ (argument : Argument) {s : System}, s.WellFormed →
    (argument.redirect s).render s = argument.render s
  | .done, _, _ => rfl
  | .piece p rest, s, formed => by
    simp only [Argument.redirect, Argument.render, Argument.render_redirect rest formed]
  | .take step rest, s, formed => by
    have next : ((step.run s).2.note (step.run s).1).WellFormed := (step.run_wellFormed formed).of_eq rfl rfl
    rw [Argument.redirect, Argument.render_take, Argument.render_take, Step.run_redirect step formed]
    exact Argument.render_redirect rest next

end

theorem redirect_runAll (steps : List Step) {s : System} (formed : s.WellFormed) :
    runAll (redirect steps s) s = runAll steps s := by
  induction steps generalizing s with
  | nil => rfl
  | cons step rest ih =>
    simp only [redirect, runAll, step.run_redirect formed]
    rw [ih (step.run_wellFormed formed)]

/-- At every moment of every run. With an instance, a handle that is taken of it leads to it, and on every handle that does,
    a demand comes to what it comes to on the process: the same reply and the same system, with the same journal. Only a
    write at the reserved level is a misuse of the handle, and ignored by the process, as long as logging is off. Without an
    instance the setters set the flag, a sink is dropped with a note on the console, and nothing else happens. And a run in
    which everything that can be is asked of handles of the instance is the same run. -/
theorem surface (stamp : String) (steps : List Step) (n : Nat) :
    let s := play ((course steps (.fresh stamp)).take n) (.fresh stamp)
    (∀ m, s.slot = some m →
      (∀ name, let taken := (Op.takeInstance name).run s
        taken.1 = .truth true ∧ taken.2.slot = some m ∧ taken.2.reach (.handle name) = some m) ∧
      ∀ name, s.reach (.handle name) = some m → ∀ q : Demand,
        ((q.reserved = true → s.processFlag = true) → (q.step .process).run s = (q.step (.handle name)).run s) ∧
        (q.reserved = true → s.processFlag = false →
          (q.step (.handle name)).run s = (.failed (.misuse .reservedLevel), s) ∧
          (q.step .process).run s = (q.ignored, s))) ∧
    (s.slot = none →
      (∀ on, ((Demand.setEnabled on).step .process).run s = (.nothing, { s with processFlag := on })) ∧
      (∀ l, ((Demand.setSaveLevel l).step .process).run s = (.nothing, { s with processFlag := l.activates })) ∧
      (∀ source append sink t, System.obtain source s = (.ok sink, t) →
        ((Demand.register source append).step .process).run s = (.truth false, { t with world := { t.world with
          journal := t.world.journal ++ [.dropped sink.id]
          host := { t.world.host with
            console := t.world.host.console ++ ["sinkwise: set_logging_class called before create\n"] } } })) ∧
      (∀ r, ((Demand.write r).step .process).run s = (.nothing, s)) ∧
      (∀ l node argument, ((Demand.format l node argument).step .process).run s = (.rendered 0, s)) ∧
      (∀ name, ((Demand.rename name).step .process).run s = (.nothing, s)) ∧
      ((Demand.flush.step .process).run s = (.nothing, s))) ∧
    ∀ script : List Step, runAll (redirect script s) s = runAll script s := by
  intro s
  have formed : s.WellFormed := play_wellFormed _ (.fresh stamp)
  refine ⟨fun m seated => ⟨fun name => ?_, fun name led q => ⟨?_, ?_⟩⟩, fun vacant => ?_, fun script => ?_⟩
  · have kept : (Op.takeInstance name).run s = (.truth true, s.keepHandle name m) := by simp only [Op.run, seated]
    rw [kept]
    exact ⟨rfl, (System.keepHandle_slot name m).trans seated, System.keepHandle_reach name m⟩
  · exact fun looked => Demand.run_process formed seated led looked
  · exact fun reserved off => Demand.run_reserved led reserved off
  · have ask := Demand.run_vacant vacant
    exact ⟨fun on => ask (.setEnabled on), fun l => ask (.setSaveLevel l), fun source append => ask (.register source append),
      fun r => ask (.write r), fun l node argument => ask (.format l node argument), fun name => ask (.rename name), ask .flush⟩
  · exact redirect_runAll script formed

end LogFanout
