import LogFanout.Proofs.Likeness

/- Steps of a component, on its own and among others.

   A step belongs to a component if every name in it does, also in the steps of its argument, and if it asks the process
   only when the component is the process. Steps that change or read the disk by themselves belong to no component.

   A step of a component does the same in two systems that are alike: the replies are alike, and the systems are alike
   after it (`Step.run_like`). The replies are the same unless the step asks by itself for a sink that must have its file
   (`Step.opens`, `Step.reply_eq`). -/
namespace LogFanout

/-! ## What belongs to a component -/

def Address.belongs (own : String → Bool) (process : Bool) : Address → Bool
  | .handle name => own name
  | .process => process

def Source.belongs (own : String → Bool) : Source → Bool
  | .built (.memory name _) => own name
  | .built _ => true
  | .held name => own name

/-- Whether all names in an operation belong to a component, and whether it is the process if the process is asked. -/
def Op.belongs (own : String → Bool) (process : Bool) : Op → Bool
  | .make handle source => own handle && source.belongs own
  | .makeEmpty handle | .dropHandle handle => own handle
  | .same one other => own one && own other
  | .create source handle => process && source.belongs own && handle.all own
  | .destroy => process
  | .takeInstance handle => process && own handle
  | .register whom source _ => whom.belongs own process && source.belongs own
  | .setEnabled whom _ | .setSaveLevel whom _ | .status whom | .write whom _ | .rename whom _ | .flush whom =>
    whom.belongs own process
  | .drainText logs | .drainLines logs | .bufferSize logs | .drainToConsole logs => own logs
  | .hold name source => own name && source.belongs own
  | .callSink name _ | .sinkStatus name | .dropSink name => own name
  | .put _ _ | .makeFolder _ | .remove _ | .read _ | .list | .loadOptions _ | .wait _ => false

def Call.targets : Call → List String
  | .target name => [name]
  | _ => []

def Source.targets : Source → List String
  | .built (.file o) | .built (.openFile o) => [o.target]
  | _ => []

/-- The targets that an operation gives to sinks. -/
def Op.targets : Op → List String
  | .make _ source | .create source _ | .register _ source _ | .hold _ source => source.targets
  | .rename _ name => [name]
  | .callSink _ call => call.targets
  | _ => []

mutual

def Step.belongs (own : String → Bool) (process : Bool) : Step → Bool
  | .op o => o.belongs own process
  | .format whom _ _ argument => whom.belongs own process && argument.belongs own process

def Argument.belongs (own : String → Bool) (process : Bool) : Argument → Bool
  | .done => true
  | .piece _ rest => rest.belongs own process
  | .take step rest => step.belongs own process && rest.belongs own process

end

mutual

def Step.targets : Step → List String
  | .op o => o.targets
  | .format _ _ _ argument => argument.targets

def Argument.targets : Argument → List String
  | .done => []
  | .piece _ rest => rest.targets
  | .take step rest => step.targets ++ rest.targets

end

/-! ## Sinks that must have their files -/

/-- The targets at which a source asks for a sink that must have its file. -/
def Source.demands : Source → List String
  | .built (.openFile o) => [o.target]
  | _ => []

def Op.demands : Op → List String
  | .make _ source | .create source _ | .register _ source _ | .hold _ source => source.demands
  | _ => []

mutual

def Step.demands : Step → List String
  | .op o => o.demands
  | .format _ _ _ argument => argument.demands

def Argument.demands : Argument → List String
  | .done => []
  | .piece _ rest => rest.demands
  | .take step rest => step.demands ++ rest.demands

end

/-- Whether a step asks by itself for a sink that must have its file. -/
def Step.opens : Step → Bool
  | .op o => !o.demands.isEmpty
  | .format _ _ _ _ => false

/-- What a component has to have for a step: its targets, and its demands. -/
structure Scope.Covers (c : Scope) (targets demands : List String) : Prop where
  path : ∀ name ∈ targets, c.path name
  demands : ∀ name ∈ demands, c.demands name

theorem Scope.Covers.append {c : Scope} {targets demands targets' demands' : List String}
    (both : c.Covers (targets ++ targets') (demands ++ demands')) :
    c.Covers targets demands ∧ c.Covers targets' demands' := by
  obtain ⟨here, there⟩ := List.forall_mem_append.mp both.path
  obtain ⟨asked, asked'⟩ := List.forall_mem_append.mp both.demands
  exact ⟨⟨here, asked⟩, ⟨there, asked'⟩⟩

/-! ## Operations -/

namespace System

variable {c : Scope} {π : Pairing} {t s : System} {name : String}

abbrev Replies (c : Scope) (π : Pairing) (x y : Reply × System) : Prop := Outcome c π (fun _ => Reply.Like c.Hindered) x y

theorem Follows.replies (follows : Follows c π t s) (r : Reply) : Replies c π (r, t) (r, s) := by
  obtain ⟨π', grows, like⟩ := follows
  exact ⟨π', grows, .refl _ r, like⟩

theorem Outcome.replies {α : Type} {x y : α × System} (outcome : Outcome c π (fun _ => Eq) x y) (tell : α → Reply) :
    Replies c π (tell x.1, x.2) (tell y.1, y.2) := by
  obtain ⟨π', grows, same, like⟩ := outcome
  exact ⟨π', grows, .inl (congrArg tell same), like⟩

theorem Outcome.after {α β : Type} {R : Pairing → α → β → Prop} {π' : Pairing} {x : α × System} {y : β × System}
    (outcome : Outcome c π' R x y) (grows : π.Grows π') : Outcome c π R x y := by
  obtain ⟨π'', grows', values, like⟩ := outcome
  exact ⟨π'', grows.trans grows', values, like⟩

namespace Like

theorem replies (like : Like c π t s) (r : Reply) : Replies c π (r, t) (r, s) := like.follows.replies r

theorem withHandle (like : Like c π t s) (own : c.own name = true) {f g : Nat → Reply × System}
    (each : ∀ m n, π.managers m n → Replies c π (f m) (g n)) :
    Replies c π (t.withHandle name f) (s.withHandle name g) := by
  obtain ⟨one, other⟩ | ⟨_, _, one, other, paired⟩ := Option.Rel.both (like.handle own)
  · simp only [System.withHandle, one, other]
    exact like.replies .unknownName
  · simp only [System.withHandle, one, other]
    exact each _ _ paired

theorem withBuffer (like : Like c π t s) (own : c.own name = true) {f g : Nat → List String → Reply × System}
    (each : ∀ i j lines, π.naming.sinks i j → Replies c π (f i lines) (g j lines)) :
    Replies c π (t.withBuffer name f) (s.withBuffer name g) := by
  have logs : Option.Rel π.naming.sinks (t.logs.get? name) (s.logs.get? name) := by
    rw [← s.logs.get?_restrict own]
    exact like.logs.get? name
  obtain ⟨one, other⟩ | ⟨_, _, one, other, paired⟩ := Option.Rel.both logs
  · simp only [System.withBuffer, one, other]
    exact like.replies .nothing
  · simp only [System.withBuffer, one, other, ← like.world.buffer _ _ paired]
    exact each _ _ _ paired

theorem clearBuffer (like : Like c π t s) {i j : Nat} (paired : π.naming.sinks i j) :
    Like c π (t.clearBuffer i) (s.clearBuffer j) :=
  like.onWorld (.refl _) (like.world.clearBuffer paired)

theorem sayAll (like : Like c π t s) (lines : List String) :
    Like c π (lines.foldl (fun s line => s.say (line ++ "\n")) t) (lines.foldl (fun s line => s.say (line ++ "\n")) s) := by
  induction lines generalizing t s with
  | nil => exact like
  | cons line rest ih => exact ih (like.say _ _)

theorem written (like : Like c π t s) {one other : Except Misuse System}
    (outcomes : Except.Rel Eq (Follows c π) one other) : Replies c π (t.written one) (s.written other) := by
  cases outcomes with
  | error same =>
    rw [same]
    exact like.replies _
  | ok follows => exact follows.replies .nothing

theorem obtain (like : Like c π t s) {source : Source} (belongs : source.belongs c.own = true)
    (covers : c.Covers source.targets source.demands) :
    Outcome c π (fun π' => Except.Rel (Reply.Like c.Hindered) (Sink.Like π'.naming)) (System.obtain source t)
      (System.obtain source s) := by
  cases source with
  | held name =>
    obtain ⟨one, other⟩ | ⟨_, _, one, other, sinks⟩ := Option.Rel.both (like.heldSink belongs)
    · simp only [System.obtain, one, other]
      exact like.outcome (.error (.refl _ _))
    · simp only [System.obtain, one, other]
      exact (like.eraseHeld belongs).outcome (.ok sinks)
  | built spec =>
    have within : spec.Within c := by
      refine ⟨?_, ?_⟩
      · rintro o (rfl | rfl) <;> exact covers.path _ List.mem_cons_self
      · rintro o rfl
        exact covers.demands _ List.mem_cons_self
    obtain ⟨ν, grows, made, world⟩ := like.world.build within
    have like := like.onWorld grows world
    unfold System.obtain
    simp only
    generalize t.world.build spec = one at made like ⊢
    generalize s.world.build spec = other at made like ⊢
    obtain ⟨one, w⟩ := one
    obtain ⟨other, w'⟩ := other
    refine ⟨⟨ν, π.managers⟩, ⟨grows, fun _ _ paired => paired⟩, ?_⟩
    cases made with
    | error same =>
      refine ⟨.error ?_, like⟩
      exact same.imp (fun same => by rw [same]) fun hindered => ⟨hindered, _, _, rfl, rfl⟩
    | ok sinks =>
      refine ⟨.ok sinks, ?_⟩
      cases spec with
      | memory name level => exact like.putLog belongs sinks.id
      | _ => exact like

theorem withSink (like : Like c π t s) {source : Source} (belongs : source.belongs c.own = true)
    (covers : c.Covers source.targets source.demands) {f : Sink → System → Reply × System}
    {g : Sink → System → Reply × System}
    (each : ∀ π' sink sink' t' s', π.Grows π' → Sink.Like π'.naming sink sink' → Like c π' t' s' →
      Replies c π' (f sink t') (g sink' s')) : Replies c π (t.withSink source f) (s.withSink source g) := by
  obtain ⟨π', grows, made, like⟩ := like.obtain belongs covers
  unfold System.withSink
  generalize System.obtain source t = one at made like ⊢
  generalize System.obtain source s = other at made like ⊢
  obtain ⟨one, t'⟩ := one
  obtain ⟨other, s'⟩ := other
  cases made with
  | error replies => exact ⟨π', grows, replies, like⟩
  | ok sinks => exact (each π' _ _ t' s' grows sinks like).after grows

theorem create (process : c.process = true) (like : Like c π t s) {source : Source}
    (belongs : source.belongs c.own = true) (covers : c.Covers source.targets source.demands) :
    Outcome c π (fun π' => Except.Rel (Reply.Like c.Hindered) π'.managers) (t.create (System.obtain source))
      (s.create (System.obtain source)) := by
  obtain ⟨π₁, grows₁, like⟩ := like.withdraw process
  obtain ⟨π₂, grows₂, made, like⟩ := like.obtain belongs covers
  unfold System.create
  generalize System.obtain source t.withdraw = one at made like ⊢
  generalize System.obtain source s.withdraw = other at made like ⊢
  obtain ⟨one, t'⟩ := one
  obtain ⟨other, s'⟩ := other
  cases made with
  | error replies => exact ⟨π₂, grows₁.trans grows₂, .error replies, like⟩
  | ok sinks =>
    obtain ⟨π₃, grows₃, paired, like⟩ := like.install process sinks
    exact ⟨π₃, (grows₁.trans grows₂).trans grows₃, .ok paired, like⟩

theorem managerStatus (like : Like c π t s) {m n : Nat} (paired : π.managers m n) :
    s.managerStatus n = t.managerStatus m := by
  obtain ⟨one, other, here, there, managers⟩ := like.manager m n paired
  simp only [System.managerStatus, here, there, like.enabled_eq managers, managers.count, managers.retired]

theorem sinkStatus (like : Like c π t s) (own : c.own name = true) : s.sinkStatus name = t.sinkStatus name := by
  obtain ⟨one, other⟩ | ⟨⟨_, body⟩, ⟨_, body'⟩, one, other, _, bodies⟩ := Option.Rel.both (like.heldSink own)
  · simp only [System.sinkStatus, one, other]
  · simp only [System.sinkStatus, one, other]
    cases bodies with
    | file files => simp only [files.target, files.saveLevel, Option.Rel.isSome_eq files.handle]
    | _ => rfl

end Like

end System

open LogFanout.System (Replies Outcome)

/-- An operation of a component does the same in two systems that are alike. -/
theorem Op.run_like {c : Scope} {o : Op} (belongs : o.belongs c.own c.process = true)
    (covers : c.Covers o.targets o.demands) {π : Pairing} {t s : System} (like : System.Like c π t s) :
    Replies c π (o.run t) (o.run s) := by
  cases o with
  | make handle source =>
    obtain ⟨own, taken⟩ := Bool.and_eq_true_iff.mp belongs
    refine like.withSink taken covers fun π' sink sink' t' s' _ sinks like => ?_
    obtain ⟨π'', grows, paired, like⟩ := like.newManager (.cons sinks .nil)
    exact ((like.keepHandle own paired).replies .nothing).after grows
  | makeEmpty handle =>
    obtain ⟨π', grows, paired, like⟩ := like.newManager .nil
    exact ((like.keepHandle belongs paired).replies .nothing).after grows
  | dropHandle handle => exact (like.dropHandle belongs).replies .truth
  | same one other =>
    obtain ⟨first, second⟩ := Bool.and_eq_true_iff.mp belongs
    refine like.withHandle first fun m n here => like.withHandle second fun m' n' there => ?_
    have same : (m == m') = (n == n') := by
      rw [Bool.eq_iff_iff, beq_iff_eq, beq_iff_eq]
      exact like.one m n m' n' here there
    rw [same]
    exact like.replies _
  | create source handle =>
    obtain ⟨rest, named⟩ := Bool.and_eq_true_iff.mp belongs
    obtain ⟨process, taken⟩ := Bool.and_eq_true_iff.mp rest
    obtain ⟨π', grows, made, like⟩ := like.create process taken covers
    simp only [Op.run]
    generalize t.create (System.obtain source) = one at made like ⊢
    generalize s.create (System.obtain source) = other at made like ⊢
    obtain ⟨one, t'⟩ := one
    obtain ⟨other, s'⟩ := other
    cases made with
    | error replies => exact ⟨π', grows, replies, like⟩
    | ok paired =>
      cases handle with
      | none => exact (like.replies .nothing).after grows
      | some name => exact ((like.keepHandle named paired).replies .nothing).after grows
  | destroy => exact (like.withdraw belongs).replies .nothing
  | takeInstance handle =>
    obtain ⟨process, own⟩ := Bool.and_eq_true_iff.mp belongs
    obtain ⟨one, other⟩ | ⟨m, n, one, other, paired⟩ := Option.Rel.both (like.slot process)
    · simp only [Op.run, one, other]
      exact like.replies (.truth false)
    · simp only [Op.run, one, other]
      exact (like.keepHandle own paired).replies (.truth true)
  | register whom source append =>
    obtain ⟨asked, taken⟩ := Bool.and_eq_true_iff.mp belongs
    cases whom with
    | handle name =>
      refine like.withHandle asked fun m n paired => ?_
      refine like.withSink taken covers fun π' sink sink' t' s' grows sinks like => ?_
      exact (like.register (grows.managers m n paired) sinks append).replies .truth
    | process =>
      refine like.withSink taken covers fun π' sink sink' t' s' _ sinks like => ?_
      exact (like.registerInstance asked sinks append).replies .truth
  | setEnabled whom on =>
    cases whom with
    | handle name => exact like.withHandle belongs fun m n paired => (like.setEnabled paired on).replies .nothing
    | process => exact (like.setInstanceEnabled belongs on).replies .nothing
  | setSaveLevel whom l =>
    cases whom with
    | handle name => exact like.withHandle belongs fun m n paired => (like.setSaveLevel paired l).replies .nothing
    | process => exact (like.setInstanceSaveLevel belongs l).replies .nothing
  | status whom =>
    cases whom with
    | handle name =>
      refine like.withHandle belongs fun m n paired => ?_
      rw [like.managerStatus paired]
      exact like.replies _
    | process =>
      simp only [Op.run, ← like.flag belongs, Option.Rel.isSome_eq (like.slot belongs)]
      exact like.replies _
  | write whom r =>
    cases whom with
    | handle name => exact like.withHandle belongs fun m n paired => like.written (like.write paired r)
    | process => exact like.written (like.writeInstance belongs r)
  | rename whom name =>
    have own := covers.path name List.mem_cons_self
    cases whom with
    | handle handle => exact like.withHandle belongs fun m n paired => (like.rename paired own).replies .nothing
    | process => exact (like.renameInstance belongs own).replies .nothing
  | flush whom =>
    cases whom with
    | handle name => exact like.withHandle belongs fun m n paired => (like.flush paired).replies .nothing
    | process => exact (like.flushInstance belongs).replies .nothing
  | drainText logs =>
    exact like.withBuffer belongs fun i j lines paired => (like.clearBuffer paired).replies (.text (joined lines))
  | drainLines logs =>
    exact like.withBuffer belongs fun i j lines paired => (like.clearBuffer paired).replies (.lines lines)
  | bufferSize logs => exact like.withBuffer belongs fun i j lines _ => like.replies (.bufferSize lines.length)
  | drainToConsole logs =>
    exact like.withBuffer belongs fun i j lines paired => ((like.sayAll lines).clearBuffer paired).replies .nothing
  | hold name source =>
    obtain ⟨own, taken⟩ := Bool.and_eq_true_iff.mp belongs
    exact like.withSink taken covers fun π' sink sink' t' s' _ sinks like => (like.holdSink own sinks).replies .nothing
  | callSink name call =>
    have within : call.Within c := by
      rintro target rfl
      exact covers.path target List.mem_cons_self
    obtain ⟨one, other⟩ | ⟨_, _, one, other, follows⟩ := Option.Rel.both (like.callSink belongs within)
    · simp only [Op.run, one, other]
      exact like.replies .unknownName
    · simp only [Op.run, one, other]
      exact follows.replies .nothing
  | sinkStatus name =>
    simp only [Op.run, like.sinkStatus belongs]
    exact like.replies _
  | dropSink name => exact (like.dropSink belongs).replies .truth
  | put | makeFolder | remove | read | list | loadOptions | wait => cases belongs

/-! ## Steps -/

/-- Whoever takes no record has not looked at the disk. -/
theorem System.taker_error {s : System} {whom : Address} {l : Level} {r : Reply} (refused : s.taker whom l = .error r)
    (e : DiskError) : r ≠ .failed (.disk e) := by
  rintro rfl
  unfold System.taker at refused
  split at refused
  · split at refused
    · cases refused
    · split at refused
      · cases refused
      · cases refused
  · split at refused
    · cases refused
    · cases refused

theorem Step.format_reply (whom : Address) (l : Level) (node : Option Node) (argument : Argument) (s : System)
    (e : DiskError) : ((Step.format whom l node argument).run s).1 ≠ .failed (.disk e) := by
  intro failed
  simp only [Step.run] at failed
  split at failed
  · rename_i r refused
    exact System.taker_error refused e failed
  · cases failed
  · split at failed
    · cases failed
    · cases failed

/-- Replies to a step that does not ask for a file by itself are the same if they are alike. -/
theorem Step.reply_eq {step : Step} (plain : step.opens = false) {base : Disk} {others : String → Prop} {t : System}
    {r : Reply} (like : Reply.Like (base.Hindered (· ∈ step.demands) others) (step.run t).1 r) : (step.run t).1 = r := by
  cases step with
  | op o =>
    have none : o.demands = [] := by simpa [opens] using plain
    obtain same | ⟨⟨target, _, asked, _⟩, _⟩ := like
    · exact same
    · have asked : target ∈ o.demands := asked
      rw [none] at asked
      cases asked
  | format whom l node argument => exact like.eq (format_reply whom l node argument t)

namespace System.Like

variable {c : Scope} {π : Pairing} {t s : System} {m n : Nat}

theorem enter (like : System.Like c π t s) (paired : π.managers m n) : System.Like c π (t.enter m) (s.enter n) :=
  { like with running := .cons paired like.running }

theorem leave (like : System.Like c π t s) : System.Like c π t.leave s.leave := by
  have running := like.running
  refine { like with running := ?_ }
  simp only [System.leave]
  generalize t.running = one at running ⊢
  generalize s.running = other at running ⊢
  cases running with
  | nil => exact .nil
  | cons _ rest => exact rest

theorem note (like : System.Like c π t s) {r r' : Reply} (replies : Reply.Like c.Hindered r r') :
    System.Like c π (t.note r) (s.note r') :=
  like.onWorld (.refl _) (like.world.record (.nested replies))

theorem taker (like : System.Like c π t s) {whom : Address} (belongs : whom.belongs c.own c.process = true) (l : Level) :
    Except.Rel (Reply.Like c.Hindered) (Option.Rel π.managers) (t.taker whom l) (s.taker whom l) := by
  cases whom with
  | handle name =>
    obtain ⟨one, other⟩ | ⟨m, n, one, other, paired⟩ := Option.Rel.both (like.handle belongs)
    · simp only [System.taker, one, other]
      exact .error (.refl _ _)
    · simp only [System.taker, one, other, like.accepts_eq paired]
      cases t.accepts m l with
      | error e => exact .error (.refl _ _)
      | ok taken =>
        cases taken with
        | true => exact .ok (.some paired)
        | false => exact .ok .none
  | process =>
    have accepted := like.instanceAccepts belongs l
    unfold System.taker
    simp only
    generalize t.instanceAccepts l = one at accepted ⊢
    generalize s.instanceAccepts l = other at accepted ⊢
    cases accepted with
    | error same =>
      rw [same]
      exact .error (.refl _ _)
    | ok takers => exact .ok takers

end System.Like

mutual

/-- A step of a component does the same in two systems that are alike. -/
theorem Step.run_like {c : Scope} : ∀ (step : Step), step.belongs c.own c.process = true →
    c.Covers step.targets step.demands → ∀ {π : Pairing} {t s : System}, System.Like c π t s →
    Replies c π (step.run t) (step.run s)
  | .op o, belongs, covers, _, _, _, like => Op.run_like belongs covers like
  | .format whom l node argument, belongs, covers, π, t, s, like => by
    obtain ⟨asked, within⟩ := Bool.and_eq_true_iff.mp belongs
    have takers := like.taker asked l
    cases one : t.taker whom l with
    | error r =>
      rw [one] at takers
      cases other : s.taker whom l with
      | error r' =>
        rw [other] at takers
        cases takers with
        | error replies =>
          simp only [Step.run, one, other]
          exact like.outcome replies
      | ok _ =>
        rw [other] at takers
        cases takers
    | ok taker =>
      rw [one] at takers
      cases other : s.taker whom l with
      | error _ =>
        rw [other] at takers
        cases takers
      | ok taker' =>
        rw [other] at takers
        cases takers with
        | ok takers =>
          cases takers with
          | none =>
            simp only [Step.run, one, other]
            exact like.replies (.rendered 0)
          | @some m n paired =>
            rw [Step.run_format one, Step.run_format other]
            obtain ⟨π', grows, same, rendered⟩ := Argument.render_like argument within covers (like.enter paired)
            have paired := grows.managers m n paired
            generalize argument.render (t.enter m) = x at same rendered ⊢
            generalize argument.render (s.enter n) = y at same rendered ⊢
            obtain ⟨text, t'⟩ := x
            obtain ⟨text', s'⟩ := y
            obtain rfl : text = text' := same
            cases text with
            | none => exact ((rendered.leave.release paired).replies _).after grows
            | some text =>
              obtain ⟨π'', grows', sent⟩ := rendered.leave.dispatch paired ⟨l, node, text⟩
              exact ((sent.release (grows'.managers m n paired)).replies _).after (grows.trans grows')

theorem Argument.render_like {c : Scope} : ∀ (argument : Argument), argument.belongs c.own c.process = true →
    c.Covers argument.targets argument.demands → ∀ {π : Pairing} {t s : System}, System.Like c π t s →
    Outcome c π (fun _ => Eq) (argument.render t) (argument.render s)
  | .done, _, _, _, _, _, like => like.same (some "")
  | .piece p rest, belongs, covers, π, t, s, like => by
    simp only [Argument.render]
    cases p.render with
    | none => exact like.same none
    | some text =>
      obtain ⟨π', grows, same, rendered⟩ := Argument.render_like rest belongs covers like
      generalize rest.render t = x at same rendered ⊢
      generalize rest.render s = y at same rendered ⊢
      obtain ⟨more, t'⟩ := x
      obtain ⟨more', s'⟩ := y
      obtain rfl : more = more' := same
      cases more with
      | none => exact (rendered.same none).after grows
      | some more => exact (rendered.same (some (text ++ more))).after grows
  | .take step rest, belongs, covers, π, t, s, like => by
    obtain ⟨first, later⟩ := Bool.and_eq_true_iff.mp belongs
    obtain ⟨here, there⟩ := Scope.Covers.append covers
    obtain ⟨π', grows, replies, taken⟩ := Step.run_like step first here like
    rw [Argument.render_take, Argument.render_take]
    exact (Argument.render_like rest later there (taken.note replies)).after grows

end

end LogFanout
