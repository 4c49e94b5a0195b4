import LogFanout.Proofs.Calls
import LogFanout.Proofs.Memory

/- The announcement that logging has been turned on.

   A setter turns logging on for a manager if it asks for that, is addressed to the manager, and finds it not retired and
   its flag off (`Action.turnsOn`); these are just the setters after which the flag of a manager that is not retired is on
   and was off before (`Action.mem_turnsOn_iff_edge`). Then every sink of the manager gets the announcement, behind the
   new level if there is one, and in no other action does a manager write anything of its own (`banner_law`). So what a
   sink has got of announcements can be counted from outside. -/
namespace LogFanout

/-! ## Setters -/

/-- Whom an action turns on or off, and which of the two. -/
def Action.switch? : Action → Option (Address × Bool)
  | .op (.setEnabled whom on) => some (whom, on)
  | .op (.setSaveLevel whom l) => some (whom, l.activates)
  | _ => none

/-- The level that an action gives to sinks before anything is announced. -/
def Action.level? : Action → Option Level
  | .op (.setSaveLevel _ l) => some l
  | _ => none

def Action.given : Action → Option Record
  | .op (.write _ r) => some r
  | .op (.callSink _ (.write r)) => some r
  | .send _ r => some r
  | _ => none

def System.live (s : System) (m : Nat) : Bool :=
  match s.managers[m]? with
  | some manager => !manager.retired
  | none => false

/-- The managers for which a setter turns logging on: the one that it is addressed to, if it is to be turned on, is not
    retired and has its flag off. -/
def Action.turnsOn (a : Action) (s : System) : List Nat :=
  match a.switch? with
  | some (whom, true) => (s.reach whom).toList.filter fun m => s.live m && !s.enabled m
  | _ => []

namespace System

variable {s : System}

theorem live_iff {m : Nat} : s.live m = true ↔ ∃ manager, s.managers[m]? = some manager ∧ manager.retired = false := by
  unfold live
  split
  · rename_i manager found
    simp [found]
  · rename_i unknown
    simp [unknown]

theorem enabled_of {m : Nat} {manager : Manager} (found : s.managers[m]? = some manager) :
    s.enabled m = manager.enabled s.processFlag := by
  simp only [enabled, found]

theorem enabled_setManager {m : Nat} {old : Manager} (found : s.managers[m]? = some old) (new : Manager) (n : Nat) :
    (s.setManager m new).enabled n = if m = n then new.enabled s.processFlag else s.enabled n := by
  have bound := (List.getElem?_eq_some_iff.mp found).1
  by_cases same : m = n
  · subst same
    simp [enabled, setManager, bound]
  · simp [enabled, setManager, same]

theorem enabled_fanOut (n : Nat) (c : Call) (m : Nat) : (s.fanOut n c).enabled m = s.enabled m := by
  cases found : s.managers[n]? with
  | none => simp only [fanOut, found]
  | some manager =>
    rw [fanOut_some found]
    refine (enabled_setManager (s := { s with world := _ }) found _ m).trans ?_
    split
    · rename_i same
      rw [← same, enabled_of found]
      rfl
    · rfl

theorem enabled_announce (n : Nat) (before after : Bool) (m : Nat) :
    (s.announce n before after).enabled m = s.enabled m := by
  unfold announce
  split
  · exact enabled_fanOut n _ m
  · rfl

/-- A manager that shares the flag of the process and is not retired is the instance. -/
theorem WellFormed.seated_of_shared (formed : s.WellFormed) {m : Nat} {manager : Manager}
    (found : s.managers[m]? = some manager) (active : manager.retired = false) (shared : manager.switch = .shared) :
    s.slot = some m := by
  refine Decidable.byContradiction fun out => ?_
  have retired := formed.unseated m manager found shared out
  rw [active] at retired
  cases retired

/-- Of the managers that are not retired, a switch turns the one on or off that it belongs to. -/
theorem WellFormed.enabled_setSwitch (formed : s.WellFormed) {n m : Nat} (there : s.live n = true)
    (here : s.live m = true) (on : Bool) : (s.setSwitch n on).enabled m = if n = m then on else s.enabled m := by
  obtain ⟨manager, found, active⟩ := live_iff.mp there
  obtain ⟨other, found', active'⟩ := live_iff.mp here
  simp only [setSwitch, found]
  split
  · rename_i shared
    simp only [enabled, found', Manager.enabled]
    split
    · rename_i own switch
      have different : n ≠ m := by
        rintro rfl
        cases found.symm.trans found'
        rw [shared] at switch
        cases switch
      rw [if_neg different]
    · rename_i shared'
      have one := (formed.seated_of_shared found active shared).symm.trans (formed.seated_of_shared found' active' shared')
      rw [if_pos (Option.some.inj one)]
  · rw [enabled_setManager found]
    rfl

/-- Turns a manager that is not retired on or off, and gives the new level, if there is one, to its sinks before logging
    is on again. -/
def turn (s : System) (m : Nat) (on : Bool) (level : Option Level) : System :=
  match level with
  | some l => if on then (s.setSwitch m on).fanOut m (.saveLevel l) else s.setSwitch m on
  | none => s.setSwitch m on

theorem enabled_turn (m : Nat) (on : Bool) (level : Option Level) (n : Nat) :
    (s.turn m on level).enabled n = (s.setSwitch m on).enabled n := by
  unfold turn
  split
  · split
    · exact enabled_fanOut m _ n
    · rfl
  · rfl

end System

variable {s : System} {a : Action} {whom : Address} {on : Bool}

theorem Action.act_switch (switch : a.switch? = some (whom, on)) {m : Nat} {manager : Manager}
    (reached : s.reach whom = some m) (found : s.managers[m]? = some manager) :
    a.act s = if manager.retired then s else (s.turn m on a.level?).announce m (s.enabled m) on := by
  unfold Action.switch? at switch
  split at switch
  · cases switch
    simp only [Action.act, System.run_setEnabled reached, System.setEnabled, found, System.enabled_of found]
    rfl
  · cases switch
    simp only [Action.act, System.run_setSaveLevel reached, System.setSaveLevel, found, System.enabled_of found]
    rfl
  · cases switch

theorem Action.act_switch_nobody (switch : a.switch? = some (whom, on)) (nobody : s.reach whom = none) :
    a.act s = s ∨ s.slot = none ∧ a.act s = { s with processFlag := on } := by
  cases whom with
  | handle name =>
    have missing : s.handles.get? name = none := nobody
    unfold Action.switch? at switch
    split at switch <;> cases switch <;> exact .inl (by simp only [Action.act, Op.run, System.withHandle, missing])
  | process =>
    have vacant : s.slot = none := nobody
    unfold Action.switch? at switch
    split at switch
    · cases switch
      exact .inr ⟨vacant, by simp only [Action.act, Op.run, System.setInstanceEnabled, vacant]⟩
    · cases switch
      exact .inr ⟨vacant, by simp only [Action.act, Op.run, System.setInstanceSaveLevel, vacant]⟩
    · cases switch

/-- Of the managers that are not retired, a setter turns the one on or off that it is addressed to. -/
theorem Action.enabled_act (h : s.Possible) (switch : a.switch? = some (whom, on)) {m : Nat} (live : s.live m = true) :
    (a.act s).enabled m = if s.reach whom = some m then on else s.enabled m := by
  obtain ⟨manager, found, active⟩ := System.live_iff.mp live
  cases reached : s.reach whom with
  | none =>
    rcases a.act_switch_nobody switch reached with same | ⟨vacant, same⟩
    · rw [same, if_neg nofun]
    · -- without an instance every manager that shares the flag is retired
      have own : manager.switch ≠ .shared := by
        intro shared
        have seated := h.formed.seated_of_shared found active shared
        rw [vacant] at seated
        cases seated
      rw [same, if_neg nofun, System.enabled_of found, System.enabled_of (s := { s with processFlag := on }) found]
      unfold Manager.enabled
      split
      · rfl
      · rename_i shared
        exact absurd shared own
  | some n =>
    obtain ⟨other, found'⟩ := h.reach reached
    rw [a.act_switch switch reached found']
    split
    · rename_i retired
      have different : n ≠ m := by
        rintro rfl
        cases found.symm.trans found'
        rw [active] at retired
        cases retired
      simp [different]
    · rename_i active'
      have there : s.live n = true := System.live_iff.mpr ⟨other, found', by simpa using active'⟩
      rw [System.enabled_announce, System.enabled_turn, h.formed.enabled_setSwitch there live]
      simp

theorem Action.turnsOn_switch (switch : a.switch? = some (whom, on)) :
    a.turnsOn s = match s.reach whom with
      | some m => if s.live m && !s.enabled m && on then [m] else []
      | none => [] := by
  cases on with
  | false => cases s.reach whom <;> simp [Action.turnsOn, switch]
  | true =>
    simp only [Action.turnsOn, switch]
    cases s.reach whom with
    | none => rfl
    | some m => cases edge : s.live m && !s.enabled m <;> simp [edge]

/-- A setter that finds the flag of its manager off. -/
example :
    (Action.op (.setSaveLevel (.handle "a") .info)).turnsOn
      (play [.op (.make "a" (.built (.probe "p" true))), .op (.setEnabled (.handle "a") false)] (.fresh "T")) =
        [0] := by
  decide

theorem Action.turnsOn_of_no_switch (none : a.switch? = none) (s : System) : a.turnsOn s = [] := by
  rw [Action.turnsOn, none]

/-- A setter turns logging on for a manager that is not retired if it is addressed to it, finds it off and switches it
    on. -/
theorem Action.mem_turnsOn_iff (switch : a.switch? = some (whom, on)) {m : Nat} (live : s.live m = true) :
    m ∈ a.turnsOn s ↔ s.reach whom = some m ∧ (!s.enabled m && on) = true := by
  rw [Action.turnsOn_switch switch]
  cases reached : s.reach whom with
  | none => simp
  | some n =>
    by_cases same : n = m
    · subst same
      simp [live]
    · simp only [Option.some.injEq, same, false_and, iff_false]
      split <;> simp [Ne.symm same]

theorem Action.mem_turnsOn {m : Nat} (turned : m ∈ a.turnsOn s) :
    ∃ whom manager, a.switch? = some (whom, true) ∧ s.reach whom = some m ∧ s.managers[m]? = some manager ∧
      manager.retired = false ∧ s.enabled m = false ∧ a.turnsOn s = [m] := by
  cases switch : a.switch? with
  | none => simp [Action.turnsOn, switch] at turned
  | some pair =>
    obtain ⟨whom, on⟩ := pair
    have list := Action.turnsOn_switch (s := s) switch
    rw [list] at turned
    split at turned
    · rename_i n reached
      split at turned
      · rename_i edge
        cases List.mem_singleton.mp turned
        simp only [Bool.and_eq_true, Bool.not_eq_true'] at edge
        obtain ⟨⟨live, off⟩, rfl⟩ := edge
        obtain ⟨manager, found, active⟩ := System.live_iff.mp live
        exact ⟨whom, manager, rfl, reached, found, active, off, by simp [list, reached, live, off]⟩
      · cases turned
    · cases turned

/-- A setter turns logging on for just those managers that are not retired and whose flag it takes from off to on. -/
theorem Action.mem_turnsOn_iff_edge (h : s.Possible) {m : Nat} :
    m ∈ a.turnsOn s ↔
      a.switch?.isSome = true ∧ s.live m = true ∧ s.enabled m = false ∧ (a.act s).enabled m = true := by
  cases switch : a.switch? with
  | none => simp [a.turnsOn_of_no_switch switch s]
  | some pair =>
    obtain ⟨whom, on⟩ := pair
    constructor
    · intro turned
      obtain ⟨whom', manager, switch', reached, found, active, off, _⟩ := a.mem_turnsOn turned
      have live : s.live m = true := System.live_iff.mpr ⟨manager, found, active⟩
      refine ⟨rfl, live, off, ?_⟩
      rw [Action.enabled_act h switch' live, if_pos reached]
    · rintro ⟨_, live, off, after⟩
      rw [Action.enabled_act h switch live] at after
      split at after
      · rename_i reached
        exact (Action.mem_turnsOn_iff switch live).mpr ⟨reached, by simp [off, after]⟩
      · rw [off] at after
        cases after

/-! ## What a setter calls -/

/-- The calls on each sink of a manager for which a setter turns logging on. -/
def Action.opening (a : Action) : List Call := (a.level?.map Call.saveLevel).toList ++ [.write .banner]

theorem System.turn_journal (m : Nat) (level : Option Level) :
    (s.turn m true level).world.journal = s.world.journal ++ each (s.ids m) (level.map Call.saveLevel).toList := by
  cases level with
  | none => simp [System.turn, System.setSwitch_journal]
  | some l => simp [System.turn, System.fanOut_journal, System.setSwitch_journal, System.ids_setSwitch]

theorem System.ids_turn (m : Nat) (on : Bool) (level : Option Level) (n : Nat) : (s.turn m on level).ids n = s.ids n := by
  unfold System.turn
  split
  · split
    · rw [System.ids_fanOut, System.ids_setSwitch]
    · exact System.ids_setSwitch s m on n
  · exact System.ids_setSwitch s m on n

theorem Action.turnsOn_journal {m : Nat} (turned : m ∈ a.turnsOn s) :
    (a.act s).world.journal = s.world.journal ++ each (s.ids m) a.opening := by
  obtain ⟨whom, manager, switch, reached, found, active, off, _⟩ := Action.mem_turnsOn turned
  rw [a.act_switch switch reached found, active, off]
  simp only [Bool.false_eq_true, if_false]
  rw [System.announce_journal, System.turn_journal, System.ids_turn, List.append_assoc, ← each_append]
  rfl

theorem count_each_le (h : s.Possible) {m n : Nat} {calls : List Call} {c : Call} (few : calls.count c ≤ n) (k : Nat) :
    (callsOn k (each (s.ids m) calls)).count c ≤ n := by
  rw [callsOn_each_of_nodup (h.accounted.ids_nodup m)]
  split
  · exact few
  · exact Nat.zero_le _

theorem Op.count_calls_le (h : s.Possible) {o : Op} (addressed : (Step.op o).addressee = some whom) {n : Nat} {c : Call}
    (few : ∀ m manager, s.reach whom = some m → s.managers[m]? = some manager →
      ((Step.op o).asks manager s.processFlag).count c ≤ n) (k : Nat) : (callsOn k (o.calls s)).count c ≤ n := by
  rw [Op.calls_addressed addressed]
  cases reached : s.reach whom with
  | none => exact Nat.zero_le _
  | some m =>
    obtain ⟨manager, found⟩ := h.reach reached
    refine count_each_le h ?_ k
    simp only [System.asks, found]
    exact few m manager reached found

theorem Action.announcement_eq_nil (nobody : a.turnsOn s = []) (switch : a.switch? = some (whom, on))
    {m : Nat} {manager : Manager} (reached : s.reach whom = some m) (found : s.managers[m]? = some manager)
    (active : manager.retired ≠ true) : announcement (manager.enabled s.processFlag) on = [] := by
  have list := Action.turnsOn_switch (s := s) switch
  have live : s.live m = true := System.live_iff.mpr ⟨manager, found, by simpa using active⟩
  rw [nobody, reached] at list
  unfold announcement
  split
  · rename_i turned
    simp [live, System.enabled_of found, turned] at list
  · rfl

/-- An action that turns logging on for nobody hands out a record only if a caller has given it, and at most once to each
    sink. -/
theorem Action.write_given (h : s.Possible) (nobody : a.turnsOn s = []) (k : Nat) (r : Record) :
    (callsOn k (s.since (a.act s))).count (.write r) ≤ if a.given = some r then 1 else 0 := by
  rw [(a.act_calls h).since]
  cases a with
  | enter m => exact Nat.zero_le _
  | note r => exact Nat.zero_le _
  | giveUp m => exact Nat.zero_le _
  | send m r' =>
    refine count_each_le h ?_ k
    rw [List.count_singleton]
    simp [Action.given]
  | op o =>
    simp only [Action.calls]
    cases o with
    | create source handle =>
      simp only [Op.calls]
      cases s.slot with
      | none => exact Nat.zero_le _
      | some m => exact count_each_le h (by simp) k
    | destroy =>
      simp only [Op.calls]
      cases s.slot with
      | none => exact Nat.zero_le _
      | some m => exact count_each_le h (by simp) k
    | callSink name c =>
      simp only [Op.calls]
      cases s.held.get? name with
      | none => exact Nat.zero_le _
      | some sink => by_cases same : sink.id = k <;> cases c <;> simp [callsOn, same, Action.given, List.count_singleton]
    | register whom source append => exact Op.count_calls_le h rfl (fun _ _ _ _ => Nat.zero_le _) k
    | status whom => exact Op.count_calls_le h rfl (fun _ _ _ _ => Nat.zero_le _) k
    | setEnabled whom on =>
      refine Op.count_calls_le h rfl (fun m manager reached found => ?_) k
      simp only [Step.asks]
      split
      · exact Nat.zero_le _
      · rename_i active
        rw [Action.announcement_eq_nil nobody rfl reached found active]
        exact Nat.zero_le _
    | setSaveLevel whom l =>
      refine Op.count_calls_le h rfl (fun m manager reached found => ?_) k
      simp only [Step.asks]
      split
      · exact Nat.zero_le _
      · rename_i active
        split
        · rename_i on
          have silent := Action.announcement_eq_nil nobody rfl reached found active
          rw [on] at silent
          simp [silent]
        · exact Nat.zero_le _
    | write whom r' =>
      refine Op.count_calls_le h rfl (fun _ _ _ _ => ?_) k
      simp only [Step.asks]
      split
      · rw [List.count_singleton]
        simp [Action.given]
      · exact Nat.zero_le _
    | rename whom name =>
      refine Op.count_calls_le h rfl (fun _ _ _ _ => ?_) k
      simp only [Step.asks]
      split <;> simp
    | flush whom => exact Op.count_calls_le h rfl (fun _ _ _ _ => by simp [Step.asks]) k
    | _ => exact Nat.zero_le _

/-! ## What memory sinks store -/

def MemorySink.levelled (mem : MemorySink) (level : Option Level) : MemorySink :=
  { mem with saveLevel := level.getD mem.saveLevel }

/-- Turning a manager on gives the new level to its memory sinks and stores nothing. -/
theorem System.turn_memory {m : Nat} (distinct : (s.ids m).Nodup) {sink : Sink} {mem : MemorySink}
    (member : sink ∈ s.sinks m) (body : sink.body = .memory mem) (level : Option Level) :
    ⟨sink.id, .memory (mem.levelled level)⟩ ∈ (s.turn m true level).sinks m ∧
      (s.turn m true level).world.buffer sink.id = s.world.buffer sink.id := by
  have world : (s.setSwitch m true).world = s.world := System.setSwitch_world true
  rw [← System.ids_setSwitch s m true] at distinct
  rw [← System.sinks_setSwitch m true m] at member
  cases level with
  | none =>
    have unchanged : (⟨sink.id, .memory (mem.levelled none)⟩ : Sink) = sink := by
      obtain ⟨k, was⟩ := sink
      cases body
      rfl
    rw [unchanged]
    exact ⟨member, by rw [System.turn, world]⟩
  | some l =>
    have given := System.fanOut_memory distinct member body (.saveLevel l)
    rw [world] at given
    exact given

theorem Action.activates_of_level {l : Level} (switch : a.switch? = some (whom, on)) (level : a.level? = some l) :
    l.activates = on := by
  unfold Action.switch? at switch
  split at switch <;> cases switch <;> cases level
  rfl

theorem Level.keeps_always_of_activates {l : Level} (on : l.activates = true) : l.keeps .always = true := by
  revert on
  cases l <;> decide

/-- The announcement is stored by a memory sink if its save level keeps it; a level that has just been set always does. -/
theorem Action.turnsOn_buffer (h : s.Possible) {m : Nat} (turned : m ∈ a.turnsOn s) {sink : Sink} {mem : MemorySink}
    (member : sink ∈ s.sinks m) (body : sink.body = .memory mem) :
    (a.act s).world.buffer sink.id = s.world.buffer sink.id ++
      if a.level?.isSome || mem.saveLevel.keeps .always then ["Logging started"] else [] := by
  obtain ⟨whom, manager, switch, reached, found, active, off, _⟩ := Action.mem_turnsOn turned
  obtain ⟨member, same⟩ := System.turn_memory (h.accounted.ids_nodup m) member body a.level?
  have distinct : ((s.turn m true a.level?).ids m).Nodup := by
    rw [System.ids_turn]
    exact h.accounted.ids_nodup m
  have stored := (System.fanOut_memory distinct member rfl (.write .banner)).2
  rw [a.act_switch switch reached found, active, off]
  simp only [Bool.false_eq_true, if_false, System.announce, Bool.not_false, Bool.true_and, if_true]
  rw [stored, same]
  cases level : a.level? with
  | none => cases kept : mem.saveLevel.keeps .always <;> simp [MemorySink.receive, MemorySink.levelled, Record.banner, kept]
  | some l =>
    have kept := Level.keeps_always_of_activates (a.activates_of_level switch level)
    simp [MemorySink.receive, MemorySink.levelled, Record.banner, kept]

/-! ## Announcements over a run -/

/-- How often logging is turned on by setters for a manager that has a sink in its list. -/
def turnings (k : Nat) : List Action → System → Nat
  | [], _ => 0
  | a :: rest, s => ((a.turnsOn s).countP fun m => decide (k ∈ s.ids m)) + turnings k rest (a.act s)

/-- How often a sink gets a record from a caller that reads like the announcement. -/
def copies (k : Nat) : List Action → System → Nat
  | [], _ => 0
  | a :: rest, s =>
    (if a.given = some .banner then (callsOn k (s.since (a.act s))).count (.write .banner) else 0) +
      copies k rest (a.act s)

theorem Action.count_banner (h : s.Possible) (k : Nat) :
    (callsOn k (s.since (a.act s))).count (.write .banner) =
      ((a.turnsOn s).countP fun m => decide (k ∈ s.ids m)) +
        if a.given = some .banner then (callsOn k (s.since (a.act s))).count (.write .banner) else 0 := by
  cases list : a.turnsOn s with
  | nil =>
    have bound := Action.write_given h list k .banner
    split <;> rename_i given
    · simp
    · simp only [given, if_false] at bound
      simpa using bound
  | cons m others =>
    have turned : m ∈ a.turnsOn s := list ▸ List.mem_cons_self
    obtain ⟨whom, _, switch, _, _, _, _, one⟩ := Action.mem_turnsOn turned
    have none : a.given = none := by
      unfold Action.switch? at switch
      split at switch <;> first | rfl | cases switch
    have since : s.since (a.act s) = each (s.ids m) a.opening := by
      rw [System.since, Action.turnsOn_journal turned, List.drop_left]
    have once : a.opening.count (.write .banner) = 1 := by
      unfold Action.opening
      cases a.level? <;> simp
    rw [← list, one, none, since, callsOn_each_of_nodup (h.accounted.ids_nodup m)]
    by_cases here : k ∈ s.ids m <;> simp [here, once]

/-- What is announced to a sink in a run is what logging has been turned on for it. -/
theorem count_banner_play (h : s.Possible) (k : Nat) (p : List Action) :
    (callsOn k (play p s).world.journal).count (.write .banner) =
      (callsOn k s.world.journal).count (.write .banner) + turnings k p s + copies k p s := by
  induction p generalizing s with
  | nil => simp [turnings, copies]
  | cons a rest ih =>
    obtain ⟨added, journal, _⟩ := a.act_calls h
    have since : s.since (a.act s) = added := by rw [System.since, journal, List.drop_left]
    have one := a.count_banner h k
    rw [play_cons, ih (h.act a), turnings, copies, journal, callsOn_append, List.count_append]
    rw [since] at one ⊢
    omega

/-- At every moment of every run, whatever happens next. A setter that is to turn logging on, and finds the manager that
    it is addressed to not retired and its flag off, sets the flag, and no other setter takes the flag of a manager that
    is not retired from off to on. It turns logging on for this manager alone. It gives the new level, if there is one,
    and then the announcement to each sink of the manager, in their order, and does no more. Memory sinks store the
    announcement, behind a new level always, and else if their level keeps it. What turns logging on for nobody hands
    out no record but the one that a caller gives, and that at most once to a sink. So a sink has got as many
    announcements as setters have turned logging on for the manager that it was with, beside records of callers that
    read the same. -/
theorem banner_law (stamp : String) (steps : List Step) (n : Nat) :
    let p := (course steps (.fresh stamp)).take n
    let s := play p (.fresh stamp)
    (∀ (a : Action) (m : Nat), m ∈ a.turnsOn s ↔
      a.switch?.isSome = true ∧ s.live m = true ∧ s.enabled m = false ∧ (a.act s).enabled m = true) ∧
    (∀ (a : Action) (m : Nat), m ∈ a.turnsOn s →
      a.turnsOn s = [m] ∧ (∃ whom, a.switch? = some (whom, true) ∧ s.reach whom = some m) ∧
      (s.ids m).Nodup ∧ (a.act s).world.journal = s.world.journal ++ each (s.ids m) a.opening ∧
      ∀ sink ∈ s.sinks m, ∀ mem : MemorySink, sink.body = .memory mem →
        (a.act s).world.buffer sink.id = s.world.buffer sink.id ++
          if a.level?.isSome || mem.saveLevel.keeps .always then ["Logging started"] else []) ∧
    (∀ a : Action, a.turnsOn s = [] → ∀ (k : Nat) (r : Record),
      (callsOn k (s.since (a.act s))).count (.write r) ≤ if a.given = some r then 1 else 0) ∧
    ∀ k, (callsOn k s.world.journal).count (.write .banner) =
      turnings k p (.fresh stamp) + copies k p (.fresh stamp) := by
  intro p s
  have h : s.Possible := .play stamp p
  refine ⟨fun a m => a.mem_turnsOn_iff_edge h, ?_, ?_, ?_⟩
  · intro a m turned
    obtain ⟨whom, _, switch, reached, _, _, _, one⟩ := a.mem_turnsOn turned
    exact ⟨one, ⟨whom, switch, reached⟩, h.accounted.ids_nodup m, a.turnsOn_journal turned,
      fun sink member mem body => a.turnsOn_buffer h turned member body⟩
  · intro a nobody k r
    exact a.write_given h nobody k r
  · intro k
    have nothing : callsOn k (System.fresh stamp).world.journal = [] := rfl
    have counted := count_banner_play (.play stamp []) k p
    rw [play_nil, nothing] at counted
    simpa using counted

end LogFanout
