import LogFanout.Proofs.Alongside
import LogFanout.Proofs.FanOut

/- Components that do not know of each other.

   The process is a component, and every manager that is made on its own is one; more generally, names are divided among
   components, and each takes steps that use its own names only. A schedule says whose turn it is, in any order, and at
   what time: each turn has a time of its own, which goes in front of the lines that are written in it.

   `components_commute` says that every component has what it would have on its own: its steps get the same replies and
   lead to the same calls, and its managers, its sinks and their buffers, and for the process the flag and the slot, are in
   the same state at the end. Only numbers differ, because they are given in order to all. The files of a component hold
   the same, too, as far as nobody else has a target that leads to them.

   One reply may differ, and it is not that of a manager: a sink that must have its file is refused by its constructor, for
   a reason that depends on the disk. It is refused all the same, and only if another component has a target in the way of
   this one can the reason be another one (`SameAccount.opening`). Every other reply is the same (`SameAccount.reply`).

   The invariant is `Divided`: at every moment each component is like what it is on its own. A turn keeps it, because
   the component that has it stays what it is on its own and the others are left as they are (`Divided.turn`). -/
namespace LogFanout

/-- A system in which nothing has happened, on a disk. Every turn of a schedule brings its own time. -/
def System.onDisk (disk : Disk) : System := { System.fresh "" with world := { World.fresh "" with host := ⟨disk, []⟩ } }

/-- A turn of a schedule: whose it is, the time, and the step that is taken. -/
structure Turn (ι : Type) where
  who : ι
  stamp : String
  step : Step

/-- What a turn comes to: the reply, and what is added to the journal. -/
structure Account (ι : Type) where
  turn : Turn ι
  reply : Reply
  entries : List Event

/-! ## Schedules -/

section Schedules

variable {ι : Type}

def Turn.run (e : Turn ι) (s : System) : Reply × System := e.step.run (s.wait e.stamp)

def Turn.account (e : Turn ι) (s : System) : Account ι :=
  ⟨e, (e.run s).1, (e.run s).2.world.journal.drop s.world.journal.length⟩

def runTurns : List (Turn ι) → System → System
  | [], s => s
  | e :: rest, s => runTurns rest (e.run s).2

def accounts : List (Turn ι) → System → List (Account ι)
  | [], _ => []
  | e :: rest, s => e.account s :: accounts rest (e.run s).2

def TargetOf (schedule : List (Turn ι)) (i : ι) (target : String) : Prop :=
  ∃ e ∈ schedule, e.who = i ∧ target ∈ e.step.targets

/-- The targets that the others give to sinks. -/
def TargetBeside (schedule : List (Turn ι)) (i : ι) (target : String) : Prop :=
  ∃ e ∈ schedule, e.who ≠ i ∧ target ∈ e.step.targets

variable [DecidableEq ι] {i : ι} {e : Turn ι}

def turnsOf (i : ι) (schedule : List (Turn ι)) : List (Turn ι) := schedule.filter fun e => decide (e.who = i)

def accountsOf (i : ι) (schedule : List (Turn ι)) (s : System) : List (Account ι) :=
  (accounts schedule s).filter fun a => decide (a.turn.who = i)

theorem turnsOf_cons_self (turn : e.who = i) (rest : List (Turn ι)) : turnsOf i (e :: rest) = e :: turnsOf i rest :=
  List.filter_cons_of_pos (decide_eq_true turn)

theorem turnsOf_cons_other (turn : e.who ≠ i) (rest : List (Turn ι)) : turnsOf i (e :: rest) = turnsOf i rest :=
  List.filter_cons_of_neg (Bool.eq_false_iff.mp (decide_eq_false turn))

theorem accountsOf_cons_self (turn : e.who = i) (rest : List (Turn ι)) (s : System) :
    accountsOf i (e :: rest) s = e.account s :: accountsOf i rest (e.run s).2 :=
  List.filter_cons_of_pos (decide_eq_true turn)

theorem accountsOf_cons_other (turn : e.who ≠ i) (rest : List (Turn ι)) (s : System) :
    accountsOf i (e :: rest) s = accountsOf i rest (e.run s).2 :=
  List.filter_cons_of_neg (Bool.eq_false_iff.mp (decide_eq_false turn))

end Schedules

/-- A turn has come to the same twice, up to the numbers of sinks. The reply is the same, unless the step asks by itself for
    a sink that must have its file: if the disk refuses it once, it refuses it both times, and for one reason unless others
    may be in the way. -/
structure SameAccount {ι : Type} (disk : Disk) (others : String → Prop) (sinks : Nat → Nat → Prop) (a b : Account ι) :
    Prop where
  turn : a.turn = b.turn
  reply : a.turn.step.opens = false → a.reply = b.reply
  opening : Reply.Like (disk.Hindered (· ∈ a.turn.step.demands) others) a.reply b.reply
  entries : List.Forall₂ (Event.Like (disk.Hindered (· ∈ a.turn.step.demands) others) sinks) a.entries b.entries

theorem SameAccount.mono {ι : Type} {disk : Disk} {others : String → Prop} {sinks sinks' : Nat → Nat → Prop}
    (more : ∀ i j, sinks i j → sinks' i j) {a b : Account ι} (same : SameAccount disk others sinks a b) :
    SameAccount disk others sinks' a b :=
  { same with entries := same.entries.imp fun _ _ entries => entries.mono id more }

/-- What a turn comes to does not depend on what is in the journal. -/
theorem Turn.account_mute {ι : Type} (e : Turn ι) (s : System) :
    e.account s = ⟨e, (e.run s.mute).1, (e.run s.mute).2.world.journal⟩ := by
  have behind : e.run s = ((e.run s.mute).1, (e.run s.mute).2.prepend s.world.journal) :=
    Step.run_eq_behind e.step (s.wait e.stamp)
  rw [account, behind]
  exact congrArg (Account.mk e _) List.drop_left

/-! ## Calls -/

/-- Sinks that are paired get the same calls. -/
theorem callsOn_like {hindered : Prop} {sinks : Nat → Nat → Prop} (one : Matching sinks) {entries entries' : List Event}
    (like : List.Forall₂ (Event.Like hindered sinks) entries entries') {k j : Nat} (paired : sinks k j) :
    callsOn j entries' = callsOn k entries := by
  induction like with
  | nil => rfl
  | @cons e e' rest rest' head _ ih =>
    rw [← List.singleton_append, ← List.singleton_append (l := rest), callsOn_append, callsOn_append, ih]
    congr 1
    cases head with
    | @called i i' paired' call =>
      by_cases here : i = k
      · rw [here, (one i i' k j paired' paired).mp here, callsOn_called, callsOn_called]
      · rw [callsOn_called_other here, callsOn_called_other fun same => here ((one i i' k j paired' paired).mpr same)]
    | _ => rfl

theorem callsOn_unpaired {hindered : Prop} {sinks : Nat → Nat → Prop} {entries entries' : List Event}
    (like : List.Forall₂ (Event.Like hindered sinks) entries entries') {j : Nat} (out : ∀ k, ¬ sinks k j) :
    callsOn j entries' = [] := by
  induction like with
  | nil => rfl
  | @cons e e' rest rest' head _ ih =>
    rw [← List.singleton_append, callsOn_append, ih, List.append_nil]
    cases head with
    | @called i i' paired call =>
      refine callsOn_called_other ?_ call
      rintro rfl
      exact out i paired
    | _ => rfl

theorem journal_accounts {ι : Type} (turns : List (Turn ι)) (s : System) :
    (runTurns turns s).world.journal = s.world.journal ++ (accounts turns s).flatMap Account.entries := by
  induction turns generalizing s with
  | nil => exact (List.append_nil _).symm
  | cons e rest ih =>
    obtain ⟨added, journal⟩ := Step.journal_prefix e.step (s.wait e.stamp)
    have journal : s.world.journal ++ added = (e.run s).2.world.journal := journal
    have account : (e.account s).entries = added := by
      show (e.run s).2.world.journal.drop s.world.journal.length = added
      rw [← journal, List.drop_left]
    rw [runTurns, ih, accounts, List.flatMap_cons, account, ← journal, List.append_assoc]

/-- If the others do not call a sink, all calls on it are made by one component. -/
theorem callsOn_of_one {ι : Type} [DecidableEq ι] {i : ι} {k : Nat} (l : List (Account ι))
    (silent : ∀ j, j ≠ i → callsOn k ((l.filter fun a => decide (a.turn.who = j)).flatMap Account.entries) = []) :
    callsOn k (l.flatMap Account.entries) =
      callsOn k ((l.filter fun a => decide (a.turn.who = i)).flatMap Account.entries) := by
  induction l with
  | nil => rfl
  | cons a rest ih =>
    have later : ∀ j, j ≠ i →
        callsOn k ((rest.filter fun a => decide (a.turn.who = j)).flatMap Account.entries) = [] := by
      intro j other
      have silent := silent j other
      rw [List.filter_cons] at silent
      split at silent
      · rw [List.flatMap_cons, callsOn_append] at silent
        exact (List.append_eq_nil_iff.mp silent).2
      · exact silent
    rw [List.flatMap_cons, callsOn_append, ih later]
    by_cases turn : a.turn.who = i
    · rw [List.filter_cons, if_pos (decide_eq_true turn), List.flatMap_cons, callsOn_append]
    · have silent := silent a.turn.who turn
      rw [List.filter_cons, if_pos (decide_eq_true rfl), List.flatMap_cons, callsOn_append] at silent
      rw [List.filter_cons, if_neg (by simpa using turn), (List.append_eq_nil_iff.mp silent).1, List.nil_append]

theorem entries_of_accounts {ι : Type} {disk : Disk} {others : String → Prop} {sinks : Nat → Nat → Prop}
    {l l' : List (Account ι)} (same : List.Forall₂ (SameAccount disk others sinks) l l') :
    List.Forall₂ (Event.Like True sinks) (l.flatMap Account.entries) (l'.flatMap Account.entries) := by
  induction same with
  | nil => exact .nil
  | cons head _ ih =>
    have here := head.entries.imp fun _ _ entries => entries.mono (fun _ => trivial) fun _ _ paired => paired
    exact List.rel_append here ih

/-! ## Tables that are divided -/

theorem Table.restrict_congr {κ α : Type} [DecidableEq κ] {t t' : Table κ α} {keep fewer : κ → Bool}
    (less : ∀ k, fewer k = true → keep k = true) (same : t.restrict keep = t'.restrict keep) :
    t.restrict fewer = t'.restrict fewer := by
  have narrow : ∀ t : Table κ α, t.restrict fewer = (t.restrict keep).restrict fewer := by
    intro t
    simp only [restrict, List.filter_filter, mk.injEq]
    refine List.filter_congr fun e _ => ?_
    cases kept : fewer e.1 with
    | true => rw [less _ kept, Bool.and_self]
    | false => rw [Bool.false_and]
  rw [narrow t, narrow t', same]

theorem Table.Like.exists_of_mem {κ α β : Type} {R : α → β → Prop} {t : Table κ α} {t' : Table κ β}
    (like : Table.Like R t t') {v' : β} (member : v' ∈ t'.values) : ∃ v, R v v' := by
  obtain ⟨e', there, rfl⟩ := List.mem_map.mp member
  have entries : List.Forall₂ (fun e e' => e.1 = e'.1 ∧ R e.2 e'.2) t.entries t'.entries := like
  clear like member
  generalize t.entries = l at entries
  generalize t'.entries = l' at entries there
  induction entries with
  | nil => cases there
  | cons entry _ ih =>
    cases there with
    | head => exact ⟨_, entry.2⟩
    | tail _ there => exact ih there

/-! ## The invariant -/

/-- The system without its journal and its time. -/
def System.still (s : System) : System := s.mute.wait ""

section Components

variable {ι : Type} [DecidableEq ι] (owner : String → ι) (process : ι) (disk : Disk) (schedule : List (Turn ι))

/-- What a component is, what it asks for, and what the others have, by the pairings of all. -/
def scopeOf (demands : String → Prop) (π : ι → Pairing) (s : System) (i : ι) : Scope where
  base := disk
  path := TargetOf schedule i
  demands
  others := TargetBeside schedule i
  own name := decide (owner name = i)
  process := decide (i = process)
  managers n := ∃ j, j ≠ i ∧ ∃ m, (π j).managers m n
  sinks n := ∃ j, j ≠ i ∧ ∃ k, (π j).naming.sinks k n
  before := s.still

/-- Each component is like what it is on its own. -/
def Divided (π : ι → Pairing) (t : ι → System) (s : System) : Prop :=
  ∀ i, System.Like (scopeOf owner process disk schedule (fun _ => False) π s i) (π i) (t i).still s.still

variable {owner process disk schedule} {π : ι → Pairing} {t : ι → System} {s a b : System} {i : ι} {ρ : Pairing}

theorem restrict_beside {α : Type} {x y : Table String α} {j : ι} (other : j ≠ i)
    (same : (x.restrict fun name => !decide (owner name = i)) = y.restrict fun name => !decide (owner name = i)) :
    (x.restrict fun name => decide (owner name = j)) = y.restrict fun name => decide (owner name = j) := by
  refine Table.restrict_congr (fun name own => ?_) same
  obtain rfl := of_decide_eq_true own
  simpa using other

omit [DecidableEq ι] in
theorem TargetOf.beside {j : ι} {target : String} (own : TargetOf schedule i target) (other : j ≠ i) :
    TargetBeside schedule j target := by
  obtain ⟨e, member, rfl, named⟩ := own
  exact ⟨e, member, Ne.symm other, named⟩

theorem beside_of_update (R : Pairing → Nat → Nat → Prop) {n : Nat}
    (there : ∃ k, k ≠ i ∧ ∃ m, R (Function.update π i ρ k) m n) : ∃ k, k ≠ i ∧ ∃ m, R (π k) m n := by
  obtain ⟨k, other, m, paired⟩ := there
  rw [Function.update_of_ne other] at paired
  exact ⟨k, other, m, paired⟩

theorem apart_of_update (R : Pairing → Nat → Nat → Prop) {j : ι} {m n : Nat} (here : j ≠ i) (paired : R (π j) m n)
    (before : ¬ ∃ k, k ≠ j ∧ ∃ m, R (π k) m n) (moved : ∀ m, R ρ m n → ¬ ∃ k, k ≠ i ∧ ∃ m, R (π k) m n) :
    ¬ ∃ k, k ≠ j ∧ ∃ m, R (Function.update π i ρ k) m n := by
  rintro ⟨k, other, m', paired'⟩
  by_cases turn : k = i
  · subst turn
    rw [Function.update_self] at paired'
    exact moved m' paired' ⟨j, here, m, paired⟩
  · rw [Function.update_of_ne turn] at paired'
    exact before ⟨k, other, m', paired'⟩

section Extend

variable {demands : String → Prop} (after : System.Like (scopeOf owner process disk schedule demands π s i) ρ a b)

include after

/-- The managers of all components are there, when one component has moved on. -/
theorem System.Like.managers_there {k : ι} {m n : Nat} (paired : (Function.update π i ρ k).managers m n) :
    ∃ manager, b.managers[n]? = some manager := by
  by_cases here : k = i
  · subst here
    rw [Function.update_self] at paired
    obtain ⟨_, manager, _, there, _⟩ := after.manager m n paired
    exact ⟨manager, there⟩
  · rw [Function.update_of_ne here] at paired
    obtain ⟨manager, _, there⟩ := after.others n ⟨k, here, m, paired⟩
    exact ⟨manager, there⟩

theorem System.Like.sinks_there {k : ι} {m n : Nat} (paired : (Function.update π i ρ k).naming.sinks m n) :
    ∃ label, b.world.labels[n]? = some label := by
  by_cases here : k = i
  · subst here
    rw [Function.update_self] at paired
    obtain ⟨label, _, there⟩ := after.world.label m n paired
    exact ⟨label, there⟩
  · rw [Function.update_of_ne here] at paired
    obtain ⟨_, label, _, there⟩ := after.world.aside n ⟨k, here, m, paired⟩
    exact ⟨label, there⟩

variable (divided : Divided owner process disk schedule π t s)

include divided

theorem Divided.handles_extend (j : ι) :
    Table.Like (Function.update π i ρ j).managers (Function.update t i a j).handles
      (b.handles.restrict fun name => decide (owner name = j)) := by
  by_cases here : j = i
  · subst here
    rw [Function.update_self, Function.update_self]
    exact after.handles
  · rw [Function.update_of_ne here, Function.update_of_ne here, restrict_beside here after.asideHandles]
    exact (divided j).handles

theorem Divided.slot_extend :
    Option.Rel (Function.update π i ρ process).managers (Function.update t i a process).slot b.slot := by
  by_cases here : process = i
  · subst here
    rw [Function.update_self, Function.update_self]
    exact after.slot (decide_eq_true rfl)
  · rw [Function.update_of_ne here, Function.update_of_ne here, (after.asideSlot (decide_eq_false (Ne.symm here))).2]
    exact (divided process).slot (decide_eq_true rfl)

theorem Divided.sound_extend (j : ι) :
    (scopeOf owner process disk schedule (fun _ => False) (Function.update π i ρ) b j).Sound where
  handles m member := by
    obtain ⟨e, there, rfl⟩ := List.mem_map.mp member
    obtain ⟨there, hidden⟩ := List.mem_filter.mp there
    have other : owner e.1 ≠ j := by simpa [scopeOf] using hidden
    have listed : e.2 ∈ (b.handles.restrict fun name => decide (owner name = owner e.1)).values :=
      List.mem_map_of_mem (List.mem_filter.mpr ⟨there, decide_eq_true rfl⟩)
    obtain ⟨m, paired⟩ := (divided.handles_extend after (owner e.1)).exists_of_mem listed
    exact ⟨owner e.1, other, m, paired⟩
  slot aside m seated := by
    have seated : b.slot = some m := seated
    have other : process ≠ j := Ne.symm (of_decide_eq_false aside)
    have slot := divided.slot_extend after
    rw [seated] at slot
    generalize (Function.update t i a process).slot = one at slot
    cases slot with
    | some paired => exact ⟨process, other, _, paired⟩

theorem Divided.extend_self :
    System.Like (scopeOf owner process disk schedule (fun _ => False) (Function.update π i ρ) b i) ρ
      a.still b.still := by
  have world : World.Like (scopeOf owner process disk schedule (fun _ => False) (Function.update π i ρ) b i) ρ.naming
      a.still.world b.still.world :=
    { after.world with
      journal := .nil
      stamp := rfl
      apart := fun k n paired theirs => after.world.apart k n paired (beside_of_update (·.naming.sinks) theirs)
      aside := fun n ⟨k, _, m, paired⟩ => by
        obtain ⟨label, there⟩ := after.sinks_there paired
        exact ⟨rfl, label, there, there⟩
      disk := { after.world.disk with kept := fun _ _ item => item, aside := fun _ _ _ => rfl } }
  exact
    { after with
      scope := divided.sound_extend after i
      world
      apart := fun m n paired theirs => after.apart m n paired (beside_of_update (·.managers) theirs)
      others := fun n ⟨k, _, m, paired⟩ => by
        obtain ⟨manager, there⟩ := after.managers_there paired
        exact ⟨manager, there, there⟩
      asideSlot := fun aside => ⟨(after.asideSlot aside).1, rfl⟩
      asideFlag := fun _ => rfl
      asideHandles := rfl
      asideHeld := rfl
      asideLogs := rfl }

theorem Divided.world_extend {j : ι} (here : j ≠ i) :
    World.Like (scopeOf owner process disk schedule (fun _ => False) (Function.update π i ρ) b j) (π j).naming
      (t j).still.world b.still.world :=
  let like := (divided j).world
  { like with
    journal := .nil
    stamp := rfl
    label := fun k n paired => by
      obtain ⟨label, mine, held⟩ := like.label k n paired
      obtain ⟨_, label', held', there⟩ := after.world.aside n ⟨j, here, k, paired⟩
      obtain rfl := Option.some.inj (held.symm.trans held')
      exact ⟨label, mine, there⟩
    buffer := fun k n paired =>
      (like.buffer k n paired).trans (after.world.aside n ⟨j, here, k, paired⟩).1.symm
    apart := fun k n paired =>
      apart_of_update (·.naming.sinks) here paired (like.apart k n paired) fun k' => after.world.apart k' n
    unborn' := after.world.unborn'
    aside := fun n ⟨k, _, m, paired⟩ => by
      obtain ⟨label, there⟩ := after.sinks_there paired
      exact ⟨rfl, label, there, there⟩
    disk :=
      { alone := like.disk.alone
        shared := after.world.disk.shared
        bytes := fun x inside free => (like.disk.bytes x inside free).trans
          (after.world.disk.aside x inside fun target own => free target (own.beside here)).symm
        items := fun k n paired => (like.disk.items k n paired).imp_right
          fun ⟨target, x, own, site, item, item'⟩ => ⟨target, x, own, site, item, after.world.disk.kept x n item'⟩
        kept := fun _ _ item => item
        aside := fun _ _ _ => rfl } }

/-- The others are as they were. -/
theorem Divided.extend_other (idle : b.running = s.running) {j : ι} (here : j ≠ i) :
    System.Like (scopeOf owner process disk schedule (fun _ => False) (Function.update π i ρ) b j) (π j)
      (t j).still b.still := by
  have like := divided j
  have handles := divided.handles_extend after j
  rw [Function.update_of_ne here, Function.update_of_ne here] at handles
  exact
    { like with
      scope := divided.sound_extend after j
      world := divided.world_extend after here
      manager := fun m n paired => by
        obtain ⟨one, other, mine, held, managers⟩ := like.manager m n paired
        obtain ⟨manager, held', there⟩ := after.others n ⟨j, here, m, paired⟩
        obtain rfl := Option.some.inj (held.symm.trans held')
        exact ⟨one, other, mine, there, managers⟩
      apart := fun m n paired =>
        apart_of_update (·.managers) here paired (like.apart m n paired) fun m' => after.apart m' n
      handles
      held := by
        show Table.Like _ _ (b.held.restrict fun name => decide (owner name = j))
        rw [restrict_beside here after.asideHeld]
        exact like.held
      logs := by
        show Table.Like _ _ (b.logs.restrict fun name => decide (owner name = j))
        rw [restrict_beside here after.asideLogs]
        exact like.logs
      running := by
        show List.Forall₂ _ _ b.running
        rw [idle]
        exact like.running
      slot := fun isProcess => by
        obtain rfl := of_decide_eq_true isProcess
        have slot := divided.slot_extend after
        rwa [Function.update_of_ne here, Function.update_of_ne here] at slot
      flag := fun isProcess => by
        obtain rfl := of_decide_eq_true isProcess
        exact (like.flag isProcess).trans (after.asideFlag (decide_eq_false (Ne.symm here))).symm
      others := fun n ⟨k, _, m, paired⟩ => by
        obtain ⟨manager, there⟩ := after.managers_there paired
        exact ⟨manager, there, there⟩
      asideSlot := fun aside => ⟨(like.asideSlot aside).1, rfl⟩
      asideFlag := fun _ => rfl
      asideHandles := rfl
      asideHeld := rfl
      asideLogs := rfl }

/-- One component has moved on, on its own as among the others. -/
theorem Divided.extend (idle : b.running = s.running) :
    Divided owner process disk schedule (Function.update π i ρ) (Function.update t i a) b := by
  intro j
  by_cases here : j = i
  · subst here
    rw [Function.update_self, Function.update_self]
    exact divided.extend_self after
  · rw [Function.update_of_ne here, Function.update_of_ne here]
    exact divided.extend_other after idle here

end Extend

theorem Divided.congr (divided : Divided owner process disk schedule π t s) {t' : ι → System} {s' : System}
    (alone : ∀ j, (t' j).still = (t j).still) (among : s'.still = s.still) :
    Divided owner process disk schedule π t' s' := by
  simp only [Divided, scopeOf, alone, among] at divided ⊢
  exact divided

/-- At first nobody has anything. -/
theorem Divided.start (sound : disk.Sound) :
    Divided owner process disk schedule (fun _ => .none) (fun _ => .onDisk disk) (.onDisk disk) := by
  intro i
  have world : World.Like (scopeOf owner process disk schedule (fun _ => False) (fun _ => .none) (.onDisk disk) i)
      Pairing.none.naming (System.onDisk disk).still.world (System.onDisk disk).still.world :=
    { journal := .nil
      label := nofun
      buffer := nofun
      all := nofun
      one := nofun
      apart := nofun
      unborn := fun _ _ => rfl
      unborn' := fun _ _ => rfl
      aside := nofun
      disk :=
        { alone := .refl sound
          shared := .refl sound
          bytes := fun _ _ _ => rfl
          items := nofun
          kept := fun _ _ item => item
          aside := fun _ _ _ => rfl }
      stamp := rfl }
  exact
    { scope := ⟨nofun, nofun⟩
      world
      manager := nofun
      all := nofun
      one := nofun
      apart := nofun
      handles := .nil
      held := .nil
      logs := .nil
      running := .nil
      slot := fun _ => .none
      flag := fun _ => rfl
      others := nofun
      asideSlot := fun _ => ⟨rfl, rfl⟩
      asideFlag := fun _ => rfl
      asideHandles := rfl
      asideHeld := rfl
      asideLogs := rfl }

/-- Whatever is asked for at a turn, and at whatever time it is taken. -/
theorem Divided.begin (divided : Divided owner process disk schedule π t s) (demands : String → Prop) (stamp : String) :
    System.Like (scopeOf owner process disk schedule demands π s i) (π i) ((t i).wait stamp).mute (s.wait stamp).mute :=
  let like := divided i
  { like with
    scope := { like.scope with }
    world :=
      { like.world with
        journal := .nil
        disk := { like.world.disk with }
        stamp := rfl } }

/-- A turn of a component comes to the same among the others. -/
theorem Divided.turn (divided : Divided owner process disk schedule π t s) {e : Turn ι} (member : e ∈ schedule)
    (belongs : e.step.belongs (fun name => decide (owner name = e.who)) (decide (e.who = process)) = true) :
    ∃ π', (∀ j, (π j).Grows (π' j)) ∧
      Divided owner process disk schedule π' (Function.update t e.who (e.run (t e.who)).2) (e.run s).2 ∧
      SameAccount disk (TargetBeside schedule e.who) (π' e.who).naming.sinks (e.account (t e.who)) (e.account s) := by
  have covers : (scopeOf owner process disk schedule (· ∈ e.step.demands) π s e.who).Covers e.step.targets
      e.step.demands := ⟨fun _ named => ⟨e, member, rfl, named⟩, fun _ asked => asked⟩
  obtain ⟨ρ, grows, replies, after⟩ := Step.run_like e.step belongs covers (divided.begin _ e.stamp)
  have moved := divided.extend after (Step.run_running e.step (s.wait e.stamp).mute)
  refine ⟨Function.update π e.who ρ, ?_, moved.congr ?_ ?_, ?_⟩
  · intro j
    by_cases here : j = e.who
    · subst here
      rwa [Function.update_self]
    · rw [Function.update_of_ne here]
      exact .refl _
  · intro j
    by_cases here : j = e.who
    · subst here
      rw [Function.update_self, Function.update_self, Turn.run, Step.run_eq_behind]
      rfl
    · rw [Function.update_of_ne here, Function.update_of_ne here]
  · rw [Turn.run, Step.run_eq_behind]
    rfl
  · rw [Function.update_self, Turn.account_mute, Turn.account_mute]
    exact ⟨rfl, fun plain => Step.reply_eq plain replies, replies, after.world.journal⟩

/-- A schedule comes to the same for every component as its own turns. -/
theorem Divided.run (rest : List (Turn ι)) (divided : Divided owner process disk schedule π t s)
    (part : ∀ e ∈ rest, e ∈ schedule)
    (belong : ∀ e ∈ rest,
      e.step.belongs (fun name => decide (owner name = e.who)) (decide (e.who = process)) = true) :
    ∃ π', (∀ j, (π j).Grows (π' j)) ∧
      Divided owner process disk schedule π' (fun j => runTurns (turnsOf j rest) (t j)) (runTurns rest s) ∧
      ∀ j, List.Forall₂ (SameAccount disk (TargetBeside schedule j) (π' j).naming.sinks)
        (accounts (turnsOf j rest) (t j)) (accountsOf j rest s) := by
  induction rest generalizing π t s with
  | nil => exact ⟨π, fun j => .refl _, divided, fun j => .nil⟩
  | cons e rest' ih =>
    obtain ⟨here, later⟩ := List.forall_mem_cons.mp part
    obtain ⟨belongs, belong⟩ := List.forall_mem_cons.mp belong
    obtain ⟨π₁, grows₁, divided, account⟩ := divided.turn here belongs
    obtain ⟨π₂, grows₂, divided, rest⟩ := ih divided later belong
    refine ⟨π₂, fun j => (grows₁ j).trans (grows₂ j), ?_, fun j => ?_⟩
    · have same : (fun j => runTurns (turnsOf j (e :: rest')) (t j)) =
          fun j => runTurns (turnsOf j rest') (Function.update t e.who (e.run (t e.who)).2 j) := by
        funext j
        by_cases turn : e.who = j
        · subst turn
          rw [turnsOf_cons_self rfl, Function.update_self]
          rfl
        · rw [turnsOf_cons_other turn, Function.update_of_ne (Ne.symm turn)]
      rw [same]
      exact divided
    · have rest := rest j
      by_cases turn : e.who = j
      · subst turn
        rw [Function.update_self] at rest
        rw [turnsOf_cons_self rfl, accountsOf_cons_self rfl]
        exact .cons (account.mono (grows₂ e.who).naming.sinks) rest
      · rw [Function.update_of_ne (Ne.symm turn)] at rest
        rw [turnsOf_cons_other turn, accountsOf_cons_other turn]
        exact rest

/-! ## The result -/

/-- What a component has in the end on its own, and among the others: the same, up to numbers. -/
structure Undisturbed (owner : String → ι) (process : ι) (disk : Disk) (schedule : List (Turn ι)) (i : ι) (π : Pairing)
    (alone among : System) : Prop where
  oneManager : Matching π.managers
  oneSink : Matching π.naming.sinks
  allManagers : ∀ m, m < alone.managers.length → ∃ n, π.managers m n
  allSinks : ∀ k, k < alone.world.labels.length → ∃ j, π.naming.sinks k j
  /-- The list of sinks with the state of each, whether the manager is retired, and whether logging is on for it. -/
  managers : ∀ m n, π.managers m n → among.enabled n = alone.enabled m ∧
    ∃ one other, alone.managers[m]? = some one ∧ among.managers[n]? = some other ∧
      Manager.Like (decide (i = process)) π.naming one other
  /-- What a sink is, the buffer of a memory sink, and all calls that the sink has got. -/
  sinks : ∀ k j, π.naming.sinks k j → among.world.labels[j]? = alone.world.labels[k]? ∧
    among.world.buffer j = alone.world.buffer k ∧
    callsOn j among.world.journal = callsOn k alone.world.journal
  /-- A file that is open is at the site of a target of the component, unless it is a device. -/
  opened : ∀ a b, π.naming.items a b → (a = b ∧ disk.IsDevice a) ∨
    ∃ target x, TargetOf schedule i target ∧ disk.site? target = some x ∧ alone.disk.item? x = some a ∧
      among.disk.item? x = some b
  names : ∀ name, owner name = i →
    Option.Rel π.managers (alone.handles.get? name) (among.handles.get? name) ∧
    Option.Rel (Sink.Like π.naming) (alone.held.get? name) (among.held.get? name) ∧
    Option.Rel π.naming.sinks (alone.logs.get? name) (among.logs.get? name)
  slot : i = process → among.processFlag = alone.processFlag ∧ Option.Rel π.managers alone.slot among.slot
  /-- What can be read at a path that no target of the others shares a file with. -/
  files : ∀ path, (∀ other, TargetBeside schedule i other → ¬ disk.Shares path other) →
    (among.disk.read path).toOption = (alone.disk.read path).toOption

theorem Divided.undisturbed (divided : Divided owner process disk schedule π t s)
    (calls : ∀ k j, (π i).naming.sinks k j → callsOn j s.world.journal = callsOn k (t i).world.journal) :
    Undisturbed owner process disk schedule i (π i) (t i) s where
  oneManager := (divided i).one
  oneSink := (divided i).world.one
  allManagers := (divided i).all
  allSinks := (divided i).world.all
  managers m n paired := by
    obtain ⟨one, other, here, there, managers⟩ := (divided i).manager m n paired
    have here : (t i).managers[m]? = some one := here
    have there : s.managers[n]? = some other := there
    refine ⟨?_, one, other, here, there, managers⟩
    simp only [System.enabled, here, there]
    exact (divided i).enabled_eq managers
  sinks k j paired := by
    obtain ⟨label, here, there⟩ := (divided i).world.label k j paired
    exact ⟨there.trans here.symm, ((divided i).world.buffer k j paired).symm, calls k j paired⟩
  opened := (divided i).world.disk.items
  names name own := by
    have own : (scopeOf owner process disk schedule (fun _ => False) π s i).own name = true := decide_eq_true own
    refine ⟨(divided i).handle own, (divided i).heldSink own, ?_⟩
    rw [← s.logs.get?_restrict own]
    exact (divided i).logs.get? name
  slot isProcess :=
    ⟨((divided i).flag (decide_eq_true isProcess)).symm, (divided i).slot (decide_eq_true isProcess)⟩
  files path unshared := by
    have like := (divided i).world.disk
    refine (like.alone.read_agree like.shared fun x site => like.bytes x (Disk.site_in site) ?_).symm
    intro other theirs same
    exact unshared other theirs ⟨x, site, same⟩

/-- For all schedules of all components, from any disk, whatever the times. Each turn of a component gets the reply that it
    gets if the component is alone, and adds the same to the journal; in the end the component has what it has alone, and
    nothing of it belongs to another one. -/
theorem components_commute (owner : String → ι) (process : ι) (disk : Disk) (schedule : List (Turn ι))
    (sound : disk.Sound)
    (belong : ∀ e ∈ schedule,
      e.step.belongs (fun name => decide (owner name = e.who)) (decide (e.who = process)) = true) :
    ∃ π : ι → Pairing,
      (∀ i, List.Forall₂ (SameAccount disk (TargetBeside schedule i) (π i).naming.sinks)
          (accounts (turnsOf i schedule) (.onDisk disk)) (accountsOf i schedule (.onDisk disk)) ∧
        Undisturbed owner process disk schedule i (π i) (runTurns (turnsOf i schedule) (.onDisk disk))
          (runTurns schedule (.onDisk disk))) ∧
      ∀ i j, i ≠ j → (∀ m m' n, (π i).managers m n → ¬ (π j).managers m' n) ∧
        ∀ k k' n, (π i).naming.sinks k n → ¬ (π j).naming.sinks k' n := by
  obtain ⟨π, _, divided, same⟩ := (Divided.start sound).run schedule (fun _ member => member) belong
  refine ⟨π, fun i => ⟨same i, divided.undisturbed fun k j paired => ?_⟩, fun i j other => ⟨?_, ?_⟩⟩
  · rw [journal_accounts, journal_accounts, callsOn_append, callsOn_append, callsOn_of_one (i := i)]
    · exact congrArg _ (callsOn_like (divided i).world.one (entries_of_accounts (same i)) paired)
    · intro i' other
      refine callsOn_unpaired (entries_of_accounts (same i')) fun k' paired' => ?_
      exact (divided i).world.apart k j paired ⟨i', other, k', paired'⟩
  · exact fun m m' n paired paired' => (divided i).apart m n paired ⟨j, Ne.symm other, m', paired'⟩
  · exact fun k k' n paired paired' => (divided i).world.apart k n paired ⟨j, Ne.symm other, k', paired'⟩

end Components

/-- The process, here `true`, makes its instance, writes to it and destroys it, while a manager with a file goes its own
    way. -/
def twoComponents : List (Turn Bool) :=
  [⟨true, "0.000", .op (.create (.built (.probe "all" true)) (some "instance"))⟩,
    ⟨false, "0.001", .op (.makeWithFile "own" ⟨"own.log", false, false, .debug⟩)⟩,
    ⟨true, "0.002", .format (.handle "instance") .info none (.piece (.text "started") .done)⟩,
    ⟨false, "0.003", .op (.write (.handle "own") ⟨.info, none, "kept"⟩)⟩,
    ⟨false, "0.004", .op (.setSaveLevel (.handle "own") .none)⟩,
    ⟨true, "0.005", .op .destroy⟩,
    ⟨false, "0.006", .op (.write (.handle "own") ⟨.info, none, "unheard"⟩)⟩]

theorem two_components_commute :
    ∃ π : Bool → Pairing,
      (∀ i, List.Forall₂ (SameAccount .fresh (TargetBeside twoComponents i) (π i).naming.sinks)
          (accounts (turnsOf i twoComponents) (.onDisk .fresh)) (accountsOf i twoComponents (.onDisk .fresh)) ∧
        Undisturbed (fun name => decide (name = "instance")) true .fresh twoComponents i (π i)
          (runTurns (turnsOf i twoComponents) (.onDisk .fresh)) (runTurns twoComponents (.onDisk .fresh))) ∧
      ∀ i j, i ≠ j → (∀ m m' n, (π i).managers m n → ¬ (π j).managers m' n) ∧
        ∀ k k' n, (π i).naming.sinks k n → ¬ (π j).naming.sinks k' n :=
  components_commute (fun name => decide (name = "instance")) true .fresh twoComponents Disk.sound_fresh (by decide)

end LogFanout
