import LogFanout.Proofs.Pairing

/- Two systems side by side.

   A component on its own and the same component among others are alike (`System.Like`) if their worlds are, if managers
   that are paired have sinks that are alike in the same order and the same settings, and if everything under names of the
   component is paired. What is under names of others, their managers and, unless the component is the process, the slot
   and the flag are as they were before.

   Every operation of the component preserves this, under a pairing that may have grown, and gives replies that are alike
   (`Op.run_like`); so does every step (`Step.run_like`). Each operation on a manager is looked at once, for two managers
   that are paired. -/
namespace LogFanout

/-! ## Tables -/

namespace Table

variable {κ α β : Type} [DecidableEq κ]

/-- Tables with the same keys in the same order, and values that are related. -/
def Like (R : α → β → Prop) (t : Table κ α) (t' : Table κ β) : Prop :=
  List.Forall₂ (fun e e' => e.1 = e'.1 ∧ R e.2 e'.2) t.entries t'.entries

namespace Like

variable {R R' : α → β → Prop} {t : Table κ α} {t' : Table κ β}

omit [DecidableEq κ] in
theorem mono (more : ∀ a b, R a b → R' a b) (like : Like R t t') : Like R' t t' :=
  List.Forall₂.imp (fun _ _ entry => ⟨entry.1, more _ _ entry.2⟩) like

theorem get? (like : Like R t t') (k : κ) : Option.Rel R (t.get? k) (t'.get? k) := by
  obtain ⟨l⟩ := t
  obtain ⟨l'⟩ := t'
  replace like : List.Forall₂ (fun e e' => e.1 = e'.1 ∧ R e.2 e'.2) l l' := like
  show Option.Rel R (find k l) (find k l')
  induction like with
  | nil => exact .none
  | @cons e e' _ _ entry _ ih =>
    obtain ⟨key, value⟩ := entry
    simp only [find, ← key]
    split
    · exact .some value
    · exact ih

theorem put (like : Like R t t') (k : κ) {v : α} {v' : β} (value : R v v') : Like R (t.put k v) (t'.put k v') := by
  obtain ⟨l⟩ := t
  obtain ⟨l'⟩ := t'
  replace like : List.Forall₂ (fun e e' => e.1 = e'.1 ∧ R e.2 e'.2) l l' := like
  show List.Forall₂ _ (replace k v l) (replace k v' l')
  induction like with
  | nil => exact .cons ⟨rfl, value⟩ .nil
  | @cons e e' _ _ entry rest ih =>
    obtain ⟨key, old⟩ := entry
    simp only [replace, ← key]
    split
    · exact .cons ⟨rfl, value⟩ rest
    · exact .cons ⟨rfl, old⟩ ih

theorem erase (like : Like R t t') (k : κ) : Like R (t.erase k) (t'.erase k) := by
  obtain ⟨l⟩ := t
  obtain ⟨l'⟩ := t'
  replace like : List.Forall₂ (fun e e' => e.1 = e'.1 ∧ R e.2 e'.2) l l' := like
  show List.Forall₂ _ (l.filter fun e => decide (e.1 ≠ k)) (l'.filter fun e => decide (e.1 ≠ k))
  induction like with
  | nil => exact .nil
  | @cons e e' _ _ entry _ ih =>
    by_cases here : e.1 = k
    · rw [List.filter_cons_of_neg (by simpa using here), List.filter_cons_of_neg (by simpa [← entry.1] using here)]
      exact ih
    · rw [List.filter_cons_of_pos (by simpa using here), List.filter_cons_of_pos (by simpa [← entry.1] using here)]
      exact .cons entry ih

end Like

theorem restrict_erase (t : Table κ α) {keep : κ → Bool} {k : κ} (hidden : keep k = false) :
    (t.erase k).restrict keep = t.restrict keep := by
  simp only [restrict, erase, List.filter_filter, mk.injEq]
  refine List.filter_congr fun e _ => ?_
  by_cases same : e.1 = k
  · simp [same, hidden]
  · simp [same]

omit [DecidableEq κ] in
theorem mem_values_restrict {t : Table κ α} {v : α} (keep : κ → Bool) :
    v ∈ t.values ↔ v ∈ (t.restrict keep).values ∨ v ∈ (t.restrict fun k => !keep k).values := by
  simp only [values, restrict, List.mem_map, List.mem_filter]
  constructor
  · rintro ⟨e, member, rfl⟩
    cases kept : keep e.1 with
    | true => exact .inl ⟨e, ⟨member, kept⟩, rfl⟩
    | false => exact .inr ⟨e, ⟨member, by simp [kept]⟩, rfl⟩
  · rintro (⟨e, ⟨member, _⟩, rfl⟩ | ⟨e, ⟨member, _⟩, rfl⟩) <;> exact ⟨e, member, rfl⟩

end Table

/-- A relation that pairs each with one at most. -/
def Matching (R : Nat → Nat → Prop) : Prop := ∀ i j i' j', R i j → R i' j' → (i = i' ↔ j = j')

/-- What is paired is in both lists or in none, if the lists are paired. -/
theorem Matching.mem {R : Nat → Nat → Prop} (one : Matching R) {l l' : List Nat} (like : List.Forall₂ R l l') {i j : Nat}
    (paired : R i j) : i ∈ l ↔ j ∈ l' := by
  induction like with
  | nil => simp
  | cons head _ ih => rw [List.mem_cons, List.mem_cons, ih, one _ _ _ _ paired head]

/-! ## What is alike -/

/-- Which numbers of one system stand for which of another. -/
structure Pairing where
  naming : Naming
  managers : Nat → Nat → Prop

def Pairing.none : Pairing := ⟨⟨fun _ _ => False, fun _ _ => False⟩, fun _ _ => False⟩

structure Pairing.Grows (π π' : Pairing) : Prop where
  naming : π.naming.Grows π'.naming
  managers : ∀ m n, π.managers m n → π'.managers m n

theorem Pairing.Grows.refl (π : Pairing) : π.Grows π := ⟨.refl _, fun _ _ paired => paired⟩

theorem Pairing.Grows.trans {π π' π'' : Pairing} (first : π.Grows π') (second : π'.Grows π'') : π.Grows π'' :=
  ⟨first.naming.trans second.naming, fun m n paired => second.managers m n (first.managers m n paired)⟩

/-- Managers with sinks that are alike, and the same settings. Only the process has managers without a switch of their
    own. -/
structure Manager.Like (process : Bool) (ν : Naming) (one other : Manager) : Prop where
  sinks : List.Forall₂ (Sink.Like ν) one.sinks other.sinks
  count : one.count = other.count
  switch : one.switch = other.switch
  retired : one.retired = other.retired
  shared : one.switch = .shared → process = true

theorem Manager.Like.mono {process : Bool} {ν ν' : Naming} (grows : ν.Grows ν') {one other : Manager}
    (like : Manager.Like process ν one other) : Manager.Like process ν' one other :=
  { like with sinks := Sink.Like.mono_list grows like.sinks }

/-- What is not the component's is with the others. -/
structure Scope.Sound (c : Scope) : Prop where
  handles : ∀ m ∈ (c.before.handles.restrict fun name => !c.own name).values, c.managers m
  slot : c.process = false → ∀ m, c.before.slot = some m → c.managers m

/-- A component on its own, and the same component among others. -/
structure System.Like (c : Scope) (π : Pairing) (t s : System) : Prop where
  scope : c.Sound
  world : World.Like c π.naming t.world s.world
  manager : ∀ m n, π.managers m n → ∃ one other, t.managers[m]? = some one ∧ s.managers[n]? = some other ∧
    Manager.Like c.process π.naming one other
  all : ∀ m, m < t.managers.length → ∃ n, π.managers m n
  one : Matching π.managers
  apart : ∀ m n, π.managers m n → ¬ c.managers n
  handles : Table.Like π.managers t.handles (s.handles.restrict c.own)
  held : Table.Like (Sink.Like π.naming) t.held (s.held.restrict c.own)
  logs : Table.Like π.naming.sinks t.logs (s.logs.restrict c.own)
  running : List.Forall₂ π.managers t.running s.running
  slot : c.process = true → Option.Rel π.managers t.slot s.slot
  flag : c.process = true → t.processFlag = s.processFlag
  others : ∀ n, c.managers n → ∃ manager, c.before.managers[n]? = some manager ∧ s.managers[n]? = some manager
  asideSlot : c.process = false → t.slot = none ∧ s.slot = c.before.slot
  asideFlag : c.process = false → s.processFlag = c.before.processFlag
  asideHandles : s.handles.restrict (fun name => !c.own name) = c.before.handles.restrict fun name => !c.own name
  asideHeld : s.held.restrict (fun name => !c.own name) = c.before.held.restrict fun name => !c.own name
  asideLogs : s.logs.restrict (fun name => !c.own name) = c.before.logs.restrict fun name => !c.own name

/-- Outcomes that are alike, under a pairing that has grown. -/
def System.Outcome {α β : Type} (c : Scope) (π : Pairing) (R : Pairing → α → β → Prop) (x : α × System)
    (y : β × System) : Prop :=
  ∃ π', π.Grows π' ∧ R π' x.1 y.1 ∧ System.Like c π' x.2 y.2

/-- Systems that are alike under a pairing that has grown. -/
def System.Follows (c : Scope) (π : Pairing) (t s : System) : Prop := ∃ π', π.Grows π' ∧ System.Like c π' t s

namespace System

variable {c : Scope} {π : Pairing} {t s : System}

namespace Like

variable {m n : Nat}

theorem follows (like : Like c π t s) : Follows c π t s := ⟨π, .refl π, like⟩

theorem outcome {α β : Type} {R : Pairing → α → β → Prop} {a : α} {b : β} (like : Like c π t s) (values : R π a b) :
    Outcome c π R (a, t) (b, s) :=
  ⟨π, .refl π, values, like⟩

theorem same {α : Type} (like : Like c π t s) (a : α) : Outcome c π (fun _ => Eq) (a, t) (a, s) := like.outcome rfl

/-- Other worlds that are alike. -/
theorem onWorld (like : Like c π t s) {ν : Naming} (grows : π.naming.Grows ν) {w w' : World}
    (world : World.Like c ν w w') : Like c ⟨ν, π.managers⟩ { t with world := w } { s with world := w' } :=
  { like with
    world
    manager := fun m n paired => by
      obtain ⟨one, other, here, there, managers⟩ := like.manager m n paired
      exact ⟨one, other, here, there, managers.mono grows⟩
    held := like.held.mono fun _ _ sinks => sinks.mono grows
    logs := like.logs.mono grows.sinks }

/-- Nobody reads the console. -/
theorem say (like : Like c π t s) (text text' : String) : Like c π (t.say text) (s.say text') := by
  have disk : Disk.Like c π.naming.items (t.world.host.show text).disk (s.world.host.show text').disk := like.world.disk
  exact like.onWorld (.refl _) (like.world.host disk)

/-- Other managers that are alike, under numbers that are paired. -/
theorem setManager (like : Like c π t s) (paired : π.managers m n) {one other : Manager}
    (managers : Manager.Like c.process π.naming one other) : Like c π (t.setManager m one) (s.setManager n other) := by
  refine { like with manager := ?_, all := ?_, others := ?_ }
  · intro a b paired'
    obtain ⟨old, old', here, there, likeOld⟩ := like.manager a b paired'
    have inside := (List.getElem?_eq_some_iff.mp here).1
    have inside' := (List.getElem?_eq_some_iff.mp there).1
    by_cases same : m = a
    · have same' := (like.one m n a b paired paired').mp same
      subst same same'
      exact ⟨one, other, List.getElem?_set_self inside, List.getElem?_set_self inside', managers⟩
    · have same' : n ≠ b := fun eq => same ((like.one m n a b paired paired').mpr eq)
      exact ⟨old, old', (List.getElem?_set_ne same).trans here, (List.getElem?_set_ne same').trans there, likeOld⟩
  · intro a inside
    rw [System.setManager, List.length_set] at inside
    exact like.all a inside
  · intro b theirs
    obtain ⟨manager, before, there⟩ := like.others b theirs
    have other : n ≠ b := by
      rintro rfl
      exact like.apart m n paired theirs
    exact ⟨manager, before, (List.getElem?_set_ne other).trans there⟩

theorem setFlag (like : Like c π t s) (process : c.process = true) (on : Bool) :
    Like c π { t with processFlag := on } { s with processFlag := on } :=
  { like with
    flag := fun _ => rfl
    asideFlag := fun other => absurd process (Bool.eq_false_iff.mp other) }

/-! ## What can be told of a manager -/

theorem enabled_eq (like : Like c π t s) {one other : Manager} (managers : Manager.Like c.process π.naming one other) :
    other.enabled s.processFlag = one.enabled t.processFlag := by
  unfold Manager.enabled
  rw [← managers.switch]
  cases switch : one.switch with
  | own on => rfl
  | shared => exact (like.flag (managers.shared switch)).symm

theorem isOpen_eq (like : Like c π t s) (paired : π.managers m n) : s.isOpen n = t.isOpen m := by
  obtain ⟨one, other, here, there, managers⟩ := like.manager m n paired
  simp only [isOpen, here, there, Manager.isOpen, like.enabled_eq managers, ← managers.count, ← managers.retired]

theorem accepts_eq (like : Like c π t s) (paired : π.managers m n) (l : Level) : s.accepts n l = t.accepts m l := by
  simp only [accepts, like.isOpen_eq paired]

/-- A manager of the component is in use on both sides or on none. -/
theorem inUse_eq (like : Like c π t s) (paired : π.managers m n) : s.inUse n = t.inUse m := by
  have slot : (s.slot == some n) = (t.slot == some m) := by
    rw [Bool.eq_iff_iff, beq_iff_eq, beq_iff_eq]
    cases process : c.process with
    | true =>
      obtain ⟨one, other⟩ | ⟨_, _, one, other, seated⟩ := Option.Rel.both (like.slot process)
      · simp [one, other]
      · rw [one, other, Option.some_inj, Option.some_inj, like.one _ _ _ _ seated paired]
    | false =>
      have slots := like.asideSlot process
      rw [slots.1, slots.2]
      refine ⟨fun seated => (like.apart m n paired (like.scope.slot process n seated)).elim, nofun⟩
  have handles : s.handles.values.contains n = t.handles.values.contains m := by
    rw [Bool.eq_iff_iff, List.contains_iff_mem, List.contains_iff_mem, Table.mem_values_restrict c.own]
    have values : List.Forall₂ π.managers t.handles.values (s.handles.restrict c.own).values := by
      simp only [Table.values, List.forall₂_map_left_iff, List.forall₂_map_right_iff]
      exact like.handles.imp fun _ _ entry => entry.2
    rw [like.one.mem values paired, like.asideHandles]
    exact or_iff_left fun theirs => like.apart m n paired (like.scope.handles n theirs)
  have running : s.running.contains n = t.running.contains m := by
    rw [Bool.eq_iff_iff, List.contains_iff_mem, List.contains_iff_mem, like.one.mem like.running paired]
  simp only [inUse, slot, handles, running]

/-! ## Operations on a manager -/

theorem fanOut (like : Like c π t s) (paired : π.managers m n) {call : Call} (within : call.Within c) :
    Follows c π (t.fanOut m call) (s.fanOut n call) := by
  obtain ⟨one, other, here, there, managers⟩ := like.manager m n paired
  rw [fanOut_some here, fanOut_some there]
  obtain ⟨ν, grows, sinks, world⟩ := like.world.deliver within managers.sinks
  have like := like.onWorld grows world
  exact ⟨⟨ν, π.managers⟩, ⟨grows, fun _ _ paired => paired⟩,
    like.setManager paired ⟨sinks, managers.count, managers.switch, managers.retired, managers.shared⟩⟩

theorem dispatch (like : Like c π t s) (paired : π.managers m n) (r : Record) :
    Follows c π (t.dispatch m r) (s.dispatch n r) :=
  like.fanOut paired nofun

theorem flush (like : Like c π t s) (paired : π.managers m n) : Follows c π (t.flush m) (s.flush n) :=
  like.fanOut paired nofun

theorem setSwitch (like : Like c π t s) (paired : π.managers m n) (on : Bool) :
    Like c π (t.setSwitch m on) (s.setSwitch n on) := by
  obtain ⟨one, other, here, there, managers⟩ := like.manager m n paired
  simp only [System.setSwitch, here, there, ← managers.switch]
  cases switch : one.switch with
  | own was => exact like.setManager paired ⟨managers.sinks, managers.count, rfl, managers.retired, by rintro ⟨⟩⟩
  | shared => exact like.setFlag (managers.shared switch) on

theorem announce (like : Like c π t s) (paired : π.managers m n) (before after : Bool) :
    Follows c π (t.announce m before after) (s.announce n before after) := by
  unfold System.announce
  split
  · exact like.fanOut paired nofun
  · exact like.follows

theorem setEnabled (like : Like c π t s) (paired : π.managers m n) (on : Bool) :
    Follows c π (t.setEnabled m on) (s.setEnabled n on) := by
  obtain ⟨one, other, here, there, managers⟩ := like.manager m n paired
  simp only [System.setEnabled, here, there, ← managers.retired, like.enabled_eq managers]
  split
  · exact like.follows
  · exact (like.setSwitch paired on).announce paired _ on

theorem setSaveLevel (like : Like c π t s) (paired : π.managers m n) (l : Level) :
    Follows c π (t.setSaveLevel m l) (s.setSaveLevel n l) := by
  obtain ⟨one, other, here, there, managers⟩ := like.manager m n paired
  simp only [System.setSaveLevel, here, there, ← managers.retired, like.enabled_eq managers]
  split
  · exact like.follows
  · have switched := like.setSwitch paired l.activates
    split
    · have within : (Call.saveLevel l).Within c := by rintro _ ⟨⟩
      obtain ⟨π', grows, levelled⟩ := switched.fanOut paired within
      obtain ⟨π'', grows', announced⟩ := levelled.announce (grows.managers m n paired) (one.enabled t.processFlag) l.activates
      exact ⟨π'', grows.trans grows', announced⟩
    · exact switched.announce paired _ l.activates

theorem write (like : Like c π t s) (paired : π.managers m n) (r : Record) :
    Except.Rel Eq (Follows c π) (t.write m r) (s.write n r) := by
  simp only [System.write, like.accepts_eq paired]
  cases t.accepts m r.level with
  | error e => exact .error rfl
  | ok taken =>
    cases taken with
    | true => exact .ok (like.dispatch paired r)
    | false => exact .ok like.follows

theorem rename (like : Like c π t s) (paired : π.managers m n) {name : String} (own : c.path name) :
    Follows c π (t.rename m name) (s.rename n name) := by
  simp only [System.rename, like.isOpen_eq paired]
  split
  · refine like.fanOut paired ?_
    intro other same
    rwa [← Call.target.inj same]
  · exact like.follows

theorem discard (like : Like c π t s) {l l' : List Sink} (sinks : List.Forall₂ (Sink.Like π.naming) l l') :
    Like c π (t.discard l) (s.discard l') :=
  like.onWorld (.refl _) (like.world.discard sinks)

theorem register (like : Like c π t s) (paired : π.managers m n) {sink sink' : Sink}
    (sinks : Sink.Like π.naming sink sink') (append : Bool) :
    Outcome c π (fun _ => Eq) (t.register m sink append) (s.register n sink' append) := by
  obtain ⟨one, other, here, there, managers⟩ := like.manager m n paired
  simp only [System.register, here, there]
  by_cases retired : one.retired = true
  · rw [if_pos retired, if_pos (managers.retired ▸ retired)]
    exact (like.discard (.cons sinks .nil)).same false
  · have retired' : ¬ other.retired = true := by rwa [← managers.retired]
    rw [if_neg retired, if_neg retired']
    have joined : ∀ {l l'}, List.Forall₂ (Sink.Like π.naming) l l' →
        Manager.Like c.process π.naming { one with sinks := l ++ [sink], count := (l ++ [sink]).length }
          { other with sinks := l' ++ [sink'], count := (l' ++ [sink']).length } := by
      intro l l' lists
      have lists := List.rel_append lists (.cons sinks .nil)
      exact ⟨lists, lists.length_eq, managers.switch, managers.retired, managers.shared⟩
    cases append with
    | true =>
      simp only [if_true]
      exact (like.setManager paired (joined managers.sinks)).same true
    | false =>
      simp only [Bool.false_eq_true, if_false]
      exact ((like.discard managers.sinks).setManager paired (joined .nil)).same true

theorem retire (like : Like c π t s) (paired : π.managers m n) : Follows c π (t.retire m) (s.retire n) := by
  obtain ⟨one, other, here, there, managers⟩ := like.manager m n paired
  simp only [System.retire, here, there]
  have within : Call.flush.Within c := by rintro _ ⟨⟩
  obtain ⟨ν, grows, sinks, world⟩ := like.world.deliver within managers.sinks
  have like := (like.onWorld grows world).discard sinks
  exact ⟨⟨ν, π.managers⟩, ⟨grows, fun _ _ paired => paired⟩,
    like.setManager paired ⟨.nil, rfl, managers.switch, rfl, managers.shared⟩⟩

theorem release (like : Like c π t s) (paired : π.managers m n) : Like c π (t.release m) (s.release n) := by
  obtain ⟨one, other, here, there, managers⟩ := like.manager m n paired
  simp only [System.release, like.inUse_eq paired, here, there]
  split
  · exact like
  · exact (like.discard managers.sinks).setManager paired ⟨.nil, rfl, managers.switch, managers.retired, managers.shared⟩

/-- Managers that are made get numbers that are a pair from now on. -/
theorem addManager (like : Like c π t s) {one other : Manager} (managers : Manager.Like c.process π.naming one other) :
    Like c ⟨π.naming, fun m n => π.managers m n ∨ m = t.managers.length ∧ n = s.managers.length⟩
      { t with managers := t.managers ++ [one] } { s with managers := s.managers ++ [other] } := by
  have more : ∀ m n, π.managers m n → π.managers m n ∨ m = t.managers.length ∧ n = s.managers.length :=
    fun _ _ => .inl
  have known : ∀ {m n}, π.managers m n → m < t.managers.length ∧ n < s.managers.length := by
    intro m n paired
    obtain ⟨_, _, here, there, _⟩ := like.manager m n paired
    exact ⟨(List.getElem?_eq_some_iff.mp here).1, (List.getElem?_eq_some_iff.mp there).1⟩
  refine
    { like with
      manager := ?_, all := ?_, one := ?_, apart := ?_, others := ?_, handles := like.handles.mono more
      running := like.running.imp more, slot := fun process => Option.Rel.imp more (like.slot process) }
  · rintro m n (paired | ⟨rfl, rfl⟩)
    · obtain ⟨old, old', here, there, likeOld⟩ := like.manager m n paired
      have := known paired
      exact ⟨old, old', (List.getElem?_append_left this.1).trans here, (List.getElem?_append_left this.2).trans there,
        likeOld⟩
    · exact ⟨one, other, List.getElem?_concat_length, List.getElem?_concat_length, managers⟩
  · intro m inside
    by_cases last : m = t.managers.length
    · exact ⟨_, .inr ⟨last, rfl⟩⟩
    · have inside : m < (t.managers ++ [one]).length := inside
      rw [List.length_append, List.length_singleton] at inside
      obtain ⟨n, paired⟩ := like.all m (by omega)
      exact ⟨n, .inl paired⟩
  · rintro m n m' n' (paired | ⟨rfl, rfl⟩) (paired' | ⟨rfl, rfl⟩)
    · exact like.one m n m' n' paired paired'
    · have := known paired
      omega
    · have := known paired'
      omega
    · simp
  · rintro m n (paired | ⟨rfl, rfl⟩)
    · exact like.apart m n paired
    · intro theirs
      obtain ⟨manager, _, there⟩ := like.others _ theirs
      have := (List.getElem?_eq_some_iff.mp there).1
      omega
  · intro n theirs
    obtain ⟨manager, before, there⟩ := like.others n theirs
    exact ⟨manager, before, (List.getElem?_append_left (List.getElem?_eq_some_iff.mp there).1).trans there⟩

theorem newManager (like : Like c π t s) {l l' : List Sink} (sinks : List.Forall₂ (Sink.Like π.naming) l l') :
    Outcome c π Pairing.managers (t.newManager l) (s.newManager l') := by
  have managers : Manager.Like c.process π.naming (.ofSinks l (.own true)) (.ofSinks l' (.own true)) :=
    ⟨sinks, sinks.length_eq, rfl, rfl, nofun⟩
  exact ⟨⟨π.naming, fun m n => π.managers m n ∨ m = t.managers.length ∧ n = s.managers.length⟩,
    ⟨.refl _, fun _ _ => .inl⟩, .inr ⟨rfl, rfl⟩, like.addManager managers⟩

/-! ## Names -/

variable {name : String}

theorem handle (like : Like c π t s) (own : c.own name = true) :
    Option.Rel π.managers (t.handles.get? name) (s.handles.get? name) := by
  rw [← s.handles.get?_restrict own]
  exact like.handles.get? name

theorem heldSink (like : Like c π t s) (own : c.own name = true) :
    Option.Rel (Sink.Like π.naming) (t.held.get? name) (s.held.get? name) := by
  rw [← s.held.get?_restrict own]
  exact like.held.get? name

theorem putHandle (like : Like c π t s) (own : c.own name = true) (paired : π.managers m n) :
    Like c π { t with handles := t.handles.put name m } { s with handles := s.handles.put name n } :=
  { like with
    handles := by
      rw [← s.handles.put_restrict own]
      exact like.handles.put name paired
    asideHandles := (s.handles.restrict_put (by simp [own]) n).trans like.asideHandles }

theorem putHeld (like : Like c π t s) (own : c.own name = true) {sink sink' : Sink}
    (sinks : Sink.Like π.naming sink sink') :
    Like c π { t with held := t.held.put name sink } { s with held := s.held.put name sink' } :=
  { like with
    held := by
      rw [← s.held.put_restrict own]
      exact like.held.put name sinks
    asideHeld := (s.held.restrict_put (by simp [own]) sink').trans like.asideHeld }

theorem putLog (like : Like c π t s) (own : c.own name = true) {i j : Nat} (paired : π.naming.sinks i j) :
    Like c π { t with logs := t.logs.put name i } { s with logs := s.logs.put name j } :=
  { like with
    logs := by
      rw [← s.logs.put_restrict own]
      exact like.logs.put name paired
    asideLogs := (s.logs.restrict_put (by simp [own]) j).trans like.asideLogs }

theorem eraseHandle (like : Like c π t s) (own : c.own name = true) :
    Like c π { t with handles := t.handles.erase name } { s with handles := s.handles.erase name } :=
  { like with
    handles := by
      rw [← s.handles.erase_restrict c.own name]
      exact like.handles.erase name
    asideHandles := (s.handles.restrict_erase (by simp [own])).trans like.asideHandles }

theorem eraseHeld (like : Like c π t s) (own : c.own name = true) :
    Like c π { t with held := t.held.erase name } { s with held := s.held.erase name } :=
  { like with
    held := by
      rw [← s.held.erase_restrict c.own name]
      exact like.held.erase name
    asideHeld := (s.held.restrict_erase (by simp [own])).trans like.asideHeld }

theorem keepHandle (like : Like c π t s) (own : c.own name = true) (paired : π.managers m n) :
    Like c π (t.keepHandle name m) (s.keepHandle name n) := by
  have put := like.putHandle own paired
  obtain ⟨one, other⟩ | ⟨_, _, one, other, old⟩ := Option.Rel.both (like.handle own)
  · simp only [System.keepHandle, one, other]
    exact put
  · simp only [System.keepHandle, one, other]
    exact put.release old

theorem dropHandle (like : Like c π t s) (own : c.own name = true) :
    Outcome c π (fun _ => Eq) (t.dropHandle name) (s.dropHandle name) := by
  have erased := like.eraseHandle own
  obtain ⟨one, other⟩ | ⟨_, _, one, other, old⟩ := Option.Rel.both (like.handle own)
  · simp only [System.dropHandle, one, other]
    exact like.same false
  · simp only [System.dropHandle, one, other]
    exact (erased.release old).same true

theorem holdSink (like : Like c π t s) (own : c.own name = true) {sink sink' : Sink}
    (sinks : Sink.Like π.naming sink sink') : Like c π (t.holdSink name sink) (s.holdSink name sink') := by
  have put := like.putHeld own sinks
  obtain ⟨one, other⟩ | ⟨_, _, one, other, old⟩ := Option.Rel.both (like.heldSink own)
  · simp only [System.holdSink, one, other]
    exact put
  · simp only [System.holdSink, one, other]
    exact put.discard (.cons old .nil)

theorem dropSink (like : Like c π t s) (own : c.own name = true) :
    Outcome c π (fun _ => Eq) (t.dropSink name) (s.dropSink name) := by
  have erased := like.eraseHeld own
  obtain ⟨one, other⟩ | ⟨_, _, one, other, old⟩ := Option.Rel.both (like.heldSink own)
  · simp only [System.dropSink, one, other]
    exact like.same false
  · simp only [System.dropSink, one, other]
    exact (erased.discard (.cons old .nil)).same true

theorem callSink (like : Like c π t s) (own : c.own name = true) {call : Call} (within : call.Within c) :
    Option.Rel (Follows c π) (t.callSink name call) (s.callSink name call) := by
  obtain ⟨one, other⟩ | ⟨_, _, one, other, sinks⟩ := Option.Rel.both (like.heldSink own)
  · simp only [System.callSink, one, other]
    exact .none
  · obtain ⟨ν, grows, called, world⟩ := like.world.receive sinks within
    have follows : Follows c π _ _ :=
      ⟨⟨ν, π.managers⟩, ⟨grows, fun _ _ paired => paired⟩, (like.onWorld grows world).putHeld own called⟩
    simp only [System.callSink, one, other]
    exact .some follows

/-! ## The process -/

variable (process : c.process = true)

include process

theorem setSlot (like : Like c π t s) {one other : Option Nat} (slots : Option.Rel π.managers one other) :
    Like c π { t with slot := one } { s with slot := other } :=
  { like with
    slot := fun _ => slots
    asideSlot := fun other => absurd process (Bool.eq_false_iff.mp other) }

theorem withdraw (like : Like c π t s) : Follows c π t.withdraw s.withdraw := by
  have vacant := like.setSlot process .none
  obtain ⟨one, other⟩ | ⟨_, _, one, other, paired⟩ := Option.Rel.both (like.slot process)
  · simp only [System.withdraw, one, other]
    exact like.follows
  · simp only [System.withdraw, one, other]
    exact vacant.retire paired

theorem install (like : Like c π t s) {sink sink' : Sink} (sinks : Sink.Like π.naming sink sink') :
    Outcome c π Pairing.managers (t.install sink) (s.install sink') := by
  have managers : Manager.Like c.process π.naming (.ofSinks [sink] .shared) (.ofSinks [sink'] .shared) :=
    ⟨.cons sinks .nil, rfl, rfl, rfl, fun _ => process⟩
  have seated := (like.addManager managers).setSlot process (.some (Or.inr ⟨rfl, rfl⟩))
  exact ⟨⟨π.naming, fun m n => π.managers m n ∨ m = t.managers.length ∧ n = s.managers.length⟩,
    ⟨.refl _, fun _ _ => .inl⟩, .inr ⟨rfl, rfl⟩, seated.setFlag process true⟩

theorem registerInstance (like : Like c π t s) {sink sink' : Sink} (sinks : Sink.Like π.naming sink sink')
    (append : Bool) : Outcome c π (fun _ => Eq) (t.registerInstance sink append) (s.registerInstance sink' append) := by
  obtain ⟨one, other⟩ | ⟨_, _, one, other, paired⟩ := Option.Rel.both (like.slot process)
  · simp only [System.registerInstance, one, other]
    exact ((like.discard (.cons sinks .nil)).say noInstance noInstance).same false
  · simp only [System.registerInstance, one, other]
    exact like.register paired sinks append

theorem setInstanceEnabled (like : Like c π t s) (on : Bool) :
    Follows c π (t.setInstanceEnabled on) (s.setInstanceEnabled on) := by
  have set := like.setFlag process on
  obtain ⟨one, other⟩ | ⟨_, _, one, other, paired⟩ := Option.Rel.both (like.slot process)
  · simpa only [System.setInstanceEnabled, one, other] using set.follows
  · simp only [System.setInstanceEnabled, one, other]
    exact like.setEnabled paired on

theorem setInstanceSaveLevel (like : Like c π t s) (l : Level) :
    Follows c π (t.setInstanceSaveLevel l) (s.setInstanceSaveLevel l) := by
  have set := like.setFlag process l.activates
  obtain ⟨one, other⟩ | ⟨_, _, one, other, paired⟩ := Option.Rel.both (like.slot process)
  · simpa only [System.setInstanceSaveLevel, one, other] using set.follows
  · simp only [System.setInstanceSaveLevel, one, other]
    exact like.setSaveLevel paired l

theorem instanceAccepts (like : Like c π t s) (l : Level) :
    Except.Rel Eq (Option.Rel π.managers) (t.instanceAccepts l) (s.instanceAccepts l) := by
  simp only [System.instanceAccepts, ← like.flag process]
  split
  · obtain ⟨one, other⟩ | ⟨m, n, one, other, paired⟩ := Option.Rel.both (like.slot process)
    · simp only [one, other]
      exact .ok .none
    · simp only [one, other, like.accepts_eq paired]
      cases t.accepts m l with
      | error e => exact .error rfl
      | ok taken =>
        cases taken with
        | true => exact .ok (.some paired)
        | false => exact .ok .none
  · exact .ok .none

theorem writeInstance (like : Like c π t s) (r : Record) :
    Except.Rel Eq (Follows c π) (t.writeInstance r) (s.writeInstance r) := by
  simp only [System.writeInstance, ← like.flag process]
  split
  · obtain ⟨one, other⟩ | ⟨_, _, one, other, paired⟩ := Option.Rel.both (like.slot process)
    · simp only [one, other]
      exact .ok like.follows
    · simp only [one, other]
      exact like.write paired r
  · exact .ok like.follows

theorem renameInstance (like : Like c π t s) {name : String} (own : c.path name) :
    Follows c π (t.renameInstance name) (s.renameInstance name) := by
  obtain ⟨one, other⟩ | ⟨_, _, one, other, paired⟩ := Option.Rel.both (like.slot process)
  · simp only [System.renameInstance, one, other]
    exact like.follows
  · simp only [System.renameInstance, one, other]
    exact like.rename paired own

theorem flushInstance (like : Like c π t s) : Follows c π t.flushInstance s.flushInstance := by
  obtain ⟨one, other⟩ | ⟨_, _, one, other, paired⟩ := Option.Rel.both (like.slot process)
  · simp only [System.flushInstance, one, other]
    exact like.follows
  · simp only [System.flushInstance, one, other]
    exact like.flush paired

end Like
end System

end LogFanout
