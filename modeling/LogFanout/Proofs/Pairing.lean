import LogFanout.Proofs.Frame
import LogFanout.Proofs.Sites
import Mathlib.Data.List.Forall2
import Mathlib.Data.Option.Basic

/- Two worlds side by side.

   One world is that of a component on its own, the other one it shares with others. The same things have other numbers
   there, because numbers are given in order and the others get some of them. A pairing says which numbers stand for
   which, and it grows as things are made. Sinks, handles, calls and replies are alike if they are the same up to the
   pairing, and two worlds are alike (`World.Like`) if what is paired is in the same state and what belongs to others is
   as they left it. Whatever a sink does in two worlds that are alike, they are alike after it (`World.Like.act`).

   The files of the component are at the sites of its targets. Sites that others have targets at are left out of the
   comparison, since the others may have written there. A sink that must have its file is refused in both worlds or in
   none, but perhaps for another reason if a target of others is in the way (`Disk.Hindered`); apart from the reason that
   is told then, replies that are alike are the same. -/
namespace LogFanout

open Text (Bytes)

/-- A component: the targets that are its own and those of others, the names that are its own, whether it is the process;
    what the others have by now, with the system as they left it; and the targets at which it asks, in the step at hand,
    for sinks that must have their files. -/
structure Scope where
  base : Disk
  path : String → Prop
  demands : String → Prop
  others : String → Prop
  own : String → Bool
  process : Bool
  managers : Nat → Prop
  sinks : Nat → Prop
  before : System

/-- One of the others may make a file where a folder has to be found on the way to a target that is asked for. -/
def Disk.Hindered (base : Disk) (demands others : String → Prop) : Prop :=
  ∃ target other, demands target ∧ others other ∧ base.Blocks other target

abbrev Scope.Hindered (c : Scope) : Prop := c.base.Hindered c.demands c.others

/-- Which sinks of one world stand for which of another, and which things on its disk. -/
structure Naming where
  sinks : Nat → Nat → Prop
  items : Nat → Nat → Prop

structure Naming.Grows (ν ν' : Naming) : Prop where
  sinks : ∀ i j, ν.sinks i j → ν'.sinks i j
  items : ∀ i j, ν.items i j → ν'.items i j

theorem Naming.Grows.refl (ν : Naming) : ν.Grows ν := ⟨fun _ _ h => h, fun _ _ h => h⟩

theorem Naming.Grows.trans {ν ν' ν'' : Naming} (first : ν.Grows ν') (second : ν'.Grows ν'') : ν.Grows ν'' :=
  ⟨fun i j h => second.sinks i j (first.sinks i j h), fun i j h => second.items i j (first.items i j h)⟩

/-! ## What is alike -/

/-- Replies are alike if they are the same. Only the reason may differ for which the disk refuses a sink that must have
    its file, and only if the component is hindered: a file may stand by then where a folder is missing. -/
def Reply.Like (hindered : Prop) (r r' : Reply) : Prop :=
  r = r' ∨ hindered ∧ ∃ e e', r = .failed (.disk e) ∧ r' = .failed (.disk e')

theorem Reply.Like.refl (hindered : Prop) (r : Reply) : Reply.Like hindered r r := .inl rfl

/-- Replies that are no refusals of the disk are the same if they are alike. -/
theorem Reply.Like.eq {hindered : Prop} {r r' : Reply} (like : Reply.Like hindered r r')
    (taken : ∀ e, r ≠ .failed (.disk e)) : r = r' := by
  obtain same | ⟨_, e, _, refused, _⟩ := like
  · exact same
  · exact absurd refused (taken e)

inductive Event.Like (hindered : Prop) (sinks : Nat → Nat → Prop) : Event → Event → Prop where
  | built {i j : Nat} (paired : sinks i j) : Like hindered sinks (.built i) (.built j)
  | called {i j : Nat} (paired : sinks i j) (call : Call) : Like hindered sinks (.called i call) (.called j call)
  | dropped {i j : Nat} (paired : sinks i j) : Like hindered sinks (.dropped i) (.dropped j)
  | nested {r r' : Reply} (like : Reply.Like hindered r r') : Like hindered sinks (.nested r) (.nested r')

structure Disk.Handle.Like (items : Nat → Nat → Prop) (h h' : Disk.Handle) : Prop where
  item : items h.item h'.item
  mode : h.mode = h'.mode

structure FileSink.Like (items : Nat → Nat → Prop) (f f' : FileSink) : Prop where
  target : f.target = f'.target
  console : f.console = f'.console
  saveLevel : f.saveLevel = f'.saveLevel
  handle : Option.Rel (Disk.Handle.Like items) f.handle f'.handle

inductive Sink.Body.Like (items : Nat → Nat → Prop) : Sink.Body → Sink.Body → Prop where
  | probe : Like items .probe .probe
  | memory (m : MemorySink) : Like items (.memory m) (.memory m)
  | file {f f' : FileSink} (like : FileSink.Like items f f') : Like items (.file f) (.file f')

structure Sink.Like (ν : Naming) (sink sink' : Sink) : Prop where
  id : ν.sinks sink.id sink'.id
  body : Sink.Body.Like ν.items sink.body sink'.body

/-- The disk of a component on its own, and the one it shares. They have the same bytes at every site but those of others;
    things that are paired are at one site, or the same device; and what others have on the shared disk is as before. -/
structure Disk.Like (c : Scope) (items : Nat → Nat → Prop) (d e : Disk) : Prop where
  alone : Disk.Grew c.base d
  shared : Disk.Grew c.base e
  bytes : ∀ x, x.In c.base → (∀ other, c.others other → c.base.site? other ≠ some x) → d.bytes? x = e.bytes? x
  items : ∀ i j, items i j → (i = j ∧ c.base.IsDevice i) ∨
    ∃ target x, c.path target ∧ c.base.site? target = some x ∧ d.item? x = some i ∧ e.item? x = some j
  kept : ∀ x n, c.before.disk.item? x = some n → e.item? x = some n
  aside : ∀ x, x.In c.base → (∀ target, c.path target → c.base.site? target ≠ some x) →
    e.bytes? x = c.before.disk.bytes? x

/-- The world of a component on its own, and the one it shares. -/
structure World.Like (c : Scope) (ν : Naming) (w w' : World) : Prop where
  journal : List.Forall₂ (Event.Like c.Hindered ν.sinks) w.journal w'.journal
  label : ∀ i j, ν.sinks i j → ∃ label, w.labels[i]? = some label ∧ w'.labels[j]? = some label
  buffer : ∀ i j, ν.sinks i j → w.buffer i = w'.buffer j
  all : ∀ i, i < w.labels.length → ∃ j, ν.sinks i j
  one : ∀ i j i' j', ν.sinks i j → ν.sinks i' j' → (i = i' ↔ j = j')
  apart : ∀ i j, ν.sinks i j → ¬ c.sinks j
  unborn : ∀ i, w.labels.length ≤ i → w.buffer i = []
  unborn' : ∀ j, w'.labels.length ≤ j → w'.buffer j = []
  aside : ∀ j, c.sinks j → w'.buffer j = c.before.world.buffer j ∧
    ∃ label, c.before.world.labels[j]? = some label ∧ w'.labels[j]? = some label
  disk : Disk.Like c ν.items w.host.disk w'.host.disk
  stamp : w.stamp = w'.stamp

/-- Outcomes that are alike in two worlds, under a naming that has grown. -/
def World.Outcome {α β : Type} (c : Scope) (ν : Naming) (R : Naming → α → β → Prop) (x : α × World) (y : β × World) :
    Prop :=
  ∃ ν', ν.Grows ν' ∧ R ν' x.1 y.1 ∧ World.Like c ν' x.2 y.2

/-! ## What is alike stays alike under a pairing that says more -/

section Mono

variable {sinks sinks' items items' : Nat → Nat → Prop} {ν ν' : Naming}

theorem Event.Like.mono {hindered hindered' : Prop} (weaker : hindered → hindered')
    (more : ∀ i j, sinks i j → sinks' i j) {e e' : Event} (like : Event.Like hindered sinks e e') :
    Event.Like hindered' sinks' e e' := by
  cases like with
  | built paired => exact .built (more _ _ paired)
  | called paired call => exact .called (more _ _ paired) call
  | dropped paired => exact .dropped (more _ _ paired)
  | nested like => exact .nested (like.imp_right fun refused => ⟨weaker refused.1, refused.2⟩)

theorem Disk.Handle.Like.mono (more : ∀ i j, items i j → items' i j) {h h' : Disk.Handle}
    (like : Disk.Handle.Like items h h') : Disk.Handle.Like items' h h' :=
  ⟨more _ _ like.item, like.mode⟩

theorem Option.Rel.imp {α β : Type} {r r' : α → β → Prop} (more : ∀ a b, r a b → r' a b) {x : Option α} {y : Option β}
    (like : Option.Rel r x y) : Option.Rel r' x y := by
  cases like with
  | none => exact .none
  | some like => exact .some (more _ _ like)

theorem Option.Rel.both {α β : Type} {r : α → β → Prop} {x : Option α} {y : Option β} (like : Option.Rel r x y) :
    x = none ∧ y = none ∨ ∃ a b, x = some a ∧ y = some b ∧ r a b := by
  cases like with
  | none => exact .inl ⟨rfl, rfl⟩
  | some like => exact .inr ⟨_, _, rfl, rfl, like⟩

theorem Option.Rel.isSome_eq {α β : Type} {r : α → β → Prop} {x : Option α} {y : Option β} (like : Option.Rel r x y) :
    y.isSome = x.isSome := by
  obtain ⟨rfl, rfl⟩ | ⟨_, _, rfl, rfl, _⟩ := Option.Rel.both like
  · rfl
  · rfl

theorem FileSink.Like.mono (more : ∀ i j, items i j → items' i j) {f f' : FileSink} (like : FileSink.Like items f f') :
    FileSink.Like items' f f' :=
  { like with handle := Option.Rel.imp (fun _ _ handle => handle.mono more) like.handle }

theorem Sink.Body.Like.mono (more : ∀ i j, items i j → items' i j) {b b' : Sink.Body}
    (like : Sink.Body.Like items b b') : Sink.Body.Like items' b b' := by
  cases like with
  | probe => exact .probe
  | memory m => exact .memory m
  | file like => exact .file (like.mono more)

theorem Sink.Like.mono (grows : ν.Grows ν') {sink sink' : Sink} (like : Sink.Like ν sink sink') :
    Sink.Like ν' sink sink' :=
  ⟨grows.sinks _ _ like.id, like.body.mono grows.items⟩

theorem Sink.Like.mono_list (grows : ν.Grows ν') {l l' : List Sink} (like : List.Forall₂ (Sink.Like ν) l l') :
    List.Forall₂ (Sink.Like ν') l l' :=
  like.imp fun _ _ one => one.mono grows

end Mono

/-! ## Disks -/

namespace Disk.Like

variable {c : Scope} {items items' : Nat → Nat → Prop} {d e d' e' : Disk}

/-- Unless one of the others may stand in the way, the two disks agree on the files on the way to a target. -/
theorem agree (like : Disk.Like c items d e) {target : String}
    (free : ∀ other, c.others other → ¬ c.base.Blocks other target) : c.base.Agree d e (c.base.wayTo target) := by
  intro g y inside on
  have same := like.bytes _ inside fun other theirs site => free other theirs ⟨g, y, site, on⟩
  rw [← like.alone.bytes?_isSome inside, ← like.shared.bytes?_isSome inside, same]

/-- The same has been written on both disks at the site of a target of the component. -/
theorem update (like : Disk.Like c items d e) {target : String} (own : c.path target) {x : Site}
    (site : c.base.site? target = some x) {bytes bytes' : Bytes} (here : Updated c.base d d' x bytes)
    (there : Updated c.base e e' x bytes')
    (same : (∀ other, c.others other → c.base.site? other ≠ some x) → bytes = bytes') : Disk.Like c items d' e' where
  alone := here.grew
  shared := there.grew
  bytes y inside apart := by
    by_cases at' : y = x
    · subst at'
      rw [here.here, there.here, same apart]
    · rw [(here.aside y inside at').2, (there.aside y inside at').2]
      exact like.bytes y inside apart
  items i j paired := by
    obtain device | ⟨target', y, own', site', item, item'⟩ := like.items i j paired
    · exact .inl device
    · exact .inr ⟨target', y, own', site', here.kept y i item, there.kept y j item'⟩
  kept y n item := there.kept y n (like.kept y n item)
  aside y inside apart := by
    have other : y ≠ x := by
      rintro rfl
      exact apart target own site
    rw [(there.aside y inside other).2]
    exact like.aside y inside apart

theorem pair (like : Disk.Like c items d e) {i j : Nat} (paired : (i = j ∧ c.base.IsDevice i) ∨
    ∃ target x, c.path target ∧ c.base.site? target = some x ∧ d.item? x = some i ∧ e.item? x = some j) :
    Disk.Like c (fun a b => items a b ∨ a = i ∧ b = j) d e :=
  { like with
    items := by
      rintro a b (old | ⟨rfl, rfl⟩)
      · exact like.items a b old
      · exact paired }

theorem openTarget (like : Disk.Like c items d e) {target : String} (own : c.path target) (append : Bool) :
    (∃ one other, FileSink.openTarget d target append = .error one ∧ FileSink.openTarget e target append = .error other ∧
        ((∀ other, c.others other → ¬ c.base.Blocks other target) → one = other)) ∨
      ∃ items' h h' d' e', FileSink.openTarget d target append = .ok (h, d') ∧
        FileSink.openTarget e target append = .ok (h', e') ∧ (∀ i j, items i j → items' i j) ∧
        Option.Rel (Disk.Handle.Like items') h h' ∧ Disk.Like c items' d' e' := by
  by_cases empty : target = ""
  · refine .inr ⟨items, none, none, d, e, ?_, ?_, fun _ _ paired => paired, .none, like⟩
    · rw [FileSink.openTarget, if_pos empty]
    · rw [FileSink.openTarget, if_pos empty]
  · simp only [FileSink.openTarget, if_neg empty]
    cases site : c.base.site? target with
    | some x =>
      obtain ⟨i, d', opened, item, here⟩ := like.alone.openFile_site site append
      obtain ⟨j, e', opened', item', there⟩ := like.shared.openFile_site site append
      refine .inr ⟨fun a b => items a b ∨ a = i ∧ b = j, some ⟨i, openMode append⟩, some ⟨j, openMode append⟩, d', e',
        by rw [opened]; rfl, by rw [opened']; rfl, fun _ _ => .inl, .some ⟨.inr ⟨rfl, rfl⟩, rfl⟩, ?_⟩
      refine (like.update own site here there fun apart => ?_).pair (.inr ⟨target, x, own, site, item, item'⟩)
      rw [like.bytes x (site_in site) apart]
    | none =>
      obtain ⟨n, device, opens⟩ | refused := Grew.openFile_without_site like.alone.sound site append
      · refine .inr ⟨fun a b => items a b ∨ a = n ∧ b = n, some ⟨n, openMode append⟩, some ⟨n, openMode append⟩, d, e,
          by rw [opens d like.alone]; rfl, by rw [opens e like.shared]; rfl, fun _ _ => .inl,
          .some ⟨.inr ⟨rfl, rfl⟩, rfl⟩, like.pair (.inl ⟨rfl, device⟩)⟩
      · obtain ⟨one, other, here, there, same⟩ := refused d e like.alone like.shared
        exact .inl ⟨one, other, by rw [here]; rfl, by rw [there]; rfl, fun free => same (like.agree free)⟩

theorem write (like : Disk.Like c items d e) {h h' : Handle} (handles : Handle.Like items h h') (bytes : Bytes) :
    Handle.Like items (d.write h bytes).1 (e.write h' bytes).1 ∧
      Disk.Like c items (d.write h bytes).2 (e.write h' bytes).2 := by
  obtain ⟨i, mode⟩ := h
  obtain ⟨j, mode'⟩ := h'
  obtain ⟨paired, rfl : mode = mode'⟩ := handles
  obtain ⟨rfl, device⟩ | ⟨target, x, own, site, item, item'⟩ := like.items i j paired
  · rw [like.alone.write_device device, like.shared.write_device device]
    exact ⟨⟨paired, rfl⟩, like⟩
  · obtain ⟨old, held, handle, here⟩ := like.alone.write_site (site_in site) item mode bytes
    obtain ⟨old', held', handle', there⟩ := like.shared.write_site (site_in site) item' mode bytes
    rw [handle, handle']
    refine ⟨⟨paired, rfl⟩, like.update own site here there fun apart => ?_⟩
    have same := like.bytes x (site_in site) apart
    rw [held, held'] at same
    rw [Option.some.inj same]

end Disk.Like

/-! ## File sinks -/

def Call.Within (c : Scope) (call : Call) : Prop := ∀ name, call = .target name → c.path name

/-- A sink is asked for with a target of the component, if it is to have one. -/
structure Sink.Spec.Within (c : Scope) (spec : Sink.Spec) : Prop where
  path : ∀ o, spec = .file o ∨ spec = .openFile o → c.path o.target
  demands : ∀ o, spec = .openFile o → c.demands o.target

/-- Both have failed, or both have given something. -/
inductive Except.Rel {ε α β : Type} (E : ε → ε → Prop) (R : α → β → Prop) : Except ε α → Except ε β → Prop where
  | error {e e' : ε} (like : E e e') : Rel E R (.error e) (.error e')
  | ok {a : α} {b : β} (like : R a b) : Rel E R (.ok a) (.ok b)

/-- Two file sinks are alike, and the disks they are on. -/
def FileSink.On (c : Scope) (items : Nat → Nat → Prop) (x y : FileSink × Host) : Prop :=
  FileSink.Like items x.1 y.1 ∧ Disk.Like c items x.2.disk y.2.disk

namespace FileSink

variable {c : Scope} {items : Nat → Nat → Prop} {f f' : FileSink} {h h' : Host}

theorem Like.writeBytes {d e : Disk} (like : FileSink.Like items f f') (disk : Disk.Like c items d e) (bytes : Bytes) :
    FileSink.Like items (f.writeBytes bytes d).1 (f'.writeBytes bytes e).1 ∧
      Disk.Like c items (f.writeBytes bytes d).2 (f'.writeBytes bytes e).2 := by
  obtain ⟨target, console, level, handle⟩ := f
  obtain ⟨target', console', level', handle'⟩ := f'
  obtain ⟨rfl, rfl, rfl, handles⟩ := like
  cases handles with
  | none => exact ⟨⟨rfl, rfl, rfl, .none⟩, disk⟩
  | some handles =>
    obtain ⟨written, disk⟩ := disk.write handles bytes
    exact ⟨⟨rfl, rfl, rfl, .some written⟩, disk⟩

theorem On.write (on : On c items (f, h) (f', h')) (stamp : String) (r : Record) :
    On c items (f.write stamp r h) (f'.write stamp r h') := by
  obtain ⟨like, disk⟩ := on
  have level : f'.saveLevel = f.saveLevel := like.saveLevel.symm
  cases kept : f.saveLevel.keeps r.level with
  | false =>
    simp only [FileSink.write, level, kept]
    exact ⟨like, disk⟩
  | true =>
    obtain ⟨written, disk⟩ := like.writeBytes disk (Text.utf8 (r.line stamp))
    simp only [FileSink.write, level, kept, if_true]
    refine ⟨written, ?_⟩
    rw [written.console]
    split <;> exact disk

theorem On.retarget (on : On c items (f, h) (f', h')) {name : String} (own : c.path name) :
    ∃ items', (∀ i j, items i j → items' i j) ∧ On c items' (f.retarget name h) (f'.retarget name h') := by
  obtain ⟨like, disk⟩ := on
  have target : f'.target = f.target := like.target.symm
  have has : f'.handle.isSome = f.handle.isSome := Option.Rel.isSome_eq like.handle
  by_cases same : name = f.target ∧ f.handle.isSome
  · simp only [FileSink.retarget, target, has, if_pos same]
    exact ⟨items, fun _ _ paired => paired, like, disk⟩
  · simp only [FileSink.retarget, target, has, if_neg same]
    obtain ⟨one, other, here, there, _⟩ | ⟨items', k, k', d', e', here, there, more, handles, disk⟩ :=
      disk.openTarget own true
    · simp only [here, there]
      exact ⟨items, fun _ _ paired => paired, ⟨rfl, like.console, like.saveLevel, .none⟩, disk⟩
    · simp only [here, there]
      exact ⟨items', more, ⟨rfl, like.console, like.saveLevel, handles⟩, disk⟩

theorem On.receive (on : On c items (f, h) (f', h')) {stamp stamp' : String} (same : stamp = stamp') {call : Call}
    (within : call.Within c) :
    ∃ items', (∀ i j, items i j → items' i j) ∧ On c items' (f.receive stamp call h) (f'.receive stamp' call h') := by
  subst same
  cases call with
  | write r => exact ⟨items, fun _ _ paired => paired, on.write stamp r⟩
  | saveLevel l => exact ⟨items, fun _ _ paired => paired, ⟨on.1.target, on.1.console, rfl, on.1.handle⟩, on.2⟩
  | target name => exact on.retarget (within name rfl)
  | flush => exact ⟨items, fun _ _ paired => paired, on⟩

theorem On.make? (disk : Disk.Like c items h.disk h'.disk) (o : Options) (own : c.path o.target) :
    ∃ items', (∀ i j, items i j → items' i j) ∧
      Except.Rel (fun e e' => (∀ other, c.others other → ¬ c.base.Blocks other o.target) → e = e') (On c items')
        (FileSink.make? o h) (FileSink.make? o h') := by
  obtain ⟨one, other, here, there, same⟩ | ⟨items', k, k', d', e', here, there, more, handles, disk⟩ :=
    disk.openTarget own o.append
  · simp only [FileSink.make?, here, there]
    exact ⟨items, fun _ _ paired => paired, .error same⟩
  · simp only [FileSink.make?, here, there]
    exact ⟨items', more, .ok ⟨⟨rfl, rfl, rfl, handles⟩, disk⟩⟩

theorem On.make (disk : Disk.Like c items h.disk h'.disk) (o : Options) (own : c.path o.target) :
    ∃ items', (∀ i j, items i j → items' i j) ∧ On c items' (FileSink.make o h) (FileSink.make o h') := by
  obtain ⟨one, other, here, there, _⟩ | ⟨items', k, k', d', e', here, there, more, handles, disk⟩ :=
    disk.openTarget own o.append
  · simp only [FileSink.make, here, there]
    exact ⟨items, fun _ _ paired => paired, ⟨rfl, rfl, rfl, .none⟩, disk⟩
  · simp only [FileSink.make, here, there]
    exact ⟨items', more, ⟨rfl, rfl, rfl, handles⟩, disk⟩

end FileSink

/-! ## Worlds -/

namespace World

theorem buffer_put (w : World) (i : Nat) (lines : List String) (k : Nat) :
    { w with buffers := w.buffers.put i lines }.buffer k = if i = k then lines else w.buffer k := by
  simp only [buffer, Table.get?_put]
  split <;> rfl

namespace Like

variable {c : Scope} {ν : Naming} {w w' : World}

theorem born (like : World.Like c ν w w') {i j : Nat} (paired : ν.sinks i j) :
    i < w.labels.length ∧ j < w'.labels.length := by
  obtain ⟨label, here, there⟩ := like.label i j paired
  exact ⟨(List.getElem?_eq_some_iff.mp here).1, (List.getElem?_eq_some_iff.mp there).1⟩

theorem host (like : World.Like c ν w w') {items : Nat → Nat → Prop} {h h' : Host}
    (disk : Disk.Like c items h.disk h'.disk) :
    World.Like c ⟨ν.sinks, items⟩ { w with host := h } { w' with host := h' } :=
  { like with disk := disk }

theorem put (like : World.Like c ν w w') {i j : Nat} (paired : ν.sinks i j) (lines : List String) :
    World.Like c ν { w with buffers := w.buffers.put i lines } { w' with buffers := w'.buffers.put j lines } := by
  have born := like.born paired
  refine { like with buffer := ?_, unborn := ?_, unborn' := ?_, aside := ?_ }
  · intro a b other
    rw [buffer_put, buffer_put, like.buffer a b other]
    simp only [like.one i j a b paired other]
  · intro a late
    have late : w.labels.length ≤ a := late
    rw [buffer_put, if_neg (by omega)]
    exact like.unborn a late
  · intro b late
    have late : w'.labels.length ≤ b := late
    rw [buffer_put, if_neg (by omega)]
    exact like.unborn' b late
  · intro b theirs
    have other : j ≠ b := by
      rintro rfl
      exact like.apart i j paired theirs
    rw [buffer_put, if_neg other]
    exact like.aside b theirs

theorem clearBuffer (like : World.Like c ν w w') {i j : Nat} (paired : ν.sinks i j) :
    World.Like c ν (w.clearBuffer i) (w'.clearBuffer j) :=
  like.put paired []

theorem record (like : World.Like c ν w w') {e e' : Event} (entries : Event.Like c.Hindered ν.sinks e e') :
    World.Like c ν (w.record e) (w'.record e') :=
  { like with journal := List.rel_append like.journal (.cons entries .nil) }

theorem discard (like : World.Like c ν w w') {l l' : List Sink} (sinks : List.Forall₂ (Sink.Like ν) l l') :
    World.Like c ν (w.discard l) (w'.discard l') := by
  refine { like with journal := List.rel_append like.journal ?_ }
  rw [List.forall₂_map_left_iff, List.forall₂_map_right_iff]
  exact sinks.imp fun _ _ one => .dropped one.id

/-- What a sink does when it is called. -/
theorem act (like : World.Like c ν w w') {sink sink' : Sink} (sinks : Sink.Like ν sink sink') {call : Call}
    (within : call.Within c) : Outcome c ν Sink.Like (w.act sink call) (w'.act sink' call) := by
  obtain ⟨id, body⟩ := sink
  obtain ⟨id', body'⟩ := sink'
  obtain ⟨paired, bodies⟩ := sinks
  cases bodies with
  | probe => exact ⟨ν, .refl ν, ⟨paired, .probe⟩, like⟩
  | memory m =>
    have lines : w'.buffer id' = w.buffer id := (like.buffer id id' paired).symm
    simp only [World.act, lines]
    exact ⟨ν, .refl ν, ⟨paired, .memory _⟩, like.put paired _⟩
  | file files =>
    obtain ⟨items, more, on⟩ := FileSink.On.receive ⟨files, like.disk⟩ like.stamp within
    exact ⟨⟨ν.sinks, items⟩, ⟨fun _ _ paired => paired, more⟩, ⟨paired, .file on.1⟩, like.host on.2⟩

theorem receive (like : World.Like c ν w w') {sink sink' : Sink} (sinks : Sink.Like ν sink sink') {call : Call}
    (within : call.Within c) : Outcome c ν Sink.Like (w.receive sink call) (w'.receive sink' call) :=
  (like.record (.called sinks.id call)).act sinks within

theorem deliver {call : Call} (within : call.Within c) {l l' : List Sink} (like : World.Like c ν w w')
    (sinks : List.Forall₂ (Sink.Like ν) l l') :
    Outcome c ν (fun ν' => List.Forall₂ (Sink.Like ν')) (deliver call l w) (deliver call l' w') := by
  induction l generalizing l' ν w w' with
  | nil =>
    cases sinks
    exact ⟨ν, .refl ν, .nil, like⟩
  | cons sink l ih =>
    obtain _ | ⟨one, rest⟩ := sinks
    obtain ⟨ν₁, grows, first, like⟩ := like.receive one within
    obtain ⟨ν₂, grows', rest, like⟩ := ih like (Sink.Like.mono_list grows rest)
    exact ⟨ν₂, grows.trans grows', .cons (first.mono grows') rest, like⟩

/-- A sink that is built gets a number in both worlds, and the two numbers are a pair from now on. -/
theorem number (like : World.Like c ν w w') (label : Sink.Label) {body body' : Sink.Body}
    (bodies : Sink.Body.Like ν.items body body') :
    Outcome c ν Sink.Like (w.number label body) (w'.number label body') := by
  have grows : ν.Grows ⟨fun i j => ν.sinks i j ∨ i = w.labels.length ∧ j = w'.labels.length, ν.items⟩ :=
    ⟨fun _ _ => .inl, fun _ _ paired => paired⟩
  have fresh : ∀ {i j}, ν.sinks i j → i ≠ w.labels.length ∧ j ≠ w'.labels.length := by
    intro i j paired
    have := like.born paired
    omega
  refine ⟨_, grows, ⟨.inr ⟨rfl, rfl⟩, bodies⟩, ?_⟩
  refine
    { journal := ?_, label := ?_, buffer := ?_, all := ?_, one := ?_, apart := ?_, unborn := ?_, unborn' := ?_,
      aside := ?_, disk := like.disk, stamp := like.stamp }
  · exact List.rel_append (like.journal.imp fun _ _ entries => entries.mono id grows.sinks)
      (.cons (.built (.inr ⟨rfl, rfl⟩)) .nil)
  · rintro i j (paired | ⟨rfl, rfl⟩)
    · obtain ⟨l, here, there⟩ := like.label i j paired
      have := like.born paired
      refine ⟨l, ?_, ?_⟩
      · exact (List.getElem?_append_left this.1).trans here
      · exact (List.getElem?_append_left this.2).trans there
    · exact ⟨label, List.getElem?_concat_length, List.getElem?_concat_length⟩
  · rintro i j (paired | ⟨rfl, rfl⟩)
    · exact like.buffer i j paired
    · exact (like.unborn _ (Nat.le_refl _)).trans (like.unborn' _ (Nat.le_refl _)).symm
  · intro i inside
    by_cases last : i = w.labels.length
    · exact ⟨_, .inr ⟨last, rfl⟩⟩
    · have inside : i < (w.labels ++ [label]).length := inside
      rw [List.length_append, List.length_singleton] at inside
      obtain ⟨j, paired⟩ := like.all i (by omega)
      exact ⟨j, .inl paired⟩
  · rintro i j i' j' (paired | ⟨rfl, rfl⟩) (paired' | ⟨rfl, rfl⟩)
    · exact like.one i j i' j' paired paired'
    · simp [fresh paired]
    · simp [(fresh paired').1.symm, (fresh paired').2.symm]
    · simp
  · rintro i j (paired | ⟨rfl, rfl⟩)
    · exact like.apart i j paired
    · intro theirs
      obtain ⟨_, l, _, there⟩ := like.aside _ theirs
      have := (List.getElem?_eq_some_iff.mp there).1
      omega
  · intro i late
    have late : (w.labels ++ [label]).length ≤ i := late
    rw [List.length_append] at late
    exact like.unborn i (by omega)
  · intro j late
    have late : (w'.labels ++ [label]).length ≤ j := late
    rw [List.length_append] at late
    exact like.unborn' j (by omega)
  · intro j theirs
    obtain ⟨buffer, l, before, there⟩ := like.aside j theirs
    have inside := (List.getElem?_eq_some_iff.mp there).1
    exact ⟨buffer, l, before, (List.getElem?_append_left inside).trans there⟩

/-- A sink that somebody asks for is built in both worlds, or refused by both disks. -/
theorem build (like : World.Like c ν w w') {spec : Sink.Spec} (within : spec.Within c) :
    Outcome c ν (fun ν' => Except.Rel (fun e e' => e = e' ∨ c.Hindered) (Sink.Like ν')) (w.build spec)
      (w'.build spec) := by
  cases spec with
  | probe name hearsFlush =>
    obtain ⟨ν', grows, sinks, like⟩ := like.number (.probe name hearsFlush) .probe
    exact ⟨ν', grows, .ok sinks, like⟩
  | memory name level =>
    obtain ⟨ν', grows, sinks, like⟩ := like.number (.memory name) (.memory (.make level))
    exact ⟨ν', grows, .ok sinks, like⟩
  | file o =>
    obtain ⟨items, more, files, disk⟩ := FileSink.On.make like.disk o (within.path o (.inl rfl))
    have wider : ν.Grows ⟨ν.sinks, items⟩ := ⟨fun _ _ paired => paired, more⟩
    obtain ⟨ν', grows, sinks, like⟩ := (like.host disk).number .file (.file files)
    exact ⟨ν', wider.trans grows, .ok sinks, like⟩
  | openFile o =>
    obtain ⟨items, more, made⟩ := FileSink.On.make? like.disk o (within.path o (.inr rfl))
    have wider : ν.Grows ⟨ν.sinks, items⟩ := ⟨fun _ _ paired => paired, more⟩
    simp only [World.build]
    generalize FileSink.make? o w.host = one at made ⊢
    generalize FileSink.make? o w'.host = other at made ⊢
    cases made with
    | error same =>
      refine ⟨ν, .refl ν, .error ?_, like⟩
      by_cases free : ∀ other, c.others other → ¬ c.base.Blocks other o.target
      · exact .inl (same free)
      · obtain ⟨other, theirs, blocks⟩ : ∃ other, c.others other ∧ c.base.Blocks other o.target := by
          simpa using free
        exact .inr ⟨o.target, other, within.demands o rfl, theirs, blocks⟩
    | ok on =>
      obtain ⟨files, disk⟩ := on
      obtain ⟨ν', grows, sinks, like⟩ := (like.host disk).number .file (.file files)
      exact ⟨ν', wider.trans grows, .ok sinks, like⟩

end Like
end World

end LogFanout
