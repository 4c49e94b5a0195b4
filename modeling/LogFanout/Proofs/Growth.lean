import LogFanout.Disk

/- Growing disks.

   `d.Extends d' added` says what has become of a disk when files were only opened to be extended, and bytes only written
   at the ends of files: the `n`-th thing has got the bytes `added n` behind those it had, files have been made that were
   not there, and every name still stands for what it stood for. Extensions can be put one after the other (`trans`), and
   bytes never get lost on the way, except on a device.

   A handle is ready if its next bytes go to the end of its file. A handle that always writes at the end stays ready
   whatever the others write; one with an offset of its own stays ready as long as nobody else writes to its file
   (`Ready.after`). Every handle is ready when it has been opened (`openFile_ready`), and a write through one that is ready
   extends the disk and leaves it ready (`Ready.write`). -/
namespace LogFanout.Disk

open Text (Bytes)

/-- A thing that bytes can be written to without a trace. -/
def IsDevice (d : Disk) (n : Nat) : Prop := d.items[n]? = some .null ∨ d.items[n]? = some .full

/-- What a path stands for: its last name, in the folder that the others lead to. -/
def place? (d : Disk) (path : String) : Option Nat :=
  match d.locate path with
  | .error _ => none
  | .ok (folder, p) =>
    match p.last with
    | none => none
    | some name => (d.child folder name).toOption

def emptied (d : Disk) (n : Nat) : Disk :=
  match d.contents? n with
  | none => d
  | some _ => d.set n (.file [])

/-- Every name that stands for something stands for the same later. -/
structure KeepsNames (d d' : Disk) : Prop where
  child : ∀ folder name n, d.child folder name = .ok n → d'.child folder name = .ok n
  root : d'.root = d.root
  home : d'.home = d.home

/-- Since `d`, every thing `n` has got the bytes `added n`, at the end; files may have been made, and nothing else has
    changed. -/
structure Extends (d d' : Disk) (added : Nat → Bytes) : Prop where
  longer : d.items.length ≤ d'.items.length
  old : ∀ n bytes, d.contents? n = some bytes → d'.contents? n = some (bytes ++ added n)
  new : ∀ n, d.contents? n = none →
    d'.contents? n = none ∨ d.items.length ≤ n ∧ d'.contents? n = some (added n)
  lost : ∀ n, added n ≠ [] → d'.contents? n = none → d.IsDevice n
  device : ∀ n, d'.IsDevice n ↔ d.IsDevice n
  names : d.KeepsNames d'

/-- A handle whose next bytes go to the end of its file, or to a device. -/
def Ready (d : Disk) (h : Handle) : Prop :=
  d.IsDevice h.item ∨ ∃ bytes, d.contents? h.item = some bytes ∧ (h.mode = .atEnd ∨ h.mode = .at bytes.length)

/-! ## Contents -/

theorem contents?_eq_some {d : Disk} {n : Nat} {bytes : Bytes} :
    d.contents? n = some bytes ↔ d.items[n]? = some (.file bytes) := by
  unfold contents?
  split
  · rename_i found
    simp [found]
  · rename_i other
    constructor
    · intro none
      cases none
    · intro found
      exact absurd found (other bytes)

theorem contents?_bound {d : Disk} {n : Nat} {bytes : Bytes} (h : d.contents? n = some bytes) : n < d.items.length :=
  (List.getElem?_eq_some_iff.mp (contents?_eq_some.mp h)).1

theorem contents?_of_items {d d' : Disk} {n : Nat} (same : d'.items[n]? = d.items[n]?) :
    d'.contents? n = d.contents? n := by
  unfold contents?
  rw [same]

theorem IsDevice.bound {d : Disk} {n : Nat} (h : d.IsDevice n) : n < d.items.length := by
  obtain h | h := h
  all_goals exact (List.getElem?_eq_some_iff.mp h).1

theorem IsDevice.contents? {d : Disk} {n : Nat} (h : d.IsDevice n) : d.contents? n = none := by
  obtain h | h := h
  all_goals
    unfold Disk.contents?
    rw [h]

theorem set_items {d : Disk} {n : Nat} (bound : n < d.items.length) (item : Item) (k : Nat) :
    (d.set n item).items[k]? = if n = k then some item else d.items[k]? := by
  simp only [Disk.set, List.getElem?_set, bound, if_true]

theorem contents?_set {d : Disk} {n : Nat} (bound : n < d.items.length) (bytes : Bytes) (k : Nat) :
    (d.set n (.file bytes)).contents? k = if n = k then some bytes else d.contents? k := by
  by_cases here : n = k
  · rw [if_pos here]
    exact contents?_eq_some.mpr (by rw [set_items bound, if_pos here])
  · rw [if_neg here]
    exact contents?_of_items (by rw [set_items bound, if_neg here])

/-! ## Paths -/

theorem locate_eq_ok {d : Disk} {path : String} {folder : Nat} {p : Path} :
    d.locate path = .ok (folder, p) ↔
      (path.toList.contains '\x00' = false ∧ path ≠ "" ∧ path.utf8ByteSize < pathBound) ∧ Path.ofString path = p ∧
        d.walk (if p.absolute then d.root else d.home) p.folders = .ok folder := by
  unfold locate
  split
  · rename_i bad
    rw [bad]
    simp
  · split
    · rename_i bad
      simp [bad]
    · split
      · rename_i bad
        simp [Nat.not_lt.mpr bad]
      · rename_i text name length
        rw [Bool.not_eq_true] at text
        simp only [text, name, Nat.lt_of_not_le length, ne_eq, not_false_eq_true, true_and]
        constructor
        · intro found
          cases walked : d.walk (if (Path.ofString path).absolute then d.root else d.home) (Path.ofString path).folders with
          | error e =>
            rw [walked] at found
            cases found
          | ok n =>
            rw [walked] at found
            obtain ⟨rfl, rfl⟩ := Prod.mk.inj (Except.ok.inj found)
            exact ⟨rfl, walked⟩
        · rintro ⟨rfl, walked⟩
          rw [walked]
          rfl

theorem place?_eq_some {d : Disk} {path : String} {n : Nat} :
    d.place? path = some n ↔
      ∃ folder p name, d.locate path = .ok (folder, p) ∧ p.last = some name ∧ d.child folder name = .ok n := by
  unfold place?
  cases located : d.locate path with
  | error e => simp
  | ok found =>
    obtain ⟨folder, p⟩ := found
    cases last : p.last with
    | none => simp [last]
    | some name =>
      simp only [last, Except.ok.injEq, Prod.mk.injEq]
      constructor
      · intro found
        cases there : d.child folder name with
        | error e =>
          rw [there] at found
          cases found
        | ok k =>
          rw [there] at found
          exact ⟨folder, p, name, ⟨rfl, rfl⟩, last, there.trans (congrArg Except.ok (Option.some.inj found))⟩
      · rintro ⟨folder, p, name, ⟨rfl, rfl⟩, last', there⟩
        obtain rfl := Option.some.inj (last.symm.trans last')
        rw [there]
        rfl

theorem folder_of_walk {d : Disk} {names : List String} {folder n : Nat} (found : d.walk folder names = .ok n) :
    ∃ parent entries, d.items[n]? = some (.folder parent entries) := by
  induction names generalizing folder with
  | nil =>
    simp only [walk] at found
    split at found
    · rename_i there
      obtain rfl := Except.ok.inj found
      exact ⟨_, _, there⟩
    · cases found
    · cases found
  | cons name rest ih =>
    simp only [walk] at found
    split at found
    · exact ih found
    · cases found

theorem folder_of_locate {d : Disk} {path : String} {folder : Nat} {p : Path}
    (found : d.locate path = .ok (folder, p)) : ∃ parent entries, d.items[folder]? = some (.folder parent entries) := by
  obtain ⟨_, _, walked⟩ := locate_eq_ok.mp found
  exact folder_of_walk walked

/-! ## Disks with the same names -/

namespace KeepsNames

variable {d d' : Disk}

theorem refl (d : Disk) : d.KeepsNames d := ⟨fun _ _ _ found => found, rfl, rfl⟩

theorem trans {d'' : Disk} (first : d.KeepsNames d') (second : d'.KeepsNames d'') : d.KeepsNames d'' :=
  ⟨fun folder name n found => second.child folder name n (first.child folder name n found),
    second.root.trans first.root, second.home.trans first.home⟩

/-- A folder stays a folder, so names that lead somewhere lead there later. -/
theorem walk (h : d.KeepsNames d') {names : List String} {folder n : Nat} (found : d.walk folder names = .ok n) :
    d'.walk folder names = .ok n := by
  induction names generalizing folder with
  | nil =>
    simp only [Disk.walk] at found
    split at found
    · rename_i there
      obtain rfl := Except.ok.inj found
      -- The folder stands for itself under one dot, and does so later.
      have self := h.child folder "." folder (by simp [Disk.child, there])
      simp only [Disk.child, Disk.walk] at self ⊢
      cases later : d'.items[folder]? with
      | none =>
        rw [later] at self
        cases self
      | some item =>
        rw [later] at self
        cases item with
        | folder parent entries => rfl
        | _ => cases self
    · cases found
    · cases found
  | cons name rest ih =>
    simp only [Disk.walk] at found ⊢
    split at found
    · rename_i here
      rw [h.child _ _ _ here]
      exact ih found
    · cases found

theorem locate (h : d.KeepsNames d') {path : String} {folder : Nat} {p : Path}
    (found : d.locate path = .ok (folder, p)) : d'.locate path = .ok (folder, p) := by
  obtain ⟨good, rfl, walked⟩ := locate_eq_ok.mp found
  refine locate_eq_ok.mpr ⟨good, rfl, ?_⟩
  rw [h.root, h.home]
  exact h.walk walked

/-- A path that stands for something stands for it later. -/
theorem place? (h : d.KeepsNames d') {path : String} {n : Nat} (found : d.place? path = some n) :
    d'.place? path = some n := by
  obtain ⟨folder, p, name, located, last, there⟩ := place?_eq_some.mp found
  exact place?_eq_some.mpr ⟨folder, p, name, h.locate located, last, h.child folder name n there⟩

end KeepsNames

/-! ## Disks where one file has other bytes -/

theorem child_set {d : Disk} {n : Nat} {old : Bytes} (file : d.contents? n = some old) (bytes : Bytes) (folder : Nat)
    (name : String) : (d.set n (.file bytes)).child folder name = d.child folder name := by
  unfold child
  rw [set_items (contents?_bound file)]
  by_cases here : n = folder
  · rw [if_pos here, ← here, contents?_eq_some.mp file]
  · rw [if_neg here]

theorem isDevice_set {d : Disk} {n : Nat} {old : Bytes} (file : d.contents? n = some old) (bytes : Bytes) (k : Nat) :
    (d.set n (.file bytes)).IsDevice k ↔ d.IsDevice k := by
  unfold IsDevice
  rw [set_items (contents?_bound file)]
  by_cases here : n = k
  · rw [if_pos here, ← here, contents?_eq_some.mp file]
    simp
  · rw [if_neg here]

theorem KeepsNames.set {d : Disk} {n : Nat} {old : Bytes} (file : d.contents? n = some old) (bytes : Bytes) :
    d.KeepsNames (d.set n (.file bytes)) :=
  ⟨fun folder name k there => by rwa [child_set file], rfl, rfl⟩

theorem emptied_of_file {d : Disk} {n : Nat} {old : Bytes} (file : d.contents? n = some old) :
    d.emptied n = d.set n (.file []) := by
  rw [emptied, file]

theorem emptied_of_no_file {d : Disk} {n : Nat} (none : d.contents? n = none) : d.emptied n = d := by
  rw [emptied, none]

theorem emptied_contents? (d : Disk) (n k : Nat) :
    (d.emptied n).contents? k = if n = k then (d.contents? k).map fun _ => [] else d.contents? k := by
  cases file : d.contents? n with
  | none =>
    rw [emptied_of_no_file file]
    split
    · rename_i here
      rw [← here, file]
      rfl
    · rfl
  | some old =>
    rw [emptied_of_file file, contents?_set (contents?_bound file)]
    split
    · rename_i here
      rw [← here, file]
      rfl
    · rfl

theorem emptied_length (d : Disk) (n : Nat) : (d.emptied n).items.length = d.items.length := by
  unfold emptied
  split
  · rfl
  · exact List.length_set

theorem isDevice_emptied (d : Disk) (n k : Nat) : (d.emptied n).IsDevice k ↔ d.IsDevice k := by
  cases file : d.contents? n with
  | none => rw [emptied_of_no_file file]
  | some old =>
    rw [emptied_of_file file]
    exact isDevice_set file [] k

theorem KeepsNames.emptied (d : Disk) (n : Nat) : d.KeepsNames (d.emptied n) := by
  cases file : d.contents? n with
  | none =>
    rw [emptied_of_no_file file]
    exact .refl d
  | some old =>
    rw [emptied_of_file file]
    exact .set file []

theorem Extends.set {d : Disk} {n : Nat} {old : Bytes} (file : d.contents? n = some old) (bytes : Bytes) :
    d.Extends (d.set n (.file (old ++ bytes))) fun k => if k = n then bytes else [] := by
  have bound := contents?_bound file
  refine ⟨by simp [Disk.set], ?_, ?_, ?_, isDevice_set file _, .set file _⟩
  · intro k content here
    rw [contents?_set bound]
    by_cases same : n = k
    · subst same
      obtain rfl := Option.some.inj (file.symm.trans here)
      simp
    · rwa [if_neg same, if_neg (Ne.symm same), List.append_nil]
  · intro k missing
    rw [contents?_set bound]
    by_cases same : n = k
    · subst same
      rw [file] at missing
      cases missing
    · exact .inl (by rwa [if_neg same])
  · intro k more missing
    by_cases same : k = n
    · rw [contents?_set bound, if_pos same.symm] at missing
      cases missing
    · exact absurd (if_neg same) more

/-! ## Disks with another file -/

theorem entry?_append {name : String} {entries : List (String × Nat)} {n : Nat} (more : List (String × Nat))
    (h : entry? name entries = some n) : entry? name (entries ++ more) = some n := by
  induction entries with
  | nil => cases h
  | cons e rest ih =>
    obtain ⟨key, i⟩ := e
    by_cases here : key = name
    · simpa [here, entry?] using h
    · simp only [here, entry?, if_false, List.cons_append] at h ⊢
      exact ih h

theorem entry?_append_new {name : String} {entries : List (String × Nat)} (n : Nat) (h : entry? name entries = none) :
    entry? name (entries ++ [(name, n)]) = some n := by
  induction entries with
  | nil => simp [ entry?]
  | cons e rest ih =>
    obtain ⟨key, i⟩ := e
    by_cases here : key = name
    · simp [here, entry?] at h
    · simp only [here, entry?, if_false, List.cons_append] at h ⊢
      exact ih h

section Create

variable {d : Disk} {folder parent : Nat} {entries : List (String × Nat)} {name : String}

theorem create_of_folder (there : d.items[folder]? = some (.folder parent entries)) (item : Item) :
    d.create folder name item = (d.items.length,
      { d with items := d.items.set folder (.folder parent (entries ++ [(name, d.items.length)])) ++ [item] }) := by
  simp only [create, there]

theorem create_items (there : d.items[folder]? = some (.folder parent entries)) (name : String) (item : Item) (k : Nat) :
    (d.create folder name item).2.items[k]? =
      if k = folder then some (.folder parent (entries ++ [(name, d.items.length)]))
      else if k = d.items.length then some item else d.items[k]? := by
  have bound := (List.getElem?_eq_some_iff.mp there).1
  rw [create_of_folder there]
  by_cases inside : k < d.items.length
  · rw [List.getElem?_append_left (by simpa using inside)]
    by_cases here : k = folder
    · simp [here, bound]
    · rw [List.getElem?_set_ne (Ne.symm here), if_neg here, if_neg (by omega)]
  · rw [List.getElem?_append_right (by simpa using inside), if_neg (by omega)]
    by_cases next : k = d.items.length
    · simp [next]
    · rw [if_neg next, List.getElem?_eq_none (by simp; omega), List.getElem?_eq_none (by omega)]

theorem KeepsNames.create (there : d.items[folder]? = some (.folder parent entries)) (item : Item) :
    d.KeepsNames (d.create folder name item).2 := by
  have bound := (List.getElem?_eq_some_iff.mp there).1
  have items := create_items there name item
  refine ⟨?_, by simp [create_of_folder there], by simp [create_of_folder there]⟩
  intro folder' name' n found
  by_cases here : folder' = folder
  · subst here
    simp only [Disk.child, items, there, if_true] at found ⊢
    by_cases dot : name' = "."
    · rwa [if_pos dot] at found ⊢
    · rw [if_neg dot] at found ⊢
      by_cases dots : name' = ".."
      · rwa [if_pos dots] at found ⊢
      · rw [if_neg dots] at found ⊢
        split at found
        · cases found
        · rename_i short
          rw [if_neg short]
          split at found
          · rename_i key
            rw [entry?_append _ key]
            exact found
          · cases found
  · have other : folder' ≠ d.items.length := by
      rintro rfl
      simp [Disk.child] at found
    simpa only [Disk.child, items, if_neg here, if_neg other] using found

/-- A file that has been made was not there before, and everything else is as it was. -/
theorem Extends.create (there : d.items[folder]? = some (.folder parent entries)) :
    d.Extends (d.create folder name (.file [])).2 fun _ => [] := by
  have bound := (List.getElem?_eq_some_iff.mp there).1
  have items := create_items there name (.file [])
  refine ⟨by simp [create_of_folder there], ?_, ?_, fun _ more => absurd rfl more, ?_, .create there _⟩
  · intro n bytes here
    have found := contents?_eq_some.mp here
    have inside := contents?_bound here
    rw [List.append_nil]
    refine contents?_eq_some.mpr ?_
    -- An old file is neither the new thing nor the folder that gets the name.
    rw [items, if_neg, if_neg (by omega), found]
    rintro rfl
    rw [there] at found
    cases found
  · intro n missing
    by_cases next : n = d.items.length
    · refine .inr ⟨by omega, contents?_eq_some.mpr ?_⟩
      rw [items, if_neg (by omega), if_pos next]
    · by_cases here : n = folder
      · refine .inl ?_
        unfold Disk.contents?
        rw [items, if_pos here]
      · refine .inl (missing ▸ contents?_of_items ?_)
        rw [items, if_neg here, if_neg next]
  · intro n
    unfold IsDevice
    rw [items]
    split
    · rename_i here
      subst here
      simp [there]
    · split
      · rename_i next
        subst next
        simp
      · exact Iff.rfl

/-- A file that has been made is what its name stands for. -/
theorem child_create (there : d.items[folder]? = some (.folder parent entries))
    (missing : d.child folder name = .error .notFound) (item : Item) :
    (d.create folder name item).2.child folder name = .ok d.items.length := by
  simp only [child, there] at missing
  simp only [child, create_items there name, if_true]
  split at missing
  · cases missing
  · rename_i dot
    rw [if_neg dot]
    split at missing
    · cases missing
    · rename_i dots
      rw [if_neg dots]
      split at missing
      · cases missing
      · rename_i short
        rw [if_neg short]
        split at missing
        · cases missing
        · rename_i key
          rw [entry?_append_new _ key]

end Create

/-! ## One extension after the other -/

namespace Extends

variable {d d' d'' : Disk} {a b : Nat → Bytes}

theorem refl (d : Disk) : d.Extends d fun _ => [] :=
  ⟨Nat.le_refl _, fun _ _ here => by rwa [List.append_nil], fun _ missing => .inl missing,
    fun _ more => absurd rfl more, fun _ => Iff.rfl, .refl d⟩

theorem trans (first : d.Extends d' a) (second : d'.Extends d'' b) : d.Extends d'' fun n => a n ++ b n := by
  -- Only a device swallows bytes, and what is made later is no device.
  have nothing : ∀ n, d'.items.length ≤ n → d'.contents? n = none → a n = [] := by
    intro n out missing
    by_cases empty : a n = []
    · exact empty
    · have := (first.lost n empty missing).bound
      have := first.longer
      omega
  refine ⟨Nat.le_trans first.longer second.longer, ?_, ?_, ?_, ?_, first.names.trans second.names⟩
  · intro n bytes here
    rw [second.old n _ (first.old n _ here), List.append_assoc]
  · intro n missing
    obtain missing | ⟨bound, made⟩ := first.new n missing
    · obtain missing' | ⟨bound, made⟩ := second.new n missing
      · exact .inl missing'
      · have := first.longer
        exact .inr ⟨by omega, by rw [made, nothing n bound missing, List.nil_append]⟩
    · exact .inr ⟨bound, second.old n _ made⟩
  · intro n more missing
    have missing' : d'.contents? n = none := by
      cases here : d'.contents? n with
      | none => rfl
      | some bytes =>
        rw [second.old n _ here] at missing
        cases missing
    by_cases empty : a n = []
    · refine (first.device n).mp (second.lost n ?_ missing)
      simpa [empty] using more
    · exact first.lost n empty missing'
  · intro n
    exact (second.device n).trans (first.device n)

/-- What is written to a device is gone. -/
theorem of_device {n : Nat} (device : d.IsDevice n) (bytes : Bytes) :
    d.Extends d fun k => if k = n then bytes else [] := by
  refine ⟨Nat.le_refl _, ?_, fun _ missing => .inl missing, ?_, fun _ => Iff.rfl, .refl d⟩
  · intro k content here
    have other : k ≠ n := by
      rintro rfl
      rw [device.contents?] at here
      cases here
    rw [if_neg other, List.append_nil, here]
  · intro k more _
    by_cases here : k = n
    · rwa [here]
    · exact absurd (if_neg here) more

theorem congr (h : d.Extends d' a) (same : ∀ n, a n = b n) : d.Extends d' b := funext same ▸ h

end Extends

/-! ## Ready handles -/

/-- A write leaves a handle on its file, and at the end if it always writes there. -/
theorem write_handle (d : Disk) (h : Handle) (bytes : Bytes) :
    (d.write h bytes).1.item = h.item ∧ ((d.write h bytes).1.mode = .atEnd ↔ h.mode = .atEnd) := by
  unfold Disk.write
  split
  · split
    · exact ⟨rfl, Iff.rfl⟩
    · rename_i mode
      simp [mode]
  · exact ⟨rfl, Iff.rfl⟩

namespace Ready

variable {d d' : Disk} {h : Handle}

/-- A handle stays ready while others add to other files, and if it writes at the end whatever they write. -/
theorem after {added : Nat → Bytes} (ready : d.Ready h) (grown : d.Extends d' added)
    (apart : h.mode = .atEnd ∨ added h.item = []) : d'.Ready h := by
  obtain device | ⟨bytes, file, mode⟩ := ready
  · exact .inl ((grown.device h.item).mpr device)
  · refine .inr ⟨bytes ++ added h.item, grown.old _ _ file, ?_⟩
    obtain mode | mode := mode
    · exact .inl mode
    · obtain atEnd | nothing := apart
      · exact .inl atEnd
      · rw [nothing, List.append_nil]
        exact .inr mode

theorem overwrite_length (old bytes : Bytes) : overwrite old bytes old.length = old ++ bytes := by
  simp [overwrite]

/-- A write through a ready handle adds to the end of its file, and leaves the handle ready. -/
theorem write (ready : d.Ready h) (bytes : Bytes) :
    (d.write h bytes).2.Ready (d.write h bytes).1 ∧
      d.Extends (d.write h bytes).2 fun n => if n = h.item then bytes else [] := by
  obtain device | ⟨old, file, mode⟩ := ready
  · have same : d.write h bytes = (h, d) := by
      obtain found | found := device
      all_goals simp only [Disk.write, found]
    rw [same]
    exact ⟨.inl device, .of_device device bytes⟩
  · have found := contents?_eq_some.mp file
    have later : (d.set h.item (.file (old ++ bytes))).contents? h.item = some (old ++ bytes) := by
      rw [contents?_set (contents?_bound file), if_pos rfl]
    obtain mode | mode := mode
    · have written : d.write h bytes = (h, d.set h.item (.file (old ++ bytes))) := by
        simp only [Disk.write, found, mode]
      rw [written]
      exact ⟨.inr ⟨_, later, .inl mode⟩, .set file bytes⟩
    · have written : d.write h bytes =
          (⟨h.item, .at (old.length + bytes.length)⟩, d.set h.item (.file (old ++ bytes))) := by
        simp only [Disk.write, found, mode, overwrite_length]
      rw [written]
      refine ⟨.inr ⟨_, later, .inr ?_⟩, .set file bytes⟩
      rw [List.length_append]

end Ready

/-! ## Opening files -/

/-- What it takes to open a file: a place that is one already, or a folder where one is made. -/
theorem openFile_ok {d d' : Disk} {path : String} {append : Bool} {h : Handle}
    (opened : d.openFile path append = .ok (h, d')) :
    ∃ folder p name, d.locate path = .ok (folder, p) ∧ p.last = some name ∧
      h.mode = (if append then .atEnd else .at 0) ∧
      (d.child folder name = .error .notFound ∧ h.item = d.items.length ∧ d' = (d.create folder name (.file [])).2 ∨
        d.child folder name = .ok h.item ∧
          ((∃ bytes, d.contents? h.item = some bytes ∧ d' = if append then d else d.set h.item (.file [])) ∨
            d.IsDevice h.item ∧ d' = d)) := by
  unfold openFile at opened
  cases located : d.locate path with
  | error e =>
    rw [located] at opened
    cases opened
  | ok found =>
    obtain ⟨folder, p⟩ := found
    rw [located] at opened
    cases last : p.last with
    | none =>
      simp only [last] at opened
      cases opened
    | some name =>
      simp only [last] at opened
      split at opened
      · cases opened
      · -- What can be opened has no name yet, or is a file, or is a device.
        cases there : d.child folder name with
        | error e =>
          rw [there] at opened
          cases e with
          | notFound =>
            obtain ⟨rfl, rfl⟩ := Prod.mk.inj (Except.ok.inj opened)
            obtain ⟨parent, entries, isFolder⟩ := folder_of_locate located
            exact ⟨folder, p, name, rfl, last, rfl, .inl ⟨there, by rw [create_of_folder isFolder], rfl⟩⟩
          | _ => cases opened
        | ok n =>
          rw [there] at opened
          cases item : d.items[n]? with
          | none =>
            simp only [item] at opened
            cases opened
          | some thing =>
            simp only [item] at opened
            cases thing with
            | file bytes =>
              obtain ⟨rfl, rfl⟩ := Prod.mk.inj (Except.ok.inj opened)
              exact ⟨folder, p, name, rfl, last, rfl, .inr ⟨there, .inl ⟨bytes, contents?_eq_some.mpr item, rfl⟩⟩⟩
            | folder parent entries => cases opened
            | null =>
              obtain ⟨rfl, rfl⟩ := Prod.mk.inj (Except.ok.inj opened)
              exact ⟨folder, p, name, rfl, last, rfl, .inr ⟨there, .inr ⟨.inl item, rfl⟩⟩⟩
            | full =>
              obtain ⟨rfl, rfl⟩ := Prod.mk.inj (Except.ok.inj opened)
              exact ⟨folder, p, name, rfl, last, rfl, .inr ⟨there, .inr ⟨.inr item, rfl⟩⟩⟩

section Opened

variable {d d' : Disk} {path : String} {append : Bool} {h : Handle}

/-- Opening a file that is not to be kept empties it; apart from that, nothing is added by it. -/
theorem openFile_extends (opened : d.openFile path append = .ok (h, d')) :
    (if append then d else d.emptied h.item).Extends d' fun _ => [] := by
  obtain ⟨folder, p, name, located, _, _, ⟨_, item, rfl⟩ | ⟨_, ⟨bytes, file, rfl⟩ | ⟨device, rfl⟩⟩⟩ := openFile_ok opened
  · obtain ⟨parent, entries, there⟩ := folder_of_locate located
    have new : d.contents? h.item = none := by
      unfold contents?
      rw [item, List.getElem?_eq_none (Nat.le_refl _)]
    rw [emptied_of_no_file new, ite_self]
    exact .create there
  · rw [emptied_of_file file]
    exact .refl _
  · rw [emptied_of_no_file device.contents?, ite_self]
    exact .refl _

theorem openFile_mode (opened : d.openFile path append = .ok (h, d')) :
    h.mode = if append then .atEnd else .at 0 := by
  obtain ⟨_, _, _, _, _, mode, _⟩ := openFile_ok opened
  exact mode

theorem openFile_ready (opened : d.openFile path append = .ok (h, d')) : d'.Ready h := by
  obtain ⟨folder, p, name, located, _, mode, ⟨_, item, rfl⟩ | ⟨_, ⟨bytes, file, rfl⟩ | ⟨device, rfl⟩⟩⟩ :=
    openFile_ok opened
  · obtain ⟨parent, entries, there⟩ := folder_of_locate located
    have bound := (List.getElem?_eq_some_iff.mp there).1
    -- The start of an empty file is its end.
    refine .inr ⟨[], contents?_eq_some.mpr ?_, ?_⟩
    · rw [create_items there name, if_neg (by omega), if_pos item]
    · cases append
      · exact .inr mode
      · exact .inl mode
  · cases append with
    | false => exact .inr ⟨[], by rw [if_neg Bool.false_ne_true, contents?_set (contents?_bound file), if_pos rfl], .inr mode⟩
    | true => exact .inr ⟨bytes, file, .inl mode⟩
  · exact .inl device

/-- What has been opened is what its path stands for. -/
theorem openFile_place (opened : d.openFile path append = .ok (h, d')) : d'.place? path = some h.item := by
  obtain ⟨folder, p, name, located, last, _, ⟨missing, item, rfl⟩ | ⟨there, outcome⟩⟩ := openFile_ok opened
  · obtain ⟨parent, entries, isFolder⟩ := folder_of_locate located
    refine place?_eq_some.mpr ⟨folder, p, name, (KeepsNames.create isFolder _).locate located, last, ?_⟩
    rw [child_create isFolder missing, item]
  · have kept : d.KeepsNames d' := by
      obtain ⟨bytes, file, rfl⟩ | ⟨_, rfl⟩ := outcome
      · cases append
        · exact .set file []
        · exact .refl d
      · exact .refl _
    exact kept.place? (place?_eq_some.mpr ⟨folder, p, name, located, last, there⟩)

end Opened

end LogFanout.Disk
