import LogFanout.Proofs.Growth

/- The places of files.

   The names in a path but the last lead to a folder, and an open looks there for the last name (`spot?`). The site of a
   path is the file that is found there, or the spot itself if nothing is, because a file would be made at it (`site?`).

   A disk on which files have only been made, emptied and written has come of the first one (`Grew`). Then the sites of the
   first disk are all there is to look at: at most one thing is at a site (`item?`), never one thing at two
   (`Grew.item_inj`), opening a path changes what is at its site (`Grew.openFile_site`), and so does writing to what is
   there (`Grew.write_site`). What an open comes to otherwise can be told from the first disk, except for the reason of a
   refusal: a folder that is missing on the way is refused for another reason once a file is there
   (`openFile_without_site`). -/
namespace LogFanout.Disk

open Text (Bytes)

inductive Kind where
  | file
  | folder
  | null
  | full
  deriving DecidableEq, Repr

def Item.kind : Item → Kind
  | .file _ => .file
  | .folder _ _ => .folder
  | .null => .null
  | .full => .full

def kind? (d : Disk) (n : Nat) : Option Kind := d.items[n]?.map Item.kind

/-- The folder in which an open looks for a file, and the name under which it does. -/
def spot? (d : Disk) (path : String) : Option (Nat × String) :=
  match d.locate path with
  | .error _ => none
  | .ok (folder, p) =>
    match p.last with
    | none => none
    | some name => if isDots name || p.slash then none else some (folder, name)

/-- Where a file is: it is one that is there, or it is made under a name that is free. -/
inductive Site where
  | there (n : Nat)
  | free (folder : Nat) (name : String)
  deriving DecidableEq, Repr

/-- The site that a path leads to. -/
def site? (d : Disk) (path : String) : Option Site :=
  match d.spot? path with
  | none => none
  | some (folder, name) =>
    match d.child folder name with
    | .ok n => if (d.contents? n).isSome then some (.there n) else none
    | .error .notFound => some (.free folder name)
    | .error _ => none

def Site.In (base : Disk) : Site → Prop
  | .there n => ∃ bytes, base.contents? n = some bytes
  | .free folder name => folder < base.items.length ∧ base.child folder name = .error .notFound

/-- What is at a site by now. -/
def item? (d : Disk) : Site → Option Nat
  | .there n => some n
  | .free folder name => (d.child folder name).toOption

def bytes? (d : Disk) (x : Site) : Option Bytes := (d.item? x).bind d.contents?

/-- The names that are looked up one after the other, each with the folder that it is looked up in. -/
def way (d : Disk) (folder : Nat) : List String → List (Nat × String)
  | [] => []
  | name :: rest =>
    (folder, name) ::
      match d.child folder name with
      | .ok n => d.way n rest
      | .error _ => []

/-- The names of folders that are looked up for a path. -/
def wayTo (d : Disk) (path : String) : List (Nat × String) :=
  let p := Path.ofString path
  d.way (if p.absolute then d.root else d.home) p.folders

/-- A file that is made at one path stands where another path has a folder to be found. -/
def Blocks (d : Disk) (path other : String) : Prop :=
  ∃ folder name, d.site? path = some (.free folder name) ∧ (folder, name) ∈ d.wayTo other

/-- Two paths lead to one file. -/
def Shares (d : Disk) (path other : String) : Prop := ∃ x, d.site? path = some x ∧ d.site? other = some x

/-- Two disks on which files have been made under the same ones of these names. -/
def Agree (base d e : Disk) (way : List (Nat × String)) : Prop :=
  ∀ folder name, (Site.free folder name).In base → (folder, name) ∈ way →
    (d.item? (.free folder name)).isSome = (e.item? (.free folder name)).isSome

/-- An open is refused on two disks, and for one reason if they agree on the way to the path. -/
def Refused (base d e : Disk) (path : String) (append : Bool) : Prop :=
  ∃ one other, d.openFile path append = .error one ∧ e.openFile path append = .error other ∧
    (base.Agree d e (base.wayTo path) → one = other)

def openMode (append : Bool) : Mode := if append then .atEnd else .at 0

/-- The mode of a handle when bytes have been written through it. -/
def Mode.past (bytes : Bytes) : Mode → Mode
  | .atEnd => .atEnd
  | .at offset => .at (offset + bytes.length)

def Mode.put (old bytes : Bytes) : Mode → Bytes
  | .atEnd => old ++ bytes
  | .at offset => overwrite old bytes offset

/-- A disk whose numbers all stand for something, and in which folders are in folders. -/
structure Sound (d : Disk) : Prop where
  root : d.root < d.items.length
  home : d.home < d.items.length
  child : ∀ {folder name n}, d.child folder name = .ok n → n < d.items.length
  up : ∀ {folder n}, d.child folder ".." = .ok n → d.kind? n = some .folder

/-- A disk that has come of a first one by making, emptying and writing files. -/
structure Grew (base d : Disk) : Prop where
  sound : base.Sound
  names : base.KeepsNames d
  longer : base.items.length ≤ d.items.length
  kind : ∀ n, n < base.items.length → d.kind? n = base.kind? n
  made : ∀ n, base.items.length ≤ n → n < d.items.length → ∃ bytes, d.contents? n = some bytes
  child : ∀ {folder name n}, d.child folder name = .ok n → base.child folder name = .ok n ∨
    base.child folder name = .error .notFound ∧ base.items.length ≤ n ∧ n < d.items.length
  refused : ∀ {folder name e}, folder < base.items.length → d.child folder name = .error e →
    base.child folder name = .error e
  one : ∀ {f x g y n}, base.items.length ≤ n → d.child f x = .ok n → d.child g y = .ok n → f = g ∧ x = y

theorem child_fresh {folder n : Nat} {name : String} (found : fresh.child folder name = .ok n) :
    n < 5 ∧ (name = ".." → n = 0) := by
  rcases folder with _ | _ | _ | _ | _ | folder
  all_goals simp only [child, fresh, List.getElem?_cons_zero, List.getElem?_cons_succ, List.getElem?_nil, entry?] at found
  all_goals grind

theorem sound_fresh : fresh.Sound where
  root := by decide
  home := by decide
  child found := (child_fresh found).1
  up found := by
    rw [(child_fresh found).2 rfl]
    rfl

/-! ## Kinds -/

section Kinds

variable {d : Disk} {n : Nat}

theorem kind?_of_item {item : Item} (found : d.items[n]? = some item) : d.kind? n = some item.kind := by
  rw [kind?, found, Option.map_some]

theorem kind?_file : d.kind? n = some .file ↔ ∃ bytes, d.contents? n = some bytes := by
  simp only [kind?, contents?_eq_some]
  cases d.items[n]? with
  | none => simp
  | some item => cases item <;> simp [Item.kind]

theorem kind?_folder : d.kind? n = some .folder ↔ ∃ parent entries, d.items[n]? = some (.folder parent entries) := by
  simp only [kind?]
  cases d.items[n]? with
  | none => simp
  | some item => cases item <;> simp [Item.kind]

theorem kind?_null : d.kind? n = some .null ↔ d.items[n]? = some .null := by
  simp only [kind?]
  cases d.items[n]? with
  | none => simp
  | some item => cases item <;> simp [Item.kind]

theorem kind?_full : d.kind? n = some .full ↔ d.items[n]? = some .full := by
  simp only [kind?]
  cases d.items[n]? with
  | none => simp
  | some item => cases item <;> simp [Item.kind]

theorem kind?_device : d.IsDevice n ↔ d.kind? n = some .null ∨ d.kind? n = some .full := by
  rw [kind?_null, kind?_full, IsDevice]

theorem kind?_isSome (inside : n < d.items.length) : ∃ k, d.kind? n = some k :=
  ⟨_, kind?_of_item (List.getElem?_eq_getElem inside)⟩

theorem child_of_file (file : d.kind? n = some .file) (name : String) : d.child n name = .error .notFolder := by
  obtain ⟨bytes, there⟩ := kind?_file.mp file
  rw [child, contents?_eq_some.mp there]

theorem walk_nil (d : Disk) (folder : Nat) : d.walk folder [] =
    match d.kind? folder with
    | some .folder => .ok folder
    | some _ => .error .notFolder
    | none => .error .notFound := by
  simp only [walk, kind?]
  cases d.items[folder]? with
  | none => rfl
  | some item => cases item <;> rfl

theorem walk_of_file (file : d.kind? n = some .file) (names : List String) : d.walk n names = .error .notFolder := by
  cases names with
  | nil => rw [walk_nil, file]
  | cons name rest => simp only [walk, child_of_file file]

end Kinds

/-! ## Spots and sites -/

section Spots

variable {d : Disk} {path : String} {folder : Nat} {name : String} {x : Site}

theorem spot?_eq_some : d.spot? path = some (folder, name) ↔
    ∃ p, d.locate path = .ok (folder, p) ∧ p.last = some name ∧ (isDots name || p.slash) = false := by
  unfold spot?
  cases located : d.locate path with
  | error e => simp
  | ok found =>
    obtain ⟨other, p⟩ := found
    cases last : p.last with
    | none => simp [last]
    | some key =>
      simp only [last, Except.ok.injEq, Prod.mk.injEq]
      constructor
      · intro found
        split at found
        · cases found
        · rename_i plain
          obtain ⟨rfl, rfl⟩ := Prod.mk.inj (Option.some.inj found)
          exact ⟨p, ⟨rfl, rfl⟩, last, Bool.eq_false_iff.mpr plain⟩
      · rintro ⟨q, ⟨rfl, rfl⟩, same, plain⟩
        obtain rfl := Option.some.inj (last.symm.trans same)
        rw [if_neg (Bool.eq_false_iff.mp plain)]

theorem folder_of_spot (spot : d.spot? path = some (folder, name)) :
    ∃ parent entries, d.items[folder]? = some (.folder parent entries) := by
  obtain ⟨_, located, _⟩ := spot?_eq_some.mp spot
  exact folder_of_locate located

theorem spot_bound (spot : d.spot? path = some (folder, name)) : folder < d.items.length := by
  obtain ⟨_, _, there⟩ := folder_of_spot spot
  exact (List.getElem?_eq_some_iff.mp there).1

/-- A site is a file that is found at the spot of a path, or the spot itself. -/
theorem site?_eq_some (site : d.site? path = some x) : ∃ folder name, d.spot? path = some (folder, name) ∧
    (x = .free folder name ∧ d.child folder name = .error .notFound ∨
      ∃ n bytes, x = .there n ∧ d.child folder name = .ok n ∧ d.contents? n = some bytes) := by
  unfold site? at site
  split at site
  · cases site
  · rename_i folder name spot
    refine ⟨folder, name, spot, ?_⟩
    split at site
    · rename_i n found
      split at site
      · rename_i file
        obtain ⟨bytes, file⟩ := Option.isSome_iff_exists.mp file
        exact .inr ⟨n, bytes, (Option.some.inj site).symm, found, file⟩
      · cases site
    · rename_i free
      exact .inl ⟨(Option.some.inj site).symm, free⟩
    · cases site

theorem site_in (site : d.site? path = some x) : x.In d := by
  obtain ⟨folder, name, spot, ⟨rfl, free⟩ | ⟨n, bytes, rfl, _, file⟩⟩ := site?_eq_some site
  · exact ⟨spot_bound spot, free⟩
  · exact ⟨bytes, file⟩

/-- An open at a spot: the thing that is found, or the file that is made. -/
theorem openFile_of_spot (spot : d.spot? path = some (folder, name)) (append : Bool) :
    d.openFile path append =
      match d.child folder name with
      | .error .notFound => .ok (⟨d.items.length, openMode append⟩, (d.create folder name (.file [])).2)
      | .error e => .error e
      | .ok n =>
        match d.items[n]? with
        | some (.file _) => .ok (⟨n, openMode append⟩, if append then d else d.set n (.file []))
        | some (.folder _ _) => .error .isFolder
        | some _ => .ok (⟨n, openMode append⟩, d)
        | none => .error .notFound := by
  obtain ⟨p, located, last, plain⟩ := spot?_eq_some.mp spot
  obtain ⟨parent, entries, there⟩ := folder_of_spot spot
  cases look : d.child folder name with
  | error e =>
    cases e <;> simp only [openFile, located, last, plain, look, Bool.false_eq_true, if_false, openMode, create, there]
  | ok n =>
    cases item : d.items[n]? with
    | none => simp only [openFile, located, last, plain, look, item, Bool.false_eq_true, if_false]
    | some thing =>
      cases thing <;> simp only [openFile, located, last, plain, look, item, Bool.false_eq_true, if_false, openMode]

theorem openFile_of_no_spot (none : d.spot? path = none) (append : Bool) :
    d.openFile path append =
      match d.locate path with
      | .error e => .error e
      | .ok _ => .error .isFolder := by
  unfold spot? at none
  unfold openFile
  cases located : d.locate path with
  | error e => rfl
  | ok found =>
    obtain ⟨folder, p⟩ := found
    simp only [located] at none ⊢
    cases last : p.last with
    | none => rfl
    | some name =>
      simp only [last] at none ⊢
      split at none
      · rename_i plain
        rw [if_pos plain]
      · cases none

/-- A file is under a name of its own. -/
theorem plain_of_file (sound : d.Sound) {parent n : Nat} {entries : List (String × Nat)}
    (isFolder : d.items[folder]? = some (.folder parent entries)) (found : d.child folder name = .ok n)
    (file : d.kind? n = some .file) : isDots name = false := by
  simp only [isDots, Bool.or_eq_false_iff, beq_eq_false_iff_ne]
  refine ⟨?_, ?_⟩
  · rintro rfl
    obtain rfl : folder = n := by simpa [child, isFolder] using found
    rw [kind?_of_item isFolder] at file
    cases file
  · rintro rfl
    rw [sound.up found] at file
    cases file

theorem plain_of_missing {parent : Nat} {entries : List (String × Nat)} {err : DiskError}
    (isFolder : d.items[folder]? = some (.folder parent entries)) (missing : d.child folder name = .error err) :
    isDots name = false := by
  simp only [isDots, Bool.or_eq_false_iff, beq_eq_false_iff_ne]
  constructor
  all_goals
    rintro rfl
    simp [child, isFolder] at missing

theorem read_of_locate {p : Path} (located : d.locate path = .ok (folder, p)) (last : p.last = some name) :
    (d.read path).toOption =
      match d.child folder name with
      | .error _ => none
      | .ok n =>
        match d.items[n]? with
        | some (.file bytes) => if p.slash then none else some bytes
        | some .null => if p.slash then none else some []
        | _ => none := by
  unfold read find
  simp only [located, last]
  cases d.child folder name with
  | error e => rfl
  | ok n =>
    dsimp only
    cases d.items[n]? with
    | none => rfl
    | some item => cases item <;> cases p.slash <;> rfl

end Spots

/-! ## Disks with another file, and with other bytes -/

theorem item?_free {d : Disk} {folder n : Nat} {name : String} :
    d.item? (.free folder name) = some n ↔ d.child folder name = .ok n := by
  cases look : d.child folder name <;> simp [item?, look, Except.toOption]

theorem KeepsNames.item? {d e : Disk} (kept : d.KeepsNames e) {x : Site} {n : Nat} (found : d.item? x = some n) :
    e.item? x = some n := by
  cases x with
  | there k => exact found
  | free folder name => exact item?_free.mpr (kept.child folder name n (item?_free.mp found))

section Set

variable {d : Disk} {n : Nat} {old : Bytes}

theorem length_set (d : Disk) (n : Nat) (item : Item) : (d.set n item).items.length = d.items.length := List.length_set

theorem kind?_set (file : d.contents? n = some old) (bytes : Bytes) (k : Nat) :
    (d.set n (.file bytes)).kind? k = d.kind? k := by
  have bound := contents?_bound file
  by_cases here : n = k
  · subst here
    rw [kind?_of_item (by rw [set_items bound, if_pos rfl]), kind?_of_item (contents?_eq_some.mp file)]
    rfl
  · simp only [kind?, set_items bound, if_neg here]

theorem item?_set (file : d.contents? n = some old) (bytes : Bytes) (x : Site) :
    (d.set n (.file bytes)).item? x = d.item? x := by
  cases x with
  | there k => rfl
  | free folder name => simp only [item?, child_set file]

end Set

section Create

variable {d : Disk} {folder parent : Nat} {entries : List (String × Nat)} {name : String}
  (there : d.items[folder]? = some (.folder parent entries))

include there

theorem length_create (name : String) (item : Item) :
    (d.create folder name item).2.items.length = d.items.length + 1 := by
  simp [create_of_folder there]

theorem kind?_create (name : String) (item : Item) {k : Nat} (inside : k < d.items.length) :
    (d.create folder name item).2.kind? k = d.kind? k := by
  by_cases here : k = folder
  · subst here
    rw [kind?_of_item (by rw [create_items there, if_pos rfl]), kind?_of_item there]
    rfl
  · simp only [kind?, create_items there, if_neg here, if_neg (Nat.ne_of_lt inside)]

theorem contents?_create {k : Nat} {bytes : Bytes} (file : d.contents? k = some bytes) (name : String) (item : Item) :
    (d.create folder name item).2.contents? k = some bytes := by
  have other : k ≠ folder := by
    rintro rfl
    rw [contents?_eq_some, there] at file
    cases file
  rw [contents?_eq_some, create_items there, if_neg other, if_neg (Nat.ne_of_lt (contents?_bound file))]
  exact contents?_eq_some.mp file

theorem contents?_create_next (name : String) (bytes : Bytes) :
    (d.create folder name (.file bytes)).2.contents? d.items.length = some bytes := by
  have bound := (List.getElem?_eq_some_iff.mp there).1
  rw [contents?_eq_some, create_items there, if_neg (Nat.ne_of_gt bound), if_pos rfl]

theorem child_create_file (free : d.child folder name = .error .notFound) (g : Nat) (y : String) :
    (d.create folder name (.file [])).2.child g y =
      if g = folder ∧ y = name then .ok d.items.length
      else if g = d.items.length then .error .notFolder
      else d.child g y := by
  by_cases spot : g = folder ∧ y = name
  · obtain ⟨rfl, rfl⟩ := spot
    rw [if_pos ⟨rfl, rfl⟩]
    exact child_create there free _
  · rw [if_neg spot]
    by_cases next : g = d.items.length
    · subst next
      rw [if_pos rfl]
      exact child_of_file (kind?_file.mpr ⟨[], contents?_create_next there name []⟩) y
    · rw [if_neg next]
      have items := create_items there name (.file [])
      by_cases here : g = folder
      · subst here
        have other : ¬ name = y := fun same => spot ⟨rfl, same.symm⟩
        have entry : entry? y (entries ++ [(name, d.items.length)]) = entry? y entries := by
          clear items there free
          induction entries with
          | nil => simp [ entry?, other]
          | cons e rest ih =>
            obtain ⟨key, i⟩ := e
            simp only [List.cons_append, entry?, ih]
        simp only [child, items, there, if_true, entry]
      · simp only [child, items, if_neg here, if_neg next]

end Create

/-- What has become of a disk when a file at a site has been made or written: the bytes there, and the rest as before. -/
structure Updated (base d d' : Disk) (x : Site) (bytes : Bytes) : Prop where
  grew : Grew base d'
  here : d'.bytes? x = some bytes
  aside : ∀ y, y.In base → y ≠ x → d'.item? y = d.item? y ∧ d'.bytes? y = d.bytes? y
  kept : ∀ y n, d.item? y = some n → d'.item? y = some n

namespace Grew

variable {base d e : Disk}

theorem refl (sound : base.Sound) : Grew base base where
  sound := sound
  names := .refl base
  longer := Nat.le_refl _
  kind _ _ := rfl
  made _ low high := absurd high (Nat.not_lt.mpr low)
  child found := .inl found
  refused _ found := found
  one low found _ := absurd (sound.child found) (Nat.not_lt.mpr low)

/-- What is under a name that was free has been made. -/
theorem child_free (grew : Grew base d) {folder n : Nat} {name : String} (free : base.child folder name = .error .notFound)
    (found : d.child folder name = .ok n) : base.items.length ≤ n ∧ n < d.items.length := by
  obtain old | ⟨_, low, high⟩ := grew.child found
  · rw [free] at old
    cases old
  · exact ⟨low, high⟩

theorem next_unnamed (grew : Grew base d) (folder : Nat) (name : String) : d.child folder name ≠ .ok d.items.length := by
  intro found
  obtain old | ⟨_, _, high⟩ := grew.child found
  · exact absurd (grew.sound.child old) (Nat.not_lt.mpr grew.longer)
  · exact absurd high (Nat.lt_irrefl _)

/-- At most one site leads to a thing. -/
theorem item_inj (grew : Grew base d) {x y : Site} (first : x.In base) (second : y.In base) {n : Nat}
    (here : d.item? x = some n) (there : d.item? y = some n) : x = y := by
  have old : ∀ {k}, (Site.there k).In base → k < base.items.length := by
    rintro k ⟨_, file⟩
    exact contents?_bound file
  have new : ∀ {folder name}, (Site.free folder name).In base → d.item? (.free folder name) = some n →
      base.items.length ≤ n :=
    fun free found => (grew.child_free free.2 (item?_free.mp found)).1
  cases x with
  | there k =>
    obtain rfl := Option.some.inj here
    cases y with
    | there j => rw [show j = k from Option.some.inj there]
    | free folder name => exact absurd (old first) (Nat.not_lt.mpr (new second there))
  | free folder name =>
    cases y with
    | there k =>
      obtain rfl := Option.some.inj there
      exact absurd (old second) (Nat.not_lt.mpr (new first here))
    | free folder' name' =>
      obtain ⟨rfl, rfl⟩ := grew.one (new first here) (item?_free.mp here) (item?_free.mp there)
      rfl

theorem file_at (grew : Grew base d) {x : Site} (inside : x.In base) {n : Nat} (found : d.item? x = some n) :
    ∃ bytes, d.contents? n = some bytes := by
  cases x with
  | there k =>
    obtain rfl := Option.some.inj found
    obtain ⟨bytes, file⟩ := inside
    exact kind?_file.mp ((grew.kind k (contents?_bound file)).trans (kind?_file.mpr ⟨bytes, file⟩))
  | free folder name =>
    obtain ⟨low, high⟩ := grew.child_free inside.2 (item?_free.mp found)
    exact grew.made n low high

theorem no_contents (grew : Grew base d) {n : Nat} (inside : n < base.items.length) (other : ¬ base.kind? n = some .file) :
    d.contents? n = none := by
  rw [Option.eq_none_iff_forall_ne_some]
  intro bytes file
  exact other ((grew.kind n inside).symm.trans (kind?_file.mpr ⟨bytes, file⟩))

theorem bytes?_isSome (grew : Grew base d) {x : Site} (inside : x.In base) :
    (d.bytes? x).isSome = (d.item? x).isSome := by
  unfold bytes?
  cases found : d.item? x with
  | none => rfl
  | some n =>
    obtain ⟨bytes, file⟩ := grew.file_at inside found
    rw [Option.bind_some, file]
    rfl

theorem set_file (grew : Grew base d) {n : Nat} {old : Bytes} (file : d.contents? n = some old) (bytes : Bytes) :
    Grew base (d.set n (.file bytes)) where
  sound := grew.sound
  names := grew.names.trans (.set file bytes)
  longer := by
    rw [length_set]
    exact grew.longer
  kind k low := (kind?_set file bytes k).trans (grew.kind k low)
  made k low high := by
    rw [length_set] at high
    rw [← kind?_file, kind?_set file, kind?_file]
    exact grew.made k low high
  child found := by
    rw [child_set file] at found
    rw [length_set]
    exact grew.child found
  refused low found := by
    rw [child_set file] at found
    exact grew.refused low found
  one low first second := by
    rw [child_set file] at first second
    exact grew.one low first second

theorem set (grew : Grew base d) {x : Site} (inside : x.In base) {n : Nat} (found : d.item? x = some n)
    (bytes : Bytes) : Updated base d (d.set n (.file bytes)) x bytes := by
  obtain ⟨old, file⟩ := grew.file_at inside found
  have bound := contents?_bound file
  have items := item?_set file bytes
  refine ⟨grew.set_file file bytes, ?_, ?_, fun y k there => (items y).trans there⟩
  · rw [bytes?, items, found, Option.bind_some, contents?_set bound, if_pos rfl]
  · intro y other apart
    refine ⟨items y, ?_⟩
    rw [bytes?, bytes?, items]
    cases there : d.item? y with
    | none => rfl
    | some k =>
      have different : n ≠ k := by
        rintro rfl
        exact apart (grew.item_inj other inside there found)
      rw [Option.bind_some, Option.bind_some, contents?_set bound, if_neg different]

theorem create_file (grew : Grew base d) {folder parent : Nat} {entries : List (String × Nat)} {name : String}
    (inside : (Site.free folder name).In base) (there : d.items[folder]? = some (.folder parent entries))
    (free : d.child folder name = .error .notFound) : Grew base (d.create folder name (.file [])).2 := by
  have longer := grew.longer
  have length := length_create there name (.file [])
  have child := child_create_file there free
  refine ⟨grew.sound, grew.names.trans (.create there _), by omega, ?_, ?_, ?_, ?_, ?_⟩
  · intro k low
    rw [kind?_create there _ _ (by omega)]
    exact grew.kind k low
  · intro k low high
    by_cases next : k = d.items.length
    · exact ⟨[], next ▸ contents?_create_next there name []⟩
    · obtain ⟨bytes, file⟩ := grew.made k low (by omega)
      exact ⟨bytes, contents?_create there file _ _⟩
  · intro g y k found
    rw [child] at found
    split at found
    · rename_i spot
      obtain rfl := Except.ok.inj found
      rw [spot.1, spot.2]
      exact .inr ⟨inside.2, longer, by omega⟩
    · split at found
      · cases found
      · exact (grew.child found).imp_right fun ⟨missing, low, high⟩ => ⟨missing, low, by omega⟩
  · intro g y e low found
    rw [child] at found
    split at found
    · cases found
    · rw [if_neg (by omega)] at found
      exact grew.refused low found
  · intro f x g y k low first second
    rw [child] at first second
    split at first
    · rename_i spot
      obtain rfl := Except.ok.inj first
      split at second
      · rename_i spot'
        exact ⟨spot.1.trans spot'.1.symm, spot.2.trans spot'.2.symm⟩
      · split at second
        · cases second
        · exact absurd second (grew.next_unnamed g y)
    · split at first
      · cases first
      · split at second
        · obtain rfl := Except.ok.inj second
          exact absurd first (grew.next_unnamed f x)
        · split at second
          · cases second
          · exact grew.one low first second

theorem create (grew : Grew base d) {folder : Nat} {name : String} (inside : (Site.free folder name).In base)
    (isFolder : d.kind? folder = some .folder) (free : d.child folder name = .error .notFound) :
    (d.create folder name (.file [])).2.item? (.free folder name) = some d.items.length ∧
      Updated base d (d.create folder name (.file [])).2 (.free folder name) [] := by
  obtain ⟨parent, entries, there⟩ := kind?_folder.mp isFolder
  have child := child_create_file there free
  have here : (d.create folder name (.file [])).2.item? (.free folder name) = some d.items.length := by
    rw [item?_free, child, if_pos ⟨rfl, rfl⟩]
  have aside : ∀ y, y.In base → y ≠ .free folder name →
      (d.create folder name (.file [])).2.item? y = d.item? y := by
    intro y other apart
    cases y with
    | there k => rfl
    | free g z =>
      have spot : ¬ (g = folder ∧ z = name) := by
        rintro ⟨rfl, rfl⟩
        exact apart rfl
      have known : g ≠ d.items.length := Nat.ne_of_lt (Nat.lt_of_lt_of_le other.1 grew.longer)
      rw [ item?, item?, child, if_neg spot, if_neg known]
  refine ⟨here, grew.create_file inside there free, ?_, ?_, fun y k found => (KeepsNames.create there _).item? found⟩
  · rw [bytes?, here, Option.bind_some, contents?_create_next there]
  · intro y other apart
    refine ⟨aside y other apart, ?_⟩
    rw [bytes?, bytes?, aside y other apart]
    cases found : d.item? y with
    | none => rfl
    | some k =>
      obtain ⟨bytes, file⟩ := grew.file_at other found
      rw [Option.bind_some, Option.bind_some, file, contents?_create there file]

/-! ## Following paths -/

/-- What is no longer found is still looked for: a refusal stays what it was, unless a file has been made there. -/
theorem child_of_error (grew : Grew base d) {folder : Nat} {name : String} {err : DiskError}
    (inside : folder < base.items.length) (missing : base.child folder name = .error err) :
    d.child folder name = .error err ∨
      err = .notFound ∧ ∃ n, d.child folder name = .ok n ∧ d.kind? n = some .file := by
  cases look : d.child folder name with
  | error e =>
    rw [grew.refused inside look] at missing
    exact .inl missing
  | ok n =>
    obtain old | ⟨free, low, high⟩ := grew.child look
    · rw [old] at missing
      cases missing
    · obtain rfl := Except.error.inj (free.symm.trans missing)
      exact .inr ⟨rfl, n, rfl, kind?_file.mpr (grew.made n low high)⟩

theorem no_bytes (grew : Grew base d) {folder : Nat} {name : String} {err : DiskError} (inside : folder < base.items.length)
    (missing : base.child folder name = .error err) (closed : err ≠ .notFound) :
    d.bytes? (.free folder name) = none := by
  obtain same | ⟨free, _⟩ := grew.child_of_error inside missing
  · rw [bytes?, item?, same]
    rfl
  · exact absurd free closed

/-- Names that lead to a folder led there from the start, because no folder is ever made. -/
theorem walk (grew : Grew base d) {names : List String} {folder n : Nat} (inside : folder < base.items.length) :
    d.walk folder names = .ok n ↔ base.walk folder names = .ok n := by
  refine ⟨fun found => ?_, grew.names.walk⟩
  induction names generalizing folder with
  | nil => rwa [walk_nil, ← grew.kind folder inside, ← walk_nil]
  | cons name rest ih =>
    simp only [Disk.walk] at found ⊢
    cases look : base.child folder name with
    | ok k =>
      rw [grew.names.child _ _ _ look] at found
      exact ih (grew.sound.child look) found
    | error err =>
      obtain same | ⟨_, k, made, file⟩ := grew.child_of_error inside look
      · rw [same] at found
        cases found
      · rw [made] at found
        simp only [walk_of_file file rest] at found
        cases found

/-- Two disks refuse names for the same reason if they agree on the files that have been made on the way. -/
theorem walk_agree (first : Grew base d) (second : Grew base e) {names : List String} {folder : Nat}
    (inside : folder < base.items.length) (agree : base.Agree d e (base.way folder names)) :
    d.walk folder names = e.walk folder names := by
  induction names generalizing folder with
  | nil => rw [walk_nil, walk_nil, first.kind folder inside, second.kind folder inside]
  | cons name rest ih =>
    simp only [Disk.walk]
    cases look : base.child folder name with
    | ok k =>
      rw [first.names.child _ _ _ look, second.names.child _ _ _ look]
      refine ih (first.sound.child look) fun g y free on => agree g y free ?_
      rw [way, look]
      exact List.mem_cons_of_mem _ on
    | error err =>
      obtain one | ⟨rfl, k, one, kind⟩ := first.child_of_error inside look
      · obtain other | ⟨rfl, j, other, _⟩ := second.child_of_error inside look
        · rw [one, other]
        · have same := agree folder name ⟨inside, look⟩ List.mem_cons_self
          simp [item?, one, other, Except.toOption] at same
      · obtain other | ⟨_, j, other, kind'⟩ := second.child_of_error inside look
        · have same := agree folder name ⟨inside, look⟩ List.mem_cons_self
          simp [item?, one, other, Except.toOption] at same
        · rw [one, other]
          simp only [walk_of_file kind, walk_of_file kind']

theorem start_bound (sound : base.Sound) (p : Path) :
    (if p.absolute then base.root else base.home) < base.items.length := by
  split
  · exact sound.root
  · exact sound.home

theorem locate (grew : Grew base d) {path : String} {found : Nat × Path} :
    d.locate path = .ok found ↔ base.locate path = .ok found := by
  obtain ⟨folder, p⟩ := found
  rw [locate_eq_ok, locate_eq_ok, grew.names.root, grew.names.home, grew.walk (start_bound grew.sound p)]

theorem locate_error (grew : Grew base d) {path : String} {err : DiskError} (refused : base.locate path = .error err) :
    ∃ other, d.locate path = .error other := by
  cases here : d.locate path with
  | error other => exact ⟨other, rfl⟩
  | ok found =>
    rw [grew.locate.mp here] at refused
    cases refused

theorem locate_agree (first : Grew base d) (second : Grew base e) {path : String}
    (agree : base.Agree d e (base.wayTo path)) : d.locate path = e.locate path := by
  unfold Disk.locate
  rw [first.names.root, first.names.home, second.names.root, second.names.home]
  simp only [walk_agree first second (start_bound first.sound (Path.ofString path)) agree]

theorem spot? (grew : Grew base d) (path : String) : d.spot? path = base.spot? path := by
  apply Option.ext
  rintro ⟨folder, name⟩
  simp only [spot?_eq_some, grew.locate]

/-! ## Opening, writing and reading -/

/-- Opening a path opens what is at its site, or makes it. -/
theorem openFile_site (grew : Grew base d) {path : String} {x : Site} (site : base.site? path = some x)
    (append : Bool) : ∃ n d', d.openFile path append = .ok (⟨n, openMode append⟩, d') ∧ d'.item? x = some n ∧
      Updated base d d' x (if append then (d.bytes? x).getD [] else []) := by
  have inside := site_in site
  -- What is there is kept or emptied.
  have opened : ∀ n, d.item? x = some n → ∃ bytes, d.items[n]? = some (.file bytes) ∧
      (if append then d else d.set n (.file [])).item? x = some n ∧
      Updated base d (if append then d else d.set n (.file [])) x (if append then (d.bytes? x).getD [] else []) := by
    intro n found
    obtain ⟨bytes, file⟩ := grew.file_at inside found
    refine ⟨bytes, contents?_eq_some.mp file, ?_⟩
    cases append with
    | false =>
      have set := grew.set inside found []
      exact ⟨set.kept x n found, set⟩
    | true =>
      have there : d.bytes? x = some bytes := by rw [bytes?, found, Option.bind_some, file]
      refine ⟨found, grew, ?_, fun y _ _ => ⟨rfl, rfl⟩, fun y k same => same⟩
      rw [if_pos rfl, if_pos rfl, there]
      rfl
  obtain ⟨folder, name, spot, ⟨rfl, free⟩ | ⟨n, bytes, rfl, found, file⟩⟩ := site?_eq_some site
  · have at' : d.spot? path = some (folder, name) := (grew.spot? path).trans spot
    obtain same | ⟨_, n, made, _⟩ := grew.child_of_error inside.1 free
    · have isFolder : d.kind? folder = some .folder := kind?_folder.mpr (folder_of_spot at')
      obtain ⟨here, updated⟩ := grew.create inside isFolder same
      refine ⟨d.items.length, _, ?_, here, ?_⟩
      · rw [openFile_of_spot at', same]
      · have nothing : d.bytes? (.free folder name) = none := by rw [bytes?, item?, same]; rfl
        rw [nothing]
        cases append <;> exact updated
    · obtain ⟨bytes, item, here, updated⟩ := opened n (by rw [ item?, made]; rfl)
      refine ⟨n, _, ?_, here, updated⟩
      rw [openFile_of_spot at', made]
      simp only [item]
  · have at' : d.spot? path = some (folder, name) := (grew.spot? path).trans spot
    obtain ⟨bytes, item, here, updated⟩ := opened n rfl
    refine ⟨n, _, ?_, here, updated⟩
    rw [openFile_of_spot at', grew.names.child _ _ _ found]
    simp only [item]

/-- A write to what is at a site changes the bytes there by those that were there. -/
theorem write_site (grew : Grew base d) {x : Site} (inside : x.In base) {n : Nat} (found : d.item? x = some n)
    (mode : Mode) (bytes : Bytes) : ∃ old, d.bytes? x = some old ∧
      (d.write ⟨n, mode⟩ bytes).1 = ⟨n, mode.past bytes⟩ ∧
      Updated base d (d.write ⟨n, mode⟩ bytes).2 x (mode.put old bytes) := by
  obtain ⟨old, file⟩ := grew.file_at inside found
  have item := contents?_eq_some.mp file
  refine ⟨old, by rw [bytes?, found, Option.bind_some, file], ?_⟩
  cases mode with
  | atEnd =>
    simp only [write, item]
    exact ⟨rfl, grew.set inside found _⟩
  | «at» offset =>
    simp only [write, item]
    exact ⟨rfl, grew.set inside found _⟩

theorem device (grew : Grew base d) {n : Nat} (device : base.IsDevice n) : d.IsDevice n := by
  rw [kind?_device, grew.kind n device.bound]
  exact kind?_device.mp device

theorem write_device (grew : Grew base d) {n : Nat} (device : base.IsDevice n) (mode : Mode) (bytes : Bytes) :
    d.write ⟨n, mode⟩ bytes = (⟨n, mode⟩, d) := by
  obtain there | there := grew.device device
  all_goals simp only [write, there]

theorem openFile_without_spot (first : Grew base d) (second : Grew base e) {path : String} (none : base.spot? path = none)
    (append : Bool) : base.Refused d e path append := by
  rw [Refused, openFile_of_no_spot ((first.spot? path).trans none), openFile_of_no_spot ((second.spot? path).trans none)]
  cases located : base.locate path with
  | ok found =>
    rw [first.locate.mpr located, second.locate.mpr located]
    exact ⟨_, _, rfl, rfl, fun _ => rfl⟩
  | error err =>
    obtain ⟨one, here⟩ := first.locate_error located
    obtain ⟨other, there⟩ := second.locate_error located
    refine ⟨one, other, by rw [here], by rw [there], fun agree => ?_⟩
    have same := first.locate_agree second agree
    rw [here, there] at same
    exact Except.error.inj same

/-- A path without a site leads to a device, or is refused. -/
theorem openFile_without_site (sound : base.Sound) {path : String} (none : base.site? path = none) (append : Bool) :
    (∃ n, base.IsDevice n ∧ ∀ d, Grew base d → d.openFile path append = .ok (⟨n, openMode append⟩, d)) ∨
      ∀ d e, Grew base d → Grew base e → base.Refused d e path append := by
  -- A reason that can be told from the first disk is the same on both.
  have told : ∀ reason, (∀ d, Grew base d → d.openFile path append = .error reason) →
      ∀ d e, Grew base d → Grew base e → base.Refused d e path append :=
    fun reason all d e first second => ⟨reason, reason, all d first, all e second, fun _ => rfl⟩
  cases spot : base.spot? path with
  | none => exact .inr fun d e first second => first.openFile_without_spot second spot append
  | some pair =>
    obtain ⟨folder, name⟩ := pair
    have low := spot_bound spot
    have opens : ∀ {d}, Grew base d → d.spot? path = some (folder, name) := fun grew => (grew.spot? path).trans spot
    simp only [site?, spot] at none
    cases look : base.child folder name with
    | error err =>
      rw [look] at none
      refine .inr (told err fun d grew => ?_)
      obtain same | ⟨rfl, _⟩ := grew.child_of_error low look
      · rw [openFile_of_spot (opens grew), same]
        cases err with
        | notFound => cases none
        | _ => rfl
      · cases none
    | ok n =>
      rw [look] at none
      obtain ⟨kind, there⟩ := kind?_isSome (sound.child look)
      have same : ∀ {d}, Grew base d → d.kind? n = some kind := fun grew => (grew.kind n (sound.child look)).trans there
      -- What is found is no file, since a file would have been the site.
      cases kind with
      | file =>
        obtain ⟨bytes, file⟩ := kind?_file.mp there
        simp [file] at none
      | folder =>
        refine .inr (told .isFolder fun d grew => ?_)
        obtain ⟨_, _, item⟩ := kind?_folder.mp (same grew)
        rw [openFile_of_spot (opens grew), grew.names.child _ _ _ look]
        simp only [item]
      | null =>
        refine .inl ⟨n, kind?_device.mpr (.inl there), fun d grew => ?_⟩
        rw [openFile_of_spot (opens grew), grew.names.child _ _ _ look]
        simp only [kind?_null.mp (same grew)]
      | full =>
        refine .inl ⟨n, kind?_device.mpr (.inr there), fun d grew => ?_⟩
        rw [openFile_of_spot (opens grew), grew.names.child _ _ _ look]
        simp only [kind?_full.mp (same grew)]

theorem read_refused (grew : Grew base d) {path : String} {err : DiskError} (refused : base.locate path = .error err) :
    (d.read path).toOption = none := by
  obtain ⟨other, located⟩ := grew.locate_error refused
  simp only [read, find, located]
  rfl

theorem read_folder (grew : Grew base d) {path : String} {folder : Nat} {p : Path}
    (located : base.locate path = .ok (folder, p)) (last : p.last = none) : (d.read path).toOption = none := by
  have located := grew.locate.mpr located
  obtain ⟨parent, entries, there⟩ := folder_of_locate located
  simp only [read, find, located, last, there]
  rfl

section Read

variable {path name : String} {folder : Nat} {p : Path} (located : base.locate path = .ok (folder, p))
  (last : p.last = some name)

include located last

theorem read_missing (grew : Grew base d) {err : DiskError} (missing : base.child folder name = .error err) :
    (d.read path).toOption = if p.slash then none else d.bytes? (.free folder name) := by
  obtain ⟨_, _, isFolder⟩ := folder_of_locate located
  rw [read_of_locate (grew.locate.mpr located) last]
  obtain same | ⟨_, n, made, file⟩ := grew.child_of_error (List.getElem?_eq_some_iff.mp isFolder).1 missing
  · rw [bytes?, item?, same]
    exact (ite_self _).symm
  · obtain ⟨bytes, file⟩ := kind?_file.mp file
    rw [bytes?, item?, made]
    simp only [contents?_eq_some.mp file, Except.toOption, Option.bind_some, file]

theorem read_found (grew : Grew base d) {n : Nat} (found : base.child folder name = .ok n) :
    (d.read path).toOption =
      if p.slash then none else if base.kind? n = some .null then some [] else d.contents? n := by
  obtain ⟨kind, there⟩ := kind?_isSome (grew.sound.child found)
  have same := (grew.kind n (grew.sound.child found)).trans there
  rw [read_of_locate (grew.locate.mpr located) last, grew.names.child _ _ _ found, there]
  cases kind with
  | file =>
    obtain ⟨bytes, file⟩ := kind?_file.mp same
    simp [contents?_eq_some.mp file, file]
  | folder =>
    obtain ⟨_, _, item⟩ := kind?_folder.mp same
    simp [item, contents?]
  | null => simp [kind?_null.mp same]
  | full => simp [kind?_full.mp same, contents?]

end Read

/-- Two disks with the same bytes at the site of a path give the same to its readers. -/
theorem read_agree (first : Grew base d) (second : Grew base e) {path : String}
    (same : ∀ x, base.site? path = some x → d.bytes? x = e.bytes? x) :
    (d.read path).toOption = (e.read path).toOption := by
  cases located : base.locate path with
  | error err => rw [first.read_refused located, second.read_refused located]
  | ok found =>
    obtain ⟨folder, p⟩ := found
    obtain ⟨_, _, isFolder⟩ := folder_of_locate located
    cases last : p.last with
    | none => rw [first.read_folder located last, second.read_folder located last]
    | some name =>
      have spot : ¬ p.slash = true → isDots name = false → base.spot? path = some (folder, name) :=
        fun slash plain => spot?_eq_some.mpr ⟨p, located, last, by rw [plain, Bool.eq_false_iff.mpr slash]; rfl⟩
      -- A file that is there or can be made is at the site of the path; what is read otherwise is not in a file.
      cases look : base.child folder name with
      | ok n =>
        rw [first.read_found located last look, second.read_found located last look]
        split
        · rfl
        · rename_i slash
          by_cases file : base.kind? n = some .file
          · obtain ⟨bytes, held⟩ := kind?_file.mp file
            have spot := spot slash (plain_of_file first.sound isFolder look file)
            rw [show d.contents? n = e.contents? n from same (.there n) (by simp [site?, spot, look, held])]
          · have inside := first.sound.child look
            rw [first.no_contents inside file, second.no_contents inside file]
      | error err =>
        rw [first.read_missing located last look, second.read_missing located last look]
        split
        · rfl
        · rename_i slash
          by_cases free : err = .notFound
          · have spot := spot slash (plain_of_missing isFolder look)
            exact same _ (by simp [site?, spot, look, free])
          · have low := (List.getElem?_eq_some_iff.mp isFolder).1
            rw [first.no_bytes low look free, second.no_bytes low look free]

end Grew

end LogFanout.Disk
