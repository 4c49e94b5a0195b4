import LogFanout.Text.Blank

/- Severity levels.

   Twelve levels stand in one order, from the quietest to the most talkative. A save level `s` keeps a message at
   level `m` when `m` is at or before `s`. Two of the twelve are not severities: `invalid` is what an unknown name
   reads as, and `internal` is reserved for messages of the manager itself.

   Correspondence:
     `Level::ALL`, `Level::name` ↔ `Level.all`, `Level.name`
     `logging_active`            ↔ `Level.activates`
     `should_forward`            ↔ `Level.keeps`
     `Level::from_name`          ↔ `Level.ofName`
     `Level::from_str`           ↔ `Level.ofName?`, with its error in `Level.parse`
     `Level::deserialize`        ↔ `Level.setting?` -/
namespace LogFanout

/-- The twelve levels, quietest first. -/
inductive Level where
  | invalid
  | protected none
  | always
  | fatal
  | error
  | warning
  | alert
  | info
  | detail
  | debug
  | streamDetail
  | internal
  deriving DecidableEq, Repr

namespace Level

/-- The level a new sink saves at when nobody says otherwise. -/
instance : Inhabited Level := ⟨.detail⟩

def all : List Level :=
  [.invalid, .none, .always, .fatal, .error, .warning, .alert, .info, .detail, .debug, .streamDetail, .internal]

/-- The place of a level in `all`. -/
def index : Level → Nat
  | .invalid => 0
  | .none => 1
  | .always => 2
  | .fatal => 3
  | .error => 4
  | .warning => 5
  | .alert => 6
  | .info => 7
  | .detail => 8
  | .debug => 9
  | .streamDetail => 10
  | .internal => 11

def name : Level → String
  | .invalid => "Invalid"
  | .none => "None"
  | .always => "Always"
  | .fatal => "Fatal"
  | .error => "Error"
  | .warning => "Warning"
  | .alert => "Alert"
  | .info => "Info"
  | .detail => "Detail"
  | .debug => "Debug"
  | .streamDetail => "StreamDetail"
  | .internal => "Internal"

def names : List String := all.map name

/-- A level is at or before another when it is no more talkative. -/
instance : LE Level := ⟨fun a b => a.index ≤ b.index⟩
instance : LT Level := ⟨fun a b => a.index < b.index⟩
instance (a b : Level) : Decidable (a ≤ b) := inferInstanceAs (Decidable (a.index ≤ b.index))
instance (a b : Level) : Decidable (a < b) := inferInstanceAs (Decidable (a.index < b.index))
instance : Ord Level := ⟨fun a b => compare a.index b.index⟩

/-! ## What a save level does -/

/-- Whether a save level means that logging is on at all: it has to lie above `always`. -/
def activates (save : Level) : Bool := decide (Level.always < save)

/-- Whether a sink that saves at `save` keeps a message at `level`. An invalid message is never kept, a sink that saves
    nothing keeps nothing, and any other sink keeps the manager's own messages and all up to its save level. -/
def keeps (save level : Level) : Bool :=
  if level = .invalid then false
  else if save = .invalid ∨ save = .none then false
  else if level = .internal then true
  else decide (level ≤ save)

/-- What a sink that saves at `save` has to keep, as one condition: no level is `invalid`, something is saved, and the
    message is the manager's own or at or before the save level. -/
def Admits (save level : Level) : Prop :=
  level ≠ .invalid ∧ save ≠ .invalid ∧ save ≠ .none ∧ (level = .internal ∨ level ≤ save)

instance (save level : Level) : Decidable (save.Admits level) :=
  inferInstanceAs (Decidable (level ≠ .invalid ∧ save ≠ .invalid ∧ save ≠ .none ∧ (level = .internal ∨ level ≤ save)))

theorem keeps_iff (save level : Level) : save.keeps level = true ↔ save.Admits level := by
  unfold keeps Admits
  by_cases unnamed : level = .invalid
  · simp [unnamed]
  · by_cases silent : save = .invalid ∨ save = .none
    · rcases silent with rfl | rfl <;> simp
    · obtain ⟨named, some⟩ := not_or.mp silent
      by_cases own : level = .internal
      · simp [own, named, some]
      · simp [unnamed, named, some, own]

theorem activates_iff (save : Level) : save.activates = true ↔ Level.always < save := decide_eq_true_iff

/-! ## Reading a name -/

/-- The level whose name is written in `text`, up to blanks around it and the case of ASCII letters; `invalid` if there
    is none. -/
def ofName (text : String) : Level :=
  (all.find? fun l => Text.sameLetters l.name.toList (Text.trim text.toList)).getD .invalid

/-- Reads a name that has to be one of the twelve: `none` unless a level has it. -/
def ofName? (text : String) : Option Level :=
  match ofName text with
  | .invalid =>
    if Text.sameLetters (Text.trim text.toList) "invalid".toList then some .invalid else Option.none
  | l => some l

/-- Reads a level that a sink can be set to: `invalid` is the outcome of a bad name and no setting. -/
def setting? (text : String) : Option Level :=
  match ofName text with
  | .invalid => Option.none
  | l => some l

end Level
end LogFanout
