import LogFanout.Level

/- Records: what a sink receives.

   A record has a level, the node that it concerns (none for a message about everything) and a text that is already
   rendered. It is shown with the number of its node in front, in three digits.

   Correspondence:
     `LogRecord::new`, `LogRecord::for_node` ↔ `Record` without a node, and with one
     `LogRecord::fmt` (`to_string`)          ↔ `Record.display`
     `DefaultSink::format_line`              ↔ `Record.line`
     `LOGGING_STARTED`                       ↔ `Record.banner` -/
namespace LogFanout

/-- The number of a node of the network. -/
abbrev Node := UInt8

/-- A rendered message with its level and the node that it concerns. -/
structure Record where
  level : Level
  node : Option Node
  message : String
  deriving DecidableEq, Repr

/-- A number below a thousand in three digits. -/
def threeDigits (n : Nat) : String :=
  String.ofList [Nat.digitChar (n / 100), Nat.digitChar (n / 10 % 10), Nat.digitChar (n % 10)]

namespace Record

/-- The text that readers of the log see: the message, after the node it concerns. -/
def display (r : Record) : String :=
  match r.node with
  | none => r.message
  | some node => "Node" ++ threeDigits node.toNat ++ ", " ++ r.message

/-- The line of a log file that holds the record. `stamp` is the time that has passed since the first line. -/
def line (stamp : String) (r : Record) : String :=
  "[" ++ stamp ++ "] " ++ r.level.name ++ ": " ++ r.display ++ "\n"

/-- What a manager writes to its sinks when logging is switched on. -/
def banner : Record := ⟨.always, none, "Logging started"⟩

/-! ## How a record reads -/

/-- The text of a record as its readers know it: the message, behind `Node` and the number of the node in decimal, filled
    up with zeros to three digits, if there is one. -/
def reading (r : Record) : String :=
  match r.node with
  | none => r.message
  | some node => "Node" ++ String.ofList ((Nat.toDigits 10 node.toNat).leftpad 3 '0') ++ ", " ++ r.message

/-- What the line of a record holds, apart from the line feed at its end. -/
def heading (stamp : String) (r : Record) : String := "[" ++ stamp ++ "] " ++ r.level.name ++ ": " ++ r.reading

theorem threeDigits_eq : ∀ n < 256, threeDigits n = String.ofList ((Nat.toDigits 10 n).leftpad 3 '0') := by
  decide +kernel

theorem display_eq (r : Record) : r.display = r.reading := by
  obtain ⟨level, node, message⟩ := r
  cases node with
  | none => rfl
  | some node =>
    have digits := threeDigits_eq node.toNat node.toNat_lt
    simp only [display, reading, digits]

theorem line_eq (stamp : String) (r : Record) : r.line stamp = r.heading stamp ++ "\n" := by
  rw [line, heading, display_eq]

@[simp] theorem display_of_no_node (l : Level) (m : String) : display ⟨l, none, m⟩ = m := rfl

end Record
end LogFanout
