import LogFanout.Proofs.Attempts
import LogFanout.Proofs.RoundTrip
import LogFanout.World

/- Records and the lines of a log file.

   A file sink writes a record as its heading (the time, the level, and what is displayed) with a line feed behind it.
   It takes the text of the record as it is, so a line feed in the text ends a line too.

   1. A sink that has opened its file to be emptied leaves the headings of the records that it keeps there, each with a
      line feed behind it (`FileSink.textAfter_eq`).
   2. The lines of that file are the pieces of the headings between their line feeds, record after record
      (`Record.lines_logText`): one for each record, and one more for each line feed in its text
      (`Record.length_lines_logText`). So the lines are the headings just if no text has a line feed
      (`Record.lines_logText_iff`).
   3. In that case the times, the levels and what is displayed can be read off the file (`Record.told_unique`).

   `line_per_record` puts these together, and `line_per_record_forged` is the other case: a single record leaves the
   file that two records would have left. -/
namespace LogFanout

namespace Text

/-! ## The lines of a text -/

/-- The pieces of a text between its line feeds. -/
def pieces (text : String) : List String := (text.toList.splitOn '\n').map String.ofList

/-- The lines of a text. What stands behind the last line feed is one of them, unless it is empty. -/
def lines (text : String) : List String :=
  if (pieces text).getLast? = some "" then (pieces text).dropLast else pieces text

theorem length_splitOn (c : Char) (s : List Char) : (s.splitOn c).length = s.count c + 1 := by
  induction s with
  | nil => rfl
  | cons d s ih =>
    rw [List.splitOn_cons_eq_if_modifyHead, List.count_cons]
    split
    · rw [List.length_cons, ih]
    · rw [List.length_modifyHead, ih]

theorem length_pieces (text : String) : (pieces text).length = text.toList.count '\n' + 1 := by
  rw [pieces, List.length_map, length_splitOn]

theorem pieces_of_no_feed {text : String} (clean : '\n' ∉ text.toList) : pieces text = [text] := by
  rw [pieces, List.splitOn_eq_singleton clean, List.map_singleton, String.ofList_toList]

theorem pieces_append_feed (a b : String) : pieces (a ++ "\n" ++ b) = pieces a ++ pieces b := by
  have text : (a ++ "\n" ++ b).toList = a.toList ++ '\n' :: b.toList := by simp
  rw [pieces, text, List.splitOn_append_cons_self, List.map_append]
  rfl

theorem lines_of_pieces {text : String} {ls : List String} (split : pieces text = ls ++ [""]) : lines text = ls := by
  rw [lines, split, List.getLast?_concat, if_pos rfl, List.dropLast_concat]

theorem utf8_join (ls : List String) : utf8 (String.join ls) = ls.flatMap utf8 := by
  rw [utf8, String.toList_join, List.flatMap_assoc]
  rfl

/-- There is one way only to divide a text at the first place where a mark stands. -/
theorem before_inj {c : Char} {a b x y : List Char} (first : c ∉ a) (second : c ∉ b)
    (same : a ++ c :: x = b ++ c :: y) : a = b ∧ x = y := by
  have split := congrArg (List.splitOn c) same
  rw [List.splitOn_append_cons_self_of_not_mem first, List.splitOn_append_cons_self_of_not_mem second] at split
  obtain rfl := (List.cons.inj split).1
  exact ⟨rfl, (List.cons.inj (List.append_cancel_left same)).2⟩

end Text

/-! ## The heading of a record -/

/-- A time as it may stand in front of a line: it neither ends the line nor closes the brackets around it. -/
def IsTime (stamp : String) : Prop := '\n' ∉ stamp.toList ∧ ']' ∉ stamp.toList

theorem Level.feed_not_mem_name (l : Level) : '\n' ∉ l.name.toList := by cases l <;> decide

theorem Level.colon_not_mem_name (l : Level) : ':' ∉ l.name.toList := by cases l <;> decide

theorem Level.name_inj {l k : Level} (same : l.name = k.name) : l = k := by
  rw [← Level.ofName_name l, same, Level.ofName_name]

theorem digitChar_ne_feed : ∀ n < 16, '\n' ≠ Nat.digitChar n := by decide

theorem feed_not_mem_threeDigits {n : Nat} (bound : n < 1000) : '\n' ∉ (threeDigits n).toList := by
  have hundreds := digitChar_ne_feed (n / 100) (by omega)
  have tens := digitChar_ne_feed (n / 10 % 10) (by omega)
  have ones := digitChar_ne_feed (n % 10) (by omega)
  simp [threeDigits, hundreds, tens, ones]

namespace Record

theorem count_feed_display (r : Record) : r.display.toList.count '\n' = r.message.toList.count '\n' := by
  obtain ⟨level, node, message⟩ := r
  cases node with
  | none => rfl
  | some node =>
    have bound : node.toNat < 1000 := Nat.lt_trans node.toNat_lt (by decide)
    have digits := List.count_eq_zero.mpr (feed_not_mem_threeDigits bound)
    simp [display, digits]

/-- A heading has the line feeds of the text of its record. -/
theorem count_feed_heading {stamp : String} (time : IsTime stamp) (r : Record) :
    (r.heading stamp).toList.count '\n' = r.message.toList.count '\n' := by
  have clock := List.count_eq_zero.mpr time.1
  have name := List.count_eq_zero.mpr r.level.feed_not_mem_name
  simp [heading, ← display_eq, clock, name, count_feed_display]

/-- The time, the level and what is displayed can be read off a heading. -/
theorem heading_inj {s t : String} {r q : Record} (first : IsTime s) (second : IsTime t)
    (same : r.heading s = q.heading t) : s = t ∧ r.level = q.level ∧ r.display = q.display := by
  have text : ∀ (s : String) (r : Record), (r.heading s).toList =
      '[' :: (s.toList ++ ']' :: ' ' :: (r.level.name.toList ++ ':' :: ' ' :: r.display.toList)) := by
    intro s r
    simp [heading, display_eq]
  have chars := congrArg String.toList same
  rw [text, text] at chars
  -- The first bracket ends the time, and the first colon behind it ends the name.
  obtain ⟨time, rest⟩ := Text.before_inj first.2 second.2 (List.cons.inj chars).2
  obtain ⟨name, display⟩ :=
    Text.before_inj r.level.colon_not_mem_name q.level.colon_not_mem_name (List.cons.inj rest).2
  exact ⟨String.toList_inj.mp time, Level.name_inj (String.toList_inj.mp name),
    String.toList_inj.mp (List.cons.inj display).2⟩

/-! ## The text of many records -/

/-- The text that records leave in an empty file. Each comes with the time at which it is written. -/
def logText (ws : List (String × Record)) : String := String.join (ws.map fun w => w.2.line w.1)

/-- What a line tells of a record: its time, its level, and what is displayed of it. -/
def told (w : String × Record) : String × Level × String := (w.1, w.2.level, w.2.display)

theorem pieces_logText (ws : List (String × Record)) :
    Text.pieces (logText ws) = (ws.flatMap fun w => Text.pieces (w.2.heading w.1)) ++ [""] := by
  induction ws with
  | nil => decide
  | cons w rest ih =>
    have text : logText (w :: rest) = w.2.heading w.1 ++ "\n" ++ logText rest := by
      rw [logText, List.map_cons, String.join_cons, line_eq, logText]
    rw [text, Text.pieces_append_feed, ih, List.flatMap_cons, List.append_assoc]

theorem lines_logText (ws : List (String × Record)) :
    Text.lines (logText ws) = ws.flatMap fun w => Text.pieces (w.2.heading w.1) :=
  Text.lines_of_pieces (pieces_logText ws)

section Times

variable {ws : List (String × Record)} (times : ∀ w ∈ ws, IsTime w.1)

include times

theorem length_lines_logText :
    (Text.lines (logText ws)).length = ws.length + (ws.flatMap fun w => w.2.message.toList).count '\n' := by
  rw [lines_logText]
  induction ws with
  | nil => rfl
  | cons w rest ih =>
    have time := times w List.mem_cons_self
    have later := ih fun w member => times w (List.mem_cons_of_mem _ member)
    rw [List.flatMap_cons, List.length_append, Text.length_pieces, count_feed_heading time, later, List.flatMap_cons,
      List.count_append, List.length_cons]
    omega

theorem lines_logText_iff :
    Text.lines (logText ws) = (ws.map fun w => w.2.heading w.1) ↔ ∀ w ∈ ws, '\n' ∉ w.2.message.toList := by
  constructor
  · intro same w member feed
    -- One line for each record leaves none for a line feed in a text.
    have count := length_lines_logText times
    rw [same, List.length_map] at count
    have none : (ws.flatMap fun w => w.2.message.toList).count '\n' = 0 := by omega
    exact List.count_eq_zero.mp none (List.mem_flatMap.mpr ⟨w, member, feed⟩)
  · intro clean
    have single : ∀ w ∈ ws, Text.pieces (w.2.heading w.1) = [w.2.heading w.1] := by
      intro w member
      apply Text.pieces_of_no_feed
      rw [← List.count_eq_zero, count_feed_heading (times w member), List.count_eq_zero]
      exact clean w member
    calc Text.lines (logText ws)
        = (ws.map fun w => Text.pieces (w.2.heading w.1)).flatten := by rw [lines_logText, List.flatMap_def]
      _ = (ws.map fun w => [w.2.heading w.1]).flatten := by rw [List.map_congr_left single]
      _ = ws.map fun w => w.2.heading w.1 := by rw [← List.flatMap_def, ← List.map_eq_flatMap]

theorem told_of_headings {others : List (String × Record)} (otherTimes : ∀ w ∈ others, IsTime w.1)
    (same : (others.map fun w => w.2.heading w.1) = ws.map fun w => w.2.heading w.1) :
    others.map told = ws.map told := by
  induction others generalizing ws with
  | nil =>
    obtain rfl := List.map_eq_nil_iff.mp same.symm
    rfl
  | cons v others ih =>
    cases ws with
    | nil => cases same
    | cons w ws =>
      obtain ⟨head, tail⟩ := List.cons.inj same
      obtain ⟨firstOther, otherTimes⟩ := List.forall_mem_cons.mp otherTimes
      obtain ⟨first, times⟩ := List.forall_mem_cons.mp times
      obtain ⟨time, level, display⟩ := heading_inj firstOther first head
      rw [List.map_cons, List.map_cons, ih times otherTimes tail, told, told, time, level, display]

/-- Records whose texts have no line feeds can be told from the file that they leave. -/
theorem told_unique {others : List (String × Record)} (otherTimes : ∀ w ∈ others, IsTime w.1)
    (clean : ∀ w ∈ ws, '\n' ∉ w.2.message.toList) (otherClean : ∀ w ∈ others, '\n' ∉ w.2.message.toList)
    (same : logText others = logText ws) : others.map told = ws.map told := by
  apply told_of_headings times otherTimes
  rw [← (lines_logText_iff otherTimes).mpr otherClean, same, (lines_logText_iff times).mpr clean]

end Times

end Record

/-! ## The file of a sink -/

namespace Disk

variable {d d' later : Disk} {path : String} {append : Bool} {h : Handle}

/-- A file that has been opened by a path is read by that path for as long as names stand for what they stood for. -/
theorem read_of_openFile (opened : d.openFile path append = .ok (h, d')) (kept : d'.KeepsNames later)
    {bytes : Text.Bytes} (file : later.contents? h.item = some bytes) : later.read path = .ok bytes := by
  obtain ⟨folder, p, name, located, last, there⟩ := place?_eq_some.mp (kept.place? (openFile_place opened))
  obtain ⟨_, first, _, before, last', _⟩ := openFile_ok opened
  obtain rfl : first = p := by rw [← (locate_eq_ok.mp before).2.1, ← (locate_eq_ok.mp located).2.1]
  -- A path with a slash behind its last name is not opened.
  have slash : first.slash = false := by
    cases slash : first.slash with
    | false => rfl
    | true =>
      simp only [openFile, before, last', slash, Bool.or_true, if_true] at opened
      cases opened
  simp only [read, find, located, last, there, contents?_eq_some.mp file, slash, Bool.false_eq_true, if_false]

theorem readText_of_read {d : Disk} {text : String} (bytes : d.read path = .ok (Text.utf8 text)) :
    d.readText path = .ok text := by
  simp only [readText, bytes, Text.ofUtf8?_utf8]

end Disk

namespace FileSink

theorem openFile_of_make {o : Options} {h : Host} {handle : Disk.Handle} (opened : (make o h).1.handle = some handle) :
    h.disk.openFile o.target o.append = .ok (handle, (make o h).2.disk) := by
  unfold make at opened ⊢
  split at opened
  · rename_i outcome
    obtain ⟨_, rfl, _⟩ | ⟨same, rfl, file⟩ := openTarget_ok outcome
    · cases opened
    · obtain rfl := Option.some.inj opened
      exact file
  · cases opened

/-- A file that has been opened to be emptied is empty. -/
theorem contents?_of_make {o : Options} {h : Host} {handle : Disk.Handle} (emptied : o.append = false)
    (opened : (make o h).1.handle = some handle) (regular : ¬ (make o h).2.disk.IsDevice handle.item) :
    (make o h).2.disk.contents? handle.item = some [] := by
  have file := openFile_of_make opened
  have mode := Disk.openFile_mode file
  obtain device | ⟨bytes, content, place⟩ := Disk.openFile_ready file
  · exact absurd device regular
  · -- A handle that is ready has the length of its file as its offset, and this one has none.
    rw [mode, emptied] at place
    obtain atEnd | offset := place
    · cases atEnd
    · obtain rfl := List.eq_nil_of_length_eq_zero (Disk.Mode.at.inj offset).symm
      exact content

theorem isOn_congr {f g : FileSink} (same : f.handle.map Disk.Handle.item = g.handle.map Disk.Handle.item) (n : Nat) :
    f.isOn n = g.isOn n := by
  have any : ∀ f : FileSink, f.isOn n = (f.handle.map Disk.Handle.item).any (· == n) := by
    intro f
    rw [Option.any_map]
    rfl
  rw [any, any, same]

def writesOf (ws : List (String × Record)) : List (String × Call) := ws.map fun w => (w.1, .write w.2)

/-- A sink that only writes stays on its file, so the lines of all records that are kept belong there. -/
theorem linesIn_writesOf {n : Nat} {f : FileSink} (on : f.isOn n = true) (ws : List (String × Record)) (level : Level)
    (h : Host) : linesIn n (writesOf ws) level f h =
      (ws.filter fun w => level.keeps w.2.level).map fun w => w.2.line w.1 := by
  induction ws generalizing f h with
  | nil => rfl
  | cons w rest ih =>
    have still : (f.receive w.1 (.write w.2) h).1.isOn n = true := by
      rw [isOn_congr (receive_write_item w.1 w.2 f h), on]
    calc linesIn n (writesOf (w :: rest)) level f h
        = Call.lines w.1 level (.write w.2) ++
            linesIn n (writesOf rest) level (f.receive w.1 (.write w.2) h).1 (f.receive w.1 (.write w.2) h).2 := by
          rw [writesOf, List.map_cons, linesIn, on, if_pos rfl]
          rfl
      _ = (if level.keeps w.2.level then [w.2.line w.1] else []) ++
            (rest.filter fun w => level.keeps w.2.level).map fun w => w.2.line w.1 := by
          rw [ih still, Call.lines_write]
      _ = ((w :: rest).filter fun w => level.keeps w.2.level).map fun w => w.2.line w.1 := by
          rw [List.filter_cons]
          split
          · rfl
          · rfl

/-- What is read at the target of a sink that has been made and has written records. -/
def textAfter (o : Options) (h : Host) (ws : List (String × Record)) : Except DiskError String :=
  ((make o h).1.receiveAll (writesOf ws) (make o h).2).2.disk.readText o.target

/-- A sink that has opened its file to be emptied leaves the lines of the records that it keeps there. -/
theorem textAfter_eq {o : Options} {h : Host} {handle : Disk.Handle} (emptied : o.append = false)
    (opened : (make o h).1.handle = some handle) (regular : ¬ (make o h).2.disk.IsDevice handle.item)
    (ws : List (String × Record)) :
    textAfter o h ws = .ok (Record.logText (ws.filter fun w => o.saveLevel.keeps w.2.level)) := by
  obtain ⟨_, ready, onTarget⟩ := make_extends o h
  obtain ⟨_, _, grown, _⟩ := receiveAll_extends (writesOf ws) _ _ ready onTarget
  have content := grown.old _ _ (contents?_of_make emptied opened regular)
  have level : (make o h).1.saveLevel = o.saveLevel := congrArg saveLevel (make_settings o h)
  have on : (make o h).1.isOn handle.item = true := by rw [isOn_of_handle opened, decide_eq_true rfl]
  rw [linesIn_writesOf on, level, List.nil_append, ← Text.utf8_join] at content
  exact Disk.readText_of_read (Disk.read_of_openFile (openFile_of_make opened) grown.names content)

end FileSink

/-- Records written to a file sink that has opened its target to be emptied, with the times at which they are written.
    The file holds the lines of the records that are kept. It has as many lines as there are such records and line feeds
    in their texts, record after record, and the lines are the headings of the records just if no text has a line feed.
    The records can be told from the file then: no others whose texts have no line feeds leave the same. -/
theorem line_per_record (o : Options) (h : Host) (handle : Disk.Handle) (writes : List (String × Record))
    (emptied : o.append = false) (opened : (FileSink.make o h).1.handle = some handle)
    (regular : ¬ (FileSink.make o h).2.disk.IsDevice handle.item) (times : ∀ w ∈ writes, IsTime w.1) :
    let kept := writes.filter fun w => o.saveLevel.keeps w.2.level
    let text := Record.logText kept
    FileSink.textAfter o h writes = .ok text ∧
      (Text.lines text = kept.flatMap fun w => Text.pieces (w.2.heading w.1)) ∧
      (Text.lines text).length = kept.length + (kept.flatMap fun w => w.2.message.toList).count '\n' ∧
      ((Text.lines text = kept.map fun w => w.2.heading w.1) ↔ ∀ w ∈ kept, '\n' ∉ w.2.message.toList) ∧
      ((∀ w ∈ kept, '\n' ∉ w.2.message.toList) →
        ∀ others : List (String × Record), (∀ w ∈ others, IsTime w.1 ∧ '\n' ∉ w.2.message.toList) →
          Record.logText others = text → others.map Record.told = kept.map Record.told) := by
  intro kept text
  have keptTimes : ∀ w ∈ kept, IsTime w.1 := fun w member => times w (List.mem_filter.mp member).1
  refine ⟨FileSink.textAfter_eq emptied opened regular writes, Record.lines_logText kept,
    Record.length_lines_logText keptTimes, Record.lines_logText_iff keptTimes, ?_⟩
  intro clean others good same
  exact Record.told_unique keptTimes (fun w member => (good w member).1) clean (fun w member => (good w member).2) same

/-- Two records are kept, one of them about a node. The one with a line feed is not, so it does no harm. -/
theorem line_per_record_skipped :
    let o : Options := ⟨"a", false, false, .info⟩
    let made := FileSink.make o Host.fresh
    let writes : List (String × Record) :=
      [("T", ⟨.info, none, "x"⟩), ("T", ⟨.debug, none, "no\nline"⟩), ("T", ⟨.error, some 5, "y"⟩)]
    (o.append = false ∧ made.1.handle = some ⟨5, .at 0⟩ ∧ ¬ made.2.disk.IsDevice 5 ∧ ∀ w ∈ writes, IsTime w.1) ∧
      ∃ text, FileSink.textAfter o Host.fresh writes = .ok text ∧
        Text.lines text = ["[T] Info: x", "[T] Error: Node005, y"] := by
  intro o made writes
  have opened : made.1.handle = some ⟨5, .at 0⟩ := by decide
  have file : made.2.disk.contents? 5 = some [] := by decide
  have regular : ¬ made.2.disk.IsDevice 5 := fun device => nomatch device.contents?.symm.trans file
  have times : ∀ w ∈ writes, IsTime w.1 := by simp [writes, IsTime]
  refine ⟨⟨rfl, opened, regular, times⟩, ?_⟩
  obtain ⟨read, _, _, lines, _⟩ := line_per_record o Host.fresh ⟨5, .at 0⟩ writes rfl opened regular times
  refine ⟨_, read, ?_⟩
  rw [lines.mpr (by decide)]
  decide

/-- A text with a line feed: one record leaves the file that two would have left, with the heading of the second. -/
theorem line_per_record_forged :
    let o : Options := ⟨"a", false, false, .info⟩
    let made := FileSink.make o Host.fresh
    let forged : List (String × Record) := [("T", ⟨.info, none, "x\n[T] Error: y"⟩)]
    let honest : List (String × Record) := [("T", ⟨.info, none, "x"⟩), ("T", ⟨.error, none, "y"⟩)]
    let text := "[T] Info: x\n[T] Error: y\n"
    (made.1.handle = some ⟨5, .at 0⟩ ∧ made.2.disk.contents? 5 = some []) ∧
      (forged.filter fun w => o.saveLevel.keeps w.2.level) = forged ∧
      FileSink.textAfter o Host.fresh forged = .ok text ∧
      Text.lines text = ["[T] Info: x", "[T] Error: y"] ∧ (Text.lines text).length ≠ forged.length ∧
      FileSink.textAfter o Host.fresh honest = .ok text := by
  intro o made forged honest text
  have opened : made.1.handle = some ⟨5, .at 0⟩ := by decide
  have file : made.2.disk.contents? 5 = some [] := by decide
  have regular : ¬ made.2.disk.IsDevice 5 := fun device => nomatch device.contents?.symm.trans file
  have one : FileSink.textAfter o Host.fresh forged = .ok text :=
    (FileSink.textAfter_eq rfl opened regular forged).trans (congrArg Except.ok (by decide))
  have two : FileSink.textAfter o Host.fresh honest = .ok text :=
    (FileSink.textAfter_eq rfl opened regular honest).trans (congrArg Except.ok (by decide))
  have lines : Text.lines text = ["[T] Info: x", "[T] Error: y"] := by decide
  refine ⟨⟨opened, file⟩, ?_, one, lines, ?_, two⟩
  · decide
  · rw [lines]
    decide

end LogFanout
