import LogFanout.Proofs.RoundTrip

/- Options that were written in part, or with something behind them.

   A reader of tokens stops behind the last token and does not look further, so what has been read stays read when more is
   put behind it (`read_append`). Written options are read to their very end. A proper beginning of them is therefore
   never read: the same reading would go on into the whole, and would leave the missing part over. -/
namespace LogFanout

/-! ## Texts and bytes -/

namespace Text

/-- The encoding of the core library, as a list. -/
theorem utf8_toByteArray (s : String) : (utf8 s).toByteArray = s.toList.utf8Encode := rfl

/-- Bytes that are read as a text are the bytes of that text. -/
theorem utf8_of_ofUtf8? {bytes : Bytes} {s : String} (read : ofUtf8? bytes = some s) : utf8 s = bytes := by
  have same : s.toByteArray = ⟨bytes.toArray⟩ := by
    unfold ofUtf8? String.fromUTF8? at read
    split at read
    · cases read
      rfl
    · cases read
  calc utf8 s = s.toList.utf8Encode.data.toList := by rw [← utf8_toByteArray, List.data_toByteArray]
    _ = s.toByteArray.data.toList := by rw [← String.toByteArray_ofList, String.ofList_toList]
    _ = bytes := by rw [same]

theorem toList_prefix_of_utf8 {s t : String} (first : utf8 s <+: utf8 t) : s.toList <+: t.toList := by
  obtain ⟨more, joined⟩ := first
  apply List.isPrefix_of_utf8Encode_append_eq_utf8Encode more.toByteArray
  rw [← utf8_toByteArray, ← utf8_toByteArray, ← joined, List.toByteArray_append]

end Text

/-! ## More behind what has been read -/

namespace Json

/-- Tokens stay where they are when something is put behind the text. -/
theorem Tokens.append_right {ts : List Token} {s rest : List Char} (h : Tokens ts s rest) (x : List Char) :
    Tokens ts (s ++ x) (rest ++ x) := by
  induction h with
  | nil => exact .nil
  | @cons t ts blanks w s rest blank written more ih =>
    rw [List.append_assoc]
    exact .cons blank written ih

end Json

namespace Options

open Json (Blank)

theorem read_append {o : Options} {s rest : List Char} (h : read s = .ok (o, rest)) (x : List Char) :
    read (s ++ x) = .ok (o, rest ++ x) := by
  obtain ⟨tokens, entries, document, there, given⟩ := read_eq_ok.mp h
  exact read_eq_ok.mpr ⟨tokens, entries, document, there.append_right x, given⟩

theorem ofJson_eq_ok_read {text : List Char} {o : Options} :
    ofJson text = .ok o ↔ ∃ rest, read text = .ok (o, rest) ∧ Blank rest := by
  rw [ofJson_eq_ok]
  constructor
  · rintro ⟨tokens, entries, rest, document, there, blank, given⟩
    exact ⟨rest, read_eq_ok.mpr ⟨tokens, entries, document, there, given⟩, blank⟩
  · rintro ⟨rest, there, blank⟩
    obtain ⟨tokens, entries, document, there, given⟩ := read_eq_ok.mp there
    exact ⟨tokens, entries, rest, document, there, blank, given⟩

section Written

variable {o : Options} {j : List Char}

theorem read_written (written : o.toJson = .ok j) : read j = .ok (o, []) :=
  read_eq_ok.mpr (toJson_document written)

/-- A beginning of written options that is read is all of them. -/
theorem eq_of_read_beginning (written : o.toJson = .ok j) {p : List Char} (first : p <+: j) {o' : Options}
    (taken : ofJson p = .ok o') : p = j := by
  obtain ⟨missing, rfl⟩ := first
  obtain ⟨rest, there, _⟩ := ofJson_eq_ok_read.mp taken
  have twice := read_append there missing
  rw [read_written written] at twice
  have spare : rest ++ missing = [] := by
    injection twice with pair
    exact (Prod.mk.inj pair).2.symm
  rw [(List.append_eq_nil_iff.mp spare).2, List.append_nil]

theorem beginning_refused (written : o.toJson = .ok j) {p : List Char} (first : p <+: j) (proper : p ≠ j) :
    ∃ e, ofJson p = .error e := by
  cases taken : ofJson p with
  | error e => exact ⟨e, rfl⟩
  | ok o' => exact absurd (eq_of_read_beginning written first taken) proper

/-- The first bytes of written options are no text, or the beginning of the text. -/
theorem beginning_not_loaded (written : o.toJson = .ok j) {d : Disk} {path : String} {bytes : Text.Bytes}
    (there : d.find path = .ok (.file bytes)) (first : bytes <+: Text.utf8 (String.ofList j))
    (proper : bytes ≠ Text.utf8 (String.ofList j)) :
    load d path = .error (.disk .notText) ∨ ∃ e, load d path = .error (.options e) := by
  cases decoded : Text.ofUtf8? bytes with
  | none =>
    have unread : d.readText path = .error .notText := by
      simp only [Disk.readText, Disk.read, there, decoded]
    exact .inl (by simp only [load, unread])
  | some s =>
    obtain rfl := Text.utf8_of_ofUtf8? decoded
    have beginning : s.toList <+: j := by
      have whole := Text.toList_prefix_of_utf8 first
      rwa [String.toList_ofList] at whole
    have part : s.toList ≠ j := by
      intro whole
      apply proper
      rw [← whole, String.ofList_toList]
    obtain ⟨e, failed⟩ := beginning_refused written beginning part
    have known : load d path = (ofJson s.toList).mapError .options :=
      load_eq (by rw [String.ofList_toList]; exact there)
    refine .inr ⟨e, ?_⟩
    rw [known, failed]
    rfl

theorem ofJson_written_append (written : o.toJson = .ok j) (x : List Char) (o' : Options) :
    ofJson (j ++ x) = .ok o' ↔ Blank x ∧ o' = o := by
  have taken : read (j ++ x) = .ok (o, x) := read_append (read_written written) x
  rw [ofJson_eq_ok_read]
  constructor
  · rintro ⟨rest, there, blank⟩
    rw [taken] at there
    cases there
    exact ⟨blank, rfl⟩
  · rintro ⟨blank, rfl⟩
    exact ⟨x, taken, blank⟩

end Written

/-- Options are written unless their level is `invalid`. Of what is written, no proper beginning is read, neither as a
    text nor as the content of a file, which may also be cut within a character. With more behind it, it is read just
    when that is blank, and still as the options that were written. -/
theorem torn (o : Options) :
    (o.saveLevel ≠ .invalid → ∃ j, o.toJson = .ok j) ∧
      ∀ j, o.toJson = .ok j →
        (∀ p, p <+: j → p ≠ j → ∃ e : Json.Error, ofJson p = .error e) ∧
          (∀ (d : Disk) (path : String) (bytes : Text.Bytes), d.find path = .ok (.file bytes) →
            bytes <+: Text.utf8 (String.ofList j) → bytes ≠ Text.utf8 (String.ofList j) →
              load d path = .error (.disk .notText) ∨ ∃ e, load d path = .error (.options e)) ∧
          ∀ x, ((∃ o', ofJson (j ++ x) = .ok o') ↔ Blank x) ∧ (Blank x → ofJson (j ++ x) = .ok o) := by
  refine ⟨toJson_ok_iff.mpr, fun j written => ⟨?_, ?_, fun x => ⟨⟨?_, ?_⟩, ?_⟩⟩⟩
  · exact fun p first proper => beginning_refused written first proper
  · exact fun d path bytes there first proper => beginning_not_loaded written there first proper
  · rintro ⟨o', taken⟩
    exact ((ofJson_written_append written x o').mp taken).1
  · intro blank
    exact ⟨o, (ofJson_written_append written x o).mpr ⟨blank, rfl⟩⟩
  · intro blank
    exact (ofJson_written_append written x o).mpr ⟨blank, rfl⟩

end Options
end LogFanout
