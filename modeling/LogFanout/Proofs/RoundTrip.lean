import LogFanout.Options.Load
import LogFanout.Options.Writer
import LogFanout.Proofs.Document

/- Writing options and reading them back.

   What is written is a document of all four options (`toJson_describes`), so it is read as the options that were written.
   The one thing that cannot be written, the level `invalid`, is also the one thing that is never read
   (`Describes.valid`). -/
namespace LogFanout

namespace Json

theorem hexDigit_digit {n : Nat} (bound : n < 16) : Digit (hexDigit n) n := ⟨bound, .inl rfl⟩

theorem spelling_escapeChar (c : Char) : Spelling c (escapeChar c) := by
  unfold escapeChar
  -- seven characters have a letter of their own
  iterate 7
    split
    · rename_i same
      subst same
      exact .short (by decide)
  split
  · have zero : Digit '0' 0 := hexDigit_digit (by omega)
    have quad := Quad.mk zero zero (hexDigit_digit (n := c.toNat / 16) (by omega))
      (hexDigit_digit (n := c.toNat % 16) (by omega))
    have value : ((0 * 16 + 0) * 16 + c.toNat / 16) * 16 + c.toNat % 16 = c.toNat := by omega
    rw [value] at quad
    exact .number quad
  · exact .itself ‹_› ‹_› (by omega)

theorem spells_escape (s : List Char) : Spells s (escape s) := by
  induction s with
  | nil => exact .nil
  | cons c s ih => exact .cons (spelling_escapeChar c) ih

theorem written_literal (s : String) : Token.Written (.text s) (literal s) := .text (spells_escape s.toList)

theorem tokens_written {t : Token} {w : List Char} (written : t.Written w) (s : List Char) : Tokens [t] (w ++ s) s :=
  .cons (fun _ none => absurd none List.not_mem_nil) written .nil

end Json

theorem Level.ofName_name (l : Level) : ofName l.name = l := by
  cases l <;> decide

theorem Text.ofUtf8?_utf8 (s : String) : ofUtf8? (utf8 s) = some s := by
  have bytes : (⟨(utf8 s).toArray⟩ : ByteArray) = s.toByteArray := by
    calc (⟨(utf8 s).toArray⟩ : ByteArray)
        = s.toList.utf8Encode := ByteArray.ext List.data_toByteArray.symm
      _ = s.toByteArray := by rw [← String.toByteArray_ofList, String.ofList_toList]
  simp [ofUtf8?, String.fromUTF8?, String.fromUTF8, bytes, s.isValidUTF8]

namespace Options

open Json (Token Tokens tokens_append tokens_mark tokens_written written_literal)

/-! ## What is written -/

def entries (o : Options) (valid : o.saveLevel ≠ .invalid) : List Entry :=
  [⟨.target o.target, _, .target o.target⟩, ⟨.append o.append, _, .append o.append⟩,
    ⟨.console o.console, _, .console o.console⟩,
    ⟨.saveLevel o.saveLevel, _, .saveLevel (Level.ofName_name o.saveLevel) valid⟩]

theorem written_boolean (b : Bool) : Token.Written (.truth b) (boolean b) := by
  cases b
  · exact .no
  · exact .yes

theorem given_entries {o : Options} (valid : o.saveLevel ≠ .invalid) : Given (o.entries valid) o := by
  constructor
  · simp [entries, Entry.field, Setting.field, setting]
  · intro f missing
    exact absurd (by cases f <;> simp [entries, Entry.field, Setting.field]) missing

theorem tokens_member_written {e : Entry} {value : List Char} (written : e.token.Written value) (s : List Char) :
    Tokens e.member (member e.field value ++ s) s := by
  rw [tokens_member]
  refine ⟨[':'] ++ value ++ s, value ++ s, ?_, tokens_written (.mark .colon) _, tokens_written written s⟩
  have parts : member e.field value ++ s = Json.literal e.field.name ++ ([':'] ++ value ++ s) := by
    simp [member]
  rw [parts]
  exact tokens_written (written_literal e.field.name) _

/-- All options can be written but those with the level `invalid`. -/
theorem toJson_ok_iff {o : Options} : (∃ text, o.toJson = .ok text) ↔ o.saveLevel ≠ .invalid := by
  by_cases invalid : o.saveLevel = .invalid
  · simp [toJson, Level.toJson, invalid, bind, Except.bind]
  · simp [toJson, Level.toJson, invalid, bind, Except.bind, pure, Except.pure]

/-- What is written, with its pieces nested to the right. -/
theorem toJson_eq_ok {o : Options} {text : List Char} (written : o.toJson = .ok text) :
    text = ['\x7b'] ++ (member .target (Json.literal o.target) ++ ([','] ++ (member .append (boolean o.append) ++
      ([','] ++ (member .console (boolean o.console) ++ ([','] ++
        (member .saveLevel (Json.literal o.saveLevel.name) ++ (['\x7d'] ++ [])))))))) := by
  have valid : o.saveLevel ≠ .invalid := toJson_ok_iff.mp ⟨text, written⟩
  simp only [toJson, Level.toJson, if_neg valid, bind, Except.bind, pure, Except.pure, Except.ok.injEq] at written
  rw [← written]
  simp

theorem tokens_member_comma {e : Entry} {value : List Char} (written : e.token.Written value) {ts : List Token}
    {s rest : List Char} (more : Tokens ts s rest) :
    Tokens (e.member ++ .mark .comma :: ts) (member e.field value ++ ([','] ++ s)) rest := by
  have comma : Tokens (.mark .comma :: ts) ([','] ++ s) rest :=
    tokens_append.mpr ⟨s, tokens_written (.mark .comma) s, more⟩
  exact tokens_append.mpr ⟨_, tokens_member_written written _, comma⟩

/-- What is written is a document of the options that were written, with nothing behind it. -/
theorem toJson_document {o : Options} {text : List Char} (written : o.toJson = .ok text) :
    ∃ tokens entries, Document tokens entries ∧ Tokens tokens text [] ∧ Given entries o := by
  have valid : o.saveLevel ≠ .invalid := toJson_ok_iff.mp ⟨text, written⟩
  have distinct : ((o.entries valid).map Entry.field).Nodup := by
    simp [entries, Entry.field, Setting.field]
  refine ⟨_, o.entries valid, .object distinct, ?_, given_entries valid⟩
  rw [toJson_eq_ok written, List.cons_append, tokens_mark]
  refine ⟨_, rfl, tokens_append.mpr ⟨_, ?_, tokens_written (.mark .closeObject) []⟩⟩
  simp only [entries, List.map_cons, List.map_nil, separated_cons_cons]
  apply tokens_member_comma (written_literal o.target)
  apply tokens_member_comma (written_boolean o.append)
  apply tokens_member_comma (written_boolean o.console)
  rw [separated, List.intercalate_singleton]
  exact tokens_member_written (written_literal o.saveLevel.name) _

theorem toJson_describes {o : Options} {text : List Char} (written : o.toJson = .ok text) : Describes text o := by
  obtain ⟨tokens, entries, document, there, given⟩ := toJson_document written
  exact ⟨tokens, entries, [], document, there, fun _ none => absurd none List.not_mem_nil, given⟩

/-! ## What is read -/

/-- The level `invalid` is in no document, and it is no default. -/
theorem Describes.valid {text : List Char} {o : Options} (h : Describes text o) : o.saveLevel ≠ .invalid := by
  obtain ⟨_, entries, _, _, _, _, given⟩ := h
  by_cases there : Field.saveLevel ∈ entries.map Entry.field
  · obtain ⟨⟨g, token, said⟩, member, field⟩ := List.mem_map.mp there
    have same := given.given _ member
    cases said with
    | saveLevel named valid =>
      simp only [Entry.field, Setting.field, setting, Setting.saveLevel.injEq] at same
      rw [same]
      exact valid
    | target => cases field
    | append => cases field
    | console => cases field
  · have default := given.missing .saveLevel there
    simp only [setting, Setting.saveLevel.injEq] at default
    rw [default]
    decide

/-! ## The round trip -/

theorem load_eq {d : Disk} {path : String} {text : List Char}
    (there : d.find path = .ok (.file (Text.utf8 (String.ofList text)))) :
    load d path = (ofJson text).mapError .options := by
  have read : d.readText path = .ok (String.ofList text) := by
    simp only [Disk.readText, Disk.read, there, Text.ofUtf8?_utf8]
  simp only [load, read, String.toList_ofList]

/-- Options can be written unless their level is `invalid`. What has been written is read as the options that were
    written, from a text and from a file. Whatever has been read can be written, and is read again. -/
theorem round_trip (o : Options) :
    ((∃ text, o.toJson = .ok text) ↔ o.saveLevel ≠ .invalid) ∧
      (∀ text, o.toJson = .ok text → ofJson text = .ok o ∧
        ∀ (d : Disk) (path : String), d.find path = .ok (.file (Text.utf8 (String.ofList text))) →
          load d path = .ok o) ∧
      ∀ text, ofJson text = .ok o → ∃ text', o.toJson = .ok text' ∧ ofJson text' = .ok o := by
  have back {text : List Char} (written : o.toJson = .ok text) : ofJson text = .ok o :=
    ofJson_eq_ok.mpr (toJson_describes written)
  refine ⟨toJson_ok_iff, fun text written => ⟨back written, fun d path there => ?_⟩, fun text read => ?_⟩
  · rw [load_eq there, back written]
    rfl
  · obtain ⟨text', written⟩ := toJson_ok_iff.mpr (ofJson_eq_ok.mp read).valid
    exact ⟨text', written, back written⟩

end Options
end LogFanout
