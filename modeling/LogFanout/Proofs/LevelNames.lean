import LogFanout.Error
import LogFanout.Proofs.RoundTrip
import Mathlib.Data.List.Forall2

/- The names of levels, as they may be typed.

   A level is named by a text that is its name up to blanks around it and the case of ASCII letters (`Spelled`). Both
   are said here without the functions that take blanks off and compare letters. The reading of a name sees only the
   trimmed text in lower case, and trimming and lower case commute (`trim_lower`), because no letter in another case is a
   blank. So two texts with the same such form name the same level (`Level.ofName_congr`), and as every level is
   named by its own name, no text names two. -/
namespace LogFanout

namespace Text

/-! ## Blanks -/

/-- The code points of the Unicode property White_Space. -/
def whiteSpace : List Nat :=
  [0x09, 0x0A, 0x0B, 0x0C, 0x0D, 0x20, 0x85, 0xA0, 0x1680, 0x2000, 0x2001, 0x2002, 0x2003, 0x2004, 0x2005, 0x2006,
    0x2007, 0x2008, 0x2009, 0x200A, 0x2028, 0x2029, 0x202F, 0x205F, 0x3000]

def Blanks (s : List Char) : Prop := ∀ c ∈ s, c.toNat ∈ whiteSpace

def Padded (s n : List Char) : Prop := ∃ u v, s = u ++ n ++ v ∧ Blanks u ∧ Blanks v

theorem isBlank_iff {c : Char} : isBlank c = true ↔ c.toNat ∈ whiteSpace := by
  have controls {n : Nat} : 0x09 ≤ n ∧ n ≤ 0x0D ↔ n = 0x09 ∨ n = 0x0A ∨ n = 0x0B ∨ n = 0x0C ∨ n = 0x0D := by omega
  have spaces {n : Nat} : 0x2000 ≤ n ∧ n ≤ 0x200A ↔
      n = 0x2000 ∨ n = 0x2001 ∨ n = 0x2002 ∨ n = 0x2003 ∨ n = 0x2004 ∨ n = 0x2005 ∨ n = 0x2006 ∨ n = 0x2007 ∨
        n = 0x2008 ∨ n = 0x2009 ∨ n = 0x200A := by omega
  simp only [isBlank, whiteSpace, Bool.or_eq_true, Bool.and_eq_true, decide_eq_true_eq, beq_iff_eq, List.mem_cons,
    List.not_mem_nil, or_false, controls, spaces, or_assoc]

theorem isBlank_of_blanks {s : List Char} (blanks : Blanks s) : ∀ c ∈ s, isBlank c = true :=
  fun c member => isBlank_iff.mpr (blanks c member)

theorem trimEnd_blanks {v : List Char} (blanks : Blanks v) : trimEnd v = [] := by
  induction v with
  | nil => rfl
  | cons c v ih =>
    have rest : trimEnd v = [] := ih fun d member => blanks d (List.mem_cons_of_mem c member)
    have first : isBlank c = true := isBlank_of_blanks blanks c List.mem_cons_self
    simp [trimEnd, rest, first]

theorem trimEnd_append {v : List Char} (blanks : Blanks v) (s : List Char) : trimEnd (s ++ v) = trimEnd s := by
  induction s with
  | nil => simpa [trimEnd] using trimEnd_blanks blanks
  | cons c s ih => simp only [List.cons_append, trimEnd, ih]

theorem trim_append {u v : List Char} (front : Blanks u) (back : Blanks v) (s : List Char) :
    trim (u ++ s ++ v) = trim s := by
  rw [trim, List.append_assoc, List.dropWhile_append_of_pos (isBlank_of_blanks front), List.dropWhile_append]
  split
  · rename_i nothing
    have gone : v.dropWhile isBlank = [] := by
      rw [← List.append_nil v, List.dropWhile_append_of_pos (isBlank_of_blanks back)]
      rfl
    rw [gone, trim, List.isEmpty_iff.mp nothing]
  · exact trimEnd_append back _

theorem exists_trimEnd (s : List Char) : ∃ v, Blanks v ∧ s = trimEnd s ++ v := by
  induction s with
  | nil => exact ⟨[], by simp [Blanks], rfl⟩
  | cons c s ih =>
    obtain ⟨v, blanks, parts⟩ := ih
    simp only [trimEnd]
    split
    · rename_i nothing
      rw [nothing, List.nil_append] at parts
      subst parts
      split
      · rename_i first
        refine ⟨c :: s, ?_, rfl⟩
        simpa [Blanks] using ⟨isBlank_iff.mp first, blanks⟩
      · exact ⟨s, blanks, rfl⟩
    · exact ⟨v, blanks, by rw [List.cons_append, ← parts]⟩

theorem padded_trim (s : List Char) : Padded s (trim s) := by
  obtain ⟨v, back, parts⟩ := exists_trimEnd (s.dropWhile isBlank)
  refine ⟨s.takeWhile isBlank, v, ?_, ?_, back⟩
  · calc s = s.takeWhile isBlank ++ s.dropWhile isBlank := List.takeWhile_append_dropWhile.symm
      _ = s.takeWhile isBlank ++ (trim s ++ v) := by rw [trim, ← parts]
      _ = s.takeWhile isBlank ++ trim s ++ v := (List.append_assoc _ _ _).symm
  · intro c member
    exact isBlank_iff.mp (List.all_eq_true.mp List.all_takeWhile c member)

theorem trim_of_padded {s n : List Char} (padded : Padded s n) : trim s = trim n := by
  obtain ⟨u, v, rfl, front, back⟩ := padded
  exact trim_append front back n

/-! ## Letters -/

/-- The same character, or the same ASCII letter in the other case. -/
def SameLetter (c d : Char) : Prop :=
  c = d ∨ ∃ k < 26, (c.toNat = 65 + k ∧ d.toNat = 97 + k) ∨ (c.toNat = 97 + k ∧ d.toNat = 65 + k)

/-- The same text, up to the case of ASCII letters. -/
def SameText (a b : List Char) : Prop := List.Forall₂ SameLetter a b

def lower (s : List Char) : List Char := s.map Char.toLower

theorem toLower_toNat (c : Char) :
    c.toLower.toNat = if 65 ≤ c.toNat ∧ c.toNat ≤ 90 then c.toNat + 32 else c.toNat := by
  have marks : ('A'.val ≤ c.val ∧ c.val ≤ 'Z'.val) ↔ 65 ≤ c.toNat ∧ c.toNat ≤ 90 := Iff.rfl
  unfold Char.toLower
  simp only [ge_iff_le, marks]
  split
  · rename_i capital
    show (c.val + ('a'.val - 'A'.val)).toNat = c.toNat + 32
    have number : c.val.toNat = c.toNat := rfl
    have step : ('a'.val - 'A'.val).toNat = 32 := by decide
    rw [UInt32.toNat_add, number, step]
    omega
  · rfl

theorem sameLetter_iff {c d : Char} : SameLetter c d ↔ c.toLower = d.toLower := by
  rw [← Char.toNat_inj, toLower_toNat, toLower_toNat]
  constructor
  · rintro (rfl | ⟨k, bound, ⟨hc, hd⟩ | ⟨hc, hd⟩⟩)
    · rfl
    · rw [hc, hd, if_pos (by omega), if_neg (by omega)]
      omega
    · rw [hc, hd, if_neg (by omega), if_pos (by omega)]
      omega
  · intro same
    by_cases capital : 65 ≤ c.toNat ∧ c.toNat ≤ 90
    · rw [if_pos capital] at same
      by_cases other : 65 ≤ d.toNat ∧ d.toNat ≤ 90
      · rw [if_pos other] at same
        exact .inl (Char.toNat_inj.mp (by omega))
      · rw [if_neg other] at same
        exact .inr ⟨c.toNat - 65, by omega, .inl (by omega)⟩
    · rw [if_neg capital] at same
      by_cases other : 65 ≤ d.toNat ∧ d.toNat ≤ 90
      · rw [if_pos other] at same
        exact .inr ⟨d.toNat - 65, by omega, .inr (by omega)⟩
      · rw [if_neg other] at same
        exact .inl (Char.toNat_inj.mp same)

theorem sameText_iff {a b : List Char} : SameText a b ↔ lower a = lower b := by
  rw [lower, lower, ← List.forall₂_eq_eq_eq, List.forall₂_map_left_iff, List.forall₂_map_right_iff]
  simp only [SameText, ← sameLetter_iff]

theorem sameLetters_iff {a b : List Char} : sameLetters a b = true ↔ SameText a b := by
  rw [sameText_iff, sameLetters, beq_iff_eq, lower, lower]

/-- White space lies apart from the letters that have a case. -/
theorem whiteSpace_apart : ∀ n ∈ whiteSpace, n < 65 ∨ 122 < n := by decide

/-- A letter in another case is no blank, and a blank has no case. -/
theorem isBlank_toLower (c : Char) : isBlank c.toLower = isBlank c := by
  rw [Bool.eq_iff_iff, isBlank_iff, isBlank_iff, toLower_toNat]
  split
  · constructor
    · intro blank
      have := whiteSpace_apart _ blank
      omega
    · intro blank
      have := whiteSpace_apart _ blank
      omega
  · exact Iff.rfl

theorem trimEnd_lower (s : List Char) : trimEnd (lower s) = lower (trimEnd s) := by
  induction s with
  | nil => rfl
  | cons c s ih =>
    have again : trimEnd (s.map Char.toLower) = lower (trimEnd s) := ih
    simp only [lower, List.map_cons, trimEnd, again, isBlank_toLower]
    cases trimEnd s with
    | nil =>
      show (if isBlank c then [] else [c.toLower]) = (if isBlank c then [] else [c]).map Char.toLower
      split <;> rfl
    | cons d kept => rfl

theorem trim_lower (s : List Char) : trim (lower s) = lower (trim s) := by
  have blank : isBlank ∘ Char.toLower = isBlank := funext isBlank_toLower
  rw [trim, trim, ← trimEnd_lower, lower, lower, List.dropWhile_map, blank]

theorem lower_trim_congr {a b : List Char} (same : SameText a b) : lower (trim a) = lower (trim b) := by
  rw [← trim_lower, ← trim_lower, sameText_iff.mp same]

end Text

namespace Level

open Text (Padded SameText lower trim whiteSpace)

/-! ## Names -/

/-- A text that is the name of a level, up to blanks around it and the case of its ASCII letters. -/
def Spelled (s : String) (l : Level) : Prop := ∃ n, Padded s.toList n ∧ SameText n l.name.toList

theorem ofName_congr {s t : String} (same : lower (trim s.toList) = lower (trim t.toList)) : ofName s = ofName t := by
  have letters (l : Level) :
      Text.sameLetters l.name.toList (trim s.toList) = Text.sameLetters l.name.toList (trim t.toList) := by
    rw [Bool.eq_iff_iff, Text.sameLetters_iff, Text.sameLetters_iff, Text.sameText_iff, Text.sameText_iff, same]
  simp only [ofName, letters]

theorem Spelled.ofName {s : String} {l : Level} (spelled : Spelled s l) : ofName s = l := by
  obtain ⟨n, padded, same⟩ := spelled
  have form : lower (trim s.toList) = lower (trim l.name.toList) := by
    rw [Text.trim_of_padded padded, Text.lower_trim_congr same]
  rw [ofName_congr form, ofName_name]

theorem spelled_of_ofName {s : String} {l : Level} (named : ofName s = l) (valid : l ≠ .invalid) : Spelled s l := by
  unfold Level.ofName at named
  cases found : all.find? fun l => Text.sameLetters l.name.toList (trim s.toList) with
  | none =>
    rw [found] at named
    exact absurd named.symm valid
  | some m =>
    rw [found] at named
    obtain rfl : m = l := named
    have letters := List.find?_some found
    refine ⟨trim s.toList, Text.padded_trim _, ?_⟩
    rw [Text.sameText_iff]
    exact (Text.sameText_iff.mp (Text.sameLetters_iff.mp letters)).symm

theorem ofName_eq_iff {s : String} {l : Level} (valid : l ≠ .invalid) : ofName s = l ↔ Spelled s l :=
  ⟨fun named => spelled_of_ofName named valid, Spelled.ofName⟩

theorem Spelled.unique {s : String} {l m : Level} (first : Spelled s l) (second : Spelled s m) : l = m := by
  rw [← first.ofName, second.ofName]

theorem ofName_eq_invalid_iff {s : String} : Level.ofName s = .invalid ↔ ∀ l ≠ .invalid, ¬ Spelled s l := by
  constructor
  · intro unknown l valid spelled
    exact valid (spelled.ofName.symm.trans unknown)
  · intro none
    by_cases valid : Level.ofName s = .invalid
    · exact valid
    · exact absurd (spelled_of_ofName rfl valid) (none _ valid)

/-- Names are ASCII. -/
theorem name_ascii (l : Level) : ∀ c ∈ l.name.toList, c.toNat < 128 := by
  have small : (l.name.toList.all fun c => c.toNat < 128) = true := by cases l <;> rfl
  intro c member
  exact of_decide_eq_true (List.all_eq_true.mp small c member)

theorem Spelled.ascii {s : String} {l : Level} (spelled : Spelled s l) {c : Char} (member : c ∈ s.toList)
    (solid : c.toNat ∉ whiteSpace) : c.toNat < 128 := by
  obtain ⟨n, ⟨u, v, parts, front, back⟩, same⟩ := spelled
  have inside : c ∈ n := by
    rw [parts, List.mem_append, List.mem_append] at member
    rcases member with (before | inside) | behind
    · exact absurd (front c before) solid
    · exact inside
    · exact absurd (back c behind) solid
  have there : c.toLower ∈ lower l.name.toList := Text.sameText_iff.mp same ▸ List.mem_map_of_mem inside
  obtain ⟨d, within, letter⟩ := List.mem_map.mp there
  have small : d.toNat < 128 := name_ascii l d within
  rcases Text.sameLetter_iff.mpr letter with rfl | ⟨k, limit, ⟨_, little⟩ | ⟨_, capital⟩⟩
  · exact small
  · omega
  · omega

/-! ## The three readers -/

/-- The text that names are compared with where `invalid` is accepted is its name, up to case. -/
theorem sameText_invalid {n : List Char} : SameText n "invalid".toList ↔ SameText n (name .invalid).toList := by
  have same : lower "invalid".toList = lower (name .invalid).toList := by decide
  rw [Text.sameText_iff, Text.sameText_iff, same]

theorem spelled_invalid_iff {s : String} :
    Spelled s .invalid ↔ Text.sameLetters (trim s.toList) "invalid".toList = true := by
  rw [Text.sameLetters_iff, sameText_invalid]
  constructor
  · rintro ⟨n, padded, same⟩
    have trimmed : trim (name .invalid).toList = (name .invalid).toList := by decide
    rw [Text.sameText_iff, Text.trim_of_padded padded, Text.lower_trim_congr same, trimmed]
  · intro same
    exact ⟨trim s.toList, Text.padded_trim _, same⟩

theorem parse_of_spelled {s : String} {l : Level} (spelled : Spelled s l) : parse s = .ok l := by
  have named : Level.ofName s = l := spelled.ofName
  by_cases valid : l = .invalid
  · subst valid
    simp only [parse, ofName?, named, spelled_invalid_iff.mp spelled, if_true]
  · have known : ofName? s = some l := by
      unfold ofName?
      rw [named]
      split
      · exact absurd rfl valid
      · rfl
    simp only [parse, known]

theorem parse_of_unspelled {s : String} (none : ∀ l, ¬ Spelled s l) : parse s = .error (.badLevel s) := by
  have unknown : Level.ofName s = .invalid := ofName_eq_invalid_iff.mpr fun l _ => none l
  have other := (not_congr spelled_invalid_iff).mp (none .invalid)
  simp only [parse, ofName?, unknown, if_neg other]

theorem parse_eq_ok {s : String} {l : Level} : parse s = .ok l ↔ Spelled s l := by
  refine ⟨fun given => ?_, parse_of_spelled⟩
  by_cases named : ∃ m, Spelled s m
  · obtain ⟨m, spelled⟩ := named
    rw [parse_of_spelled spelled] at given
    exact Except.ok.inj given ▸ spelled
  · rw [parse_of_unspelled (not_exists.mp named)] at given
    cases given

section Json

variable {s : String} {text rest : List Char}

theorem readField_saveLevel (literal : Json.Tokens [.text s] text rest) (form : Options.Form) (o : Options) :
    (Level.ofName s ≠ .invalid →
        Options.readField form .saveLevel o text = .ok ({ o with saveLevel := Level.ofName s }, rest)) ∧
      (Level.ofName s = .invalid →
        ∃ place, Options.readField form .saveLevel o text = .error ⟨.unrecognizedLevel s, place⟩) := by
  have read : Json.readText text = .ok (s, rest) := Json.readText_eq_ok.mpr literal
  constructor
  · intro valid
    have known : setting? s = some (Level.ofName s) := Options.setting?_eq_some.mpr ⟨rfl, valid⟩
    simp only [Options.readField, read, known]
  · intro unknown
    have refused : setting? s = none := by simp only [setting?, unknown]
    exact ⟨_, by simp only [Options.readField, read, refused]; rfl⟩

theorem ofJson_eq (literal : Json.Tokens [.text s] text rest) (blank : Json.Blank rest) :
    (Level.ofName s ≠ .invalid → Level.ofJson text = .ok (Level.ofName s)) ∧
      (Level.ofName s = .invalid → Level.ofJson text = .error ⟨.unrecognizedLevel s, none⟩) := by
  have read : Json.readText text = .ok (s, rest) := Json.readText_eq_ok.mpr literal
  have behind : Json.readEnd rest = .ok () := Json.readEnd_eq_ok.mpr blank
  constructor
  · intro valid
    have known : setting? s = some (Level.ofName s) := Options.setting?_eq_some.mpr ⟨rfl, valid⟩
    simp only [Level.ofJson, read, known, behind]
  · intro unknown
    have refused : setting? s = none := by simp only [setting?, unknown]
    simp only [Level.ofJson, read, refused]

end Json

theorem ofJson_eq_ok {s : String} {text rest : List Char} (literal : Json.Tokens [.text s] text rest)
    (blank : Json.Blank rest) {l : Level} (proper : l ≠ .invalid) : Level.ofJson text = .ok l ↔ Level.ofName s = l := by
  obtain ⟨known, unknown⟩ := ofJson_eq literal blank
  constructor
  · intro given
    by_cases named : Level.ofName s = .invalid
    · rw [unknown named] at given
      cases given
    · rw [known named] at given
      exact Except.ok.inj given
  · rintro rfl
    exact known proper

end Level

open Text (Blanks Padded SameText whiteSpace)

/-- A text is read as a level if it is the name of that level up to blanks around it and the case of ASCII letters; no
    text names two levels, blanks and case never matter, and a character beyond ASCII that is no blank passes for no
    letter. The three readers agree on all levels but `invalid`: whatever else is given to them is refused as it stands, except
    that the name of `invalid` is parsed and is no setting. -/
theorem level_names (s : String) :
    (∀ l ≠ .invalid, (Level.ofName s = l ↔ Level.Spelled s l)) ∧
      (∀ l m, Level.Spelled s l → Level.Spelled s m → l = m) ∧
      ((∀ l ≠ .invalid, ¬ Level.Spelled s l) → Level.ofName s = .invalid) ∧
      (∀ u v : String, Blanks u.toList → Blanks v.toList → Level.ofName (u ++ s ++ v) = Level.ofName s) ∧
      (∀ t : String, SameText s.toList t.toList → Level.ofName t = Level.ofName s) ∧
      (∀ c ∈ s.toList, 128 ≤ c.toNat → c.toNat ∉ whiteSpace →
        Level.ofName s = .invalid ∧ Level.parse s = .error (.badLevel s)) ∧
      (∀ l ≠ .invalid, (Level.parse s = .ok l ↔ Level.ofName s = l)) ∧
      (Level.parse s = .ok .invalid ↔ ∃ n, Padded s.toList n ∧ SameText n "invalid".toList) ∧
      (Level.ofName s = .invalid → Level.parse s ≠ .ok .invalid → Level.parse s = .error (.badLevel s)) ∧
      Json.Tokens [.text s] (Json.literal s) [] ∧
      ∀ text rest, Json.Tokens [.text s] text rest →
        (Json.Blank rest →
          (∀ l ≠ .invalid, (Level.ofJson text = .ok l ↔ Level.ofName s = l)) ∧
            (Level.ofName s = .invalid → Level.ofJson text = .error ⟨.unrecognizedLevel s, none⟩)) ∧
          ∀ (form : Options.Form) (o : Options),
            (Level.ofName s ≠ .invalid →
                Options.readField form .saveLevel o text = .ok ({ o with saveLevel := Level.ofName s }, rest)) ∧
              (Level.ofName s = .invalid →
                ∃ place, Options.readField form .saveLevel o text = .error ⟨.unrecognizedLevel s, place⟩) := by
  refine ⟨fun l proper => Level.ofName_eq_iff proper, fun l m => Level.Spelled.unique, Level.ofName_eq_invalid_iff.mpr,
    ?_, ?_, ?_, ?_, ?_, ?_, ?_, ?_⟩
  · intro u v front back
    apply Level.ofName_congr
    rw [String.toList_append, String.toList_append, Text.trim_append front back]
  · intro t same
    exact (Level.ofName_congr (Text.lower_trim_congr same)).symm
  · intro c member beyond solid
    have foreign (l : Level) : ¬ Level.Spelled s l := by
      intro spelled
      have := spelled.ascii member solid
      omega
    exact ⟨Level.ofName_eq_invalid_iff.mpr fun l _ => foreign l, Level.parse_of_unspelled foreign⟩
  · intro l proper
    rw [Level.parse_eq_ok, Level.ofName_eq_iff proper]
  · simp only [Level.parse_eq_ok, Level.Spelled, Level.sameText_invalid]
  · intro unknown other
    apply Level.parse_of_unspelled
    intro l spelled
    obtain rfl : l = .invalid := spelled.ofName.symm.trans unknown
    exact other (Level.parse_of_spelled spelled)
  · simpa using Json.tokens_written (Json.written_literal s) []
  · intro text rest literal
    refine ⟨fun blank => ⟨?_, (Level.ofJson_eq literal blank).2⟩, fun form o => ?_⟩
    · exact fun l proper => Level.ofJson_eq_ok literal blank proper
    · exact Level.readField_saveLevel literal form o

end LogFanout
