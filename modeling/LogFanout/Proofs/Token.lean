import LogFanout.Json.Value

/- The tokens of JSON, and how they may be written.

   The grammar is said here without the readers: which characters are blanks, how a character may stand in a literal, how a
   token may be written. `Tokens ts s rest` says that a text `s` starts with the tokens `ts`, with any blanks in front of
   each, and goes on with `rest`. The readers of literals, truth values and marks read exactly that (`readString_eq_ok`,
   `readText_eq_ok`, `readBoolean_eq_ok`). No token needs to know what comes behind it, so each of these is an equivalence,
   whatever the rest is. -/
namespace LogFanout.Json

/-! ## Outcomes -/

theorem map_eq_ok {ε α β : Type} {f : α → β} {x : Except ε α} {b : β} :
    x.map f = .ok b ↔ ∃ a, x = .ok a ∧ f a = b := by
  cases x <;> simp [Except.map]

theorem bind_eq_ok {ε α β : Type} {f : α → Except ε β} {x : Except ε α} {b : β} :
    x >>= f = .ok b ↔ ∃ a, x = .ok a ∧ f a = .ok b := by
  cases x <;> simp [bind, Except.bind]

/-! ## Literals -/

def Digit (c : Char) (n : Nat) : Prop := n < 16 ∧ (c = Nat.digitChar n ∨ c = (Nat.digitChar n).toUpper)

/-- Four hexadecimal digits, and the number that they spell. -/
inductive Quad : List Char → Nat → Prop
  | mk {a b c d : Char} {i j k l : Nat} (ha : Digit a i) (hb : Digit b j) (hc : Digit c k) (hd : Digit d l) :
      Quad [a, b, c, d] (((i * 16 + j) * 16 + k) * 16 + l)

/-- The letters that stand for characters behind a backslash. -/
def shortEscapes : List (Char × Char) :=
  [('"', '"'), ('\\', '\\'), ('/', '/'), ('b', '\x08'), ('f', '\x0c'), ('n', '\n'), ('r', '\r'), ('t', '\t')]

/-- How a character may stand in a literal: as it is, behind a backslash, by its number, or, if it is beyond the first
    65536, by two numbers that share its bits. -/
inductive Spelling : Char → List Char → Prop
  | itself {c : Char} (quote : c ≠ '"') (backslash : c ≠ '\\') (control : 0x20 ≤ c.toNat) : Spelling c [c]
  | short {letter c : Char} (known : (letter, c) ∈ shortEscapes) : Spelling c ['\\', letter]
  | number {c : Char} {digits : List Char} (quad : Quad digits c.toNat) : Spelling c ('\\' :: 'u' :: digits)
  | pair {c : Char} {first second : List Char} {high low : Nat} (leading : Quad first (0xD800 + high))
      (trailing : Quad second (0xDC00 + low)) (highBound : high < 0x400) (lowBound : low < 0x400)
      (value : c.toNat = 0x10000 + high * 0x400 + low) :
      Spelling c ('\\' :: 'u' :: first ++ '\\' :: 'u' :: second)

/-- How a text may stand between the quotes of a literal. -/
inductive Spells : List Char → List Char → Prop
  | nil : Spells [] []
  | cons {c : Char} {text w rest : List Char} (first : Spelling c w) (more : Spells text rest) :
      Spells (c :: text) (w ++ rest)

theorem digitChar_toNat : ∀ n < 16, (Nat.digitChar n).toNat = if n < 10 then 48 + n else 87 + n := by decide

theorem digitChar_toUpper_toNat :
    ∀ n < 16, (Nat.digitChar n).toUpper.toNat = if n < 10 then 48 + n else 55 + n := by decide

theorem hexValue?_digitChar : ∀ n < 16, hexValue? (Nat.digitChar n) = some n := by decide

theorem hexValue?_digitChar_toUpper : ∀ n < 16, hexValue? (Nat.digitChar n).toUpper = some n := by decide

theorem Digit.hexValue? {c : Char} {n : Nat} (h : Digit c n) : hexValue? c = some n := by
  obtain ⟨bound, rfl | rfl⟩ := h
  · exact hexValue?_digitChar n bound
  · exact hexValue?_digitChar_toUpper n bound

theorem hexValue?_eq_some {c : Char} {n : Nat} : hexValue? c = some n ↔ Digit c n := by
  refine ⟨fun h => ?_, Digit.hexValue?⟩
  have le_iff (a b : Char) : a ≤ b ↔ a.toNat ≤ b.toNat := Iff.rfl
  have marks : '0'.toNat = 48 ∧ '9'.toNat = 57 ∧ 'a'.toNat = 97 ∧ 'f'.toNat = 102 ∧ 'A'.toNat = 65 ∧ 'F'.toNat = 70 := by
    decide
  obtain ⟨zero, nine, a, f, a', f'⟩ := marks
  simp only [Json.hexValue?, le_iff, zero, nine, a, f, a', f'] at h
  -- in each of the three ranges the digit is found again from its value
  split at h
  · cases h
    have bound : c.toNat - 48 < 16 := by omega
    refine ⟨bound, .inl (Char.toNat_inj.mp ?_)⟩
    rw [digitChar_toNat _ bound, if_pos (by omega)]
    omega
  · split at h
    · cases h
      have bound : c.toNat - 97 + 10 < 16 := by omega
      refine ⟨bound, .inl (Char.toNat_inj.mp ?_)⟩
      rw [digitChar_toNat _ bound, if_neg (by omega)]
      omega
    · split at h
      · cases h
        have bound : c.toNat - 65 + 10 < 16 := by omega
        refine ⟨bound, .inr (Char.toNat_inj.mp ?_)⟩
        rw [digitChar_toUpper_toNat _ bound, if_neg (by omega)]
        omega
      · cases h

theorem Quad.bound {digits : List Char} {n : Nat} (h : Quad digits n) : n < 0x10000 := by
  cases h with
  | mk ha hb hc hd =>
    have := ha.1
    have := hb.1
    have := hc.1
    have := hd.1
    omega

theorem readQuad_eq_ok {s rest : List Char} {n : Nat} :
    readQuad s = .ok (n, rest) ↔ ∃ digits, Quad digits n ∧ s = digits ++ rest := by
  have taken : readQuad s = .ok (n, rest) ↔ quad? s = some (n, rest) := by
    unfold readQuad
    split
    · rename_i r there
      simp [there]
    · rename_i none
      simp only [none, reduceCtorEq, iff_false]
      split <;> simp
  rw [taken]
  constructor
  · intro h
    unfold quad? at h
    split at h
    · split at h
      · rename_i ha hb hc hd
        cases h
        exact ⟨_, .mk (hexValue?_eq_some.mp ha) (hexValue?_eq_some.mp hb) (hexValue?_eq_some.mp hc)
          (hexValue?_eq_some.mp hd), rfl⟩
      · cases h
    · cases h
  · rintro ⟨digits, quad, rfl⟩
    cases quad with
    | mk ha hb hc hd => simp [quad?, ha.hexValue?, hb.hexValue?, hc.hexValue?, hd.hexValue?]

theorem isTrailing_iff {n : Nat} : isTrailing n = true ↔ ∃ low, n = 0xDC00 + low ∧ low < 0x400 := by
  simp only [isTrailing, Bool.and_eq_true, decide_eq_true_eq]
  constructor
  · rintro ⟨low, high⟩
    exact ⟨n - 0xDC00, by omega, by omega⟩
  · rintro ⟨low, rfl, bound⟩
    omega

theorem isLeading_iff {n : Nat} : isLeading n = true ↔ ∃ high, n = 0xD800 + high ∧ high < 0x400 := by
  simp only [isLeading, Bool.and_eq_true, decide_eq_true_eq]
  constructor
  · rintro ⟨low, high⟩
    exact ⟨n - 0xD800, by omega, by omega⟩
  · rintro ⟨high, rfl, bound⟩
    omega

theorem no_half (c : Char) : isTrailing c.toNat = false ∧ isLeading c.toNat = false := by
  have valid : c.toNat < 0xD800 ∨ 0xDFFF < c.toNat ∧ c.toNat < 0x110000 := c.valid
  constructor
  · apply Bool.eq_false_iff.mpr
    intro trailing
    obtain ⟨low, number, bound⟩ := isTrailing_iff.mp trailing
    omega
  · apply Bool.eq_false_iff.mpr
    intro leading
    obtain ⟨high, number, bound⟩ := isLeading_iff.mp leading
    omega

theorem ofNat_toNat {n : Nat} (bound : n < 0x110000) (trailing : isTrailing n = false) (leading : isLeading n = false) :
    (Char.ofNat n).toNat = n := by
  have valid : n.isValidChar := by
    simp only [isTrailing, isLeading, Bool.and_eq_false_iff, decide_eq_false_iff_not] at trailing leading
    show n < 0xD800 ∨ 0xDFFF < n ∧ n < 0x110000
    omega
  rw [Char.ofNat, dif_pos valid]
  rfl

theorem paired_toNat {high low : Nat} (highBound : high < 0x400) (lowBound : low < 0x400) :
    (paired (0xD800 + high) (0xDC00 + low)).toNat = 0x10000 + high * 0x400 + low := by
  have number : (0xD800 + high - 0xD800) * 0x400 + (0xDC00 + low - 0xDC00) + 0x10000 =
      0x10000 + high * 0x400 + low := by omega
  rw [paired, number]
  apply ofNat_toNat
  · omega
  · apply Bool.eq_false_iff.mpr
    intro trailing
    obtain ⟨low', equal, bound⟩ := isTrailing_iff.mp trailing
    omega
  · apply Bool.eq_false_iff.mpr
    intro leading
    obtain ⟨high', equal, bound⟩ := isLeading_iff.mp leading
    omega

theorem readTrailing_eq_ok {leading : Nat} {s rest : List Char} {c : Char} :
    readTrailing leading s = .ok (c, rest) ↔ ∃ digits n, Quad digits n ∧ isTrailing n = true ∧
      paired leading n = c ∧ s = '\\' :: 'u' :: digits ++ rest := by
  constructor
  · intro h
    unfold readTrailing at h
    split at h
    · cases h
    · cases h
    · obtain ⟨⟨n, after⟩, digits, judged⟩ := bind_eq_ok.mp h
      obtain ⟨w, quad, rfl⟩ := readQuad_eq_ok.mp digits
      simp only at judged
      split at judged
      · rename_i trailing
        simp only [Except.ok.injEq, Prod.mk.injEq] at judged
        obtain ⟨same, rfl⟩ := judged
        exact ⟨w, n, quad, trailing, same, rfl⟩
      · cases judged
    · cases h
    · cases h
  · rintro ⟨digits, n, quad, trailing, same, rfl⟩
    refine bind_eq_ok.mpr ⟨(n, rest), readQuad_eq_ok.mpr ⟨digits, quad, rfl⟩, ?_⟩
    simp [trailing, same]

/-- A number behind a backslash, of a character or of the first half of a pair. -/
theorem readCodePoint_eq_ok {s rest : List Char} {c : Char} :
    readCodePoint s = .ok (c, rest) ↔ ∃ w, Spelling c ('\\' :: 'u' :: w) ∧ s = w ++ rest := by
  constructor
  · intro h
    obtain ⟨⟨n, after⟩, digits, judged⟩ := bind_eq_ok.mp h
    obtain ⟨w, quad, rfl⟩ := readQuad_eq_ok.mp digits
    simp only at judged
    split at judged
    · cases judged
    · rename_i trailing
      split at judged
      · rename_i leading
        obtain ⟨second, m, quad', trailing', value, rfl⟩ := readTrailing_eq_ok.mp judged
        obtain ⟨high, rfl, highBound⟩ := isLeading_iff.mp leading
        obtain ⟨low, rfl, lowBound⟩ := isTrailing_iff.mp trailing'
        exact ⟨w ++ '\\' :: 'u' :: second,
          .pair quad quad' highBound lowBound (value ▸ paired_toNat highBound lowBound), by simp⟩
      · rename_i leading
        cases judged
        have number : (Char.ofNat n).toNat = n :=
          ofNat_toNat (Nat.lt_trans quad.bound (by decide)) (by simpa using trailing) (by simpa using leading)
        exact ⟨w, .number (number.symm ▸ quad), rfl⟩
  · rintro ⟨w, spelling, rfl⟩
    cases spelling with
    | short known => simp [shortEscapes] at known
    | number quad =>
      obtain ⟨trailing, leading⟩ := no_half c
      refine bind_eq_ok.mpr ⟨(c.toNat, rest), readQuad_eq_ok.mpr ⟨w, quad, rfl⟩, ?_⟩
      simp [trailing, leading, Char.ofNat_toNat]
    | @pair _ first second high low leading trailing highBound lowBound value =>
      have trailing' := isTrailing_iff.mpr ⟨low, rfl, lowBound⟩
      have leading' := isLeading_iff.mpr ⟨high, rfl, highBound⟩
      have other : isTrailing (0xD800 + high) = false := by
        apply Bool.eq_false_iff.mpr
        intro trailing
        obtain ⟨low', equal, _⟩ := isTrailing_iff.mp trailing
        omega
      have same : paired (0xD800 + high) (0xDC00 + low) = c :=
        Char.toNat_inj.mp ((paired_toNat highBound lowBound).trans value.symm)
      have half : readTrailing (0xD800 + high) ('\\' :: 'u' :: second ++ rest) = .ok (c, rest) :=
        readTrailing_eq_ok.mpr ⟨second, _, trailing, trailing', same, rfl⟩
      refine bind_eq_ok.mpr ⟨(0xD800 + high, '\\' :: 'u' :: second ++ rest), ?_, ?_⟩
      · exact readQuad_eq_ok.mpr ⟨first, leading, List.append_assoc first _ rest⟩
      · simpa [other, leading'] using half

theorem readEscape_eq_ok {s rest : List Char} {c : Char} :
    readEscape s = .ok (c, rest) ↔ ∃ w, Spelling c ('\\' :: w) ∧ s = w ++ rest := by
  constructor
  · intro h
    cases s with
    | nil => cases h
    | cons letter after =>
      have short {d : Char} (known : (letter, d) ∈ shortEscapes) 
          (h : (.ok (d, after) : Except Fault (Char × List Char)) = .ok (c, rest)) :
          ∃ w, Spelling c ('\\' :: w) ∧ letter :: after = w ++ rest := by
        cases h
        exact ⟨[letter], .short known, rfl⟩
      simp only [readEscape] at h
      repeat' split at h
      · rename_i same
        exact short (by rcases same with rfl | rfl | rfl <;> decide) h
      · rename_i same
        exact short (by rw [same]; decide) h
      · rename_i same
        exact short (by rw [same]; decide) h
      · rename_i same
        exact short (by rw [same]; decide) h
      · rename_i same
        exact short (by rw [same]; decide) h
      · rename_i same
        exact short (by rw [same]; decide) h
      · rename_i same
        obtain ⟨w, spelling, rfl⟩ := readCodePoint_eq_ok.mp h
        exact ⟨'u' :: w, spelling, by rw [same]; rfl⟩
      · cases h
  · rintro ⟨w, spelling, rfl⟩
    cases spelling with
    | itself _ backslash _ => exact absurd rfl backslash
    | short known =>
      simp only [shortEscapes, List.mem_cons, Prod.mk.injEq, List.not_mem_nil, or_false] at known
      rcases known with ⟨rfl, rfl⟩ | ⟨rfl, rfl⟩ | ⟨rfl, rfl⟩ | ⟨rfl, rfl⟩ | ⟨rfl, rfl⟩ | ⟨rfl, rfl⟩ | ⟨rfl, rfl⟩ | ⟨rfl, rfl⟩ <;>
        rfl
    | number quad => exact readCodePoint_eq_ok.mpr ⟨_, .number quad, rfl⟩
    | pair leading trailing highBound lowBound value =>
      exact readCodePoint_eq_ok.mpr ⟨_, .pair leading trailing highBound lowBound value, rfl⟩

/-- A character that is not written as it is has a backslash in front. -/
theorem Spelling.shape {c : Char} {w : List Char} (h : Spelling c w) :
    (w = [c] ∧ c ≠ '"' ∧ c ≠ '\\' ∧ 0x20 ≤ c.toNat) ∨ ∃ w', w = '\\' :: w' := by
  cases h with
  | itself quote backslash control => exact .inl ⟨rfl, quote, backslash, control⟩
  | short known => exact .inr ⟨_, rfl⟩
  | number quad => exact .inr ⟨_, rfl⟩
  | pair leading trailing highBound lowBound value => exact .inr ⟨_, rfl⟩

theorem readString_spelling {c : Char} {w : List Char} (h : Spelling c w) (rest : List Char) :
    readString (w ++ rest) = (readString rest).map fun (text, after) => (c :: text, after) := by
  rcases h.shape with ⟨rfl, quote, backslash, control⟩ | ⟨w', rfl⟩
  · rw [List.singleton_append, readString]
    simp only [quote, backslash, Nat.not_lt.mpr control, if_false]
  · have escape : readEscape (w' ++ rest) = .ok (c, rest) := readEscape_eq_ok.mpr ⟨w', h, rfl⟩
    rw [List.cons_append, readString]
    simp only [show ¬ '\\' = '"' by decide, if_false, if_true]
    split
    · rename_i failed
      simp [escape] at failed
    · rename_i read
      simp only [escape, Except.ok.injEq, Prod.mk.injEq] at read
      obtain ⟨rfl, rfl⟩ := read
      rfl

theorem spells_cons {c : Char} {w after text rest : List Char} (first : Spelling c w)
    (ih : ∀ {text}, readString after = .ok (text, rest) → ∃ w, Spells text w ∧ after = w ++ '"' :: rest)
    (h : (readString after).map (fun (text, after) => (c :: text, after)) = .ok (text, rest)) :
    ∃ w', Spells text w' ∧ w ++ after = w' ++ '"' :: rest := by
  obtain ⟨⟨more, after'⟩, read, same⟩ := map_eq_ok.mp h
  cases same
  obtain ⟨w', spells, rfl⟩ := ih read
  exact ⟨w ++ w', .cons first spells, by rw [List.append_assoc]⟩

/-- A literal from behind its opening quote. -/
theorem readString_eq_ok {s text rest : List Char} :
    readString s = .ok (text, rest) ↔ ∃ w, Spells text w ∧ s = w ++ '"' :: rest := by
  constructor
  · intro h
    fun_induction readString s generalizing text with
    | case1 => cases h
    | case2 after =>
      cases h
      exact ⟨[], .nil, rfl⟩
    | case3 => cases h
    | case4 _ d after escape _ ih =>
      obtain ⟨w, spelling, rfl⟩ := readEscape_eq_ok.mp escape
      exact spells_cons spelling ih h
    | case5 => cases h
    | case6 c after quote backslash control ih =>
      exact spells_cons (.itself quote backslash (Nat.not_lt.mp control)) ih h
  · rintro ⟨w, spells, rfl⟩
    induction spells with
    | nil => simp [readString]
    | cons first _ ih => rw [List.append_assoc, readString_spelling first, ih, Except.map]

/-! ## Tokens -/

def Blank (s : List Char) : Prop := ∀ c ∈ s, c ∈ [' ', '\t', '\n', '\r']

inductive Mark where
  | openObject
  | closeObject
  | openList
  | closeList
  | colon
  | comma
  deriving DecidableEq, Repr

def Mark.char : Mark → Char
  | .openObject => '\x7b'
  | .closeObject => '\x7d'
  | .openList => '['
  | .closeList => ']'
  | .colon => ':'
  | .comma => ','

/-- A token of the documents that are read here. -/
inductive Token where
  | mark (m : Mark)
  | text (s : String)
  | truth (b : Bool)
  deriving DecidableEq, Repr

/-- How a token may be written. -/
inductive Token.Written : Token → List Char → Prop
  | mark (m : Mark) : Written (.mark m) [m.char]
  | text {s : String} {w : List Char} (spells : Spells s.toList w) : Written (.text s) ('"' :: w ++ ['"'])
  | yes : Written (.truth true) ['t', 'r', 'u', 'e']
  | no : Written (.truth false) ['f', 'a', 'l', 's', 'e']

/-- Tokens at the start of a text, with blanks in front of each, and what follows. -/
inductive Tokens : List Token → List Char → List Char → Prop
  | nil {rest : List Char} : Tokens [] rest rest
  | cons {t : Token} {ts : List Token} {blanks w s rest : List Char} (blank : Blank blanks) (written : t.Written w)
      (more : Tokens ts s rest) : Tokens (t :: ts) (blanks ++ w ++ s) rest

theorem isSpace_iff {c : Char} : isSpace c = true ↔ c ∈ [' ', '\t', '\n', '\r'] := by
  simp [isSpace, or_assoc]

theorem exists_blanks (s : List Char) : ∃ blanks, Blank blanks ∧ s = blanks ++ skipSpace s := by
  refine ⟨s.takeWhile isSpace, ?_, List.takeWhile_append_dropWhile.symm⟩
  intro c member
  exact isSpace_iff.mp (List.all_eq_true.mp List.all_takeWhile c member)

theorem skipSpace_append {blanks : List Char} (blank : Blank blanks) (s : List Char) :
    skipSpace (blanks ++ s) = skipSpace s := by
  induction blanks with
  | nil => rfl
  | cons c blanks ih =>
    have space : isSpace c = true := isSpace_iff.mpr (blank c List.mem_cons_self)
    rw [skipSpace, List.cons_append, List.dropWhile_cons_of_pos space]
    exact ih fun d member => blank d (List.mem_cons_of_mem c member)

theorem skipSpace_eq_nil {s : List Char} : skipSpace s = [] ↔ Blank s := by
  constructor
  · intro nothing
    obtain ⟨blanks, blank, parts⟩ := exists_blanks s
    rw [nothing, List.append_nil] at parts
    exact parts ▸ blank
  · intro blank
    simpa [skipSpace] using skipSpace_append blank []

theorem Token.Written.skipSpace {t : Token} {w : List Char} (h : t.Written w) (rest : List Char) :
    skipSpace (w ++ rest) = w ++ rest := by
  cases h with
  | mark m => cases m <;> rfl
  | text spells => rfl
  | yes => rfl
  | no => rfl

@[simp] theorem tokens_nil {s rest : List Char} : Tokens [] s rest ↔ s = rest := by
  constructor
  · rintro ⟨⟩
    rfl
  · rintro rfl
    exact .nil

theorem tokens_cons {t : Token} {ts : List Token} {s rest : List Char} :
    Tokens (t :: ts) s rest ↔ ∃ w mid, t.Written w ∧ skipSpace s = w ++ mid ∧ Tokens ts mid rest := by
  constructor
  · rintro (_ | @⟨_, _, blanks, w, s', _, blank, written, more⟩)
    refine ⟨w, s', written, ?_, more⟩
    rw [List.append_assoc, skipSpace_append blank, written.skipSpace]
  · rintro ⟨w, mid, written, there, more⟩
    obtain ⟨blanks, blank, parts⟩ := exists_blanks s
    rw [parts, there, ← List.append_assoc]
    exact .cons blank written more

theorem tokens_append {ts us : List Token} {s rest : List Char} :
    Tokens (ts ++ us) s rest ↔ ∃ mid, Tokens ts s mid ∧ Tokens us mid rest := by
  induction ts generalizing s with
  | nil => simp
  | cons t ts ih =>
    simp only [List.cons_append, tokens_cons, ih]
    constructor
    · rintro ⟨w, s', written, there, mid, first, second⟩
      exact ⟨mid, ⟨w, s', written, there, first⟩, second⟩
    · rintro ⟨mid, ⟨w, s', written, there, first⟩, second⟩
      exact ⟨w, s', written, there, mid, first, second⟩

theorem tokens_skipSpace {t : Token} {ts : List Token} {s rest : List Char} :
    Tokens (t :: ts) (skipSpace s) rest ↔ Tokens (t :: ts) s rest := by
  have again : skipSpace (skipSpace s) = skipSpace s := by
    obtain ⟨blanks, blank, parts⟩ := exists_blanks s
    conv => rhs; rw [parts, skipSpace_append blank]
  rw [tokens_cons, tokens_cons, again]

theorem tokens_mark {m : Mark} {ts : List Token} {s rest : List Char} :
    Tokens (.mark m :: ts) s rest ↔ ∃ mid, skipSpace s = m.char :: mid ∧ Tokens ts mid rest := by
  rw [tokens_cons]
  constructor
  · rintro ⟨w, mid, ⟨⟩, there, more⟩
    exact ⟨mid, there, more⟩
  · rintro ⟨mid, there, more⟩
    exact ⟨[m.char], mid, .mark m, there, more⟩

/-! ## Reading tokens -/

theorem readText_eq_ok {s rest : List Char} {text : String} :
    readText s = .ok (text, rest) ↔ Tokens [.text text] s rest := by
  simp only [tokens_cons, tokens_nil, exists_eq_right_right]
  unfold readText
  constructor
  · intro h
    split at h
    · cases h
    · rename_i c after there
      split at h
      · rename_i quote
        obtain ⟨⟨read, after'⟩, literal, same⟩ := map_eq_ok.mp h
        cases same
        obtain ⟨w, spells, rfl⟩ := readString_eq_ok.mp literal
        refine ⟨'"' :: w ++ ['"'], .text (by rwa [String.toList_ofList]), ?_⟩
        rw [there, quote]
        simp
      · cases h
  · rintro ⟨w, ⟨⟩, there⟩
    rename_i w spells
    have literal : readString (w ++ '"' :: rest) = .ok (text.toList, rest) := readString_eq_ok.mpr ⟨w, spells, rfl⟩
    simp [there, literal, Except.map]

theorem tokens_text {text : String} {ts : List Token} {s rest : List Char} (h : Tokens (.text text :: ts) s rest) :
    ∃ more, skipSpace s = '"' :: more := by
  obtain ⟨w, mid, ⟨⟩, there, _⟩ := tokens_cons.mp h
  exact ⟨_, there⟩

theorem readString_quoted {s rest : List Char} {text : String} :
    readString s = .ok (text.toList, rest) ↔ Tokens [.text text] ('"' :: s) rest := by
  have read : readText ('"' :: s) = (readString s).map fun (text, after) => (String.ofList text, after) := rfl
  rw [← readText_eq_ok, read, map_eq_ok]
  constructor
  · intro literal
    exact ⟨_, literal, by simp⟩
  · rintro ⟨⟨cs, after⟩, literal, same⟩
    cases same
    rw [String.toList_ofList]
    exact literal

theorem readWord_eq_ok {word s rest : List Char} : readWord word s = .ok rest ↔ s = word ++ rest := by
  induction word generalizing s with
  | nil => simp [readWord]
  | cons c word ih =>
    cases s with
    | nil => simp [readWord]
    | cons d s => by_cases same : d = c <;> simp [readWord, same, ih]

theorem readBoolean_eq_ok {s rest : List Char} {b : Bool} :
    readBoolean s = .ok (b, rest) ↔ Tokens [.truth b] s rest := by
  simp only [tokens_cons, tokens_nil, exists_eq_right_right]
  unfold readBoolean
  constructor
  · intro h
    split at h
    · cases h
    · rename_i c after there
      split at h
      · rename_i letter
        obtain ⟨after', word, same⟩ := map_eq_ok.mp h
        cases same
        exact ⟨_, .yes, by rw [there, letter, readWord_eq_ok.mp word]; rfl⟩
      · split at h
        · rename_i letter
          obtain ⟨after', word, same⟩ := map_eq_ok.mp h
          cases same
          exact ⟨_, .no, by rw [there, letter, readWord_eq_ok.mp word]; rfl⟩
        · cases h
  · rintro ⟨w, ⟨⟩, there⟩
    · have word : readWord ['r', 'u', 'e'] ('r' :: 'u' :: 'e' :: rest) = .ok rest := readWord_eq_ok.mpr rfl
      simp [there, word, Except.map]
    · have word : readWord ['a', 'l', 's', 'e'] ('a' :: 'l' :: 's' :: 'e' :: rest) = .ok rest := readWord_eq_ok.mpr rfl
      simp [there, word, Except.map]

theorem readEnd_eq_ok {s : List Char} : readEnd s = .ok () ↔ Blank s := by
  rw [← skipSpace_eq_nil]
  unfold readEnd
  split <;> simp_all

end LogFanout.Json
