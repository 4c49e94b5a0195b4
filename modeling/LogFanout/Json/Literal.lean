import LogFanout.Json.Fault

/- String literals of JSON.

   `escape` writes a text between the quotes: a quote and a backslash get a backslash, control characters a short or a
   four-digit escape, and all else stands as it is. `readString` reads a literal from behind its opening quote up to its
   closing one and gives the text and what follows. Characters beyond the first 65536 may be written as a pair of
   escapes; half a pair is a fault. -/
namespace LogFanout.Json

/-! ## Writing -/

/-- The lower-case hexadecimal digit of a number below sixteen. -/
def hexDigit (n : Nat) : Char := Nat.digitChar n

/-- One character as it stands in a literal. -/
def escapeChar (c : Char) : List Char :=
  if c = '"' then ['\\', '"']
  else if c = '\\' then ['\\', '\\']
  else if c = '\x08' then ['\\', 'b']
  else if c = '\t' then ['\\', 't']
  else if c = '\n' then ['\\', 'n']
  else if c = '\x0c' then ['\\', 'f']
  else if c = '\r' then ['\\', 'r']
  else if c.toNat < 0x20 then ['\\', 'u', '0', '0', hexDigit (c.toNat / 16), hexDigit (c.toNat % 16)]
  else [c]

/-- A text as it stands between the quotes of a literal. -/
def escape (s : List Char) : List Char := s.flatMap escapeChar

def literal (s : String) : List Char := ['"'] ++ escape s.toList ++ ['"']

/-! ## Reading -/

def hexValue? (c : Char) : Option Nat :=
  if '0' ≤ c ∧ c ≤ '9' then some (c.toNat - '0'.toNat)
  else if 'a' ≤ c ∧ c ≤ 'f' then some (c.toNat - 'a'.toNat + 10)
  else if 'A' ≤ c ∧ c ≤ 'F' then some (c.toNat - 'A'.toNat + 10)
  else none

/-- The number that four hexadecimal digits at the start of a text spell, and the rest. -/
def quad? : List Char → Option (Nat × List Char)
  | a :: b :: c :: d :: rest =>
    match hexValue? a, hexValue? b, hexValue? c, hexValue? d with
    | some a, some b, some c, some d => some (((a * 16 + b) * 16 + c) * 16 + d, rest)
    | _, _, _, _ => none
  | _ => none

/-- The four digits of an escape. Four bytes are taken before they are judged. -/
def readQuad (rest : List Char) : Except Fault (Nat × List Char) :=
  match quad? rest with
  | some r => .ok r
  | none => if byteCount rest < 4 then .error ⟨.endInString, some 0⟩ else .error ⟨.badEscape, some (byteCount rest - 4)⟩

def isLeading (n : Nat) : Bool := 0xD800 ≤ n && n ≤ 0xDBFF

def isTrailing (n : Nat) : Bool := 0xDC00 ≤ n && n ≤ 0xDFFF

/-- The character that a pair of halves stands for. -/
def paired (leading trailing : Nat) : Char := Char.ofNat ((leading - 0xD800) * 0x400 + (trailing - 0xDC00) + 0x10000)

/-- The second half of a pair whose first half has been read. -/
def readTrailing (leading : Nat) : List Char → Except Fault (Char × List Char)
  | [] => .error (here .endInString [])
  | ['\\'] => .error (here .endInString [])
  | '\\' :: 'u' :: rest => do
    let (n, rest) ← readQuad rest
    if isTrailing n then .ok (paired leading n, rest) else .error (here .loneSurrogate rest)
  | '\\' :: rest => .error (ahead .brokenPair rest)
  | rest => .error (ahead .brokenPair rest)

/-- A character given by its number, from behind `\u`. -/
def readCodePoint (rest : List Char) : Except Fault (Char × List Char) := do
  let (n, rest) ← readQuad rest
  if isTrailing n then .error (here .loneSurrogate rest)
  else if isLeading n then readTrailing n rest
  else .ok (Char.ofNat n, rest)

/-- The character that an escape stands for, from behind its backslash. -/
def readEscape : List Char → Except Fault (Char × List Char)
  | [] => .error (here .endInString [])
  | c :: rest =>
    if c = '"' ∨ c = '\\' ∨ c = '/' then .ok (c, rest)
    else if c = 'b' then .ok ('\x08', rest)
    else if c = 'f' then .ok ('\x0c', rest)
    else if c = 'n' then .ok ('\n', rest)
    else if c = 'r' then .ok ('\r', rest)
    else if c = 't' then .ok ('\t', rest)
    else if c = 'u' then readCodePoint rest
    else .error (ahead .badEscape (c :: rest))

/-! ## What is read gets shorter -/

theorem quad?_length {s rest : List Char} {n : Nat} (h : quad? s = some (n, rest)) : s.length = rest.length + 4 := by
  unfold quad? at h
  split at h
  · split at h
    · cases h
      rfl
    · cases h
  · cases h

theorem readQuad_length {s rest : List Char} {n : Nat} (h : readQuad s = .ok (n, rest)) :
    s.length = rest.length + 4 := by
  unfold readQuad at h
  split at h
  · rename_i r hr
    cases h
    exact quad?_length hr
  · split at h <;> cases h

theorem readTrailing_length {leading : Nat} {s rest : List Char} {c : Char}
    (h : readTrailing leading s = .ok (c, rest)) : rest.length < s.length := by
  unfold readTrailing at h
  split at h
  · cases h
  · cases h
  · rename_i r
    cases hq : readQuad r with
    | error e => simp [hq, bind, Except.bind] at h
    | ok p =>
      obtain ⟨n, r'⟩ := p
      have := readQuad_length hq
      simp only [hq, bind, Except.bind] at h
      split at h
      · simp only [Except.ok.injEq, Prod.mk.injEq] at h
        obtain ⟨-, rfl⟩ := h
        simp only [List.length_cons]
        omega
      · cases h
  · cases h
  · cases h

theorem readCodePoint_length {s rest : List Char} {c : Char} (h : readCodePoint s = .ok (c, rest)) :
    rest.length < s.length := by
  unfold readCodePoint at h
  cases hq : readQuad s with
  | error e => simp [hq, bind, Except.bind] at h
  | ok p =>
    obtain ⟨n, r⟩ := p
    have := readQuad_length hq
    simp only [hq, bind, Except.bind] at h
    split at h
    · cases h
    · split at h
      · have := readTrailing_length h
        omega
      · simp only [Except.ok.injEq, Prod.mk.injEq] at h
        obtain ⟨-, rfl⟩ := h
        omega

theorem readEscape_length {s rest : List Char} {c : Char} (h : readEscape s = .ok (c, rest)) :
    rest.length < s.length := by
  match s with
  | [] => cases h
  | d :: r =>
    simp only [readEscape] at h
    split at h
    · cases h
      simp
    · repeat' split at h
      all_goals first
        | exact Nat.lt_succ_of_lt (readCodePoint_length h)
        | (cases h <;> simp)

/-- The text of a literal from behind its opening quote, and what follows its closing one. -/
def readString (s : List Char) : Except Fault (List Char × List Char) :=
  match s with
  | [] => .error (here .endInString [])
  | c :: rest =>
    if c = '"' then .ok ([], rest)
    else if c = '\\' then
      match _h : readEscape rest with
      | .error e => .error e
      | .ok (d, rest') => (readString rest').map fun (text, after) => (d :: text, after)
    else if c.toNat < 0x20 then .error (ahead .controlCharacter (c :: rest))
    else (readString rest).map fun (text, after) => (c :: text, after)
  termination_by s.length
  decreasing_by
    · have := readEscape_length _h
      simp only [List.length_cons]
      omega
    · simp

end LogFanout.Json
