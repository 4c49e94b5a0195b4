import LogFanout.Options.Reader
import LogFanout.Proofs.Token

/- Documents of options.

   A document is an object whose members have different fields in any order, or a list of values in the order of the
   fields that may end early (`Document`). It gives settings; the other options have their defaults (`Given`). Reading
   accepts these documents, with blanks around their tokens, and no other text (`read_eq_ok`), and what is read is what the
   document gives (`given_iff`). -/
namespace LogFanout
namespace Options

open Json (Token Mark Tokens Blank skipSpace map_eq_ok bind_eq_ok tokens_cons tokens_append tokens_mark tokens_nil)

/-! ## Settings -/

/-- A value for one of the options. -/
inductive Setting where
  | target (text : String)
  | append (b : Bool)
  | console (b : Bool)
  | saveLevel (l : Level)
  deriving DecidableEq, Repr

def Setting.field : Setting → Field
  | .target _ => .target
  | .append _ => .append
  | .console _ => .console
  | .saveLevel _ => .saveLevel

def Setting.put : Setting → Options → Options
  | .target text, o => { o with target := text }
  | .append b, o => { o with append := b }
  | .console b, o => { o with console := b }
  | .saveLevel l, o => { o with saveLevel := l }

/-- The token that may stand for a setting. A level is named, up to blanks and case, and `invalid` is no level to set. -/
inductive Setting.Said : Setting → Token → Prop
  | target (text : String) : Said (.target text) (.text text)
  | append (b : Bool) : Said (.append b) (.truth b)
  | console (b : Bool) : Said (.console b) (.truth b)
  | saveLevel {name : String} {l : Level} (named : Level.ofName name = l) (valid : l ≠ .invalid) :
      Said (.saveLevel l) (.text name)

def setting (o : Options) : Field → Setting
  | .target => .target o.target
  | .append => .append o.append
  | .console => .console o.console
  | .saveLevel => .saveLevel o.saveLevel

@[simp] theorem setting_put (g : Setting) (o : Options) (f : Field) :
    (g.put o).setting f = if g.field = f then g else o.setting f := by
  cases g <;> cases f <;> rfl

theorem ext_setting {o o' : Options} (h : ∀ f, o.setting f = o'.setting f) : o = o' := by
  obtain ⟨target, append, console, saveLevel⟩ := o
  have first := h .target
  have second := h .append
  have third := h .console
  have fourth := h .saveLevel
  simp only [setting, Setting.target.injEq, Setting.append.injEq, Setting.console.injEq,
    Setting.saveLevel.injEq] at first second third fourth
  subst first second third fourth
  rfl

/-! ## Documents -/

/-- An entry of a document: a setting, and the token that stands for it. -/
structure Entry where
  setting : Setting
  token : Token
  said : setting.Said token

def Entry.field (e : Entry) : Field := e.setting.field

def Entry.member (e : Entry) : List Token := [.text e.field.name, .mark .colon, e.token]

def separated (entries : List (List Token)) : List Token := [Token.mark .comma].intercalate entries

/-- The tokens of a document with its entries: an object whose members have different fields, or a list in the order of
    the fields. -/
inductive Document : List Token → List Entry → Prop
  | object {entries : List Entry} (distinct : (entries.map Entry.field).Nodup) :
      Document (.mark .openObject :: separated (entries.map Entry.member) ++ [.mark .closeObject]) entries
  | list {entries : List Entry} (order : entries.map Entry.field <+: Field.all) :
      Document (.mark .openList :: separated (entries.map fun e => [e.token]) ++ [.mark .closeList]) entries

/-- Options that have what the entries of a document give, and the default in all other fields. -/
structure Given (entries : List Entry) (o : Options) : Prop where
  given : ∀ e ∈ entries, o.setting e.field = e.setting
  missing : ∀ f, f ∉ entries.map Entry.field → o.setting f = Options.default.setting f

/-- The options after all entries have been put, one after the other. -/
def putAll (entries : List Entry) (o : Options) : Options := entries.foldl (fun o e => e.setting.put o) o

theorem setting_putAll_of_not_mem {entries : List Entry} {f : Field} (h : f ∉ entries.map Entry.field) (o : Options) :
    (putAll entries o).setting f = o.setting f := by
  induction entries generalizing o with
  | nil => rfl
  | cons e entries ih =>
    simp only [List.map_cons, List.mem_cons, not_or] at h
    have other : e.setting.field ≠ f := Ne.symm h.1
    exact (ih h.2 (e.setting.put o)).trans (by rw [setting_put, if_neg other])

theorem setting_putAll_of_mem {entries : List Entry} (distinct : (entries.map Entry.field).Nodup) {e : Entry}
    (member : e ∈ entries) (o : Options) : (putAll entries o).setting e.field = e.setting := by
  induction entries generalizing o with
  | nil => cases member
  | cons first entries ih =>
    obtain ⟨once, distinct⟩ := List.nodup_cons.mp distinct
    rcases List.mem_cons.mp member with rfl | member
    · exact (setting_putAll_of_not_mem once (e.setting.put o)).trans (by rw [setting_put]; exact if_pos rfl)
    · exact ih distinct member (first.setting.put o)

/-- What different entries give is what comes of putting them into the defaults. -/
theorem given_iff {entries : List Entry} (distinct : (entries.map Entry.field).Nodup) {o : Options} :
    Given entries o ↔ putAll entries .default = o := by
  constructor
  · rintro ⟨given, missing⟩
    apply ext_setting
    intro f
    by_cases there : f ∈ entries.map Entry.field
    · obtain ⟨e, member, rfl⟩ := List.mem_map.mp there
      rw [setting_putAll_of_mem distinct member, given e member]
    · rw [setting_putAll_of_not_mem there, missing f there]
  · rintro rfl
    exact ⟨fun e member => setting_putAll_of_mem distinct member .default,
      fun f missing => setting_putAll_of_not_mem missing .default⟩

theorem separated_cons_cons (first second : List Token) (rest : List (List Token)) :
    separated (first :: second :: rest) = first ++ .mark .comma :: separated (second :: rest) := by
  simp [separated, List.intercalate_cons_cons]

/-! ## Values -/

theorem setting?_eq_some {name : String} {l : Level} :
    Level.setting? name = some l ↔ Level.ofName name = l ∧ l ≠ .invalid := by
  unfold Level.setting?
  split
  · rename_i bad
    constructor
    · intro none
      cases none
    · rintro ⟨rfl, valid⟩
      exact absurd bad valid
  · rename_i good
    simp only [Option.some.injEq]
    constructor
    · rintro rfl
      exact ⟨rfl, good⟩
    · exact fun h => h.1

/-- The value of a field is read as the token of an entry. -/
theorem readField_eq_ok {form : Form} {f : Field} {o o' : Options} {s rest : List Char} :
    readField form f o s = .ok (o', rest) ↔
      ∃ e : Entry, e.field = f ∧ Tokens [e.token] s rest ∧ e.setting.put o = o' := by
  constructor
  · intro h
    cases f with
    | target =>
      obtain ⟨⟨text, after⟩, read, same⟩ := map_eq_ok.mp h
      cases same
      exact ⟨⟨.target text, _, .target text⟩, rfl, Json.readText_eq_ok.mp read, rfl⟩
    | append =>
      obtain ⟨⟨b, after⟩, read, same⟩ := map_eq_ok.mp h
      cases same
      exact ⟨⟨.append b, _, .append b⟩, rfl, Json.readBoolean_eq_ok.mp read, rfl⟩
    | console =>
      obtain ⟨⟨b, after⟩, read, same⟩ := map_eq_ok.mp h
      cases same
      exact ⟨⟨.console b, _, .console b⟩, rfl, Json.readBoolean_eq_ok.mp read, rfl⟩
    | saveLevel =>
      simp only [readField] at h
      split at h
      · cases h
      · rename_i name after read
        split at h
        · cases h
        · rename_i l known
          cases h
          obtain ⟨named, valid⟩ := setting?_eq_some.mp known
          exact ⟨⟨.saveLevel l, _, .saveLevel named valid⟩, rfl, Json.readText_eq_ok.mp read, rfl⟩
  · rintro ⟨⟨g, token, said⟩, rfl, tokens, rfl⟩
    cases said with
    | target text => exact map_eq_ok.mpr ⟨(text, rest), Json.readText_eq_ok.mpr tokens, rfl⟩
    | append b => exact map_eq_ok.mpr ⟨(b, rest), Json.readBoolean_eq_ok.mpr tokens, rfl⟩
    | console b => exact map_eq_ok.mpr ⟨(b, rest), Json.readBoolean_eq_ok.mpr tokens, rfl⟩
    | @saveLevel name l named valid =>
      have read := Json.readText_eq_ok.mpr tokens
      have known := setting?_eq_some.mpr ⟨named, valid⟩
      simp only [Entry.field, Setting.field, readField, read, known]
      rfl

theorem Entry.head {e : Entry} {ts : List Token} {s rest : List Char} (h : Tokens (e.token :: ts) s rest) :
    ∃ c more, skipSpace s = c :: more ∧ c ≠ ']' := by
  obtain ⟨w, mid, written, there, _⟩ := tokens_cons.mp h
  obtain ⟨g, token, said⟩ := e
  cases said <;> cases written <;> exact ⟨_, _, there, by decide⟩

/-! ## Members -/

theorem ofName?_eq_some {s : String} {f : Field} : Field.ofName? s = some f ↔ s = f.name := by
  constructor
  · intro found
    have same := List.find?_some found
    exact (beq_iff_eq.mp same).symm
  · rintro rfl
    cases f <;> decide

/-- The name of a member is read from behind its quote. -/
theorem readKey_eq_ok {unset : List Field} {s rest : List Char} {f : { f : Field // f ∈ unset }} :
    readKey unset s = .ok (f, rest) ↔ Tokens [.text f.val.name] ('"' :: s) rest := by
  rw [← Json.readString_quoted]
  unfold readKey
  constructor
  · intro h
    split at h
    · cases h
    · rename_i key after read
      split at h
      · cases h
      · rename_i g known
        split at h
        · cases h
          rw [← ofName?_eq_some.mp known, String.toList_ofList]
          exact read
        · cases h
  · intro read
    have known : Field.ofName? f.val.name = some f.val := ofName?_eq_some.mpr rfl
    simp [read, String.ofList_toList, known, f.property]

theorem readColon_eq_ok {s rest : List Char} : readColon s = .ok rest ↔ Tokens [.mark .colon] s rest := by
  simp only [tokens_mark, tokens_nil, exists_eq_right]
  unfold readColon
  constructor
  · intro h
    split at h <;> cases h
    assumption
  · intro there
    simp [there, Json.Mark.char]

/-- Behind a member stands the end of the object, or a comma and the quote of the next name. -/
theorem nextMember_eq_ok {s rest : List Char} {more : Option (List Char)} :
    nextMember s = .ok (more, rest) ↔
      (more = none ∧ Tokens [.mark .closeObject] s rest) ∨
        (more = some rest ∧ ∃ mid, Tokens [.mark .comma] s mid ∧ skipSpace mid = '"' :: rest) := by
  simp only [tokens_mark, tokens_nil, exists_eq_right]
  unfold nextMember
  constructor
  · intro h
    split at h
    · cases h
    · rename_i there
      cases h
      exact .inl ⟨rfl, there⟩
    · rename_i after there
      split at h
      · cases h
      · rename_i member quote
        cases h
        exact .inr ⟨rfl, after, there, quote⟩
      · cases h
      · cases h
    · cases h
  · rintro (⟨rfl, there⟩ | ⟨rfl, mid, there, quote⟩)
    · simp [there, Json.Mark.char]
    · simp [there, quote, Json.Mark.char]

theorem tokens_member {e : Entry} {s rest : List Char} :
    Tokens e.member s rest ↔ ∃ afterKey afterColon, Tokens [.text e.field.name] s afterKey ∧
      Tokens [.mark .colon] afterKey afterColon ∧ Tokens [e.token] afterColon rest := by
  have parts : e.member = [.text e.field.name] ++ ([.mark .colon] ++ [e.token]) := rfl
  rw [parts, tokens_append]
  constructor
  · rintro ⟨afterKey, key, others⟩
    obtain ⟨afterColon, colon, token⟩ := tokens_append.mp others
    exact ⟨afterKey, afterColon, key, colon, token⟩
  · rintro ⟨afterKey, afterColon, key, colon, token⟩
    exact ⟨afterKey, key, tokens_append.mpr ⟨afterColon, colon, token⟩⟩

/-- One turn of the reader of members: a member, and then the end or the next turn. -/
theorem readMembers_step {unset : List Field} {o o' : Options} {s rest : List Char} :
    readMembers unset o s = .ok (o', rest) ↔
      ∃ (e : Entry) (mid : List Char), e.field ∈ unset ∧ Tokens e.member ('"' :: s) mid ∧
        ((Tokens [.mark .closeObject] mid rest ∧ e.setting.put o = o') ∨
          ∃ mid' member, Tokens [.mark .comma] mid mid' ∧ skipSpace mid' = '"' :: member ∧
            readMembers (unset.erase e.field) (e.setting.put o) member = .ok (o', rest)) := by
  rw [readMembers]
  simp only [bind_eq_ok]
  constructor
  · rintro ⟨⟨⟨f, open'⟩, afterKey⟩, key, afterColon, colon, ⟨o₁, afterValue⟩, value, ⟨more, afterNext⟩, next, h⟩
    obtain ⟨e, rfl, token, rfl⟩ := readField_eq_ok.mp value
    have member : Tokens e.member ('"' :: s) afterValue :=
      tokens_member.mpr ⟨afterKey, afterColon, readKey_eq_ok.mp key, readColon_eq_ok.mp colon, token⟩
    refine ⟨e, afterValue, open', member, ?_⟩
    rcases nextMember_eq_ok.mp next with ⟨rfl, close⟩ | ⟨rfl, mid, comma, quote⟩
    · cases h
      exact .inl ⟨close, rfl⟩
    · exact .inr ⟨mid, afterNext, comma, quote, h⟩
  · rintro ⟨e, mid, open', member, last⟩
    obtain ⟨afterKey, afterColon, key, colon, token⟩ := tokens_member.mp member
    refine ⟨(⟨e.field, open'⟩, afterKey), readKey_eq_ok.mpr key, afterColon, readColon_eq_ok.mpr colon,
      (e.setting.put o, mid), readField_eq_ok.mpr ⟨e, rfl, token, rfl⟩, ?_⟩
    rcases last with ⟨close, rfl⟩ | ⟨mid', next, comma, quote, h⟩
    · exact ⟨(none, rest), nextMember_eq_ok.mpr (.inl ⟨rfl, close⟩), rfl⟩
    · exact ⟨(some next, next), nextMember_eq_ok.mpr (.inr ⟨rfl, mid', comma, quote⟩), h⟩

/-- Different fields, of which the first is taken from those that are open, and the others from those that are left. -/
theorem subset_erase_iff {unset fields : List Field} (nodup : unset.Nodup) {f : Field} :
    (f ∈ unset ∧ fields.Nodup ∧ fields ⊆ unset.erase f) ↔ (f :: fields).Nodup ∧ f :: fields ⊆ unset := by
  constructor
  · rintro ⟨first, distinct, others⟩
    have other {g : Field} (member : g ∈ fields) : g ≠ f ∧ g ∈ unset := nodup.mem_erase_iff.mp (others member)
    exact ⟨List.nodup_cons.mpr ⟨fun again => (other again).1 rfl, distinct⟩,
      List.cons_subset.mpr ⟨first, fun g member => (other member).2⟩⟩
  · rintro ⟨distinct, all⟩
    obtain ⟨once, distinct⟩ := List.nodup_cons.mp distinct
    obtain ⟨first, others⟩ := List.cons_subset.mp all
    exact ⟨first, distinct, fun g member => nodup.mem_erase_iff.mpr ⟨fun same => once (same ▸ member), others member⟩⟩

/-- The tokens of the members of an object, up to its end. -/
def members (entries : List Entry) : List Token := separated (entries.map Entry.member) ++ [.mark .closeObject]

/-- The name of the first member stands at the start, and so does its quote. -/
theorem tokens_members_quote {entries : List Entry} (some : entries ≠ []) {s rest : List Char} :
    Tokens (members entries) s rest ↔
      ∃ member, skipSpace s = '"' :: member ∧ Tokens (members entries) ('"' :: member) rest := by
  have head : ∃ name ts, members entries = .text name :: ts := by
    cases entries with
    | nil => exact absurd rfl some
    | cons e entries =>
      cases entries with
      | nil => exact ⟨_, _, rfl⟩
      | cons next entries => exact ⟨_, _, by simp only [members, List.map_cons, separated_cons_cons]; rfl⟩
  obtain ⟨name, ts, head⟩ := head
  rw [head]
  constructor
  · intro tokens
    obtain ⟨member, quote⟩ := Json.tokens_text tokens
    exact ⟨member, quote, quote ▸ Json.tokens_skipSpace.mpr tokens⟩
  · rintro ⟨member, quote, tokens⟩
    exact Json.tokens_skipSpace.mp (quote ▸ tokens)

theorem tokens_members {e : Entry} {entries : List Entry} {s rest : List Char} :
    Tokens (members (e :: entries)) s rest ↔ ∃ mid, Tokens e.member s mid ∧
      ((entries = [] ∧ Tokens [.mark .closeObject] mid rest) ∨
        ∃ mid' member, Tokens [.mark .comma] mid mid' ∧ skipSpace mid' = '"' :: member ∧
          entries ≠ [] ∧ Tokens (members entries) ('"' :: member) rest) := by
  cases entries with
  | nil =>
    have parts : members [e] = e.member ++ [.mark .closeObject] := by simp [members, separated]
    rw [parts, tokens_append]
    simp
  | cons next entries =>
    have parts : members (e :: next :: entries) = e.member ++ ([.mark .comma] ++ members (next :: entries)) := by
      simp [members, separated_cons_cons]
    have some := List.cons_ne_nil next entries
    rw [parts, tokens_append]
    constructor
    · rintro ⟨mid, first, others⟩
      obtain ⟨mid', comma, others⟩ := tokens_append.mp others
      obtain ⟨member, quote, others⟩ := (tokens_members_quote some).mp others
      exact ⟨mid, first, .inr ⟨mid', member, comma, quote, some, others⟩⟩
    · rintro ⟨mid, first, ⟨none, _⟩ | ⟨mid', member, comma, quote, _, others⟩⟩
      · exact absurd none some
      · exact ⟨mid, first, tokens_append.mpr ⟨mid', comma, (tokens_members_quote some).mpr ⟨member, quote, others⟩⟩⟩

/-- The members of an object, from behind the quote of the first: entries whose fields are different and still open. -/
theorem readMembers_eq_ok {unset : List Field} (nodup : unset.Nodup) {o o' : Options} {s rest : List Char} :
    readMembers unset o s = .ok (o', rest) ↔
      ∃ entries : List Entry, entries ≠ [] ∧ (entries.map Entry.field).Nodup ∧ entries.map Entry.field ⊆ unset ∧
        Tokens (members entries) ('"' :: s) rest ∧ putAll entries o = o' := by
  -- the fields that are still open get fewer from turn to turn
  induction size : unset.length using Nat.strongRecOn generalizing unset o s with
  | ind n ih =>
    have smaller {e : Entry} (open' : e.field ∈ unset) : (unset.erase e.field).length < n := by
      have := List.length_erase_of_mem open'
      have := List.length_pos_of_mem open'
      omega
    rw [readMembers_step]
    constructor
    · rintro ⟨e, mid, open', member, ⟨close, rfl⟩ | ⟨mid', next, comma, quote, h⟩⟩
      · exact ⟨[e], List.cons_ne_nil e [], by simp, by simpa using open',
          tokens_members.mpr ⟨mid, member, .inl ⟨rfl, close⟩⟩, rfl⟩
      · obtain ⟨entries, some, distinct, others, tokens, rfl⟩ := (ih _ (smaller open') (nodup.erase e.field) rfl).mp h
        obtain ⟨distinct, all⟩ := (subset_erase_iff nodup).mp ⟨open', distinct, others⟩
        exact ⟨e :: entries, List.cons_ne_nil e entries, distinct, all,
          tokens_members.mpr ⟨mid, member, .inr ⟨mid', next, comma, quote, some, tokens⟩⟩, rfl⟩
    · rintro ⟨entries, some, distinct, all, tokens, rfl⟩
      cases entries with
      | nil => exact absurd rfl some
      | cons e entries =>
        obtain ⟨open', distinct, others⟩ := (subset_erase_iff nodup).mpr ⟨distinct, all⟩
        obtain ⟨mid, member, last⟩ := tokens_members.mp tokens
        refine ⟨e, mid, open', member, ?_⟩
        rcases last with ⟨rfl, close⟩ | ⟨mid', next, comma, quote, some, tokens⟩
        · exact .inl ⟨close, rfl⟩
        · exact .inr ⟨mid', next, comma, quote,
            (ih _ (smaller open') (nodup.erase e.field) rfl).mpr ⟨entries, some, distinct, others, tokens, rfl⟩⟩

theorem readObject_eq_ok {o : Options} {s rest : List Char} :
    readObject s = .ok (o, rest) ↔ ∃ entries : List Entry, (entries.map Entry.field).Nodup ∧
      Tokens (members entries) s rest ∧ putAll entries .default = o := by
  have nodup : Field.all.Nodup := by decide
  unfold readObject
  constructor
  · intro h
    split at h
    · cases h
    · rename_i there
      cases h
      exact ⟨[], List.nodup_nil, tokens_mark.mpr ⟨rest, there, .nil⟩, rfl⟩
    · rename_i member quote
      obtain ⟨entries, some, distinct, _, tokens, same⟩ := (readMembers_eq_ok nodup).mp h
      exact ⟨entries, distinct, (tokens_members_quote some).mpr ⟨member, quote, tokens⟩, same⟩
    · cases h
  · rintro ⟨entries, distinct, tokens, same⟩
    by_cases none : entries = []
    · subst none
      obtain ⟨mid, there, ⟨⟩⟩ := tokens_mark.mp tokens
      cases same
      rw [there]
      rfl
    · obtain ⟨member, quote, tokens⟩ := (tokens_members_quote none).mp tokens
      rw [quote]
      exact (readMembers_eq_ok nodup).mpr ⟨entries, none, distinct, fun f _ => Field.mem_all f, tokens, same⟩

/-! ## Elements -/

/-- The tokens of further elements of a list, each behind a comma, up to its end. -/
def elements (entries : List Entry) : List Token :=
  entries.flatMap (fun e => [.mark .comma, e.token]) ++ [.mark .closeList]

theorem closeList_eq_ok {s rest : List Char} : closeList s = .ok rest ↔ Tokens [.mark .closeList] s rest := by
  simp only [tokens_mark, tokens_nil, exists_eq_right]
  unfold closeList
  constructor
  · intro h
    split at h
    · cases h
    · rename_i there
      cases h
      exact there
    · split at h <;> cases h
    · cases h
  · intro there
    simp [there, Json.Mark.char]

theorem tokens_elements {e : Entry} {entries : List Entry} {s rest : List Char} :
    Tokens (elements (e :: entries)) s rest ↔ ∃ mid mid', skipSpace s = ',' :: mid ∧ Tokens [e.token] mid mid' ∧
      Tokens (elements entries) mid' rest := by
  have parts : elements (e :: entries) = .mark .comma :: ([e.token] ++ elements entries) := rfl
  rw [parts, tokens_mark]
  constructor
  · rintro ⟨mid, comma, others⟩
    obtain ⟨mid', token, others⟩ := tokens_append.mp others
    exact ⟨mid, mid', comma, token, others⟩
  · rintro ⟨mid, mid', comma, token, others⟩
    exact ⟨mid, comma, tokens_append.mpr ⟨mid', token, others⟩⟩

/-- The elements of a list behind its first: as many entries as there are, in the order of the fields that are left. -/
theorem readElements_eq_ok {fields : List Field} {o o' : Options} {s rest : List Char} :
    readElements fields o s = .ok (o', rest) ↔ ∃ entries : List Entry, entries.map Entry.field <+: fields ∧
      Tokens (elements entries) s rest ∧ putAll entries o = o' := by
  induction fields generalizing o s with
  | nil =>
    rw [readElements, map_eq_ok]
    constructor
    · rintro ⟨after, close, same⟩
      cases same
      exact ⟨[], List.nil_prefix, closeList_eq_ok.mp close, rfl⟩
    · rintro ⟨entries, order, tokens, same⟩
      obtain rfl := List.map_eq_nil_iff.mp (List.prefix_nil.mp order)
      exact ⟨rest, closeList_eq_ok.mpr tokens, by cases same; rfl⟩
  | cons f fields ih =>
    rw [readElements]
    constructor
    · intro h
      split at h
      · cases h
      · rename_i there
        cases h
        exact ⟨[], List.nil_prefix, tokens_mark.mpr ⟨rest, there, .nil⟩, rfl⟩
      · rename_i mid comma
        split at h
        · cases h
        · cases h
        · split at h
          · cases h
          · rename_i o₁ mid' value
            obtain ⟨e, rfl, token, rfl⟩ := readField_eq_ok.mp value
            obtain ⟨entries, order, tokens, same⟩ := ih.mp h
            exact ⟨e :: entries, List.prefix_cons_inj _ |>.mpr order,
              tokens_elements.mpr ⟨mid, mid', comma, Json.tokens_skipSpace.mp token, tokens⟩, same⟩
      · cases h
    · rintro ⟨entries, order, tokens, same⟩
      cases entries with
      | nil =>
        obtain ⟨mid, there, ⟨⟩⟩ := tokens_mark.mp tokens
        cases same
        rw [there]
        rfl
      | cons e entries =>
        obtain ⟨first, order⟩ := List.cons_prefix_cons.mp order
        obtain ⟨mid, mid', comma, token, tokens⟩ := tokens_elements.mp tokens
        obtain ⟨c, more, head, open'⟩ := Entry.head token
        have value : readField .list f o (c :: more) = .ok (e.setting.put o, mid') :=
          readField_eq_ok.mpr ⟨e, first, head ▸ Json.tokens_skipSpace.mpr token, rfl⟩
        simp only [comma, head]
        split
        · rename_i nothing
          cases nothing
        · rename_i close
          cases close
          exact absurd rfl open'
        · rw [value]
          exact ih.mpr ⟨entries, order, tokens, same⟩

/-- Behind the first element of a list come the others, each with its comma. -/
theorem separated_elements (e : Entry) (entries : List Entry) :
    separated ((e :: entries).map fun e => [e.token]) ++ [.mark .closeList] = [e.token] ++ elements entries := by
  induction entries generalizing e with
  | nil => simp [separated, elements]
  | cons next entries ih =>
    calc separated ((e :: next :: entries).map fun e => [e.token]) ++ [.mark .closeList]
        = [e.token, .mark .comma] ++ (separated ((next :: entries).map fun e => [e.token]) ++ [.mark .closeList]) := by
          simp [separated_cons_cons]
      _ = [e.token] ++ elements (next :: entries) := by
          rw [ih next]
          rfl

theorem readList_eq_ok {o : Options} {s rest : List Char} :
    readList s = .ok (o, rest) ↔ ∃ entries : List Entry, entries.map Entry.field <+: Field.all ∧
      Tokens (separated (entries.map fun e => [e.token]) ++ [.mark .closeList]) s rest ∧
      putAll entries .default = o := by
  unfold readList
  constructor
  · intro h
    split at h
    · cases h
    · rename_i there
      cases h
      exact ⟨[], List.nil_prefix, tokens_mark.mpr ⟨rest, there, .nil⟩, rfl⟩
    · split at h
      · cases h
      · rename_i o₁ mid value
        obtain ⟨e, field, token, rfl⟩ := readField_eq_ok.mp value
        obtain ⟨entries, order, tokens, same⟩ := readElements_eq_ok.mp h
        refine ⟨e :: entries, List.cons_prefix_cons.mpr ⟨field, order⟩, ?_, same⟩
        rw [separated_elements]
        exact tokens_append.mpr ⟨mid, Json.tokens_skipSpace.mp token, tokens⟩
  · rintro ⟨entries, order, tokens, same⟩
    cases entries with
    | nil =>
      obtain ⟨mid, there, ⟨⟩⟩ := tokens_mark.mp tokens
      cases same
      rw [there]
      rfl
    | cons e entries =>
      obtain ⟨field, order⟩ := List.cons_prefix_cons.mp order
      rw [separated_elements] at tokens
      obtain ⟨mid, token, tokens⟩ := tokens_append.mp tokens
      obtain ⟨c, more, head, open'⟩ := Entry.head token
      have value : readField .list .target .default (c :: more) = .ok (e.setting.put .default, mid) :=
        readField_eq_ok.mpr ⟨e, field, head ▸ Json.tokens_skipSpace.mpr token, rfl⟩
      rw [head]
      split
      · rename_i nothing
        cases nothing
      · rename_i close
        cases close
        exact absurd rfl open'
      · rw [value]
        exact readElements_eq_ok.mpr ⟨entries, order, tokens, same⟩

/-! ## Documents are read -/

/-- A document at the start of a text is read, and nothing else is. -/
theorem read_eq_ok {o : Options} {s rest : List Char} :
    read s = .ok (o, rest) ↔ ∃ tokens entries, Document tokens entries ∧ Tokens tokens s rest ∧ Given entries o := by
  unfold read
  constructor
  · intro h
    split at h
    · cases h
    · rename_i after there
      obtain ⟨entries, distinct, tokens, same⟩ := readObject_eq_ok.mp h
      exact ⟨_, entries, .object distinct, tokens_mark.mpr ⟨after, there, tokens⟩, (given_iff distinct).mpr same⟩
    · rename_i after there
      obtain ⟨entries, order, tokens, same⟩ := readList_eq_ok.mp h
      have distinct : (entries.map Entry.field).Nodup := order.sublist.nodup (by decide)
      exact ⟨_, entries, .list order, tokens_mark.mpr ⟨after, there, tokens⟩, (given_iff distinct).mpr same⟩
    · cases h
  · rintro ⟨tokens, entries, document, there, given⟩
    cases document with
    | object distinct =>
      obtain ⟨after, bracket, there⟩ := tokens_mark.mp there
      rw [bracket]
      exact readObject_eq_ok.mpr ⟨entries, distinct, there, (given_iff distinct).mp given⟩
    | list order =>
      have distinct : (entries.map Entry.field).Nodup := order.sublist.nodup (by decide)
      obtain ⟨after, bracket, there⟩ := tokens_mark.mp there
      rw [bracket]
      exact readList_eq_ok.mpr ⟨entries, order, there, (given_iff distinct).mp given⟩

/-- A text that is a document, up to blanks, and gives certain options. -/
def Describes (text : List Char) (o : Options) : Prop :=
  ∃ tokens entries rest, Document tokens entries ∧ Tokens tokens text rest ∧ Blank rest ∧ Given entries o

/-- A whole text is read if it is a document with nothing but blanks behind it. -/
theorem ofJson_eq_ok {text : List Char} {o : Options} : ofJson text = .ok o ↔ Describes text o := by
  unfold ofJson
  constructor
  · intro h
    split at h
    · cases h
    · rename_i o' rest there
      split at h
      · cases h
      · rename_i blank
        cases h
        obtain ⟨tokens, entries, document, tokens', given⟩ := read_eq_ok.mp there
        exact ⟨tokens, entries, rest, document, tokens', Json.readEnd_eq_ok.mp blank, given⟩
  · rintro ⟨tokens, entries, rest, document, tokens', blank, given⟩
    rw [read_eq_ok.mpr ⟨tokens, entries, document, tokens', given⟩]
    simp only [Json.readEnd_eq_ok.mpr blank]

/-- Reading a text gives the options that it describes, and a fault if it describes none. -/
theorem ofJson_describes (text : List Char) :
    (∀ o, ofJson text = .ok o ↔ Describes text o) ∧
      ((∃ e : Json.Error, ofJson text = .error e) ↔ ∀ o, ¬ Describes text o) := by
  refine ⟨fun o => ofJson_eq_ok, ?_, ?_⟩
  · rintro ⟨e, failed⟩ o described
    have read := ofJson_eq_ok.mpr described
    rw [failed] at read
    cases read
  · intro none
    cases read : ofJson text with
    | error e => exact ⟨e, rfl⟩
    | ok o => exact absurd (ofJson_eq_ok.mp read) (none o)

end Options
end LogFanout
