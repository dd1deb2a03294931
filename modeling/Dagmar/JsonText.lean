import Dagmar.Json
import Mathlib.Data.Rat.Defs
import Mathlib.Algebra.Order.Ring.Rat
import Mathlib.Tactic.IntervalCases

/-! `json.dumps` without blanks, restricted to ASCII, and `json.loads`. What
`loads` raises is `none`; so are a surrogate that stands alone, which no character
stands for, and the constants that are not numbers. -/

namespace Dagmar.JsonText

section Writing

def hex4 (n : Nat) : List Char := [n / 4096 % 16, n / 256 % 16, n / 16 % 16, n % 16].map Nat.digitChar

/-- The code of a character, or the two surrogates that stand for it. -/
def units (c : Char) : List Nat :=
  if c.toNat < 0x10000 then [c.toNat]
  else [0xd800 + (c.toNat - 0x10000) / 0x400, 0xdc00 + (c.toNat - 0x10000) % 0x400]

def shortEscapes : List (Char × Char) :=
  [('"', '"'), ('\\', '\\'), ('\n', 'n'), ('\r', 'r'), ('\t', 't'), (Char.ofNat 8, 'b'), (Char.ofNat 12, 'f')]

def escape (c : Char) : List Char :=
  match shortEscapes.find? (·.1 = c) with
  | some short => ['\\', short.2]
  | none => if 0x20 ≤ c.toNat ∧ c.toNat ≤ 0x7e then [c] else (units c).flatMap fun unit => '\\' :: 'u' :: hex4 unit

def dumpsText (text : String) : List Char := '"' :: text.toList.flatMap escape ++ ['"']

def dumpsNumber (value : Int) : List Char := (if value < 0 then ['-'] else []) ++ Nat.toDigits 10 value.natAbs

def dumpsMembers : List (String × List Char) → List Char
  | [] => []
  | [(name, value)] => dumpsText name ++ ':' :: value
  | (name, value) :: rest => dumpsText name ++ ':' :: value ++ ',' :: dumpsMembers rest

/-- An object whose values have been written already. -/
def dumpsObject (members : List (String × List Char)) : List Char := '\x7b' :: dumpsMembers members ++ ['\x7d']

end Writing

section Texts

def hexDigit? (c : Char) : Option Nat :=
  if '0' ≤ c ∧ c ≤ '9' then some (c.toNat - 48)
  else if 'a' ≤ c ∧ c ≤ 'f' then some (c.toNat - 87)
  else if 'A' ≤ c ∧ c ≤ 'F' then some (c.toNat - 55)
  else none

def hex4? (a b c d : Char) : Option Nat := do
  return (((← hexDigit? a) * 16 + (← hexDigit? b)) * 16 + (← hexDigit? c)) * 16 + (← hexDigit? d)

def unescape? (c : Char) : Option Nat :=
  if c = '/' then some 47 else (shortEscapes.find? (·.2 = c)).map (·.1.toNat)

/-- The codes of a text up to its closing quote, and what follows it. -/
def readCodes : List Char → Option (List Nat × List Char)
  | [] => none
  | '"' :: rest => some ([], rest)
  | '\\' :: 'u' :: a :: b :: c :: d :: rest => do
    let code ← hex4? a b c d
    let (codes, rest) ← readCodes rest
    return (code :: codes, rest)
  | '\\' :: c :: rest => do
    let code ← unescape? c
    let (codes, rest) ← readCodes rest
    return (code :: codes, rest)
  | c :: rest => do
    let code ← if c.toNat < 0x20 then none else some c.toNat
    let (codes, rest) ← readCodes rest
    return (code :: codes, rest)

def char? (code : Nat) : Option Char := if code.isValidChar then some (Char.ofNat code) else none

/-- A high and a low surrogate are one character. -/
def characters? : List Nat → Option (List Char)
  | [] => some []
  | [code] => (char? code).map fun c => [c]
  | high :: low :: rest =>
    if 0xd800 ≤ high ∧ high < 0xdc00 ∧ 0xdc00 ≤ low ∧ low < 0xe000 then do
      let c ← char? (0x10000 + (high - 0xd800) * 0x400 + (low - 0xdc00))
      return c :: (← characters? rest)
    else do
      let c ← char? high
      return c :: (← characters? (low :: rest))

def readText (text : List Char) : Option (String × List Char) := do
  let (codes, rest) ← readCodes text
  return (String.ofList (← characters? codes), rest)

end Texts

section Numbers

/-- Digits after a point, if there are any. -/
def readFraction : List Char → List Char × List Char
  | '.' :: rest =>
    if rest.takeWhile Char.isDigit = [] then ([], '.' :: rest)
    else (rest.takeWhile Char.isDigit, rest.dropWhile Char.isDigit)
  | rest => ([], rest)

def readExponent (text : List Char) : Option Int × List Char :=
  match text with
  | mark :: rest =>
    let signed := rest.head? = some '-' ∨ rest.head? = some '+'
    let digits := if signed then rest.drop 1 else rest
    let size : Int := Nat.ofDigitChars 10 (digits.takeWhile Char.isDigit) 0
    if (mark = 'e' ∨ mark = 'E') ∧ digits.takeWhile Char.isDigit ≠ [] then
      (some (if rest.head? = some '-' then -size else size), digits.dropWhile Char.isDigit)
    else (none, text)
  | [] => (none, [])

/-- The digits before the point: one zero, or digits that begin with another one. -/
def wholePart : List Char → List Char
  | '0' :: _ => ['0']
  | text => text.takeWhile Char.isDigit

def decimal (digits : List Char) (exponent : Int) : ℚ :=
  let value : ℚ := Nat.ofDigitChars 10 digits 0
  if exponent < 0 then value / 10 ^ exponent.natAbs else value * 10 ^ exponent.natAbs

def readNumber (text : List Char) : Option (Json × List Char) :=
  let negative := text.head? = some '-'
  let body := if negative then text.drop 1 else text
  let whole := wholePart body
  let (fraction, rest) := readFraction (body.drop whole.length)
  let (exponent, rest) := readExponent rest
  if whole = [] then none
  else if fraction = [] ∧ exponent = none then
    let size : Int := Nat.ofDigitChars 10 whole 0
    some (.number (if negative then -size else size), rest)
  else
    let size := decimal (whole ++ fraction) (exponent.getD 0 - fraction.length)
    some (.float (if negative then -size else size), rest)

end Numbers

section Values

def isBlank (c : Char) : Bool := c = ' ' || c = '\t' || c = '\n' || c = '\r'

def skipBlanks (text : List Char) : List Char := text.dropWhile isBlank

/-- What follows a mark, which may stand after blanks. -/
def after (mark : Char) (text : List Char) : Option (List Char) :=
  match skipBlanks text with
  | [] => none
  | c :: rest => if c = mark then some rest else none

/-- A name that comes again takes the later value. -/
def putField (fields : List (String × Json)) (field : String × Json) : List (String × Json) :=
  if fields.any (·.1 = field.1) then fields.map fun other => if other.1 = field.1 then field else other
  else fields ++ [field]

def minusInfinity : List Char := ['-', 'I', 'n', 'f', 'i', 'n', 'i', 't', 'y']

/- Every call reads a character before it makes another one, so as much fuel as there are
characters is enough. -/
mutual
def readValue : Nat → List Char → Option (Json × List Char)
  | 0, _ => none
  | fuel + 1, text =>
    if minusInfinity <+: text then some (.infinite true, text.drop minusInfinity.length)
    else if (text.head?).any fun c => c = '-' || c.isDigit then readNumber text
    else
      match text with
      | '"' :: rest => (readText rest).map fun (value, rest) => (.text value, rest)
      | '\x7b' :: rest =>
        match after '\x7d' rest with
        | some rest => some (.object [], rest)
        | none => (readMembers fuel rest).map fun (fields, rest) => (.object (fields.foldl putField []), rest)
      | '[' :: rest =>
        match after ']' rest with
        | some rest => some (.list [], rest)
        | none => (readItems fuel rest).map fun (items, rest) => (.list items, rest)
      | 'n' :: 'u' :: 'l' :: 'l' :: rest => some (.null, rest)
      | 't' :: 'r' :: 'u' :: 'e' :: rest => some (.flag true, rest)
      | 'f' :: 'a' :: 'l' :: 's' :: 'e' :: rest => some (.flag false, rest)
      | 'N' :: 'a' :: 'N' :: rest => some (.nan, rest)
      | 'I' :: 'n' :: 'f' :: 'i' :: 'n' :: 'i' :: 't' :: 'y' :: rest => some (.infinite false, rest)
      | _ => none

def readMembers : Nat → List Char → Option (List (String × Json) × List Char)
  | 0, _ => none
  | fuel + 1, text => do
    let (name, rest) ← readText (← after '"' text)
    let (value, rest) ← readValue fuel (skipBlanks (← after ':' rest))
    match after ',' rest with
    | some rest => (readMembers fuel rest).map fun (fields, rest) => ((name, value) :: fields, rest)
    | none => (after '\x7d' rest).map fun rest => ([(name, value)], rest)

def readItems : Nat → List Char → Option (List Json × List Char)
  | 0, _ => none
  | fuel + 1, text => do
    let (value, rest) ← readValue fuel (skipBlanks text)
    match after ',' rest with
    | some rest => (readItems fuel rest).map fun (items, rest) => (value :: items, rest)
    | none => (after ']' rest).map fun rest => ([value], rest)
end

def loads (text : String) : Option Json :=
  match readValue (text.length + 1) (skipBlanks text.toList) with
  | some (value, rest) => if skipBlanks rest = [] then some value else none
  | none => none

end Values

section RoundTrip

theorem hexDigit?_digitChar {n : Nat} (small : n < 16) : hexDigit? (Nat.digitChar n) = some n := by
  interval_cases n <;> decide

theorem hex4_eq (n : Nat) : hex4 n = [Nat.digitChar (n / 4096 % 16), Nat.digitChar (n / 256 % 16),
    Nat.digitChar (n / 16 % 16), Nat.digitChar (n % 16)] := rfl

theorem hex4?_digits {n : Nat} (small : n < 0x10000) :
    hex4? (Nat.digitChar (n / 4096 % 16)) (Nat.digitChar (n / 256 % 16)) (Nat.digitChar (n / 16 % 16))
      (Nat.digitChar (n % 16)) = some n := by
  rw [hex4?, hexDigit?_digitChar (Nat.mod_lt _ (by decide)), hexDigit?_digitChar (Nat.mod_lt _ (by decide)),
    hexDigit?_digitChar (Nat.mod_lt _ (by decide)), hexDigit?_digitChar (Nat.mod_lt _ (by decide))]
  simp only [Option.bind_eq_bind, Option.bind_some, Option.pure_def, Option.some.injEq]
  omega

/-- A code that is read in front of the others. -/
def putCodes (codes : List Nat) (found : List Nat × List Char) : List Nat × List Char := (codes ++ found.1, found.2)

theorem readCodes_hex4 {n : Nat} (small : n < 0x10000) (rest : List Char) :
    readCodes ('\\' :: 'u' :: hex4 n ++ rest) = (readCodes rest).map (putCodes [n]) := by
  rw [hex4_eq]
  simp only [List.cons_append, List.nil_append, readCodes, hex4?_digits small]
  cases readCodes rest <;> rfl

theorem readCodes_short {c : Char} (plain : c ≠ 'u') (rest : List Char) :
    readCodes ('\\' :: c :: rest) = (unescape? c).bind fun code => (readCodes rest).map (putCodes [code]) := by
  rw [readCodes]
  · cases unescape? c <;> cases readCodes rest <;> rfl
  · rintro _ _ _ _ _ rfl
    exact absurd rfl plain

theorem readCodes_plain {c : Char} (unquoted : c ≠ '"') (unescaped : c ≠ '\\') (printable : 0x20 ≤ c.toNat) (rest : List Char) :
    readCodes (c :: rest) = (readCodes rest).map (putCodes [c.toNat]) := by
  rw [readCodes, if_neg (Nat.not_lt.mpr printable)]
  · cases readCodes rest <;> rfl
  · exact unquoted
  · rintro _ _ _ _ _ rfl
    exact absurd rfl unescaped
  · rintro _ _ rfl
    exact absurd rfl unescaped

theorem units_small (c : Char) : ∀ unit ∈ units c, unit < 0x10000 := by
  have size : c.toNat < 0x110000 := by
    have valid := c.valid
    simp only [UInt32.isValidChar, Nat.isValidChar] at valid
    change c.val.toNat < _
    omega
  intro unit member
  unfold units at member
  split at member
  · simp only [List.mem_singleton] at member
    omega
  · simp only [List.mem_cons, List.not_mem_nil, or_false] at member
    rcases member with high | low <;> omega

theorem readCodes_units {codes : List Nat} (small : ∀ code ∈ codes, code < 0x10000) (rest : List Char) :
    readCodes ((codes.flatMap fun unit => '\\' :: 'u' :: hex4 unit) ++ rest) = (readCodes rest).map (putCodes codes) := by
  induction codes with
  | nil =>
    rw [List.flatMap_nil, List.nil_append]
    cases readCodes rest <;> rfl
  | cons code codes ih =>
    rw [List.forall_mem_cons] at small
    rw [List.flatMap_cons, List.append_assoc, readCodes_hex4 small.1, ih small.2]
    cases readCodes rest <;> rfl

theorem readCodes_escape (c : Char) (rest : List Char) :
    readCodes (escape c ++ rest) = (readCodes rest).map (putCodes (units c)) := by
  unfold escape
  split
  next short found =>
    have member := List.mem_of_find?_eq_some found
    have chosen := List.find?_some found
    have same : short.1 = c := by simpa using chosen
    subst same
    have code : unescape? short.2 = some short.1.toNat ∧ short.2 ≠ 'u' ∧ units short.1 = [short.1.toNat] := by
      revert short
      decide
    obtain ⟨unescaped, plain, single⟩ := code
    rw [single, List.cons_append, List.cons_append, List.nil_append, readCodes_short plain, unescaped, Option.bind_some]
  next missing =>
    split
    next printable =>
      have absent := List.find?_eq_none.mp missing
      have unquoted : c ≠ '"' := fun same => absent ('"', '"') (by decide) (decide_eq_true same.symm)
      have unescaped : c ≠ '\\' := fun same => absent ('\\', '\\') (by decide) (decide_eq_true same.symm)
      have single : units c = [c.toNat] := if_pos (by omega)
      rw [single, List.cons_append, List.nil_append, readCodes_plain unquoted unescaped printable.1]
    next => exact readCodes_units (units_small c) rest

theorem readCodes_text (text : List Char) (rest : List Char) :
    readCodes (text.flatMap escape ++ '"' :: rest) = some (text.flatMap units, rest) := by
  induction text with
  | nil => rfl
  | cons c text ih =>
    rw [List.flatMap_cons, List.append_assoc, readCodes_escape, ih]
    rfl

theorem toNat_valid (c : Char) : c.toNat.isValidChar := c.valid

theorem char?_toNat (c : Char) : char? c.toNat = some c := by
  rw [char?, if_pos (toNat_valid c), Char.ofNat_toNat]

theorem characters?_single {code : Nat} (single : ¬ (0xd800 ≤ code ∧ code < 0xdc00)) (codes : List Nat) :
    characters? (code :: codes) = (char? code).bind fun c => (characters? codes).map (c :: ·) := by
  cases codes with
  | nil =>
    rw [characters?, characters?]
    cases char? code <;> rfl
  | cons low rest =>
    rw [characters?, if_neg fun pair => single ⟨pair.1, pair.2.1⟩]
    cases char? code <;> cases characters? (low :: rest) <;> rfl

theorem characters?_units (c : Char) (codes : List Nat) :
    characters? (units c ++ codes) = (characters? codes).map (c :: ·) := by
  have valid := toNat_valid c
  simp only [Nat.isValidChar] at valid
  unfold units
  split
  next =>
    rw [List.cons_append, List.nil_append, characters?_single (by omega), char?_toNat]
    rfl
  next large =>
    have pair : 0xd800 ≤ 0xd800 + (c.toNat - 0x10000) / 0x400 ∧ 0xd800 + (c.toNat - 0x10000) / 0x400 < 0xdc00 ∧
        0xdc00 ≤ 0xdc00 + (c.toNat - 0x10000) % 0x400 ∧ 0xdc00 + (c.toNat - 0x10000) % 0x400 < 0xe000 := by omega
    have joined : 0x10000 + (0xd800 + (c.toNat - 0x10000) / 0x400 - 0xd800) * 0x400 +
        (0xdc00 + (c.toNat - 0x10000) % 0x400 - 0xdc00) = c.toNat := by omega
    rw [List.cons_append, List.cons_append, List.nil_append, characters?, if_pos pair, joined, char?_toNat]
    cases characters? codes <;> rfl

theorem readText_dumps (text : String) (rest : List Char) :
    readText (text.toList.flatMap escape ++ '"' :: rest) = some (text, rest) := by
  have read : ∀ characters : List Char, characters? (characters.flatMap units) = some characters := by
    intro characters
    induction characters with
    | nil => rfl
    | cons c characters ih =>
      rw [List.flatMap_cons, characters?_units, ih]
      rfl
  rw [readText, readCodes_text]
  simp only [Option.bind_eq_bind, Option.bind_some, read, Option.pure_def, String.ofList_toList]

/-- A number ends where neither a digit nor a point nor an exponent follows. -/
def EndsNumber (rest : List Char) : Prop :=
  ∀ c ∈ rest.head?, c.isDigit = false ∧ c ≠ '.' ∧ c ≠ 'e' ∧ c ≠ 'E'

theorem head?_toDigits {n : Nat} (positive : 0 < n) : ∃ c ∈ (Nat.toDigits 10 n).head?, c ≠ '0' ∧ c.isDigit = true := by
  induction n using Nat.strong_induction_on with
  | _ n ih =>
    by_cases small : n < 10
    · rw [Nat.toDigits_of_lt_base small]
      refine ⟨_, rfl, ?_, ?_⟩ <;> interval_cases n <;> decide
    · obtain ⟨c, first, nonzero⟩ := ih (n / 10) (by omega) (by omega)
      refine ⟨c, ?_, nonzero⟩
      rw [Nat.toDigits_of_base_le (by decide) (by omega), List.head?_append, first]
      rfl

theorem wholePart_toDigits (n : Nat) {rest : List Char} (ends : EndsNumber rest) :
    wholePart (Nat.toDigits 10 n ++ rest) = Nat.toDigits 10 n := by
  have digits : (Nat.toDigits 10 n ++ rest).takeWhile Char.isDigit = Nat.toDigits 10 n := by
    rw [List.takeWhile_append_of_pos fun c => Nat.isDigit_of_mem_toDigits (by decide) (by decide)]
    cases rest with
    | nil => simp
    | cons c rest => rw [List.takeWhile_cons_of_neg (by simp [(ends c rfl).1]), List.append_nil]
  by_cases zero : n = 0
  · subst zero
    rfl
  · obtain ⟨c, first, nonzero, -⟩ := head?_toDigits (Nat.pos_of_ne_zero zero)
    unfold wholePart
    split
    next same =>
      have head := congrArg List.head? same
      rw [List.head?_append, first] at head
      exact absurd (Option.some.inj head) nonzero
    next => exact digits

theorem EndsNumber.fraction {rest : List Char} (ends : EndsNumber rest) : readFraction rest = ([], rest) := by
  unfold readFraction
  split
  next => exact absurd rfl (ends '.' rfl).2.1
  next => rfl

theorem EndsNumber.exponent {rest : List Char} (ends : EndsNumber rest) : readExponent rest = (none, rest) := by
  cases rest with
  | nil => rfl
  | cons c rest =>
    obtain ⟨-, -, lower, upper⟩ := ends c rfl
    simp [readExponent, lower, upper]

/-- A number begins with a digit or a sign. -/
theorem head?_dumpsNumber (value : Int) :
    ∃ c ∈ (dumpsNumber value).head?, (c = '-' ∨ c.isDigit = true) ∧ (c = '-' ↔ value < 0) := by
  unfold dumpsNumber
  split
  next negative => exact ⟨'-', rfl, .inl rfl, iff_of_true rfl negative⟩
  next unsigned =>
    rw [List.nil_append]
    cases digits : Nat.toDigits 10 value.natAbs with
    | nil => exact absurd digits Nat.toDigits_ne_nil
    | cons c rest =>
      have digit : c.isDigit = true :=
        Nat.isDigit_of_mem_toDigits (by decide) (by decide) (digits ▸ List.mem_cons_self)
      refine ⟨c, rfl, .inr digit, iff_of_false ?_ unsigned⟩
      rintro rfl
      cases digit

theorem readNumber_dumps (value : Int) {rest : List Char} (ends : EndsNumber rest) :
    readNumber (dumpsNumber value ++ rest) = some (.number value, rest) := by
  have whole := wholePart_toDigits value.natAbs ends
  have some_digit : Nat.toDigits 10 value.natAbs ≠ [] := Nat.toDigits_ne_nil
  have size := Nat.ofDigitChars_ten_toDigits (n := value.natAbs)
  by_cases negative : value < 0
  · simp only [dumpsNumber, if_pos negative, List.cons_append, List.nil_append, readNumber, List.head?_cons, if_true,
      List.drop_one, List.tail_cons, whole, List.drop_left, ends.fraction, ends.exponent, if_neg some_digit, and_self, size]
    congr 3
    omega
  · obtain ⟨c, first, -, sign⟩ := head?_dumpsNumber value
    rw [dumpsNumber, if_neg negative, List.nil_append] at first ⊢
    have unsigned : (Nat.toDigits 10 value.natAbs ++ rest).head? ≠ some '-' := by
      rw [List.head?_append, first]
      exact fun same => negative (sign.mp (Option.some.inj same))
    simp only [readNumber, if_neg unsigned, whole, List.drop_left, ends.fraction, ends.exponent, if_neg some_digit, and_self,
      if_true, size]
    congr 3
    omega

theorem minusInfinity_opens {text : List Char} (opens : minusInfinity <+: text) : ∃ rest, text = '-' :: 'I' :: rest := by
  obtain ⟨rest, rfl⟩ := opens
  exact ⟨_, rfl⟩

theorem not_minusInfinity_cons {c : Char} {text : List Char} (signless : c ≠ '-') : ¬ minusInfinity <+: c :: text := by
  intro opens
  obtain ⟨rest, same⟩ := minusInfinity_opens opens
  exact signless (List.cons.inj same).1

theorem head_toDigits {n : Nat} {c : Char} {text rest : List Char} (same : Nat.toDigits 10 n ++ text = c :: rest) :
    c.isDigit = true := by
  cases digits : Nat.toDigits 10 n with
  | nil => exact absurd digits Nat.toDigits_ne_nil
  | cons first more =>
    rw [digits] at same
    cases same
    exact Nat.isDigit_of_mem_toDigits (by decide) (by decide) (digits ▸ List.mem_cons_self)

theorem not_minusInfinity_number (value : Int) (rest : List Char) : ¬ minusInfinity <+: dumpsNumber value ++ rest := by
  intro opens
  obtain ⟨more, same⟩ := minusInfinity_opens opens
  unfold dumpsNumber at same
  split at same
  · cases head_toDigits (List.cons.inj same).2
  · cases head_toDigits same

/-- What a written value reads as, whatever may follow a value. -/
def ReadsAs (written : List Char) (value : Json) : Prop :=
  (∀ c ∈ written.head?, isBlank c = false) ∧ written ≠ [] ∧
  ∀ fuel rest, EndsNumber rest → readValue (fuel + 1) (written ++ rest) = some (value, rest)

theorem readsAs_text (text : String) : ReadsAs (dumpsText text) (.text text) := by
  refine ⟨?_, by simp [dumpsText], ?_⟩
  · rintro c first
    cases first
    rfl
  · intro fuel rest _
    have shape : dumpsText text ++ rest = '"' :: (text.toList.flatMap escape ++ '"' :: rest) := by simp [dumpsText]
    rw [shape, readValue, if_neg (not_minusInfinity_cons (by decide)), if_neg (by simp)]
    rw [readText_dumps]
    rfl

theorem readsAs_number (value : Int) : ReadsAs (dumpsNumber value) (.number value) := by
  obtain ⟨c, first, kind, -⟩ := head?_dumpsNumber value
  refine ⟨?_, ?_, ?_⟩
  · intro other same
    cases first.symm.trans same
    rcases kind with rfl | digit
    · rfl
    · simp only [isBlank, Bool.or_eq_false_iff, decide_eq_false_iff_not]
      refine ⟨⟨⟨?_, ?_⟩, ?_⟩, ?_⟩ <;> rintro rfl <;> cases digit
  · rintro empty
    rw [empty] at first
    cases first
  · intro fuel rest ends
    have opens : ((dumpsNumber value ++ rest).head?).any (fun c => c = '-' || c.isDigit) = true := by
      rw [List.head?_append, first]
      simpa using kind
    unfold readValue
    rw [if_neg (not_minusInfinity_number value rest), if_pos opens, readNumber_dumps value ends]

theorem skipBlanks_of_head {text : List Char} (plain : ∀ c ∈ text.head?, isBlank c = false) : skipBlanks text = text := by
  cases text with
  | nil => rfl
  | cons c text => rw [skipBlanks, List.dropWhile_cons_of_neg (by simp [plain c rfl])]

theorem after_self {mark : Char} (plain : isBlank mark = false) (rest : List Char) : after mark (mark :: rest) = some rest := by
  rw [after, skipBlanks_of_head (by rintro c ⟨⟩; exact plain)]
  exact if_pos rfl

theorem readMember_dumps {name : String} {written : List Char} {value : Json} (reads : ReadsAs written value) (fuel : Nat)
    {rest : List Char} (ends : EndsNumber rest) :
    readMembers (fuel + 2) (dumpsText name ++ ':' :: written ++ rest) =
      match after ',' rest with
      | some rest => (readMembers (fuel + 1) rest).map fun (fields, rest) => ((name, value) :: fields, rest)
      | none => (after '\x7d' rest).map fun rest => ([(name, value)], rest) := by
  obtain ⟨plain, inhabited, read⟩ := reads
  have shape : dumpsText name ++ ':' :: written ++ rest =
      '"' :: (name.toList.flatMap escape ++ '"' :: ':' :: (written ++ rest)) := by simp [dumpsText]
  have opens : skipBlanks (written ++ rest) = written ++ rest := by
    refine skipBlanks_of_head fun c first => plain c ?_
    cases written with
    | nil => exact absurd rfl inhabited
    | cons opening more => exact first
  rw [shape, readMembers, after_self (by decide)]
  simp only [Option.bind_eq_bind, Option.bind_some]
  rw [readText_dumps]
  simp only [Option.bind_some]
  rw [after_self (by decide)]
  simp only [Option.bind_some]
  rw [opens, read fuel rest ends]
  rfl

theorem endsNumber_cons {c : Char} (mark : c.isDigit = false ∧ c ≠ '.' ∧ c ≠ 'e' ∧ c ≠ 'E') (rest : List Char) :
    EndsNumber (c :: rest) := by
  rintro other ⟨⟩
  exact mark

/-- Members that have been written are read in their order. -/
theorem readMembers_dumps {members : List (String × List Char × Json)} (inhabited : members ≠ [])
    (written : ∀ member ∈ members, ReadsAs member.2.1 member.2.2) {fuel : Nat} (enough : members.length < fuel) (rest : List Char) :
    readMembers fuel (dumpsMembers (members.map fun member => (member.1, member.2.1)) ++ '\x7d' :: rest) =
      some (members.map fun member => (member.1, member.2.2), rest) := by
  induction members generalizing fuel with
  | nil => exact absurd rfl inhabited
  | cons member members ih =>
    obtain ⟨name, text, value⟩ := member
    obtain ⟨reads, others⟩ := List.forall_mem_cons.mp written
    obtain ⟨fuel, rfl⟩ : ∃ less, fuel = less + 2 := ⟨fuel - 2, by rw [List.length_cons] at enough; omega⟩
    cases members with
    | nil =>
      have closes : EndsNumber ('\x7d' :: rest) := endsNumber_cons (by decide) rest
      simp only [List.map_cons, List.map_nil, dumpsMembers]
      rw [readMember_dumps reads fuel closes, after_self (by decide)]
      rfl
    | cons next members =>
      have separates : ∀ text, EndsNumber (',' :: text) := endsNumber_cons (by decide)
      have more := ih (by simp) others (Nat.lt_of_succ_lt_succ enough)
      simp only [List.map_cons, dumpsMembers] at more ⊢
      have shape (first second : List Char) : first ++ ',' :: second ++ '\x7d' :: rest =
          first ++ ',' :: (second ++ '\x7d' :: rest) := by simp
      rw [shape, readMember_dumps reads fuel (separates _), after_self (by decide)]
      simp only [more, Option.map_some]

theorem length_dumpsMembers (members : List (String × List Char)) : members.length ≤ (dumpsMembers members).length := by
  induction members with
  | nil => exact Nat.zero_le _
  | cons member members ih =>
    cases members with
    | nil =>
      simp only [dumpsMembers, List.length_append, List.length_cons, List.length_nil]
      omega
    | cons next members =>
      simp only [dumpsMembers, List.length_append, List.length_cons] at ih ⊢
      omega

/-- What `dumps` writes for an object with members is what `loads` reads. -/
theorem loads_dumps {members : List (String × List Char × Json)} (inhabited : members ≠ [])
    (written : ∀ member ∈ members, ReadsAs member.2.1 member.2.2) :
    loads (String.ofList (dumpsObject (members.map fun member => (member.1, member.2.1)))) =
      some (.object ((members.map fun member => (member.1, member.2.2)).foldl putField [])) := by
  have enough := length_dumpsMembers (members.map fun member => (member.1, member.2.1))
  rw [List.length_map] at enough
  have unopened : after '\x7d' (dumpsMembers (members.map fun member => (member.1, member.2.1)) ++ ['\x7d']) = none := by
    obtain ⟨⟨name, text, value⟩, members, rfl⟩ := List.exists_cons_of_ne_nil inhabited
    cases members <;> rfl
  have shape : dumpsObject (members.map fun member => (member.1, member.2.1)) =
      '\x7b' :: (dumpsMembers (members.map fun member => (member.1, member.2.1)) ++ ['\x7d']) := rfl
  have fuel : members.length < ('\x7b' :: (dumpsMembers (members.map fun member => (member.1, member.2.1)) ++ ['\x7d'])).length := by
    rw [List.length_cons, List.length_append]
    omega
  have read := readMembers_dumps inhabited written fuel []
  rw [loads, String.toList_ofList, String.length_ofList, shape, skipBlanks_of_head (by rintro c ⟨⟩; rfl), readValue,
    if_neg (not_minusInfinity_cons (by decide)), if_neg (by simp)]
  simp only [unopened, read, Option.map_some]
  rfl

end RoundTrip

end Dagmar.JsonText
