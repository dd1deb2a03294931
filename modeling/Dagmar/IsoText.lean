import Dagmar.PragueTime
import Dagmar.Text

/-! `datetime.isoformat` and `datetime.fromisoformat`. A datetime with an offset is
written with the wall time it shows; it is read back as the instant it names. -/

namespace Dagmar
open Library.Calendar

section Writing

def digit (n : Nat) : Char := Nat.digitChar (n % 10)

/-- The last digits of a number. -/
def padded : Nat → Nat → List Char
  | 0, _ => []
  | width + 1, n => padded width (n / 10) ++ [digit n]

def isoDate (date : Int) : List Char :=
  padded 4 (yearOf date).toNat ++ '-' :: padded 2 (monthOf date) ++ '-' :: padded 2 (dayOf date).toNat

/-- Microseconds are written only when there are any. -/
def isoFraction (microseconds : Nat) : List Char := if microseconds = 0 then [] else '.' :: padded 6 microseconds

def isoTime (microseconds : Nat) : List Char :=
  padded 2 (microseconds / 3600000000) ++ ':' :: padded 2 (microseconds / 60000000 % 60) ++
    ':' :: padded 2 (microseconds / 1000000 % 60) ++ isoFraction (microseconds % 1000000)

/-- The seconds of an offset are written only when there are any. -/
def isoOffset (offset : Int) : List Char :=
  let size := offset.natAbs
  (if offset < 0 then '-' else '+') :: padded 2 (size / 3600000000) ++ ':' :: padded 2 (size / 60000000 % 60) ++
    if size % 60000000 = 0 then [] else ':' :: padded 2 (size / 1000000 % 60) ++ isoFraction (size % 1000000)

def isoformat (wall offset : Int) : String :=
  String.ofList (isoDate (dateOf wall) ++ 'T' :: isoTime (wall % day).toNat ++ isoOffset offset)

end Writing

section Reading

/-- Digits after the sixth are read and dropped. -/
def fraction? : List Char → Option Nat
  | [] => some 0
  | mark :: digits =>
    if (mark = '.' ∨ mark = ',') ∧ digits ≠ [] then do
      let _ ← digits? (digits.drop 6)
      return (← digits? (digits.take 6)) * 10 ^ (6 - digits.length)
    else none

structure ClockFields where
  hour : Nat
  minute : Nat
  second : Nat
  microsecond : Nat
deriving DecidableEq

def clockFields? : List Char → Option ClockFields
  | [h1, h2] => do return ⟨← digits? [h1, h2], 0, 0, 0⟩
  | [h1, h2, m1, m2] => do return ⟨← digits? [h1, h2], ← digits? [m1, m2], 0, 0⟩
  | [h1, h2, ':', m1, m2] => do return ⟨← digits? [h1, h2], ← digits? [m1, m2], 0, 0⟩
  | h1 :: h2 :: ':' :: m1 :: m2 :: ':' :: s1 :: s2 :: rest => do
    return ⟨← digits? [h1, h2], ← digits? [m1, m2], ← digits? [s1, s2], ← fraction? rest⟩
  | h1 :: h2 :: m1 :: m2 :: s1 :: s2 :: rest => do
    return ⟨← digits? [h1, h2], ← digits? [m1, m2], ← digits? [s1, s2], ← fraction? rest⟩
  | _ => none

def ClockFields.microseconds (fields : ClockFields) : Int :=
  ((fields.hour * 60 + fields.minute) * 60 + fields.second) * 1000000 + fields.microsecond

/-- The offset of a time text; the outer `none` is a `ValueError`. -/
def offset? : List Char → Option (Option Int)
  | [] => some none
  | ['Z'] => some (some 0)
  | 'Z' :: _ => none
  | sign :: text => do
    let size := (← clockFields? text).microseconds
    if size < day then return some (if sign = '-' then -size else size) else none

def opensZone (c : Char) : Bool := c = '+' || c = '-' || c = 'Z'

def time? (text : List Char) : Option (Int × Option Int) := do
  let fields ← clockFields? (text.takeWhile (¬ opensZone ·))
  let offset ← offset? (text.dropWhile (¬ opensZone ·))
  if fields.hour < 24 ∧ fields.minute < 60 ∧ fields.second < 60 then return (fields.microseconds, offset) else none

/-- Where the date ends. After a week, digits decide whether they are its day or the time. -/
def separatorAt (text : List Char) : Nat :=
  if text.length = 7 then 7 else
  match text with
  | _ :: _ :: _ :: _ :: '-' :: 'W' :: _ :: _ :: '-' :: _ :: rest =>
    if ((rest.head?).bind ascii?).isSome then 8 else 10
  | _ :: _ :: _ :: _ :: '-' :: 'W' :: _ => 8
  | _ :: _ :: _ :: _ :: '-' :: _ => 10
  | _ :: _ :: _ :: _ :: 'W' :: _ :: _ :: rest =>
    let last := 7 + (rest.takeWhile fun c => (ascii? c).isSome).length
    if last < 9 then last else if last % 2 = 0 then 7 else 8
  | _ => 8

/-- `datetime.fromisoformat`: `none` is a `ValueError`. -/
def datetimeFromIsoformat (value : String) : Option RequestTime := do
  let text := value.toList
  let date ← dateFromIsoformat (String.ofList (text.take (separatorAt text)))
  match text.drop (separatorAt text) with
  | [] => return .naive (midnight date)
  | _ :: rest =>
    let (time, offset) ← time? rest
    match offset with
    | none => return .naive (midnight date + time)
    | some offset => return .aware (midnight date + time - offset)

end Reading

section RoundTrip

theorem ascii?_digit (n : Nat) : ascii? (digit n) = some (n % 10) := by
  have small := Nat.mod_lt n (show 0 < 10 by decide)
  rw [digit]
  generalize n % 10 = value at small
  interval_cases value <;> rfl

theorem opensZone_digit (n : Nat) : opensZone (digit n) = false := by
  have small := Nat.mod_lt n (show 0 < 10 by decide)
  rw [digit]
  generalize n % 10 = value at small
  interval_cases value <;> rfl

theorem digits?_padded (width n : Nat) : digits? (padded width n) = some (n % 10 ^ width) := by
  induction width generalizing n with
  | zero => simp [padded, digits?, Nat.mod_one]
  | succ width ih =>
    have read : digits? (padded width (n / 10)) = some (n / 10 % 10 ^ width) := ih (n / 10)
    rw [digits?] at read ⊢
    rw [padded, List.foldlM_append, read]
    simp only [Option.bind_eq_bind, Option.bind_some, List.foldlM_cons, List.foldlM_nil, ascii?_digit, Option.map_some,
      Option.pure_def]
    rw [Nat.pow_succ, Nat.mul_comm (10 ^ width) 10, Nat.mod_mul]
    exact congrArg some (by omega)

theorem digits?_padded_of_lt {width n : Nat} (small : n < 10 ^ width) : digits? (padded width n) = some n := by
  rw [digits?_padded, Nat.mod_eq_of_lt small]

theorem length_padded (width n : Nat) : (padded width n).length = width := by
  induction width generalizing n with
  | zero => rfl
  | succ width ih => rw [padded, List.length_append, ih, List.length_singleton]

theorem padded_clean (width n : Nat) : ∀ c ∈ padded width n, opensZone c = false := by
  induction width generalizing n with
  | zero => simp [padded]
  | succ width ih =>
    intro c member
    rw [padded, List.mem_append] at member
    rcases member with before | last
    · exact ih (n / 10) c before
    · rw [List.mem_singleton.mp last]
      exact opensZone_digit n

/-- The days that `date` can name. -/
def inCalendar (date : Int) : Prop := 1 ≤ date ∧ date ≤ ordinal 9999 12 31

instance (date : Int) : Decidable (inCalendar date) := inferInstanceAs (Decidable (_ ∧ _))

theorem yearOf_inCalendar {date : Int} (inside : inCalendar date) : 1 ≤ yearOf date ∧ yearOf date ≤ 9999 := by
  have bounds := yearOf_bounds date
  have last : ordinal 9999 12 31 = daysBeforeYear 10000 := by decide
  have first : daysBeforeYear 1 = 0 := by decide
  obtain ⟨low, high⟩ := inside
  constructor
  · by_contra early
    have := daysBeforeYear_mono (show yearOf date + 1 ≤ 1 by omega)
    omega
  · by_contra late
    have := daysBeforeYear_mono (show 10000 ≤ yearOf date by omega)
    omega

theorem dayOf_bounds (date : Int) : 1 ≤ dayOf date ∧ dayOf date ≤ daysInMonth (yearOf date) (monthOf date) := by
  have first := firstDay_le date
  have last := lt_firstDay_succ date
  obtain ⟨low, -⟩ := monthOf_bounds date
  obtain ⟨month, same⟩ := Nat.exists_eq_add_of_le low
  simp only [firstDay, ordinal, dayOf] at first last ⊢
  rw [same, Nat.add_comm 1 month] at first last ⊢
  rw [show month + 1 + 1 = month + 2 from rfl, daysBeforeMonth] at last
  omega

theorem ordinal_fields (date : Int) : ordinal (yearOf date) (monthOf date) (dayOf date) = date := by
  simp only [ordinal, dayOf]
  omega

theorem daysInMonth_le (year : Int) (month : Nat) : daysInMonth year month ≤ 31 := by
  unfold daysInMonth
  repeat' split
  all_goals omega

theorem date?_fields {date : Int} (inside : inCalendar date) : date? (yearOf date) (monthOf date) (dayOf date) = some date := by
  have years := yearOf_inCalendar inside
  have months := monthOf_bounds date
  have days := dayOf_bounds date
  rw [date?, if_pos ⟨years.1, years.2, months.1, months.2, days.1, days.2⟩, ordinal_fields]

theorem padded_two (n : Nat) : padded 2 n = [digit (n / 10), digit n] := rfl

theorem padded_four (n : Nat) : padded 4 n = [digit (n / 10 / 10 / 10), digit (n / 10 / 10), digit (n / 10), digit n] := rfl

theorem digit_ne_W (n : Nat) : digit n ≠ 'W' := by
  intro same
  have read := ascii?_digit n
  rw [same] at read
  cases read

theorem dateFromIsoformat_calendar {y1 y2 y3 y4 m1 m2 d1 d2 : Char} (calendar : m1 ≠ 'W') :
    dateFromIsoformat (String.ofList [y1, y2, y3, y4, '-', m1, m2, '-', d1, d2]) = (do
      date? (← digits? [y1, y2, y3, y4]) (← digits? [m1, m2]) (← digits? [d1, d2])) := by
  simp only [dateFromIsoformat, String.toList_ofList]
  split <;> simp_all
  next excluded => exact absurd rfl (excluded _ _ _ _ _ _ _ _ rfl rfl rfl rfl rfl rfl rfl)

theorem separatorAt_calendar {y1 y2 y3 y4 m1 m2 d1 d2 : Char} (calendar : m1 ≠ 'W') (rest : List Char) :
    separatorAt (y1 :: y2 :: y3 :: y4 :: '-' :: m1 :: m2 :: '-' :: d1 :: d2 :: rest) = 10 := by
  simp only [separatorAt]
  rw [if_neg (by simp)]
  split <;> simp_all
  next excluded => exact excluded _ _ _ _ _ rfl rfl rfl rfl rfl

theorem dateFromIsoformat_isoDate {date : Int} (inside : inCalendar date) :
    dateFromIsoformat (String.ofList (isoDate date)) = some date := by
  have years := yearOf_inCalendar inside
  have months := monthOf_bounds date
  have days := dayOf_bounds date
  have short := daysInMonth_le (yearOf date) (monthOf date)
  have year : digits? (padded 4 (yearOf date).toNat) = some (yearOf date).toNat := digits?_padded_of_lt (by omega)
  have month : digits? (padded 2 (monthOf date)) = some (monthOf date) := digits?_padded_of_lt (by omega)
  have ofMonth : digits? (padded 2 (dayOf date).toNat) = some (dayOf date).toNat := digits?_padded_of_lt (by omega)
  simp only [isoDate, padded_two, padded_four, List.cons_append, List.nil_append] at year month ofMonth ⊢
  rw [dateFromIsoformat_calendar (digit_ne_W _), year, month, ofMonth]
  simp only [Option.bind_eq_bind, Option.bind_some]
  rw [Int.toNat_of_nonneg (by omega), Int.toNat_of_nonneg (by omega), date?_fields inside]

theorem fraction?_isoFraction {microseconds : Nat} (small : microseconds < 1000000) :
    fraction? (isoFraction microseconds) = some microseconds := by
  unfold isoFraction
  split
  next none => rw [none, fraction?]
  next some =>
    have long := length_padded 6 microseconds
    have read : digits? (padded 6 microseconds) = Option.some microseconds := digits?_padded_of_lt small
    have filled : padded 6 microseconds ≠ [] := by
      intro empty
      rw [empty] at long
      cases long
    rw [fraction?, if_pos ⟨.inl rfl, filled⟩, List.drop_of_length_le long.le, List.take_of_length_le long.le, read, long]
    simp [digits?]

theorem clockFields?_isoTime {microseconds : Nat} (within : microseconds < 86400000000) :
    clockFields? (isoTime microseconds) = some ⟨microseconds / 3600000000, microseconds / 60000000 % 60,
      microseconds / 1000000 % 60, microseconds % 1000000⟩ := by
  have hour : digits? (padded 2 (microseconds / 3600000000)) = some (microseconds / 3600000000) :=
    digits?_padded_of_lt (by omega)
  have minute : digits? (padded 2 (microseconds / 60000000 % 60)) = some (microseconds / 60000000 % 60) :=
    digits?_padded_of_lt (by omega)
  have second : digits? (padded 2 (microseconds / 1000000 % 60)) = some (microseconds / 1000000 % 60) :=
    digits?_padded_of_lt (by omega)
  have fraction := fraction?_isoFraction (Nat.mod_lt microseconds (show 0 < 1000000 by decide))
  simp only [isoTime, padded_two, List.cons_append, List.nil_append] at hour minute second ⊢
  simp only [clockFields?, hour, minute, second, fraction, Option.bind_eq_bind, Option.bind_some, Option.pure_def]

theorem isoTime_clean (microseconds : Nat) : ∀ c ∈ isoTime microseconds, ¬ opensZone c = true := by
  have colon : opensZone ':' = false := rfl
  have dot : opensZone '.' = false := rfl
  have fraction : ∀ c ∈ isoFraction (microseconds % 1000000), opensZone c = false := by
    intro c member
    unfold isoFraction at member
    split at member
    · cases member
    · rcases List.mem_cons.mp member with rfl | later
      · exact dot
      · exact padded_clean _ _ c later
  intro c member
  rw [Bool.not_eq_true]
  simp only [isoTime, List.mem_append, List.mem_cons] at member
  rcases member with ((hour | rfl | minute) | rfl | second) | rest
  · exact padded_clean _ _ c hour
  · exact colon
  · exact padded_clean _ _ c minute
  · exact colon
  · exact padded_clean _ _ c second
  · exact fraction c rest

theorem padded_clock {size : Nat} (within : size < 86400000000) :
    digits? (padded 2 (size / 3600000000)) = some (size / 3600000000) ∧
      digits? (padded 2 (size / 60000000 % 60)) = some (size / 60000000 % 60) ∧
      digits? (padded 2 (size / 1000000 % 60)) = some (size / 1000000 % 60) :=
  ⟨digits?_padded_of_lt (by omega), digits?_padded_of_lt (by omega), digits?_padded_of_lt (by omega)⟩

theorem offset?_signed {sign : Char} (signed : sign ≠ 'Z') {text : List Char} {fields : ClockFields}
    (clock : clockFields? text = some fields) (bounded : fields.microseconds < day) :
    offset? (sign :: text) = some (some (if sign = '-' then -fields.microseconds else fields.microseconds)) := by
  unfold offset?
  split
  next empty => cases empty
  next same => exact absurd (List.cons.inj same).1 signed
  next same => exact absurd (List.cons.inj same).1 signed
  next same =>
    cases same
    rw [clock, Option.bind_eq_bind, Option.bind_some, if_pos bounded]
    rfl

theorem offset?_sized {offset : Int} (within : offset.natAbs < 86400000000) {text : List Char} {fields : ClockFields}
    (clock : clockFields? text = some fields) (size : fields.microseconds = offset.natAbs) :
    offset? ((if offset < 0 then '-' else '+') :: text) = some (some offset) := by
  have bounded : fields.microseconds < day := by
    simp only [day]
    omega
  by_cases negative : offset < 0
  · rw [if_pos negative, offset?_signed (by decide) clock bounded, if_pos rfl, size]
    congr 2
    omega
  · rw [if_neg negative, offset?_signed (by decide) clock bounded, if_neg (by decide), size]
    congr 2
    omega

/-- An offset is written with its seconds or without them. -/
theorem offset?_isoOffset {offset : Int} (within : offset.natAbs < 86400000000) : offset? (isoOffset offset) = some (some offset) := by
  obtain ⟨hour, minute, second⟩ := padded_clock within
  have fraction := fraction?_isoFraction (Nat.mod_lt offset.natAbs (show 0 < 1000000 by decide))
  simp only [padded_two] at hour minute second
  unfold isoOffset
  by_cases whole : offset.natAbs % 60000000 = 0
  · simp only [if_pos whole, List.append_nil, padded_two, List.cons_append, List.nil_append]
    have clock : clockFields? [digit (offset.natAbs / 3600000000 / 10), digit (offset.natAbs / 3600000000), ':',
        digit (offset.natAbs / 60000000 % 60 / 10), digit (offset.natAbs / 60000000 % 60)] =
        some ⟨offset.natAbs / 3600000000, offset.natAbs / 60000000 % 60, 0, 0⟩ := by
      simp only [clockFields?, hour, minute, Option.bind_eq_bind, Option.bind_some, Option.pure_def]
    apply offset?_sized within clock
    simp only [ClockFields.microseconds]
    omega
  · simp only [if_neg whole, padded_two, List.cons_append, List.nil_append]
    have clock : clockFields? (digit (offset.natAbs / 3600000000 / 10) :: digit (offset.natAbs / 3600000000) :: ':' ::
        digit (offset.natAbs / 60000000 % 60 / 10) :: digit (offset.natAbs / 60000000 % 60) :: ':' ::
        digit (offset.natAbs / 1000000 % 60 / 10) :: digit (offset.natAbs / 1000000 % 60) ::
        isoFraction (offset.natAbs % 1000000)) =
        some ⟨offset.natAbs / 3600000000, offset.natAbs / 60000000 % 60, offset.natAbs / 1000000 % 60,
          offset.natAbs % 1000000⟩ := by
      simp only [clockFields?, hour, minute, second, fraction, Option.bind_eq_bind, Option.bind_some, Option.pure_def]
    apply offset?_sized within clock
    simp only [ClockFields.microseconds]
    omega

theorem isoOffset_opens (offset : Int) : ∃ sign text, isoOffset offset = sign :: text ∧ opensZone sign = true := by
  refine ⟨_, _, rfl, ?_⟩
  split <;> rfl

/-- A time is read back with its offset. -/
theorem time?_isoTime {microseconds : Nat} (within : microseconds < 86400000000) {offset : Int}
    (within' : offset.natAbs < 86400000000) :
    time? (isoTime microseconds ++ isoOffset offset) = some ((microseconds : Int), some offset) := by
  have clean : ∀ c ∈ isoTime microseconds, (decide ¬ opensZone c = true) = true := fun c member =>
    decide_eq_true (isoTime_clean microseconds c member)
  have fields := clockFields?_isoTime within
  have zone := offset?_isoOffset within'
  obtain ⟨sign, text, open', marks⟩ := isoOffset_opens offset
  rw [time?, List.takeWhile_append_of_pos clean, List.dropWhile_append_of_pos clean]
  rw [open'] at zone ⊢
  rw [List.takeWhile_cons_of_neg (by simp [marks]), List.dropWhile_cons_of_neg (by simp [marks]), List.append_nil, fields, zone]
  simp only [Option.bind_eq_bind, Option.bind_some]
  rw [if_pos (by omega)]
  simp only [ClockFields.microseconds, Option.pure_def, Option.some.injEq, Prod.mk.injEq, and_true]
  omega

/-- A wall time and its offset are read back as the instant. -/
theorem datetimeFromIsoformat_offset {wall offset : Int} (inside : inCalendar (dateOf wall))
    (within : offset.natAbs < 86400000000) :
    datetimeFromIsoformat (isoformat wall offset) = some (.aware (wall - offset)) := by
  have time : (wall % day).toNat < 86400000000 := by
    simp only [day]
    omega
  obtain ⟨y1, y2, y3, y4, m1, m2, d1, d2, calendar, shape⟩ : ∃ y1 y2 y3 y4 m1 m2 d1 d2, m1 ≠ 'W' ∧
      isoDate (dateOf wall) = [y1, y2, y3, y4, '-', m1, m2, '-', d1, d2] :=
    ⟨_, _, _, _, _, _, _, _, digit_ne_W _, rfl⟩
  have read := dateFromIsoformat_isoDate inside
  have rest := time?_isoTime time within
  simp only [datetimeFromIsoformat, isoformat, String.toList_ofList]
  rw [shape] at read ⊢
  simp only [List.cons_append, List.nil_append, separatorAt_calendar calendar, List.take_succ_cons, List.take_zero,
    List.drop_succ_cons, List.drop_zero, read, rest, Option.bind_eq_bind, Option.bind_some, Option.pure_def]
  refine congrArg some (congrArg RequestTime.aware ?_)
  simp only [midnight, dateOf, day]
  omega

theorem datetimeFromIsoformat_isoformat {utc : Int} (inside : inCalendar (dateOf utc)) :
    datetimeFromIsoformat (isoformat utc 0) = some (.aware utc) := by
  rw [datetimeFromIsoformat_offset inside (by decide), Int.sub_zero]

end RoundTrip

end Dagmar
