import Mathlib.Tactic

namespace js

/-- A time value: milliseconds since the epoch, within the range a Date can hold. -/
structure Time where
  ms : Int
  inRange : -8640000000000000 ≤ ms ∧ ms ≤ 8640000000000000
  deriving DecidableEq

def Time.epoch : Time := ⟨0, by simp⟩

/-- A day of the proleptic Gregorian calendar. -/
structure CivilDate where
  year : Int
  month : Int
  day : Int
  deriving DecidableEq

/-- Years since the start of a 400 year era, and days since the start of that
year. Years begin in March here, so that a leap day ends one. -/
def yearOfEra (dayOfEra : Int) : Int × Int :=
  let century := min (dayOfEra / 36524) 3
  let dayOfCentury := dayOfEra - 36524 * century
  let cycle := dayOfCentury / 1461
  let dayOfCycle := dayOfCentury - 1461 * cycle
  let year := min (dayOfCycle / 365) 3
  (100 * century + 4 * cycle + year, dayOfCycle - 365 * year)

/-- Days since the start of an era, the converse of `yearOfEra`. -/
def dayOfEra (year dayOfYear : Int) : Int :=
  365 * year + year / 4 - year / 100 + dayOfYear

/-- The day with a given number in a year that begins in March. -/
def civilFromYear (year dayOfYear : Int) : CivilDate :=
  let shiftedMonth := (5 * dayOfYear + 2) / 153
  let month := if shiftedMonth < 10 then shiftedMonth + 3 else shiftedMonth - 9
  { year := if month ≤ 2 then year + 1 else year
    month := month
    day := dayOfYear - (153 * shiftedMonth + 2) / 5 + 1 }

/-- The converse of `civilFromYear`. -/
def yearFromCivil (date : CivilDate) : Int × Int :=
  let shiftedMonth := if 2 < date.month then date.month - 3 else date.month + 9
  (if date.month ≤ 2 then date.year - 1 else date.year,
    (153 * shiftedMonth + 2) / 5 + date.day - 1)

/-- The calendar day so many days after the first of January 1970. -/
def civilFromDays (days : Int) : CivilDate :=
  let (year, dayOfYear) := yearOfEra ((days + 719468) % 146097)
  civilFromYear (400 * ((days + 719468) / 146097) + year) dayOfYear

def daysFromCivil (date : CivilDate) : Int :=
  let (year, dayOfYear) := yearFromCivil date
  146097 * (year / 400) + dayOfEra (year % 400) dayOfYear - 719468

theorem yearOfEra_bounds {day : Int} (h0 : 0 ≤ day) (h1 : day < 146097) :
    0 ≤ (yearOfEra day).1 ∧ (yearOfEra day).1 < 400 ∧ 0 ≤ (yearOfEra day).2 ∧ (yearOfEra day).2 ≤ 365 := by
  simp only [yearOfEra]
  omega

theorem dayOfEra_yearOfEra {day : Int} (h0 : 0 ≤ day) (h1 : day < 146097) :
    dayOfEra (yearOfEra day).1 (yearOfEra day).2 = day := by
  simp only [yearOfEra, dayOfEra]
  generalize hcentury : min (day / 36524) 3 = century
  generalize hcycle : (day - 36524 * century) / 1461 = cycle
  generalize hyear : min ((day - 36524 * century - 1461 * cycle) / 365) 3 = year
  have hlow : 0 ≤ 4 * cycle + year ∧ 4 * cycle + year < 100 ∧ 0 ≤ year ∧ year < 4 := by omega
  have hfour : (100 * century + 4 * cycle + year) / 4 = 25 * century + cycle := by omega
  have hhundred : (100 * century + 4 * cycle + year) / 100 = century := by omega
  rw [hfour, hhundred]
  omega

theorem civilFromYear_bounds (year : Int) {dayOfYear : Int} (h0 : 0 ≤ dayOfYear) (h1 : dayOfYear ≤ 365) :
    1 ≤ (civilFromYear year dayOfYear).month ∧ (civilFromYear year dayOfYear).month ≤ 12 ∧
      1 ≤ (civilFromYear year dayOfYear).day ∧ (civilFromYear year dayOfYear).day ≤ 31 := by
  simp only [civilFromYear]
  split <;> omega

theorem yearFromCivil_civilFromYear (year : Int) {dayOfYear : Int} (h0 : 0 ≤ dayOfYear)
    (h1 : dayOfYear ≤ 365) : yearFromCivil (civilFromYear year dayOfYear) = (year, dayOfYear) := by
  have hmonth : 0 ≤ (5 * dayOfYear + 2) / 153 ∧ (5 * dayOfYear + 2) / 153 ≤ 11 := by omega
  simp only [civilFromYear, yearFromCivil, Prod.mk.injEq]
  split_ifs <;> omega

theorem yearOfEra_emod_bounds (days : Int) :
    0 ≤ (yearOfEra (days % 146097)).1 ∧ (yearOfEra (days % 146097)).1 < 400 ∧
      0 ≤ (yearOfEra (days % 146097)).2 ∧ (yearOfEra (days % 146097)).2 ≤ 365 :=
  yearOfEra_bounds (Int.emod_nonneg days (by simp)) (Int.emod_lt_of_pos days (by simp))

theorem civilFromDays_bounds (days : Int) :
    1 ≤ (civilFromDays days).month ∧ (civilFromDays days).month ≤ 12 ∧
      1 ≤ (civilFromDays days).day ∧ (civilFromDays days).day ≤ 31 := by
  obtain ⟨_, _, hlow, hhigh⟩ := yearOfEra_emod_bounds (days + 719468)
  exact civilFromYear_bounds _ hlow hhigh

theorem daysFromCivil_civilFromDays (days : Int) : daysFromCivil (civilFromDays days) = days := by
  obtain ⟨hyear, hyear', hlow, hhigh⟩ := yearOfEra_emod_bounds (days + 719468)
  have hday := dayOfEra_yearOfEra (Int.emod_nonneg (days + 719468) (show (146097 : Int) ≠ 0 by simp))
    (Int.emod_lt_of_pos (days + 719468) (by simp))
  have hdivide := Int.mul_ediv_add_emod (days + 719468) 146097
  simp only [daysFromCivil, civilFromDays, yearFromCivil_civilFromYear _ hlow hhigh]
  rw [show ∀ era year : Int, 0 ≤ year → year < 400 → (400 * era + year) / 400 = era by omega,
    show ∀ era year : Int, 0 ≤ year → year < 400 → (400 * era + year) % 400 = year by omega, hday]
  · omega
  all_goals assumption

/-- The last decimal digits of a number, as many as asked for. -/
def paddedDigits : Nat → Nat → List Char
  | 0, _ => []
  | width + 1, n => Nat.digitChar (n / 10 ^ width % 10) :: paddedDigits width n

/-- The number that so many digits denote after those already read. -/
def readDigits : Nat → Nat → List Char → Option (Nat × List Char)
  | 0, acc, text => some (acc, text)
  | _ + 1, _, [] => none
  | width + 1, acc, c :: rest =>
    if c.isDigit then readDigits width (10 * acc + (c.toNat - 48)) rest else none

theorem digitChar_isDigit {n : Nat} (hn : n < 10) :
    (Nat.digitChar n).isDigit = true ∧ (Nat.digitChar n).toNat - 48 = n := by
  interval_cases n <;> decide

theorem readDigits_paddedDigits (width acc n : Nat) (rest : List Char) :
    readDigits width acc (paddedDigits width n ++ rest) = some (acc * 10 ^ width + n % 10 ^ width, rest) := by
  induction width generalizing acc with
  | zero => simp [paddedDigits, readDigits, Nat.mod_one]
  | succ width ih =>
    obtain ⟨hdigit, hvalue⟩ := digitChar_isDigit (Nat.mod_lt (n / 10 ^ width) (show 0 < 10 by simp))
    rw [paddedDigits, List.cons_append, readDigits, if_pos hdigit, hvalue, ih, Nat.mod_pow_succ, pow_succ]
    congr 2
    ring

theorem readDigits_of_lt {width n : Nat} (hn : n < 10 ^ width) (rest : List Char) :
    readDigits width 0 (paddedDigits width n ++ rest) = some (n, rest) := by
  rw [readDigits_paddedDigits, Nat.zero_mul, Nat.zero_add, Nat.mod_eq_of_lt hn]

/-- Four digits, or a sign and six for a year that four cannot hold. -/
def yearText (year : Int) : List Char :=
  if 0 ≤ year ∧ year ≤ 9999 then paddedDigits 4 year.toNat
  else if year < 0 then '-' :: paddedDigits 6 year.natAbs
  else '+' :: paddedDigits 6 year.natAbs

def readYear : List Char → Option (Int × List Char)
  | '-' :: rest => (readDigits 6 0 rest).map fun (year, after) => (-(year : Int), after)
  | '+' :: rest => (readDigits 6 0 rest).map fun (year, after) => ((year : Int), after)
  | text => (readDigits 4 0 text).map fun (year, after) => ((year : Int), after)

/-- A number of a fixed width behind its separator. -/
def fieldText (separator : Char) (width n : Nat) : List Char :=
  separator :: paddedDigits width n

def readField (separator : Char) (width : Nat) : List Char → Option (Nat × List Char)
  | [] => none
  | c :: rest => if c = separator then readDigits width 0 rest else none

theorem readField_fieldText (separator : Char) {width n : Nat} (hn : n < 10 ^ width) (rest : List Char) :
    readField separator width (fieldText separator width n ++ rest) = some (n, rest) := by
  rw [fieldText, List.cons_append, readField, if_pos rfl, readDigits_of_lt hn]

theorem readYear_yearText {year : Int} (hlow : -999999 ≤ year) (hhigh : year ≤ 999999) (rest : List Char) :
    readYear (yearText year ++ rest) = some (year, rest) := by
  rw [yearText]
  by_cases hfour : 0 ≤ year ∧ year ≤ 9999
  · have hread : readYear (paddedDigits 4 year.toNat ++ rest) =
        (readDigits 4 0 (paddedDigits 4 year.toNat ++ rest)).map fun (year, after) => ((year : Int), after) := by
      have hhead := (digitChar_isDigit (Nat.mod_lt (year.toNat / 10 ^ 3) (show 0 < 10 by simp))).1
      rw [paddedDigits, List.cons_append]
      unfold readYear
      split
      · rename_i heq
        rw [(List.cons.inj heq).1] at hhead
        exact absurd hhead (by simp)
      · rename_i heq
        rw [(List.cons.inj heq).1] at hhead
        exact absurd hhead (by simp)
      · rfl
    rw [if_pos hfour, hread, readDigits_of_lt (by omega)]
    simp only [Option.map_some, Option.some.injEq, Prod.mk.injEq, and_true]
    omega
  · rw [if_neg hfour]
    by_cases hneg : year < 0
    · rw [if_pos hneg, List.cons_append, readYear, readDigits_of_lt (by omega)]
      simp only [Option.map_some, Option.some.injEq, Prod.mk.injEq, and_true]
      omega
    · rw [if_neg hneg, List.cons_append, readYear, readDigits_of_lt (by omega)]
      simp only [Option.map_some, Option.some.injEq, Prod.mk.injEq, and_true]
      omega

/-- Date.prototype.toISOString. -/
def Time.toISOString (t : Time) : String :=
  let date := civilFromDays (t.ms / 86400000)
  let millis := (t.ms % 86400000).toNat
  String.ofList (yearText date.year ++ (fieldText '-' 2 date.month.toNat ++ (fieldText '-' 2 date.day.toNat ++
    (fieldText 'T' 2 (millis / 3600000) ++ (fieldText ':' 2 (millis / 60000 % 60) ++
    (fieldText ':' 2 (millis / 1000 % 60) ++ (fieldText '.' 3 (millis % 1000) ++ ['Z'])))))))

/-- The time value in a range a Date can hold, if it is in it. -/
def Time.ofMs (ms : Int) : Option Time :=
  if h : -8640000000000000 ≤ ms ∧ ms ≤ 8640000000000000 then some ⟨ms, h⟩ else none

/-- The time that a text in the format of `toISOString` denotes. -/
def parseISO (text : String) : Option Time := do
  let (year, text) ← readYear text.toList
  let (month, text) ← readField '-' 2 text
  let (day, text) ← readField '-' 2 text
  let (hours, text) ← readField 'T' 2 text
  let (minutes, text) ← readField ':' 2 text
  let (seconds, text) ← readField ':' 2 text
  let (millis, text) ← readField '.' 3 text
  let date : CivilDate := ⟨year, month, day⟩
  let days := daysFromCivil date
  if text = ['Z'] ∧ civilFromDays days = date ∧ hours < 24 ∧ minutes < 60 ∧ seconds < 60 then
    Time.ofMs (86400000 * days + (3600000 * hours + 60000 * minutes + 1000 * seconds + millis : Nat))
  else none

theorem Time.ofMs_ms (t : Time) : Time.ofMs t.ms = some t := by
  rw [Time.ofMs, dif_pos t.inRange]

/-- Years a Date can hold have six digits at most. -/
theorem Time.year_bounds (t : Time) : -999999 ≤ (civilFromDays (t.ms / 86400000)).year ∧
    (civilFromDays (t.ms / 86400000)).year ≤ 999999 := by
  obtain ⟨hlow, hhigh⟩ := t.inRange
  have hdays : -100000000 ≤ t.ms / 86400000 ∧ t.ms / 86400000 ≤ 100000000 := by omega
  obtain ⟨hyear, hyear', _⟩ := yearOfEra_emod_bounds (t.ms / 86400000 + 719468)
  simp only [civilFromDays, civilFromYear]
  split <;> omega

theorem parseISO_toISOString (t : Time) : parseISO t.toISOString = some t := by
  obtain ⟨hyear, hyear'⟩ := t.year_bounds
  obtain ⟨hmonth, hmonth', hday, hday'⟩ := civilFromDays_bounds (t.ms / 86400000)
  have hinverse := daysFromCivil_civilFromDays (t.ms / 86400000)
  have hmillis : (t.ms % 86400000).toNat < 86400000 := by omega
  have hms : 86400000 * (t.ms / 86400000) + ((t.ms % 86400000).toNat : Int) = t.ms := by omega
  generalize hmillis' : (t.ms % 86400000).toNat = millis at *
  generalize hdate : civilFromDays (t.ms / 86400000) = date at *
  have hcivil : (⟨date.year, date.month.toNat, date.day.toNat⟩ : CivilDate) = date := by
    rw [Int.toNat_of_nonneg (by omega), Int.toNat_of_nonneg (by omega)]
  have hsum : 3600000 * (millis / 3600000) + 60000 * (millis / 60000 % 60) + 1000 * (millis / 1000 % 60) +
      millis % 1000 = millis := by omega
  simp only [Time.toISOString, parseISO, String.toList_ofList, hdate, hmillis', Option.bind_eq_bind]
  rw [readYear_yearText hyear hyear', Option.bind_some, readField_fieldText _ (by omega), Option.bind_some,
    readField_fieldText _ (by omega), Option.bind_some, readField_fieldText _ (by omega), Option.bind_some,
    readField_fieldText _ (by omega), Option.bind_some, readField_fieldText _ (by omega), Option.bind_some,
    readField_fieldText _ (by omega), Option.bind_some, hcivil, hinverse, hsum, hms, Time.ofMs_ms, if_pos]
  refine ⟨rfl, hdate, ?_, ?_, ?_⟩ <;> omega

end js
