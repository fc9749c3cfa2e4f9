import Mathlib.Algebra.GroupWithZero.Nat
import Mathlib.Data.Nat.Find
import OpenVC.Python.Interpreter

/-!
# Calendar fields

The proleptic Gregorian calendar of `datetime`, between `MINYEAR` and `MAXYEAR`: a `datetime` in UTC
to the second as its fields, the instant they name, `isoformat` and its reading, and the addition of
calendar months.
-/

namespace Python

/-- `calendar.isleap(year)`. -/
def isLeap (year : Int) : Bool := year % 4 == 0 && (year % 100 != 0 || year % 400 == 0)

/-- `calendar.monthrange(year, month)[1]`. -/
def monthDays (year : Int) (month : Nat) : Nat :=
  if month = 2 then (if isLeap year then 29 else 28)
  else if month = 4 ∨ month = 6 ∨ month = 9 ∨ month = 11 then 30
  else 31

/-- The fields name a second of the calendar. -/
structure ValidFields (year month day hour minute second : Nat) : Prop where
  year_pos : 1 ≤ year
  year_le : year ≤ 9999
  month_pos : 1 ≤ month
  month_le : month ≤ 12
  day_pos : 1 ≤ day
  day_le : day ≤ monthDays year month
  hour_lt : hour < 24
  minute_lt : minute < 60
  second_lt : second < 60

/-- A `datetime` in UTC, to the second. -/
structure UtcDateTime where
  year : Nat
  month : Nat
  day : Nat
  hour : Nat
  minute : Nat
  second : Nat
  valid : ValidFields year month day hour minute second

namespace UtcDateTime

theorem validFields_iff {year month day hour minute second : Nat} :
    ValidFields year month day hour minute second ↔
      (1 ≤ year ∧ year ≤ 9999) ∧ (1 ≤ month ∧ month ≤ 12) ∧
        (1 ≤ day ∧ day ≤ monthDays year month) ∧ hour < 24 ∧ minute < 60 ∧ second < 60 := by
  constructor
  · intro h
    exact ⟨⟨h.1, h.2⟩, ⟨h.3, h.4⟩, ⟨h.5, h.6⟩, h.7, h.8, h.9⟩
  · rintro ⟨⟨h₁, h₂⟩, ⟨h₃, h₄⟩, ⟨h₅, h₆⟩, h₇, h₈, h₉⟩
    exact ⟨h₁, h₂, h₃, h₄, h₅, h₆, h₇, h₈, h₉⟩

instance (year month day hour minute second : Nat) :
    Decidable (ValidFields year month day hour minute second) :=
  decidable_of_iff _ validFields_iff.symm

/-- `datetime(year, month, day, hour, minute, second, tzinfo=timezone.utc)`; `none` is `ValueError`. -/
def ofFields (year month day hour minute second : Nat) : Option UtcDateTime :=
  if h : ValidFields year month day hour minute second then
    some ⟨year, month, day, hour, minute, second, h⟩
  else none

/-! ## Instants -/

/-- `_days_before_year(year)`. -/
def daysBeforeYear (year : Nat) : Nat :=
  let y := year - 1
  y * 365 + y / 4 - y / 100 + y / 400

/-- `_days_before_month(year, month)`. -/
def daysBeforeMonth (year month : Nat) : Nat :=
  ((List.range' 1 (month - 1)).map (monthDays year)).sum

/-- `toordinal()`. -/
def toOrdinal (d : UtcDateTime) : Nat :=
  daysBeforeYear d.year + daysBeforeMonth d.year d.month + d.day

/-- The ordinal of the day of the epoch. -/
def epochOrdinal : Nat := 719163

/-- The seconds since the epoch. -/
def seconds (d : UtcDateTime) : Int :=
  ((d.toOrdinal : Int) - epochOrdinal) * 86400 + (d.hour * 3600 + d.minute * 60 + d.second : Nat)

/-- The `datetime` of an instant in seconds since the epoch; `none` is outside the calendar. -/
def ofSeconds (seconds : Int) : Option UtcDateTime :=
  let ordinal := (seconds / 86400 + epochOrdinal).toNat
  let second := (seconds % 86400).toNat
  let year := Nat.findGreatest (fun year => daysBeforeYear year < ordinal) 9999
  let day := ordinal - daysBeforeYear year
  let month := Nat.findGreatest (fun month => daysBeforeMonth year month < day) 12
  ofFields year month (day - daysBeforeMonth year month) (second / 3600) (second / 60 % 60)
    (second % 60)

/-- The `datetime` as a wall clock. -/
def toDateTime (d : UtcDateTime) : DateTime := ⟨d.seconds * 1000000, some 0⟩

/-! ## Text -/

/-- The last two digits of a number. -/
def twoDigits (n : Nat) : Str := [48 + n / 10 % 10, 48 + n % 10]

/-- The last four digits of a number. -/
def fourDigits (n : Nat) : Str := twoDigits (n / 100) ++ twoDigits n

/-- `isoformat()`. -/
def isoformat (d : UtcDateTime) : Str :=
  fourDigits d.year ++ (45 :: (twoDigits d.month ++ (45 :: (twoDigits d.day ++
    (84 :: (twoDigits d.hour ++ (58 :: (twoDigits d.minute ++ (58 :: (twoDigits d.second ++
      lit "+00:00"))))))))))

/-- The number of the ASCII numeral at a place of a text. -/
def numberAt (text : Str) (start len : Nat) : Option Nat :=
  let digits : Str := (text.drop start).take len
  if digits.length = len ∧ digits.all Str.isDigit = true then some (Str.toNat digits) else none

/-- `datetime.fromisoformat(text)` on a text of the form `YYYY-MM-DDThh:mm:ss+00:00`. -/
def readIso (text : Str) : Option UtcDateTime := do
  let year ← numberAt text 0 4
  let month ← numberAt text 5 2
  let day ← numberAt text 8 2
  let hour ← numberAt text 11 2
  let minute ← numberAt text 14 2
  let second ← numberAt text 17 2
  ofFields year month day hour minute second

/-- The number at the place of a numeral. -/
theorem numberAt_append {a s b : Str} {start len : Nat} (ha : a.length = start)
    (hs : s.length = len) (hdigits : ∀ c ∈ s, Str.isDigit c = true) :
    numberAt (a ++ (s ++ b)) start len = some (Str.toNat s) := by
  subst ha hs
  rw [numberAt, List.drop_left, List.take_left, if_pos ⟨rfl, List.all_eq_true.mpr hdigits⟩]

theorem isDigit_twoDigits {n c : Nat} (h : c ∈ twoDigits n) : Str.isDigit c = true := by
  have hc : c = 48 + n / 10 % 10 ∨ c = 48 + n % 10 := by simpa [twoDigits] using h
  simp only [Str.isDigit, Bool.and_eq_true, decide_eq_true_eq]
  omega

theorem toNat_twoDigits {n : Nat} (h : n < 100) : Str.toNat (twoDigits n) = n := by
  simp only [twoDigits, Str.toNat, List.foldl_cons, List.foldl_nil]
  omega

theorem isDigit_fourDigits {n c : Nat} (h : c ∈ fourDigits n) : Str.isDigit c = true := by
  rcases List.mem_append.mp h with h | h
  · exact isDigit_twoDigits h
  · exact isDigit_twoDigits h

theorem toNat_fourDigits {n : Nat} (h : n < 10000) : Str.toNat (fourDigits n) = n := by
  simp only [fourDigits, twoDigits, Str.toNat, List.cons_append, List.nil_append, List.foldl_cons,
    List.foldl_nil]
  omega

theorem ofFields_valid (d : UtcDateTime) :
    ofFields d.year d.month d.day d.hour d.minute d.second = some d :=
  dif_pos d.valid

/-- `fromisoformat` reads back what `isoformat` writes. -/
theorem readIso_isoformat (d : UtcDateTime) : readIso d.isoformat = some d := by
  obtain ⟨_, hyear, _, hmonth, _, hday, hhour, hminute, hsecond⟩ := d.valid
  have hdim : monthDays d.year d.month ≤ 31 := by
    unfold monthDays
    split
    · split <;> omega
    · split <;> omega
  have year : numberAt d.isoformat 0 4 = some d.year := by
    rw [← toNat_fourDigits (n := d.year) (by omega)]
    exact numberAt_append (a := []) rfl rfl fun _ => isDigit_fourDigits
  have field : ∀ {a b : Str} {n start : Nat}, d.isoformat = a ++ (twoDigits n ++ b) →
      a.length = start → n < 100 → numberAt d.isoformat start 2 = some n := by
    intro a b n start hcut hstart hn
    have hnumber : numberAt (a ++ (twoDigits n ++ b)) start 2 = some (twoDigits n).toNat :=
      numberAt_append hstart rfl fun _ => isDigit_twoDigits
    rw [hcut, hnumber, toNat_twoDigits hn]
  have month : numberAt d.isoformat 5 2 = some d.month :=
    field (a := fourDigits d.year ++ [45]) rfl rfl (by omega)
  have day : numberAt d.isoformat 8 2 = some d.day :=
    field (a := fourDigits d.year ++ (45 :: (twoDigits d.month ++ [45]))) rfl rfl (by omega)
  have hour : numberAt d.isoformat 11 2 = some d.hour :=
    field (a := fourDigits d.year ++ (45 :: (twoDigits d.month ++ (45 :: (twoDigits d.day ++ [84])))))
      rfl rfl (by omega)
  have minute : numberAt d.isoformat 14 2 = some d.minute :=
    field (a := fourDigits d.year ++ (45 :: (twoDigits d.month ++ (45 :: (twoDigits d.day ++
      (84 :: (twoDigits d.hour ++ [58]))))))) rfl rfl (by omega)
  have second : numberAt d.isoformat 17 2 = some d.second :=
    field (a := fourDigits d.year ++ (45 :: (twoDigits d.month ++ (45 :: (twoDigits d.day ++
      (84 :: (twoDigits d.hour ++ (58 :: (twoDigits d.minute ++ [58]))))))))) rfl rfl (by omega)
  rw [readIso, year, month, day, hour, minute, second]
  exact ofFields_valid d

end UtcDateTime

end Python
