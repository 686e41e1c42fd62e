import ForexCopy.Library.Calendar

/-!
# Moments and their texts

A moment is a number of milliseconds since 1970, in UTC. Its text has the form of ISO 8601 with three
digits for the milliseconds and a `Z`. Texts are read more freely: they are those of timestamps, whose
seconds may be left out and may have a fraction of any number of digits, of which three count.
-/

namespace Iso

open Utf16 Calendar Periods

/-- The number of the day on which 1970 begins. -/
def epochDay : ℕ := 719528

def dayLength : ℕ := 86400000

/-- The end of the years with four digits. -/
def endOfYears : ℕ := (25 * cycle - epochDay) * dayLength

abbrev letterT : UInt16 := 0x54
abbrev letterZ : UInt16 := 0x5A

def dateText (date : Date) : Text :=
  Digits.text (Digits.fixed 4 date.year) ++ [minus] ++ Digits.text (Digits.fixed 2 (date.month + 1)) ++
    [minus] ++ Digits.text (Digits.fixed 2 (date.day + 1))

/-- The time of a day. -/
def clockText (ms : ℕ) : Text :=
  Digits.text (Digits.fixed 2 (ms / 3600000)) ++ [colon] ++
    Digits.text (Digits.fixed 2 (ms / 60000 % 60)) ++ [colon] ++
    Digits.text (Digits.fixed 2 (ms / 1000 % 60)) ++ [point] ++
    Digits.text (Digits.fixed 3 (ms % 1000))

def text (ms : ℕ) : Text :=
  dateText (.ofDays (epochDay + ms / dayLength)) ++ [letterT] ++ clockText (ms % dayLength) ++ [letterZ]

/-! ### Reading -/

/-- A number of exactly `k` digits. -/
def field (k : ℕ) (t : Text) : Option (ℕ × Text) :=
  if (t.take k).length = k ∧ (t.take k).all IsDigit then
    some (Digits.value ((t.take k).map Digits.ofUnit), t.drop k)
  else none

def unit (u : UInt16) (t : Text) : Option Text := if t.head? = some u then some t.tail else none

/-- The date with these numbers, if there is one. -/
def dateOf (year month day : ℕ) : Option Date :=
  if h : 0 < month ∧ 0 < day ∧ Within (monthLengths year) (month - 1) (day - 1) then
    some ⟨year, month - 1, day - 1, h.2.2⟩
  else none

def date (t : Text) : Option (Date × Text) :=
  (field 4 t).bind fun (year, t) => (unit minus t).bind fun t =>
  (field 2 t).bind fun (month, t) => (unit minus t).bind fun t =>
  (field 2 t).bind fun (day, t) => (dateOf year month day).map (·, t)

/-- The milliseconds of a fraction. -/
def fraction (t : Text) : Option (ℕ × Text) :=
  if t.head? = some point then
    let ds := t.tail.takeWhile IsDigit
    if ds.isEmpty then none
    else
      let ms := ((ds ++ [zero, zero]).take 3).map Digits.ofUnit
      some (Digits.value ms, t.tail.dropWhile IsDigit)
  else some (0, t)

def seconds (t : Text) : Option (ℕ × Text) :=
  if t.head? = some colon then
    (field 2 t.tail).bind fun (second, t) => (fraction t).bind fun (ms, t) =>
      if second < 60 then some (1000 * second + ms, t) else none
  else some (0, t)

def clock (t : Text) : Option (ℕ × Text) :=
  (field 2 t).bind fun (hour, t) => (unit colon t).bind fun t =>
  (field 2 t).bind fun (minute, t) => (seconds t).bind fun (ms, t) =>
    if hour < 24 ∧ minute < 60 then some (3600000 * hour + 60000 * minute + ms, t) else none

/-- The moment of a text; moments before 1970 are negative. -/
def parse (t : Text) : Option ℤ :=
  (date t).bind fun (date, t) => (unit letterT t).bind fun t => (clock t).bind fun (ms, t) =>
    if t = [letterZ] then some (dayLength * (date.toDays - epochDay) + ms) else none

/-! ### Timestamps -/

/-- A day and a time of it; the seconds may be left out, and have the digits of a fraction, or none. -/
structure Timestamp where
  date : Date
  hour : ℕ
  minute : ℕ
  seconds : Option (ℕ × List Digit)
  year_lt : date.year < 10000
  hour_lt : hour < 24
  minute_lt : minute < 60
  second_lt : ∀ second ∈ seconds, second.1 < 60

namespace Timestamp

def fractionText (ds : List Digit) : Text := if ds = [] then [] else point :: Digits.text ds

def secondsText : Option (ℕ × List Digit) → Text
  | none => []
  | some (second, ds) => [colon] ++ Digits.text (Digits.fixed 2 second) ++ fractionText ds

def timeText (hour minute : ℕ) (seconds : Option (ℕ × List Digit)) : Text :=
  Digits.text (Digits.fixed 2 hour) ++ [colon] ++ Digits.text (Digits.fixed 2 minute) ++ secondsText seconds

def text (stamp : Timestamp) : Text :=
  dateText stamp.date ++ [letterT] ++ timeText stamp.hour stamp.minute stamp.seconds ++ [letterZ]

/-- Of the digits of a fraction three count. -/
def milliseconds (ds : List Digit) : ℕ := Digits.value (ds.take 3) * 10 ^ (3 - ds.length)

def secondsLength (seconds : Option (ℕ × List Digit)) : ℕ :=
  seconds.elim 0 fun second => 1000 * second.1 + milliseconds second.2

/-- The moment, in milliseconds since 1970. -/
def moment (stamp : Timestamp) : ℤ :=
  dayLength * (stamp.date.toDays - epochDay) +
    (3600000 * stamp.hour + 60000 * stamp.minute + secondsLength stamp.seconds : ℕ)

end Timestamp

/-! ### What is written is read back -/

section

variable {k n ms : ℕ} {u : UInt16} {t rest : Text}

theorem field_fixed (k n : ℕ) (rest : Text) :
    field k (Digits.text (Digits.fixed k n) ++ rest) = some (n % 10 ^ k, rest) := by
  have hlength : (Digits.text (Digits.fixed k n)).length = k := by simp [Digits.text]
  have htake : (Digits.text (Digits.fixed k n) ++ rest).take k = Digits.text (Digits.fixed k n) := by
    rw [List.take_append_of_le_length hlength.ge, List.take_of_length_le hlength.le]
  have hdrop : (Digits.text (Digits.fixed k n) ++ rest).drop k = rest := by
    rw [List.drop_append_of_le_length hlength.ge, List.drop_of_length_le hlength.le, List.nil_append]
  have hdigits : (Digits.text (Digits.fixed k n)).all IsDigit :=
    List.all_eq_true.mpr fun _ => Digits.isDigit_of_mem_text
  unfold field
  rw [htake, hdrop, if_pos ⟨hlength, hdigits⟩, Digits.map_ofUnit_text, Digits.value_fixed]

theorem unit_cons (u : UInt16) (t : Text) : unit u (u :: t) = some t := by simp [unit]

theorem month_lt {year month day : ℕ} (h : Within (monthLengths year) month day) : month < 12 := by
  obtain ⟨length, hmem, -⟩ := h
  exact (List.getElem?_eq_some_iff.mp hmem).1

theorem day_lt {year month day : ℕ} (h : Within (monthLengths year) month day) : day < 31 := by
  obtain ⟨length, hmem, hlt⟩ := h
  have hlengths : ∀ length ∈ monthLengths year, length ≤ 31 := by
    unfold monthLengths
    split_ifs <;> decide
  exact hlt.trans_le (hlengths length (List.mem_of_getElem? hmem))

theorem dateOf_succ (day : Date) : dateOf day.year (day.month + 1) (day.day + 1) = some day :=
  dif_pos ⟨Nat.succ_pos _, Nat.succ_pos _, day.valid⟩

theorem date_dateText {day : Date} (hyear : day.year < 10000) (rest : Text) :
    date (dateText day ++ rest) = some (day, rest) := by
  have hmonth := month_lt day.valid
  have hday := day_lt day.valid
  have hyearMod : day.year % 10 ^ 4 = day.year := Nat.mod_eq_of_lt hyear
  have hmonthMod : (day.month + 1) % 10 ^ 2 = day.month + 1 := Nat.mod_eq_of_lt (by omega)
  have hdayMod : (day.day + 1) % 10 ^ 2 = day.day + 1 := Nat.mod_eq_of_lt (by omega)
  unfold date dateText
  simp only [List.append_assoc, List.cons_append, List.nil_append, field_fixed, unit_cons,
    Option.bind_some, hyearMod, hmonthMod, hdayMod, dateOf_succ, Option.map_some]

section

open Timestamp

theorem noDigit_letterZ : Digits.NoDigit [letterZ] := fun u hu => by
  obtain rfl := Option.some.inj hu
  decide

/-- Zeros make up for the digits that are not there. -/
theorem value_take_text (d : Digit) (ds : List Digit) :
    Digits.value (((Digits.text (d :: ds) ++ [zero, zero]).take 3).map Digits.ofUnit) =
      milliseconds (d :: ds) := by
  have hzero : (Digits.ofUnit zero : ℕ) = 0 := rfl
  rw [List.map_take, List.map_append, Digits.map_ofUnit_text]
  rcases ds with _ | ⟨second, _ | ⟨third, ds⟩⟩
  · simp [milliseconds, Digits.value, hzero]
    omega
  · simp [milliseconds, Digits.value, hzero]
    omega
  · simp [milliseconds, Digits.value]

theorem fraction_fractionText (ds : List Digit) :
    fraction (fractionText ds ++ [letterZ]) = some (milliseconds ds, [letterZ]) := by
  cases ds with
  | nil => rfl
  | cons d ds =>
      have htext : fractionText (d :: ds) ++ [letterZ] = point :: (Digits.text (d :: ds) ++ [letterZ]) := by
        rw [fractionText, if_neg (List.cons_ne_nil d ds), List.cons_append]
      have hne : ¬(Digits.text (d :: ds)).isEmpty := Bool.false_ne_true
      rw [htext]
      unfold fraction
      simp only [List.head?_cons, if_true, List.tail_cons, Digits.takeWhile_text noDigit_letterZ,
        Digits.dropWhile_text noDigit_letterZ, if_neg hne, value_take_text]

theorem seconds_secondsText {timeSeconds : Option (ℕ × List Digit)}
    (h : ∀ second ∈ timeSeconds, second.1 < 60) :
    seconds (secondsText timeSeconds ++ [letterZ]) = some (secondsLength timeSeconds, [letterZ]) := by
  cases timeSeconds with
  | none => rfl
  | some second =>
      have hlt := h second rfl
      have hmod : second.1 % 10 ^ 2 = second.1 := Nat.mod_eq_of_lt (by omega)
      simp only [secondsText, secondsLength, seconds, List.append_assoc, List.cons_append, List.nil_append,
        List.head?_cons, if_true, List.tail_cons, field_fixed, Option.bind_some, fraction_fractionText, hmod,
        hlt, Option.elim_some]

/-- The text of a timestamp reads as its moment. -/
theorem parse_timestamp (stamp : Timestamp) : parse stamp.text = some stamp.moment := by
  have hhour := stamp.hour_lt
  have hminute := stamp.minute_lt
  have hhourMod : stamp.hour % 10 ^ 2 = stamp.hour := Nat.mod_eq_of_lt (by omega)
  have hminuteMod : stamp.minute % 10 ^ 2 = stamp.minute := Nat.mod_eq_of_lt (by omega)
  unfold parse Timestamp.text timeText clock
  simp only [List.append_assoc, List.cons_append, List.nil_append, date_dateText stamp.year_lt,
    Option.bind_some, unit_cons, field_fixed, seconds_secondsText stamp.second_lt, hhourMod, hminuteMod, hhour,
    hminute, and_self, if_true]
  rfl

end

theorem year_lt (h : n < 25 * cycle) : (Date.ofDays n).year < 10000 := by
  have hindex := (within_yearLengths.mp (Date.within_year n)).1
  have hcycles : n / cycle < 25 := (Nat.div_lt_iff_lt_mul (by decide)).mpr h
  change 400 * (n / cycle) + index yearLengths (n % cycle) < 10000
  omega

theorem year_ofDays_lt (h : ms < endOfYears) : (Date.ofDays (epochDay + ms / dayLength)).year < 10000 := by
  refine year_lt ?_
  have hlt := (Nat.div_lt_iff_lt_mul (by decide)).mpr h
  unfold cycle epochDay at *
  omega

/-- The timestamp of a moment, with all its parts. -/
def Timestamp.ofMoment (ms : ℕ) (h : ms < endOfYears) : Timestamp where
  date := .ofDays (epochDay + ms / dayLength)
  hour := ms % dayLength / 3600000
  minute := ms % dayLength / 60000 % 60
  seconds := some (ms % dayLength / 1000 % 60, Digits.fixed 3 (ms % dayLength % 1000))
  year_lt := year_ofDays_lt h
  hour_lt := by
    have := Nat.mod_lt ms (show dayLength > 0 by decide)
    unfold dayLength at *
    omega
  minute_lt := Nat.mod_lt _ (by decide)
  second_lt := fun _ hsecond => Option.some.inj hsecond ▸ Nat.mod_lt _ (by decide)

theorem Timestamp.text_ofMoment (h : ms < endOfYears) : (ofMoment ms h).text = Iso.text ms := by
  have hfraction (n : ℕ) : fractionText (Digits.fixed 3 n) = point :: Digits.text (Digits.fixed 3 n) :=
    if_neg (List.ne_nil_of_length_pos (by rw [Digits.length_fixed]; decide))
  simp [Timestamp.text, ofMoment, timeText, secondsText, hfraction, Iso.text, clockText]

theorem Timestamp.moment_ofMoment (h : ms < endOfYears) : (ofMoment ms h).moment = ms := by
  have hms (n : ℕ) : milliseconds (Digits.fixed 3 n) = n % 1000 := by
    rw [milliseconds, List.take_of_length_le (by simp), Digits.value_fixed, Digits.length_fixed]
    simp
  have hday := Nat.div_add_mod ms dayLength
  unfold moment ofMoment secondsLength
  dsimp only [Option.elim_some]
  rw [hms, Date.toDays_ofDays]
  unfold dayLength at *
  push_cast
  omega

/-- The text of a moment reads as the moment. -/
theorem parse_text (h : ms < endOfYears) : parse (text ms) = some (ms : ℤ) := by
  rw [← Timestamp.text_ofMoment h, parse_timestamp, Timestamp.moment_ofMoment]

/-- Texts of moments are printable ASCII. -/
theorem ascii_text {u : UInt16} (h : u ∈ text ms) : 0x20 ≤ u ∧ u < 0x80 := by
  have hdigit : ∀ ds : List Digit, u ∈ Digits.text ds → 0x20 ≤ u ∧ u < 0x80 := by
    intro ds hu
    have hunit := Digits.isDigit_of_mem_text hu
    simp only [IsDigit, Bool.and_eq_true, decide_eq_true_iff] at hunit
    exact ⟨UInt16.le_trans (by decide) hunit.1, UInt16.lt_of_le_of_lt hunit.2 (by decide)⟩
  simp only [text, dateText, clockText, List.mem_append, List.mem_singleton] at h
  grind

end

end Iso
