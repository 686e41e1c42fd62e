import ForexCopy.Library.IsoTime
import ForexCopy.Wire.Datetime
import Mathlib.Tactic.IntervalCases

/-!
# What the timestamps' expression matches

Its first part matches the days of the calendar and its second part the times of a day, so that together
they match the texts of the timestamps.
-/

namespace ForexCopy

open Calendar Periods Regex Utf16 Iso.Timestamp

/-! ### The numbers of a date -/

/-- A year is a leap year by its last two digits, or by its first two when it ends a century. -/
theorem denotes_leapYear : Denotes 4 leapYearRegex IsLeap := by
  have heven : Denotes 4 (digit * digit * oneOf [2, 4, 6, 8] * oneOf [0, 4, 8])
      fun n => n / 10 % 2 = 0 ∧ n % 4 = 0 ∧ 20 ≤ n % 100 := by
    refine (((Denotes.digit.mul .digit).mul (.oneOf _)).mul (.oneOf _)).congr fun n hn => ?_
    simp
    omega
  have hodd : Denotes 4 (digit * digit * oneOf [1, 3, 5, 7, 9] * oneOf [2, 6])
      fun n => n / 10 % 2 = 1 ∧ n % 4 = 0 := by
    refine (((Denotes.digit.mul .digit).mul (.oneOf _)).mul (.oneOf _)).congr fun n hn => ?_
    simp
    omega
  have hfirst : Denotes 4 (digit * digit * oneOf [0] * oneOf [4, 8])
      fun n => n % 100 = 4 ∨ n % 100 = 8 := by
    refine (((Denotes.digit.mul .digit).mul (.oneOf _)).mul (.oneOf _)).congr fun n hn => ?_
    simp
    omega
  have hevenCentury : Denotes 4 (oneOf [0, 2, 4, 6, 8] * oneOf [0, 4, 8] * oneOf [0] * oneOf [0])
      fun n => n / 1000 % 2 = 0 ∧ n % 100 = 0 ∧ n / 100 % 4 = 0 := by
    refine ((((Denotes.oneOf _).mul (.oneOf _)).mul (.oneOf _)).mul (.oneOf _)).congr fun n hn => ?_
    simp [Nat.div_div_eq_div_mul]
    omega
  have hoddCentury : Denotes 4 (oneOf [1, 3, 5, 7, 9] * oneOf [2, 6] * oneOf [0] * oneOf [0])
      fun n => n / 1000 % 2 = 1 ∧ n % 100 = 0 ∧ n / 100 % 4 = 0 := by
    refine ((((Denotes.oneOf _).mul (.oneOf _)).mul (.oneOf _)).mul (.oneOf _)).congr fun n hn => ?_
    simp [Nat.div_div_eq_div_mul]
    omega
  refine ((((heven.add hodd).add hfirst).add hevenCentury).add hoddCentury).congr fun n _ => ?_
  unfold IsLeap
  omega

theorem denotes_year : Denotes 4 yearRegex fun _ => True :=
  Denotes.congr (((Denotes.digit.mul .digit).mul .digit).mul .digit) fun n _ => by simp

theorem denotes_longMonth : Denotes 2 longMonthRegex (· ∈ [1, 3, 5, 7, 8, 10, 12]) := by
  refine (((Denotes.oneOf _).mul (.oneOf _)).add ((Denotes.oneOf _).mul (.oneOf _))).congr
    fun n hn => ?_
  simp
  omega

theorem denotes_shortMonth : Denotes 2 shortMonthRegex (· ∈ [4, 6, 9, 11]) := by
  refine (((Denotes.oneOf _).mul (.oneOf _)).add ((Denotes.oneOf _).mul (.oneOf _))).congr
    fun n hn => ?_
  simp
  omega

theorem denotes_february : Denotes 2 februaryRegex (· = 2) := by
  refine Denotes.congr ((Denotes.oneOf _).mul (.oneOf _)) fun n hn => ?_
  simp
  omega

theorem denotes_dayTo31 : Denotes 2 dayTo31Regex fun n => 0 < n ∧ n ≤ 31 := by
  refine Denotes.congr ((((Denotes.oneOf _).mul (.oneOf _)).add ((Denotes.oneOf _).mul .digit)).add
    ((Denotes.oneOf _).mul (.oneOf _))) fun n hn => ?_
  simp
  omega

theorem denotes_dayTo30 : Denotes 2 dayTo30Regex fun n => 0 < n ∧ n ≤ 30 := by
  refine Denotes.congr ((((Denotes.oneOf _).mul (.oneOf _)).add ((Denotes.oneOf _).mul .digit)).add
    ((Denotes.oneOf _).mul (.oneOf _))) fun n hn => ?_
  simp
  omega

theorem denotes_dayTo28 : Denotes 2 dayTo28Regex fun n => 0 < n ∧ n ≤ 28 := by
  refine Denotes.congr ((((Denotes.oneOf _).mul (.oneOf _)).add ((Denotes.oneOf _).mul .digit)).add
    ((Denotes.oneOf _).mul (.oneOf _))) fun n hn => ?_
  simp
  omega

theorem denotes_hour : Denotes 2 hourRegex (· < 24) := by
  refine Denotes.congr (((Denotes.oneOf _).mul .digit).add ((Denotes.oneOf _).mul (.oneOf _)))
    fun n hn => ?_
  simp
  omega

theorem denotes_sixtieth : Denotes 2 sixtiethRegex (· < 60) := by
  refine Denotes.congr ((Denotes.oneOf _).mul .digit) fun n hn => ?_
  simp
  omega

/-! ### Dates -/

/-- The months and the days of a year, by the numbers that they are written with. -/
theorem within_monthLengths {year month day : ℕ} (hmonth : 0 < month) (hday : 0 < day) :
    Within (monthLengths year) (month - 1) (day - 1) ↔
      month ∈ [1, 3, 5, 7, 8, 10, 12] ∧ day ≤ 31 ∨ month ∈ [4, 6, 9, 11] ∧ day ≤ 30 ∨
        month = 2 ∧ (day ≤ 28 ∨ day = 29 ∧ IsLeap year) := by
  by_cases hlast : month ≤ 12
  · rcases eq_or_ne month 2 with rfl | hmonth2
    · by_cases hleap : IsLeap year
      all_goals
        simp [monthLengths, hleap]
        omega
    · interval_cases month
      all_goals
        simp [monthLengths] at hmonth2 ⊢
        try omega
  · constructor
    · intro hwithin
      have := Iso.month_lt hwithin
      omega
    · simp only [List.mem_cons, List.not_mem_nil, or_false]
      omega

theorem mem_monthDayRegex {t : Text} : t ∈ monthDayRegex.matches' ↔ ∃ month day, 0 < month ∧ 0 < day ∧
    (month ∈ [1, 3, 5, 7, 8, 10, 12] ∧ day ≤ 31 ∨ month ∈ [4, 6, 9, 11] ∧ day ≤ 30 ∨
      month = 2 ∧ day ≤ 28) ∧
    t = Digits.text (Digits.fixed 2 month) ++ [minus] ++ Digits.text (Digits.fixed 2 day) := by
  unfold monthDayRegex
  rw [mem_add, mem_add, denotes_longMonth.mem_between denotes_dayTo31,
    denotes_shortMonth.mem_between denotes_dayTo30, denotes_february.mem_between denotes_dayTo28]
  constructor
  · rintro ((⟨month, -, day, -, ⟨hmonth, hday⟩, rfl⟩ | ⟨month, -, day, -, ⟨hmonth, hday⟩, rfl⟩) |
      ⟨month, -, day, -, ⟨hmonth, hday⟩, rfl⟩)
    · exact ⟨month, day, by grind, hday.1, .inl ⟨hmonth, hday.2⟩, rfl⟩
    · exact ⟨month, day, by grind, hday.1, .inr (.inl ⟨hmonth, hday.2⟩), rfl⟩
    · exact ⟨month, day, by omega, hday.1, .inr (.inr ⟨hmonth, hday.2⟩), rfl⟩
  · rintro ⟨month, day, -, hday, ⟨hmonth, hlast⟩ | ⟨hmonth, hlast⟩ | ⟨hmonth, hlast⟩, rfl⟩
    · exact .inl (.inl ⟨month, by grind, day, by omega, ⟨hmonth, hday, hlast⟩, rfl⟩)
    · exact .inl (.inr ⟨month, by grind, day, by omega, ⟨hmonth, hday, hlast⟩, rfl⟩)
    · exact .inr ⟨month, by omega, day, by omega, ⟨hmonth, hday, hlast⟩, rfl⟩

/-- The dates that are matched are those of the calendar, up to the year 9999. -/
theorem mem_dateRegex {t : Text} :
    t ∈ dateRegex.matches' ↔ ∃ date : Date, date.year < 10000 ∧ t = Iso.dateText date := by
  have hleapDay : ofString "-02-29" =
      [minus] ++ Digits.text (Digits.fixed 2 2) ++ [minus] ++ Digits.text (Digits.fixed 2 29) := by
    decide
  unfold dateRegex
  simp only [mem_add, mem_mul, mem_literal, mem_monthDayRegex]
  constructor
  · rintro (⟨u, hu, _, rfl, rfl⟩ | ⟨_, ⟨u, hu, _, rfl, rfl⟩, _, ⟨month, day, hmonth, hday, hdays, rfl⟩, rfl⟩)
    · obtain ⟨year, hyear, hleap, rfl⟩ := (denotes_leapYear u).mp hu
      have hwithin := (within_monthLengths (by decide) (by decide)).mpr
        (.inr (.inr ⟨rfl, .inr ⟨rfl, hleap⟩⟩))
      refine ⟨⟨year, 1, 28, hwithin⟩, hyear, ?_⟩
      rw [hleapDay]
      simp [Iso.dateText]
    · obtain ⟨year, hyear, -, rfl⟩ := (denotes_year u).mp hu
      have hwithin : Within (monthLengths year) (month - 1) (day - 1) :=
        (within_monthLengths hmonth hday).mpr (by tauto)
      refine ⟨⟨year, month - 1, day - 1, hwithin⟩, hyear, ?_⟩
      simp [Iso.dateText, Nat.sub_add_cancel hmonth, Nat.sub_add_cancel hday]
  · rintro ⟨⟨year, month, day, hwithin⟩, hyear, rfl⟩
    have hyearText (p : ℕ → Prop) (r) (hr : Denotes 4 r p) (hp : p year) :
        Digits.text (Digits.fixed 4 year) ∈ r.matches' := (hr _).mpr ⟨year, hyear, hp, rfl⟩
    have hdays := (within_monthLengths (Nat.succ_pos month) (Nat.succ_pos day)).mp hwithin
    by_cases hleap : month + 1 = 2 ∧ day + 1 = 29 ∧ IsLeap year
    · obtain ⟨hmonth, hday, hleap⟩ := hleap
      refine .inl ⟨_, hyearText _ _ denotes_leapYear hleap, _, rfl, ?_⟩
      rw [hleapDay]
      simp [Iso.dateText, hmonth, hday]
    · refine .inr ⟨_, ⟨_, hyearText _ _ denotes_year trivial, _, rfl, rfl⟩, _,
        ⟨month + 1, day + 1, Nat.succ_pos month, Nat.succ_pos day, by tauto, rfl⟩, ?_⟩
      simp [Iso.dateText]

/-! ### Times -/

theorem mem_secondsRegex {t : Text} :
    t ∈ (Regex.optional (literal [colon] * sixtiethRegex *
      Regex.optional (literal [point] * repeated digit))).matches' ↔
    ∃ seconds, (∀ second ∈ seconds, second.1 < 60) ∧ t = secondsText seconds := by
  simp only [mem_optional, mem_mul, mem_literal, mem_repeated_digit]
  constructor
  · rintro (⟨_, ⟨_, rfl, u, hu, rfl⟩, fraction, hfraction, rfl⟩ | rfl)
    · obtain ⟨second, -, hsecond, rfl⟩ := (denotes_sixtieth u).mp hu
      obtain ⟨ds, rfl⟩ : ∃ ds, fraction = fractionText ds := by
        rcases hfraction with ⟨_, rfl, _, ⟨ds, hne, rfl⟩, rfl⟩ | rfl
        · exact ⟨ds, (if_neg hne).symm⟩
        · exact ⟨[], rfl⟩
      exact ⟨some (second, ds), fun _ h => Option.some.inj h ▸ hsecond, rfl⟩
    · exact ⟨none, by simp, rfl⟩
  · rintro ⟨_ | ⟨second, ds⟩, hsecond, rfl⟩
    · exact .inr rfl
    · have hlt : second < 60 := hsecond _ rfl
      refine .inl ⟨_, ⟨_, rfl, _, (denotes_sixtieth _).mpr ⟨second, by omega, hlt, rfl⟩, rfl⟩, fractionText ds,
        ?_, rfl⟩
      by_cases hne : ds = []
      · exact .inr (if_pos hne)
      · exact .inl ⟨_, rfl, _, ⟨ds, hne, rfl⟩, (if_neg hne).symm⟩

theorem mem_timeRegex {t : Text} : t ∈ timeRegex.matches' ↔ ∃ hour < 24, ∃ minute < 60, ∃ seconds,
    (∀ second ∈ seconds, second.1 < 60) ∧ t = timeText hour minute seconds := by
  unfold timeRegex
  simp only [mem_mul (s := Regex.optional _), denotes_hour.mem_between denotes_sixtieth, mem_secondsRegex]
  constructor
  · rintro ⟨_, ⟨hour, -, minute, -, ⟨hhour, hminute⟩, rfl⟩, _, ⟨seconds, hseconds, rfl⟩, rfl⟩
    exact ⟨hour, hhour, minute, hminute, seconds, hseconds, rfl⟩
  · rintro ⟨hour, hhour, minute, hminute, seconds, hseconds, rfl⟩
    exact ⟨_, ⟨hour, by omega, minute, by omega, ⟨hhour, hminute⟩, rfl⟩, _, ⟨seconds, hseconds, rfl⟩, rfl⟩

/-! ### Timestamps -/

/-- What is accepted are the texts of the timestamps. -/
theorem rmatch_datetimeRegex_iff {t : Text} :
    datetimeRegex.rmatch t ↔ ∃ stamp : Iso.Timestamp, t = stamp.text := by
  have hletterT : ofString "T" = [Iso.letterT] := by decide
  have hletterZ : ofString "Z" = [Iso.letterZ] := by decide
  unfold datetimeRegex
  rw [RegularExpression.rmatch_iff_matches', hletterT, hletterZ]
  simp only [mem_mul, mem_literal, mem_dateRegex, mem_timeRegex]
  constructor
  · rintro ⟨_, ⟨_, ⟨_, ⟨date, hyear, rfl⟩, _, rfl, rfl⟩, _,
      ⟨hour, hhour, minute, hminute, seconds, hseconds, rfl⟩, rfl⟩, _, rfl, rfl⟩
    exact ⟨⟨date, hour, minute, seconds, hyear, hhour, hminute, hseconds⟩, rfl⟩
  · rintro ⟨⟨date, hour, minute, seconds, hyear, hhour, hminute, hseconds⟩, rfl⟩
    exact ⟨_, ⟨_, ⟨_, ⟨date, hyear, rfl⟩, _, rfl, rfl⟩, _,
      ⟨hour, hhour, minute, hminute, seconds, hseconds, rfl⟩, rfl⟩, _, rfl, rfl⟩

/-- The text of a moment is accepted. -/
theorem rmatch_text {ms : ℕ} (h : ms < Iso.endOfYears) : datetimeRegex.rmatch (Iso.text ms) :=
  rmatch_datetimeRegex_iff.mpr ⟨.ofMoment ms h, (Iso.Timestamp.text_ofMoment h).symm⟩

end ForexCopy
