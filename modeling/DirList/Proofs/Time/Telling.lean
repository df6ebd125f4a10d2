import DirList.Proofs.Time.Dates
import DirList.Proofs.Time.Rounding

/-!
# What labels tell

A full label tells the second of a moment. A short one tells the minute of a moment that is less
than half a year from now, and the day of any other moment. The year may be left out of the former
because any two of them are less than a year apart.

Results:
1. `decimal_injective`: numbers are told by their texts.
2. `eq_of_fullLabel`, `eq_of_recentLabel`, `eq_of_yearLabel`: what the parts of a label tell.
3. `told_of_small`: a moment that is not far from 1970 has a label.
4. `labels_tell`: what the labels of two moments in the same listing tell of them.
-/

namespace DirList

/-! ## Texts of numbers -/

/-- Texts of one length in front can be told from what follows them. -/
theorem append_inj {front front' rest rest' : String} (same : front ++ rest = front' ++ rest')
    (long : front.length = front'.length) : front = front' ∧ rest = rest' := by
  have lists := congrArg String.toList same
  rw [String.toList_append, String.toList_append] at lists
  obtain ⟨first, second⟩ := List.append_inj lists long
  exact ⟨String.toList_inj.mp first, String.toList_inj.mp second⟩

/-- The number that the digits of a text make, where signs and blanks count as zeros. -/
def readDigits (text : String) : Nat :=
  Nat.ofDigitChars 10 text.toList 0

theorem readDigits_digits (n : Nat) : readDigits (digits n) = n := by
  rw [readDigits, digits, String.toList_ofList]
  exact Nat.ofDigitChars_ten_toDigits

/-- Zeros in front change nothing, nor what counts as zeros. -/
theorem readDigits_lead {c : Char} (low : c.toNat ≤ 48) (count : Nat) (text : String) :
    readDigits (repeated count c ++ text) = readDigits text := by
  have lead : ∀ count, Nat.ofDigitChars 10 (List.replicate count c) 0 = 0 := by
    intro count
    induction count with
    | zero => rfl
    | succ count ih =>
      rw [List.replicate_succ, Nat.ofDigitChars_cons]
      rw [show 10 * 0 + (c.toNat - '0'.toNat) = 0 by
        have zero : '0'.toNat = 48 := rfl
        omega]
      exact ih
  rw [readDigits, String.toList_append, Nat.ofDigitChars_append, repeated, String.toList_ofList,
    lead]
  rfl

theorem readDigits_padLeft (width n : Nat) : readDigits (padLeft width (digits n)) = n := by
  rw [padLeft, readDigits_lead (by decide), readDigits_digits]

theorem readDigits_twoDigits (n : Nat) : readDigits (twoDigits n) = n := by
  unfold twoDigits
  split
  · exact (readDigits_lead (by decide : '0'.toNat ≤ 48) 1 (digits n)).trans (readDigits_digits n)
  · exact readDigits_digits n

theorem readDigits_decimal (n : Int) : readDigits (decimal n) = n.natAbs := by
  unfold decimal
  split
  · exact (readDigits_lead (by decide : '-'.toNat ≤ 48) 1 _).trans (readDigits_digits _)
  · rw [readDigits_digits]
    omega

/-- Numbers are told by their texts. -/
theorem decimal_injective : Function.Injective decimal := by
  intro a b same
  have sizes : a.natAbs = b.natAbs := by
    rw [← readDigits_decimal, ← readDigits_decimal, same]
  -- Two numbers of one size have texts of one length only if they have the same sign.
  have sign : "-".length = 1 := rfl
  have lengths := congrArg String.length same
  unfold decimal at lengths
  split at lengths <;> split at lengths
  · omega
  · rw [String.length_append, show b.toNat = a.natAbs by omega] at lengths
    omega
  · rw [String.length_append, show a.toNat = b.natAbs by omega] at lengths
    omega
  · omega

theorem monthName_injective {month month' : Nat} (proper : 1 ≤ month ∧ month ≤ 12)
    (proper' : 1 ≤ month' ∧ month' ≤ 12) (same : monthName month = monthName month') :
    month = month' := by
  have each : ∀ month < 12, ∀ month' < 12,
      monthNames.getD month "" = monthNames.getD month' "" → month = month' := by decide
  have before : month - 1 = month' - 1 := each (month - 1) (by omega) (month' - 1) (by omega) same
  omega

/-! ## Parts of labels -/

theorem eq_of_twoDigits {n n' : Nat} {rest rest' : String} (small : n < 100) (small' : n' < 100)
    (same : twoDigits n ++ rest = twoDigits n' ++ rest') : n = n' ∧ rest = rest' := by
  obtain ⟨texts, rests⟩ :=
    append_inj same ((length_twoDigits small).trans (length_twoDigits small').symm)
  rw [← readDigits_twoDigits n, texts, readDigits_twoDigits]
  exact ⟨rfl, rests⟩

namespace CivilTime

theorem date_eq_iff {second second' : Int} :
    (ofSecond second).date = (ofSecond second').date ↔ second / 86400 = second' / 86400 :=
  CivilDate.ofDay_injective.eq_iff

/-- On one day, the hour and the minute are those of the minutes counted from the start of 1970. -/
theorem minute_eq_iff {second second' : Int} (days : second / 86400 = second' / 86400) :
    (ofSecond second).hour = (ofSecond second').hour ∧
      (ofSecond second).minute = (ofSecond second').minute ↔ second / 60 = second' / 60 := by
  unfold ofSecond
  dsimp only
  omega

theorem ofSecond_injective : Function.Injective ofSecond := by
  intro second second' same
  have days := date_eq_iff.mp (congrArg date same)
  have minutes := (minute_eq_iff days).mp ⟨congrArg hour same, congrArg minute same⟩
  have seconds : (second % 86400).toNat % 60 = (second' % 86400).toNat % 60 :=
    congrArg CivilTime.second same
  omega

namespace IsProper

variable {time time' : CivilTime} {rest rest' : String} (proper : time.IsProper)
  (proper' : time'.IsProper)

include proper proper'

theorem eq_of_monthAndDay (same : time.monthAndDay ++ rest = time'.monthAndDay ++ rest') :
    (time.date.month = time'.date.month ∧ time.date.day = time'.date.day) ∧ rest = rest' := by
  obtain ⟨dates, rests⟩ :=
    append_inj same (proper.length_monthAndDay.trans proper'.length_monthAndDay.symm)
  have long := length_monthName proper.date.month
  have long' := length_monthName proper'.date.month
  unfold monthAndDay at dates
  rw [String.append_assoc, String.append_assoc] at dates
  obtain ⟨names, days⟩ := append_inj dates (long.trans long'.symm)
  have days := (String.append_right_inj " ").mp days
  refine ⟨⟨monthName_injective proper.date.month proper'.date.month names, ?_⟩, rests⟩
  rw [← readDigits_padLeft 2 time.date.day, days, readDigits_padLeft]

theorem eq_of_clock (same : time.clock ++ rest = time'.clock ++ rest') :
    (time.hour = time'.hour ∧ time.minute = time'.minute) ∧ rest = rest' := by
  unfold clock at same
  rw [String.append_assoc, String.append_assoc, String.append_assoc, String.append_assoc] at same
  obtain ⟨hours, same⟩ := eq_of_twoDigits (Nat.lt_trans proper.hour (by decide))
    (Nat.lt_trans proper'.hour (by decide)) same
  obtain ⟨minutes, rests⟩ := eq_of_twoDigits (Nat.lt_trans proper.minute (by decide))
    (Nat.lt_trans proper'.minute (by decide)) ((String.append_right_inj ":").mp same)
  exact ⟨⟨hours, minutes⟩, rests⟩

/-- A recent label tells the month, the day, the hour and the minute. -/
theorem eq_of_recentLabel (same : time.recentLabel = time'.recentLabel) :
    (time.date.month = time'.date.month ∧ time.date.day = time'.date.day) ∧
      time.hour = time'.hour ∧ time.minute = time'.minute := by
  unfold recentLabel at same
  rw [String.append_assoc, String.append_assoc] at same
  obtain ⟨dates, same⟩ := proper.eq_of_monthAndDay proper' same
  have clocks := congrArg (· ++ "") ((String.append_right_inj " ").mp same)
  exact ⟨dates, (proper.eq_of_clock proper' clocks).1⟩

/-- A label with the year tells the date. -/
theorem eq_of_yearLabel (same : time.yearLabel = time'.yearLabel) : time.date = time'.date := by
  unfold yearLabel at same
  rw [String.append_assoc, String.append_assoc] at same
  obtain ⟨⟨months, days⟩, same⟩ := proper.eq_of_monthAndDay proper' same
  have years := decimal_injective ((String.append_right_inj "  ").mp same)
  obtain ⟨⟨_, _, _⟩, _⟩ := time
  cases months
  cases days
  cases years
  rfl

/-- A full label tells everything. -/
theorem eq_of_fullLabel (same : time.fullLabel = time'.fullLabel) : time = time' := by
  unfold fullLabel at same
  simp only [String.append_assoc] at same
  obtain ⟨⟨months, days⟩, same⟩ := proper.eq_of_monthAndDay proper' same
  obtain ⟨⟨hours, minutes⟩, same⟩ :=
    proper.eq_of_clock proper' ((String.append_right_inj " ").mp same)
  obtain ⟨seconds, same⟩ := eq_of_twoDigits (Nat.lt_trans proper.second (by decide))
    (Nat.lt_trans proper'.second (by decide)) ((String.append_right_inj ":").mp same)
  have years := decimal_injective ((String.append_right_inj " ").mp same)
  obtain ⟨⟨_, _, _⟩, _, _, _⟩ := time
  cases months
  cases days
  cases hours
  cases minutes
  cases seconds
  cases years
  rfl

/-- A recent label has a time of day where a label with the year has blanks. -/
theorem recentLabel_ne_yearLabel : time.recentLabel ≠ time'.yearLabel := by
  intro same
  unfold recentLabel yearLabel at same
  rw [String.append_assoc, String.append_assoc] at same
  obtain ⟨-, same⟩ := proper.eq_of_monthAndDay proper' same
  have blank : time.clock = " " ++ decimal time'.date.year :=
    (String.append_right_inj " ").mp (same.trans (@String.append_assoc " " " " _))
  have hours : ∀ hour < 24, (twoDigits hour).toList.head?.any (· ≠ ' ') = true := by decide
  have first := hours _ proper.hour
  have heads := congrArg (fun text => text.toList.head?) blank
  unfold clock at heads
  simp only [String.toList_append, List.append_assoc, List.head?_append] at heads
  cases known : (twoDigits time.hour).toList.head? with
  | none =>
    rw [known] at first
    cases first
  | some digit =>
    rw [known] at first heads
    cases heads
    exact absurd first (by decide)

end IsProper
end CivilTime

/-! ## Moments -/

namespace Moment

/-- `moment.Tells second`: the moment is that of a whole second, which a caller names, or which was
measured and is not too large to be measured exactly. -/
inductive Tells (second : Int) : Moment → Prop
  | named : Tells second (.whole second)
  | measured : second.natAbs < 2 ^ 52 → Tells second (Timestamp.measured ⟨second, 0⟩)

/-- Whether a second is less than half a year from now. -/
def IsNear (now second : Int) : Prop :=
  now - recentSeconds < second ∧ second < now + recentSeconds

instance (now second : Int) : Decidable (IsNear now second) :=
  inferInstanceAs (Decidable (_ ∧ _))

/-- A moment that is not far from 1970 has a label: the calendar goes on far enough. -/
theorem told_of_small {moment : Moment} (small : moment.second.natAbs < 2 ^ 53) (full : Bool)
    (now : Moment) : moment.told full now = .ok (moment.label full now) := by
  rw [show 2 ^ 53 = 9007199254740992 by rfl] at small
  have near : (moment.second / 86400).natAbs < 2 ^ 37 := by
    rw [show 2 ^ 37 = 137438953472 by rfl]
    omega
  have year := CivilDate.year_ofDay_lt near
  rw [show 2 ^ 30 = 1073741824 by rfl] at year
  have word : moment.isWord = true := by
    unfold isWord wordEnd
    cases moment with
    | whole seconds =>
      simp only [second] at small
      simp only [Bool.and_eq_true, decide_eq_true_eq]
      omega
    | rounded ticks =>
      simp only [Bool.and_eq_true, decide_eq_true_eq]
      omega
  have none : moment.fault? = none := by
    unfold fault? CivilTime.ofSecond halfWordEnd
    simp only [word, Bool.not_true, Bool.false_eq_true, if_false, Bool.or_eq_true,
      decide_eq_true_eq]
    rw [if_neg (by omega), if_neg (by omega)]
  rw [told, none]

/-- Seconds that are not too large are exact when they are rounded. -/
theorem roundInt_seconds {second : Int} (small : second.natAbs < 2 ^ 53) :
    roundInt Timestamp.precision (second * Timestamp.ticksPerSecond) =
      second * Timestamp.ticksPerSecond :=
  roundInt_shifted small 82

theorem measured_second {second : Int} (small : second.natAbs < 2 ^ 53) :
    Timestamp.measured ⟨second, 0⟩ = .rounded (second * Timestamp.ticksPerSecond) := by
  have none : Timestamp.roundedNanos 0 = 0 := by decide
  unfold Timestamp.measured Timestamp.ticks Timestamp.roundedSeconds
  dsimp only
  rw [none, roundInt_seconds small, Int.add_zero, roundInt_seconds small]

namespace Tells

variable {second now : Int} {moment clock : Moment}

theorem second_eq (tells : moment.Tells second) : moment.second = second := by
  cases tells with
  | named => rfl
  | measured small =>
    rw [measured_second (Nat.lt_trans small (by decide))]
    exact Int.mul_ediv_cancel _ (by decide)

theorem ticks_eq (tells : moment.Tells second) :
    moment.ticks = second * Timestamp.ticksPerSecond := by
  cases tells with
  | named => rfl
  | measured small =>
    rw [measured_second (Nat.lt_trans small (by decide))]
    rfl

/-- Half a year from an exact moment is exact. -/
theorem ticks_after (tells : clock.Tells now) {delay : Int}
    (half : delay.natAbs ≤ recentSeconds.natAbs) :
    (clock.after delay).ticks = (now + delay) * Timestamp.ticksPerSecond := by
  cases tells with
  | named => rfl
  | measured small =>
    have reach : recentSeconds.natAbs = 15724800 := rfl
    have inside : (now + delay).natAbs < 2 ^ 53 := by
      rw [show 2 ^ 53 = 9007199254740992 by rfl]
      rw [show 2 ^ 52 = 4503599627370496 by rfl] at small
      omega
    rw [measured_second (Nat.lt_trans small (by decide)), after, ticks, ← Int.add_mul,
      roundInt_seconds inside]

theorem isRecent_iff (tells : moment.Tells second) (clocks : clock.Tells now) :
    moment.isRecent clock = true ↔ IsNear now second := by
  have positive : 0 < Timestamp.ticksPerSecond := by decide
  unfold isRecent
  rw [Bool.and_eq_true, decide_eq_true_iff, decide_eq_true_iff, tells.ticks_eq,
    clocks.ticks_after (by rw [Int.natAbs_neg]), clocks.ticks_after le_rfl,
    Int.mul_lt_mul_right positive, Int.mul_lt_mul_right positive]
  rfl

/-- A short label shows the time of day of a second near to now, and the year of any other. -/
theorem label_eq (tells : moment.Tells second) (clocks : clock.Tells now) :
    moment.label false clock =
      if IsNear now second then (CivilTime.ofSecond second).recentLabel
      else (CivilTime.ofSecond second).yearLabel := by
  unfold label
  dsimp only
  rw [if_neg Bool.false_ne_true, tells.second_eq]
  exact if_congr (tells.isRecent_iff clocks) rfl rfl

end Tells

/-- Two seconds near to now are less than a year apart, so their labels tell their minutes. -/
theorem recentLabel_eq_iff {now second second' : Int} (near : IsNear now second)
    (near' : IsNear now second') :
    (CivilTime.ofSecond second).recentLabel = (CivilTime.ofSecond second').recentLabel ↔
      second / 60 = second' / 60 := by
  have proper := CivilTime.isProper_ofSecond second
  have proper' := CivilTime.isProper_ofSecond second'
  refine ⟨fun same => ?_, fun same => ?_⟩
  · obtain ⟨⟨months, dates⟩, clocks⟩ := proper.eq_of_recentLabel proper' same
    have close : (second / 86400 - second' / 86400).natAbs < 365 := by
      unfold IsNear recentSeconds at near near'
      omega
    have days := CivilDate.ofDay_eq_of_close close months dates
    exact (CivilTime.minute_eq_iff days).mp clocks
  · have days : second / 86400 = second' / 86400 := by omega
    obtain ⟨hours, minutes⟩ := (CivilTime.minute_eq_iff days).mpr same
    unfold CivilTime.recentLabel CivilTime.monthAndDay CivilTime.clock
    rw [CivilTime.date_eq_iff.mpr days, hours, minutes]

/-- A label with the year tells the day. -/
theorem yearLabel_eq_iff {second second' : Int} :
    (CivilTime.ofSecond second).yearLabel = (CivilTime.ofSecond second').yearLabel ↔
      second / 86400 = second' / 86400 := by
  have proper := CivilTime.isProper_ofSecond second
  have proper' := CivilTime.isProper_ofSecond second'
  refine ⟨fun same => CivilTime.date_eq_iff.mp (proper.eq_of_yearLabel proper' same),
    fun days => ?_⟩
  unfold CivilTime.yearLabel CivilTime.monthAndDay
  rw [CivilTime.date_eq_iff.mpr days]

/-- A full label tells the second. -/
theorem fullLabel_eq_iff {second second' : Int} :
    (CivilTime.ofSecond second).fullLabel = (CivilTime.ofSecond second').fullLabel ↔
      second = second' := by
  have proper := CivilTime.isProper_ofSecond second
  have proper' := CivilTime.isProper_ofSecond second'
  refine ⟨fun same => ?_, congrArg fun second => (CivilTime.ofSecond second).fullLabel⟩
  exact CivilTime.ofSecond_injective (proper.eq_of_fullLabel proper' same)

/-- The full labels of two moments are the same only for the same second. Their short labels in a
listing are the same only if both are less than half a year from now and in the same minute, or if
neither is and they are on the same day. They are what is told of moments not far from 1970. -/
theorem labels_tell {second second' now : Int} {moment moment' clock : Moment}
    (tells : moment.Tells second) (tells' : moment'.Tells second') (clocks : clock.Tells now) :
    (∀ other other' : Moment, moment.label true other = moment'.label true other' ↔
      second = second') ∧
    (moment.label false clock = moment'.label false clock ↔
      IsNear now second ∧ IsNear now second' ∧ second / 60 = second' / 60 ∨
      ¬IsNear now second ∧ ¬IsNear now second' ∧ second / 86400 = second' / 86400) ∧
    (second.natAbs < 2 ^ 53 →
      ∀ full other, moment.told full other = .ok (moment.label full other)) ∧
    (second'.natAbs < 2 ^ 53 →
      ∀ full other, moment'.told full other = .ok (moment'.label full other)) := by
  refine ⟨fun other other' => ?_, ?_, fun small => told_of_small (tells.second_eq ▸ small),
    fun small => told_of_small (tells'.second_eq ▸ small)⟩
  · unfold label
    dsimp only
    rw [if_pos rfl, if_pos rfl, tells.second_eq, tells'.second_eq]
    exact fullLabel_eq_iff
  rw [tells.label_eq clocks, tells'.label_eq clocks]
  have proper := CivilTime.isProper_ofSecond second
  have proper' := CivilTime.isProper_ofSecond second'
  by_cases near : IsNear now second <;> by_cases near' : IsNear now second'
  · rw [if_pos near, if_pos near', recentLabel_eq_iff near near']
    simp only [near, near', true_and, not_true_eq_false, false_and, or_false]
  · rw [if_pos near, if_neg near']
    simp only [near, near', proper.recentLabel_ne_yearLabel proper', not_true_eq_false, false_and,
      and_false, or_false]
  · rw [if_neg near, if_pos near']
    simp only [near, near', (proper'.recentLabel_ne_yearLabel proper).symm, not_true_eq_false,
      false_and, and_false, or_false]
  · rw [if_neg near, if_neg near', yearLabel_eq_iff]
    simp only [near, near', false_and, false_or, not_false_eq_true, true_and]

/-- Two seconds of one minute of a leap day, half a year less a second before now; the second before
them shows the year. -/
theorem labels_tell_sample :
    Tells 1709208060 (.whole 1709208060) ∧ Tells 1709208119 (Timestamp.measured ⟨1709208119, 0⟩) ∧
    Tells 1724932859 (Timestamp.measured ⟨1724932859, 0⟩) ∧
    (Moment.whole 1709208060).label false (Timestamp.measured ⟨1724932859, 0⟩) = "Feb 29 12:01" ∧
    (Moment.whole 1709208059).label false (Timestamp.measured ⟨1724932859, 0⟩) = "Feb 29  2024" ∧
    (Timestamp.measured ⟨1709208119, 0⟩).label true (.whole 0) = "Feb 29 12:01:59 2024" ∧
    (Moment.whole 1709208060).label false (Timestamp.measured ⟨1724932859, 0⟩) =
      (Timestamp.measured ⟨1709208119, 0⟩).label false (Timestamp.measured ⟨1724932859, 0⟩) ∧
    (Moment.whole 1709208060).label true (.whole 0) ≠
      (Timestamp.measured ⟨1709208119, 0⟩).label true (.whole 0) := by
  have exact : Tells 1709208060 (.whole 1709208060) := .named
  have measured : Tells 1709208119 (Timestamp.measured ⟨1709208119, 0⟩) := .measured (by decide)
  have clock : Tells 1724932859 (Timestamp.measured ⟨1724932859, 0⟩) := .measured (by decide)
  obtain ⟨full, short, -⟩ := labels_tell exact measured clock
  refine ⟨exact, measured, clock, by decide +kernel, by decide +kernel, by decide +kernel,
    short.mpr (.inl ⟨by decide, by decide, by decide⟩), fun same => ?_⟩
  exact absurd ((full _ _).mp same) (by decide)

end Moment
end DirList
