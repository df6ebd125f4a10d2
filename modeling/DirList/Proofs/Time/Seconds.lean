import DirList.File.Status
import DirList.Proofs.Time.Telling
import Mathlib.Tactic.IntervalCases

/-!
# The second that is shown

A measured time is shown by the nearest number of 53 significant bits. So a time shortly before the
end of its second is shown as the next second, although it is ordered by its own: exactly if it is
no farther from the next second than half of the spacing of such numbers.

Results:
1. `roundedNanos_near`: the nanoseconds as they are displayed.
2. `second_measured`: the second that is shown of a measured time.
3. `shown_second`: when this is the second that the time is ordered by.
4. `exists_shown_ahead`: it need not be.
-/

namespace DirList

namespace Timestamp

/-! ## Whole seconds among rounded numbers -/

section Spacing

variable {n count : Nat}

/-- Whole seconds are even counts of the spacing of times that are not too long ago. -/
theorem exists_even_units (small : n < 2 ^ 115) (count : Nat) :
    ∃ units, Even units ∧ count * 2 ^ 82 = units * spacing precision n := by
  have excess : excessBits precision n ≤ 62 := by
    rcases Nat.eq_zero_or_pos n with rfl | positive
    · decide
    have short := (Nat.log2_lt positive.ne').mpr small
    unfold excessBits precision
    omega
  refine ⟨count * 2 ^ (82 - excessBits precision n), ?_, ?_⟩
  · exact ((Nat.even_pow.mpr ⟨even_two, by omega⟩).mul_left count)
  · rw [spacing, Nat.mul_assoc, ← Nat.pow_add, Nat.sub_add_cancel (by omega)]

theorem roundNat_le_seconds (small : n < 2 ^ 115) (less : n ≤ count * 2 ^ 82) :
    roundNat precision n ≤ count * 2 ^ 82 := by
  obtain ⟨units, -, same⟩ := exists_even_units small count
  rw [same] at less ⊢
  exact roundNat_le less

theorem seconds_le_roundNat (small : n < 2 ^ 115) (more : count * 2 ^ 82 ≤ n) :
    count * 2 ^ 82 ≤ roundNat precision n := by
  obtain ⟨units, -, same⟩ := exists_even_units small count
  rw [same] at more ⊢
  exact le_roundNat more

/-- What is rounded to a whole second is at most half of the spacing away from it. -/
theorem roundNat_eq_seconds_iff (small : n < 2 ^ 115) :
    roundNat precision n = count * 2 ^ 82 ↔
      2 * n ≤ 2 * (count * 2 ^ 82) + spacing precision n ∧
        2 * (count * 2 ^ 82) ≤ 2 * n + spacing precision n := by
  obtain ⟨units, even, same⟩ := exists_even_units small count
  rw [same]
  exact roundNat_eq_iff even

/-- The spacing of the times within one second. -/
theorem spacing_within {second : Nat} (started : second * 2 ^ 82 ≤ n)
    (ended : n < (second + 1) * 2 ^ 82) (later : 0 < second) :
    spacing precision n = 2 ^ (30 + Nat.log2 second) := by
  have length : Nat.log2 n = 82 + Nat.log2 second := by
    have least := Nat.log2_self_le later.ne'
    have most : second + 1 ≤ 2 ^ (Nat.log2 second + 1) := Nat.lt_log2_self
    have positive : n ≠ 0 := by omega
    rw [Nat.log2_eq_iff positive]
    refine ⟨?_, ?_⟩
    · calc 2 ^ (82 + Nat.log2 second)
        _ = 2 ^ Nat.log2 second * 2 ^ 82 := by rw [Nat.pow_add, Nat.mul_comm]
        _ ≤ second * 2 ^ 82 := Nat.mul_le_mul_right _ least
        _ ≤ n := started
    · calc n < (second + 1) * 2 ^ 82 := ended
        _ ≤ 2 ^ (Nat.log2 second + 1) * 2 ^ 82 := Nat.mul_le_mul_right _ most
        _ = 2 ^ (82 + Nat.log2 second + 1) := by rw [← Nat.pow_add]; congr 1; omega
  unfold spacing excessBits precision
  rw [length]
  congr 1
  omega

/-- The spacing of the times within the first second. -/
theorem spacing_first (first : n < 2 ^ 82) : spacing precision n ≤ 2 ^ 29 := by
  refine Nat.pow_le_pow_right (by decide) ?_
  rcases Nat.eq_zero_or_pos n with rfl | positive
  · decide
  have short := (Nat.log2_lt positive.ne').mpr first
  unfold excessBits precision
  omega

end Spacing

/-! ## Nanoseconds -/

/-- Nanoseconds are displayed as parts of a second, each nearly as long as it is. -/
theorem roundedNanos_near {nanos : Int} (natural : 0 ≤ nanos) (inside : nanos < 1000000000) :
    0 ≤ roundedNanos nanos ∧
      1000000000 * (roundedNanos nanos - 2 ^ 30) ≤ nanos * ticksPerSecond ∧
      nanos * ticksPerSecond ≤ 1000000000 * (roundedNanos nanos + 2 ^ 30) := by
  have exact : roundInt precision nanos = nanos := by
    have fits : nanos.natAbs < 2 ^ precision := by
      unfold precision
      omega
    have shifted := roundInt_shifted fits 0
    rwa [pow_zero, mul_one] at shifted
  have positive : 0 ≤ ticksPerNano * nanos := mul_nonneg (by decide) natural
  have rounded : roundedNanos nanos = roundNat precision (ticksPerNano * nanos).toNat := by
    rw [roundedNanos, exact, roundInt, if_neg (by omega)]
  have fine := spacing_first (n := (ticksPerNano * nanos).toNat) (by unfold ticksPerNano; omega)
  obtain ⟨above, below⟩ := roundNat_near precision (ticksPerNano * nanos).toNat
  rw [rounded]
  unfold ticksPerNano at above below fine ⊢
  unfold ticksPerSecond
  omega

/-- Whether what is left of a second reaches so far as half of the spacing of displayed times can be
read off the nanoseconds. -/
theorem reaches_iff {left nanos : Int} {length : Nat} (short : length ≤ 32)
    (inside : nanos < 1000000000)
    (least : (1000000000 - nanos) * ticksPerSecond ≤ 1000000000 * (left + 2 ^ 30))
    (most : 1000000000 * (left - 2 ^ 30) ≤ (1000000000 - nanos) * ticksPerSecond) :
    2 * left ≤ 2 ^ (30 + length) ↔
      (1000000000 - nanos) * 2 ^ 53 ≤ 1000000000 * 2 ^ length := by
  unfold ticksPerSecond at least most
  interval_cases length <;> omega

/-! ## Seconds -/

/-- The whole seconds between a time that is within a second and the start of 1970. -/
def wholeSeconds (time : Timestamp) : Nat :=
  (if 0 ≤ time.seconds then time.seconds else -time.seconds - 1).toNat

/-- Whether a time is no farther from the next second than half of the spacing of the numbers of 53
significant bits next to it, which is `2 ^ (log2 time.wholeSeconds - 52)` seconds. -/
def IsShownAhead (time : Timestamp) : Prop :=
  (1000000000 - time.nanos) * 2 ^ 53 ≤ 1000000000 * 2 ^ Nat.log2 time.wholeSeconds

instance (time : Timestamp) : Decidable time.IsShownAhead :=
  inferInstanceAs (Decidable (_ ≤ _))

theorem isShownAhead_iff {time : Timestamp} {second : Nat} (whole : time.wholeSeconds = second) :
    time.IsShownAhead ↔
      (1000000000 - time.nanos) * 2 ^ 53 ≤ 1000000000 * 2 ^ Nat.log2 second := by
  rw [IsShownAhead, whole]

section Seconds

variable {n second : Nat} {left nanos : Int}

/-- What is left of a second reaches so far as half of the spacing. -/
theorem spacing_reaches (small : second < 2 ^ 33) (inside : nanos < 1000000000)
    (least : (1000000000 - nanos) * ticksPerSecond ≤ 1000000000 * (left + 2 ^ 30))
    (most : 1000000000 * (left - 2 ^ 30) ≤ (1000000000 - nanos) * ticksPerSecond)
    (started : second * 2 ^ 82 ≤ n) (ended : n < (second + 1) * 2 ^ 82) :
    2 * left ≤ spacing precision n ↔
      (1000000000 - nanos) * 2 ^ 53 ≤ 1000000000 * 2 ^ Nat.log2 second := by
  rcases Nat.eq_zero_or_pos second with rfl | later
  · -- In the first second, the spacing is too small to be reached.
    have first : n < 2 ^ 82 := by omega
    have fine := spacing_first first
    rw [show Nat.log2 0 = 0 by decide]
    unfold ticksPerSecond at least
    omega
  · have short : Nat.log2 second ≤ 32 :=
      Nat.le_of_lt_succ ((Nat.log2_lt later.ne').mpr small)
    rw [spacing_within started ended later, ← reaches_iff short inside least most]
    push_cast
    rfl

/-- The second that is shown of a time after the start of 1970. -/
theorem second_of_later {part : Int} (small : second < 2 ^ 33) (started : 0 < part)
    (ended : part < ticksPerSecond) (inside : nanos < 1000000000)
    (least : (1000000000 - nanos) * ticksPerSecond ≤
      1000000000 * (ticksPerSecond - part + 2 ^ 30))
    (most : 1000000000 * (ticksPerSecond - part - 2 ^ 30) ≤
      (1000000000 - nanos) * ticksPerSecond) :
    roundInt precision (second * ticksPerSecond + part) / ticksPerSecond =
      if (1000000000 - nanos) * 2 ^ 53 ≤ 1000000000 * 2 ^ Nat.log2 second then (second : Int) + 1
      else second := by
  have reaches : ∀ n : Nat, second * 2 ^ 82 ≤ n → n < (second + 1) * 2 ^ 82 → _ := fun n =>
    spacing_reaches (n := n) small inside least most
  unfold ticksPerSecond at ended reaches ⊢
  obtain ⟨n, whole⟩ : ∃ n : Nat, (n : Int) = second * 0x400000000000000000000 + part :=
    ⟨(second * 0x400000000000000000000 + part).toNat, by omega⟩
  have low : second * 2 ^ 82 ≤ n := by omega
  have high : n < (second + 1) * 2 ^ 82 := by omega
  have bound : n < 2 ^ 115 := by omega
  have least' := seconds_le_roundNat bound low
  have most' := roundNat_le_seconds bound high.le
  have next : roundNat precision n = (second + 1) * 2 ^ 82 ↔ _ := roundNat_eq_seconds_iff bound
  rw [← whole, roundInt, if_neg (by omega), Int.toNat_natCast,
    ← if_congr (reaches n low high) rfl rfl]
  split
  next ahead =>
    have same := next.mpr ⟨by omega, by omega⟩
    omega
  next behind =>
    have apart : roundNat precision n ≠ (second + 1) * 2 ^ 82 := by
      intro same
      have near := (next.mp same).2
      omega
    omega

/-- The second that is shown of a time before the start of 1970. -/
theorem second_of_earlier {part : Int} (small : second < 2 ^ 33) (started : 0 < part)
    (ended : part < ticksPerSecond) (inside : nanos < 1000000000)
    (least : (1000000000 - nanos) * ticksPerSecond ≤
      1000000000 * (ticksPerSecond - part + 2 ^ 30))
    (most : 1000000000 * (ticksPerSecond - part - 2 ^ 30) ≤
      (1000000000 - nanos) * ticksPerSecond) :
    roundInt precision ((-second - 1) * ticksPerSecond + part) / ticksPerSecond =
      if (1000000000 - nanos) * 2 ^ 53 ≤ 1000000000 * 2 ^ Nat.log2 second then (-second : Int)
      else -second - 1 := by
  have reaches : ∀ n : Nat, second * 2 ^ 82 ≤ n → n < (second + 1) * 2 ^ 82 → _ := fun n =>
    spacing_reaches (n := n) small inside least most
  unfold ticksPerSecond at ended reaches ⊢
  -- Before 1970, what is left of the second is what the size of the number has beyond seconds.
  obtain ⟨n, whole⟩ : ∃ n : Nat,
      (n : Int) = second * 0x400000000000000000000 + (0x400000000000000000000 - part) :=
    ⟨(second * 0x400000000000000000000 + (0x400000000000000000000 - part)).toNat, by omega⟩
  have low : second * 2 ^ 82 ≤ n := by omega
  have high : n < (second + 1) * 2 ^ 82 := by omega
  have bound : n < 2 ^ 115 := by omega
  have least' := seconds_le_roundNat bound low
  have most' := roundNat_le_seconds bound high.le
  have next : roundNat precision n = second * 2 ^ 82 ↔ _ := roundNat_eq_seconds_iff bound
  have size : (-second - 1 : Int) * 0x400000000000000000000 + part = -n := by omega
  rw [size, roundInt, if_pos (by omega), Int.natAbs_neg, Int.natAbs_natCast,
    ← if_congr (reaches n low high) rfl rfl]
  split
  next ahead =>
    have same := next.mpr ⟨by omega, by omega⟩
    omega
  next behind =>
    have apart : roundNat precision n ≠ second * 2 ^ 82 := by
      intro same
      have near := (next.mp same).1
      omega
    omega

end Seconds

/-- No time is shown ahead that lies half a microsecond or more before the next second. -/
theorem not_isShownAhead {time : Timestamp} (small : time.seconds.natAbs < 2 ^ 33)
    (early : time.nanos < 999999523) : ¬time.IsShownAhead := by
  have short : Nat.log2 time.wholeSeconds ≤ 32 := by
    rcases Nat.eq_zero_or_pos time.wholeSeconds with none | some
    · rw [none]
      decide
    have within : time.wholeSeconds < 2 ^ 33 := by
      unfold wholeSeconds
      split <;> omega
    have length := (Nat.log2_lt some.ne').mpr within
    omega
  have power : (2 : Int) ^ Nat.log2 time.wholeSeconds ≤ 2 ^ 32 :=
    pow_le_pow_right₀ (by decide) short
  unfold IsShownAhead
  omega

/-- The second that is shown of a measured time: its own, or the next one if the time is near to
it. -/
theorem second_measured {time : Timestamp} (small : time.seconds.natAbs < 2 ^ 33)
    (natural : 0 ≤ time.nanos) (inside : time.nanos < 1000000000) :
    time.measured.second = if time.IsShownAhead then time.seconds + 1 else time.seconds := by
  obtain ⟨seconds, nanos⟩ := time
  dsimp only at small natural inside ⊢
  have exact : roundedSeconds seconds = seconds * ticksPerSecond :=
    Moment.roundInt_seconds (Nat.lt_trans small (by decide))
  obtain ⟨positive, above, below⟩ := roundedNanos_near natural inside
  have ticks : (measured ⟨seconds, nanos⟩).second =
      roundInt precision (seconds * ticksPerSecond + roundedNanos nanos) / ticksPerSecond := by
    rw [← exact]
    rfl
  rw [ticks]
  rcases natural.eq_or_lt with rfl | later
  · -- A whole second is exact and far from the next one.
    have none : roundedNanos 0 = 0 := by decide
    rw [none, Int.add_zero, Moment.roundInt_seconds (Nat.lt_trans small (by decide)),
      Int.mul_ediv_cancel _ (by decide),
      if_neg (not_isShownAhead small (by decide : (0 : Int) < 999999523))]
  have started : 0 < roundedNanos nanos := by
    unfold ticksPerSecond at below
    omega
  have ended : roundedNanos nanos < ticksPerSecond := by
    unfold ticksPerSecond at above ⊢
    omega
  have least : (1000000000 - nanos) * ticksPerSecond ≤
      1000000000 * (ticksPerSecond - roundedNanos nanos + 2 ^ 30) := by
    unfold ticksPerSecond at above ⊢
    omega
  have most : 1000000000 * (ticksPerSecond - roundedNanos nanos - 2 ^ 30) ≤
      (1000000000 - nanos) * ticksPerSecond := by
    unfold ticksPerSecond at below ⊢
    omega
  by_cases since : 0 ≤ seconds
  · obtain ⟨second, rfl⟩ := Int.eq_ofNat_of_zero_le since
    have whole : wholeSeconds ⟨second, nanos⟩ = second := by
      rw [wholeSeconds, if_pos since, Int.toNat_natCast]
    rw [if_congr (isShownAhead_iff whole) rfl rfl]
    exact second_of_later small started ended inside least most
  · obtain ⟨second, rfl⟩ : ∃ second : Nat, seconds = -second - 1 :=
      ⟨(-seconds - 1).toNat, by omega⟩
    have whole : wholeSeconds ⟨-second - 1, nanos⟩ = second := by
      rw [wholeSeconds, if_neg since]
      dsimp only
      omega
    rw [if_congr (isShownAhead_iff whole) rfl rfl, sub_add_cancel]
    exact second_of_earlier (by omega) started ended inside least most

end Timestamp

/-! ## What is shown of a status -/

namespace Status

/-- A full label shows the second that a time is ordered by, unless the time is near to the next
second: then it shows that one. Where the system does not report whole nanoseconds, times are
ordered by what is shown of them. The labels are what is told of these times. -/
theorem shown_second (status : Status) (field : TimeField)
    (small : (status.time field).seconds.natAbs < 2 ^ 33)
    (natural : 0 ≤ (status.time field).nanos) (inside : (status.time field).nanos < 1000000000) :
    let time := status.time field
    (status.hasNanos = true →
      status.timeKey field / (1000000000 * Timestamp.ticksPerSecond) = time.seconds) ∧
    (status.hasNanos = false →
      status.timeKey field / Timestamp.ticksPerSecond = time.measured.second) ∧
    ∀ now now' : Moment,
      time.measured.told true now = .ok (time.measured.label true now) ∧
      (Moment.whole time.seconds).told true now' =
        .ok ((Moment.whole time.seconds).label true now') ∧
      time.measured.label true now = (Moment.whole (if time.IsShownAhead then time.seconds + 1
        else time.seconds)).label true now' ∧
      (time.measured.label true now = (Moment.whole time.seconds).label true now' ↔
        ¬time.IsShownAhead) := by
  intro time
  have shown : time.measured.second = _ := Timestamp.second_measured small natural inside
  refine ⟨fun nanos => ?_, fun whole => ?_, fun now now' => ⟨?_, ?_, ?_, ?_⟩⟩
  · rw [timeKey, if_pos nanos, Int.mul_ediv_mul_of_pos_left _ _ (by decide), Timestamp.nanoseconds]
    change _ = (status.time field).seconds
    omega
  · rw [timeKey, whole, if_neg Bool.false_ne_true]
    rfl
  · refine Moment.told_of_small ?_ true now
    have near : time.seconds.natAbs < 2 ^ 33 := small
    rw [shown]
    rw [show 2 ^ 33 = 8589934592 by rfl] at near
    rw [show 2 ^ 53 = 9007199254740992 by rfl]
    split <;> omega
  · exact Moment.told_of_small (Nat.lt_trans small (by decide)) true now'
  · exact congrArg (fun second => (CivilTime.ofSecond second).fullLabel) shown
  · refine Moment.fullLabel_eq_iff.trans ?_
    rw [shown, Moment.second]
    split
    next ahead => exact iff_of_false (by omega) (not_not.mpr ahead)
    next behind => exact iff_of_true rfl behind

/-- A time one nanosecond before the end of a second of 2023. -/
def lateStatus : Status :=
  { (default : Status) with modified := ⟨1700000000, 999999999⟩, hasNanos := true }

/-- The same time some nanoseconds earlier. -/
def earlierStatus : Status :=
  { (default : Status) with modified := ⟨1700000000, 999999880⟩, hasNanos := true }

/-- 120 nanoseconds before the next second the own second is shown. -/
theorem shown_second_sample :
    (earlierStatus.time .modification).seconds.natAbs < 2 ^ 33 ∧
    0 ≤ (earlierStatus.time .modification).nanos ∧
    (earlierStatus.time .modification).nanos < 1000000000 ∧
    ¬(earlierStatus.time .modification).IsShownAhead ∧
    (earlierStatus.time .modification).measured.label true (.whole 0) =
      (Moment.whole 1700000000).label true (.whole 0) ∧
    (Moment.whole 1700000000).label true (.whole 0) = "Nov 14 22:13:20 2023" := by
  have behind : ¬(earlierStatus.time .modification).IsShownAhead := by decide +kernel
  obtain ⟨-, -, labels⟩ :=
    shown_second earlierStatus .modification (by decide) (by decide) (by decide)
  exact ⟨by decide, by decide, by decide, behind, (labels _ _).2.2.2.mpr behind, by decide +kernel⟩

/-- The second that is shown need not be the one that the time is ordered by. -/
theorem exists_shown_ahead :
    ∃ (status : Status) (field : TimeField), (status.time field).seconds.natAbs < 2 ^ 33 ∧
      0 ≤ (status.time field).nanos ∧ (status.time field).nanos < 1000000000 ∧
      status.hasNanos = true ∧
      status.timeKey field / (1000000000 * Timestamp.ticksPerSecond) = 1700000000 ∧
      (status.time field).seconds = 1700000000 ∧
      (status.time field).measured.label true (.whole 0) = "Nov 14 22:13:21 2023" ∧
      (Moment.whole (status.time field).seconds).label true (.whole 0) = "Nov 14 22:13:20 2023" ∧
      (status.time field).measured.label true (.whole 0) ≠
        (Moment.whole (status.time field).seconds).label true (.whole 0) := by
  refine ⟨lateStatus, .modification, ?_⟩
  decide +kernel

end Status
end DirList
