import CalendarRules.Time.Instant
import Mathlib.Data.Int.Interval
import Mathlib.Data.Set.Card

/-!
# Instants in order

Instants are ordered by a number that no two of them share (`Instant.rank`), and the later and the
earlier of two instants are the maximum and the minimum in this order.

Outside leap seconds an instant is also the number of nanoseconds since the beginning of 1970
(`Instant.nanos`): the order is that of these numbers, a difference of instants is their difference,
and each number in the range of instants is the number of one.  Hence a sum exists exactly if its
number is in range (`Instant.exists_plus?_iff`), and the difference of two instants is how many
instants there are from one up to the other (`Instant.ncard_between`).
-/

namespace CalendarRules
namespace Instant

variable {a b : Instant}

/-! ## Order -/

theorem lt_iff : a.lt b = true ↔ a.rank < b.rank := decide_eq_true_iff

theorem le_iff : a.le b = true ↔ a.rank ≤ b.rank := decide_eq_true_iff

/-- The dates of instants in order do not run backwards. -/
theorem day_le_of_lt (h : a.lt b = true) : a.day ≤ b.day := by
  have hrank := lt_iff.1 h
  have ha := a.isInstant
  have hb := b.isInstant
  simp only [rank, seconds, IsInstant] at hrank ha hb
  omega

theorem rank_later (a b : Instant) : (a.later b).rank = max a.rank b.rank := by
  unfold later
  split
  next h => exact (max_eq_right (le_iff.1 h)).symm
  next h => exact (max_eq_left (le_of_not_ge (mt le_iff.2 h))).symm

theorem rank_earlier (a b : Instant) : (a.earlier b).rank = min a.rank b.rank := by
  unfold earlier
  split
  next h => exact (min_eq_left (le_iff.1 h)).symm
  next h => exact (min_eq_right (le_of_not_ge (mt le_iff.2 h))).symm

theorem later_le_iff {t : Instant} : (a.later b).le t = true ↔ a.le t = true ∧ b.le t = true := by
  rw [le_iff, rank_later, max_le_iff, le_iff, le_iff]

theorem lt_earlier_iff {t : Instant} :
    t.lt (a.earlier b) = true ↔ t.lt a = true ∧ t.lt b = true := by
  rw [lt_iff, rank_earlier, lt_min_iff, lt_iff, lt_iff]

theorem isLeap_later (ha : a.isLeap = false) (hb : b.isLeap = false) :
    (a.later b).isLeap = false := by
  unfold later
  split
  · exact hb
  · exact ha

theorem isLeap_earlier (ha : a.isLeap = false) (hb : b.isLeap = false) :
    (a.earlier b).isLeap = false := by
  unfold earlier
  split
  · exact ha
  · exact hb

/-! ## Nanoseconds -/

/-- Nanoseconds since the beginning of 1970, leap seconds not counted. -/
def nanos (t : Instant) : Int := t.seconds * 1000000000 + t.nano

theorem nano_lt (h : a.isLeap = false) : a.nano < 1000000000 := not_le.1 (of_decide_eq_false h)

theorem isLeap_of_nano_eq_zero (h : a.nano = 0) : a.isLeap = false := by
  rw [isLeap, h]
  rfl

theorem nanos_le_nanos_iff (ha : a.isLeap = false) (hb : b.isLeap = false) :
    a.nanos ≤ b.nanos ↔ a.le b = true := by
  have := nano_lt ha
  have := nano_lt hb
  rw [le_iff, nanos, nanos, rank, rank]
  omega

theorem nanos_lt_nanos_iff (ha : a.isLeap = false) (hb : b.isLeap = false) :
    a.nanos < b.nanos ↔ a.lt b = true := by
  rw [← not_le, nanos_le_nanos_iff hb ha, le_iff, lt_iff, not_le]

theorem minus_eq (ha : a.isLeap = false) (hb : b.isLeap = false) :
    a.minus b = a.nanos - b.nanos := by
  have hleap : leapBetween a b = 0 := by simp [leapBetween, ha, hb]
  rw [minus, hleap, nanos, nanos]
  omega

/-- A number of nanoseconds since the beginning of 1970 lies in the range of instants. -/
def InRange (n : Int) : Prop :=
  firstDay * 86400000000000 ≤ n ∧ n < (lastDay + 1) * 86400000000000

theorem inRange_nanos (ha : a.isLeap = false) : InRange a.nanos := by
  have ⟨hfirst, hlast, hsecond, _, _⟩ := a.isInstant
  have := nano_lt ha
  rw [InRange, nanos, seconds]
  omega

/-- The numbers of instants leave no gap. -/
theorem exists_nanos_eq {n : Int} (h : InRange n) :
    ∃ t : Instant, t.isLeap = false ∧ t.nanos = n := by
  obtain ⟨hfirst, hlast⟩ := h
  refine ⟨⟨n / 86400000000000, (n / 1000000000 % 86400).toNat, (n % 1000000000).toNat,
    by omega, by omega, by omega, by omega, by omega⟩, decide_eq_false (by dsimp only; omega), ?_⟩
  simp only [nanos, seconds]
  omega

theorem eq_of_nanos_eq (ha : a.isLeap = false) (hb : b.isLeap = false) (h : a.nanos = b.nanos) :
    a = b :=
  rank_inj (le_antisymm (le_iff.1 ((nanos_le_nanos_iff ha hb).1 h.le))
    (le_iff.1 ((nanos_le_nanos_iff hb ha).1 h.ge)))

/-! ## Instants by number -/

theorem ofSeconds?_seconds (t : Instant) : ofSeconds? t.seconds t.nano = some t := by
  obtain ⟨day, second, nano, hday⟩ := t
  have hsecond : second < 86400 := hday.2.2.1
  have hd : (day * 86400 + second) / 86400 = day := by omega
  have hs : ((day * 86400 + second : Int) % 86400).toNat = second := by omega
  rw [ofSeconds?, seconds, hd, hs]
  exact dif_pos hday

/-- The instant with a number of seconds and nanoseconds, outside leap seconds. -/
theorem ofSeconds?_eq_some_iff {t : Instant} {s : Int} {n : Nat} (hn : n < 1000000000) :
    ofSeconds? s n = some t ↔ t.isLeap = false ∧ t.nanos = s * 1000000000 + n := by
  constructor
  · intro h
    unfold ofSeconds? ofParts? at h
    split at h
    · cases h
      refine ⟨decide_eq_false (by dsimp only; omega), ?_⟩
      simp only [nanos, seconds]
      omega
    · cases h
  · rintro ⟨hleap, hnanos⟩
    have := nano_lt hleap
    have hparts : s = t.seconds ∧ n = t.nano := by
      rw [nanos] at hnanos
      omega
    rw [hparts.1, hparts.2]
    exact ofSeconds?_seconds t

/-- A sum is the instant with that number. -/
theorem plus?_eq_some_iff {t t' : Instant} {n : Int} :
    t.plus? n = some t' ↔ t'.isLeap = false ∧ t'.nanos = t.nanos + n := by
  have htotal : (t.nanos + n) / 1000000000 * 1000000000 +
      (((t.nanos + n) % 1000000000).toNat : Int) = t.nanos + n := by omega
  show ofSeconds? ((t.nanos + n) / 1000000000) ((t.nanos + n) % 1000000000).toNat = some t' ↔ _
  rw [ofSeconds?_eq_some_iff (by omega), htotal]

theorem exists_plus?_iff {t : Instant} {n : Int} :
    (∃ t', t.plus? n = some t') ↔ InRange (t.nanos + n) := by
  constructor
  · rintro ⟨t', h⟩
    obtain ⟨hleap, hnanos⟩ := plus?_eq_some_iff.1 h
    rw [← hnanos]
    exact inRange_nanos hleap
  · intro h
    obtain ⟨t', hleap, hnanos⟩ := exists_nanos_eq h
    exact ⟨t', plus?_eq_some_iff.2 ⟨hleap, hnanos⟩⟩

/-! ## Intervals -/

/-- The instants outside leap seconds from one instant up to another, which is not included. -/
def between (a b : Instant) : Set Instant := {t | t.isLeap = false ∧ a.le t = true ∧ t.lt b = true}

theorem injOn_nanos (a b : Instant) : Set.InjOn nanos (between a b) := by
  rintro t ⟨ht, -⟩ u ⟨hu, -⟩ h
  exact eq_of_nanos_eq ht hu h

theorem image_nanos_between (ha : a.isLeap = false) (hb : b.isLeap = false) :
    nanos '' between a b = {n | a.nanos ≤ n ∧ n < b.nanos} := by
  ext n
  constructor
  · rintro ⟨t, ⟨ht, hle, hlt⟩, rfl⟩
    exact ⟨(nanos_le_nanos_iff ha ht).2 hle, (nanos_lt_nanos_iff ht hb).2 hlt⟩
  · rintro ⟨hle, hlt⟩
    have hrange : InRange n :=
      ⟨(inRange_nanos ha).1.trans hle, hlt.trans (inRange_nanos hb).2⟩
    obtain ⟨t, ht, rfl⟩ := exists_nanos_eq hrange
    exact ⟨t, ⟨ht, (nanos_le_nanos_iff ha ht).1 hle, (nanos_lt_nanos_iff ht hb).1 hlt⟩, rfl⟩

section Between

variable (ha : a.isLeap = false) (hb : b.isLeap = false)
include ha hb

theorem finite_between : (between a b).Finite := by
  refine Set.Finite.of_finite_image ?_ (injOn_nanos a b)
  rw [image_nanos_between ha hb]
  exact Set.finite_Ico a.nanos b.nanos

theorem ncard_between : (between a b).ncard = (b.nanos - a.nanos).toNat := by
  have hIco : {n | a.nanos ≤ n ∧ n < b.nanos} = (Finset.Ico a.nanos b.nanos : Set Int) :=
    (Finset.coe_Ico _ _).symm
  rw [← (injOn_nanos a b).ncard_image, image_nanos_between ha hb, hIco,
    Set.ncard_coe_finset, Int.card_Ico]

end Between

end Instant
end CalendarRules
