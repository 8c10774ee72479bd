import SnapStore.Proofs.Calendar
import SnapStore.Proofs.Decimal.Digits

namespace SnapStore

/-!
# The written form of moments

RFC 3339 has fixed places for the parts of a moment, each with so many digits; only a year of more than four
digits takes more, behind a plus sign.

* `IsDecimal`, `IsYear` and `IsRfc3339` are the rules for a number, a year and a moment.
* `Moment.isRfc3339` — moments are written by the rules.
* `IsRfc3339.moment_eq` and `IsRfc3339.text_eq` — by the rules, every text says one moment, and every moment
  has one text.
-/

/-! ### Numbers -/

/-- A number in decimal digits, with zeros in front up to a width. -/
structure IsDecimal (width n : Nat) (text : List Char) : Prop where
  length : text.length = width
  digits : ∀ c ∈ text, c.isDigit = true
  value : Nat.ofDigitChars 10 text 0 = n

theorem isDecimal_padded {width n : Nat} (hwidth : 0 < width) (hn : n < 10 ^ width) :
    IsDecimal width n (Moment.padded width n).toList := by
  have htext : (Moment.padded width n).toList =
      List.replicate (width - (Nat.toDigits 10 n).length) '0' ++ Nat.toDigits 10 n := by
    simp [Moment.padded, Nat.repr_eq_ofList_toDigits]
  have hlength : (Nat.toDigits 10 n).length ≤ width := (Nat.length_toDigits_le_iff (by decide) hwidth).mpr hn
  rw [htext]
  refine ⟨?_, fun c hc => ?_, ?_⟩
  · rw [List.length_append, List.length_replicate]
    omega
  · rcases List.mem_append.mp hc with hc | hc
    · rw [List.eq_of_mem_replicate hc]
      rfl
    · exact isDigit_of_toDigits hc
  · -- zeros in front do not count
    rw [Nat.ofDigitChars_append, Nat.ofDigitChars_replicate_zero, Nat.mul_zero,
      Nat.ofDigitChars_ten_toDigits]

namespace IsDecimal

variable {width n n' : Nat} {text text' : List Char}

theorem text_eq (h : IsDecimal width n text) (h' : IsDecimal width n text') : text = text' :=
  eq_of_ofDigitChars_eq (h.length.trans h'.length.symm) h.digits h'.digits (h.value.trans h'.value.symm)

/-- Behind a mark, a number of known width ends a text in only one way. -/
theorem of_append_eq (h : IsDecimal width n text) (h' : IsDecimal width n' text') {front front' : List Char}
    {mark : Char} (heq : front ++ mark :: text = front' ++ mark :: text') : front = front' ∧ n = n' := by
  have hlength : (mark :: text).length = (mark :: text').length := by
    rw [List.length_cons, List.length_cons, h.length, h'.length]
  obtain ⟨hfront, htext⟩ := List.append_inj' heq hlength
  refine ⟨hfront, ?_⟩
  rw [← h.value, ← h'.value, (List.cons.inj htext).2]

end IsDecimal

/-! ### Years -/

/-- A year has four digits, or more behind a plus sign. -/
inductive IsYear (year : Nat) : List Char → Prop
  | short {text : List Char} (hyear : year ≤ 9999) (h : IsDecimal 4 year text) : IsYear year text
  | long (hyear : 9999 < year) : IsYear year ('+' :: Nat.toDigits 10 year)

namespace IsYear

variable {year year' : Nat} {text text' : List Char}

theorem text_eq (h : IsYear year text) (h' : IsYear year text') : text = text' := by
  cases h with
  | short hyear h =>
    cases h' with
    | short _ h' => exact h.text_eq h'
    | long hyear' => omega
  | long hyear =>
    cases h' with
    | short hyear' => omega
    | long => rfl

/-- Only a long year begins with a sign. -/
theorem year_eq (h : IsYear year text) (h' : IsYear year' text) : year = year' := by
  have hsign {width n : Nat} {text : List Char} (h : IsDecimal width n ('+' :: text)) : False :=
    absurd (h.digits '+' List.mem_cons_self) (by decide)
  cases h with
  | short _ h =>
    cases h' with
    | short _ h' => exact h.value.symm.trans h'.value
    | long => exact (hsign h).elim
  | long =>
    generalize htext : '+' :: Nat.toDigits 10 year = text at h'
    cases h' with
    | short _ h' => exact (hsign (htext ▸ h')).elim
    | long =>
      rw [← Nat.ofDigitChars_ten_toDigits (n := year), (List.cons.inj htext).2,
        Nat.ofDigitChars_ten_toDigits]

end IsYear

/-! ### Moments -/

/-- The form of a moment by RFC 3339, in coordinated universal time. -/
inductive IsRfc3339 (m : Moment) : List Char → Prop
  | intro {year month day hour minute second : List Char} (hyear : IsYear m.date.year year)
      (hmonth : IsDecimal 2 m.date.month month) (hday : IsDecimal 2 m.date.day day)
      (hhour : IsDecimal 2 m.hour hour) (hminute : IsDecimal 2 m.minute minute)
      (hsecond : IsDecimal 2 m.second second) :
      IsRfc3339 m (year ++ '-' :: month ++ '-' :: day ++ 'T' :: hour ++ ':' :: minute ++ ':' :: second ++
        "+00:00".toList)

namespace IsRfc3339

variable {m m' : Moment} {text text' : List Char}

/-- Every moment has one text. -/
theorem text_eq (h : IsRfc3339 m text) (h' : IsRfc3339 m text') : text = text' := by
  obtain ⟨hyear, hmonth, hday, hhour, hminute, hsecond⟩ := h
  obtain ⟨hyear', hmonth', hday', hhour', hminute', hsecond'⟩ := h'
  rw [hyear.text_eq hyear', hmonth.text_eq hmonth', hday.text_eq hday', hhour.text_eq hhour',
    hminute.text_eq hminute', hsecond.text_eq hsecond']

/-- Every text says one moment. -/
theorem moment_eq (h : IsRfc3339 m text) (h' : IsRfc3339 m' text) : m = m' := by
  obtain ⟨hyear, hmonth, hday, hhour, hminute, hsecond⟩ := h
  generalize htext : _ ++ "+00:00".toList = text at h'
  obtain ⟨hyear', hmonth', hday', hhour', hminute', hsecond'⟩ := h'
  -- the text is read from its end, where the parts have known widths
  obtain ⟨htext, hsecond⟩ := hsecond.of_append_eq hsecond' (List.append_cancel_right htext)
  obtain ⟨htext, hminute⟩ := hminute.of_append_eq hminute' htext
  obtain ⟨htext, hhour⟩ := hhour.of_append_eq hhour' htext
  obtain ⟨htext, hday⟩ := hday.of_append_eq hday' htext
  obtain ⟨htext, hmonth⟩ := hmonth.of_append_eq hmonth' htext
  have hyear := hyear.year_eq (htext ▸ hyear')
  obtain ⟨⟨year, month, day⟩, hour, minute, second⟩ := m
  obtain ⟨⟨year', month', day'⟩, hour', minute', second'⟩ := m'
  simp only at hyear hmonth hday hhour hminute hsecond
  rw [hyear, hmonth, hday, hhour, hminute, hsecond]

end IsRfc3339

namespace Moment

variable {m : Moment}

/-- The year in front of a moment. -/
theorem isYear_rfc3339 (year : Nat) :
    IsYear year (if year ≤ 9999 then padded 4 year else "+" ++ toString year).toList := by
  split
  case isTrue hyear => exact .short hyear (isDecimal_padded (by decide) (Nat.lt_succ_of_le hyear))
  case isFalse hyear =>
    rw [Nat.toString_eq_repr, String.toList_append, Nat.toList_repr]
    exact .long (Nat.lt_of_not_le hyear)

/-- **Moments are written by the rules of RFC 3339.** -/
theorem isRfc3339 (h : m.IsValid) : IsRfc3339 m m.rfc3339.toList := by
  obtain ⟨⟨-, hmonth, -, hday⟩, hhour, hminute, hsecond⟩ := h
  have hlast := daysInMonth_le m.date.year m.date.month
  have htwo {n : Nat} (hn : n < 100) : IsDecimal 2 n (padded 2 n).toList := isDecimal_padded (by decide) hn
  have htext := IsRfc3339.intro (isYear_rfc3339 m.date.year) (htwo (show m.date.month < 100 by omega))
    (htwo (show m.date.day < 100 by omega)) (htwo (show m.hour < 100 by omega))
    (htwo (show m.minute < 100 by omega)) (htwo (show m.second < 100 by omega))
  simpa [rfc3339] using htext

end Moment

end SnapStore
