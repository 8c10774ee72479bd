import Mathlib.Data.List.Induction

namespace SnapStore

/-!
# Decimal digits

* `toNat_of_isDigit` — the digits are next to each other.
* `toDigits_ne_zero_cons` — numbers are written without zeros in front.
* `eq_of_ofDigitChars_eq` — with them, no two texts of so many digits say the same number.
-/

theorem toNat_of_isDigit {c : Char} (h : c.isDigit = true) :
    '0'.toNat ≤ c.toNat ∧ c.toNat < '0'.toNat + 10 := by
  simp only [Char.isDigit, Bool.and_eq_true, decide_eq_true_eq, UInt32.le_iff_toNat_le] at h
  exact ⟨h.1, Nat.lt_succ_of_le h.2⟩

theorem eq_zero_of_isDigit {c : Char} (h : c.isDigit = true) (hc : c.toNat - '0'.toNat = 0) : c = '0' := by
  have hbounds := toNat_of_isDigit h
  exact Char.toNat_inj.mp (by omega)

/-! ### The digits of a number -/

theorem isDigit_of_toDigits {n : Nat} {c : Char} (h : c ∈ Nat.toDigits 10 n) : c.isDigit = true :=
  Nat.isDigit_of_mem_toDigits (by decide) (by decide) h

theorem exists_toDigits_cons (n : Nat) : ∃ c cs, Nat.toDigits 10 n = c :: cs ∧ c.isDigit = true := by
  obtain ⟨c, cs, h⟩ := List.exists_cons_of_ne_nil (Nat.toDigits_ne_nil (n := n) (b := 10))
  exact ⟨c, cs, h, isDigit_of_toDigits (h ▸ List.mem_cons_self : c ∈ Nat.toDigits 10 n)⟩

/-- A number of two digits and more does not start with zero. -/
theorem toDigits_ne_zero_cons (n : Nat) (c : Char) (cs : List Char) :
    Nat.toDigits 10 n ≠ '0' :: c :: cs := by
  induction n using Nat.strongRecOn generalizing c cs with
  | _ n ih =>
    intro h
    rw [Nat.toDigits_eq_if (by decide)] at h
    split at h
    · simp at h
    · next hn =>
      cases hds : Nat.toDigits 10 (n / 10) with
      | nil => exact Nat.toDigits_ne_nil hds
      | cons d ds =>
        rw [hds] at h
        cases ds with
        | nil =>
          -- two digits: the first one is that of `n / 10`, which is not zero
          have hd : d = '0' := (List.cons.inj h).1
          have hlow : n / 10 < 10 := by
            have hlen : (Nat.toDigits 10 (n / 10)).length ≤ 1 := by rw [hds]; exact Nat.le_refl 1
            simpa using (Nat.length_toDigits_le_iff (by decide) (by decide)).mp hlen
          rw [Nat.toDigits_of_lt_base hlow, hd] at hds
          have := Nat.digitChar_eq_zero.mp (List.cons.inj hds).1
          omega
        | cons e es =>
          rw [List.cons_append, List.cons_append] at h
          have hd : d = '0' := (List.cons.inj h).1
          exact ih _ (by omega) e es (hd ▸ hds)

/-! ### The number of some digits -/

theorem ofDigitChars_concat (text : List Char) (c : Char) : Nat.ofDigitChars 10 (text ++ [c]) 0 =
    10 * Nat.ofDigitChars 10 text 0 + (c.toNat - '0'.toNat) := by
  rw [Nat.ofDigitChars_append, Nat.ofDigitChars_cons, Nat.ofDigitChars_nil]

/-- Of so many digits, no two texts say the same number. -/
theorem eq_of_ofDigitChars_eq {text text' : List Char} (hlength : text.length = text'.length)
    (h : ∀ c ∈ text, c.isDigit = true) (h' : ∀ c ∈ text', c.isDigit = true)
    (heq : Nat.ofDigitChars 10 text 0 = Nat.ofDigitChars 10 text' 0) : text = text' := by
  -- from the last digit on, which is the remainder
  induction text using List.reverseRecOn generalizing text' with
  | nil => exact (List.length_eq_zero_iff.mp hlength.symm).symm
  | append_singleton text c ih =>
    obtain rfl | ⟨text', c', rfl⟩ := List.eq_nil_or_concat text'
    · simp at hlength
    · rw [List.concat_eq_append] at h' hlength heq ⊢
      rw [ofDigitChars_concat, ofDigitChars_concat] at heq
      simp only [List.mem_append, List.mem_singleton, List.length_append,
        List.length_singleton] at h h' hlength
      have hc := toNat_of_isDigit (h c (.inr rfl))
      have hc' := toNat_of_isDigit (h' c' (.inr rfl))
      have hlast : c = c' := Char.toNat_inj.mp (by omega)
      rw [hlast, ih (by omega) (fun c hc => h c (.inl hc)) (fun c hc => h' c (.inl hc)) (by omega)]

end SnapStore
