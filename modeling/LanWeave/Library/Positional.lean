import Mathlib.Data.Nat.Find
import Mathlib.Data.List.Lex
import Mathlib.Order.Lattice.Nat

/-! Numbers by position: decimal digits of a fixed width, whose order as text is the order of the
numbers, and the slot of a number among consecutive slots of unequal lengths. -/

namespace LanWeave.Library

/-- The last `w` decimal digits of `n`. -/
def digits : ℕ → ℕ → List Char
  | 0, _ => []
  | w + 1, n => digits w (n / 10) ++ [Nat.digitChar (n % 10)]

@[simp] theorem length_digits (w n : ℕ) : (digits w n).length = w := by
  induction w generalizing n with
  | zero => rfl
  | succ w ih =>
    rw [digits, List.length_append, ih]
    rfl

/-- Texts whose heads have one length compare by the heads, then by the tails. -/
theorem append_lt_append {a b s t : List Char} (hlen : a.length = b.length)
    (h : a < b ∨ a = b ∧ s < t) : a ++ s < b ++ t := by
  induction a generalizing b with
  | nil =>
    obtain rfl : b = [] := List.length_eq_zero_iff.mp hlen.symm
    rcases h with h | ⟨-, h⟩
    · cases h
    · exact h
  | cons x a ih =>
    cases b with
    | nil => cases hlen
    | cons y b =>
      have hlen' : a.length = b.length := Nat.succ.inj hlen
      show x :: (a ++ s) < y :: (b ++ t)
      rw [List.cons_lt_cons_iff]
      rcases h with h | ⟨h, hst⟩
      · rcases List.cons_lt_cons_iff.mp h with hxy | ⟨rfl, hab⟩
        · exact .inl hxy
        · exact .inr ⟨rfl, ih hlen' (.inl hab)⟩
      · obtain ⟨rfl, rfl⟩ := List.cons.inj h
        exact .inr ⟨rfl, ih hlen' (.inr ⟨rfl, hst⟩)⟩

theorem digitChar_lt : ∀ n < 10, ∀ m < n, Nat.digitChar m < Nat.digitChar n := by
  decide

theorem digits_lt {w m n : ℕ} (h : m < n) (hn : n < 10 ^ w) : digits w m < digits w n := by
  induction w generalizing m n with
  | zero =>
    rw [pow_zero] at hn
    omega
  | succ w ih =>
    rw [digits, digits]
    apply append_lt_append (by rw [length_digits, length_digits])
    have hcases : m / 10 < n / 10 ∨ m / 10 = n / 10 ∧ m % 10 < n % 10 := by omega
    rcases hcases with hlt | ⟨heq, hlt⟩
    · have hbound : n / 10 < 10 ^ w := by
        rw [pow_succ] at hn
        omega
      exact .inl (ih hlt hbound)
    · have hdigit := digitChar_lt _ (Nat.mod_lt n (by omega)) _ hlt
      exact .inr ⟨by rw [heq], List.cons_lt_cons_iff.mpr (.inl hdigit)⟩

theorem digits_append_lt {w m n : ℕ} {s t : List Char} (hn : n < 10 ^ w)
    (h : m < n ∨ m = n ∧ s < t) : digits w m ++ s < digits w n ++ t := by
  apply append_lt_append (by rw [length_digits, length_digits])
  rcases h with h | ⟨rfl, h⟩
  · exact .inl (digits_lt h hn)
  · exact .inr ⟨rfl, h⟩

section
variable {start : ℕ → ℕ} {bound n n' : ℕ}

/-- The slot that holds `n`, slot `i` beginning at `start i` and slot `bound` being the last. -/
def slot (start : ℕ → ℕ) (bound n : ℕ) : ℕ := Nat.findGreatest (fun i => start i ≤ n) bound

theorem slot_le : slot start bound n ≤ bound := Nat.findGreatest_le bound

theorem start_slot_le (h0 : start 0 = 0) : start (slot start bound n) ≤ n := by
  have hzero : start 0 ≤ n := by
    rw [h0]
    exact Nat.zero_le n
  exact Nat.findGreatest_spec (P := fun i => start i ≤ n) (Nat.zero_le bound) hzero

theorem lt_start_slot_succ (hb : n < start (bound + 1)) : n < start (slot start bound n + 1) := by
  by_contra hle
  rcases Nat.lt_or_ge (slot start bound n) bound with hlt | hge
  · exact Nat.findGreatest_is_greatest (P := fun i => start i ≤ n) (Nat.lt_succ_self _) hlt
      (not_lt.mp hle)
  · have hlast : slot start bound n = bound := le_antisymm slot_le hge
    rw [hlast] at hle
    exact hle hb

theorem slot_lt (h0 : start 0 = 0) (h : n < n') :
    slot start bound n < slot start bound n' ∨ slot start bound n = slot start bound n' ∧
      n - start (slot start bound n) < n' - start (slot start bound n') := by
  have hmono : slot start bound n ≤ slot start bound n' :=
    Nat.findGreatest_mono_left (fun i hi => hi.trans h.le) bound
  rcases hmono.lt_or_eq with hlt | heq
  · exact .inl hlt
  · have hstart : start (slot start bound n) ≤ n := start_slot_le h0
    rw [← heq]
    exact .inr ⟨rfl, by omega⟩

end
end LanWeave.Library
