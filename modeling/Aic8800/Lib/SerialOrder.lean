import Mathlib.Tactic

/-!
# Serial numbers on a circle

A counter that wraps at `M` is compared by the half of the circle its
difference falls into. The comparison is not transitive. It agrees with the
order of the unwrapped positions exactly as long as these are less than half
a turn apart, and a residue has one unwrapped position in the turn around a
base. Both facts carry results about integers over to the wrapped counter.
-/

set_option autoImplicit false

namespace Lib.SerialOrder

/-- Going up from `b` to `a` takes at least half a turn. -/
def Precedes (M a b : ℕ) : Prop := (M : ℤ) ≤ 2*(((a : ℤ)-b) % M)

def residue (M : ℕ) (x : ℤ) : ℕ := (x % M).toNat

/-- The position with residue `a` in the turn from half below to half above `base`. -/
def lift (M : ℕ) (base : ℤ) (a : ℕ) : ℤ :=
  if 2*(((a : ℤ)-base) % M) < M then base+((a : ℤ)-base) % M
  else base+((a : ℤ)-base) % M-M

section
variable {M : ℕ} (hM : 0 < M)
include hM

theorem residue_cast (x : ℤ) : (residue M x : ℤ) = x % M :=
  Int.toNat_of_nonneg (Int.emod_nonneg _ (by omega))

theorem residue_lt (x : ℤ) : residue M x < M := by
  have h := residue_cast hM x
  have hb := Int.emod_lt_of_pos x (show (0 : ℤ) < M by omega)
  omega

theorem residue_sub (x y : ℤ) : ((residue M x : ℤ)-residue M y) % M = (x-y) % M := by
  rw [residue_cast hM, residue_cast hM, ← Int.sub_emod]

theorem residue_eq_iff {x y : ℤ} (h₁ : x < y+M) (h₂ : y < x+M) :
    residue M x = residue M y ↔ x = y := by
  constructor
  · intro h
    have hd : (x-y) % M = 0 := by rw [← residue_sub hM, h]; simp
    obtain ⟨k, hk⟩ := Int.dvd_of_emod_eq_zero hd
    have hk0 : k = 0 := by nlinarith
    rw [hk0] at hk
    omega
  · rintro rfl
    rfl

theorem precedes_of_lt {x y : ℤ} (h : x < y) (hb : 2*(y-x) ≤ M) :
    Precedes M (residue M x) (residue M y) := by
  have he : (x-y) % M = x-y+M := by
    rw [← Int.add_emod_right]
    exact Int.emod_eq_of_lt (by omega) (by omega)
  rw [Precedes, residue_sub hM, he]
  omega

theorem not_precedes_of_le {x y : ℤ} (h : y ≤ x) (hb : 2*(x-y) < M) :
    ¬ Precedes M (residue M x) (residue M y) := by
  rw [Precedes, residue_sub hM, Int.emod_eq_of_lt (by omega) (by omega)]
  omega

/-- Closer than half a turn, the circular comparison is the order of positions. -/
theorem precedes_iff {x y : ℤ} (h₁ : 2*(x-y) < M) (h₂ : 2*(y-x) < M) :
    Precedes M (residue M x) (residue M y) ↔ x < y := by
  constructor
  · intro h
    by_contra hxy
    exact not_precedes_of_le hM (by omega) h₁ h
  · intro h
    exact precedes_of_lt hM h (by omega)

theorem residue_lift (base : ℤ) {a : ℕ} (ha : a < M) : residue M (lift M base a) = a := by
  have hr : (base+((a : ℤ)-base) % M) % M = a := by
    rw [Int.add_emod, Int.emod_emod, ← Int.add_emod, add_sub_cancel]
    exact Int.emod_eq_of_lt (by omega) (by omega)
  have hc := residue_cast hM (lift M base a)
  unfold lift at hc ⊢
  split_ifs at hc ⊢ with h
  · rw [hr] at hc
    omega
  · rw [Int.sub_emod_right, hr] at hc
    omega

theorem lift_bounds (base : ℤ) (a : ℕ) :
    2*base ≤ 2*lift M base a+M ∧ 2*lift M base a < 2*base+M := by
  have h0 := Int.emod_nonneg ((a : ℤ)-base) (show (M : ℤ) ≠ 0 by omega)
  have h1 := Int.emod_lt_of_pos ((a : ℤ)-base) (show (0 : ℤ) < M by omega)
  unfold lift
  split_ifs <;> omega

end

end Lib.SerialOrder
