import Aic8800.RxStatistic

/-!
# Entries of the rate table

The index of a frame is a number with a digit for the streams, the rate, the bandwidth and the guard
interval, and `idx_to_rate_cfg` takes it apart again. The digits come back where each is below its
base.
-/

set_option autoImplicit false

namespace AIC.RxStatistic

/-- The line of an entry. -/
def entryLine (idx : ℕ) : Line :=
  if idx < 8 then .cck (idx/2) (idx%2)
  else if idx < 16 then .ofdm (idx-8)
  else if idx < 144 then .ht ((idx-16)%32%4/2) ((idx-16)%2) ((idx-16)%32/4+(idx-16)/32*8)
  else if idx < 784 then .vht ((idx-144)%80%8/2) ((idx-144)%2) ((idx-144)%80/8) ((idx-144)/80)
  else if idx < 1936 then
    .he ((idx-784)%144%12/3) ((idx-784)%3) ((idx-784)%144/12) ((idx-784)/144)
  else .heMu ((idx-1936)%216%18/3) ((idx-1936)%3) ((idx-1936)%216/18) ((idx-1936)/216)

theorem idxToRateCfg_eq (idx : ℕ) : idxToRateCfg idx =
    if idx < 8 then (⟨idx/2, 0, idx%2*2, 0⟩, 0)
    else if idx < 16 then (⟨idx-8+4, 0, 0, 0⟩, 0)
    else if idx < 144 then
      (⟨(idx-16)/32*8+(idx-16)%32/4, (idx-16)%32%4/2, (idx-16)%2, 2⟩, 0)
    else if idx < 784 then
      (⟨(idx-144)/80*16+(idx-144)%80/8, (idx-144)%80%8/2, (idx-144)%2, 4⟩, 0)
    else if idx < 1936 then
      (⟨(idx-784)/144*16+(idx-784)%144/12, (idx-784)%144%12/3, (idx-784)%3, 5⟩, 0)
    else (⟨(idx-1936)/216*16+(idx-1936)%216/18, 0, (idx-1936)%3, 6⟩, (idx-1936)%216%18/3) :=
  rfl

theorem printRate_entry (idx : ℕ) :
    printRate (rateOfCfg (idxToRateCfg idx).1 (idxToRateCfg idx).2) = entryLine idx := by
  rw [idxToRateCfg_eq, entryLine]
  by_cases hcck : idx < 8
  · have hmcs : idx/2 < 4 := by omega
    rw [if_pos hcck, if_pos hcck]
    simp [printRate, rateOfCfg, FORMATMOD_HT_MF, FORMATMOD_HE_MU, FORMATMOD_HE_SU,
      FORMATMOD_VHT, hmcs]
  rw [if_neg hcck, if_neg hcck]
  by_cases hofdm : idx < 16
  · rw [if_pos hofdm, if_pos hofdm]
    simp [printRate, rateOfCfg, FORMATMOD_HT_MF, FORMATMOD_HE_MU, FORMATMOD_HE_SU,
      FORMATMOD_VHT]
  rw [if_neg hofdm, if_neg hofdm]
  by_cases hht : idx < 144
  · rw [if_pos hht, if_pos hht]
    simp only [printRate, rateOfCfg, FORMATMOD_HT_MF, FORMATMOD_HE_MU, FORMATMOD_HE_SU,
      FORMATMOD_VHT, Nat.reduceEqDiff, Nat.reduceLT, if_true, if_false,
      or_self, lt_self_iff_false, Line.ht.injEq, true_and, le_refl]
    omega
  rw [if_neg hht, if_neg hht]
  by_cases hvht : idx < 784
  · have hmcs : ((idx-144)/80*16+(idx-144)%80/8)%16 = (idx-144)%80/8 := by omega
    have hnss : ((idx-144)/80*16+(idx-144)%80/8)/16 = (idx-144)/80 := by omega
    rw [if_pos hvht, if_pos hvht]
    simp [printRate, rateOfCfg, FORMATMOD_HT_MF, FORMATMOD_HE_MU, FORMATMOD_HE_SU,
      FORMATMOD_VHT, hmcs, hnss]
  rw [if_neg hvht, if_neg hvht]
  by_cases hhe : idx < 1936
  · have hmcs : ((idx-784)/144*16+(idx-784)%144/12)%16 = (idx-784)%144/12 := by omega
    have hnss : ((idx-784)/144*16+(idx-784)%144/12)/16 = (idx-784)/144 := by omega
    rw [if_pos hhe, if_pos hhe]
    simp [printRate, rateOfCfg, FORMATMOD_HT_MF, FORMATMOD_HE_MU, FORMATMOD_HE_SU,
      FORMATMOD_VHT, hmcs, hnss]
  · have hmcs : ((idx-1936)/216*16+(idx-1936)%216/18)%16 = (idx-1936)%216/18 := by omega
    have hnss : ((idx-1936)/216*16+(idx-1936)%216/18)/16 = (idx-1936)/216 := by omega
    rw [if_neg hhe, if_neg hhe]
    simp [printRate, rateOfCfg, FORMATMOD_HT_MF, FORMATMOD_HE_MU, FORMATMOD_HE_SU,
      FORMATMOD_VHT, hmcs, hnss]

/-! ## Frames with an entry of their own -/

/-- Each digit is below its base, and the legacy rate has a code. -/
def Encodable (v : RxVector1) : Prop :=
  if v.formatMod ≤ FORMATMOD_NON_HT_DUP_OFDM then legratesLut v.legRate < 12
  else if v.formatMod < FORMATMOD_VHT then v.ht.mcs < (32 : ℕ) ∧ v.chBw < (2 : ℕ)
  else if v.formatMod = FORMATMOD_VHT then v.vht.mcs < (10 : ℕ) ∧ v.chBw < (4 : ℕ)
  else if v.formatMod = FORMATMOD_HE_SU then
    v.he.mcs < (12 : ℕ) ∧ v.chBw < (4 : ℕ) ∧ v.he.giType < (3 : ℕ)
  else v.he.mcs < (12 : ℕ) ∧ v.he.ruSize < (6 : ℕ) ∧ v.he.giType < (3 : ℕ)

section Frame
variable {v : RxVector1}

theorem lut_lt (c : Fin 16) : legratesLut c < 12 ∨ legratesLut c = 255 := by
  revert c
  decide

theorem legacy_shows_iff (h : (v.formatMod : ℕ) ≤ 1) :
    Shows (rateIdx v) v ↔ legratesLut v.legRate < 12 := by
  have hpre := v.preType.isLt
  have hlut := lut_lt v.legRate
  have hidx : rateIdx v = if legratesLut v.legRate < 4 then legratesLut v.legRate*2+v.preType
      else 8+legratesLut v.legRate-4 := by
    simp [rateIdx, FORMATMOD_NON_HT_DUP_OFDM, N_CCK, show ¬ 1 < (v.formatMod : ℕ) by omega]
  have hrate : printRate (rateOf v) = if legratesLut v.legRate < 4
      then .cck (legratesLut v.legRate) v.preType else .ofdm (legratesLut v.legRate-4) := by
    simp [printRate, rateOf, FORMATMOD_HE_SU, FORMATMOD_VHT, FORMATMOD_HT_MF,
      show ¬ 5 ≤ (v.formatMod : ℕ) by omega, show ¬ (v.formatMod : ℕ) = 4 by omega,
      show ¬ 2 ≤ (v.formatMod : ℕ) by omega, show (v.formatMod : ℕ) < 2 by omega]
  rw [Shows, printRate_entry, hidx, hrate]
  generalize legratesLut v.legRate = code at hlut ⊢
  unfold entryLine
  split_ifs <;> simp <;> omega

theorem ht_shows_iff (h : 2 ≤ (v.formatMod : ℕ)) (h' : (v.formatMod : ℕ) < 4) :
    Shows (rateIdx v) v ↔ v.ht.mcs < (32 : ℕ) ∧ v.chBw < (2 : ℕ) := by
  have hmcs := v.ht.mcs.isLt
  have hbw := v.chBw.isLt
  have hgi := v.ht.shortGi.isLt
  have hidx : rateIdx v = 16+v.ht.mcs/8*32+v.ht.mcs%8*4+v.chBw*2+v.ht.shortGi := by
    simp [rateIdx, FORMATMOD_NON_HT_DUP_OFDM, FORMATMOD_HT_MF, FORMATMOD_HT_GF, N_CCK, N_OFDM,
      show 1 < (v.formatMod : ℕ) by omega,
      show (v.formatMod : ℕ) = 2 ∨ (v.formatMod : ℕ) = 3 by omega]
  have hrate : printRate (rateOf v) = .ht v.chBw v.ht.shortGi v.ht.mcs := by
    simp [printRate, rateOf, FORMATMOD_HE_SU, FORMATMOD_VHT, FORMATMOD_HT_MF,
      show ¬ 5 ≤ (v.formatMod : ℕ) by omega, show ¬ (v.formatMod : ℕ) = 4 by omega,
      show 2 ≤ (v.formatMod : ℕ) by omega, show ¬ (v.formatMod : ℕ) < 2 by omega,
      show (v.formatMod : ℕ) < 4 by omega]
    omega
  rw [Shows, printRate_entry, hidx, hrate]
  generalize (v.ht.mcs : ℕ) = mcs at hmcs ⊢
  unfold entryLine
  split_ifs <;> simp <;> omega

theorem vht_shows_iff (h : (v.formatMod : ℕ) = 4) :
    Shows (rateIdx v) v ↔ v.vht.mcs < (10 : ℕ) ∧ v.chBw < (4 : ℕ) := by
  have hmcs := v.vht.mcs.isLt
  have hnss := v.vht.nss.isLt
  have hbw := v.chBw.isLt
  have hgi := v.vht.shortGi.isLt
  have hidx : rateIdx v = 144+v.vht.nss*80+v.vht.mcs*8+v.chBw*2+v.vht.shortGi := by
    simp [rateIdx, FORMATMOD_NON_HT_DUP_OFDM, FORMATMOD_HT_MF, FORMATMOD_HT_GF, FORMATMOD_VHT,
      N_CCK, N_OFDM, N_HT, h]
  have hrate : printRate (rateOf v) = .vht v.chBw v.vht.shortGi v.vht.mcs v.vht.nss := by
    simp [printRate, rateOf, FORMATMOD_HE_SU, FORMATMOD_VHT, FORMATMOD_HT_MF, h]
  rw [Shows, printRate_entry, hidx, hrate]
  unfold entryLine
  split_ifs <;> simp <;> omega

theorem he_shows_iff (h : (v.formatMod : ℕ) = 5) :
    Shows (rateIdx v) v ↔
      v.he.mcs < (12 : ℕ) ∧ v.chBw < (4 : ℕ) ∧ v.he.giType < (3 : ℕ) := by
  have hmcs := v.he.mcs.isLt
  have hnss := v.he.nss.isLt
  have hbw := v.chBw.isLt
  have hgi := v.he.giType.isLt
  have hidx : rateIdx v = 784+v.he.nss*144+v.he.mcs*12+v.chBw*3+v.he.giType := by
    simp [rateIdx, FORMATMOD_NON_HT_DUP_OFDM, FORMATMOD_HT_MF, FORMATMOD_HT_GF, FORMATMOD_VHT,
      FORMATMOD_HE_SU, N_CCK, N_OFDM, N_HT, N_VHT, h]
  have hrate : printRate (rateOf v) = .he v.chBw v.he.giType v.he.mcs v.he.nss := by
    simp [printRate, rateOf, FORMATMOD_HE_SU, FORMATMOD_VHT, FORMATMOD_HT_MF, h]
  rw [Shows, printRate_entry, hidx, hrate]
  unfold entryLine
  split_ifs <;> simp <;> omega

theorem heMu_shows_iff (h : 6 ≤ (v.formatMod : ℕ)) :
    Shows (rateIdx v) v ↔
      v.he.mcs < (12 : ℕ) ∧ v.he.ruSize < (6 : ℕ) ∧ v.he.giType < (3 : ℕ) := by
  have hmcs := v.he.mcs.isLt
  have hnss := v.he.nss.isLt
  have hru := v.he.ruSize.isLt
  have hgi := v.he.giType.isLt
  have hidx : rateIdx v = 1936+v.he.nss*216+v.he.mcs*18+v.he.ruSize*3+v.he.giType := by
    simp [rateIdx, FORMATMOD_NON_HT_DUP_OFDM, FORMATMOD_HT_MF, FORMATMOD_HT_GF, FORMATMOD_VHT,
      FORMATMOD_HE_SU, N_CCK, N_OFDM, N_HT, N_VHT, N_HE_SU,
      show 1 < (v.formatMod : ℕ) by omega, show ¬ (v.formatMod : ℕ) = 2 by omega,
      show ¬ (v.formatMod : ℕ) = 3 by omega, show ¬ (v.formatMod : ℕ) = 4 by omega,
      show ¬ (v.formatMod : ℕ) = 5 by omega]
  have hrate : printRate (rateOf v) = .heMu v.he.ruSize v.he.giType v.he.mcs v.he.nss := by
    simp [printRate, rateOf, FORMATMOD_HE_SU, FORMATMOD_VHT, FORMATMOD_HT_MF,
      show 5 ≤ (v.formatMod : ℕ) by omega, show ¬ (v.formatMod : ℕ) = 5 by omega,
      show ¬ (v.formatMod : ℕ) < 2 by omega, show ¬ (v.formatMod : ℕ) < 4 by omega,
      show ¬ (v.formatMod : ℕ) = 4 by omega]
  rw [Shows, printRate_entry, hidx, hrate]
  unfold entryLine
  split_ifs <;> simp <;> omega

/-- The entry of a frame has the rate of the frame exactly if its digits fit. -/
theorem shows_iff (v : RxVector1) : Shows (rateIdx v) v ↔ Encodable v := by
  unfold Encodable
  by_cases hlegacy : v.formatMod ≤ FORMATMOD_NON_HT_DUP_OFDM
  · rw [if_pos hlegacy]
    exact legacy_shows_iff hlegacy
  rw [if_neg hlegacy]
  by_cases hht : v.formatMod < FORMATMOD_VHT
  · rw [if_pos hht]
    exact ht_shows_iff (Nat.succ_le_of_lt (not_le.mp hlegacy)) hht
  rw [if_neg hht]
  by_cases hvht : v.formatMod = FORMATMOD_VHT
  · rw [if_pos hvht]
    exact vht_shows_iff hvht
  rw [if_neg hvht]
  by_cases hhe : v.formatMod = FORMATMOD_HE_SU
  · rw [if_pos hhe]
    exact he_shows_iff hhe
  · rw [if_neg hhe]
    refine heMu_shows_iff ?_
    simp only [FORMATMOD_VHT, FORMATMOD_HE_SU] at hht hvht hhe
    omega

/-- Code 4 has no rate, and 255 for it is the index of a VHT rate. -/
example : ¬ Shows 259 ⟨0, 0, 0, 4, ⟨0, 0⟩, ⟨0, 0, 0⟩, ⟨0, 0, 0, 0⟩⟩ := by decide

end Frame

end AIC.RxStatistic
