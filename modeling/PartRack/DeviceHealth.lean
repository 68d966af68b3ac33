import PartRack.Lib.Rounding
import PartRack.Protocol

/-! The battery percentage (protocol/viberack_device_health.c and sample_battery in the
application's device_health.c). -/

namespace PartRack
open Rounding

def batteryNumerator (voltageMv emptyMv : BitVec 16) : BitVec 32 :=
  (voltageMv.setWidth 32 - emptyMv.setWidth 32) * 100

def batteryDenominator (emptyMv fullMv : BitVec 16) : BitVec 32 :=
  fullMv.setWidth 32 - emptyMv.setWidth 32

/-- The 32 bits that are cast to the percentage. -/
def batteryQuotient (voltageMv emptyMv fullMv : BitVec 16) : BitVec 32 :=
  (batteryNumerator voltageMv emptyMv + batteryDenominator emptyMv fullMv / 2) /
    batteryDenominator emptyMv fullMv

def batteryPercentFromMv (voltageMv emptyMv fullMv : BitVec 16) : Byte :=
  if fullMv.toNat ≤ emptyMv.toNat then 0
  else if voltageMv.toNat ≤ emptyMv.toNat then 0
  else if fullMv.toNat ≤ voltageMv.toNat then 100
  else (batteryQuotient voltageMv emptyMv fullMv).setWidth 8

def batteryEmptyMv : BitVec 16 := 3000
def batteryFullMv : BitVec 16 := 4200

/-- The statics of device_health.c that a sample touches. -/
structure DeviceHealth where
  batteryRaw : BitVec 16
  batteryPct : Byte
  healthFault : Bool
deriving DecidableEq, Repr

/-- What the calls of the ADC driver return: error codes, the raw sample, and the error and
the voltage of `adc_raw_to_millivolts_dt`. -/
structure BatteryAdc where
  isReady : Bool
  channelSetup : ℤ
  sequenceInit : ℤ
  read : ℤ × BitVec 16
  rawToMillivolts : BitVec 32 → ℤ × BitVec 32

namespace DeviceHealth

def init : DeviceHealth := ⟨0, 100, false⟩

/-- Without the devicetree alias there is no ADC. -/
def sampleBattery (health : DeviceHealth) : Option BatteryAdc → DeviceHealth
  | none => { health with batteryPct := 100 }
  | some adc =>
    if adc.isReady = false then { health with healthFault := true }
    else if adc.channelSetup ≠ 0 then { health with healthFault := true }
    else if adc.sequenceInit ≠ 0 then { health with healthFault := true }
    else
      let health := { health with batteryRaw := adc.read.2 }
      if adc.read.1 ≠ 0 then { health with healthFault := true }
      else
        let (err, mv) := adc.rawToMillivolts (health.batteryRaw.signExtend 32)
        if err ≠ 0 then { health with healthFault := true }
        else
          -- the cast to uint16_t drops the high half of the voltage, its sign included
          { health with
            batteryPct := batteryPercentFromMv (mv.setWidth 16) batteryEmptyMv batteryFullMv }

end DeviceHealth

/-- Every call succeeds, and the voltage is `mv`. -/
structure BatteryAdc.Measures (adc : BatteryAdc) (mv : BitVec 32) : Prop where
  isReady : adc.isReady = true
  channelSetup : adc.channelSetup = 0
  sequenceInit : adc.sequenceInit = 0
  read : adc.read.1 = 0
  rawToMillivolts : adc.rawToMillivolts (adc.read.2.signExtend 32) = (0, mv)

/-! ## The percentage of a voltage -/

/-- The percentage that a voltage is meant to have. -/
structure Accurate (emptyMv fullMv mv : ℤ) (pct : Byte) : Prop where
  le_hundred : pct.toNat ≤ 100
  empty : mv ≤ emptyMv → pct = 0
  full : fullMv ≤ mv → pct = 100
  between : emptyMv < mv → mv < fullMv →
    (pct.toNat : ℤ) = round (100 * ((mv : ℚ) - emptyMv) / (fullMv - emptyMv))

theorem Accurate.mono {emptyMv fullMv mv mv' : ℤ} {pct pct' : Byte}
    (h : Accurate emptyMv fullMv mv pct) (h' : Accurate emptyMv fullMv mv' pct')
    (hle : mv ≤ mv') : pct.toNat ≤ pct'.toNat := by
  rcases le_or_gt mv emptyMv with hempty | hempty
  · rw [h.empty hempty]
    exact Nat.zero_le _
  rcases le_or_gt fullMv mv' with hfull | hfull
  · rw [h'.full hfull]
    exact h.le_hundred
  have hround : (pct.toNat : ℤ) ≤ pct'.toNat := by
    rw [h.between hempty (Int.lt_of_le_of_lt hle hfull),
      h'.between (Int.lt_of_lt_of_le hempty hle) hfull]
    have hdiff : ((mv : ℚ) - emptyMv) ≤ mv' - emptyMv := by
      have hcast : (mv : ℚ) ≤ mv' := by exact_mod_cast hle
      linarith
    have hspan : (0 : ℚ) ≤ fullMv - emptyMv := by
      have hcast : (emptyMv : ℚ) ≤ fullMv := by
        exact_mod_cast (Int.lt_trans (Int.lt_of_lt_of_le hempty hle) hfull).le
      linarith
    refine round_le_round (div_le_div_of_nonneg_right ?_ hspan)
    linarith
  exact_mod_cast hround

/-- No step of the computation leaves its 32 bits, nor the result its eight. -/
structure NoOverflow (voltageMv emptyMv fullMv : BitVec 16) : Prop where
  numerator : (batteryNumerator voltageMv emptyMv).toNat =
    (voltageMv.toNat - emptyMv.toNat) * 100
  denominator : (batteryDenominator emptyMv fullMv).toNat = fullMv.toNat - emptyMv.toNat
  sum : (batteryNumerator voltageMv emptyMv + batteryDenominator emptyMv fullMv / 2).toNat =
    (batteryNumerator voltageMv emptyMv).toNat + (batteryDenominator emptyMv fullMv).toNat / 2
  quotient : (batteryQuotient voltageMv emptyMv fullMv).toNat < 2 ^ 8

section Arithmetic
variable {voltageMv emptyMv fullMv : BitVec 16}

theorem toNat_batteryDiff (h : emptyMv.toNat ≤ voltageMv.toNat) :
    (voltageMv.setWidth 32 - emptyMv.setWidth 32).toNat = voltageMv.toNat - emptyMv.toNat := by
  have hwide : ∀ v : BitVec 16, (v.setWidth 32).toNat = v.toNat := fun v =>
    BitVec.toNat_setWidth_of_le (by decide)
  rw [BitVec.toNat_sub_of_le, hwide, hwide]
  rw [BitVec.le_def, hwide, hwide]
  exact h

theorem toNat_batteryNumerator (h : emptyMv.toNat ≤ voltageMv.toNat) :
    (batteryNumerator voltageMv emptyMv).toNat = (voltageMv.toNat - emptyMv.toNat) * 100 := by
  have hlt := voltageMv.isLt
  rw [batteryNumerator, BitVec.toNat_mul, toNat_batteryDiff h]
  exact Nat.mod_eq_of_lt (by change _ * 100 < 2 ^ 32; omega)

theorem toNat_batterySum (h : emptyMv.toNat ≤ voltageMv.toNat)
    (h' : emptyMv.toNat ≤ fullMv.toNat) :
    (batteryNumerator voltageMv emptyMv + batteryDenominator emptyMv fullMv / 2).toNat =
      (batteryNumerator voltageMv emptyMv).toNat +
        (batteryDenominator emptyMv fullMv).toNat / 2 := by
  have hlt := voltageMv.isLt
  have hlt' := fullMv.isLt
  rw [BitVec.toNat_add, BitVec.toNat_udiv, toNat_batteryNumerator h, batteryDenominator,
    toNat_batteryDiff h']
  exact Nat.mod_eq_of_lt (by change _ + _ / 2 < 2 ^ 32; omega)

theorem toNat_batteryQuotient (h : emptyMv.toNat ≤ voltageMv.toNat)
    (h' : emptyMv.toNat ≤ fullMv.toNat) :
    (batteryQuotient voltageMv emptyMv fullMv).toNat =
      roundDiv ((voltageMv.toNat - emptyMv.toNat) * 100) (fullMv.toNat - emptyMv.toNat) := by
  rw [batteryQuotient, BitVec.toNat_udiv, toNat_batterySum h h', toNat_batteryNumerator h,
    batteryDenominator, toNat_batteryDiff h', roundDiv]

theorem batteryQuotient_le (h : emptyMv.toNat ≤ voltageMv.toNat)
    (h' : voltageMv.toNat < fullMv.toNat) :
    (batteryQuotient voltageMv emptyMv fullMv).toNat ≤ 100 := by
  rw [toNat_batteryQuotient h (by omega)]
  exact roundDiv_le (by omega) (by omega)

theorem noOverflow (h : emptyMv.toNat ≤ voltageMv.toNat) (h' : voltageMv.toNat < fullMv.toNat) :
    NoOverflow voltageMv emptyMv fullMv where
  numerator := toNat_batteryNumerator h
  denominator := toNat_batteryDiff (by omega)
  sum := toNat_batterySum h (by omega)
  quotient := Nat.lt_of_le_of_lt (batteryQuotient_le h h') (by decide)

theorem toNat_batteryPercentFromMv (h : emptyMv.toNat < voltageMv.toNat)
    (h' : voltageMv.toNat < fullMv.toNat) :
    (batteryPercentFromMv voltageMv emptyMv fullMv).toNat =
      roundDiv ((voltageMv.toNat - emptyMv.toNat) * 100) (fullMv.toNat - emptyMv.toNat) := by
  have hle := batteryQuotient_le h.le h'
  rw [batteryPercentFromMv, if_neg (by omega), if_neg (by omega), if_neg (by omega),
    BitVec.toNat_setWidth, Nat.mod_eq_of_lt (by omega), toNat_batteryQuotient h.le (by omega)]

theorem batteryPercentFromMv_of_le (hcal : emptyMv.toNat < fullMv.toNat)
    (h : voltageMv.toNat ≤ emptyMv.toNat) : batteryPercentFromMv voltageMv emptyMv fullMv = 0 := by
  rw [batteryPercentFromMv, if_neg (Nat.not_le.mpr hcal), if_pos h]

theorem batteryPercentFromMv_of_ge (hcal : emptyMv.toNat < fullMv.toNat)
    (h : fullMv.toNat ≤ voltageMv.toNat) :
    batteryPercentFromMv voltageMv emptyMv fullMv = 100 := by
  rw [batteryPercentFromMv, if_neg (Nat.not_le.mpr hcal), if_neg (by omega), if_pos h]

theorem batteryPercentFromMv_cases (hcal : emptyMv.toNat < fullMv.toNat) :
    (voltageMv.toNat ≤ emptyMv.toNat ∧ batteryPercentFromMv voltageMv emptyMv fullMv = 0) ∨
    (emptyMv.toNat < voltageMv.toNat ∧ voltageMv.toNat < fullMv.toNat ∧
      (batteryPercentFromMv voltageMv emptyMv fullMv).toNat =
        roundDiv ((voltageMv.toNat - emptyMv.toNat) * 100) (fullMv.toNat - emptyMv.toNat)) ∨
    (fullMv.toNat ≤ voltageMv.toNat ∧ batteryPercentFromMv voltageMv emptyMv fullMv = 100) := by
  rcases Nat.lt_or_ge emptyMv.toNat voltageMv.toNat with hempty | hempty
  · rcases Nat.lt_or_ge voltageMv.toNat fullMv.toNat with hfull | hfull
    · exact .inr (.inl ⟨hempty, hfull, toNat_batteryPercentFromMv hempty hfull⟩)
    · exact .inr (.inr ⟨hfull, batteryPercentFromMv_of_ge hcal hfull⟩)
  · exact .inl ⟨hempty, batteryPercentFromMv_of_le hcal hempty⟩

theorem accurate_batteryPercentFromMv (hcal : emptyMv.toNat < fullMv.toNat) :
    Accurate emptyMv.toNat fullMv.toNat voltageMv.toNat
      (batteryPercentFromMv voltageMv emptyMv fullMv) where
  le_hundred := by
    rcases batteryPercentFromMv_cases hcal with ⟨-, hpct⟩ | ⟨hempty, hfull, hpct⟩ | ⟨-, hpct⟩
    · rw [hpct]
      decide
    · rw [hpct]
      exact roundDiv_le (by omega) (by omega)
    · rw [hpct]
      decide
  empty := fun h => batteryPercentFromMv_of_le hcal (by omega)
  full := fun h => batteryPercentFromMv_of_ge hcal (by omega)
  between := by
    intro h h'
    have hempty : emptyMv.toNat < voltageMv.toNat := by omega
    have hfull : voltageMv.toNat < fullMv.toNat := by omega
    rw [toNat_batteryPercentFromMv hempty hfull, roundDiv_eq_round (by omega), Nat.cast_mul,
      Nat.cast_sub hempty.le, Nat.cast_sub hcal.le, mul_comm]
    rfl

end Arithmetic

/-! ## The voltage of a sample -/

/-- What the percentage stored for the voltage `mv` is meant to be, and that it is computed
without overflow. -/
structure Lawful (mv : BitVec 32) (pct : Byte) : Prop extends
    Accurate batteryEmptyMv.toNat batteryFullMv.toNat mv.toInt pct where
  noOverflow : batteryEmptyMv.toNat < (mv.setWidth 16).toNat →
    (mv.setWidth 16).toNat < batteryFullMv.toNat →
    NoOverflow (mv.setWidth 16) batteryEmptyMv batteryFullMv

/-- The voltage fits in 16 bits, or the ones it has there are on its side of the scale. -/
def NarrowsWell (mv : ℤ) : Prop :=
  (0 ≤ mv ∧ mv < 65536) ∨ (mv < 0 ∧ mv % 65536 ≤ 3005) ∨ (65536 ≤ mv ∧ 4194 ≤ mv % 65536)

instance (mv : ℤ) : Decidable (NarrowsWell mv) :=
  inferInstanceAs (Decidable (_ ∨ _))

theorem toNat_narrow (mv : BitVec 32) : ((mv.setWidth 16).toNat : ℤ) = mv.toInt % 65536 := by
  have hlt := mv.isLt
  rw [BitVec.toNat_setWidth, BitVec.toInt_eq_toNat_cond]
  split_ifs with hneg
  · omega
  · omega

theorem batteryEmptyMv_lt_fullMv : batteryEmptyMv.toNat < batteryFullMv.toNat := by decide

theorem batteryPct_cases (voltageMv : BitVec 16) :
    (voltageMv.toNat ≤ 3000 ∧
      batteryPercentFromMv voltageMv batteryEmptyMv batteryFullMv = 0) ∨
    (3000 < voltageMv.toNat ∧ voltageMv.toNat < 4200 ∧
      (batteryPercentFromMv voltageMv batteryEmptyMv batteryFullMv).toNat =
        roundDiv ((voltageMv.toNat - 3000) * 100) 1200) ∨
    (4200 ≤ voltageMv.toNat ∧
      batteryPercentFromMv voltageMv batteryEmptyMv batteryFullMv = 100) :=
  batteryPercentFromMv_cases batteryEmptyMv_lt_fullMv

theorem batteryPct_eq_zero_iff (voltageMv : BitVec 16) :
    batteryPercentFromMv voltageMv batteryEmptyMv batteryFullMv = 0 ↔
      voltageMv.toNat ≤ 3005 := by
  rcases batteryPct_cases voltageMv with ⟨hv, hpct⟩ | ⟨hlow, hhigh, hpct⟩ | ⟨hv, hpct⟩
  · rw [hpct]
    exact iff_of_true rfl (by omega)
  · have hzero : (0 : Byte).toNat = 0 := rfl
    rw [← BitVec.toNat_inj, hpct, hzero, roundDiv_eq_iff (by decide)]
    omega
  · rw [hpct]
    exact iff_of_false (by decide) (by omega)

theorem batteryPct_eq_hundred_iff (voltageMv : BitVec 16) :
    batteryPercentFromMv voltageMv batteryEmptyMv batteryFullMv = 100 ↔
      4194 ≤ voltageMv.toNat := by
  rcases batteryPct_cases voltageMv with ⟨hv, hpct⟩ | ⟨hlow, hhigh, hpct⟩ | ⟨hv, hpct⟩
  · rw [hpct]
    exact iff_of_false (by decide) (by omega)
  · have hhundred : (100 : Byte).toNat = 100 := rfl
    rw [← BitVec.toNat_inj, hpct, hhundred, roundDiv_eq_iff (by decide)]
    omega
  · rw [hpct]
    exact iff_of_true rfl (by omega)

theorem lawful_iff (mv : BitVec 32) :
    Lawful mv (batteryPercentFromMv (mv.setWidth 16) batteryEmptyMv batteryFullMv) ↔
      NarrowsWell mv.toInt := by
  have hempty : batteryEmptyMv.toNat = 3000 := rfl
  have hfull : batteryFullMv.toNat = 4200 := rfl
  have hnarrow := toNat_narrow mv
  have haccurate : Accurate batteryEmptyMv.toNat batteryFullMv.toNat (mv.setWidth 16).toNat
      (batteryPercentFromMv (mv.setWidth 16) batteryEmptyMv batteryFullMv) :=
    accurate_batteryPercentFromMv batteryEmptyMv_lt_fullMv
  have hexact : batteryEmptyMv.toNat < (mv.setWidth 16).toNat →
      (mv.setWidth 16).toNat < batteryFullMv.toNat →
      NoOverflow (mv.setWidth 16) batteryEmptyMv batteryFullMv :=
    fun h h' => noOverflow (Nat.le_of_lt h) h'
  constructor
  · -- below zero the law asks for 0, and past 16 bits for 100
    intro h
    rcases Int.lt_or_le mv.toInt 0 with hneg | hnonneg
    · have hzero := (batteryPct_eq_zero_iff _).mp (h.empty (by omega))
      exact .inr (.inl ⟨hneg, by omega⟩)
    rcases Int.lt_or_le mv.toInt 65536 with hsmall | hlarge
    · exact .inl ⟨hnonneg, hsmall⟩
    · have hhundred := (batteryPct_eq_hundred_iff _).mp (h.full (by omega))
      exact .inr (.inr ⟨hlarge, by omega⟩)
  · rintro (⟨hnonneg, hsmall⟩ | ⟨hneg, hlow⟩ | ⟨hlarge, hhigh⟩)
    · have hsame : ((mv.setWidth 16).toNat : ℤ) = mv.toInt :=
        hnarrow.trans (Int.emod_eq_of_lt hnonneg hsmall)
      rw [hsame] at haccurate
      exact ⟨haccurate, hexact⟩
    · have hzero := (batteryPct_eq_zero_iff (mv.setWidth 16)).mpr (by omega)
      exact ⟨⟨haccurate.le_hundred, fun _ => hzero, fun h => by omega, fun h => by omega⟩, hexact⟩
    · have hhundred := (batteryPct_eq_hundred_iff (mv.setWidth 16)).mpr (by omega)
      exact ⟨⟨haccurate.le_hundred, fun h => by omega, fun _ => hhundred, fun _ h => by omega⟩,
        hexact⟩

namespace DeviceHealth

theorem sampleBattery_of_measures {adc : BatteryAdc} {mv : BitVec 32} (h : adc.Measures mv)
    (health : DeviceHealth) : (health.sampleBattery (some adc)).batteryPct =
      batteryPercentFromMv (mv.setWidth 16) batteryEmptyMv batteryFullMv := by
  simp only [sampleBattery, h.isReady, h.channelSetup, h.sequenceInit, h.read, h.rawToMillivolts,
    Bool.true_eq_false, if_false, ne_eq, not_true_eq_false]

/-- The percentages of two samples follow the law, and thus their order, exactly when the cast
to 16 bits does no harm to either voltage. -/
theorem battery_percentage_monotone_iff {health₁ health₂ : DeviceHealth} {adc₁ adc₂ : BatteryAdc}
    {mv₁ mv₂ : BitVec 32} (h₁ : adc₁.Measures mv₁) (h₂ : adc₂.Measures mv₂)
    (hle : mv₁.toInt ≤ mv₂.toInt) :
    ((health₁.sampleBattery (some adc₁)).batteryPct.toNat ≤
        (health₂.sampleBattery (some adc₂)).batteryPct.toNat ∧
      Lawful mv₁ (health₁.sampleBattery (some adc₁)).batteryPct ∧
      Lawful mv₂ (health₂.sampleBattery (some adc₂)).batteryPct) ↔
    NarrowsWell mv₁.toInt ∧ NarrowsWell mv₂.toInt := by
  rw [sampleBattery_of_measures h₁, sampleBattery_of_measures h₂, lawful_iff, lawful_iff]
  refine and_iff_right_of_imp fun hwell => ?_
  have hlaw₁ := (lawful_iff mv₁).mpr hwell.1
  have hlaw₂ := (lawful_iff mv₂).mpr hwell.2
  exact hlaw₁.toAccurate.mono hlaw₂.toAccurate hle

/-- An ADC whose calls all succeed. -/
def steadyAdc (mv : BitVec 32) : BatteryAdc := ⟨true, 0, 0, (0, 0), fun _ => (0, mv)⟩

theorem measures_steadyAdc (mv : BitVec 32) : (steadyAdc mv).Measures mv :=
  ⟨rfl, rfl, rfl, rfl, rfl⟩

theorem battery_percentage_monotone_half :
    (init.sampleBattery (some (steadyAdc 3005))).batteryPct.toNat ≤
        (init.sampleBattery (some (steadyAdc 3600))).batteryPct.toNat ∧
      Lawful 3005 (init.sampleBattery (some (steadyAdc 3005))).batteryPct ∧
      Lawful 3600 (init.sampleBattery (some (steadyAdc 3600))).batteryPct :=
  (battery_percentage_monotone_iff (measures_steadyAdc 3005) (measures_steadyAdc 3600)
    (by decide)).mpr (by decide)

theorem not_monotone_below_zero :
    (-1 : BitVec 32).toInt ≤ (0 : BitVec 32).toInt ∧
    (init.sampleBattery (some (steadyAdc (-1)))).batteryPct = 100 ∧
    (init.sampleBattery (some (steadyAdc 0))).batteryPct = 0 := by decide

end DeviceHealth

end PartRack
