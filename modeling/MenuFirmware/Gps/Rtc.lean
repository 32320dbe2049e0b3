import MenuFirmware.Gps.Pps

/-!
# The clock count of the RTC (`rtc.c`)

The RTC counts 20000 ticks a second downwards, in a register of its own, and hours, minutes and
seconds in BCD; it begins again at midnight.  `Get_RTC_clk` makes one number of these.

* `halRtcGetTime`       what the HAL reads out of the registers;
* `rtcAt n`             the registers `n` ticks after a midnight;
* `getRtcClk_rtcAt`     the clock count is the number of ticks since the last midnight, plus one;
* `cpuDelay_eq_iff`     so the delay between two pulses less than a day apart is the number of ticks
                        between them iff no midnight lies between them.
-/

namespace MenuFirmware

/-! ## the code -/

def synchprrdiv : UInt32 := 19999

/-- the registers `RTC->TR` and `RTC->SSR` -/
structure RtcRegs where
  tr : UInt32
  ssr : UInt32

structure RtcTime where
  hours : UInt8
  minutes : UInt8
  seconds : UInt8
  subSeconds : UInt32

def rtcBcd2ToByte (value : UInt8) : UInt8 := ((value &&& 0xF0) >>> 4) * 10 + (value &&& 0x0F)

/-- the fields of `RTC->TR`, masked and shifted -/
def trHours (tr : UInt32) : UInt8 := ((tr &&& 0x007F7F7F &&& 0x3F0000) >>> 16).toUInt8
def trMinutes (tr : UInt32) : UInt8 := ((tr &&& 0x007F7F7F &&& 0x7F00) >>> 8).toUInt8
def trSeconds (tr : UInt32) : UInt8 := (tr &&& 0x007F7F7F &&& 0x7F).toUInt8

/-- `HAL_RTC_GetTime` with `RTC_FORMAT_BIN` -/
def halRtcGetTime (r : RtcRegs) : RtcTime where
  hours := rtcBcd2ToByte (trHours r.tr)
  minutes := rtcBcd2ToByte (trMinutes r.tr)
  seconds := rtcBcd2ToByte (trSeconds r.tr)
  subSeconds := r.ssr

/-- the expression of `Get_RTC_clk` -/
def rtcClk (t : RtcTime) : UInt32 :=
  ((t.hours.toUInt32 * 60 + t.minutes.toUInt32) * 60 + t.seconds.toUInt32) * (synchprrdiv + 1) +
    ((synchprrdiv + 1) - t.subSeconds)

def getRtcClk (r : RtcRegs) : UInt32 := rtcClk (halRtcGetTime r)

/-! ## the hardware -/

def ticksPerSecond : Nat := 20000
def ticksPerDay : Nat := 86400 * ticksPerSecond

/-- a number below 100 in BCD -/
def bcd2 (n : Nat) : UInt32 := UInt32.ofNat (n / 10 * 16 + n % 10)

def packTr (h m s : Nat) : UInt32 := (bcd2 h <<< 16) ||| (bcd2 m <<< 8) ||| bcd2 s

/-- the registers `n` ticks after a midnight -/
def rtcAt (n : Nat) : RtcRegs where
  tr := packTr (n / ticksPerSecond / 3600 % 24) (n / ticksPerSecond / 60 % 60)
    (n / ticksPerSecond % 60)
  ssr := UInt32.ofNat (19999 - n % ticksPerSecond)

/-! ## reading the registers -/

theorem packTr_and (h m s : Nat) (mask : UInt32) :
    packTr h m s &&& mask =
      (bcd2 h <<< 16 &&& mask) ||| (bcd2 m <<< 8 &&& mask) ||| (bcd2 s &&& mask) := by
  unfold packTr
  apply UInt32.toBitVec_inj.1
  simp only [UInt32.toBitVec_and, UInt32.toBitVec_or, BitVec.and_or_distrib_right]

/-- none of the masks cuts a digit off -/
theorem packTr_reserved {h m s : Nat} (hh : h < 24) (hm : m < 60) (hs : s < 60) :
    packTr h m s &&& 0x007F7F7F = packTr h m s := by
  have h1 : ∀ h : Fin 24, bcd2 h.1 <<< 16 &&& (0x007F7F7F : UInt32) = bcd2 h.1 <<< 16 := by decide +kernel
  have h2 : ∀ m : Fin 60, bcd2 m.1 <<< 8 &&& (0x007F7F7F : UInt32) = bcd2 m.1 <<< 8 := by decide +kernel
  have h3 : ∀ s : Fin 60, bcd2 s.1 &&& (0x007F7F7F : UInt32) = bcd2 s.1 := by decide +kernel
  rw [packTr_and, h1 ⟨h, hh⟩, h2 ⟨m, hm⟩, h3 ⟨s, hs⟩]
  rfl

theorem trHours_pack {h m s : Nat} (hh : h < 24) (hm : m < 60) (hs : s < 60) :
    (rtcBcd2ToByte (trHours (packTr h m s))).toNat = h := by
  have h1 : ∀ h : Fin 24, bcd2 h.1 <<< 16 &&& (0x3F0000 : UInt32) = bcd2 h.1 <<< 16 := by decide +kernel
  have h2 : ∀ m : Fin 60, bcd2 m.1 <<< 8 &&& 0x3F0000 = 0 := by decide +kernel
  have h3 : ∀ s : Fin 60, bcd2 s.1 &&& 0x3F0000 = 0 := by decide +kernel
  have h4 : ∀ h : Fin 24, (rtcBcd2ToByte ((bcd2 h.1 <<< 16) >>> 16).toUInt8).toNat = h.1 := by
    decide +kernel
  unfold trHours
  rw [packTr_reserved hh hm hs, packTr_and, h1 ⟨h, hh⟩, h2 ⟨m, hm⟩, h3 ⟨s, hs⟩, UInt32.or_zero,
    UInt32.or_zero]
  exact h4 ⟨h, hh⟩

theorem trMinutes_pack {h m s : Nat} (hh : h < 24) (hm : m < 60) (hs : s < 60) :
    (rtcBcd2ToByte (trMinutes (packTr h m s))).toNat = m := by
  have h1 : ∀ h : Fin 24, bcd2 h.1 <<< 16 &&& 0x7F00 = 0 := by decide +kernel
  have h2 : ∀ m : Fin 60, bcd2 m.1 <<< 8 &&& (0x7F00 : UInt32) = bcd2 m.1 <<< 8 := by decide +kernel
  have h3 : ∀ s : Fin 60, bcd2 s.1 &&& 0x7F00 = 0 := by decide +kernel
  have h4 : ∀ m : Fin 60, (rtcBcd2ToByte ((bcd2 m.1 <<< 8) >>> 8).toUInt8).toNat = m.1 := by
    decide +kernel
  unfold trMinutes
  rw [packTr_reserved hh hm hs, packTr_and, h1 ⟨h, hh⟩, h2 ⟨m, hm⟩, h3 ⟨s, hs⟩, UInt32.zero_or,
    UInt32.or_zero]
  exact h4 ⟨m, hm⟩

theorem trSeconds_pack {h m s : Nat} (hh : h < 24) (hm : m < 60) (hs : s < 60) :
    (rtcBcd2ToByte (trSeconds (packTr h m s))).toNat = s := by
  have h1 : ∀ h : Fin 24, bcd2 h.1 <<< 16 &&& 0x7F = 0 := by decide +kernel
  have h2 : ∀ m : Fin 60, bcd2 m.1 <<< 8 &&& 0x7F = 0 := by decide +kernel
  have h3 : ∀ s : Fin 60, bcd2 s.1 &&& (0x7F : UInt32) = bcd2 s.1 := by decide +kernel
  have h4 : ∀ s : Fin 60, (rtcBcd2ToByte (bcd2 s.1).toUInt8).toNat = s.1 := by decide +kernel
  unfold trSeconds
  rw [packTr_reserved hh hm hs, packTr_and, h1 ⟨h, hh⟩, h2 ⟨m, hm⟩, h3 ⟨s, hs⟩, UInt32.zero_or,
    UInt32.zero_or]
  exact h4 ⟨s, hs⟩

/-! ## the clock count -/

/-- the carries of the units never leave 32 bits -/
theorem rtcClk_toNat {t : RtcTime} (hh : t.hours.toNat < 24) (hm : t.minutes.toNat < 60)
    (hs : t.seconds.toNat < 60) (hss : t.subSeconds.toNat ≤ 19999) :
    (rtcClk t).toNat = ((t.hours.toNat * 60 + t.minutes.toNat) * 60 + t.seconds.toNat) * 20000 +
      (20000 - t.subSeconds.toNat) := by
  have h60 : (60 : UInt32).toNat = 60 := rfl
  have hdiv : (synchprrdiv + 1).toNat = 20000 := rfl
  have hle : t.subSeconds ≤ synchprrdiv + 1 := by
    rw [UInt32.le_iff_toNat_le, hdiv]
    omega
  unfold rtcClk
  rw [UInt32.toNat_add, UInt32.toNat_mul, UInt32.toNat_add, UInt32.toNat_mul, UInt32.toNat_add,
    UInt32.toNat_mul, UInt32.toNat_sub_of_le _ _ hle, UInt8.toNat_toUInt32, UInt8.toNat_toUInt32,
    UInt8.toNat_toUInt32, h60, hdiv]
  omega

/-- **The clock count.**  The ticks since the last midnight, plus one. -/
theorem getRtcClk_rtcAt (n : Nat) : (getRtcClk (rtcAt n)).toNat = n % ticksPerDay + 1 := by
  have hh : n / ticksPerSecond / 3600 % 24 < 24 := Nat.mod_lt _ (by decide)
  have hm : n / ticksPerSecond / 60 % 60 < 60 := Nat.mod_lt _ (by decide)
  have hs : n / ticksPerSecond % 60 < 60 := Nat.mod_lt _ (by decide)
  have h1 : (halRtcGetTime (rtcAt n)).hours.toNat = _ := trHours_pack hh hm hs
  have h2 : (halRtcGetTime (rtcAt n)).minutes.toNat = _ := trMinutes_pack hh hm hs
  have h3 : (halRtcGetTime (rtcAt n)).seconds.toNat = _ := trSeconds_pack hh hm hs
  have h4 : (halRtcGetTime (rtcAt n)).subSeconds.toNat = 19999 - n % ticksPerSecond := by
    show (19999 - n % ticksPerSecond) % 2 ^ 32 = _
    omega
  unfold getRtcClk
  rw [rtcClk_toNat (h1 ▸ hh) (h2 ▸ hm) (h3 ▸ hs) (by omega), h1, h2, h3, h4]
  unfold ticksPerDay ticksPerSecond
  omega

/-! ## the delay between two pulses -/

/-- the clock count that `GPS_PPS_Interrupt` keeps for the next pulse -/
theorem gpsPpsInterrupt_previousCpuclk (s : GpsPps) (cpuclk : UInt32) :
    (gpsPpsInterrupt s cpuclk).previousCpuclk = cpuclk := rfl

theorem cpuDelay_toNat (s : GpsPps) (c₁ c₂ : UInt32) :
    (cpuDelay (gpsPpsInterrupt s c₁) c₂).toNat = (2 ^ 32 - c₁.toNat + c₂.toNat) % 2 ^ 32 :=
  UInt32.toNat_sub c₂ c₁

/-- the difference of two readings of a counter of `W` values -/
theorem wrap_sub {W a b : Nat} (ha : a ≤ W) (hb : b < W) :
    (W - a + b) % W = if a ≤ b then b - a else W - a + b := by
  by_cases h : a ≤ b
  · have e : W - a + b = (b - a) + W := by omega
    rw [if_pos h, e, Nat.add_mod_right, Nat.mod_eq_of_lt (by omega)]
  · rw [if_neg h, Nat.mod_eq_of_lt (by omega)]

/-- a counter of `W` values that begins again every `D` ticks, before it wraps -/
theorem restart_delay {D W n₁ n₂ : Nat} (hW : D < W) (h : n₁ ≤ n₂) (hday : n₂ < n₁ + D) :
    (W - (n₁ % D + 1) + (n₂ % D + 1)) % W = n₂ - n₁ ↔ n₁ / D = n₂ / D := by
  have hD : 0 < D := by omega
  have h1 := Nat.div_add_mod n₁ D
  have h2 := Nat.div_add_mod n₂ D
  have l1 := Nat.mod_lt n₁ hD
  have l2 := Nat.mod_lt n₂ hD
  have hle : n₁ / D ≤ n₂ / D := Nat.div_le_div_right h
  have hge : n₂ / D ≤ n₁ / D + 1 := by
    rw [← Nat.add_div_right n₁ hD]
    exact Nat.div_le_div_right (Nat.le_of_lt hday)
  rw [wrap_sub (by omega) (by omega)]
  by_cases heq : n₁ / D = n₂ / D
  · rw [heq] at h1 ⊢
    split_ifs <;> omega
  · have hq : n₂ / D = n₁ / D + 1 := by omega
    rw [hq, Nat.mul_succ] at h2
    split_ifs <;> omega

/-- **The delay.**  For two successive pulses less than a day apart, `cpu_delay` is the number of
ticks between them iff they fall on the same day of the RTC. -/
theorem cpuDelay_eq_iff (s : GpsPps) (n₁ n₂ : Nat) (h : n₁ ≤ n₂) (hday : n₂ < n₁ + ticksPerDay) :
    (cpuDelay (gpsPpsInterrupt s (getRtcClk (rtcAt n₁))) (getRtcClk (rtcAt n₂))).toNat = n₂ - n₁ ↔
      n₁ / ticksPerDay = n₂ / ticksPerDay := by
  rw [cpuDelay_toNat, getRtcClk_rtcAt, getRtcClk_rtcAt]
  exact restart_delay (by decide) h hday

/-- two pulses a second apart, with and without a midnight between them -/
theorem cpuDelay_eq_iff_second :
    (cpuDelay (gpsPpsInterrupt gpsPpsInit (getRtcClk (rtcAt 5))) (getRtcClk (rtcAt 20005))).toNat
      = 20000 :=
  (cpuDelay_eq_iff gpsPpsInit 5 20005 (by decide) (by decide)).2 (by decide)

theorem cpuDelay_midnight :
    (cpuDelay (gpsPpsInterrupt gpsPpsInit (getRtcClk (rtcAt 1727990000)))
      (getRtcClk (rtcAt 1728010000))).toNat ≠ 1728010000 - 1727990000 := by
  decide +kernel

end MenuFirmware
