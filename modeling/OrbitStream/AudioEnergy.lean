/-
OrbitStream/AudioEnergy.lean

The energy of a frame of audio (`audio_processing/audio_energy.cc`).

Squares of 16 bit samples are added up in 32 bits.  So that the sum fits, every
square is shifted to the right by an amount computed from the number of samples and
the greatest absolute value; the caller gets the sum and the amount.

The absolute value is kept in 16 bits, where -32768 is its own negative, so that this
sample does not count for the greatest one.  Without it the sum always fits, and with
it the sum overflows if the others do not ask for a shift that makes room for it
(`energy_fits`).  The mixer uses the sum without the amount: louder audio has no
smaller sum if both get the same shift, and not in general (`louder_energy`).
-/
import Mathlib.Algebra.Order.BigOperators.Group.List
import Mathlib.Algebra.Order.Group.Int
import Mathlib.Algebra.Order.Ring.Nat
import Mathlib.Algebra.Ring.Int.Defs
import OrbitStream.Lib.BitSize

namespace Orbit

open Lib

/-- `WebRtcSpl_NormW32`.  The shifted number never reaches the sign bit. -/
def webRtcSplNormW32 (a : Int) : Nat :=
  if a = 0 then 0
  else
    let a := (if a < 0 then -a - 1 else a).toNat
    let zeros := if 0xFFFF8000 &&& a = 0 then 16 else 0
    let zeros := if 0xFF800000 &&& (a <<< zeros) = 0 then zeros + 8 else zeros
    let zeros := if 0xF8000000 &&& (a <<< zeros) = 0 then zeros + 4 else zeros
    let zeros := if 0xE0000000 &&& (a <<< zeros) = 0 then zeros + 2 else zeros
    if 0xC0000000 &&& (a <<< zeros) = 0 then zeros + 1 else zeros

/-- `WebRtcSpl_GetSizeInBits`. -/
def webRtcSplGetSizeInBits (n : Nat) : Nat :=
  let bits := if 0xFFFF0000 &&& n ≠ 0 then 16 else 0
  let bits := if 0x0000FF00 &&& (n >>> bits) ≠ 0 then bits + 8 else bits
  let bits := if 0x000000F0 &&& (n >>> bits) ≠ 0 then bits + 4 else bits
  let bits := if 0x0000000C &&& (n >>> bits) ≠ 0 then bits + 2 else bits
  let bits := if 0x00000002 &&& (n >>> bits) ≠ 0 then bits + 1 else bits
  if 0x00000001 &&& (n >>> bits) ≠ 0 then bits + 1 else bits

/-- One turn of the loop for `smax`, in 16 bits. -/
def maxAbs (smax x : Int16) : Int16 :=
  let sabs := if x > 0 then x else -x
  if sabs > smax then sabs else smax

/-- `WebRtcSpl_GetScalingSquare`. -/
def webRtcSplGetScalingSquare (inVector : List Int16) (times : Nat) : Nat :=
  let nbits := webRtcSplGetSizeInBits times
  let smax := inVector.foldl maxAbs (-1)
  let t := webRtcSplNormW32 (smax.toInt * smax.toInt)
  if smax = 0 then 0 else if t > nbits then 0 else nbits - t

/-- A sum leaves the range of `opus_int32`. -/
inductive EnergyFault
  | overflow
  deriving DecidableEq, Repr

/-- `(*p * *p) >> scale_factor`, in `int`. -/
def squareShift (scaleFactor : Nat) (x : Int16) : Int := (x.toInt * x.toInt) >>> scaleFactor

/-- One turn of the loop of `WebRtcSpl_Energy`. -/
def accumulate (scaleFactor : Nat) (energy : Int) (x : Int16) : Except EnergyFault Int :=
  if energy + squareShift scaleFactor x < 2147483648 then
    .ok (energy + squareShift scaleFactor x)
  else .error .overflow

/-- `WebRtcSpl_Energy`: the energy and the scale factor. -/
def webRtcSplEnergy (buffer : List Int16) : Except EnergyFault (Int × Nat) := do
  let scaleFactor := webRtcSplGetScalingSquare buffer buffer.length
  let energy ← buffer.foldlM (accumulate scaleFactor) 0
  return (energy, scaleFactor)

/-- The energy as the machine adds it up, in 32 bits that wrap around. -/
def machineEnergy (buffer : List Int16) : Int32 :=
  let scaleFactor := webRtcSplGetScalingSquare buffer buffer.length
  buffer.foldl (fun energy x => energy + Int32.ofInt (squareShift scaleFactor x)) 0

/-- What the loops of the mixer take of it: the scale factor is not used. -/
def bufferEnergy (buffer : List Int16) : Except EnergyFault Int := Prod.fst <$> webRtcSplEnergy buffer

/-! ### The helpers -/

theorem getSizeInBits_eq {n : Nat} (h : n < 2 ^ 32) : webRtcSplGetSizeInBits n = n.size := by
  have h16 := (Sized.start h).step 16 0xFFFF0000 (by decide)
  have h8 := h16.step 8 0x0000FF00 (by decide)
  have h4 := h8.step 4 0x000000F0 (by decide)
  have h2 := h4.step 2 0x0000000C (by decide)
  have h1 := h2.step 1 0x00000002 (by decide)
  exact h1.last

theorem normW32_eq {a : Nat} (hpos : 0 < a) (hlt : a < 2 ^ 31) :
    webRtcSplNormW32 a = 31 - a.size := by
  have hstart : Normed a 31 0 0 := ⟨hpos, hlt⟩
  have h16 := hstart.step 16 0xFFFF8000 15 (by decide) (by decide) (by decide)
  have h8 := h16.step 8 0xFF800000 23 (by decide) (by decide) (by decide)
  have h4 := h8.step 4 0xF8000000 27 (by decide) (by decide) (by decide)
  have h2 := h4.step 2 0xE0000000 29 (by decide) (by decide) (by decide)
  have h1 := h2.step 1 0xC0000000 30 (by decide) (by decide) (by decide)
  have hne : (a : Int) ≠ 0 := by omega
  have hnonneg : ¬ (a : Int) < 0 := by omega
  rw [webRtcSplNormW32, if_neg hne, if_neg hnonneg, Int.toNat_natCast]
  exact h1.size (Nat.ne_of_gt hpos)

/-! ### The greatest absolute value -/

/-- The greatest absolute value of the samples other than -32768, -1 if there are none. -/
def peakOthers (buffer : List Int16) : Int :=
  buffer.foldl (fun m x => if x = -32768 then m else max m x.toInt.natAbs) (-1)

theorem toInt_eq_iff {x : Int16} : x.toInt = -32768 ↔ x = -32768 := by
  rw [← Int16.toInt_inj]
  rfl

/-- In 16 bits, -32768 is its own negative and loses every comparison. -/
theorem toInt_maxAbs {m x : Int16} (hm : -1 ≤ m.toInt) :
    (maxAbs m x).toInt = if x = -32768 then m.toInt else max m.toInt x.toInt.natAbs := by
  have habs : (if x > 0 then x else -x).toInt =
      if x = -32768 then -32768 else (x.toInt.natAbs : Int) := by
    by_cases hx : x = -32768
    · subst hx
      rfl
    · rw [if_neg hx]
      have hlo := x.le_toInt
      have hhi := x.toInt_lt
      have hne := mt toInt_eq_iff.mp hx
      by_cases hpos : x > 0
      · have h0 : 0 < x.toInt := Int16.lt_iff_toInt_lt.mp hpos
        rw [if_pos hpos]
        omega
      · have h0 : ¬ 0 < x.toInt := fun h => hpos (Int16.lt_iff_toInt_lt.mpr h)
        rw [if_neg hpos, Int16.toInt_neg, Int.bmod_def]
        omega
  rw [maxAbs]
  by_cases hgt : (if x > 0 then x else -x) > m
  · have hlt : m.toInt < (if x > 0 then x else -x).toInt := Int16.lt_iff_toInt_lt.mp hgt
    rw [if_pos hgt, habs]
    rw [habs] at hlt
    split at hlt
    · omega
    · rename_i hx
      rw [if_neg hx, if_neg hx]
      omega
  · have hle : ¬ m.toInt < (if x > 0 then x else -x).toInt :=
      fun h => hgt (Int16.lt_iff_toInt_lt.mpr h)
    rw [if_neg hgt]
    rw [habs] at hle
    split
    · rfl
    · rename_i hx
      rw [if_neg hx] at hle
      omega

theorem toInt_foldl_maxAbs (buffer : List Int16) {m : Int16} (hm : -1 ≤ m.toInt) :
    (buffer.foldl maxAbs m).toInt = buffer.foldl
      (fun m x => if x = -32768 then m else max m x.toInt.natAbs) m.toInt := by
  induction buffer generalizing m with
  | nil => rfl
  | cons x buffer ih =>
    have hstep := toInt_maxAbs (x := x) hm
    have hge : -1 ≤ (maxAbs m x).toInt := by
      rw [hstep]
      split
      · exact hm
      · omega
    rw [List.foldl_cons, List.foldl_cons, ih hge, hstep]

/-- What the loop for `smax` finds. -/
theorem smax_eq (buffer : List Int16) : (buffer.foldl maxAbs (-1)).toInt = peakOthers buffer :=
  toInt_foldl_maxAbs buffer (by decide)

theorem foldl_max_ge (buffer : List Int16) (m : Int) :
    let p := buffer.foldl (fun m x => if x = -32768 then m else max m x.toInt.natAbs) m
    m ≤ p ∧ ∀ x ∈ buffer, x ≠ -32768 → (x.toInt.natAbs : Int) ≤ p := by
  induction buffer generalizing m with
  | nil => exact ⟨Int.le_refl m, by simp⟩
  | cons y buffer ih =>
    obtain ⟨hm, hall⟩ := ih (if y = -32768 then m else max m y.toInt.natAbs)
    refine ⟨?_, ?_⟩
    · refine Int.le_trans ?_ hm
      split
      · exact Int.le_refl m
      · exact Int.le_max_left _ _
    · rw [List.forall_mem_cons]
      refine ⟨?_, hall⟩
      intro hy
      refine Int.le_trans ?_ hm
      rw [if_neg hy]
      exact Int.le_max_right _ _

theorem peakOthers_bounds (buffer : List Int16) :
    -1 ≤ peakOthers buffer ∧ peakOthers buffer ≤ 32767 := by
  have hlt := (buffer.foldl maxAbs (-1)).toInt_lt
  rw [smax_eq] at hlt
  exact ⟨(foldl_max_ge buffer (-1)).1, by omega⟩

/-! ### The shift -/

/-- The square that the shift is computed from. -/
def peakSquare (buffer : List Int16) : Nat :=
  (peakOthers buffer).natAbs * (peakOthers buffer).natAbs

/-- The shift in closed form: the bits of the length and of the greatest square, less 31. -/
def shiftOf (buffer : List Int16) : Nat :=
  buffer.length.size - (31 - (peakSquare buffer).size)

theorem peakSquare_lt (buffer : List Int16) : peakSquare buffer < 2 ^ 30 := by
  obtain ⟨hlo, hhi⟩ := peakOthers_bounds buffer
  have habs : (peakOthers buffer).natAbs ≤ 32767 := by omega
  calc peakSquare buffer ≤ 32767 * 32767 := Nat.mul_le_mul habs habs
    _ < 2 ^ 30 := by decide

theorem getScalingSquare_eq {buffer : List Int16} (hlen : buffer.length < 2147483648) :
    webRtcSplGetScalingSquare buffer buffer.length = shiftOf buffer := by
  have hsize : buffer.length.size ≤ 31 := Nat.size_le.mpr hlen
  have hbits : webRtcSplGetSizeInBits buffer.length = buffer.length.size :=
    getSizeInBits_eq (Nat.lt_trans hlen (by decide))
  have hsquare : (buffer.foldl maxAbs (-1)).toInt * (buffer.foldl maxAbs (-1)).toInt =
      (peakSquare buffer : Int) := by
    rw [smax_eq, peakSquare, Int.natAbs_mul_self]
  rw [webRtcSplGetScalingSquare, shiftOf, hbits, hsquare]
  by_cases hzero : buffer.foldl maxAbs (-1) = 0
  · have hpeak : peakSquare buffer = 0 := by
      rw [hzero] at hsquare
      exact Int.natCast_eq_zero.mp hsquare.symm
    rw [if_pos hzero, hpeak, Nat.size_zero]
    omega
  · have hpos : 0 < peakSquare buffer := by
      apply Nat.pos_of_ne_zero
      intro hpeak
      rw [hpeak] at hsquare
      have h0 : (buffer.foldl maxAbs (-1)).toInt = 0 := by
        rcases Int.mul_eq_zero.mp hsquare with h | h
        · exact h
        · exact h
      exact hzero (Int16.toInt_inj.mp h0)
    have hnorm := normW32_eq hpos (Nat.lt_trans (peakSquare_lt buffer) (by decide))
    rw [if_neg hzero, hnorm]
    split
    · omega
    · rfl

/-! ### The sum -/

/-- A square, shifted. -/
def shifted (scale : Nat) (x : Int16) : Nat := (x.toInt.natAbs * x.toInt.natAbs) >>> scale

/-- The sum that is returned if it fits. -/
def energySum (buffer : List Int16) : Nat := (buffer.map (shifted (shiftOf buffer))).sum

theorem shifted_eq (scale : Nat) (x : Int16) :
    squareShift scale x = (shifted scale x : Int) := by
  rw [squareShift, ← Int.natAbs_mul_self]
  rfl

/-- The sum fits from the start on, or it overflows. -/
theorem foldlM_accumulate (scale : Nat) (buffer : List Int16) {energy : Int}
    (h : energy < 2147483648) :
    buffer.foldlM (accumulate scale) energy =
      if energy + (buffer.map (shifted scale)).sum < 2147483648 then
        .ok (energy + (buffer.map (shifted scale)).sum)
      else .error .overflow := by
  induction buffer generalizing energy with
  | nil =>
    have hsum : energy + (([] : List Int16).map (shifted scale)).sum = energy := by simp
    rw [hsum, if_pos h]
    rfl
  | cons x buffer ih =>
    have hsum : energy + ((x :: buffer).map (shifted scale)).sum =
        energy + shifted scale x + (buffer.map (shifted scale)).sum := by
      rw [List.map_cons, List.sum_cons, Int.natCast_add, Int.add_assoc]
    rw [List.foldlM_cons, accumulate, shifted_eq, hsum]
    by_cases hx : energy + shifted scale x < 2147483648
    · rw [if_pos hx]
      exact ih hx
    · have hall : ¬ energy + shifted scale x + (buffer.map (shifted scale)).sum < 2147483648 := by
        omega
      rw [if_neg hx, if_neg hall]
      rfl

/-- **What `WebRtcSpl_Energy` computes.** -/
theorem webRtcSplEnergy_eq {buffer : List Int16} (hlen : buffer.length < 2147483648) :
    webRtcSplEnergy buffer =
      if energySum buffer < 2147483648 then .ok ((energySum buffer : Int), shiftOf buffer)
      else .error .overflow := by
  rw [webRtcSplEnergy, getScalingSquare_eq hlen,
    foldlM_accumulate (shiftOf buffer) buffer (by decide), Int.zero_add]
  by_cases hfits : energySum buffer < 2147483648
  · have hint : (((buffer.map (shifted (shiftOf buffer))).sum : Nat) : Int) < 2147483648 := by
      exact_mod_cast hfits
    rw [if_pos hfits, if_pos hint]
    rfl
  · have hint : ¬ (((buffer.map (shifted (shiftOf buffer))).sum : Nat) : Int) < 2147483648 := by
      exact_mod_cast hfits
    rw [if_neg hfits, if_neg hint]
    rfl

/-! ### When the sum fits -/

theorem natAbs_le_peak {buffer : List Int16} {x : Int16} (hx : x ∈ buffer) (hne : x ≠ -32768) :
    x.toInt.natAbs ≤ (peakOthers buffer).natAbs := by
  have hle : (x.toInt.natAbs : Int) ≤ peakOthers buffer := (foldl_max_ge buffer (-1)).2 x hx hne
  omega

theorem shifted_le {buffer : List Int16} {x : Int16} (hx : x ∈ buffer) (hne : x ≠ -32768)
    (scale : Nat) : shifted scale x ≤ peakSquare buffer >>> scale := by
  have habs := natAbs_le_peak hx hne
  rw [shifted, Nat.shiftRight_eq_div_pow, Nat.shiftRight_eq_div_pow]
  exact Nat.div_le_div_right (Nat.mul_le_mul habs habs)

/-- The shift makes room for as many of the greatest squares as there are samples. -/
theorem mul_shift_lt {n q : Nat} (hn : n.size ≤ 31) (hq : q.size ≤ 31) :
    n * (q >>> (n.size - (31 - q.size))) < 2 ^ 31 := by
  have hn' : n < 2 ^ n.size := Nat.lt_size_self n
  have hq' : q < 2 ^ q.size := Nat.lt_size_self q
  rw [Nat.shiftRight_eq_div_pow]
  by_cases hroom : n.size ≤ 31 - q.size
  · rw [Nat.sub_eq_zero_of_le hroom, Nat.pow_zero, Nat.div_one]
    calc n * q < 2 ^ n.size * 2 ^ q.size := Nat.mul_lt_mul'' hn' hq'
      _ = 2 ^ (n.size + q.size) := (Nat.pow_add 2 _ _).symm
      _ ≤ 2 ^ 31 := Nat.pow_le_pow_right (by decide) (by omega)
  · have hdiv : q / 2 ^ (n.size - (31 - q.size)) < 2 ^ (31 - n.size) := by
      rw [Nat.div_lt_iff_lt_mul (Nat.two_pow_pos _), ← Nat.pow_add]
      exact Nat.lt_of_lt_of_le hq' (Nat.pow_le_pow_right (by decide) (by omega))
    calc n * (q / 2 ^ (n.size - (31 - q.size))) < 2 ^ n.size * 2 ^ (31 - n.size) :=
          Nat.mul_lt_mul'' hn' hdiv
      _ = 2 ^ 31 := by rw [← Nat.pow_add, Nat.add_sub_cancel' hn]

/-- Without the sample -32768 the sum fits. -/
theorem energySum_lt {buffer : List Int16} (hlen : buffer.length < 2147483648)
    (hne : ∀ x ∈ buffer, x ≠ -32768) : energySum buffer < 2147483648 := by
  have hle : energySum buffer ≤ buffer.length * (peakSquare buffer >>> shiftOf buffer) := by
    have hall : ∀ e ∈ buffer.map (shifted (shiftOf buffer)),
        e ≤ peakSquare buffer >>> shiftOf buffer := by
      intro e he
      obtain ⟨x, hx, rfl⟩ := List.mem_map.mp he
      exact shifted_le hx (hne x hx) (shiftOf buffer)
    have hsum := List.sum_le_card_nsmul _ _ hall
    rw [List.length_map] at hsum
    exact hsum
  refine Nat.lt_of_le_of_lt hle (mul_shift_lt (Nat.size_le.mpr hlen) ?_)
  exact Nat.size_le.mpr (Nat.lt_trans (peakSquare_lt buffer) (by decide))

/-- The squares of the samples -32768 are 2^30. -/
theorem count_le_energySum (buffer : List Int16) :
    buffer.count (-32768) * (1073741824 >>> shiftOf buffer) ≤ energySum buffer := by
  have hcount : ∀ (scale : Nat) (l : List Int16),
      l.count (-32768) * (1073741824 >>> scale) ≤ (l.map (shifted scale)).sum := by
    intro scale l
    induction l with
    | nil => simp
    | cons x l ih =>
      rw [List.map_cons, List.sum_cons]
      by_cases hx : x = -32768
      · obtain rfl := hx
        have hsquare : shifted scale (-32768) = 1073741824 >>> scale := rfl
        rw [List.count_cons_self, hsquare, Nat.add_mul, Nat.one_mul]
        omega
      · rw [List.count_cons_of_ne hx]
        omega
  exact hcount (shiftOf buffer) buffer

/-- Too many of them for the shift that the others ask for. -/
theorem energySum_ge {buffer : List Int16} (hlen : buffer.length < 2147483648)
    (hmany : 2 ^ (shiftOf buffer + 1) ≤ buffer.count (-32768)) :
    2147483648 ≤ energySum buffer := by
  have hn : buffer.length.size ≤ 31 := Nat.size_le.mpr hlen
  have hq : (peakSquare buffer).size ≤ 30 := Nat.size_le.mpr (peakSquare_lt buffer)
  have hshift : shiftOf buffer ≤ 30 := by
    rw [shiftOf]
    omega
  have hunit : 1073741824 >>> shiftOf buffer = 2 ^ (30 - shiftOf buffer) := by
    have hpow : (1073741824 : Nat) = 2 ^ 30 := by decide
    rw [Nat.shiftRight_eq_div_pow, hpow]
    exact Nat.pow_div hshift Nat.two_pos
  calc 2147483648 = 2 ^ (shiftOf buffer + 1) * 2 ^ (30 - shiftOf buffer) := by
        rw [← Nat.pow_add, Nat.add_right_comm, Nat.add_sub_cancel' hshift]
    _ ≤ buffer.count (-32768) * (1073741824 >>> shiftOf buffer) := by
        rw [hunit]
        exact Nat.mul_le_mul_right _ hmany
    _ ≤ energySum buffer := count_le_energySum buffer

/-- The sum of the statement, as a natural number. -/
theorem sum_shifted_eq (scale : Nat) (buffer : List Int16) :
    (buffer.map (squareShift scale)).sum =
      ((buffer.map (shifted scale)).sum : Nat) := by
  induction buffer with
  | nil => rfl
  | cons x buffer ih =>
    rw [List.map_cons, List.sum_cons, List.map_cons, List.sum_cons, ih, shifted_eq,
      Int.natCast_add]

/-- **The sum of the squares.**  For every frame whose length is an `int`, if no sample is -32768
the energy is computed without overflow, is the sum of the shifted squares and is not negative;
and it overflows if the samples -32768 are as many as the units 2^(s + 1) of the shift s that the
other samples ask for, two of them in a frame that is not shifted. -/
theorem energy_fits (buffer : List Int16) (hlen : buffer.length < 2147483648) :
    ((∀ x ∈ buffer, x ≠ -32768) →
      ∃ energy scale, webRtcSplEnergy buffer = .ok (energy, scale) ∧
        energy = (buffer.map (squareShift scale)).sum ∧ 0 ≤ energy) ∧
    (2 ^ (shiftOf buffer + 1) ≤ buffer.count (-32768) →
      webRtcSplEnergy buffer = .error .overflow) := by
  rw [webRtcSplEnergy_eq hlen]
  refine ⟨?_, ?_⟩
  · intro hne
    refine ⟨energySum buffer, shiftOf buffer, if_pos (energySum_lt hlen hne), ?_, ?_⟩
    · rw [sum_shifted_eq]
      rfl
    · exact Int.natCast_nonneg _
  · exact fun hmany => if_neg (Nat.not_lt.mpr (energySum_ge hlen hmany))

/-- A frame of the loudest samples but one. -/
theorem energy_fits_loud :
    [32767, -32767, 32767].length < 2147483648 ∧
      ∃ energy scale, webRtcSplEnergy [32767, -32767, 32767] = .ok (energy, scale) ∧
        energy = ([32767, -32767, 32767].map (squareShift scale)).sum ∧ 0 ≤ energy := by
  have hlen : ([32767, -32767, 32767] : List Int16).length < 2147483648 := by decide
  have hne : ∀ x ∈ ([32767, -32767, 32767] : List Int16), x ≠ -32768 := by
    rw [List.forall_mem_cons, List.forall_mem_cons, List.forall_mem_cons]
    exact ⟨by decide, by decide, by decide, by simp⟩
  exact ⟨hlen, (energy_fits [32767, -32767, 32767] hlen).1 hne⟩

/-- Two samples of -32768 are not shifted, and their squares are 2^31 together. -/
theorem energy_overflows :
    webRtcSplGetScalingSquare [-32768, -32768] 2 = 0 ∧
      webRtcSplEnergy [-32768, -32768] = .error .overflow ∧
      ¬ ∃ energy scale, webRtcSplEnergy [-32768, -32768] = .ok (energy, scale) := by
  have hfault : webRtcSplEnergy [-32768, -32768] = .error .overflow := by decide
  refine ⟨by decide, hfault, ?_⟩
  rintro ⟨energy, scale, hok⟩
  rw [hfault] at hok
  cases hok

/-! ### Louder audio -/

theorem bufferEnergy_eq {buffer : List Int16} (hlen : buffer.length < 2147483648) :
    bufferEnergy buffer = if energySum buffer < 2147483648 then .ok (energySum buffer : Int)
      else .error .overflow := by
  rw [bufferEnergy, webRtcSplEnergy_eq hlen]
  split
  · rfl
  · rfl

theorem sum_shifted_le {a b : List Int16} (scale : Nat)
    (h : List.Forall₂ (fun x y : Int16 => x.toInt.natAbs ≤ y.toInt.natAbs) a b) :
    (a.map (shifted scale)).sum ≤ (b.map (shifted scale)).sum := by
  induction h with
  | nil => exact Nat.le_refl _
  | cons hxy _ ih =>
    rw [List.map_cons, List.sum_cons, List.map_cons, List.sum_cons]
    apply Nat.add_le_add ?_ ih
    rw [shifted, shifted, Nat.shiftRight_eq_div_pow, Nat.shiftRight_eq_div_pow]
    exact Nat.div_le_div_right (Nat.mul_le_mul hxy hxy)

/-- The squares of the samples, each rounded down to a multiple of the unit that a shift
leaves. -/
def roundedSquares (scale : Nat) (buffer : List Int16) : Nat :=
  (buffer.map fun x => shifted scale x <<< scale).sum

theorem roundedSquares_eq (scale : Nat) (buffer : List Int16) :
    roundedSquares scale buffer = (buffer.map (shifted scale)).sum * 2 ^ scale := by
  induction buffer with
  | nil => exact (Nat.zero_mul _).symm
  | cons x buffer ih =>
    rw [roundedSquares] at ih ⊢
    rw [List.map_cons, List.sum_cons, List.map_cons, List.sum_cons, ih, Nat.add_mul,
      Nat.shiftLeft_eq]

/-- The sums compare as the squares do, each taken in the other's unit. -/
theorem energySum_le_iff (a b : List Int16) :
    energySum a ≤ energySum b ↔
      roundedSquares (shiftOf a) a <<< shiftOf b ≤ roundedSquares (shiftOf b) b <<< shiftOf a := by
  rw [Nat.shiftLeft_eq, Nat.shiftLeft_eq, roundedSquares_eq, roundedSquares_eq, Nat.mul_assoc,
    Nat.mul_assoc, Nat.mul_comm (2 ^ shiftOf b)]
  exact (Nat.mul_le_mul_right_iff
    (Nat.mul_pos (Nat.two_pow_pos (shiftOf a)) (Nat.two_pow_pos (shiftOf b)))).symm

theorem energySum_le_of_shift {a b : List Int16} (hshift : shiftOf a = shiftOf b)
    (hab : List.Forall₂ (fun x y : Int16 => x.toInt.natAbs ≤ y.toInt.natAbs) a b) :
    energySum a ≤ energySum b := by
  rw [energySum, energySum, hshift]
  exact sum_shifted_le (shiftOf b) hab

/-- A greater shift halves the energy at least. -/
theorem energySum_lt_of_shift {a b : List Int16} (hshift : shiftOf a < shiftOf b)
    (hdouble : roundedSquares (shiftOf b) b < 2 * roundedSquares (shiftOf a) a) :
    energySum b < energySum a := by
  rw [← Nat.not_le, energySum_le_iff, Nat.not_le, Nat.shiftLeft_eq, Nat.shiftLeft_eq]
  calc roundedSquares (shiftOf b) b * 2 ^ shiftOf a
      < 2 * roundedSquares (shiftOf a) a * 2 ^ shiftOf a :=
        Nat.mul_lt_mul_of_pos_right hdouble (Nat.two_pow_pos _)
    _ = roundedSquares (shiftOf a) a * 2 ^ (shiftOf a + 1) := by
        rw [Nat.pow_succ]
        ac_rfl
    _ ≤ roundedSquares (shiftOf a) a * 2 ^ shiftOf b :=
        Nat.mul_le_mul_left _ (Nat.pow_le_pow_right (by decide) hshift)

/-- **Louder audio.**  Of two frames of one length, the second nowhere quieter, the mixer gets
no smaller energy for the second if no sample of it is -32768 and both frames are shifted by the
same amount.  It gets none or a smaller one if the second is shifted by more and its squares, in
the units that the shifts leave, are not double those of the first. -/
theorem louder_energy (a b : List Int16) (hlen : b.length < 2147483648)
    (hab : List.Forall₂ (fun x y : Int16 => x.toInt.natAbs ≤ y.toInt.natAbs) a b) :
    ((∀ x ∈ b, x ≠ -32768) → shiftOf a = shiftOf b →
      ∃ quiet loud, bufferEnergy a = .ok quiet ∧ bufferEnergy b = .ok loud ∧ quiet ≤ loud) ∧
    (shiftOf a < shiftOf b → roundedSquares (shiftOf b) b < 2 * roundedSquares (shiftOf a) a →
      ¬ ∃ quiet loud, bufferEnergy a = .ok quiet ∧ bufferEnergy b = .ok loud ∧ quiet ≤ loud) := by
  have hlen' : a.length < 2147483648 := Nat.lt_of_le_of_lt (Nat.le_of_eq hab.length_eq) hlen
  rw [bufferEnergy_eq hlen, bufferEnergy_eq hlen']
  refine ⟨?_, ?_⟩
  · intro hne hshift
    have hb := energySum_lt hlen hne
    have hcmp := energySum_le_of_shift hshift hab
    exact ⟨energySum a, energySum b, if_pos (Nat.lt_of_le_of_lt hcmp hb), if_pos hb,
      Int.ofNat_le.mpr hcmp⟩
  · rintro hshift hdouble ⟨quiet, loud, hquiet, hloud, hcmp⟩
    have hlt := energySum_lt_of_shift hshift hdouble
    split at hquiet
    · split at hloud
      · cases hquiet
        cases hloud
        exact Nat.not_le.mpr hlt (Int.ofNat_le.mp hcmp)
      · cases hloud
    · cases hquiet

/-- Two frames with the same shift. -/
theorem louder_energy_same_shift :
    [1000, 2].length < 2147483648 ∧
      ∃ quiet loud, bufferEnergy [900, -1] = .ok quiet ∧ bufferEnergy [1000, 2] = .ok loud ∧
        quiet ≤ loud := by
  have hlen : ([1000, 2] : List Int16).length < 2147483648 := by decide
  refine ⟨hlen, (louder_energy [900, -1] [1000, 2] hlen (by decide)).1 ?_ ?_⟩
  · rw [List.forall_mem_cons, List.forall_mem_cons]
    exact ⟨by decide, by decide, by simp⟩
  · decide +kernel

/-- One sample that is louder by one doubles the shift: the energy of the louder frame is half
of that of the quieter one. -/
theorem louder_frame_ranks_below :
    List.Forall₂ (fun x y : Int16 => x.toInt.natAbs ≤ y.toInt.natAbs) [23170, 23170]
        [23171, 23170] ∧
      bufferEnergy [23170, 23170] = .ok 1073697800 ∧
      bufferEnergy [23171, 23170] = .ok 536872070 ∧
      ¬ ∃ quiet loud, bufferEnergy [23170, 23170] = .ok quiet ∧
        bufferEnergy [23171, 23170] = .ok loud ∧ quiet ≤ loud := by
  have hquiet : bufferEnergy [23170, 23170] = .ok 1073697800 := by decide
  have hloud : bufferEnergy [23171, 23170] = .ok 536872070 := by decide
  refine ⟨by decide, hquiet, hloud, ?_⟩
  rintro ⟨quiet, loud, h₁, h₂, hle⟩
  rw [hquiet] at h₁
  rw [hloud] at h₂
  cases h₁
  cases h₂
  revert hle
  decide

end Orbit
