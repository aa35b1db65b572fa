import Mathlib.Analysis.SpecialFunctions.Log.Base
import Mathlib.Data.List.Sort
import PqcVpn.Anomaly.Forest
import PqcVpn.Anomaly.WarmUp

/-!
# TickFeatures — the feature row of a tick

`tick_features` reduces the packets of a tick to the six numbers of Layer 3.  Every division checks
its divisor here, so that what the guards of the source are for can be stated: a tick of three
packets or more is reduced without a division by zero.  The row depends on the packets as a multiset
and on the gaps between their times.
-/

namespace PqcVpn
namespace Anomaly

variable {R : Type} [Field R] [LinearOrder R]

/-! ## Arrays -/

/-- `np.log10`. -/
class HasLog10 (R : Type) where
  log10 : R → R

/-- What is used of a logarithm. -/
class LawfulLog10 (R : Type) [Field R] [LinearOrder R] [HasLog10 R] : Prop where
  log10_one : HasLog10.log10 (1 : R) = 0
  log10_lt : ∀ x y : R, 0 < x → x < y → HasLog10.log10 x < HasLog10.log10 y

noncomputable instance : HasLog10 ℝ := ⟨Real.logb 10⟩

instance : LawfulLog10 ℝ where
  log10_one := Real.logb_one
  log10_lt _ _ hx hxy := Real.logb_lt_logb (by norm_num) hx hxy

/-- What goes wrong in array arithmetic. -/
inductive ArrayError
  | divisionByZero
  | maskLength
  deriving DecidableEq

/-- A division. -/
def divide (x y : R) : Except ArrayError R :=
  if y = 0 then .error .divisionByZero else .ok (x / y)

/-- `xs.mean()`. -/
def meanOf (xs : List R) : Except ArrayError R := divide xs.sum xs.length

/-- `xs.std()`. -/
def stdOf [HasSqrt R] (xs : List R) : Except ArrayError R := do
  let m ← meanOf xs
  let v ← meanOf (xs.map fun x => (x - m) * (x - m))
  return HasSqrt.sqrt v

/-- `xs[mask]`. -/
def masked (xs : List R) (mask : List Bool) : Except ArrayError (List R) :=
  if mask.length = xs.length then
    .ok (((xs.zip mask).filter Prod.snd).map Prod.fst)
  else
    .error .maskLength

/-- `np.diff`. -/
def diff (xs : List R) : List R := List.zipWith (fun x y => y - x) xs xs.tail

/-! ## The features -/

def layer3MinPackets : Nat := 3

/-- The default of `tick_seconds`. -/
def defaultTickSeconds : R := 5.0

/-- `float(sizes[mask].mean()) if mask.any() else 0.0`. -/
def maskedMean (sizes : List R) (mask : List Bool) : Except ArrayError R :=
  if mask.any id then masked sizes mask >>= meanOf else .ok 0

/-- `float(gaps.std() / gap_mean) if gap_mean > 0 else 0.0`. -/
def guardedCv [HasSqrt R] (gaps : List R) (gapMean : R) : Except ArrayError R :=
  if gapMean > 0 then stdOf gaps >>= fun s => divide s gapMean else .ok 0

/-- `float(sizes[mask].sum() / total) if total > 0 else 0.0`. -/
def guardedShare (sizes : List R) (mask : List Bool) (total : R) : Except ArrayError R :=
  if total > 0 then masked sizes mask >>= fun part => divide part.sum total else .ok 0

variable [HasSqrt R] [HasLog10 R]

def tickFeatures (packetSizes arrivalTimes : List R) (outbound : List Bool) (tickSeconds : R) :
    Except ArrayError (Option (Features R)) :=
  if packetSizes.length < layer3MinPackets then
    .ok none
  else do
    let times := arrivalTimes.insertionSort (· ≤ ·)
    let gaps := diff times
    let gapMean ← meanOf gaps
    let total := packetSizes.sum
    let outSizeMean ← maskedMean packetSizes outbound
    let inSizeMean ← maskedMean packetSizes (outbound.map not)
    let pktSizeStd ← stdOf packetSizes
    let pktRate ← divide (packetSizes.length : R) tickSeconds
    let iatCv ← guardedCv gaps gapMean
    let uploadShare ← guardedShare packetSizes outbound total
    return some
      { outSizeMean, inSizeMean, pktSizeStd
        logPktRate := HasLog10.log10 (1 + pktRate)
        iatCv, uploadShare }

/-! ## Checked arithmetic -/

omit [LinearOrder R] [HasSqrt R] [HasLog10 R] in
theorem diff_map_add (c : R) (xs : List R) : diff (xs.map (· + c)) = diff xs := by
  rw [diff, diff, ← List.map_tail, List.zipWith_map]
  simp only [add_sub_add_right_eq_sub]

omit [LinearOrder R] [HasSqrt R] [HasLog10 R] in
theorem length_diff (xs : List R) : (diff xs).length = xs.length - 1 := by
  rw [diff, List.length_zipWith, List.length_tail]
  omega

section Checked

omit [HasSqrt R] [HasLog10 R]

theorem divide_of_ne_zero {x y : R} (h : y ≠ 0) : divide x y = .ok (x / y) := if_neg h

theorem divide_zero (x : R) : divide x 0 = .error .divisionByZero := if_pos rfl

variable [CharZero R]

theorem meanOf_of_ne_nil {xs : List R} (h : xs ≠ []) : meanOf xs = .ok (mean xs) := by
  refine divide_of_ne_zero ?_
  rwa [Nat.cast_ne_zero, Ne, List.length_eq_zero_iff]

theorem stdOf_of_ne_nil [HasSqrt R] {xs : List R} (h : xs ≠ []) : stdOf xs = .ok (std xs) := by
  have hsquares : xs.map (fun x => (x - mean xs) * (x - mean xs)) ≠ [] := by simpa using h
  rw [stdOf, meanOf_of_ne_nil h]
  change (meanOf (xs.map fun x => (x - mean xs) * (x - mean xs)) >>= fun v =>
    Except.ok (HasSqrt.sqrt v)) = _
  rw [meanOf_of_ne_nil hsquares]
  rfl

end Checked

/-! ## Packets -/

/-- One packet of a tick. -/
structure Packet (R : Type) where
  size : R
  arrival : R
  outbound : Bool

/-- The sizes of the packets in one direction. -/
def sizesOf (dir : Packet R → Bool) (packets : List (Packet R)) : List R :=
  (packets.filter dir).map Packet.size

/-- The gaps between times, in the order of the clock. -/
def gapsOf (times : List R) : List R := diff (times.insertionSort (· ≤ ·))

/-- The feature row as a function of the packets and the gaps.  The mean of no packets is zero. -/
def features (packets : List (Packet R)) (gaps : List R) (tickSeconds : R) : Features R where
  outSizeMean := mean (sizesOf (·.outbound) packets)
  inSizeMean := mean (sizesOf (!·.outbound) packets)
  pktSizeStd := std (packets.map Packet.size)
  logPktRate := HasLog10.log10 (1 + packets.length / tickSeconds)
  iatCv := if 0 < mean gaps then std gaps / mean gaps else 0
  uploadShare :=
    if 0 < (packets.map Packet.size).sum then
      (sizesOf (·.outbound) packets).sum / (packets.map Packet.size).sum
    else
      0

omit [Field R] [LinearOrder R] [HasSqrt R] [HasLog10 R] in
theorem masked_packets (dir : Packet R → Bool) (packets : List (Packet R)) :
    masked (packets.map Packet.size) (packets.map dir) = .ok (sizesOf dir packets) := by
  rw [masked, if_pos (by rw [List.length_map, List.length_map]), List.zip_map', List.filter_map,
    List.map_map]
  rfl

section Exact

variable [IsStrictOrderedRing R]

omit [LinearOrder R] [HasSqrt R] [HasLog10 R] [IsStrictOrderedRing R] in
theorem mean_nil : mean ([] : List R) = 0 := by
  simp [mean]

omit [HasSqrt R] [HasLog10 R] in
/-- The guard is for a direction without packets. -/
theorem maskedMean_packets (dir : Packet R → Bool) (packets : List (Packet R)) :
    maskedMean (packets.map Packet.size) (packets.map dir) = .ok (mean (sizesOf dir packets)) := by
  have hany : (packets.map dir).any id = true ↔ sizesOf dir packets ≠ [] := by
    simp [sizesOf]
  unfold maskedMean
  split
  · rename_i h
    rw [masked_packets]
    exact meanOf_of_ne_nil (hany.1 h)
  · rename_i h
    rw [not_ne_iff.1 (mt hany.2 h), mean_nil]

omit [HasLog10 R] in
/-- The guard is for times that all coincide. -/
theorem guardedCv_of_ne_nil {gaps : List R} (h : gaps ≠ []) :
    guardedCv gaps (mean gaps) = .ok (if 0 < mean gaps then std gaps / mean gaps else 0) := by
  unfold guardedCv
  split
  · rename_i hpos
    rw [stdOf_of_ne_nil h]
    exact divide_of_ne_zero (ne_of_gt hpos)
  · rfl

omit [HasSqrt R] [HasLog10 R] [IsStrictOrderedRing R] in
/-- The guard is for packets without bytes. -/
theorem guardedShare_packets (dir : Packet R → Bool) (packets : List (Packet R)) (total : R) :
    guardedShare (packets.map Packet.size) (packets.map dir) total =
      .ok (if 0 < total then (sizesOf dir packets).sum / total else 0) := by
  unfold guardedShare
  split
  · rename_i hpos
    rw [masked_packets]
    exact divide_of_ne_zero (ne_of_gt hpos)
  · rfl

/-- Reducing a tick of enough packets divides by nothing that can be zero but `tick_seconds`. -/
theorem tickFeatures_eq_divide {packets : List (Packet R)} {times : List R}
    (hmin : layer3MinPackets ≤ packets.length) (htimes : times.length = packets.length)
    (tickSeconds : R) :
    tickFeatures (packets.map Packet.size) times (packets.map (·.outbound)) tickSeconds =
      divide (packets.length : R) tickSeconds >>= fun _ =>
        .ok (some (features packets (gapsOf times) tickSeconds)) := by
  have hthree : layer3MinPackets = 3 := rfl
  have hgaps : gapsOf times ≠ [] := by
    refine List.ne_nil_of_length_pos ?_
    rw [gapsOf, length_diff, List.length_insertionSort]
    omega
  have hsizes : packets.map Packet.size ≠ [] := by
    refine List.ne_nil_of_length_pos ?_
    rw [List.length_map]
    omega
  have hin : (packets.map (·.outbound)).map not = packets.map (!·.outbound) := List.map_map
  unfold tickFeatures
  rw [if_neg (by rw [List.length_map]; omega)]
  dsimp only
  rw [← gapsOf, meanOf_of_ne_nil hgaps, hin, maskedMean_packets, maskedMean_packets,
    stdOf_of_ne_nil hsizes, List.length_map, guardedShare_packets]
  by_cases hts : tickSeconds = 0
  · rw [hts, divide_zero]
    rfl
  · rw [divide_of_ne_zero hts]
    change (guardedCv (gapsOf times) (mean (gapsOf times)) >>= _) = _
    rw [guardedCv_of_ne_nil hgaps]
    rfl

/-! ## What a tick answers -/

omit [IsStrictOrderedRing R] in
theorem tickFeatures_of_lt {packets : List (Packet R)} (h : packets.length < layer3MinPackets)
    (times : List R) (tickSeconds : R) :
    tickFeatures (packets.map Packet.size) times (packets.map (·.outbound)) tickSeconds =
      .ok none :=
  if_pos (by rwa [List.length_map])

section Answers

variable {packets : List (Packet R)} {times : List R}

theorem tickFeatures_eq_none_iff (htimes : times.length = packets.length) (tickSeconds : R) :
    tickFeatures (packets.map Packet.size) times (packets.map (·.outbound)) tickSeconds =
        .ok none ↔ packets.length < layer3MinPackets := by
  rcases lt_or_ge packets.length layer3MinPackets with hfew | hmin
  · exact iff_of_true (tickFeatures_of_lt hfew _ _) hfew
  · refine iff_of_false ?_ (not_lt.2 hmin)
    rw [tickFeatures_eq_divide hmin htimes]
    unfold divide
    split
    · intro h
      cases h
    · intro h
      cases h

/-- Only a tick of no duration is an error. -/
theorem tickFeatures_error_iff (htimes : times.length = packets.length) (tickSeconds : R) :
    (∃ err, tickFeatures (packets.map Packet.size) times (packets.map (·.outbound)) tickSeconds =
        .error err) ↔ layer3MinPackets ≤ packets.length ∧ tickSeconds = 0 := by
  rcases lt_or_ge packets.length layer3MinPackets with hfew | hmin
  · rw [tickFeatures_of_lt hfew]
    refine iff_of_false ?_ fun h => absurd hfew (not_lt.2 h.1)
    rintro ⟨err, h⟩
    cases h
  · rw [tickFeatures_eq_divide hmin htimes]
    unfold divide
    split
    · rename_i hzero
      exact iff_of_true ⟨_, rfl⟩ ⟨hmin, hzero⟩
    · rename_i hzero
      refine iff_of_false ?_ fun h => hzero h.2
      rintro ⟨err, h⟩
      cases h

/-- The row there is, is that of the packets and the gaps. -/
theorem eq_features_of_tickFeatures (htimes : times.length = packets.length) {tickSeconds : R}
    {f : Features R}
    (h : tickFeatures (packets.map Packet.size) times (packets.map (·.outbound)) tickSeconds =
      .ok (some f)) : f = features packets (gapsOf times) tickSeconds := by
  rcases lt_or_ge packets.length layer3MinPackets with hfew | hmin
  · rw [tickFeatures_of_lt hfew] at h
    cases h
  · rw [tickFeatures_eq_divide hmin htimes] at h
    unfold divide at h
    split at h
    · cases h
    · cases h
      rfl

end Answers

/-! ## Invariance -/

omit [LinearOrder R] [HasSqrt R] [HasLog10 R] [IsStrictOrderedRing R] in
theorem mean_perm {xs ys : List R} (h : xs.Perm ys) : mean xs = mean ys := by
  rw [mean, mean, h.sum_eq, h.length_eq]

omit [LinearOrder R] [HasLog10 R] [IsStrictOrderedRing R] in
theorem std_perm {xs ys : List R} (h : xs.Perm ys) : std xs = std ys := by
  rw [std, std, variance, variance, mean_perm h]
  exact congrArg _ (mean_perm (h.map _))

omit [IsStrictOrderedRing R] in
/-- The packets enter the row as a multiset. -/
theorem features_perm {packets packets' : List (Packet R)} (h : packets.Perm packets')
    (gaps : List R) (tickSeconds : R) :
    features packets gaps tickSeconds = features packets' gaps tickSeconds := by
  have hdir (dir : Packet R → Bool) : (sizesOf dir packets).Perm (sizesOf dir packets') :=
    (h.filter dir).map _
  have hsizes := h.map Packet.size
  unfold features
  rw [mean_perm (hdir _), mean_perm (hdir (!·.outbound)), std_perm hsizes, h.length_eq,
    hsizes.sum_eq, (hdir _).sum_eq]

omit [HasSqrt R] [HasLog10 R] in
/-- The gaps do not depend on the order in which the times are listed, nor on their origin. -/
theorem gapsOf_perm_add {times times' : List R} (h : times.Perm times') (c : R) :
    gapsOf (times.map (· + c)) = gapsOf times' := by
  have hsorted : times.insertionSort (· ≤ ·) = times'.insertionSort (· ≤ ·) := by
    refine List.Perm.eq_of_sortedLE List.sortedLE_insertionSort List.sortedLE_insertionSort ?_
    exact (List.perm_insertionSort _ _).trans (h.trans (List.perm_insertionSort _ _).symm)
  have hshift : (times.map (· + c)).insertionSort (· ≤ ·) =
      (times.insertionSort (· ≤ ·)).map (· + c) := by
    refine (List.map_insertionSort _ _ _ _ ?_).symm
    intro x _ y _
    exact (add_le_add_iff_right c).symm
  rw [gapsOf, gapsOf, hshift, diff_map_add, hsorted]

/-- Neither the order of the packets, nor that of the times, nor their origin matters. -/
theorem tickFeatures_perm_add {packets packets' : List (Packet R)} {times times' : List R}
    (hpackets : packets.Perm packets') (htimes : times.Perm times')
    (hlength : times'.length = packets'.length) (c tickSeconds : R) :
    tickFeatures (packets.map Packet.size) (times.map (· + c)) (packets.map (·.outbound))
        tickSeconds =
      tickFeatures (packets'.map Packet.size) times' (packets'.map (·.outbound)) tickSeconds := by
  rcases lt_or_ge packets'.length layer3MinPackets with hfew | hmin
  · rw [tickFeatures_of_lt hfew, tickFeatures_of_lt (by rwa [hpackets.length_eq])]
  · have hshifted : (times.map (· + c)).length = packets.length := by
      rw [List.length_map, htimes.length_eq, hlength, hpackets.length_eq]
    rw [tickFeatures_eq_divide hmin hlength,
      tickFeatures_eq_divide (by rwa [hpackets.length_eq]) hshifted, hpackets.length_eq,
      features_perm hpackets, gapsOf_perm_add htimes]

/-! ## Ranges -/

section Ranges

variable {packets : List (Packet R)}

omit [HasSqrt R] [HasLog10 R] [LinearOrder R] [IsStrictOrderedRing R] in
/-- The bytes of the two directions are all the bytes. -/
theorem sum_sizesOf_add (packets : List (Packet R)) :
    (sizesOf (·.outbound) packets).sum + (sizesOf (!·.outbound) packets).sum =
      (packets.map Packet.size).sum := by
  induction packets with
  | nil => simp [sizesOf]
  | cons p ps ih =>
      simp only [sizesOf, List.map_cons, List.sum_cons] at ih ⊢
      cases hp : p.outbound <;> simp [hp, ← ih] <;> ring

omit [HasSqrt R] [HasLog10 R] in
theorem mean_mul_length (xs : List R) : mean xs * xs.length = xs.sum := by
  by_cases h : xs = []
  · simp [h]
  · refine div_mul_cancel₀ _ ?_
    rwa [Nat.cast_ne_zero, Ne, List.length_eq_zero_iff]

omit [HasSqrt R] [HasLog10 R] in
theorem sum_sizesOf_nonneg (hsizes : ∀ p ∈ packets, 0 ≤ p.size) (dir : Packet R → Bool) :
    0 ≤ (sizesOf dir packets).sum := by
  refine List.sum_nonneg ?_
  intro x hx
  rcases List.mem_map.1 hx with ⟨p, hp, rfl⟩
  exact hsizes p (List.mem_of_mem_filter hp)

theorem uploadShare_mem (hsizes : ∀ p ∈ packets, 0 ≤ p.size) (gaps : List R) (tickSeconds : R) :
    0 ≤ (features packets gaps tickSeconds).uploadShare ∧
      (features packets gaps tickSeconds).uploadShare ≤ 1 := by
  have hout := sum_sizesOf_nonneg hsizes (·.outbound)
  have hin := sum_sizesOf_nonneg hsizes (!·.outbound)
  have htotal := sum_sizesOf_add packets
  dsimp only [features]
  split
  · rename_i hpos
    refine ⟨div_nonneg hout hpos.le, (div_le_one hpos).2 ?_⟩
    linarith
  · exact ⟨le_refl 0, zero_le_one⟩

theorem iatCv_nonneg [LawfulSqrt R] (gaps : List R) (tickSeconds : R) :
    0 ≤ (features packets gaps tickSeconds).iatCv := by
  dsimp only [features]
  split
  · rename_i hpos
    exact div_nonneg (std_nonneg _) hpos.le
  · exact le_refl 0

omit [HasSqrt R] [HasLog10 R] [LinearOrder R] [IsStrictOrderedRing R] [Field R] in
theorem length_sizesOf (dir : Packet R → Bool) (packets : List (Packet R)) :
    (sizesOf dir packets).length = packets.countP dir := by
  rw [sizesOf, List.length_map, List.countP_eq_length_filter]

omit [HasLog10 R] [HasSqrt R] in
/-- Means times counts are the bytes. -/
theorem mean_sizesOf_mul_add (packets : List (Packet R)) :
    mean (sizesOf (·.outbound) packets) * packets.countP (·.outbound) +
        mean (sizesOf (!·.outbound) packets) * packets.countP (!·.outbound) =
      (packets.map Packet.size).sum := by
  rw [← length_sizesOf, ← length_sizesOf]
  calc
    mean (sizesOf (·.outbound) packets) * (sizesOf (·.outbound) packets).length +
          mean (sizesOf (!·.outbound) packets) * (sizesOf (!·.outbound) packets).length
        = (sizesOf (·.outbound) packets).sum + (sizesOf (!·.outbound) packets).sum := by
          rw [mean_mul_length, mean_mul_length]
    _ = (packets.map Packet.size).sum := sum_sizesOf_add packets

end Ranges

/-- The row of a tick: the same for the packets in any order, their times in any other and on any
clock; absent for too few packets; never a division by zero, whatever times or sizes coincide; and
in range. -/
theorem tickFeatures_of_multiset_and_gaps [LawfulSqrt R] {packets : List (Packet R)}
    (hsizes : ∀ p ∈ packets, 0 ≤ p.size) (tickSeconds : R) :
    let row := tickFeatures (packets.map Packet.size) (packets.map Packet.arrival)
      (packets.map (·.outbound)) tickSeconds
    (∀ (packets' : List (Packet R)) (times : List R) (c : R), packets'.Perm packets →
      times.Perm (packets.map Packet.arrival) →
        tickFeatures (packets'.map Packet.size) (times.map (· + c)) (packets'.map (·.outbound))
          tickSeconds = row) ∧
    (row = .ok none ↔ packets.length < layer3MinPackets) ∧
    ((∃ err, row = .error err) ↔ layer3MinPackets ≤ packets.length ∧ tickSeconds = 0) ∧
    ∀ f, row = .ok (some f) →
      (0 ≤ f.uploadShare ∧ f.uploadShare ≤ 1) ∧ 0 ≤ f.iatCv ∧ 0 ≤ f.pktSizeStd ∧
        f.outSizeMean * packets.countP (·.outbound) + f.inSizeMean * packets.countP (!·.outbound) =
          (packets.map Packet.size).sum := by
  intro row
  have hlength : (packets.map Packet.arrival).length = packets.length := List.length_map _
  refine ⟨?_, tickFeatures_eq_none_iff hlength tickSeconds,
    tickFeatures_error_iff hlength tickSeconds, ?_⟩
  · intro packets' times c hpackets htimes
    exact tickFeatures_perm_add hpackets htimes hlength c tickSeconds
  · intro f hf
    have hfeatures := eq_features_of_tickFeatures hlength hf
    subst hfeatures
    exact ⟨uploadShare_mem hsizes _ _, iatCv_nonneg _ _, std_nonneg _, mean_sizesOf_mul_add packets⟩

end Exact

/-- Three equal packets at one instant. -/
def equalPackets : List (Packet ℝ) := List.replicate 3 ⟨60, 1, true⟩

theorem tickFeatures_of_equal_packets :
    tickFeatures (equalPackets.map Packet.size) (equalPackets.map Packet.arrival)
      (equalPackets.map (·.outbound)) defaultTickSeconds ≠ .error .divisionByZero := by
  have hsizes : ∀ p ∈ equalPackets, 0 ≤ p.size := by
    simp [equalPackets]
  intro h
  have hzero := ((tickFeatures_of_multiset_and_gaps hsizes defaultTickSeconds).2.2.1.1 ⟨_, h⟩).2
  norm_num [defaultTickSeconds] at hzero

end Anomaly
end PqcVpn
