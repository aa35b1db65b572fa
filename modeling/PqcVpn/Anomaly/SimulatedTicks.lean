import PqcVpn.Anomaly.TickFeatures
import PqcVpn.Lib.Average
import PqcVpn.Lib.Sampling

/-!
# SimulatedTicks — the traffic Layer 3 is trained on

`simulate_tick` and `feature_matrix` of `client/rl_agent/train_isolation_forest.py`.  A tick is built
packet by packet from a profile and reduced by the code the live layer reduces its ticks with; ticks
too sparse to judge are drawn again.  The generator is an argument, as is the fuel of the loop.
-/

namespace PqcVpn
namespace Anomaly

open Sampling

variable {R : Type} [Field R] [LinearOrder R]

/-! ## Profiles -/

/-- Ranges of a profile; the sizes by mean and deviation. -/
structure Profile (R : Type) where
  rate : R × R
  cv : R × R
  pOut : R × R
  out : R × R
  inn : R × R

/-- `BENIGN_PROFILES`. -/
def benignProfiles : List (String × Profile R) :=
  [("idle", ⟨(1.0, 5.0), (0.8, 1.3), (0.4, 0.6), (120.0, 60.0), (150.0, 80.0)⟩),
    ("browsing", ⟨(20.0, 200.0), (1.5, 3.0), (0.3, 0.45), (90.0, 60.0), (1200.0, 350.0)⟩),
    ("streaming", ⟨(150.0, 600.0), (0.6, 1.5), (0.2, 0.35), (66.0, 10.0), (1400.0, 120.0)⟩),
    ("bulk_download", ⟨(500.0, 2000.0), (0.4, 1.0), (0.3, 0.5), (66.0, 8.0), (1460.0, 40.0)⟩),
    ("video_call", ⟨(80.0, 300.0), (0.3, 0.7), (0.45, 0.55), (1000.0, 200.0), (1000.0, 200.0)⟩)]

/-- `ATTACK_MIXES`. -/
def attackMixes : List (String × Profile R) :=
  [("exfiltration", ⟨(300.0, 1500.0), (0.3, 1.0), (0.7, 0.85), (1450.0, 50.0), (66.0, 8.0)⟩),
    ("port_scan", ⟨(200.0, 2000.0), (0.1, 0.4), (0.5, 0.65), (58.0, 4.0), (54.0, 4.0)⟩),
    ("beaconing", ⟨(1.0, 3.0), (0.0, 0.05), (0.6, 0.9), (250.0, 40.0), (180.0, 40.0)⟩)]

/-- `TICK_SECONDS`. -/
def tickSeconds : R := 5.0

/-! ## A tick -/

/-- What `simulate_tick` asks of `np.random.Generator`; the arrays are of the length asked for. -/
structure TickRng (G R : Type) where
  defaultRng : Nat → G
  uniform : R → R → G → R × G
  poisson : R → G → Nat × G
  gamma : R → R → Nat → G → List R × G
  random : Nat → G → List R × G
  normal : R → R → Nat → G → List R × G

structure TickRng.Lawful {G : Type} (gen : TickRng G R) : Prop where
  uniform_mem : ∀ low high rng, low ≤ high →
    low ≤ (gen.uniform low high rng).1 ∧ (gen.uniform low high rng).1 ≤ high
  gamma_nonneg : ∀ shape scale n rng, 0 < shape → 0 < scale →
    ∀ x ∈ (gen.gamma shape scale n rng).1, 0 ≤ x
  length_gamma : ∀ shape scale n rng, (gen.gamma shape scale n rng).1.length = n
  length_random : ∀ n rng, (gen.random n rng).1.length = n
  length_normal : ∀ loc scale n rng, (gen.normal loc scale n rng).1.length = n

/-- `np.cumsum`. -/
def cumsum (xs : List R) : List R := (xs.scanl (· + ·) 0).tail

/-- `np.where`. -/
def choose (mask : List Bool) (xs ys : List R) : List R :=
  List.zipWith (fun m (p : R × R) => if m then p.1 else p.2) mask (xs.zip ys)

/-- The arrays of one tick. -/
structure SimulatedTick (R : Type) where
  sizes : List R
  times : List R
  outbound : List Bool

variable {G : Type}

/-- The parameters a tick is drawn with: how many packets, what share of them outbound, and the
gamma distribution of their gaps. -/
structure TickShape (R : Type) where
  n : Nat
  pOut : R
  shape : R
  scale : R

def drawShape (gen : TickRng G R) (profile : Profile R) (rng : G) :
    Except ArrayError (TickShape R × G) := do
  let rate := gen.uniform profile.rate.1 profile.rate.2 rng
  let cv := gen.uniform profile.cv.1 profile.cv.2 rate.2
  let pOut := gen.uniform profile.pOut.1 profile.pOut.2 cv.2
  let count := gen.poisson (rate.1 * tickSeconds) pOut.2
  let shape ← divide 1.0 (max cv.1 0.01 ^ 2)
  let scale ← divide 1.0 (rate.1 * shape)
  return (⟨max count.1 1, pOut.1, shape, scale⟩, count.2)

/-- The arrays: sizes are drawn for both directions and chosen by the mask. -/
def drawArrays (gen : TickRng G R) (profile : Profile R) (s : TickShape R) (rng : G) :
    SimulatedTick R × G :=
  let gaps := gen.gamma s.shape s.scale s.n rng
  let uniforms := gen.random s.n gaps.2
  let outbound := uniforms.1.map fun u => decide (u < s.pOut)
  let outs := gen.normal profile.out.1 profile.out.2 s.n uniforms.2
  let inns := gen.normal profile.inn.1 profile.inn.2 s.n outs.2
  ({ sizes := (choose outbound outs.1 inns.1).map fun x => clip x 40.0 1500.0
     times := cumsum gaps.1
     outbound := outbound }, inns.2)

def simulateTick (gen : TickRng G R) (profile : Profile R) (rng : G) :
    Except ArrayError (SimulatedTick R × G) := do
  let s ← drawShape gen profile rng
  return drawArrays gen profile s.1 s.2

/-! ## Rows -/

variable [HasSqrt R] [HasLog10 R]

/-- `feature_matrix`; `none` when the fuel is gone before there are enough rows. -/
def featureMatrix (gen : TickRng G R) (profile : Profile R) (nTicks : Nat) :
    Nat → List (Features R) → G → Except ArrayError (Option (List (Features R) × G))
  | 0, rows, rng => .ok (if rows.length < nTicks then none else some (rows, rng))
  | fuel + 1, rows, rng =>
      if rows.length < nTicks then do
        let tick ← simulateTick gen profile rng
        let f ← tickFeatures tick.1.sizes tick.1.times tick.1.outbound tickSeconds
        featureMatrix gen profile nTicks fuel (rows ++ f.toList) tick.2
      else
        .ok (some (rows, rng))

/-! ## Arrays of a tick -/

section Arrays

omit [HasSqrt R] [HasLog10 R]

omit [LinearOrder R] in
theorem length_cumsum (xs : List R) : (cumsum xs).length = xs.length := by
  simp [cumsum]

omit [Field R] [LinearOrder R] in
theorem length_choose {mask : List Bool} {xs ys : List R} (hx : xs.length = mask.length)
    (hy : ys.length = mask.length) : (choose mask xs ys).length = mask.length := by
  simp [choose, hx, hy]

omit [Field R] in
theorem clip_mem {x low high : R} (h : low ≤ high) : low ≤ clip x low high ∧ clip x low high ≤ high :=
  ⟨le_min (le_max_right x low) h, min_le_right _ _⟩

theorem pairwise_scanl [IsStrictOrderedRing R] {xs : List R} (h : ∀ x ∈ xs, 0 ≤ x) (c : R) :
    (xs.scanl (· + ·) c).Pairwise (· ≤ ·) ∧ ∀ y ∈ xs.scanl (· + ·) c, c ≤ y := by
  induction xs generalizing c with
  | nil => simp
  | cons x xs ih =>
      rw [List.forall_mem_cons] at h
      obtain ⟨hsorted, hleast⟩ := ih h.2 (c + x)
      have hc : c ≤ c + x := le_add_of_nonneg_right h.1
      rw [List.scanl_cons, List.pairwise_cons, List.forall_mem_cons]
      exact ⟨⟨fun y hy => hc.trans (hleast y hy), hsorted⟩, le_refl c,
        fun y hy => hc.trans (hleast y hy)⟩

/-- Times that are sums of what is never negative ascend. -/
theorem sortedLE_cumsum [IsStrictOrderedRing R] {xs : List R} (h : ∀ x ∈ xs, 0 ≤ x) :
    (cumsum xs).SortedLE :=
  (pairwise_scanl h 0).1.tail.sortedLE

omit [LinearOrder R] in
theorem diff_scanl (xs : List R) (c : R) : diff (xs.scanl (· + ·) c) = xs := by
  induction xs generalizing c with
  | nil => rfl
  | cons x xs ih =>
      have htail := ih (c + x)
      -- the sums begin with what they start from
      obtain ⟨ys, hys⟩ : ∃ ys, xs.scanl (· + ·) (c + x) = (c + x) :: ys := by
        cases xs with
        | nil => exact ⟨[], rfl⟩
        | cons y ys => exact ⟨_, List.scanl_cons⟩
      rw [List.scanl_cons]
      rw [hys] at htail ⊢
      calc diff (c :: (c + x) :: ys) = (c + x - c) :: diff ((c + x) :: ys) := rfl
        _ = x :: xs := by rw [htail, add_sub_cancel_left]

omit [LinearOrder R] in
/-- The first gap, the one before the first packet, leaves no trace in the differences. -/
theorem diff_cumsum (xs : List R) : diff (cumsum xs) = xs.tail := by
  cases xs with
  | nil => rfl
  | cons x xs => rw [cumsum, List.scanl_cons, List.tail_cons, diff_scanl, List.tail_cons]

end Arrays

/-! ## Ranges of a row -/

/-- What a row of packets between `low` and `high` bytes satisfies. -/
structure Features.Within (low high : R) (f : Features R) : Prop where
  outSizeMean : f.outSizeMean = 0 ∨ (low ≤ f.outSizeMean ∧ f.outSizeMean ≤ high)
  inSizeMean : f.inSizeMean = 0 ∨ (low ≤ f.inSizeMean ∧ f.inSizeMean ≤ high)
  pktSizeStd : 0 ≤ f.pktSizeStd ∧ f.pktSizeStd ≤ (high - low) / 2
  iatCv : 0 ≤ f.iatCv
  uploadShare : 0 ≤ f.uploadShare ∧ f.uploadShare ≤ 1
  no_upload : f.uploadShare = 0 ↔ f.outSizeMean = 0
  all_upload : f.uploadShare = 1 ↔ f.inSizeMean = 0

section Ranges

variable [IsStrictOrderedRing R]

section Means

omit [HasSqrt R] [HasLog10 R]

omit [LinearOrder R] [IsStrictOrderedRing R] in
theorem mean_eq_avg (xs : List R) : mean xs = Average.avg (fun x => x) xs := by
  rw [Average.avg, List.map_id', mean]

theorem mean_mem {xs : List R} {low high : R} (hxs : xs ≠ [])
    (h : ∀ x ∈ xs, low ≤ x ∧ x ≤ high) : low ≤ mean xs ∧ mean xs ≤ high := by
  rw [mean_eq_avg]
  exact ⟨Average.le_avg hxs fun x hx => (h x hx).1, Average.avg_le hxs fun x hx => (h x hx).2⟩

/-- The mean is where the mean squared distance is least. -/
theorem variance_eq_sub {xs : List R} (hxs : xs ≠ []) (c : R) :
    variance xs = Average.avg (fun x => (x - c) * (x - c)) xs - (mean xs - c) * (mean xs - c) := by
  have hexpand : ∀ x ∈ xs, (x - mean xs) * (x - mean xs) =
      (x - c) * (x - c) + ((-2 * (mean xs - c)) * x + (mean xs * mean xs - c * c)) := by
    intro x _
    ring
  calc variance xs = Average.avg (fun x => (x - mean xs) * (x - mean xs)) xs := by
        rw [variance, mean, Average.avg, List.length_map]
    _ = Average.avg (fun x => (x - c) * (x - c)) xs +
          ((-2 * (mean xs - c)) * mean xs + (mean xs * mean xs - c * c)) := by
        rw [Average.avg_congr hexpand, Average.avg_add, Average.avg_add, Average.avg_mul_left,
          Average.avg_const hxs, ← mean_eq_avg]
    _ = _ := by ring

theorem variance_le {xs : List R} {low high : R} (hxs : xs ≠ [])
    (h : ∀ x ∈ xs, low ≤ x ∧ x ≤ high) : variance xs ≤ ((high - low) / 2) ^ 2 := by
  -- no value is further than half the range from its middle
  have hdistance : ∀ x ∈ xs,
      (x - (low + high) / 2) * (x - (low + high) / 2) ≤ ((high - low) / 2) ^ 2 := by
    intro x hx
    have hsides := mul_nonneg (sub_nonneg.2 (h x hx).1) (sub_nonneg.2 (h x hx).2)
    linarith
  have hsquare := mul_self_nonneg (mean xs - (low + high) / 2)
  rw [variance_eq_sub hxs ((low + high) / 2)]
  linarith [Average.avg_le hxs hdistance]

end Means

omit [HasLog10 R] in
theorem std_le [LawfulSqrt R] {xs : List R} {low high : R} (hxs : xs ≠ [])
    (h : ∀ x ∈ xs, low ≤ x ∧ x ≤ high) : std xs ≤ (high - low) / 2 := by
  have hrange : 0 ≤ (high - low) / 2 := by
    obtain ⟨x, hx⟩ := List.exists_mem_of_ne_nil xs hxs
    linarith [(h x hx).1, (h x hx).2]
  refine (pow_le_pow_iff_left₀ (std_nonneg xs) hrange two_ne_zero).1 ?_
  rw [std_sq]
  exact variance_le hxs h

section Rows

variable {packets : List (Packet R)} {low high : R}

omit [Field R] [HasSqrt R] [HasLog10 R] [IsStrictOrderedRing R] in
theorem sizesOf_mem (hsizes : ∀ p ∈ packets, low ≤ p.size ∧ p.size ≤ high) (dir : Packet R → Bool) :
    ∀ x ∈ sizesOf dir packets, low ≤ x ∧ x ≤ high := by
  intro x hx
  obtain ⟨p, hp, rfl⟩ := List.mem_map.1 hx
  exact hsizes p (List.mem_of_mem_filter hp)

omit [HasSqrt R] [HasLog10 R] in
theorem mean_sizesOf_mem (hsizes : ∀ p ∈ packets, low ≤ p.size ∧ p.size ≤ high)
    (dir : Packet R → Bool) : mean (sizesOf dir packets) = 0 ∨
      (low ≤ mean (sizesOf dir packets) ∧ mean (sizesOf dir packets) ≤ high) := by
  rcases eq_or_ne (sizesOf dir packets) [] with hnil | hne
  · exact .inl (by rw [hnil, mean_nil])
  · exact .inr (mean_mem hne (sizesOf_mem hsizes dir))

omit [HasSqrt R] [HasLog10 R] in
theorem mean_eq_zero_iff (xs : List R) : mean xs = 0 ↔ xs.sum = 0 := by
  constructor
  · intro hmean
    rw [← mean_mul_length, hmean, zero_mul]
  · intro hsum
    rw [mean, hsum, zero_div]

omit [HasSqrt R] [HasLog10 R] in
theorem sum_size_pos (hlow : 0 < low) (hpackets : packets ≠ [])
    (hsizes : ∀ p ∈ packets, low ≤ p.size ∧ p.size ≤ high) :
    0 < (packets.map Packet.size).sum := by
  have hne : packets.map Packet.size ≠ [] := by simpa using hpackets
  have hmem : ∀ x ∈ packets.map Packet.size, low ≤ x ∧ x ≤ high := by
    intro x hx
    obtain ⟨p, hp, rfl⟩ := List.mem_map.1 hx
    exact hsizes p hp
  rw [← mean_mul_length]
  exact mul_pos (hlow.trans_le (mean_mem hne hmem).1)
    (Nat.cast_pos.2 (List.length_pos_iff.2 hne))

theorem features_within [LawfulSqrt R] (hlow : 0 < low) (hpackets : packets ≠ [])
    (hsizes : ∀ p ∈ packets, low ≤ p.size ∧ p.size ≤ high) (gaps : List R) (tickSeconds : R) :
    (features packets gaps tickSeconds).Within low high := by
  have htotal := sum_size_pos hlow hpackets hsizes
  have hparts := sum_sizesOf_add packets
  have hshare : (features packets gaps tickSeconds).uploadShare =
      (sizesOf (·.outbound) packets).sum / (packets.map Packet.size).sum := if_pos htotal
  have hnonneg : ∀ p ∈ packets, 0 ≤ p.size := fun p hp => hlow.le.trans (hsizes p hp).1
  refine ⟨mean_sizesOf_mem hsizes _, mean_sizesOf_mem hsizes _, ⟨std_nonneg _, ?_⟩,
    iatCv_nonneg _ _, uploadShare_mem hnonneg _ _, ?_, ?_⟩
  · refine std_le (by simpa using hpackets) ?_
    intro x hx
    obtain ⟨p, hp, rfl⟩ := List.mem_map.1 hx
    exact hsizes p hp
  · rw [hshare, div_eq_zero_iff, or_iff_left htotal.ne']
    exact (mean_eq_zero_iff _).symm
  · -- all of it is upload when nothing is left for the other direction
    rw [hshare, div_eq_one_iff_eq htotal.ne']
    refine Iff.trans ?_ (mean_eq_zero_iff (sizesOf (!·.outbound) packets)).symm
    constructor <;> intro h <;> linarith

end Rows

end Ranges

/-! ## What a simulated tick is -/

/-- The packets a tick's arrays describe, and the gaps its times were summed from. -/
structure SimulatedTick.Describes (t : SimulatedTick R) (packets : List (Packet R))
    (gaps : List R) : Prop where
  sizes : t.sizes = packets.map Packet.size
  times : t.times = packets.map Packet.arrival
  outbound : t.outbound = packets.map Packet.outbound
  ne_nil : packets ≠ []
  size_mem : ∀ p ∈ packets, 40.0 ≤ p.size ∧ p.size ≤ 1500.0
  times_eq : t.times = cumsum gaps
  gaps_nonneg : ∀ x ∈ gaps, 0 ≤ x

omit [Field R] [LinearOrder R] [HasSqrt R] [HasLog10 R] in
/-- Three arrays of one length are the fields of as many packets. -/
theorem exists_packets {sizes times : List R} {outbound : List Bool}
    (htimes : times.length = sizes.length) (houtbound : outbound.length = sizes.length) :
    ∃ packets : List (Packet R), sizes = packets.map Packet.size ∧
      times = packets.map Packet.arrival ∧ outbound = packets.map Packet.outbound := by
  induction sizes generalizing times outbound with
  | nil =>
      exact ⟨[], rfl, List.length_eq_zero_iff.1 htimes, List.length_eq_zero_iff.1 houtbound⟩
  | cons size sizes ih =>
      obtain ⟨time, times, rfl⟩ := List.exists_cons_of_length_eq_add_one htimes
      obtain ⟨out, outbound, rfl⟩ := List.exists_cons_of_length_eq_add_one houtbound
      obtain ⟨packets, rfl, rfl, rfl⟩ := ih (Nat.succ.inj htimes) (Nat.succ.inj houtbound)
      exact ⟨⟨size, time, out⟩ :: packets, rfl, rfl, rfl⟩

/-- A profile whose rates are positive. -/
def Profile.PositiveRate (p : Profile R) : Prop := 0 < p.rate.1 ∧ p.rate.1 ≤ p.rate.2

section Draws

variable [IsStrictOrderedRing R] {gen : TickRng G R} {profile : Profile R}

omit [HasSqrt R] [HasLog10 R]

/-- Neither division is by zero. -/
theorem exists_drawShape (hgen : gen.Lawful) (hprofile : profile.PositiveRate) (rng : G) :
    ∃ s : TickShape R × G, drawShape gen profile rng = .ok s ∧
      (∃ lam rng', s.1.n = max (gen.poisson lam rng').1 1) ∧ 0 < s.1.shape ∧ 0 < s.1.scale := by
  obtain ⟨hrate, hle⟩ := hprofile
  have hdraw := (hgen.uniform_mem profile.rate.1 profile.rate.2 rng hle).1
  unfold drawShape
  -- the floor under the variation keeps the shape finite
  have hcv (x : R) : 0 < max x (0.01 : R) ^ 2 := by
    refine pow_pos (lt_max_of_lt_right ?_) 2
    norm_num
  have hshape (x : R) : 0 < (1.0 : R) / max x 0.01 ^ 2 := div_pos (by norm_num) (hcv x)
  have hscale (x : R) := mul_pos (hrate.trans_le hdraw) (hshape x)
  simp only [divide_of_ne_zero (hcv _).ne', divide_of_ne_zero (hscale _).ne', bind, Except.bind]
  refine ⟨_, rfl, ⟨_, _, rfl⟩, ?_, ?_⟩
  · exact hshape _
  · exact div_pos (by norm_num) (hscale _)

theorem drawArrays_describes (profile : Profile R) (hgen : gen.Lawful) {s : TickShape R}
    (hn : 0 < s.n) (hshape : 0 < s.shape) (hscale : 0 < s.scale) (rng : G) :
    ∃ packets gaps, (drawArrays gen profile s rng).1.Describes packets gaps ∧
      packets.length = s.n := by
  have hgaps := hgen.length_gamma s.shape s.scale s.n rng
  have hnonneg := hgen.gamma_nonneg s.shape s.scale s.n rng hshape hscale
  unfold drawArrays
  dsimp only
  generalize gen.gamma s.shape s.scale s.n rng = gaps at hgaps hnonneg ⊢
  have hmask := hgen.length_random s.n gaps.2
  generalize gen.random s.n gaps.2 = uniforms at hmask ⊢
  have houts := hgen.length_normal profile.out.1 profile.out.2 s.n uniforms.2
  generalize gen.normal profile.out.1 profile.out.2 s.n uniforms.2 = outs at houts ⊢
  have hinns := hgen.length_normal profile.inn.1 profile.inn.2 s.n outs.2
  generalize gen.normal profile.inn.1 profile.inn.2 s.n outs.2 = inns at hinns ⊢
  let mask := uniforms.1.map fun u => decide (u < s.pOut)
  have hlength : mask.length = s.n := by rw [List.length_map, hmask]
  have hsizes : ((choose mask outs.1 inns.1).map fun x => clip x 40.0 1500.0).length = s.n := by
    rw [List.length_map, length_choose (houts.trans hlength.symm) (hinns.trans hlength.symm),
      hlength]
  obtain ⟨packets, hsize, htime, hout⟩ := exists_packets
    ((length_cumsum gaps.1).trans (hgaps.trans hsizes.symm)) (hlength.trans hsizes.symm)
  have hpackets : packets.length = s.n := by
    rw [← hsizes, hsize, List.length_map]
  refine ⟨packets, gaps.1, ⟨hsize, htime, hout, ?_, ?_, rfl, hnonneg⟩, hpackets⟩
  · exact List.ne_nil_of_length_pos (by omega)
  · intro p hp
    have hmem : p.size ∈ (choose mask outs.1 inns.1).map fun x => clip x 40.0 1500.0 := by
      rw [hsize]
      exact List.mem_map_of_mem hp
    obtain ⟨x, _, hx⟩ := List.mem_map.1 hmem
    rw [← hx]
    exact clip_mem (by norm_num)

/-- A tick has as many packets as the generator counted, and one if it counted none. -/
theorem exists_simulateTick (hgen : gen.Lawful) (hprofile : profile.PositiveRate) (rng : G) :
    ∃ t packets gaps, simulateTick gen profile rng = .ok t ∧ t.1.Describes packets gaps ∧
      ∃ lam rng', packets.length = max (gen.poisson lam rng').1 1 := by
  obtain ⟨s, hs, ⟨lam, rng', hn⟩, hshape, hscale⟩ := exists_drawShape hgen hprofile rng
  have hpos : 0 < s.1.n := by
    rw [hn]
    exact lt_max_of_lt_right Nat.one_pos
  obtain ⟨packets, gaps, hdescribes, hlength⟩ :=
    drawArrays_describes profile hgen hpos hshape hscale s.2
  refine ⟨_, packets, gaps, ?_, hdescribes, lam, rng', hlength.trans hn⟩
  rw [simulateTick, hs]
  rfl

end Draws

/-! ## The loop -/

section Stream

omit [HasSqrt R] [HasLog10 R]

/-- The tick drawn next, and the generator after it. -/
def nextTick (gen : TickRng G R) (profile : Profile R) (rng : G) : SimulatedTick R × G :=
  match simulateTick gen profile rng with
  | .ok t => t
  | .error _ => (⟨[], [], []⟩, rng)

/-- The generator after `k` ticks. -/
def rngAfter (gen : TickRng G R) (profile : Profile R) (rng : G) (k : Nat) : G :=
  (fun g => (nextTick gen profile g).2)^[k] rng

def tickAt (gen : TickRng G R) (profile : Profile R) (rng : G) (k : Nat) : SimulatedTick R :=
  (nextTick gen profile (rngAfter gen profile rng k)).1

theorem rngAfter_succ (gen : TickRng G R) (profile : Profile R) (rng : G) (k : Nat) :
    rngAfter gen profile rng (k + 1) = (nextTick gen profile (rngAfter gen profile rng k)).2 :=
  Function.iterate_succ_apply' _ _ _

end Stream

/-- What the live layer makes of a tick. -/
def SimulatedTick.row (t : SimulatedTick R) : Option (Features R) :=
  match tickFeatures t.sizes t.times t.outbound tickSeconds with
  | .ok f => f
  | .error _ => none

section Loop

variable [IsStrictOrderedRing R] {gen : TickRng G R} {profile : Profile R}

theorem SimulatedTick.Describes.tickFeatures_eq {t : SimulatedTick R} {packets : List (Packet R)}
    {gaps : List R} (h : t.Describes packets gaps) :
    tickFeatures t.sizes t.times t.outbound tickSeconds =
      .ok (if packets.length < layer3MinPackets then none
        else some (features packets gaps.tail tickSeconds)) := by
  have hlength : t.times.length = packets.length := by rw [h.times, List.length_map]
  -- the times are sorted already, so the gaps are the ones that were drawn
  have hgaps : gapsOf t.times = gaps.tail := by
    have hsorted : t.times.SortedLE := by
      rw [h.times_eq]
      exact sortedLE_cumsum h.gaps_nonneg
    rw [gapsOf, hsorted.pairwise.insertionSort_eq, h.times_eq, diff_cumsum]
  rw [h.sizes, h.outbound]
  by_cases hfew : packets.length < layer3MinPackets
  · rw [tickFeatures_of_lt hfew, if_pos hfew]
  · have hseconds : (tickSeconds : R) ≠ 0 := by norm_num [tickSeconds]
    rw [tickFeatures_eq_divide (not_lt.1 hfew) hlength, divide_of_ne_zero hseconds, hgaps,
      if_neg hfew]
    rfl

theorem SimulatedTick.Describes.row_eq {t : SimulatedTick R} {packets : List (Packet R)}
    {gaps : List R} (h : t.Describes packets gaps) :
    t.row = if packets.length < layer3MinPackets then none
      else some (features packets gaps.tail tickSeconds) := by
  rw [SimulatedTick.row, h.tickFeatures_eq]

theorem SimulatedTick.Describes.within [LawfulSqrt R] {t : SimulatedTick R}
    {packets : List (Packet R)} {gaps : List R} (h : t.Describes packets gaps) {f : Features R}
    (hf : t.row = some f) : f.Within 40.0 1500.0 := by
  rw [h.row_eq] at hf
  split at hf
  · cases hf
  · cases hf
    exact features_within (by norm_num) h.ne_nil h.size_mem _ _

/-- The packet rate of a row is that of the tick, which is no sparse one. -/
theorem SimulatedTick.Describes.logPktRate_mem [LawfulLog10 R] {t : SimulatedTick R}
    {packets : List (Packet R)} {gaps : List R} (h : t.Describes packets gaps) {f : Features R}
    (hf : t.row = some f) :
    f.logPktRate = HasLog10.log10 (1 + (t.sizes.length : R) / tickSeconds) ∧
      HasLog10.log10 1.6 ≤ f.logPktRate ∧ 0 < f.logPktRate := by
  have hsizes : t.sizes.length = packets.length := by rw [h.sizes, List.length_map]
  rw [h.row_eq] at hf
  split at hf
  · cases hf
  rename_i hmany
  cases hf
  have hrate : (features packets gaps.tail tickSeconds).logPktRate =
      HasLog10.log10 (1 + (packets.length : R) / tickSeconds) := rfl
  -- three packets in five seconds are the least
  have hpackets : (3 : R) ≤ packets.length := by exact_mod_cast not_lt.1 hmany
  have hleast : (1.6 : R) ≤ 1 + (packets.length : R) / tickSeconds := by
    norm_num [tickSeconds]
    linarith
  have hlog : HasLog10.log10 1.6 ≤ HasLog10.log10 (1 + (packets.length : R) / tickSeconds) := by
    rcases hleast.eq_or_lt with heq | hlt
    · rw [heq]
    · exact (LawfulLog10.log10_lt _ _ (by norm_num) hlt).le
  have hpos : (0 : R) < HasLog10.log10 1.6 := by
    rw [← LawfulLog10.log10_one (R := R)]
    exact LawfulLog10.log10_lt _ _ one_pos (by norm_num)
  rw [hrate, hsizes]
  exact ⟨rfl, hlog, hpos.trans_le hlog⟩

omit [HasSqrt R] [HasLog10 R] in
theorem simulateTick_eq (hgen : gen.Lawful) (hprofile : profile.PositiveRate) (rng : G) :
    simulateTick gen profile rng = .ok (nextTick gen profile rng) := by
  obtain ⟨t, _, _, ht, -⟩ := exists_simulateTick hgen hprofile rng
  rw [nextTick, ht]

omit [HasSqrt R] [HasLog10 R] in
theorem tickAt_describes (hgen : gen.Lawful) (hprofile : profile.PositiveRate) (rng : G) (k : Nat) :
    ∃ packets gaps, (tickAt gen profile rng k).Describes packets gaps ∧
      ∃ lam rng', packets.length = max (gen.poisson lam rng').1 1 := by
  obtain ⟨t, packets, gaps, ht, hdescribes⟩ :=
    exists_simulateTick hgen hprofile (rngAfter gen profile rng k)
  refine ⟨packets, gaps, ?_⟩
  rw [tickAt, nextTick, ht]
  exact hdescribes

theorem tickFeatures_tickAt (hgen : gen.Lawful) (hprofile : profile.PositiveRate) (rng : G)
    (k : Nat) :
    let t := tickAt gen profile rng k
    tickFeatures t.sizes t.times t.outbound tickSeconds = .ok t.row := by
  intro t
  obtain ⟨_, _, hdescribes, _⟩ := tickAt_describes hgen hprofile rng k
  rw [hdescribes.row_eq, hdescribes.tickFeatures_eq]

/-- The ticks drawn first. -/
def ticksOf (gen : TickRng G R) (profile : Profile R) (rng : G) (k : Nat) :
    List (SimulatedTick R) :=
  drawn (fun j => [tickAt gen profile rng j]) k

omit [HasSqrt R] [HasLog10 R] [IsStrictOrderedRing R] in
theorem length_ticksOf (gen : TickRng G R) (profile : Profile R) (rng : G) (k : Nat) :
    (ticksOf gen profile rng k).length = k := by
  induction k with
  | zero => rfl
  | succ k ih =>
      rw [ticksOf, drawn_succ, List.length_append, List.length_singleton]
      exact congrArg Nat.succ ih

/-- What the loop holds after some ticks. -/
def gathered (gen : TickRng G R) (profile : Profile R) (rng : G) (ticks : List (SimulatedTick R)) :
    List (Features R) × G :=
  (ticks.filterMap SimulatedTick.row, rngAfter gen profile rng ticks.length)

/-- What it adds to that. -/
def gather (gen : TickRng G R) (profile : Profile R) (s : List (Features R) × G)
    (ticks : List (SimulatedTick R)) : List (Features R) × G :=
  (s.1 ++ ticks.filterMap SimulatedTick.row, rngAfter gen profile s.2 ticks.length)

omit [IsStrictOrderedRing R] in
theorem gather_gathered (rng : G) (xs ys : List (SimulatedTick R)) :
    gather gen profile (gathered gen profile rng xs) ys = gathered gen profile rng (xs ++ ys) := by
  have hrng : rngAfter gen profile (rngAfter gen profile rng xs.length) ys.length =
      rngAfter gen profile rng (xs.length + ys.length) := by
    rw [Nat.add_comm]
    exact (Function.iterate_add_apply _ _ _ _).symm
  rw [gather, gathered, gathered, hrng, List.filterMap_append, List.length_append]

/-- The loop draws until it has the rows asked for. -/
theorem featureMatrix_eq_drawUntil (hgen : gen.Lawful) (hprofile : profile.PositiveRate)
    (nTicks : Nat) (rng : G) (fuel k : Nat) :
    let s := gathered gen profile rng (ticksOf gen profile rng k)
    featureMatrix gen profile nTicks fuel s.1 s.2 =
      .ok (drawUntil (fun s => decide (nTicks ≤ s.1.length)) (gather gen profile)
        (fun j => [tickAt gen profile rng j]) fuel k s) := by
  induction fuel generalizing k with
  | zero =>
      intro s
      unfold featureMatrix drawUntil
      by_cases hmore : s.1.length < nTicks
      · rw [if_pos hmore, if_neg (by rw [decide_eq_true_eq]; omega)]
      · rw [if_neg hmore, if_pos (by rw [decide_eq_true_eq]; omega)]
  | succ fuel ih =>
      intro s
      unfold featureMatrix drawUntil
      by_cases hmore : s.1.length < nTicks
      · have hdraw : simulateTick gen profile s.2 = .ok (tickAt gen profile rng k,
            rngAfter gen profile rng (k + 1)) := by
          rw [simulateTick_eq hgen hprofile, rngAfter_succ, tickAt]
          exact congrArg (fun j => Except.ok (nextTick gen profile (rngAfter gen profile rng j)))
            (length_ticksOf gen profile rng k)
        have hnext : gather gen profile s [tickAt gen profile rng k] =
            gathered gen profile rng (ticksOf gen profile rng (k + 1)) := by
          rw [gather_gathered, ticksOf, ticksOf, drawn_succ]
        have hrows : s.1 ++ (tickAt gen profile rng k).row.toList =
            (gathered gen profile rng (ticksOf gen profile rng (k + 1))).1 := by
          rw [← hnext]
          cases h : (tickAt gen profile rng k).row <;> simp [gather, h]
        have hrng : rngAfter gen profile rng (k + 1) =
            (gathered gen profile rng (ticksOf gen profile rng (k + 1))).2 := by
          rw [gathered, length_ticksOf]
        rw [if_pos hmore, if_neg (by rw [decide_eq_true_eq]; omega), hnext, hdraw]
        simp only [bind, Except.bind, tickFeatures_tickAt hgen hprofile]
        rw [hrows, hrng]
        exact ih (k + 1)
      · rw [if_neg hmore, if_pos (by rw [decide_eq_true_eq]; omega)]

/-- The rows of the first `k` ticks. -/
def rowsOf (gen : TickRng G R) (profile : Profile R) (rng : G) (k : Nat) : List (Features R) :=
  (ticksOf gen profile rng k).filterMap SimulatedTick.row

omit [IsStrictOrderedRing R] in
theorem rowsOf_succ (gen : TickRng G R) (profile : Profile R) (rng : G) (k : Nat) :
    rowsOf gen profile rng (k + 1) =
      rowsOf gen profile rng k ++ (tickAt gen profile rng k).row.toList := by
  rw [rowsOf, ticksOf, drawn_succ, List.filterMap_append]
  cases h : (tickAt gen profile rng k).row <;> simp [rowsOf, ticksOf, h]

omit [IsStrictOrderedRing R] in
/-- A tick adds one row at most, so the loop never overshoots. -/
theorem length_rowsOf_eq {nTicks k : Nat} {rng : G}
    (hdone : nTicks ≤ (rowsOf gen profile rng k).length)
    (hfirst : ∀ j < k, (rowsOf gen profile rng j).length < nTicks) :
    (rowsOf gen profile rng k).length = nTicks := by
  cases k with
  | zero => exact Nat.le_antisymm (Nat.zero_le _) hdone
  | succ k =>
      have hbefore := hfirst k (Nat.lt_succ_self k)
      have hone : (tickAt gen profile rng k).row.toList.length ≤ 1 := by
        cases (tickAt gen profile rng k).row <;> simp
      rw [rowsOf_succ, List.length_append] at hdone ⊢
      omega

theorem featureMatrix_eq_some_iff (hgen : gen.Lawful) (hprofile : profile.PositiveRate)
    (nTicks fuel : Nat) (rng : G) (r : List (Features R) × G) :
    featureMatrix gen profile nTicks fuel [] rng = .ok (some r) ↔
      ∃ k ≤ fuel, (rowsOf gen profile rng k).length = nTicks ∧
        (∀ j < k, (rowsOf gen profile rng j).length < nTicks) ∧
        r = (rowsOf gen profile rng k, rngAfter gen profile rng k) := by
  have hloop := featureMatrix_eq_drawUntil hgen hprofile nTicks rng fuel 0
  have hdraws : drawUntil (fun s : List (Features R) × G => decide (nTicks ≤ s.1.length))
      (gather gen profile) (fun j => [tickAt gen profile rng j]) fuel 0
      (gathered gen profile rng []) = some r ↔
        ∃ k, FirstAt (fun j => [tickAt gen profile rng j])
          (fun ticks => nTicks ≤ (ticks.filterMap SimulatedTick.row).length) fuel k ∧
          r = gathered gen profile rng (ticksOf gen profile rng k) :=
    drawUntil_eq_some_iff (gather_gathered rng) (fun _ => decide_eq_true_iff) _ fuel r
  have hgathered : ∀ k, gathered gen profile rng (ticksOf gen profile rng k) =
      (rowsOf gen profile rng k, rngAfter gen profile rng k) := by
    intro k
    rw [gathered, length_ticksOf, rowsOf]
  have hstart : featureMatrix gen profile nTicks fuel [] rng = .ok (some r) ↔ _ :=
    (Eq.congr hloop rfl).trans (by rw [Except.ok.injEq])
  rw [hstart]
  refine hdraws.trans (exists_congr fun k => ?_)
  rw [hgathered]
  constructor
  · rintro ⟨⟨hfuel, hdone, hfirst⟩, hr⟩
    have hbefore : ∀ j < k, (rowsOf gen profile rng j).length < nTicks :=
      fun j hj => not_le.1 (hfirst j hj)
    exact ⟨hfuel, length_rowsOf_eq hdone hbefore, hbefore, hr⟩
  · rintro ⟨hfuel, hlength, hbefore, hr⟩
    exact ⟨⟨hfuel, hlength.ge, fun j hj => not_le.2 (hbefore j hj)⟩, hr⟩

theorem within_of_mem_rowsOf [LawfulSqrt R] (hgen : gen.Lawful) (hprofile : profile.PositiveRate)
    {rng : G} {k : Nat} {f : Features R} (hf : f ∈ rowsOf gen profile rng k) :
    f.Within 40.0 1500.0 := by
  obtain ⟨t, ht, hrow⟩ := List.mem_filterMap.1 hf
  obtain ⟨j, hj⟩ := mem_drawn ht
  obtain ⟨_, _, hdescribes, _⟩ := tickAt_describes hgen hprofile rng j
  rw [List.mem_singleton.1 hj] at hrow
  exact hdescribes.within hrow

/-- Where no tick is too sparse, every tick is a row. -/
theorem length_rowsOf_of_busy (hgen : gen.Lawful) (hprofile : profile.PositiveRate)
    (hbusy : ∀ lam rng, layer3MinPackets ≤ (gen.poisson lam rng).1) (rng : G) (k : Nat) :
    (rowsOf gen profile rng k).length = k := by
  induction k with
  | zero => rfl
  | succ k ih =>
      obtain ⟨packets, gaps, hdescribes, lam, rng', hlength⟩ := tickAt_describes hgen hprofile rng k
      have hmany : ¬ packets.length < layer3MinPackets := by
        have hcount := hbusy lam rng'
        omega
      rw [rowsOf_succ, hdescribes.row_eq, if_neg hmany, List.length_append, ih]
      rfl

end Loop

omit [HasSqrt R] [HasLog10 R] in
/-- No rate of the profiles is zero. -/
theorem positiveRate_of_mem [IsStrictOrderedRing R] {entry : String × Profile R}
    (h : entry ∈ benignProfiles ++ attackMixes) : entry.2.PositiveRate := by
  have hall : ∀ entry ∈ (benignProfiles ++ attackMixes : List (String × Profile R)),
      entry.2.PositiveRate := by
    unfold Profile.PositiveRate
    norm_num [benignProfiles, attackMixes]
  exact hall entry h

/-- Drawing never raises, and every tick drawn is one the live layer can reduce; the rows are those
of the first ticks it would judge, as many as asked for and in range, and no tick is drawn after the
last of them. -/
theorem training_rows_are_live_rows [IsStrictOrderedRing R] [LawfulSqrt R] [LawfulLog10 R]
    {gen : TickRng G R} (hgen : gen.Lawful) {name : String} {profile : Profile R}
    (hprofile : (name, profile) ∈ (benignProfiles ++ attackMixes : List (String × Profile R)))
    (nTicks fuel : Nat) (rng : G) :
    (∀ k, simulateTick gen profile (rngAfter gen profile rng k) =
      .ok (tickAt gen profile rng k, rngAfter gen profile rng (k + 1))) ∧
    (∀ k, let t := tickAt gen profile rng k
      tickFeatures t.sizes t.times t.outbound tickSeconds = .ok t.row ∧
        (t.row = none ↔ t.sizes.length < layer3MinPackets) ∧
        t.times.SortedLE ∧ (∀ x ∈ t.sizes, 40.0 ≤ x ∧ x ≤ 1500.0) ∧
        ∀ f, t.row = some f → f.Within 40.0 1500.0 ∧
          f.logPktRate = HasLog10.log10 (1 + (t.sizes.length : R) / tickSeconds) ∧
          HasLog10.log10 1.6 ≤ f.logPktRate ∧ 0 < f.logPktRate) ∧
    (∃ result, featureMatrix gen profile nTicks fuel [] rng = .ok result) ∧
    ∀ r, featureMatrix gen profile nTicks fuel [] rng = .ok (some r) ↔
      ∃ k ≤ fuel, (rowsOf gen profile rng k).length = nTicks ∧
        (∀ j < k, (rowsOf gen profile rng j).length < nTicks) ∧
        r = (rowsOf gen profile rng k, rngAfter gen profile rng k) := by
  have hrate := positiveRate_of_mem hprofile
  refine ⟨?_, ?_, ⟨_, featureMatrix_eq_drawUntil hgen hrate nTicks rng fuel 0⟩,
    featureMatrix_eq_some_iff hgen hrate nTicks fuel rng⟩
  · intro k
    rw [simulateTick_eq hgen hrate, rngAfter_succ]
    rfl
  · intro k t
    obtain ⟨packets, gaps, hdescribes, -⟩ := tickAt_describes hgen hrate rng k
    refine ⟨tickFeatures_tickAt hgen hrate rng k, ?_, ?_, ?_, ?_⟩
    · rw [hdescribes.row_eq, hdescribes.sizes, List.length_map]
      split
      · rename_i hfew
        exact iff_of_true rfl hfew
      · rename_i hmany
        exact iff_of_false (fun h => nomatch h) hmany
    · rw [hdescribes.times_eq]
      exact sortedLE_cumsum hdescribes.gaps_nonneg
    · rw [hdescribes.sizes, List.forall_mem_map]
      exact hdescribes.size_mem
    · intro f hf
      exact ⟨hdescribes.within hf, hdescribes.logPktRate_mem hf⟩

/-- Three or four packets a tick, a second apart, of the mean size and all outbound. -/
noncomputable def steadyRng : TickRng Nat ℝ where
  defaultRng seed := seed
  uniform low _ rng := (low, rng)
  poisson _ rng := (3 + rng % 2, rng + 1)
  gamma _ _ n rng := (List.replicate n 1, rng)
  random n rng := (List.replicate n 0, rng)
  normal loc _ n rng := (List.replicate n loc, rng)

theorem steadyRng_lawful : steadyRng.Lawful where
  uniform_mem low high _ hle := ⟨le_refl low, hle⟩
  gamma_nonneg _ _ n _ _ _ x hx := by
    rw [(List.mem_replicate.1 hx).2]
    exact zero_le_one
  length_gamma _ _ n _ := List.length_replicate
  length_random n _ := List.length_replicate
  length_normal _ _ n _ := List.length_replicate

theorem steadyRng_busy (lam : ℝ) (rng : Nat) :
    layer3MinPackets ≤ (steadyRng.poisson lam rng).1 :=
  Nat.le_add_right 3 (rng % 2)

/-- Two rows of one profile take two ticks. -/
theorem training_rows_of_steady_line :
    ∃ entry ∈ (benignProfiles ++ attackMixes : List (String × Profile ℝ)),
      ∃ r, featureMatrix steadyRng entry.2 2 2 [] 0 = .ok (some r) := by
  have hidle : ("idle", ⟨(1.0, 5.0), (0.8, 1.3), (0.4, 0.6), (120.0, 60.0), (150.0, 80.0)⟩) ∈
      (benignProfiles ++ attackMixes : List (String × Profile ℝ)) := List.mem_cons_self
  have hrows := length_rowsOf_of_busy steadyRng_lawful (positiveRate_of_mem hidle) steadyRng_busy 0
  refine ⟨_, hidle, _, ((training_rows_are_live_rows steadyRng_lawful hidle 2 2 0).2.2.2 _).2
    ⟨2, le_refl 2, hrows 2, ?_, rfl⟩⟩
  intro j hj
  rw [hrows j]
  exact hj

end Anomaly
end PqcVpn
