import Mathlib.Data.Vector.Basic
import Mathlib.Tactic.Common

/-!
# Bytes — fixed-size byte arrays, addresses and clock readings

The values every other module is built from:

- `Bytes n`     : a Rust `[u8; n]`,
- `Ipv4Addr`    : `std::net::Ipv4Addr`,
- `SystemTime`  : `std::time::SystemTime` as Linux stores it (signed 64-bit seconds plus
  nanoseconds), so that a value outside the representable range cannot be built,
- `Duration`    : `std::time::Duration`, in nanoseconds.
-/

namespace PqcVpn

/-- A Rust byte array `[u8; n]`. -/
abbrev Bytes (n : Nat) : Type := List.Vector UInt8 n

namespace Bytes

/-- The array literal `[b; n]`. -/
abbrev replicate (n : Nat) (b : UInt8) : Bytes n := List.Vector.replicate n b

/-- `<[u8; n]>::try_from(slice)`. -/
def tryFrom (n : Nat) (s : List UInt8) : Option (Bytes n) :=
  if h : s.length = n then some ⟨s, h⟩ else none

theorem tryFrom_eq_some_iff {n : Nat} {s : List UInt8} {b : Bytes n} :
    tryFrom n s = some b ↔ s = b.toList := by
  unfold tryFrom
  constructor
  · intro h
    split at h
    · cases h
      rfl
    · cases h
  · rintro rfl
    have hlen : b.toList.length = n := b.toList_length
    simp only [hlen, dite_true]
    rfl

@[simp] theorem tryFrom_toList {n : Nat} (b : Bytes n) : tryFrom n b.toList = some b :=
  tryFrom_eq_some_iff.2 rfl

end Bytes

/-! ## Addresses -/

/-- `std::net::Ipv4Addr`: four octets in network order. -/
structure Ipv4Addr where
  octets : Bytes 4
  deriving DecidableEq

namespace Ipv4Addr

/-- `Ipv4Addr::new(a, b, c, d)`. -/
def new (a b c d : UInt8) : Ipv4Addr := ⟨⟨[a, b, c, d], rfl⟩⟩

/-- The index literals of four octets. -/
instance neZero_four : @NeZero Nat Zero.ofOfNat0 4 := ⟨by decide⟩

/-- The last octet, `octets()[3]`. -/
def host (ip : Ipv4Addr) : UInt8 := ip.octets.get 3

theorem new_octets (ip : Ipv4Addr) :
    new (ip.octets.get 0) (ip.octets.get 1) (ip.octets.get 2) ip.host = ip := by
  rcases ip with ⟨⟨l, hl⟩⟩
  match l, hl with
  | [_, _, _, _], _ => rfl

end Ipv4Addr

/-! ## Time -/

/-- `std::time::Duration`, in nanoseconds. -/
abbrev Duration : Type := Nat

/-- `Duration::from_secs`. -/
def Duration.fromSecs (secs : Nat) : Duration := secs * 1000000000

/-- `Duration::as_secs`: whole seconds, rounded down. -/
def Duration.asSecs (d : Duration) : Nat := d / 1000000000

/-- `std::time::SystemTime` on Linux: nanoseconds since the Unix epoch, whose whole seconds fit
a signed 64-bit integer. -/
structure SystemTime where
  nanos : Int
  lower : -(2 ^ 63 * 1000000000) ≤ nanos
  upper : nanos < 2 ^ 63 * 1000000000
  deriving DecidableEq

namespace SystemTime

@[ext] theorem ext {s t : SystemTime} (h : s.nanos = t.nanos) : s = t := by
  cases s
  cases t
  simp_all

/-- `UNIX_EPOCH`. -/
def unixEpoch : SystemTime := ⟨0, by decide, by decide⟩

/-- `now.duration_since(earlier)`: `none` is the `Err` of a later `earlier`. -/
def durationSince (now earlier : SystemTime) : Option Duration :=
  if earlier.nanos ≤ now.nanos then some (now.nanos - earlier.nanos).toNat else none

/-- `self + d`, where `none` is the panic on overflow. -/
def checkedAdd (t : SystemTime) (d : Duration) : Option SystemTime :=
  if h : t.nanos + d < 2 ^ 63 * 1000000000 then
    some ⟨t.nanos + d, by have := t.lower; omega, h⟩
  else
    none

/-- Whether more than `timeout` has passed from `earlier` to `now`: the filter
`now.duration_since(earlier).map(|d| d > timeout).unwrap_or(false)`. -/
def olderThan (now earlier : SystemTime) (timeout : Duration) : Bool :=
  ((now.durationSince earlier).map fun d => decide (d > timeout)).getD false

theorem olderThan_iff {now earlier : SystemTime} {timeout : Duration} :
    now.olderThan earlier timeout = true ↔ earlier.nanos + timeout < now.nanos := by
  unfold olderThan durationSince
  split
  · simp only [Option.map_some, Option.getD_some, decide_eq_true_eq, gt_iff_lt, Int.lt_toNat]
    omega
  · simp only [Option.map_none, Option.getD_none, Bool.false_eq_true, false_iff]
    omega

end SystemTime

end PqcVpn
