import PqcVpn.Basic.Bytes

/-!
# Ipv4Text — dotted decimal addresses

`Display` and `FromStr` of `std::net::Ipv4Addr`.  The parser takes one to three digits per octet,
with no leading zero, and nothing after the fourth octet.
-/

namespace PqcVpn
namespace Ipv4Addr

/-- An octet in decimal. -/
def octetChars (b : UInt8) : List Char := Nat.toDigits 10 b.toNat

/-- `ip.to_string()`. -/
def toText (ip : Ipv4Addr) : String :=
  String.ofList (octetChars (ip.octets.get 0) ++ '.' :: (octetChars (ip.octets.get 1) ++
    '.' :: (octetChars (ip.octets.get 2) ++ '.' :: octetChars ip.host)))

def readOctet (s : List Char) : Option (UInt8 × List Char) :=
  let digits := s.takeWhile Char.isDigit
  let value := Nat.ofDigitChars 10 digits 0
  if digits = [] ∨ digits.length > 3 ∨ (digits.head? = some '0' ∧ digits.length > 1) ∨
      value > 255 then
    none
  else
    some (UInt8.ofNat value, s.dropWhile Char.isDigit)

def readDot : List Char → Option (List Char)
  | '.' :: s => some s
  | _ => none

/-- `s.parse::<Ipv4Addr>()`. -/
def parse (s : String) : Option Ipv4Addr := do
  let (a, s) ← readOctet s.toList
  let (b, s) ← readOctet (← readDot s)
  let (c, s) ← readOctet (← readDot s)
  let (d, s) ← readOctet (← readDot s)
  if s = [] then some (new a b c d) else none

theorem octetChars_isDigit {b : UInt8} {c : Char} (h : c ∈ octetChars b) : c.isDigit = true :=
  Nat.isDigit_of_mem_toDigits (by decide) (by decide) h

theorem octetChars_leadingZero (b : UInt8) :
    ¬ ((octetChars b).head? = some '0' ∧ (octetChars b).length > 1) := by
  have h : ∀ n : Fin 256, ¬ ((Nat.toDigits 10 n.val).head? = some '0' ∧
      (Nat.toDigits 10 n.val).length > 1) := by decide +kernel
  exact h ⟨b.toNat, b.toNat_lt⟩

/-- An octet is read back, whatever follows it that is not a digit. -/
theorem readOctet_octetChars (b : UInt8) (rest : List Char)
    (hrest : ∀ c ∈ rest.head?, c.isDigit = false) :
    readOctet (octetChars b ++ rest) = some (b, rest) := by
  -- the scan stops where the octet does
  have htake : rest.takeWhile Char.isDigit = [] := by
    cases rest with
    | nil => rfl
    | cons c cs => simp [hrest c (by simp)]
  have hdrop : rest.dropWhile Char.isDigit = rest := by
    cases rest with
    | nil => rfl
    | cons c cs => simp [hrest c (by simp)]
  have hdigits : (octetChars b ++ rest).takeWhile Char.isDigit = octetChars b := by
    rw [List.takeWhile_append_of_pos fun c hc => octetChars_isDigit hc, htake, List.append_nil]
  have hremain : (octetChars b ++ rest).dropWhile Char.isDigit = rest := by
    rw [List.dropWhile_append_of_pos fun c hc => octetChars_isDigit hc, hdrop]
  have hvalue : Nat.ofDigitChars 10 (octetChars b) 0 = b.toNat := Nat.ofDigitChars_ten_toDigits
  -- the four guards of the parser: some digits, at most three, no leading zero, at most 255
  have hlen : (octetChars b).length ≤ 3 :=
    (Nat.length_toDigits_le_iff (by decide) (by decide)).2 (lt_trans b.toNat_lt (by decide))
  have hne : octetChars b ≠ [] := Nat.toDigits_ne_nil
  have hzero := octetChars_leadingZero b
  have hbound := b.toNat_lt
  unfold readOctet
  simp only [hdigits, hremain, hvalue]
  rw [if_neg]
  · simp
  · rintro (h | h | h | h)
    · exact hne h
    · omega
    · exact hzero h
    · omega

/-- Every address reads back from its text. -/
@[simp] theorem parse_toText (ip : Ipv4Addr) : parse ip.toText = some ip := by
  have hdot : ∀ (rest : List Char), ∀ c ∈ ('.' :: rest).head?, c.isDigit = false := by
    intro rest c hc
    cases hc
    decide
  have hlast : readOctet (octetChars ip.host) = some (ip.host, []) := by
    have h := readOctet_octetChars ip.host [] (by simp)
    rwa [List.append_nil] at h
  simp only [parse, toText, String.toList_ofList, readOctet_octetChars _ _ (hdot _), readDot, hlast,
    Option.bind_eq_bind, Option.bind_some, if_true, new_octets]

end Ipv4Addr
end PqcVpn
