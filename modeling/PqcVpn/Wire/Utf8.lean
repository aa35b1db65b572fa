import PqcVpn.Basic.Bytes

/-!
# UTF-8 text on the wire

An `Error` message carries `String::as_bytes`, and the reader decodes it with
`String::from_utf8_lossy`.  `fromUtf8Lossy` follows the standard library's chunk iterator: a
well-formed sequence becomes its character, and every maximal ill-formed prefix becomes one
replacement character.
-/

namespace PqcVpn
namespace Wire

/-- `String::as_bytes`. -/
def asBytes (s : String) : List UInt8 :=
  s.toList.flatMap String.utf8EncodeChar

/-- U+FFFD, which stands for an ill-formed sequence. -/
def replacement : Char := Char.ofNat 0xFFFD

/-- A continuation byte `10xxxxxx`. -/
def isContinuation (b : UInt8) : Bool := b &&& 192 == 128

/-- Width of the sequence a lead byte announces, `0` when it cannot lead one. -/
def utf8CharWidth (b : UInt8) : Nat :=
  if b < 0x80 then 1
  else if b < 0xC2 then 0
  else if b < 0xE0 then 2
  else if b < 0xF0 then 3
  else if b < 0xF5 then 4
  else 0

/-- Second bytes allowed after a three-byte lead: no overlong form and no surrogate. -/
def secondOfThree (lead b : UInt8) : Bool :=
  if lead == 0xE0 then 0xA0 ≤ b && b ≤ 0xBF
  else if lead == 0xED then 0x80 ≤ b && b ≤ 0x9F
  else 0x80 ≤ b && b ≤ 0xBF

/-- Second bytes allowed after a four-byte lead: no overlong form, nothing past U+10FFFF. -/
def secondOfFour (lead b : UInt8) : Bool :=
  if lead == 0xF0 then 0x90 ≤ b && b ≤ 0xBF
  else if lead == 0xF4 then 0x80 ≤ b && b ≤ 0x8F
  else 0x80 ≤ b && b ≤ 0xBF

def assembleTwo (b₀ b₁ : UInt8) : Char :=
  Char.ofNat ((b₀.toNat % 32) * 64 + b₁.toNat % 64)

def assembleThree (b₀ b₁ b₂ : UInt8) : Char :=
  Char.ofNat (((b₀.toNat % 16) * 64 + b₁.toNat % 64) * 64 + b₂.toNat % 64)

def assembleFour (b₀ b₁ b₂ b₃ : UInt8) : Char :=
  Char.ofNat ((((b₀.toNat % 8) * 64 + b₁.toNat % 64) * 64 + b₂.toNat % 64) * 64 + b₃.toNat % 64)

/-- The characters `String::from_utf8_lossy` yields. -/
def lossyChars : List UInt8 → List Char
  | [] => []
  | b₀ :: t =>
      match utf8CharWidth b₀ with
      | 1 => Char.ofNat b₀.toNat :: lossyChars t
      | 2 =>
          match t with
          | [] => [replacement]
          | b₁ :: t₁ =>
              if isContinuation b₁ then assembleTwo b₀ b₁ :: lossyChars t₁
              else replacement :: lossyChars (b₁ :: t₁)
      | 3 =>
          match t with
          | [] => [replacement]
          | b₁ :: t₁ =>
              if secondOfThree b₀ b₁ then
                match t₁ with
                | [] => [replacement]
                | b₂ :: t₂ =>
                    if isContinuation b₂ then assembleThree b₀ b₁ b₂ :: lossyChars t₂
                    else replacement :: lossyChars (b₂ :: t₂)
              else replacement :: lossyChars (b₁ :: t₁)
      | 4 =>
          match t with
          | [] => [replacement]
          | b₁ :: t₁ =>
              if secondOfFour b₀ b₁ then
                match t₁ with
                | [] => [replacement]
                | b₂ :: t₂ =>
                    if isContinuation b₂ then
                      match t₂ with
                      | [] => [replacement]
                      | b₃ :: t₃ =>
                          if isContinuation b₃ then assembleFour b₀ b₁ b₂ b₃ :: lossyChars t₃
                          else replacement :: lossyChars (b₃ :: t₃)
                    else replacement :: lossyChars (b₂ :: t₂)
              else replacement :: lossyChars (b₁ :: t₁)
      | _ => replacement :: lossyChars t

/-- `String::from_utf8_lossy(bytes).into_owned()`. -/
def fromUtf8Lossy (bytes : List UInt8) : String := String.ofList (lossyChars bytes)

/-! ## A character's encoding reads back -/

theorem isContinuation_ofNat : ∀ k < 64, isContinuation (UInt8.ofNat (k + 0x80)) = true := by
  decide

theorem utf8CharWidth_one : ∀ k ≤ 0x7f, utf8CharWidth (UInt8.ofNat k) = 1 := by
  decide

theorem utf8CharWidth_two : ∀ k < 32, 2 ≤ k → utf8CharWidth (UInt8.ofNat (k + 0xc0)) = 2 := by
  decide

theorem utf8CharWidth_three : ∀ k < 16, utf8CharWidth (UInt8.ofNat (k + 0xe0)) = 3 := by
  decide

theorem utf8CharWidth_four : ∀ k < 5, utf8CharWidth (UInt8.ofNat (k + 0xf0)) = 4 := by
  decide

theorem secondOfThree_ofNat : ∀ k < 16, ∀ j < 64, (k = 0 → 32 ≤ j) → (k = 13 → j < 32) →
    secondOfThree (UInt8.ofNat (k + 0xe0)) (UInt8.ofNat (j + 0x80)) = true := by
  decide

theorem secondOfFour_ofNat : ∀ k < 5, ∀ j < 64, (k = 0 → 16 ≤ j) → (k = 4 → j < 16) →
    secondOfFour (UInt8.ofNat (k + 0xf0)) (UInt8.ofNat (j + 0x80)) = true := by
  decide

theorem toNat_ofNat_of_lt {k : Nat} (h : k < 256) : (UInt8.ofNat k).toNat = k := by
  rw [UInt8.toNat_ofNat', Nat.mod_eq_of_lt h]

theorem lossyChars_one {b₀ : UInt8} (h : utf8CharWidth b₀ = 1) (t : List UInt8) :
    lossyChars (b₀ :: t) = Char.ofNat b₀.toNat :: lossyChars t := by
  rw [lossyChars.eq_def]
  simp only [h]

theorem lossyChars_two {b₀ b₁ : UInt8} (h : utf8CharWidth b₀ = 2) (h₁ : isContinuation b₁ = true)
    (t : List UInt8) : lossyChars (b₀ :: b₁ :: t) = assembleTwo b₀ b₁ :: lossyChars t := by
  rw [lossyChars.eq_def]
  simp only [h, h₁, if_true]

theorem lossyChars_three {b₀ b₁ b₂ : UInt8} (h : utf8CharWidth b₀ = 3)
    (h₁ : secondOfThree b₀ b₁ = true) (h₂ : isContinuation b₂ = true) (t : List UInt8) :
    lossyChars (b₀ :: b₁ :: b₂ :: t) = assembleThree b₀ b₁ b₂ :: lossyChars t := by
  rw [lossyChars.eq_def]
  simp only [h, h₁, h₂, if_true]

theorem lossyChars_four {b₀ b₁ b₂ b₃ : UInt8} (h : utf8CharWidth b₀ = 4)
    (h₁ : secondOfFour b₀ b₁ = true) (h₂ : isContinuation b₂ = true)
    (h₃ : isContinuation b₃ = true) (t : List UInt8) :
    lossyChars (b₀ :: b₁ :: b₂ :: b₃ :: t) = assembleFour b₀ b₁ b₂ b₃ :: lossyChars t := by
  rw [lossyChars.eq_def]
  simp only [h, h₁, h₂, h₃, if_true]

/-- Reading the encoding of a character yields the character and goes on behind it. -/
theorem lossyChars_utf8EncodeChar (c : Char) (rest : List UInt8) :
    lossyChars (String.utf8EncodeChar c ++ rest) = c :: lossyChars rest := by
  have hvalid : c.toNat < 0xd800 ∨ (0xdfff < c.toNat ∧ c.toNat < 0x110000) := c.valid
  have hchar : ∀ n, n = c.toNat → Char.ofNat n = c := by
    intro n hn
    rw [hn, Char.ofNat_toNat]
  have hval : c.val.toNat = c.toNat := rfl
  unfold String.utf8EncodeChar
  simp only [hval]
  -- one case for each length of the encoding; the digits are taken apart and put together again
  generalize c.toNat = v at hvalid hchar ⊢
  split
  · rename_i h
    rw [List.singleton_append, lossyChars_one (utf8CharWidth_one v h),
      hchar _ (toNat_ofNat_of_lt (by omega))]
  · split
    · rename_i h₁ h₂
      have hlead := utf8CharWidth_two (v / 64 % 32) (by omega) (by omega)
      have hlast := isContinuation_ofNat (v % 64) (by omega)
      refine (lossyChars_two hlead hlast rest).trans ?_
      rw [assembleTwo, toNat_ofNat_of_lt (by omega), toNat_ofNat_of_lt (by omega),
        hchar _ (by omega)]
    · split
      · rename_i h₁ h₂ h₃
        have hlead := utf8CharWidth_three (v / 4096 % 16) (by omega)
        -- neither overlong nor a surrogate
        have hsecond := secondOfThree_ofNat (v / 4096 % 16) (by omega) (v / 64 % 64) (by omega)
          (by omega) (by omega)
        have hlast := isContinuation_ofNat (v % 64) (by omega)
        refine (lossyChars_three hlead hsecond hlast rest).trans ?_
        rw [assembleThree, toNat_ofNat_of_lt (by omega), toNat_ofNat_of_lt (by omega),
          toNat_ofNat_of_lt (by omega), hchar _ (by omega)]
      · rename_i h₁ h₂ h₃
        have hlead := utf8CharWidth_four (v / 262144 % 8) (by omega)
        have hsecond := secondOfFour_ofNat (v / 262144 % 8) (by omega) (v / 4096 % 64) (by omega)
          (by omega) (by omega)
        have hthird := isContinuation_ofNat (v / 64 % 64) (by omega)
        have hlast := isContinuation_ofNat (v % 64) (by omega)
        refine (lossyChars_four hlead hsecond hthird hlast rest).trans ?_
        rw [assembleFour, toNat_ofNat_of_lt (by omega), toNat_ofNat_of_lt (by omega),
          toNat_ofNat_of_lt (by omega), toNat_ofNat_of_lt (by omega), hchar _ (by omega)]

theorem lossyChars_flatMap (cs : List Char) :
    lossyChars (cs.flatMap String.utf8EncodeChar) = cs := by
  induction cs with
  | nil =>
      rw [List.flatMap_nil, lossyChars]
  | cons c cs ih =>
      rw [List.flatMap_cons, lossyChars_utf8EncodeChar, ih]

/-- Text survives the wire. -/
@[simp] theorem fromUtf8Lossy_asBytes (s : String) : fromUtf8Lossy (asBytes s) = s := by
  rw [fromUtf8Lossy, asBytes, lossyChars_flatMap, String.ofList_toList]

end Wire
end PqcVpn
