import Mathlib.Tactic.Common

/-!
# Base64 — the standard alphabet with canonical padding

Three bytes are four digits; a last group of one or two bytes is padded with `=` to four characters.
`decode` takes what `encode` writes and nothing else: padding must be there, and the bits of the
last digit beyond the last byte must be zero (`decode_eq_some_iff`).
-/

namespace Base64

def alphabet : List Char :=
  "ABCDEFGHIJKLMNOPQRSTUVWXYZabcdefghijklmnopqrstuvwxyz0123456789+/".toList

def digit (n : Nat) : Char := (alphabet[n]?).getD '='

def value (c : Char) : Option Nat := alphabet.idxOf? c

theorem value_digit : ∀ n < 64, value (digit n) = some n := by decide +kernel

theorem value_pad : value '=' = none := by decide

theorem value_eq_some {c : Char} {n : Nat} (h : value c = some n) : n < 64 ∧ digit n = c := by
  rw [value, List.idxOf?_eq_some_iff] at h
  rcases h with ⟨hn, hc, _⟩
  have hlen : alphabet.length = 64 := by decide
  refine ⟨hlen ▸ hn, ?_⟩
  rw [digit, List.getElem?_eq_getElem hn, Option.getD_some]
  simpa using hc

def encode : List UInt8 → List Char
  | [] => []
  | [a] => [digit (a.toNat / 4), digit (a.toNat % 4 * 16), '=', '=']
  | [a, b] =>
      [digit (a.toNat / 4), digit (a.toNat % 4 * 16 + b.toNat / 16), digit (b.toNat % 16 * 4), '=']
  | a :: b :: c :: rest =>
      digit (a.toNat / 4) :: digit (a.toNat % 4 * 16 + b.toNat / 16) ::
        digit (b.toNat % 16 * 4 + c.toNat / 64) :: digit (c.toNat % 64) :: encode rest

/-- Four digits are three bytes. -/
def three (p q r s : Char) : Option (List UInt8) := do
  let x ← value p
  let y ← value q
  let z ← value r
  let w ← value s
  return [.ofNat (x * 4 + y / 16), .ofNat (y % 16 * 16 + z / 4), .ofNat (z % 4 * 64 + w)]

def two (p q r : Char) : Option (List UInt8) := do
  let x ← value p
  let y ← value q
  let z ← value r
  if z % 4 = 0 then
    return [.ofNat (x * 4 + y / 16), .ofNat (y % 16 * 16 + z / 4)]
  else
    none

def one (p q : Char) : Option (List UInt8) := do
  let x ← value p
  let y ← value q
  if y % 16 = 0 then
    return [.ofNat (x * 4 + y / 16)]
  else
    none

/-- The last group, which may be padded. -/
def last (p q r s : Char) : Option (List UInt8) :=
  if s = '=' then
    if r = '=' then one p q else two p q r
  else
    three p q r s

def decode : List Char → Option (List UInt8)
  | [] => some []
  | [p, q, r, s] => last p q r s
  | p :: q :: r :: s :: rest => do
      let bytes ← three p q r s
      return bytes ++ (← decode rest)
  | _ => none

/-! ## Groups -/

theorem ofNat_eq {n : Nat} {a : UInt8} (h : n = a.toNat) : UInt8.ofNat n = a := by
  rw [h, UInt8.ofNat_toNat]

theorem digit_ne_pad {n : Nat} (h : n < 64) : digit n ≠ '=' := by
  intro hpad
  have hvalue := value_digit n h
  rw [hpad, value_pad] at hvalue
  cases hvalue

/-- Three bytes of the four digits they are written as. -/
theorem three_digits (a b c : UInt8) :
    three (digit (a.toNat / 4)) (digit (a.toNat % 4 * 16 + b.toNat / 16))
      (digit (b.toNat % 16 * 4 + c.toNat / 64)) (digit (c.toNat % 64)) = some [a, b, c] := by
  have ha := a.toNat_lt
  have hb := b.toNat_lt
  have hc := c.toNat_lt
  unfold three
  rw [value_digit _ (by omega), value_digit _ (by omega), value_digit _ (by omega),
    value_digit _ (by omega)]
  simp only [Option.bind_eq_bind, Option.bind_some, Option.pure_def, Option.some.injEq,
    List.cons.injEq, and_true]
  exact ⟨ofNat_eq (by omega), ofNat_eq (by omega), ofNat_eq (by omega)⟩

theorem two_digits (a b : UInt8) :
    two (digit (a.toNat / 4)) (digit (a.toNat % 4 * 16 + b.toNat / 16))
      (digit (b.toNat % 16 * 4)) = some [a, b] := by
  have ha := a.toNat_lt
  have hb := b.toNat_lt
  unfold two
  rw [value_digit _ (by omega), value_digit _ (by omega), value_digit _ (by omega)]
  simp only [Option.bind_eq_bind, Option.bind_some]
  rw [if_pos (by omega)]
  simp only [Option.pure_def, Option.some.injEq, List.cons.injEq, and_true]
  exact ⟨ofNat_eq (by omega), ofNat_eq (by omega)⟩

theorem one_digits (a : UInt8) :
    one (digit (a.toNat / 4)) (digit (a.toNat % 4 * 16)) = some [a] := by
  have ha := a.toNat_lt
  unfold one
  rw [value_digit _ (by omega), value_digit _ (by omega)]
  simp only [Option.bind_eq_bind, Option.bind_some]
  rw [if_pos (by omega)]
  simp only [Option.pure_def, Option.some.injEq, List.cons.injEq, and_true]
  exact ofNat_eq (by omega)

/-- A group of digits is what its bytes are written as. -/
theorem three_eq_some {p q r s : Char} {bytes : List UInt8} (h : three p q r s = some bytes) :
    ∃ a b c, bytes = [a, b, c] ∧ ∀ rest, encode (a :: b :: c :: rest) =
      p :: q :: r :: s :: encode rest := by
  simp only [three, Option.bind_eq_bind, Option.bind_eq_some_iff, Option.pure_def,
    Option.some.injEq] at h
  rcases h with ⟨x, hx, y, hy, z, hz, w, hw, rfl⟩
  rcases value_eq_some hx with ⟨hx64, rfl⟩
  rcases value_eq_some hy with ⟨hy64, rfl⟩
  rcases value_eq_some hz with ⟨hz64, rfl⟩
  rcases value_eq_some hw with ⟨hw64, rfl⟩
  refine ⟨_, _, _, rfl, fun rest => ?_⟩
  simp only [encode, UInt8.toNat_ofNat']
  refine congrArg₂ _ (congrArg digit (by omega)) ?_
  refine congrArg₂ _ (congrArg digit (by omega)) ?_
  refine congrArg₂ _ (congrArg digit (by omega)) ?_
  exact congrArg₂ _ (congrArg digit (by omega)) rfl

theorem two_eq_some {p q r : Char} {bytes : List UInt8} (h : two p q r = some bytes) :
    encode bytes = [p, q, r, '='] := by
  simp only [two, Option.bind_eq_bind, Option.bind_eq_some_iff, Option.pure_def] at h
  rcases h with ⟨x, hx, y, hy, z, hz, h⟩
  rcases value_eq_some hx with ⟨hx64, rfl⟩
  rcases value_eq_some hy with ⟨hy64, rfl⟩
  rcases value_eq_some hz with ⟨hz64, rfl⟩
  split at h
  · cases h
    simp only [encode, UInt8.toNat_ofNat']
    refine congrArg₂ _ (congrArg digit (by omega)) ?_
    refine congrArg₂ _ (congrArg digit (by omega)) ?_
    exact congrArg₂ _ (congrArg digit (by omega)) rfl
  · cases h

theorem one_eq_some {p q : Char} {bytes : List UInt8} (h : one p q = some bytes) :
    encode bytes = [p, q, '=', '='] := by
  simp only [one, Option.bind_eq_bind, Option.bind_eq_some_iff, Option.pure_def] at h
  rcases h with ⟨x, hx, y, hy, h⟩
  rcases value_eq_some hx with ⟨hx64, rfl⟩
  rcases value_eq_some hy with ⟨hy64, rfl⟩
  split at h
  · cases h
    simp only [encode, UInt8.toNat_ofNat']
    refine congrArg₂ _ (congrArg digit (by omega)) ?_
    exact congrArg₂ _ (congrArg digit (by omega)) rfl
  · cases h

theorem last_eq_some {p q r s : Char} {bytes : List UInt8} (h : last p q r s = some bytes) :
    encode bytes = [p, q, r, s] := by
  unfold last at h
  split at h
  · next hs =>
      subst hs
      split at h
      · next hr =>
          subst hr
          exact one_eq_some h
      · exact two_eq_some h
  · rcases three_eq_some h with ⟨a, b, c, rfl, hencode⟩
    exact hencode []

/-! ## Round trips -/

/-- A group of three bytes in front of others. -/
theorem decode_group (p q r s : Char) (rest : List Char) (hs : s ≠ '=') :
    decode (p :: q :: r :: s :: rest) = (three p q r s).bind fun bytes =>
      (decode rest).map (bytes ++ ·) := by
  cases rest with
  | nil =>
      change last p q r s = _
      rw [last, if_neg hs]
      cases three p q r s <;> simp [decode]
  | cons c cs =>
      rw [decode]
      · cases three p q r s <;> cases decode (c :: cs) <;> rfl
      · simp

theorem decode_encode (bytes : List UInt8) : decode (encode bytes) = some bytes := by
  -- three bytes at a time, as `encode` takes them
  induction bytes using encode.induct with
  | case1 => rfl
  | case2 a =>
      simp only [encode, decode, last, if_true]
      exact one_digits a
  | case3 a b =>
      have hb := b.toNat_lt
      simp only [encode, decode, last, if_true]
      rw [if_neg (digit_ne_pad (by omega))]
      exact two_digits a b
  | case4 a b c rest ih =>
      have hc := c.toNat_lt
      rw [encode, decode_group _ _ _ _ _ (digit_ne_pad (by omega)), three_digits, ih]
      rfl

theorem encode_decode {cs : List Char} {bytes : List UInt8} (h : decode cs = some bytes) :
    cs = encode bytes := by
  induction cs using decode.induct generalizing bytes with
  | case1 =>
      cases h
      rfl
  | case2 p q r s => exact (last_eq_some h).symm
  | case3 p q r s rest hrest ih =>
      rw [decode] at h
      · simp only [Option.bind_eq_bind, Option.bind_eq_some_iff, Option.pure_def,
          Option.some.injEq] at h
        rcases h with ⟨group, hgroup, tail, htail, rfl⟩
        rcases three_eq_some hgroup with ⟨a, b, c, rfl, hencode⟩
        rw [ih htail]
        exact (hencode tail).symm
      · exact hrest
  | case4 cs hnil hfour hmore =>
      rw [decode] at h
      · cases h
      · exact hnil
      · exact hfour
      · exact hmore

theorem decode_eq_some_iff {cs : List Char} {bytes : List UInt8} :
    decode cs = some bytes ↔ cs = encode bytes :=
  ⟨encode_decode, fun h => h ▸ decode_encode bytes⟩

/-- Every character written is a digit or padding. -/
theorem mem_encode {bytes : List UInt8} {c : Char} (h : c ∈ encode bytes) :
    c ∈ '=' :: alphabet := by
  have hdigit : ∀ n < 64, digit n ∈ '=' :: alphabet := by
    intro n hn
    have hlen : n < alphabet.length := hn
    rw [digit, List.getElem?_eq_getElem hlen]
    exact List.mem_cons_of_mem _ (List.getElem_mem hlen)
  have hpad : '=' ∈ '=' :: alphabet := List.mem_cons_self
  induction bytes using encode.induct with
  | case1 => cases h
  | case2 a =>
      have ha := a.toNat_lt
      simp only [encode, List.mem_cons, List.not_mem_nil, or_false] at h
      rcases h with rfl | rfl | rfl | rfl
      · exact hdigit _ (by omega)
      · exact hdigit _ (by omega)
      · exact hpad
      · exact hpad
  | case3 a b =>
      have ha := a.toNat_lt
      have hb := b.toNat_lt
      simp only [encode, List.mem_cons, List.not_mem_nil, or_false] at h
      rcases h with rfl | rfl | rfl | rfl
      · exact hdigit _ (by omega)
      · exact hdigit _ (by omega)
      · exact hdigit _ (by omega)
      · exact hpad
  | case4 a b c' rest ih =>
      have ha := a.toNat_lt
      have hb := b.toNat_lt
      have hc := c'.toNat_lt
      rw [encode] at h
      simp only [List.mem_cons] at h
      rcases h with rfl | rfl | rfl | rfl | h
      · exact hdigit _ (by omega)
      · exact hdigit _ (by omega)
      · exact hdigit _ (by omega)
      · exact hdigit _ (by omega)
      · exact ih h

end Base64
