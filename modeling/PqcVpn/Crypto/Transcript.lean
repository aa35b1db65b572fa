import PqcVpn.Crypto.HybridKem
import PqcVpn.Lib.PrefixFree

/-!
# Transcript — the signed bytes determine the handshake

The transcript concatenates its fields with no length prefixes, and the algorithm name it starts
with has a variable length.  The names are prefix-free, and once the name is known every later
field has a known length, so the whole layout is injective.
-/

namespace PqcVpn
namespace Crypto

open Wire (asBytes)

/-- The algorithm names as they enter the transcript. -/
def algorithmNames : Set (List UInt8) := {n | ∃ k : MlKemLevel, n = asBytes k.name}

theorem algorithmNames_inj {k l : MlKemLevel} (h : asBytes k.name <+: asBytes l.name) : k = l := by
  cases k <;> cases l <;> first | rfl | exact absurd h (by decide)

theorem algorithmNames_prefixFree : PrefixFree algorithmNames := by
  rintro _ ⟨k, rfl⟩ _ ⟨l, rfl⟩ h
  rw [algorithmNames_inj h]

/-- Fixed-size fields at the front of equal texts are equal. -/
theorem toList_append_inj {n : Nat} {a b : Bytes n} {x y : List UInt8}
    (h : a.toList ++ x = b.toList ++ y) : a = b ∧ x = y := by
  have hinj := (PrefixFree.of_length n).append_inj a.toList_length b.toList_length h
  exact ⟨Subtype.ext hinj.1, hinj.2⟩

/-- Equal transcripts of well-sized inputs have equal fields. -/
theorem buildHandshakeTranscriptFromBytes_inj {k l : MlKemLevel}
    {cn sn cx sx cn' sn' cx' sx' : Bytes 32} {mk ct mk' ct' : List UInt8}
    (hmk : mk.length = k.mlkemPubLen) (hmk' : mk'.length = l.mlkemPubLen)
    (h : buildHandshakeTranscriptFromBytes (asBytes k.name) cn sn cx mk sx ct =
      buildHandshakeTranscriptFromBytes (asBytes l.name) cn' sn' cx' mk' sx' ct') :
    k = l ∧ cn = cn' ∧ sn = sn' ∧ cx = cx' ∧ mk = mk' ∧ sx = sx' ∧ ct = ct' := by
  simp only [buildHandshakeTranscriptFromBytes, List.append_assoc, List.append_cancel_left_eq] at h
  rcases algorithmNames_prefixFree.append_inj ⟨k, rfl⟩ ⟨l, rfl⟩ h with ⟨hname, hrest⟩
  have hkl : k = l := algorithmNames_inj (hname ▸ List.prefix_rfl)
  subst hkl
  rcases toList_append_inj hrest with ⟨hcn, hrest₁⟩
  rcases toList_append_inj hrest₁ with ⟨hsn, hrest₂⟩
  rcases toList_append_inj hrest₂ with ⟨hcx, hrest₃⟩
  rcases (PrefixFree.of_length k.mlkemPubLen).append_inj hmk hmk' hrest₃ with ⟨hmkEq, hrest₄⟩
  rcases toList_append_inj hrest₄ with ⟨hsx, hct⟩
  exact ⟨rfl, hcn, hsn, hcx, hmkEq, hsx, hct⟩

/-- The two finish labels cannot be confused, whatever follows them. -/
theorem label_append_inj {t u : List UInt8} :
    labelClientFinished ++ t ≠ labelServerFinished ++ u := by
  intro h
  have hlen : labelClientFinished.length = labelServerFinished.length := by decide
  exact absurd (List.append_inj_left h hlen) (by decide)

end Crypto
end PqcVpn
