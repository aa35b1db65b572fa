import PqcVpn.Lib.Collect
import PqcVpn.Server.Text

/-!
# Cidr — the tunnel network on the command line

`TunnelSettings::parse_cidr` of `server/handshake-server/src/tunnel.rs`: exactly which texts it
takes, and which error it gives for the others.
-/

namespace PqcVpn
namespace Server

/-- An octet of the tunnel network. -/
def parseOctet (o : List Char) : Except String UInt8 :=
  (parseUnsigned 256 (String.ofList o)).elim (.error "bad octet") fun n => .ok (.ofNat n)

/-- The octets of the tunnel network. -/
def parseOctets (addr : List Char) : Except String (Bytes 4) := do
  let octets ← (addr.splitOn '.').mapM parseOctet
  (Bytes.tryFrom 4 octets).elim (.error "expected 4 octets") .ok

/-- `TunnelSettings::parse_cidr`: `10.8.0.0/24`, and no other prefix than `/24`. -/
def TunnelSettings.parseCidr (cidr : String) : Except String (Bytes 4) := do
  let (addr, pre) ← (splitOnce '/' cidr.toList).elim (.error "expected addr/prefix") .ok
  if trim (String.ofList pre) ≠ "24" then
    throw "only /24 tunnel subnets are supported for now"
  parseOctets addr

/-! ## Octets -/

/-- The text of an octet: decimal digits, perhaps after a `+`, of a value below 256. -/
def OctetText (o : List Char) (v : UInt8) : Prop := parseUnsigned 256 (String.ofList o) = some v.toNat

theorem parseOctet_ok_iff {o : List Char} {v : UInt8} : parseOctet o = .ok v ↔ OctetText o v := by
  unfold parseOctet OctetText
  cases hparse : parseUnsigned 256 (String.ofList o) with
  | none => simp
  | some n =>
      have hlt : n < 256 := (parseUnsigned_eq_some hparse).1
      simp only [Option.elim_some, Except.ok.injEq, Option.some.injEq]
      constructor
      · rintro rfl
        rw [UInt8.toNat_ofNat']
        omega
      · rintro rfl
        exact UInt8.ofNat_toNat

theorem parseOctet_error_iff {o : List Char} {e : String} :
    parseOctet o = .error e ↔ (∀ v, ¬ OctetText o v) ∧ e = "bad octet" := by
  cases hoctet : parseOctet o with
  | ok v =>
      constructor
      · intro h
        cases h
      · rintro ⟨hno, _⟩
        exact absurd (parseOctet_ok_iff.1 hoctet) (hno v)
  | error e' =>
      have hbad : e' = "bad octet" := by
        unfold parseOctet at hoctet
        cases hparse : parseUnsigned 256 (String.ofList o) with
        | none => rw [hparse] at hoctet; cases hoctet; rfl
        | some n => rw [hparse] at hoctet; cases hoctet
      constructor
      · rintro h
        cases h
        refine ⟨fun v hv => ?_, hbad⟩
        rw [parseOctet_ok_iff.2 hv] at hoctet
        cases hoctet
      · rintro ⟨_, rfl⟩
        rw [hbad]

/-- No octet text holds one of the two separators. -/
theorem not_mem_octetText {o : List Char} {v : UInt8} (h : OctetText o v) {c : Char}
    (hc : c = '.' ∨ c = '/') : c ∉ o := by
  intro hmem
  have hchar := (parseUnsigned_eq_some h).2.2 c (by rwa [String.toList_ofList])
  rcases hc with rfl | rfl <;> revert hchar <;> decide

theorem octetText_octetChars (b : UInt8) : OctetText (Ipv4Addr.octetChars b) b := by
  have hvalue : Nat.ofDigitChars 10 (Ipv4Addr.octetChars b) 0 = b.toNat :=
    Nat.ofDigitChars_ten_toDigits
  have hlt : Nat.ofDigitChars 10 (Ipv4Addr.octetChars b) 0 < 256 := hvalue.symm ▸ b.toNat_lt
  have hparse := parseUnsigned_of_digits (Nat.toDigits_ne_nil (b := 10))
    (fun c hc => Ipv4Addr.octetChars_isDigit hc) hlt
  exact hparse.trans (congrArg some hvalue)

namespace TunnelSettings

theorem parseCidr_of_not_mem {cidr : String} (h : '/' ∉ cidr.toList) :
    parseCidr cidr = .error "expected addr/prefix" := by
  rw [parseCidr, splitOnce_eq_none_iff.2 h]
  rfl

/-- Past the slash, the prefix decides, then the octets. -/
theorem parseCidr_of_split {cidr : String} {addr pre : List Char}
    (h : cidr.toList = addr ++ '/' :: pre) (hnot : '/' ∉ addr) :
    parseCidr cidr = if trim (String.ofList pre) ≠ "24" then
        .error "only /24 tunnel subnets are supported for now"
      else
        parseOctets addr := by
  rw [parseCidr, splitOnce_eq_some_iff.2 ⟨h, hnot⟩]
  simp only [Option.elim_some, bind, Except.bind]
  by_cases hpre : trim (String.ofList pre) ≠ "24"
  · rw [if_pos hpre, if_pos hpre]
    rfl
  · rw [if_neg hpre, if_neg hpre]

/-- Either one of the texts is no octet, or they all are and their number decides. -/
theorem parseOctets_cases (addr : List Char) :
    (∃ o ∈ addr.splitOn '.', ∀ v, ¬ OctetText o v) ∧ parseOctets addr = .error "bad octet" ∨
      ∃ octets, List.Forall₂ OctetText (addr.splitOn '.') octets ∧
        parseOctets addr = (Bytes.tryFrom 4 octets).elim (.error "expected 4 octets") .ok := by
  unfold parseOctets
  cases hmap : (addr.splitOn '.').mapM parseOctet with
  | error e =>
      rcases Collect.mapM_eq_error_iff.1 hmap with ⟨before, o, after, hsplit, _, hbad⟩
      rcases parseOctet_error_iff.1 hbad with ⟨hno, rfl⟩
      exact .inl ⟨⟨o, by rw [hsplit]; simp, hno⟩, rfl⟩
  | ok octets =>
      have hall := Collect.mapM_eq_ok_iff.1 hmap
      exact .inr ⟨octets, hall.imp fun _ _ => parseOctet_ok_iff.1, rfl⟩

theorem exists_octet {texts : List (List Char)} {octets : List UInt8}
    (h : List.Forall₂ OctetText texts octets) : ∀ o ∈ texts, ∃ v, OctetText o v := by
  intro o ho
  rcases List.forall₂_iff_get.1 h with ⟨hlen, hget⟩
  rcases List.mem_iff_get.1 ho with ⟨i, rfl⟩
  exact ⟨_, hget i i.2 (hlen ▸ i.2)⟩

theorem parseOctets_ok_iff {addr : List Char} {base : Bytes 4} :
    parseOctets addr = .ok base ↔ List.Forall₂ OctetText (addr.splitOn '.') base.toList := by
  rcases parseOctets_cases addr with ⟨⟨o, ho, hno⟩, hbad⟩ | ⟨octets, hall, hlen⟩
  · rw [hbad]
    constructor
    · intro h
      cases h
    · intro h
      rcases exists_octet h o ho with ⟨v, hv⟩
      exact absurd hv (hno v)
  · rw [hlen]
    constructor
    · intro h
      cases hfour : Bytes.tryFrom 4 octets with
      | none => rw [hfour] at h; cases h
      | some base' =>
          rw [hfour] at h
          cases h
          exact Bytes.tryFrom_eq_some_iff.1 hfour ▸ hall
    · intro h
      have hunique : Relator.RightUnique OctetText := by
        intro o v w hv hw
        exact UInt8.toNat_inj.1 (Option.some.inj (hv.symm.trans hw))
      have hsame : octets = base.toList := hunique.forall₂ hall h
      rw [hsame, Bytes.tryFrom_toList]
      rfl

theorem parseOctets_error_iff {addr : List Char} :
    (parseOctets addr = .error "bad octet" ↔ ∃ o ∈ addr.splitOn '.', ∀ v, ¬ OctetText o v) ∧
      (parseOctets addr = .error "expected 4 octets" ↔
        (∀ o ∈ addr.splitOn '.', ∃ v, OctetText o v) ∧ (addr.splitOn '.').length ≠ 4) ∧
      parseOctets addr ≠ .error "only /24 tunnel subnets are supported for now" ∧
      parseOctets addr ≠ .error "expected addr/prefix" := by
  have htexts : (Except.error "bad octet" : Except String (Bytes 4)) ≠ .error "expected 4 octets" :=
    by decide
  rcases parseOctets_cases addr with ⟨⟨o, ho, hno⟩, hbad⟩ | ⟨octets, hall, hlen⟩
  · rw [hbad]
    refine ⟨⟨fun _ => ⟨o, ho, hno⟩, fun _ => rfl⟩, ?_, by decide, by decide⟩
    constructor
    · intro h
      exact absurd h htexts
    · rintro ⟨hoctets, _⟩
      rcases hoctets o ho with ⟨v, hv⟩
      exact absurd hv (hno v)
  · have hoctets := exists_octet hall
    have hnotBad : ¬ ∃ o ∈ addr.splitOn '.', ∀ v, ¬ OctetText o v := by
      rintro ⟨o, ho, hno⟩
      rcases hoctets o ho with ⟨v, hv⟩
      exact hno v hv
    rw [hlen, hall.length_eq]
    by_cases hfour : octets.length = 4
    · have hsome : Bytes.tryFrom 4 octets = some ⟨octets, hfour⟩ := dif_pos hfour
      rw [hsome]
      refine ⟨⟨?_, fun h => absurd h hnotBad⟩, ⟨?_, fun h => absurd hfour h.2⟩, ?_, ?_⟩
      all_goals
        intro h
        cases h
    · have hnone : Bytes.tryFrom 4 octets = none := dif_neg hfour
      rw [hnone]
      refine ⟨⟨fun h => absurd h.symm htexts, fun h => absurd h hnotBad⟩,
        ⟨fun _ => ⟨hoctets, hfour⟩, fun _ => rfl⟩, ?_, ?_⟩
      · exact fun h => absurd (Except.error.inj h) (by decide)
      · exact fun h => absurd (Except.error.inj h) (by decide)

theorem splitOn_of_octets {texts : List (List Char)} {base : List UInt8}
    (h : List.Forall₂ OctetText texts base) (hne : base ≠ []) :
    (['.'].intercalate texts).splitOn '.' = texts ∧ '/' ∉ ['.'].intercalate texts := by
  have htext := exists_octet h
  have hsome : texts ≠ [] := by
    rintro rfl
    cases h
    exact hne rfl
  refine ⟨List.splitOn_intercalate '.' ?_ hsome, fun hmem => ?_⟩
  · intro o ho
    rcases htext o ho with ⟨v, hv⟩
    exact not_mem_octetText hv (.inl rfl)
  · rcases mem_intercalate hmem with hdot | ⟨o, ho, hslash⟩
    · cases hdot
    · rcases htext o ho with ⟨v, hv⟩
      exact not_mem_octetText hv (.inr rfl) hslash

theorem toList_toText_cidr (ip : Ipv4Addr) : (ip.toText ++ "/24").toList =
    ['.'].intercalate (ip.octets.toList.map Ipv4Addr.octetChars) ++ '/' :: ['2', '4'] := by
  rcases ip with ⟨⟨octets, hlen⟩⟩
  match octets, hlen with
  | [a, b, c, d], hfour =>
      have htext : (Ipv4Addr.toText ⟨⟨[a, b, c, d], hfour⟩⟩).toList =
          Ipv4Addr.octetChars a ++ '.' :: (Ipv4Addr.octetChars b ++ '.' ::
            (Ipv4Addr.octetChars c ++ '.' :: Ipv4Addr.octetChars d)) := String.toList_ofList
      rw [String.toList_append, htext]
      simp [List.intercalate_cons_cons]

/-- Either there is no slash, or the first one tells the address from the prefix. -/
theorem slash_cases (cs : List Char) :
    '/' ∉ cs ∨ ∃ addr pre, cs = addr ++ '/' :: pre ∧ '/' ∉ addr := by
  by_cases hmem : '/' ∈ cs
  · exact .inr (List.eq_append_cons_of_mem hmem)
  · exact .inl hmem

theorem parseCidr_ok_iff {cidr : String} {base : Bytes 4} :
    parseCidr cidr = .ok base ↔ ∃ texts pre,
      cidr.toList = ['.'].intercalate texts ++ '/' :: pre ∧ trim (String.ofList pre) = "24" ∧
        List.Forall₂ OctetText texts base.toList := by
  constructor
  · intro h
    rcases slash_cases cidr.toList with hnone | ⟨addr, pre, hcidr, hnot⟩
    · rw [parseCidr_of_not_mem hnone] at h
      cases h
    · rw [parseCidr_of_split hcidr hnot] at h
      by_cases hpre : trim (String.ofList pre) ≠ "24"
      · rw [if_pos hpre] at h
        cases h
      · rw [if_neg hpre, parseOctets_ok_iff] at h
        refine ⟨addr.splitOn '.', pre, ?_, not_not.1 hpre, h⟩
        rw [List.intercalate_splitOn]
        exact hcidr
  · rintro ⟨texts, pre, hcidr, hpre, htexts⟩
    have hne : base.toList ≠ [] := List.ne_nil_of_length_pos (by simp)
    rcases splitOn_of_octets htexts hne with ⟨hsplit, hslash⟩
    rw [parseCidr_of_split hcidr hslash, if_neg fun h => h hpre, parseOctets_ok_iff, hsplit]
    exact htexts

theorem parseCidr_no_slash_iff {cidr : String} :
    parseCidr cidr = .error "expected addr/prefix" ↔ '/' ∉ cidr.toList := by
  constructor
  · intro h
    rcases slash_cases cidr.toList with hnone | ⟨addr, pre, hcidr, hnot⟩
    · exact hnone
    · rw [parseCidr_of_split hcidr hnot] at h
      by_cases hpre : trim (String.ofList pre) ≠ "24"
      · rw [if_pos hpre] at h
        exact absurd (Except.error.inj h) (by decide)
      · rw [if_neg hpre] at h
        exact absurd h parseOctets_error_iff.2.2.2
  · exact parseCidr_of_not_mem

/-- `parse_cidr` takes four octets with dots between them, each a decimal number below 256 that may
have a sign and leading zeros, then a slash and `24` with white space around it.  The four errors
are told apart in this order: no slash, another prefix, an octet that is no number, another number
of octets.  What `Display` writes of an address is read back. -/
theorem cidr_exact (cidr : String) :
    (∀ base, parseCidr cidr = .ok base ↔ ∃ texts pre,
      cidr.toList = ['.'].intercalate texts ++ '/' :: pre ∧ trim (String.ofList pre) = "24" ∧
        List.Forall₂ OctetText texts base.toList) ∧
    (parseCidr cidr = .error "expected addr/prefix" ↔ '/' ∉ cidr.toList) ∧
    (∀ addr pre, cidr.toList = addr ++ '/' :: pre → '/' ∉ addr →
      (parseCidr cidr = .error "only /24 tunnel subnets are supported for now" ↔
        trim (String.ofList pre) ≠ "24") ∧
      (trim (String.ofList pre) = "24" →
        (parseCidr cidr = .error "bad octet" ↔
          ∃ o ∈ addr.splitOn '.', ∀ v, ¬ OctetText o v) ∧
        (parseCidr cidr = .error "expected 4 octets" ↔
          (∀ o ∈ addr.splitOn '.', ∃ v, OctetText o v) ∧ (addr.splitOn '.').length ≠ 4))) ∧
    ∀ ip : Ipv4Addr, parseCidr (ip.toText ++ "/24") = .ok ip.octets := by
  refine ⟨fun base => parseCidr_ok_iff, parseCidr_no_slash_iff, ?_, ?_⟩
  · intro addr pre hcidr hnot
    rw [parseCidr_of_split hcidr hnot]
    refine ⟨⟨fun h => ?_, fun hpre => if_pos hpre⟩, fun hpre => ?_⟩
    · by_contra hpre
      rw [if_neg fun h' => h' hpre] at h
      exact parseOctets_error_iff.2.2.1 h
    · rw [if_neg fun h => h hpre]
      exact ⟨parseOctets_error_iff.1, parseOctets_error_iff.2.1⟩
  · intro ip
    have htexts : List.Forall₂ OctetText (ip.octets.toList.map Ipv4Addr.octetChars)
        ip.octets.toList := by
      rw [List.forall₂_map_left_iff, List.forall₂_same]
      exact fun b _ => octetText_octetChars b
    have hpre : trim (String.ofList ['2', '4']) = "24" :=
      trim_of_forall (List.forall_mem_cons.2 ⟨rfl, List.forall_mem_singleton.2 rfl⟩)
    exact parseCidr_ok_iff.2 ⟨_, _, toList_toText_cidr ip, hpre, htexts⟩

end TunnelSettings

end Server
end PqcVpn
