import Orb8.GrpcServer

/-!
# Addresses as text

`DottedQuad` is the grammar that `parseIpv4` is meant to accept. It does accept it, with the right
address; but since parts that are no numbers are dropped before they are counted, and a number may have
a plus sign, it accepts more. What `formatIpv4` writes is in the grammar, so rendering an address is
faithful, and with it every row that shows one.
-/

namespace Orb8
open Bytes Text

/-- A decimal number from 0 to 255, written with digits only. -/
structure IsOctet (part : List Char) (o : UInt8) : Prop where
  digits : IsDigits part
  value : decimal part = o.toNat

/-- Four octets joined by dots, the first one in the least significant byte of the address. -/
def DottedQuad (s : String) (ip : UInt32) : Prop :=
  ∃ parts a b c d, s.toList = ['.'].intercalate parts ∧ List.Forall₂ IsOctet parts [a, b, c, d] ∧
    ip = fromLeBytes a b c d

/-- If four of the parts read as octets, then there is no other part and no sign. -/
def CleanParts (s : String) : Prop :=
  ((s.toList.splitOn '.').filterMap parseU8).length = 4 → ∀ part ∈ s.toList.splitOn '.', ∃ o, IsOctet part o

section
variable {part : List Char} {parts : List (List Char)} {o : UInt8} {os : List UInt8} {s : String} {ip : UInt32}

/-! ### Octets -/

theorem parseU8_eq_some_iff : parseU8 part = some o ↔
    IsDigits (unsignedDigits part) ∧ decimal (unsignedDigits part) = o.toNat := by
  have ho : o.toNat < 256 := o.toNat_lt
  constructor
  · intro h
    obtain ⟨n, hn, rfl⟩ := Option.map_eq_some_iff.1 h
    obtain ⟨hdigits, hvalue, hle⟩ := parseUint_eq_some_iff.1 hn
    refine ⟨hdigits, ?_⟩
    rw [hvalue, UInt8.toNat_ofNat_of_lt' (show n < UInt8.size from Nat.lt_succ_of_le hle)]
  · rintro ⟨hdigits, hvalue⟩
    have hn : parseUint 255 part = some o.toNat := parseUint_eq_some_iff.2 ⟨hdigits, hvalue, by omega⟩
    rw [parseU8, hn, Option.map_some, UInt8.ofNat_toNat]

theorem IsOctet.parseU8 (h : IsOctet part o) : parseU8 part = some o := by
  rw [parseU8_eq_some_iff, unsignedDigits_of_isDigits h.digits]
  exact ⟨h.digits, h.value⟩

theorem IsOctet.notMem_dot (h : IsOctet part o) : '.' ∉ part := fun hdot =>
  absurd (h.digits.2 '.' hdot) (by decide)

theorem filterMap_parseU8 (h : List.Forall₂ IsOctet parts os) : parts.filterMap parseU8 = os := by
  induction h with
  | nil => rfl
  | cons hpart _ ih => rw [List.filterMap_cons_some hpart.parseU8, ih]

theorem exists_octets (h : ∀ part ∈ parts, ∃ o, IsOctet part o) : ∃ os, List.Forall₂ IsOctet parts os := by
  induction parts with
  | nil => exact ⟨[], .nil⟩
  | cons part parts ih =>
    obtain ⟨o, ho⟩ := h part List.mem_cons_self
    obtain ⟨os, hos⟩ := ih fun q hq => h q (List.mem_cons_of_mem part hq)
    exact ⟨o :: os, .cons ho hos⟩

theorem octet_of_mem (h : List.Forall₂ IsOctet parts os) : ∀ part ∈ parts, ∃ o, IsOctet part o := by
  induction h with
  | nil => simp
  | cons hpart _ ih =>
    intro q hq
    rcases List.mem_cons.1 hq with rfl | hq
    · exact ⟨_, hpart⟩
    · exact ih q hq

/-! ### What is accepted -/

theorem parseIpv4_eq_some_iff : parseIpv4 s = some ip ↔
    ∃ a b c d, (s.toList.splitOn '.').filterMap parseU8 = [a, b, c, d] ∧ ip = fromLeBytes a b c d := by
  unfold parseIpv4
  split
  · rename_i a b c d heq
    constructor
    · intro h
      exact ⟨a, b, c, d, heq, (Option.some.inj h).symm⟩
    · rintro ⟨a', b', c', d', heq', rfl⟩
      obtain ⟨rfl, rfl, rfl, rfl⟩ : a = a' ∧ b = b' ∧ c = c' ∧ d = d' := by simpa using heq.symm.trans heq'
      rfl
  · rename_i hne
    refine iff_of_false (fun h => nomatch h) ?_
    rintro ⟨a, b, c, d, heq, -⟩
    exact hne a b c d heq

theorem DottedQuad.splitOn (h : DottedQuad s ip) : ∃ a b c d,
    List.Forall₂ IsOctet (s.toList.splitOn '.') [a, b, c, d] ∧ ip = fromLeBytes a b c d := by
  obtain ⟨parts, a, b, c, d, hs, hparts, rfl⟩ := h
  refine ⟨a, b, c, d, ?_, rfl⟩
  have hne : parts ≠ [] := by
    rintro rfl
    cases hparts
  have hdot : ∀ part ∈ parts, '.' ∉ part := by
    intro part hpart
    obtain ⟨o, ho⟩ := octet_of_mem hparts part hpart
    exact ho.notMem_dot
  rwa [hs, List.splitOn_intercalate '.' hdot hne]

theorem DottedQuad.parseIpv4 (h : DottedQuad s ip) : parseIpv4 s = some ip := by
  obtain ⟨a, b, c, d, hparts, rfl⟩ := h.splitOn
  exact parseIpv4_eq_some_iff.2 ⟨a, b, c, d, filterMap_parseU8 hparts, rfl⟩

/-- `parse_ipv4` accepts a string exactly as a dotted quad, unless four of its parts read as octets and
there is another part, or a sign. -/
theorem parseIpv4_dottedQuad_iff (s : String) :
    (∀ ip, parseIpv4 s = some ip ↔ DottedQuad s ip) ↔ CleanParts s := by
  constructor
  · intro h hfour
    obtain ⟨a, b, c, d, hparts⟩ : ∃ a b c d, (s.toList.splitOn '.').filterMap parseU8 = [a, b, c, d] := by
      revert hfour
      generalize (s.toList.splitOn '.').filterMap parseU8 = os
      intro hfour
      exact List.length_eq_four.1 hfour
    have hquad := (h _).1 (parseIpv4_eq_some_iff.2 ⟨a, b, c, d, hparts, rfl⟩)
    obtain ⟨a', b', c', d', hoctets, -⟩ := hquad.splitOn
    exact octet_of_mem hoctets
  · intro hclean ip
    refine ⟨fun h => ?_, DottedQuad.parseIpv4⟩
    obtain ⟨a, b, c, d, hparts, rfl⟩ := parseIpv4_eq_some_iff.1 h
    obtain ⟨os, hos⟩ := exists_octets (hclean (by rw [hparts]; rfl))
    rw [filterMap_parseU8 hos] at hparts
    subst hparts
    exact ⟨_, a, b, c, d, (List.intercalate_splitOn '.').symm, hos, rfl⟩

/-- A part that is no number is passed over, and a sign is accepted. -/
theorem not_parseIpv4_dottedQuad : ¬ (∀ ip, parseIpv4 "1.2.x.3.4" = some ip ↔ DottedQuad "1.2.x.3.4" ip) ∧
    ¬ (∀ ip, parseIpv4 "+1.2.3.4" = some ip ↔ DottedQuad "+1.2.3.4" ip) := by
  constructor
  · intro h
    obtain ⟨a, b, c, d, hparts, -⟩ := ((h 0x04030201).1 (by decide)).splitOn
    exact absurd hparts.length_eq (show ¬ 5 = 4 by decide)
  · intro h
    obtain ⟨a, b, c, d, hparts, -⟩ := ((h 0x04030201).1 (by decide)).splitOn
    obtain ⟨o, ho⟩ := octet_of_mem hparts "+1".toList (by decide)
    exact absurd (ho.digits.2 '+' (by decide)) (by decide)

/-! ### What is rendered -/

theorem exists_fromLeBytes (ip : UInt32) : ∃ a b c d, ip = fromLeBytes a b c d := by
  have hlt : ip.toNat < 256 ^ 4 := by simpa using ip.toNat_lt
  have hbytes : ip = UInt32.ofNat (fromLe (toLe 4 ip.toNat)) := by rw [fromLe_toLe hlt, UInt32.ofNat_toNat]
  exact ⟨_, _, _, _, hbytes⟩

theorem parseIpv4_formatIpv4 (ip : UInt32) : parseIpv4 (formatIpv4 ip) = some ip := by
  obtain ⟨a, b, c, d, rfl⟩ := exists_fromLeBytes ip
  rw [formatIpv4_fromLeBytes, parseIpv4_dottedQuad]

/-- Addresses can be told apart in their renderings, and so in the rows of flows. -/
structure FaithfulRendering : Prop where
  readBack : ∀ ip, parseIpv4 (formatIpv4 ip) = some ip
  addresses : ∀ ip ip', ip ≠ ip' → formatIpv4 ip ≠ formatIpv4 ip'
  rows : ∀ key key' stats stats', key.srcIp ≠ key'.srcIp ∨ key.dstIp ≠ key'.dstIp →
    networkFlow key stats ≠ networkFlow key' stats'

theorem faithfulRendering : FaithfulRendering := by
  have haddresses : ∀ ip ip', ip ≠ ip' → formatIpv4 ip ≠ formatIpv4 ip' := by
    intro ip ip' hne heq
    have hread := congrArg parseIpv4 heq
    rw [parseIpv4_formatIpv4, parseIpv4_formatIpv4] at hread
    exact hne (Option.some.inj hread)
  refine ⟨parseIpv4_formatIpv4, haddresses, ?_⟩
  rintro key key' stats stats' (hsrc | hdst) hrow
  · exact haddresses _ _ hsrc (congrArg NetworkFlow.srcIp hrow)
  · exact haddresses _ _ hdst (congrArg NetworkFlow.dstIp hrow)

end

end Orb8
