import Orb8.Common
import Orb8.Lib.Text
import Orb8.Lib.Str
import Mathlib.Data.Finset.Basic

/-!
# Addresses and the self-traffic filter (`net.rs`)

An IPv4 address is the `u32` whose least significant byte is the first octet: that is what a native
load of the header field gives on a little-endian machine, what `parseIpv4` composes and what
`formatIpv4` takes apart.
-/

namespace Orb8
open Bytes Text

/-- `u32::from_le_bytes`. -/
def fromLeBytes (a b c d : UInt8) : UInt32 := UInt32.ofNat (fromLe [a, b, c, d])

def formatIpv4 (ip : UInt32) : String :=
  s!"{ip &&& 0xFF}.{(ip >>> 8) &&& 0xFF}.{(ip >>> 16) &&& 0xFF}.{(ip >>> 24) &&& 0xFF}"

def formatProtocol (protocol : UInt8) : String :=
  match protocol with
  | 1 => "ICMP"
  | 6 => "TCP"
  | 17 => "UDP"
  | _ => "OTHER"

def formatDirection (direction : UInt8) : String :=
  match direction with
  | 0 => "ingress"
  | 1 => "egress"
  | _ => "unknown"

/-- `str::parse::<u8>`. -/
def parseU8 (part : List Char) : Option UInt8 := (parseUint 255 part).map UInt8.ofNat

/-- Parts that are no `u8` are dropped before the parts are counted. -/
def parseIpv4 (ipStr : String) : Option UInt32 :=
  match (ipStr.toList.splitOn '.').filterMap parseU8 with
  | [a, b, c, d] => some (fromLeBytes a b c d)
  | _ => none

/-- A line of the trie that shows an address, which the next line is about. -/
def isTrieNode (line : List Char) : Bool :=
  "|-- ".toList <+: Str.trim line || "+-- ".toList <+: Str.trim line

def nodeAddress (line : List Char) : Option UInt32 :=
  let ipStr := Str.trimStartMatches "+-- ".toList (Str.trimStartMatches "|-- ".toList (Str.trim line))
  parseIpv4 (String.ofList ipStr)

def saysLocal (nextLine : List Char) : Bool := "/32 host LOCAL".toList <:+: nextLine

/-- The loop over the lines, each with the line after it. -/
def scanFibTrie : List (List Char) → Finset UInt32 → Finset UInt32
  | line :: nextLine :: rest, ips =>
    if isTrieNode line && saysLocal nextLine then
      match nodeAddress line with
      | some ip => scanFibTrie (nextLine :: rest) (insert ip ips)
      | none => scanFibTrie (nextLine :: rest) ips
    else scanFibTrie (nextLine :: rest) ips
  | _, ips => ips

/-- `fibTrie` is the text of `/proc/net/fib_trie`, if it can be read. -/
def resolveLocalIps (fibTrie : Option String) : Finset UInt32 :=
  let ips := {fromLeBytes 127 0 0 1}
  match fibTrie with
  | some content => scanFibTrie (Str.lines content.toList) ips
  | none => ips

/-- The agent's own gRPC traffic: by port and local address, by port alone when no local address is
known. -/
def isSelfTraffic (event : NetworkFlowEvent) (grpcPort : UInt16) (localIps : Finset UInt32) : Bool :=
  if localIps = ∅ then event.srcPort == grpcPort || event.dstPort == grpcPort
  else (event.srcPort == grpcPort && decide (event.srcIp ∈ localIps)) ||
    (event.dstPort == grpcPort && decide (event.dstIp ∈ localIps))

/-- `"a.b.c.d"` without leading zeros. -/
def dottedQuad (a b c d : UInt8) : String := s!"{a}.{b}.{c}.{d}"

theorem toList_dottedQuad (a b c d : UInt8) : (dottedQuad a b c d).toList =
    ['.'].intercalate ([a, b, c, d].map fun o => Nat.toDigits 10 o.toNat) := by
  simp [dottedQuad, toString, List.intercalate]

theorem parseU8_toDigits (o : UInt8) : parseU8 (Nat.toDigits 10 o.toNat) = some o := by
  have h : o.toNat < 256 := o.toNat_lt
  simp [parseU8, parseUint_toDigits (show o.toNat ≤ 255 by omega)]

theorem parseIpv4_dottedQuad (a b c d : UInt8) :
    parseIpv4 (dottedQuad a b c d) = some (fromLeBytes a b c d) := by
  have hsplit : (dottedQuad a b c d).toList.splitOn '.' =
      [a, b, c, d].map fun o => Nat.toDigits 10 o.toNat := by
    rw [toList_dottedQuad]
    refine List.splitOn_intercalate '.' (fun l hl => ?_) (by simp)
    obtain ⟨o, -, rfl⟩ := List.mem_map.1 hl
    exact notMem_toDigits _ (by decide)
  simp [parseIpv4, hsplit, parseU8_toDigits]

theorem toNat_fromLeBytes (a b c d : UInt8) : (fromLeBytes a b c d).toNat = fromLe [a, b, c, d] := by
  have h := fromLe_lt [a, b, c, d]
  exact UInt32.toNat_ofNat_of_lt' (by simpa [UInt32.size] using h)

/-- The byte above bit `k` of an address, as `formatIpv4` extracts it. -/
theorem toNat_shiftRight_and (ip k : UInt32) (hk : k.toNat < 32) :
    ((ip >>> k) &&& 0xFF).toNat = ip.toNat / 2 ^ k.toNat % 256 := by
  have h : UInt32.toNat 255 = 2 ^ 8 - 1 := by decide
  rw [UInt32.toNat_and, UInt32.toNat_shiftRight, h, Nat.and_two_pow_sub_one_eq_mod,
    Nat.shiftRight_eq_div_pow, Nat.mod_eq_of_lt hk]

theorem formatIpv4_fromLeBytes (a b c d : UInt8) :
    formatIpv4 (fromLeBytes a b c d) = dottedQuad a b c d := by
  have oct (k : UInt32) (i : Nat) (hk : k.toNat < 32) (hki : 2 ^ k.toNat = 256 ^ i)
      (hi : i < [a, b, c, d].length) :
      ((fromLeBytes a b c d >>> k) &&& 0xFF).toNat = [a, b, c, d][i].toNat := by
    rw [toNat_shiftRight_and _ _ hk, toNat_fromLeBytes, hki, fromLe_div_mod _ i hi]
  have h0 : (fromLeBytes a b c d &&& 0xFF).toNat = a.toNat := by
    have h := oct 0 0 (by decide) (by decide) (by simp)
    rw [UInt32.shiftRight_zero] at h
    exact h
  have h1 := oct 8 1 (by decide) (by decide) (by simp)
  have h2 := oct 16 2 (by decide) (by decide) (by simp)
  have h3 := oct 24 3 (by decide) (by decide) (by simp)
  have str32 (x : UInt32) : toString x = toString x.toNat := rfl
  have str8 (x : UInt8) : toString x = toString x.toNat := rfl
  simp only [formatIpv4, dottedQuad, str32, str8, h0, h1, h2, h3, List.getElem_cons_succ,
    List.getElem_cons_zero]

end Orb8
