import Mathlib.Data.List.Basic

/-!
# Reading bytes as text

`decodeLossy` reads bytes as UTF-8, byte by byte, and never fails: where the bytes cannot be continued
to a character, what was read of it is replaced by one replacement character, and the offending byte is
read again as a first byte. Text that was encoded is read back as it was (`decodeLossy_encode_append`),
whatever follows it.
-/

namespace Utf8

def REPLACEMENT : Char := Char.ofNat 0xFFFD

/-- A character whose first bytes have been read: their bits, how many bytes are owed, and what the
next one may be. -/
structure Pending where
  bits : Nat
  owed : Nat
  low : Nat
  high : Nat

/-- What a first byte yields, and what it leaves to read. -/
def first (b : Nat) : List Char × Option Pending :=
  if b < 0x80 then ([Char.ofNat b], none)
  else if b < 0xC2 then ([REPLACEMENT], none)
  else if b < 0xE0 then ([], some ⟨b % 32, 1, 0x80, 0xBF⟩)
  else if b < 0xF0 then
    ([], some ⟨b % 16, 2, if b = 0xE0 then 0xA0 else 0x80, if b = 0xED then 0x9F else 0xBF⟩)
  else if b < 0xF5 then
    ([], some ⟨b % 8, 3, if b = 0xF0 then 0x90 else 0x80, if b = 0xF4 then 0x8F else 0xBF⟩)
  else ([REPLACEMENT], none)

def next : Option Pending → Nat → List Char × Option Pending
  | none, b => first b
  | some p, b =>
    if p.low ≤ b ∧ b ≤ p.high then
      if p.owed = 1 then ([Char.ofNat (p.bits * 64 + b % 64)], none)
      else ([], some ⟨p.bits * 64 + b % 64, p.owed - 1, 0x80, 0xBF⟩)
    else (REPLACEMENT :: (first b).1, (first b).2)

def decodeFrom : Option Pending → List UInt8 → List Char
  | none, [] => []
  | some _, [] => [REPLACEMENT]
  | s, b :: bs => (next s b.toNat).1 ++ decodeFrom (next s b.toNat).2 bs

def decodeLossy (bytes : List UInt8) : List Char := decodeFrom none bytes

def encode (cs : List Char) : List UInt8 := cs.flatMap String.utf8EncodeChar

theorem length_encode (s : String) : (encode s.toList).length = s.utf8ByteSize := by
  have h : s.toList.utf8Encode.size = s.utf8ByteSize := by rw [String.utf8Encode_toList, String.size_toByteArray]
  rw [← h]
  exact List.size_toByteArray.symm

theorem decodeFrom_cons (s : Option Pending) (b : UInt8) (bs : List UInt8) :
    decodeFrom s (b :: bs) = (next s b.toNat).1 ++ decodeFrom (next s b.toNat).2 bs := by
  cases s <;> rfl

/-! ### One character -/

section
variable {bits owed low high b : Nat} (bs : List UInt8)

theorem decodeFrom_ofNat (s : Option Pending) (hb : b < 256) :
    decodeFrom s (UInt8.ofNat b :: bs) = (next s b).1 ++ decodeFrom (next s b).2 bs := by
  rw [decodeFrom_cons, UInt8.toNat_ofNat_of_lt' (by simpa [UInt8.size] using hb)]

/-- A byte within the bounds of a pending character that owes more than it. -/
theorem decodeFrom_more (hlow : low ≤ b) (hhigh : b ≤ high) (hb : b < 256) (howed : owed ≠ 1) :
    decodeFrom (some ⟨bits, owed, low, high⟩) (UInt8.ofNat b :: bs) =
      decodeFrom (some ⟨bits * 64 + b % 64, owed - 1, 0x80, 0xBF⟩) bs := by
  rw [decodeFrom_ofNat bs _ hb]
  simp only [next, hlow, hhigh, howed, and_self, if_true, if_false, List.nil_append]

theorem decodeFrom_last (hlow : low ≤ b) (hhigh : b ≤ high) (hb : b < 256) :
    decodeFrom (some ⟨bits, 1, low, high⟩) (UInt8.ofNat b :: bs) =
      Char.ofNat (bits * 64 + b % 64) :: decodeFrom none bs := by
  rw [decodeFrom_ofNat bs _ hb]
  simp only [next, hlow, hhigh, and_self, if_true, List.singleton_append]

theorem decodeFrom_one (hb : b < 0x80) :
    decodeFrom none (UInt8.ofNat b :: bs) = Char.ofNat b :: decodeFrom none bs := by
  rw [decodeFrom_ofNat bs _ (by omega), next, first, if_pos hb]
  rfl

theorem decodeFrom_two (hlow : 0xC2 ≤ b) (hhigh : b < 0xE0) :
    decodeFrom none (UInt8.ofNat b :: bs) = decodeFrom (some ⟨b % 32, 1, 0x80, 0xBF⟩) bs := by
  rw [decodeFrom_ofNat bs _ (by omega), next, first, if_neg (by omega), if_neg (by omega), if_pos hhigh]
  rfl

theorem decodeFrom_three (hlow : 0xE0 ≤ b) (hhigh : b < 0xF0) :
    decodeFrom none (UInt8.ofNat b :: bs) = decodeFrom
      (some ⟨b % 16, 2, if b = 0xE0 then 0xA0 else 0x80, if b = 0xED then 0x9F else 0xBF⟩) bs := by
  rw [decodeFrom_ofNat bs _ (by omega), next, first, if_neg (by omega), if_neg (by omega), if_neg (by omega),
    if_pos hhigh]
  rfl

theorem decodeFrom_four (hlow : 0xF0 ≤ b) (hhigh : b < 0xF5) :
    decodeFrom none (UInt8.ofNat b :: bs) = decodeFrom
      (some ⟨b % 8, 3, if b = 0xF0 then 0x90 else 0x80, if b = 0xF4 then 0x8F else 0xBF⟩) bs := by
  rw [decodeFrom_ofNat bs _ (by omega), next, first, if_neg (by omega), if_neg (by omega), if_neg (by omega),
    if_neg (by omega), if_pos hhigh]
  rfl

end

theorem decodeFrom_utf8EncodeChar (c : Char) (bs : List UInt8) :
    decodeFrom none (String.utf8EncodeChar c ++ bs) = c :: decodeFrom none bs := by
  have hvalid : c.val.toNat < 0xD800 ∨ (0xDFFF < c.val.toNat ∧ c.val.toNat < 0x110000) := c.valid
  have hc : Char.ofNat c.val.toNat = c := Char.ofNat_toNat c
  unfold String.utf8EncodeChar
  generalize c.val.toNat = v at *
  dsimp only
  rcases Nat.lt_or_ge v 0x80 with hone | hone
  · rw [if_pos (by omega), List.singleton_append, decodeFrom_one bs hone, hc]
  rcases Nat.lt_or_ge v 0x800 with htwo | htwo
  · rw [if_neg (by omega), if_pos (by omega), List.cons_append, List.singleton_append,
      decodeFrom_two _ (by omega) (by omega), decodeFrom_last bs (by omega) (by omega) (by omega)]
    rw [show (v / 64 % 32 + 192) % 32 * 64 + (v % 64 + 128) % 64 = v by omega, hc]
  rcases Nat.lt_or_ge v 0x10000 with hthree | hthree
  · rw [if_neg (by omega), if_neg (by omega), if_pos (by omega), List.cons_append, List.cons_append,
      List.singleton_append, decodeFrom_three _ (by omega) (by omega),
      decodeFrom_more _ (by split <;> omega) (by split <;> omega) (by omega) (by omega),
      decodeFrom_last bs (by omega) (by omega) (by omega)]
    rw [show ((v / 4096 % 16 + 224) % 16 * 64 + (v / 64 % 64 + 128) % 64) * 64 + (v % 64 + 128) % 64 = v by omega, hc]
  · rw [if_neg (by omega), if_neg (by omega), if_neg (by omega), List.cons_append, List.cons_append,
      List.cons_append, List.singleton_append, decodeFrom_four _ (by omega) (by omega),
      decodeFrom_more _ (by split <;> omega) (by split <;> omega) (by omega) (by omega),
      decodeFrom_more _ (by omega) (by omega) (by omega) (by omega),
      decodeFrom_last bs (by omega) (by omega) (by omega)]
    rw [show (((v / 262144 % 8 + 240) % 8 * 64 + (v / 4096 % 64 + 128) % 64) * 64 + (v / 64 % 64 + 128) % 64) * 64 +
      (v % 64 + 128) % 64 = v by omega, hc]

/-! ### Encoded text -/

theorem decodeLossy_encode_append (cs : List Char) (bs : List UInt8) :
    decodeLossy (encode cs ++ bs) = cs ++ decodeLossy bs := by
  induction cs with
  | nil => rfl
  | cons c cs ih =>
    show decodeFrom none ((c :: cs).flatMap String.utf8EncodeChar ++ bs) = _
    rw [List.flatMap_cons, List.append_assoc, decodeFrom_utf8EncodeChar]
    exact congrArg (c :: ·) ih

theorem decodeLossy_encode (cs : List Char) : decodeLossy (encode cs) = cs := by
  have h := decodeLossy_encode_append cs []
  rwa [List.append_nil, show decodeLossy [] = [] from rfl, List.append_nil] at h

/-- The text that the bytes encode, if they encode one. -/
def decode (bytes : List UInt8) : Option (List Char) :=
  if encode (decodeLossy bytes) = bytes then some (decodeLossy bytes) else none

theorem decode_encode (cs : List Char) : decode (encode cs) = some cs := by
  rw [decode, decodeLossy_encode, if_pos rfl]

theorem decode_eq_some_iff {bytes : List UInt8} {cs : List Char} : decode bytes = some cs ↔ encode cs = bytes := by
  constructor
  · intro h
    obtain ⟨hbytes, hcs⟩ := Option.ite_none_right_eq_some.1 h
    rwa [Option.some.inj hcs] at hbytes
  · rintro rfl
    exact decode_encode cs

/-! ### The first bytes of a text -/

/-- The characters that the first `n` bytes encode; none if one of them is cut. -/
def takeBytes (n : Nat) : List Char → Option (List Char)
  | [] => if n = 0 then some [] else none
  | c :: cs =>
    if n = 0 then some []
    else if c.utf8Size ≤ n then (takeBytes (n - c.utf8Size) cs).map fun front => c :: front
    else none

theorem takeBytes_zero (cs : List Char) : takeBytes 0 cs = some [] := by cases cs <;> rfl

theorem encode_cons (c : Char) (cs : List Char) : encode (c :: cs) = String.utf8EncodeChar c ++ encode cs := rfl

theorem takeBytes_eq_some_iff {n : Nat} {cs ds : List Char} :
    takeBytes n cs = some ds ↔ ds <+: cs ∧ (encode ds).length = n := by
  induction cs generalizing n ds with
  | nil =>
    rw [takeBytes, List.prefix_nil]
    split
    · rename_i hn
      subst hn
      constructor
      · intro h
        obtain rfl := Option.some.inj h
        exact ⟨rfl, rfl⟩
      · rintro ⟨rfl, -⟩
        rfl
    · rename_i hn
      refine iff_of_false nofun ?_
      rintro ⟨rfl, hlen⟩
      exact hn hlen.symm
  | cons c cs ih =>
    have hpos : 0 < c.utf8Size := Char.utf8Size_pos c
    have hlen (ds : List Char) : (encode (c :: ds)).length = c.utf8Size + (encode ds).length := by
      rw [encode_cons, List.length_append, String.length_utf8EncodeChar]
    rcases Nat.eq_zero_or_pos n with rfl | hn
    · rw [takeBytes_zero]
      constructor
      · intro h
        obtain rfl := Option.some.inj h
        exact ⟨List.nil_prefix, rfl⟩
      · rintro ⟨hpre, hnone⟩
        rcases List.prefix_cons_iff.1 hpre with rfl | ⟨ds, rfl, -⟩
        · rfl
        · rw [hlen] at hnone
          omega
    · rw [takeBytes, if_neg (Nat.ne_of_gt hn)]
      split
      · rename_i hle
        rw [Option.map_eq_some_iff]
        constructor
        · rintro ⟨front, hfront, rfl⟩
          obtain ⟨hpre, hsize⟩ := ih.1 hfront
          refine ⟨List.cons_prefix_cons.2 ⟨rfl, hpre⟩, ?_⟩
          rw [hlen]
          omega
        · rintro ⟨hpre, hsize⟩
          rcases List.prefix_cons_iff.1 hpre with rfl | ⟨ds, rfl, hrest⟩
          · exact absurd hsize (Nat.ne_of_lt hn)
          · rw [hlen] at hsize
            exact ⟨ds, ih.2 ⟨hrest, by omega⟩, rfl⟩
      · rename_i hgt
        refine iff_of_false nofun ?_
        rintro ⟨hpre, hsize⟩
        rcases List.prefix_cons_iff.1 hpre with rfl | ⟨ds, rfl, -⟩
        · exact (Nat.ne_of_lt hn) hsize
        · rw [hlen] at hsize
          omega

theorem length_encode_of_ascii {cs : List Char} (h : ∀ c ∈ cs, c.utf8Size = 1) : (encode cs).length = cs.length := by
  induction cs with
  | nil => rfl
  | cons c cs ih =>
    rw [encode_cons, List.length_append, String.length_utf8EncodeChar, h c List.mem_cons_self,
      ih fun c hc => h c (List.mem_cons_of_mem _ hc), List.length_cons, Nat.add_comm]

/-- Where every character takes one byte, none is cut. -/
theorem takeBytes_of_ascii {n : Nat} {cs : List Char} (h : ∀ c ∈ cs, c.utf8Size = 1) (hn : n ≤ cs.length) :
    takeBytes n cs = some (cs.take n) := by
  refine takeBytes_eq_some_iff.2 ⟨List.take_prefix n cs, ?_⟩
  rw [length_encode_of_ascii fun c hc => h c (List.mem_of_mem_take hc), List.length_take, Nat.min_eq_left hn]

end Utf8
