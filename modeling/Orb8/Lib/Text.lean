import Mathlib.Data.List.Basic

/-!
# Decimal text

`parseUint max` reads an unsigned decimal the way integer parsers of systems languages do: an
optional leading `+`, at least one digit, digits only, and a running value that never exceeds `max`.
It accepts exactly the digit strings that denote (`decimal`) a number up to `max`.
-/

namespace Text

/-- One more digit of a decimal whose digits so far denote `acc`. -/
def pushDigit (max acc : Nat) (c : Char) : Option Nat :=
  if c.isDigit ∧ acc * 10 + (c.toNat - '0'.toNat) ≤ max then
    some (acc * 10 + (c.toNat - '0'.toNat))
  else none

/-- The digits of an unsigned number: a leading `+` is skipped. -/
def unsignedDigits : List Char → List Char
  | '+' :: rest => rest
  | cs => cs

def parseUint (max : Nat) (cs : List Char) : Option Nat :=
  if unsignedDigits cs = [] then none else (unsignedDigits cs).foldlM (pushDigit max) 0

def IsDigits (cs : List Char) : Prop := cs ≠ [] ∧ ∀ c ∈ cs, c.isDigit = true

instance (cs : List Char) : Decidable (IsDigits cs) :=
  have : Decidable (∀ c ∈ cs, c.isDigit = true) := List.decidableBAll _ cs
  inferInstanceAs (Decidable (cs ≠ [] ∧ ∀ c ∈ cs, c.isDigit = true))

/-- What the digits `cs` denote when they follow digits that denote `acc`. -/
def decimalFrom (acc : Nat) (cs : List Char) : Nat :=
  cs.foldl (fun acc c => acc * 10 + (c.toNat - '0'.toNat)) acc

def decimal (cs : List Char) : Nat := decimalFrom 0 cs

theorem notMem_toDigits (n : Nat) {c : Char} (hc : c.isDigit = false) : c ∉ Nat.toDigits 10 n := by
  intro h
  rw [Nat.isDigit_of_mem_toDigits (by decide) (by decide) h] at hc
  cases hc

theorem toDigits_inj {m n : Nat} (h : Nat.toDigits 10 m = Nat.toDigits 10 n) : m = n := by
  rw [← Nat.ofDigitChars_ten_toDigits (n := m), h, Nat.ofDigitChars_ten_toDigits]

theorem toList_toString (n : Nat) : (toString n).toList = Nat.toDigits 10 n := by
  rw [Nat.toString_eq_ofList_toDigits, String.toList_ofList]

theorem unsignedDigits_toDigits (n : Nat) :
    unsignedDigits (Nat.toDigits 10 n) = Nat.toDigits 10 n := by
  unfold unsignedDigits
  split
  · rename_i rest h
    exact absurd (h ▸ List.mem_cons_self) (notMem_toDigits n (by decide))
  · rfl

theorem pushDigit_digitChar {max d : Nat} (acc : Nat) (hd : d < 10) (h : acc * 10 + d ≤ max) :
    pushDigit max acc d.digitChar = some (acc * 10 + d) := by
  have hval : ∀ d < 10, d.digitChar.isDigit ∧ d.digitChar.toNat - '0'.toNat = d := by decide
  obtain ⟨hdig, hnum⟩ := hval d hd
  rw [pushDigit, hnum, if_pos ⟨hdig, h⟩]

theorem foldlM_pushDigit_toDigits {max n : Nat} (h : n ≤ max) :
    (Nat.toDigits 10 n).foldlM (pushDigit max) 0 = some n := by
  induction n using Nat.strongRecOn with
  | ind n ih =>
    by_cases hn : n < 10
    · rw [Nat.toDigits_of_lt_base hn]
      simpa using pushDigit_digitChar 0 hn (by omega)
    · rw [Nat.toDigits_of_base_le (by decide) (by omega), List.foldlM_append, ih (n / 10) (by omega) (by omega)]
      have hdiv : n / 10 * 10 + n % 10 = n := by omega
      simpa [hdiv] using pushDigit_digitChar (n / 10) (Nat.mod_lt n (by decide))
        (by omega : n / 10 * 10 + n % 10 ≤ max)

/-- A number up to `max` is read back from its decimal rendering. -/
theorem parseUint_toDigits {max n : Nat} (h : n ≤ max) :
    parseUint max (Nat.toDigits 10 n) = some n := by
  rw [parseUint, unsignedDigits_toDigits, if_neg Nat.toDigits_ne_nil, foldlM_pushDigit_toDigits h]

/-! ### What is read as a number -/

theorem le_decimalFrom (acc : Nat) (cs : List Char) : acc ≤ decimalFrom acc cs := by
  induction cs generalizing acc with
  | nil => exact Nat.le_refl acc
  | cons c cs ih =>
    have hmul : acc ≤ acc * 10 + (c.toNat - '0'.toNat) := by omega
    exact Nat.le_trans hmul (ih _)

theorem foldlM_pushDigit_eq_some_iff {max acc n : Nat} {cs : List Char} (hacc : acc ≤ max) :
    cs.foldlM (pushDigit max) acc = some n ↔
      (∀ c ∈ cs, c.isDigit = true) ∧ decimalFrom acc cs = n ∧ n ≤ max := by
  induction cs generalizing acc with
  | nil =>
    rw [List.foldlM_nil]
    constructor
    · intro h
      obtain rfl := Option.some.inj h
      exact ⟨by simp, rfl, hacc⟩
    · rintro ⟨-, rfl, -⟩
      rfl
  | cons c cs ih =>
    rw [List.foldlM_cons, pushDigit]
    split
    · rename_i hc
      rw [Option.bind_eq_bind, Option.bind_some, ih hc.2, List.forall_mem_cons]
      exact and_congr_left fun _ => (and_iff_right hc.1).symm
    · rename_i hc
      refine iff_of_false (fun h => nomatch h) ?_
      rintro ⟨hdigits, hvalue, hle⟩
      have hnext := le_decimalFrom (acc * 10 + (c.toNat - '0'.toNat)) cs
      exact hc ⟨hdigits c List.mem_cons_self, Nat.le_trans hnext (hvalue ▸ hle)⟩

theorem parseUint_eq_some_iff {max n : Nat} {cs : List Char} : parseUint max cs = some n ↔
    IsDigits (unsignedDigits cs) ∧ decimal (unsignedDigits cs) = n ∧ n ≤ max := by
  unfold parseUint IsDigits
  split
  · rename_i hnil
    exact iff_of_false (fun h => nomatch h) fun h => h.1.1 hnil
  · rename_i hne
    rw [foldlM_pushDigit_eq_some_iff (Nat.zero_le max), and_iff_right hne]
    rfl

theorem unsignedDigits_of_isDigits {cs : List Char} (h : IsDigits cs) : unsignedDigits cs = cs := by
  unfold unsignedDigits
  split
  · exact absurd (h.2 '+' List.mem_cons_self) (by decide)
  · rfl

theorem unsignedDigits_append {sign cs : List Char} (hsign : sign = [] ∨ sign = ['+']) (h : IsDigits cs) :
    unsignedDigits (sign ++ cs) = cs := by
  rcases hsign with rfl | rfl
  · exact unsignedDigits_of_isDigits h
  · rfl

theorem exists_sign (cs : List Char) :
    ∃ sign, (sign = [] ∨ sign = ['+']) ∧ cs = sign ++ unsignedDigits cs := by
  unfold unsignedDigits
  split
  · exact ⟨['+'], .inr rfl, rfl⟩
  · exact ⟨[], .inl rfl, rfl⟩

end Text
