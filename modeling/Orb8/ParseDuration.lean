import Orb8.Lib.Str
import Orb8.Lib.Text
import Mathlib.Data.UInt

/-!
# The duration of a trace (`orb8-cli`)

`DurationText` is the grammar of a duration: digits and one unit. `parseDuration` accepts what is in
it, with the right value, and more: a unit may be repeated, the number may have a plus sign, and a
product that does not fit in 64 bits wraps. `ReadAs` says exactly what it reads.
-/

namespace Orb8
open Text Str

/-- The number and the milliseconds of its unit; the unit is removed as often as it is found. -/
def splitUnit (s : List Char) : Option (List Char × UInt64) :=
  if ['m', 's'] <:+ s then some (trimEndMatches ['m', 's'] s, 1)
  else if ['s'] <:+ s then some (trimEndMatches ['s'] s, 1000)
  else if ['m'] <:+ s then some (trimEndMatches ['m'] s, 60000)
  else if ['h'] <:+ s then some (trimEndMatches ['h'] s, 3600000)
  else none

/-- `str::parse::<u64>`. -/
def parseU64 (num : List Char) : Option UInt64 := (parseUint (2 ^ 64 - 1) num).map UInt64.ofNat

/-- The product wraps, as it does in a release build. -/
def parseDuration (s : String) : Except String UInt64 :=
  match splitUnit (trim s.toList) with
  | none => .error "Invalid duration format. Use: 30s, 5m, 1h, 500ms"
  | some (num, unit) =>
    match parseU64 num with
    | none => .error "Invalid duration number"
    | some value => .ok (value * unit)

/-- The units with their milliseconds. -/
def UNITS : List (List Char × Nat) :=
  [(['m', 's'], 1), (['s'], 1000), (['m'], 60000), (['h'], 3600000)]

/-- Digits and exactly one unit, with a product that fits in 64 bits. -/
def DurationText (s : String) (v : UInt64) : Prop :=
  ∃ digits unit k, (unit, k) ∈ UNITS ∧ trim s.toList = digits ++ unit ∧ IsDigits digits ∧
    decimal digits * k < 2 ^ 64 ∧ v.toNat = decimal digits * k

/-- `s` is a number below 2^64, with or without a plus sign, and `n` copies of a unit of `k`
milliseconds. -/
structure ReadAs (s : String) (sign digits unit : List Char) (k n : Nat) : Prop where
  memUnits : (unit, k) ∈ UNITS
  optional : sign = [] ∨ sign = ['+']
  isDigits : IsDigits digits
  lt : decimal digits < 2 ^ 64
  pos : 0 < n
  text : trim s.toList = sign ++ digits ++ copies n unit

/-- What is read has no sign, one unit and a product that fits. -/
def CleanDuration (s : String) : Prop :=
  ∀ sign digits unit k n, ReadAs s sign digits unit k n → sign = [] ∧ n = 1 ∧ decimal digits * k < 2 ^ 64

section
variable {s : String} {sign digits unit body num : List Char} {k n : Nat} {v : UInt64} {c : Char}

/-! ### Units -/

theorem suffix_singleton_iff {l : List Char} {d : Char} : [d] <:+ l ++ [c] ↔ d = c := by
  rw [List.suffix_concat_iff]
  constructor
  · rintro (h | ⟨t, ht, -⟩)
    · cases h
    · simpa using congrArg List.getLast? ht
  · rintro rfl
    exact .inr ⟨[], rfl, List.nil_suffix⟩

theorem suffix_ms_iff {l : List Char} : ['m', 's'] <:+ l ++ [c] ↔ c = 's' ∧ ['m'] <:+ l := by
  rw [List.suffix_concat_iff]
  constructor
  · rintro (h | ⟨t, ht, hsuffix⟩)
    · cases h
    · obtain ⟨rfl, hc⟩ := List.append_inj' (show ['m'] ++ ['s'] = t ++ [c] from ht) rfl
      exact ⟨(List.singleton_inj.1 hc).symm, hsuffix⟩
  · rintro ⟨rfl, hsuffix⟩
    exact .inr ⟨['m'], rfl, hsuffix⟩

theorem not_suffix_append_copies (body : List Char) {d e : Char} (hc : d ≠ c) (he : d ≠ e) (n : Nat) :
    ¬ [d] <:+ (body ++ [c]) ++ copies n [e] := by
  cases n with
  | zero =>
    show ¬ [d] <:+ (body ++ [c]) ++ []
    rw [List.append_nil, suffix_singleton_iff]
    exact hc
  | succ n =>
    rw [copies_succ', ← List.append_assoc, suffix_singleton_iff]
    exact he

/-- A text that ends in a digit is told from the copies of a unit behind it. -/
theorem splitUnit_append_copies (hunit : (unit, k) ∈ UNITS) (hc : c.isDigit = true) (hn : 0 < n) :
    splitUnit ((body ++ [c]) ++ copies n unit) = some (body ++ [c], UInt64.ofNat k) := by
  have hne (d : Char) (hd : d.isDigit = false) : d ≠ c := by
    rintro rfl
    rw [hc] at hd
    cases hd
  have hsingle (d : Char) (hd : d.isDigit = false) : ¬ [d] <:+ body ++ [c] := fun h =>
    hne d hd (suffix_singleton_iff.1 h)
  have hms : ¬ ['m', 's'] <:+ body ++ [c] := fun h => hne 's' (by decide) (suffix_ms_iff.1 h).1.symm
  obtain ⟨n, rfl⟩ := Nat.exists_eq_succ_of_ne_zero hn.ne'
  have hlast (d : Char) : (body ++ [c]) ++ copies (n + 1) [d] = ((body ++ [c]) ++ copies n [d]) ++ [d] := by
    rw [copies_succ', ← List.append_assoc]
  unfold splitUnit
  simp only [UNITS, List.mem_cons, Prod.mk.injEq, List.not_mem_nil, or_false] at hunit
  rcases hunit with ⟨rfl, rfl⟩ | ⟨rfl, rfl⟩ | ⟨rfl, rfl⟩ | ⟨rfl, rfl⟩
  · have hin : ['m', 's'] <:+ (body ++ [c]) ++ copies (n + 1) ['m', 's'] := by
      rw [copies_succ', ← List.append_assoc]
      exact List.suffix_append _ _
    rw [if_pos hin, trimEndMatches_append_copies (by simp) hms]
    rfl
  · have hm : ¬ ['m', 's'] <:+ (body ++ [c]) ++ copies (n + 1) ['s'] := by
      rw [hlast, suffix_ms_iff]
      exact fun h => not_suffix_append_copies body (hne 'm' (by decide)) (by decide) n h.2
    have hin : ['s'] <:+ (body ++ [c]) ++ copies (n + 1) ['s'] := by rw [hlast, suffix_singleton_iff]
    rw [if_neg hm, if_pos hin, trimEndMatches_append_copies (by simp) (hsingle 's' (by decide))]
    rfl
  · have hs : ¬ ['m', 's'] <:+ (body ++ [c]) ++ copies (n + 1) ['m'] := by
      rw [hlast, suffix_ms_iff]
      exact fun h => absurd h.1 (by decide)
    have hs' := not_suffix_append_copies body (hne 's' (by decide)) (show 's' ≠ 'm' by decide) (n + 1)
    have hin : ['m'] <:+ (body ++ [c]) ++ copies (n + 1) ['m'] := by rw [hlast, suffix_singleton_iff]
    rw [if_neg hs, if_neg hs', if_pos hin, trimEndMatches_append_copies (by simp) (hsingle 'm' (by decide))]
    rfl
  · have hs : ¬ ['m', 's'] <:+ (body ++ [c]) ++ copies (n + 1) ['h'] := by
      rw [hlast, suffix_ms_iff]
      exact fun h => absurd h.1 (by decide)
    have hs' := not_suffix_append_copies body (hne 's' (by decide)) (show 's' ≠ 'h' by decide) (n + 1)
    have hm := not_suffix_append_copies body (hne 'm' (by decide)) (show 'm' ≠ 'h' by decide) (n + 1)
    have hin : ['h'] <:+ (body ++ [c]) ++ copies (n + 1) ['h'] := by rw [hlast, suffix_singleton_iff]
    rw [if_neg hs, if_neg hs', if_neg hm, if_pos hin,
      trimEndMatches_append_copies (by simp) (hsingle 'h' (by decide))]
    rfl

/-- Whatever is split off is one or more copies of a unit. -/
theorem exists_copies_of_splitUnit {l : List Char} {u : UInt64} (h : splitUnit l = some (num, u)) :
    ∃ unit k n, (unit, k) ∈ UNITS ∧ u = UInt64.ofNat k ∧ 0 < n ∧ l = num ++ copies n unit := by
  have hcopies (unit : List Char) (hunit : unit ≠ []) (hin : unit <:+ l) :
      ∃ n, 0 < n ∧ l = trimEndMatches unit l ++ copies n unit := by
    obtain ⟨n, hn⟩ := exists_append_copies unit l
    refine ⟨n, Nat.pos_of_ne_zero ?_, hn⟩
    rintro rfl
    rw [show copies 0 unit = [] from rfl, List.append_nil] at hn
    exact not_suffix_trimEndMatches hunit l (hn ▸ hin)
  unfold splitUnit at h
  split_ifs at h with h₁ h₂ h₃ h₄
  all_goals
    obtain ⟨rfl, rfl⟩ := Prod.mk.inj (Option.some.inj h)
  · obtain ⟨n, hn, hl⟩ := hcopies _ (by simp) h₁
    exact ⟨_, 1, n, by simp [UNITS], rfl, hn, hl⟩
  · obtain ⟨n, hn, hl⟩ := hcopies _ (by simp) h₂
    exact ⟨_, 1000, n, by simp [UNITS], rfl, hn, hl⟩
  · obtain ⟨n, hn, hl⟩ := hcopies _ (by simp) h₃
    exact ⟨_, 60000, n, by simp [UNITS], rfl, hn, hl⟩
  · obtain ⟨n, hn, hl⟩ := hcopies _ (by simp) h₄
    exact ⟨_, 3600000, n, by simp [UNITS], rfl, hn, hl⟩

/-! ### What is accepted -/

theorem parseU64_eq_some_iff : parseU64 num = some v ↔
    IsDigits (unsignedDigits num) ∧ decimal (unsignedDigits num) = v.toNat := by
  have hv : v.toNat < 2 ^ 64 := v.toNat_lt
  constructor
  · intro h
    obtain ⟨n, hn, rfl⟩ := Option.map_eq_some_iff.1 h
    obtain ⟨hdigits, hvalue, hle⟩ := parseUint_eq_some_iff.1 hn
    refine ⟨hdigits, ?_⟩
    rw [hvalue, UInt64.toNat_ofNat_of_lt' (show n < UInt64.size by rw [UInt64.size]; omega)]
  · rintro ⟨hdigits, hvalue⟩
    have hn : parseUint (2 ^ 64 - 1) num = some v.toNat :=
      parseUint_eq_some_iff.2 ⟨hdigits, hvalue, Nat.le_sub_one_of_lt hv⟩
    rw [parseU64, hn, Option.map_some, UInt64.ofNat_toNat]

theorem parseDuration_eq_ok_iff : parseDuration s = .ok v ↔
    ∃ num unit value, splitUnit (trim s.toList) = some (num, unit) ∧ parseU64 num = some value ∧
      v = value * unit := by
  unfold parseDuration
  cases hsplit : splitUnit (trim s.toList) with
  | none => exact iff_of_false (fun h => nomatch h) (by rintro ⟨num, unit, value, h, -⟩; cases h)
  | some p =>
    obtain ⟨num, unit⟩ := p
    dsimp only
    cases hvalue : parseU64 num with
    | none =>
      refine iff_of_false (fun h => nomatch h) ?_
      rintro ⟨num', unit', value, h, hvalue', -⟩
      obtain ⟨rfl, rfl⟩ := Prod.mk.inj (Option.some.inj h)
      rw [hvalue] at hvalue'
      cases hvalue'
    | some value =>
      constructor
      · intro h
        exact ⟨num, unit, value, rfl, hvalue, (Except.ok.inj h).symm⟩
      · rintro ⟨num', unit', value', h, hvalue', rfl⟩
        obtain ⟨rfl, rfl⟩ := Prod.mk.inj (Option.some.inj h)
        obtain rfl := Option.some.inj (hvalue.symm.trans hvalue')
        rfl

theorem UNITS_inj : ∀ p ∈ UNITS, ∀ q ∈ UNITS, UInt64.ofNat p.2 = UInt64.ofNat q.2 → p = q := by decide

theorem UNITS_pos : ∀ p ∈ UNITS, 0 < p.1.length ∧ 0 < p.2 := by decide

theorem ReadAs.splitUnit_eq (h : ReadAs s sign digits unit k n) :
    splitUnit (trim s.toList) = some (sign ++ digits, UInt64.ofNat k) := by
  obtain ⟨hne, hdigits⟩ := h.isDigits
  obtain ⟨body, c, rfl⟩ := (List.eq_nil_or_concat' digits).resolve_left hne
  have hc := hdigits c (List.mem_append_right body (List.mem_singleton_self c))
  rw [h.text, ← List.append_assoc]
  exact splitUnit_append_copies h.memUnits hc h.pos

theorem ReadAs.parseDuration_eq (h : ReadAs s sign digits unit k n) :
    parseDuration s = .ok (UInt64.ofNat (decimal digits * k)) := by
  refine parseDuration_eq_ok_iff.2 ⟨_, _, UInt64.ofNat (decimal digits), h.splitUnit_eq, ?_, UInt64.ofNat_mul _ _⟩
  rw [parseU64_eq_some_iff, unsignedDigits_append h.optional h.isDigits]
  exact ⟨h.isDigits, (UInt64.toNat_ofNat_of_lt' (by simpa [UInt64.size] using h.lt)).symm⟩

theorem exists_readAs (h : parseDuration s = .ok v) :
    ∃ sign digits unit k n, ReadAs s sign digits unit k n ∧ v = UInt64.ofNat (decimal digits * k) := by
  obtain ⟨num, u, value, hsplit, hvalue, rfl⟩ := parseDuration_eq_ok_iff.1 h
  obtain ⟨unit, k, n, hunit, rfl, hn, htext⟩ := exists_copies_of_splitUnit hsplit
  obtain ⟨hdigits, hnum⟩ := parseU64_eq_some_iff.1 hvalue
  obtain ⟨sign, hsign, hnum'⟩ := exists_sign num
  refine ⟨sign, unsignedDigits num, unit, k, n, ⟨hunit, hsign, hdigits, ?_, hn, ?_⟩, ?_⟩
  · rw [hnum]
    exact value.toNat_lt
  · rw [htext, ← hnum']
  · rw [hnum, UInt64.ofNat_mul, UInt64.ofNat_toNat]

theorem readAs_of_durationText (hunit : (unit, k) ∈ UNITS) (htext : trim s.toList = digits ++ unit)
    (hdigits : IsDigits digits) (hlt : decimal digits * k < 2 ^ 64) : ReadAs s [] digits unit k 1 := by
  refine ⟨hunit, .inl rfl, hdigits, ?_, Nat.one_pos, ?_⟩
  · exact (Nat.le_mul_of_pos_right _ (UNITS_pos _ hunit).2).trans_lt hlt
  · rw [copies_one]
    exact htext

theorem cleanDuration_of_exact (h : ∀ v, parseDuration s = .ok v ↔ DurationText s v) : CleanDuration s := by
  intro sign digits unit k n hread
  obtain ⟨digits', unit', k', hunit', htext', hdigits', hlt', -⟩ := (h _).1 hread.parseDuration_eq
  have hread' := readAs_of_durationText hunit' htext' hdigits' hlt'
  obtain ⟨hnum, hk⟩ := Prod.mk.inj (Option.some.inj (hread.splitUnit_eq.symm.trans hread'.splitUnit_eq))
  obtain ⟨rfl, rfl⟩ := Prod.mk.inj (UNITS_inj _ hread.memUnits _ hunit' hk)
  have hsign : sign = [] := by
    refine hread.optional.resolve_right ?_
    rintro rfl
    have hplus : '+' ∈ [] ++ digits' := by
      rw [← hnum]
      exact List.mem_cons_self
    exact absurd (hdigits'.2 '+' hplus) (by decide)
  subst hsign
  obtain rfl : digits = digits' := hnum
  refine ⟨rfl, ?_, hlt'⟩
  have hlen := congrArg List.length (hread.text.symm.trans htext')
  rw [List.length_append, List.length_append, length_copies] at hlen
  have hpos := (UNITS_pos _ hunit').1
  exact Nat.eq_of_mul_eq_mul_right hpos (by simpa using hlen)

theorem exact_of_cleanDuration (h : CleanDuration s) (v : UInt64) :
    parseDuration s = .ok v ↔ DurationText s v := by
  constructor
  · intro hv
    obtain ⟨sign, digits, unit, k, n, hread, rfl⟩ := exists_readAs hv
    obtain ⟨rfl, rfl, hlt⟩ := h sign digits unit k n hread
    have htext := hread.text
    rw [copies_one, List.nil_append] at htext
    refine ⟨digits, unit, k, hread.memUnits, htext, hread.isDigits, hlt, ?_⟩
    exact UInt64.toNat_ofNat_of_lt' (by simpa [UInt64.size] using hlt)
  · rintro ⟨digits, unit, k, hunit, htext, hdigits, hlt, hv⟩
    rw [(readAs_of_durationText hunit htext hdigits hlt).parseDuration_eq, ← hv, UInt64.ofNat_toNat]

/-- `parse_duration` accepts a string exactly as a duration, unless what it reads has a sign, a unit
more than once, or a product that does not fit. -/
theorem parseDuration_iff (s : String) :
    (∀ v, parseDuration s = .ok v ↔ DurationText s v) ↔ CleanDuration s :=
  ⟨cleanDuration_of_exact, exact_of_cleanDuration⟩

/-- A repeated unit, a sign and a product that wraps are all accepted. -/
theorem not_parseDuration : ¬ (∀ v, parseDuration "5ss" = .ok v ↔ DurationText "5ss" v) ∧
    ¬ (∀ v, parseDuration "+5s" = .ok v ↔ DurationText "+5s" v) ∧
    ¬ (∀ v, parseDuration "18446744073709552s" = .ok v ↔ DurationText "18446744073709552s" v) := by
  refine ⟨fun h => ?_, fun h => ?_, fun h => ?_⟩
  · have hread : ReadAs "5ss" [] ['5'] ['s'] 1000 2 := by constructor <;> decide
    exact absurd (cleanDuration_of_exact h _ _ _ _ _ hread).2.1 (by decide)
  · have hread : ReadAs "+5s" ['+'] ['5'] ['s'] 1000 1 := by constructor <;> decide
    exact absurd (cleanDuration_of_exact h _ _ _ _ _ hread).1 (by decide)
  · have hread : ReadAs "18446744073709552s" [] "18446744073709552".toList ['s'] 1000 1 := by
      constructor <;> decide
    exact absurd (cleanDuration_of_exact h _ _ _ _ _ hread).2.2 (by decide)

end

end Orb8
