import Mathlib.Data.List.Infix
import Mathlib.Data.List.TakeWhile

/-!
# Taking text apart

The operations of a string library that trim and split a text, on lists of characters. `dropCopies`
removes a pattern from the start of a list as often as it is found there; the suffix is the prefix of
the reversed list. What is left is determined by the list (`trimEndMatches_append_copies`).
-/

namespace Str

/-- The characters with the Unicode property `White_Space`. -/
def isWhitespace (c : Char) : Bool :=
  (0x9 ≤ c.toNat && c.toNat ≤ 0xD) || (0x2000 ≤ c.toNat && c.toNat ≤ 0x200A) ||
    [0x20, 0x85, 0xA0, 0x1680, 0x2028, 0x2029, 0x202F, 0x205F, 0x3000].contains c.toNat

/-- The text without the white space around it. -/
def trim (l : List Char) : List Char :=
  ((l.dropWhile isWhitespace).reverse.dropWhile isWhitespace).reverse

def splitWhitespace (l : List Char) : List (List Char) :=
  (l.splitOnP isWhitespace).filter fun piece => piece ≠ []

/-- A line without the carriage return that belongs to its line end. -/
def stripCr (line : List Char) : List Char := if ['\r'] <:+ line then line.dropLast else line

/-- The lines of a text; the last one need not have a line end. -/
def lines (l : List Char) : List (List Char) :=
  let pieces := l.splitOn '\n'
  let rest := pieces.getLastD []
  pieces.dropLast.map stripCr ++ if rest = [] then [] else [rest]

/-- A piece of text between white space. -/
structure IsWord (w : List Char) : Prop where
  ne_nil : w ≠ []
  visible : ∀ c ∈ w, isWhitespace c = false

/-- The text is empty or begins with white space. -/
def Breaks (l : List Char) : Prop := ∀ c, l.head? = some c → isWhitespace c = true

section
variable {w a b : List Char} {c : Char}

theorem IsWord.notMem (h : IsWord w) (hc : isWhitespace c = true) : c ∉ w := by
  intro hmem
  rw [h.visible c hmem] at hc
  cases hc

theorem splitWhitespace_cons (hc : isWhitespace c = true) (l : List Char) :
    splitWhitespace (c :: l) = splitWhitespace l := by
  have hsplit : (c :: l).splitOnP isWhitespace = [] :: l.splitOnP isWhitespace :=
    List.splitOnP_append_cons [] l hc
  rw [splitWhitespace, hsplit]
  rfl

theorem splitWhitespace_append (h : IsWord w) (hb : Breaks b) : splitWhitespace (w ++ b) = w :: splitWhitespace b := by
  cases b with
  | nil =>
    rw [List.append_nil, splitWhitespace, List.splitOnP_eq_singleton h.visible, List.filter_cons_of_pos (by simpa using h.ne_nil)]
    rfl
  | cons c b =>
    rw [splitWhitespace_cons (hb c rfl), splitWhitespace,
      List.splitOnP_append_cons_of_forall_mem h.visible c (hb c rfl) b,
      List.filter_cons_of_pos (by simpa using h.ne_nil), splitWhitespace]

theorem splitOn_of_notMem (h : c ∉ a) : a.splitOn c = [a] :=
  List.splitOnP_eq_singleton fun x hx => by simpa using fun he : x = c => h (he ▸ hx)

theorem splitOn_append_cons (h : c ∉ a) (b : List Char) : (a ++ c :: b).splitOn c = a :: b.splitOn c :=
  List.splitOnP_append_cons_of_forall_mem (fun x hx => by simpa using fun he : x = c => h (he ▸ hx)) c (by simp) b

/-- The first piece ends before the first `c`. -/
theorem exists_splitOn (c : Char) (l : List Char) : ∃ pieces, l.splitOn c = l.takeWhile (· ≠ c) :: pieces := by
  have hall {a : List Char} (h : c ∉ a) : ∀ x ∈ a, decide (x ≠ c) = true :=
    fun x hx => by simpa using fun he : x = c => h (he ▸ hx)
  by_cases hc : c ∈ l
  · obtain ⟨a, b, rfl, ha⟩ := List.eq_append_cons_of_mem hc
    refine ⟨b.splitOn c, ?_⟩
    rw [splitOn_append_cons ha, List.takeWhile_append_of_pos (hall ha), List.takeWhile_cons_of_neg (by simp),
      List.append_nil]
  · refine ⟨[], ?_⟩
    rw [splitOn_of_notMem hc, List.takeWhile_eq_self_iff.2 (hall hc)]

theorem head?_lines_append (h : '\n' ∉ a) (b : List Char) : (lines (a ++ '\n' :: b)).head? = some (stripCr a) := by
  have hne : b.splitOn '\n' ≠ [] := List.splitOnP_ne_nil _ b
  rw [lines, splitOn_append_cons h, List.dropLast_cons_of_ne_nil hne]
  rfl

theorem lines_of_notMem (h : '\n' ∉ a) (hne : a ≠ []) : lines a = [a] := by
  simp [lines, splitOn_of_notMem h, hne]

theorem stripCr_append (hb : b ≠ []) : stripCr (a ++ b) = a ++ stripCr b := by
  have hcr : ['\r'] <:+ a ++ b ↔ ['\r'] <:+ b := by
    rw [List.singleton_suffix_iff_getLast?_eq_some, List.singleton_suffix_iff_getLast?_eq_some,
      List.getLast?_append_of_ne_nil a hb]
  unfold stripCr
  by_cases h : ['\r'] <:+ b
  · rw [if_pos (hcr.2 h), if_pos h, List.dropLast_append_of_ne_nil hb]
  · rw [if_neg (fun h' => h (hcr.1 h')), if_neg h]

theorem stripCr_of_isWord (h : IsWord w) : stripCr w = w := by
  refine if_neg fun hcr => ?_
  exact h.notMem (show isWhitespace '\r' = true by decide) (hcr.mem List.mem_cons_self)

theorem Breaks.stripCr (h : Breaks b) : Breaks (stripCr b) := by
  unfold Str.stripCr
  split
  · intro c hc
    rw [List.head?_dropLast] at hc
    split at hc
    · exact h c hc
    · cases hc
  · exact h

/-- A text that begins with two words has the second as the second word of its first line. -/
theorem second_word {v : List Char} (hw : IsWord w) (hv : IsWord v) (hb : Breaks b) :
    ((lines (w ++ ' ' :: (v ++ b))).head?.bind fun line => (splitWhitespace line)[1]?) = some v := by
  have hline {d : List Char} (hd : Breaks d) : (splitWhitespace (w ++ ' ' :: (v ++ d)))[1]? = some v := by
    rw [splitWhitespace_append hw fun c hc => by obtain rfl := Option.some.inj hc; decide,
      splitWhitespace_cons (by decide), splitWhitespace_append hv hd]
    rfl
  have hnl : isWhitespace '\n' = true := by decide
  have hfront {d : List Char} (hd : '\n' ∉ d) : '\n' ∉ w ++ ' ' :: (v ++ d) := by
    simp [hw.notMem hnl, hv.notMem hnl, hd]
  by_cases hmem : '\n' ∈ b
  · obtain ⟨a, d, rfl, ha⟩ := List.eq_append_cons_of_mem hmem
    have hbreaks : Breaks a := by
      cases a with
      | nil => exact fun c hc => nomatch hc
      | cons c a => exact fun c' hc => hb c' hc
    have htext : w ++ ' ' :: (v ++ (a ++ '\n' :: d)) = (w ++ ' ' :: (v ++ a)) ++ '\n' :: d := by simp
    rw [htext, head?_lines_append (hfront ha)]
    cases a with
    | nil =>
      rw [List.append_nil, stripCr_append (List.cons_ne_nil _ _), ← List.singleton_append, stripCr_append hv.ne_nil,
        stripCr_of_isWord hv]
      have hempty := hline (d := []) fun c hc => nomatch hc
      rwa [List.append_nil] at hempty
    | cons c a =>
      rw [← List.singleton_append, ← List.append_assoc, ← List.append_assoc, stripCr_append (List.cons_ne_nil c a)]
      have hstripped := hline hbreaks.stripCr
      rwa [← List.singleton_append, ← List.append_assoc, ← List.append_assoc] at hstripped
  · rw [lines_of_notMem (hfront hmem) (by simp)]
    exact hline hb

end

section
variable {α : Type*} {c : α} {sep : List α}

/-- What stands before the first `c` and what follows it are determined. -/
theorem append_cons_inj {x y u v : List α} (hx : c ∉ x) (hy : c ∉ y) (h : x ++ c :: u = y ++ c :: v) :
    x = y ∧ u = v := by
  induction x generalizing y with
  | nil =>
    cases y with
    | nil => exact ⟨rfl, (List.cons.inj h).2⟩
    | cons b y => exact absurd (List.cons.inj h).1 (List.ne_of_not_mem_cons hy)
  | cons a x ih =>
    cases y with
    | nil => exact absurd (List.cons.inj h).1.symm (List.ne_of_not_mem_cons hx)
    | cons b y =>
      obtain ⟨rfl, htail⟩ := List.cons.inj h
      obtain ⟨rfl, rfl⟩ := ih (List.not_mem_of_not_mem_cons hx) (List.not_mem_of_not_mem_cons hy) htail
      exact ⟨rfl, rfl⟩

theorem intercalate_inj {l m : List (List α)} (hl : ∀ p ∈ l, c ∉ p) (hm : ∀ p ∈ m, c ∉ p) (hl' : l ≠ [])
    (hm' : m ≠ []) (h : (c :: sep).intercalate l = (c :: sep).intercalate m) : l = m := by
  induction l generalizing m with
  | nil => exact absurd rfl hl'
  | cons p l ih =>
    obtain ⟨q, m, rfl⟩ := List.exists_cons_of_ne_nil hm'
    have hp : c ∉ p := hl p List.mem_cons_self
    have hq : c ∉ q := hm q List.mem_cons_self
    cases l with
    | nil =>
      cases m with
      | nil => simpa using h
      | cons q' m =>
        refine absurd ?_ hp
        simp only [List.intercalate_singleton, List.intercalate_cons_cons] at h
        simp [h]
    | cons p' l =>
      cases m with
      | nil =>
        refine absurd ?_ hq
        simp only [List.intercalate_singleton, List.intercalate_cons_cons] at h
        simp [← h]
      | cons q' m =>
        rw [List.intercalate_cons_cons, List.intercalate_cons_cons, List.append_assoc, List.append_assoc] at h
        obtain ⟨rfl, hrest⟩ := append_cons_inj hp hq h
        rw [ih (fun r hr => hl r (List.mem_cons_of_mem _ hr)) (fun r hr => hm r (List.mem_cons_of_mem _ hr))
          (List.cons_ne_nil _ _) (List.cons_ne_nil _ _) (List.append_cancel_left hrest)]

end

section
variable {α : Type*} {p b l : List α} {k n : Nat}

/-- `n` copies of `p`. -/
def copies (n : Nat) (p : List α) : List α := (List.replicate n p).flatten

theorem copies_succ (n : Nat) (p : List α) : copies (n + 1) p = p ++ copies n p := by
  rw [copies, List.replicate_succ, List.flatten_cons, copies]

theorem copies_one (p : List α) : copies 1 p = p := by simp [copies]

theorem length_copies (n : Nat) (p : List α) : (copies n p).length = n * p.length := by simp [copies]

theorem reverse_copies (n : Nat) (p : List α) : (copies n p).reverse = copies n p.reverse := by
  rw [copies, copies, List.reverse_flatten, List.map_replicate, List.reverse_replicate]

theorem copies_succ' (n : Nat) (p : List α) : copies (n + 1) p = copies n p ++ p := by
  rw [← List.reverse_inj, reverse_copies, copies_succ, List.reverse_append, reverse_copies]

/-- If no end of `p` is a beginning of `q`, then a suffix `q` of `p ++ l` lies within `l`. -/
theorem suffix_of_suffix_append {q : List α} (h : ∀ t ∈ p.tails, t ≠ [] → ¬ t <+: q) (hq : q <:+ p ++ l) :
    q <:+ l := by
  obtain ⟨front, heq⟩ := hq
  rcases List.append_eq_append_iff.1 heq with ⟨t, rfl, rfl⟩ | ⟨t, -, rfl⟩
  · have htails : t ∈ (front ++ t).tails := (List.mem_tails t _).2 (List.suffix_append front t)
    obtain rfl : t = [] := by_contra fun hne => h t htails hne (List.prefix_append t l)
    exact List.suffix_refl l
  · exact List.suffix_append t q

variable [DecidableEq α]

/-- The list without the copies of `p` at its start, at most `n` of them. -/
def dropCopies (p : List α) : Nat → List α → List α
  | 0, l => l
  | n + 1, l => if p <+: l then dropCopies p n (l.drop p.length) else l

def trimStartMatches (p l : List α) : List α := dropCopies p l.length l

/-- What follows the first occurrence of `p`. -/
def afterFirst (p : List α) : List α → Option (List α)
  | [] => if p = [] then some [] else none
  | c :: l => if p <+: c :: l then some ((c :: l).drop p.length) else afterFirst p l

def trimEndMatches (p l : List α) : List α := (trimStartMatches p.reverse l.reverse).reverse

theorem afterFirst_append (p l : List α) : afterFirst p (p ++ l) = some l := by
  cases p with
  | nil => cases l <;> simp [afterFirst]
  | cons c p =>
    rw [List.cons_append, afterFirst, ← List.cons_append, if_pos (List.prefix_append (c :: p) l), List.drop_left]

/-- If `p` does not begin within `b`, then its first occurrence is the one after `b`. -/
theorem afterFirst_append_append (h : ∀ t ∈ b.tails, t ≠ [] → ¬ p <+: t ++ p) (l : List α) :
    afterFirst p (b ++ (p ++ l)) = some l := by
  induction b with
  | nil => exact afterFirst_append p l
  | cons c b ih =>
    have hprefix : ¬ p <+: c :: (b ++ (p ++ l)) := by
      intro hp
      have hle : p.length ≤ (c :: b ++ p).length := by rw [List.length_append]; exact Nat.le_add_left _ _
      refine h (c :: b) (List.mem_cons_self ..) (List.cons_ne_nil c b) ?_
      exact List.prefix_of_prefix_length_le hp ⟨l, by simp⟩ hle
    rw [List.cons_append, afterFirst, if_neg hprefix, ih fun t ht => h t (List.mem_cons_of_mem _ ht)]

theorem dropCopies_of_not_prefix (h : ¬ p <+: b) (n : Nat) : dropCopies p n b = b := by
  cases n with
  | zero => rfl
  | succ n => rw [dropCopies, if_neg h]

theorem dropCopies_copies_append (h : ¬ p <+: b) (hk : k ≤ n) : dropCopies p n (copies k p ++ b) = b := by
  induction k generalizing n with
  | zero => exact dropCopies_of_not_prefix h n
  | succ k ih =>
    obtain ⟨n, rfl⟩ := Nat.exists_eq_succ_of_ne_zero (Nat.ne_zero_of_lt hk)
    rw [copies_succ, List.append_assoc, dropCopies, if_pos (List.prefix_append p _), List.drop_left]
    exact ih (Nat.le_of_succ_le_succ hk)

theorem trimStartMatches_copies_append (hp : p ≠ []) (h : ¬ p <+: b) (k : Nat) :
    trimStartMatches p (copies k p ++ b) = b := by
  have hlen : 0 < p.length := List.length_pos_iff.2 hp
  refine dropCopies_copies_append h ?_
  rw [List.length_append, length_copies]
  exact (Nat.le_mul_of_pos_right k hlen).trans (Nat.le_add_right _ _)

theorem exists_copies_append (p : List α) (n : Nat) (l : List α) : ∃ k, l = copies k p ++ dropCopies p n l := by
  induction n generalizing l with
  | zero => exact ⟨0, rfl⟩
  | succ n ih =>
    rw [dropCopies]
    split
    · rename_i hprefix
      obtain ⟨rest, rfl⟩ := hprefix
      obtain ⟨k, hk⟩ := ih rest
      refine ⟨k + 1, ?_⟩
      rw [List.drop_left, copies_succ, List.append_assoc, ← hk]
    · exact ⟨0, rfl⟩

theorem not_prefix_dropCopies (hp : p ≠ []) (hn : l.length ≤ n) : ¬ p <+: dropCopies p n l := by
  have hlen : 0 < p.length := List.length_pos_iff.2 hp
  induction n generalizing l with
  | zero =>
    intro hprefix
    have := hprefix.length_le
    rw [dropCopies] at this
    omega
  | succ n ih =>
    rw [dropCopies]
    split
    · refine ih ?_
      rw [List.length_drop]
      omega
    · assumption

theorem trimEndMatches_append_copies (hp : p ≠ []) (h : ¬ p <:+ b) (k : Nat) :
    trimEndMatches p (b ++ copies k p) = b := by
  rw [trimEndMatches, List.reverse_append, reverse_copies,
    trimStartMatches_copies_append (by simpa using hp) (by rwa [List.reverse_prefix]), List.reverse_reverse]

theorem exists_append_copies (p l : List α) : ∃ k, l = trimEndMatches p l ++ copies k p := by
  obtain ⟨k, hk⟩ := exists_copies_append p.reverse l.reverse.length l.reverse
  refine ⟨k, ?_⟩
  rw [← List.reverse_inj, List.reverse_append, reverse_copies, trimEndMatches, List.reverse_reverse]
  exact hk

theorem not_suffix_trimEndMatches (hp : p ≠ []) (l : List α) : ¬ p <:+ trimEndMatches p l := by
  rw [← List.reverse_prefix, trimEndMatches, List.reverse_reverse]
  exact not_prefix_dropCopies (by simpa using hp) le_rfl

end

end Str
