import Orb8.Lib.Str
import Orb8.Lib.Text
import Orb8.Lib.Utf8
import Mathlib.Data.UInt

/-!
# The pre-flight checks (`probe_loader.rs`)

Only the check of the kernel's version can fail: the other two warn. `Release` is the grammar of the
version that it reads, of which everything behind the minor number is free.
-/

namespace Orb8
open Utf8 Str Text

def U32_MAX : Nat := 2 ^ 32 - 1

/-- `stdout` is what `uname -r` printed, `none` if it could not be run; `utf8Error` is the text of an error of
`String::from_utf8`. -/
def checkKernelVersion (utf8Error : List UInt8 → String) (stdout : Option (List UInt8)) : Except String Unit :=
  match stdout with
  | none => .error "Failed to get kernel version"
  | some stdout =>
    match decode stdout with
    | none => .error (utf8Error stdout)
    | some versionStr =>
      match versionStr.splitOn '.' with
      | part₀ :: part₁ :: _ =>
        match parseUint U32_MAX (trim part₀) with
        | none => .error "Invalid kernel major version"
        | some major =>
          let minorStr := (part₁.splitOn '-').headD part₁
          match parseUint U32_MAX (trim minorStr) with
          | none => .error "Invalid kernel minor version"
          | some minor =>
            if major < 5 ∨ major = 5 ∧ minor < 8 then
              .error ("Kernel " ++ String.ofList (trim versionStr) ++
                " is too old. eBPF requires kernel 5.8+ (5.15+ recommended)")
            else .ok ()
      | _ => .error ("Could not parse kernel version: " ++ String.ofList versionStr)

/-- `check_btf` and `check_capabilities` return no errors. -/
def runPreflightChecks (utf8Error : List UInt8 → String) (stdout : Option (List UInt8)) : Except String Unit :=
  checkKernelVersion utf8Error stdout

/-- The digits of `n`, with or without a plus sign, between white space. -/
def Numeral (cs : List Char) (n : Nat) : Prop :=
  IsDigits (unsignedDigits (trim cs)) ∧ decimal (unsignedDigits (trim cs)) = n ∧ n < 2 ^ 32

/-- The major number, a dot, the minor number, and nothing or a text that begins with a dot or a dash. -/
def Release (text : List Char) (major minor : Nat) : Prop :=
  ∃ front middle rest, text = front ++ '.' :: (middle ++ rest) ∧ '.' ∉ front ∧ '.' ∉ middle ∧ '-' ∉ middle ∧
    (∀ c, rest.head? = some c → c = '.' ∨ c = '-') ∧ Numeral front major ∧ Numeral middle minor

def Supported (major minor : Nat) : Prop := 5 < major ∨ major = 5 ∧ 8 ≤ minor

section
variable {major minor n : Nat} {cs text : List Char} {utf8Error : List UInt8 → String} {stdout : List UInt8}

theorem parseUint_trim_eq_some_iff : parseUint U32_MAX (trim cs) = some n ↔ Numeral cs n := by
  rw [parseUint_eq_some_iff, Numeral]
  have hmax : n ≤ U32_MAX ↔ n < 2 ^ 32 := by
    unfold U32_MAX
    omega
  rw [hmax]

/-- The minor number stands before the next dot or dash. -/
theorem exists_minorStr (b : List Char) : ∃ part₁ parts, b.splitOn '.' = part₁ :: parts ∧
    (part₁.splitOn '-').headD part₁ = b.takeWhile fun c => c ≠ '-' ∧ c ≠ '.' := by
  obtain ⟨parts, hparts⟩ := exists_splitOn '.' b
  obtain ⟨parts', hparts'⟩ := exists_splitOn '-' (b.takeWhile (· ≠ '.'))
  refine ⟨_, parts, hparts, ?_⟩
  rw [hparts', List.headD_cons, List.takeWhile_takeWhile]
  simp

theorem checkKernelVersion_ne_ok (hdecode : decode stdout = some text) (hdot : '.' ∉ text) :
    checkKernelVersion utf8Error (some stdout) ≠ .ok () := by
  simp only [checkKernelVersion, hdecode, splitOn_of_notMem hdot]
  exact nofun

theorem checkKernelVersion_iff_of_split {front b : List Char} (hdecode : decode stdout = some (front ++ '.' :: b))
    (hdot : '.' ∉ front) : checkKernelVersion utf8Error (some stdout) = .ok () ↔
      ∃ major minor, Numeral front major ∧ Numeral (b.takeWhile fun c => c ≠ '-' ∧ c ≠ '.') minor ∧
        Supported major minor := by
  obtain ⟨part₁, parts, hparts, hminor⟩ := exists_minorStr b
  simp only [checkKernelVersion, hdecode, splitOn_append_cons hdot, hparts, hminor, ← parseUint_trim_eq_some_iff]
  cases parseUint U32_MAX (trim front) with
  | none => simp
  | some major =>
    cases parseUint U32_MAX (trim (b.takeWhile fun c => c ≠ '-' ∧ c ≠ '.')) with
    | none => simp
    | some minor =>
      have hsupported : ¬ (major < 5 ∨ major = 5 ∧ minor < 8) ↔ Supported major minor := by
        unfold Supported
        omega
      simp only [Option.some.injEq, exists_and_left, exists_eq_left']
      split
      · rename_i hold
        exact iff_of_false nofun fun h => hsupported.2 h hold
      · rename_i hnew
        exact iff_of_true rfl (hsupported.1 hnew)

theorem takeWhile_append_rest {middle rest : List Char} (hdot : '.' ∉ middle) (hdash : '-' ∉ middle)
    (hrest : ∀ c, rest.head? = some c → c = '.' ∨ c = '-') :
    (middle ++ rest).takeWhile (fun c => c ≠ '-' ∧ c ≠ '.') = middle := by
  have hall : ∀ c ∈ middle, decide (c ≠ '-' ∧ c ≠ '.') = true := by
    intro c hc
    simpa using And.intro (fun h : c = '-' => hdash (h ▸ hc)) (fun h : c = '.' => hdot (h ▸ hc))
  rw [List.takeWhile_append_of_pos hall]
  cases rest with
  | nil => rw [List.takeWhile_nil, List.append_nil]
  | cons c rest =>
    have hc := hrest c rfl
    rw [List.takeWhile_cons_of_neg (by simpa using fun h => hc.resolve_right h), List.append_nil]

/-- The agent starts exactly on the releases from 5.8 on. -/
theorem runPreflightChecks_ok_iff (utf8Error : List UInt8 → String) (stdout : List UInt8) :
    runPreflightChecks utf8Error (some stdout) = .ok () ↔
      ∃ text major minor, encode text = stdout ∧ Release text major minor ∧ Supported major minor := by
  unfold runPreflightChecks
  constructor
  · intro h
    cases hdecode : decode stdout with
    | none => simp only [checkKernelVersion, hdecode, reduceCtorEq] at h
    | some text =>
      by_cases hdot : '.' ∈ text
      · obtain ⟨front, b, rfl, hfront⟩ := List.eq_append_cons_of_mem hdot
        obtain ⟨major, minor, hmajor, hminor, hsupported⟩ := (checkKernelVersion_iff_of_split hdecode hfront).1 h
        refine ⟨_, major, minor, decode_eq_some_iff.1 hdecode, ⟨front, _, b.dropWhile fun c => c ≠ '-' ∧ c ≠ '.', ?_, hfront,
          ?_, ?_, ?_, hmajor, hminor⟩, hsupported⟩
        · rw [List.takeWhile_append_dropWhile]
        · exact fun hmem => by simpa using List.mem_takeWhile_imp hmem
        · exact fun hmem => by simpa using List.mem_takeWhile_imp hmem
        · intro c hc
          have hnot := List.head?_dropWhile_not (fun c : Char => decide (c ≠ '-' ∧ c ≠ '.')) b
          rw [hc] at hnot
          simp at hnot
          tauto
      · exact absurd h (checkKernelVersion_ne_ok hdecode hdot)
  · rintro ⟨text, major, minor, rfl, ⟨front, middle, rest, rfl, hfront, hdot, hdash, hrest, hmajor, hminor⟩, hsupported⟩
    refine (checkKernelVersion_iff_of_split (decode_encode _) hfront).2 ⟨major, minor, hmajor, ?_, hsupported⟩
    rwa [takeWhile_append_rest hdot hdash hrest]

end

example : runPreflightChecks (fun _ => "") (some (encode "5.15.0-91-generic\n".toList)) = .ok () := by decide

/-- A local version after the minor number is not read. -/
example : runPreflightChecks (fun _ => "") (some (encode "6.1+\n".toList)) = .error "Invalid kernel minor version" := by
  decide

end Orb8
