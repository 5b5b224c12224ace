import Mathlib.Data.List.Basic

/-!
# Messages of HTTP/1.1

A message is a start line, headers and a body; a line ends with CR LF, and an empty line ends the
headers. `readMessage` is what a client makes of the text of a message. It reads back what `render`
writes (`readMessage_render`), whatever is in the body.
-/

namespace Http

def CRLF : List Char := ['\r', '\n']

structure Message where
  start : List Char
  headers : List (List Char)
  body : List Char

/-- Nothing in the head of the message ends a line before its end, and no header is empty. -/
structure Message.WellFormed (m : Message) : Prop where
  start : '\r' ∉ m.start
  headers : ∀ h ∈ m.headers, h ≠ [] ∧ '\r' ∉ h

def renderHeaders : List (List Char) → List Char
  | [] => CRLF
  | h :: hs => h ++ CRLF ++ renderHeaders hs

def Message.render (m : Message) : List Char := m.start ++ CRLF ++ renderHeaders m.headers ++ m.body

/-- The first line, and what follows it. -/
def takeLine : List Char → Option (List Char × List Char)
  | [] => none
  | '\r' :: '\n' :: rest => some ([], rest)
  | c :: rest => (takeLine rest).map fun p => (c :: p.1, p.2)

/-- The lines up to an empty one, at most `n`, and what follows it. -/
def takeHeaders : Nat → List Char → Option (List (List Char) × List Char)
  | 0, _ => none
  | n + 1, cs =>
    match takeLine cs with
    | none => none
    | some ([], rest) => some ([], rest)
    | some (line, rest) => (takeHeaders n rest).map fun p => (line :: p.1, p.2)

def readMessage (cs : List Char) : Option Message := do
  let (start, rest) ← takeLine cs
  let (headers, body) ← takeHeaders rest.length rest
  some ⟨start, headers, body⟩

/-- The value of the first header with the name. -/
def Message.field (m : Message) (name : List Char) : Option (List Char) :=
  m.headers.findSome? fun h => if name ++ [':', ' '] <+: h then some (h.drop (name.length + 2)) else none

/-! ### Reading back what was written -/

theorem takeLine_append {line : List Char} (h : '\r' ∉ line) (rest : List Char) :
    takeLine (line ++ (CRLF ++ rest)) = some (line, rest) := by
  induction line with
  | nil => rfl
  | cons c line ih =>
    rw [List.mem_cons, not_or] at h
    have hcons : takeLine (c :: (line ++ (CRLF ++ rest))) =
        (takeLine (line ++ (CRLF ++ rest))).map fun p => (c :: p.1, p.2) := by
      rw [takeLine]
      rintro rest' rfl
      exact absurd rfl h.1
    rw [List.cons_append, hcons, ih h.2]
    rfl

theorem takeHeaders_renderHeaders {headers : List (List Char)} (h : ∀ line ∈ headers, line ≠ [] ∧ '\r' ∉ line)
    (body : List Char) {n : Nat} (hn : headers.length < n) :
    takeHeaders n (renderHeaders headers ++ body) = some (headers, body) := by
  induction headers generalizing n with
  | nil =>
    obtain ⟨n, rfl⟩ := Nat.exists_eq_succ_of_ne_zero (Nat.ne_zero_of_lt hn)
    rfl
  | cons line headers ih =>
    obtain ⟨n, rfl⟩ := Nat.exists_eq_succ_of_ne_zero (Nat.ne_zero_of_lt hn)
    obtain ⟨hne, hcr⟩ := h line List.mem_cons_self
    have hrest := ih (fun l hl => h l (List.mem_cons_of_mem line hl)) (Nat.lt_of_succ_lt_succ hn)
    have hline : takeLine (renderHeaders (line :: headers) ++ body) = some (line, renderHeaders headers ++ body) := by
      rw [renderHeaders, List.append_assoc, List.append_assoc]
      exact takeLine_append hcr _
    obtain ⟨c, line, rfl⟩ := List.exists_cons_of_ne_nil hne
    rw [takeHeaders, hline]
    dsimp only
    rw [hrest]
    rfl

theorem length_lt_renderHeaders (headers : List (List Char)) : headers.length < (renderHeaders headers).length := by
  induction headers with
  | nil => decide
  | cons h headers ih =>
    have hcrlf : CRLF.length = 2 := rfl
    simp only [renderHeaders, List.length_append, List.length_cons, hcrlf]
    omega

theorem readMessage_render {m : Message} (h : m.WellFormed) : readMessage m.render = some m := by
  have hline : takeLine m.render = some (m.start, renderHeaders m.headers ++ m.body) := by
    rw [Message.render, List.append_assoc, List.append_assoc]
    exact takeLine_append h.start _
  have hlen : m.headers.length < (renderHeaders m.headers ++ m.body).length := by
    have := length_lt_renderHeaders m.headers
    rw [List.length_append]
    omega
  simp only [readMessage, hline, Option.bind_eq_bind, Option.bind_some,
    takeHeaders_renderHeaders h.headers m.body hlen]

end Http
