import Orb8.Net

/-!
# The self-traffic filter as the agent sets it up

`scanFibTrie` collects the addresses that stand directly above a line calling them local. The set it
starts from already holds the loopback address, so it is never empty, and the filter's case for unknown
local addresses, which goes by port alone, is never taken.
-/

namespace Orb8

def loopback : UInt32 := fromLeBytes 127 0 0 1

/-- Some line of the trie shows `ip`, and the next one calls it local. -/
def LocalAddress (lines : List (List Char)) (ip : UInt32) : Prop :=
  ∃ before line next after, lines = before ++ line :: next :: after ∧ isTrieNode line ∧ saysLocal next ∧
    nodeAddress line = some ip

/-- One endpoint of the event is at `port`, with an address that satisfies `P`. -/
def AtEndpoint (event : NetworkFlowEvent) (port : UInt16) (P : UInt32 → Prop) : Prop :=
  (event.srcPort = port ∧ P event.srcIp) ∨ (event.dstPort = port ∧ P event.dstIp)

/-- Traffic with the agent's gRPC port: at a local address if these are known, at any address if not. -/
def SelfTraffic (event : NetworkFlowEvent) (grpcPort : UInt16) : Option String → Prop
  | some content => AtEndpoint event grpcPort fun ip =>
      ip = loopback ∨ LocalAddress (Str.lines content.toList) ip
  | none => event.srcPort = grpcPort ∨ event.dstPort = grpcPort

section
variable {line next : List Char} {lines rest : List (List Char)} {ips : Finset UInt32} {ip : UInt32}

/-! ### The scan -/

theorem not_localAddress_of_short (h : lines.length ≤ 1) : ¬ LocalAddress lines ip := by
  rintro ⟨before, line, next, after, rfl, -⟩
  rw [List.length_append, List.length_cons, List.length_cons] at h
  omega

theorem localAddress_cons_cons : LocalAddress (line :: next :: rest) ip ↔
    (isTrieNode line ∧ saysLocal next ∧ nodeAddress line = some ip) ∨
      LocalAddress (next :: rest) ip := by
  constructor
  · rintro ⟨before, line', next', after, heq, hnode, hlocal, hip⟩
    cases before with
    | nil =>
      obtain ⟨rfl, rfl, -⟩ : line = line' ∧ next = next' ∧ rest = after := by simpa using heq
      exact .inl ⟨hnode, hlocal, hip⟩
    | cons first before =>
      obtain ⟨-, heq⟩ : line = first ∧ next :: rest = before ++ line' :: next' :: after := by simpa using heq
      exact .inr ⟨before, line', next', after, heq, hnode, hlocal, hip⟩
  · rintro (⟨hnode, hlocal, hip⟩ | ⟨before, line', next', after, heq, h⟩)
    · exact ⟨[], line, next, rest, rfl, hnode, hlocal, hip⟩
    · exact ⟨line :: before, line', next', after, by rw [heq, List.cons_append], h⟩

theorem mem_scanFibTrie (lines : List (List Char)) (ips : Finset UInt32) :
    ip ∈ scanFibTrie lines ips ↔ ip ∈ ips ∨ LocalAddress lines ip := by
  induction lines, ips using scanFibTrie.induct with
  | case1 line next rest ips hline shown hshown ih =>
    obtain ⟨hnode, hlocal⟩ : isTrieNode line ∧ saysLocal next := by
      rwa [Bool.and_eq_true_iff] at hline
    have hhere : (isTrieNode line ∧ saysLocal next ∧ nodeAddress line = some ip) ↔
        ip = shown := by
      rw [hshown, Option.some_inj]
      exact ⟨fun h => h.2.2.symm, fun h => ⟨hnode, hlocal, h.symm⟩⟩
    rw [scanFibTrie, if_pos hline, hshown, ih, localAddress_cons_cons, hhere, Finset.mem_insert, or_assoc,
      or_left_comm]
  | case2 line next rest ips hline hnone ih =>
    have hhere : ¬ (isTrieNode line ∧ saysLocal next ∧ nodeAddress line = some ip) := by
      rintro ⟨-, -, hip⟩
      rw [hnone] at hip
      cases hip
    rw [scanFibTrie, if_pos hline, hnone, ih, localAddress_cons_cons, or_iff_right hhere]
  | case3 line next rest ips hline ih =>
    have hhere : ¬ (isTrieNode line ∧ saysLocal next ∧ nodeAddress line = some ip) := by
      rintro ⟨hnode, hlocal, -⟩
      exact hline (by rw [hnode, hlocal]; rfl)
    rw [scanFibTrie, if_neg hline, ih, localAddress_cons_cons, or_iff_right hhere]
  | case4 lines ips h =>
    have hshort : lines.length ≤ 1 := by
      match lines, h with
      | [], _ => exact Nat.zero_le 1
      | [_], _ => exact Nat.le_refl 1
      | line :: next :: rest, h => exact absurd rfl (h line next rest)
    rw [scanFibTrie, or_iff_left (not_localAddress_of_short hshort)]
    exact h

theorem mem_resolveLocalIps (fibTrie : Option String) : ip ∈ resolveLocalIps fibTrie ↔
    ip = loopback ∨ ∃ content, fibTrie = some content ∧ LocalAddress (Str.lines content.toList) ip := by
  cases fibTrie with
  | none => simp [resolveLocalIps, loopback]
  | some content => simp [resolveLocalIps, mem_scanFibTrie, loopback]

/-! ### The filter -/

theorem isSelfTraffic_of_mem {localIps : Finset UInt32} (h : ip ∈ localIps) (event : NetworkFlowEvent)
    (grpcPort : UInt16) :
    isSelfTraffic event grpcPort localIps = true ↔ AtEndpoint event grpcPort (· ∈ localIps) := by
  have hne : localIps ≠ ∅ := Finset.ne_empty_of_mem h
  simp [isSelfTraffic, hne, AtEndpoint]

theorem isSelfTraffic_resolveLocalIps (event : NetworkFlowEvent) (grpcPort : UInt16) (fibTrie : Option String) :
    isSelfTraffic event grpcPort (resolveLocalIps fibTrie) = true ↔
      AtEndpoint event grpcPort fun ip => ip = loopback ∨
        ∃ content, fibTrie = some content ∧ LocalAddress (Str.lines content.toList) ip := by
  have hloopback : loopback ∈ resolveLocalIps fibTrie := (mem_resolveLocalIps fibTrie).2 (.inl rfl)
  rw [isSelfTraffic_of_mem hloopback]
  simp only [mem_resolveLocalIps]

/-- The filter is right if the trie was read. If it was not, traffic with the gRPC port is filtered only
where it is loopback traffic. -/
theorem selfTraffic_iff (event : NetworkFlowEvent) (grpcPort : UInt16) (fibTrie : Option String) :
    (isSelfTraffic event grpcPort (resolveLocalIps fibTrie) = true ↔ SelfTraffic event grpcPort fibTrie) ↔
      (fibTrie = none → (event.srcPort = grpcPort ∨ event.dstPort = grpcPort) →
        AtEndpoint event grpcPort (· = loopback)) := by
  rw [isSelfTraffic_resolveLocalIps]
  cases fibTrie with
  | none =>
    have hport (h : AtEndpoint event grpcPort (· = loopback)) :
        event.srcPort = grpcPort ∨ event.dstPort = grpcPort := Or.imp And.left And.left h
    simp only [SelfTraffic, reduceCtorEq, false_and, exists_false, or_false, forall_const]
    exact ⟨Iff.mpr, fun h => ⟨hport, h⟩⟩
  | some content =>
    simp [SelfTraffic]

/-- A reply of the gRPC server, when the trie cannot be read: 10.0.0.5:9090 to 10.0.0.6:40000. -/
theorem not_selfTraffic :
    let event : NetworkFlowEvent :=
      { timestampNs := 0, cgroupId := 0, srcIp := 0x0500000A, dstIp := 0x0600000A, srcPort := 9090,
        dstPort := 40000, protocol := 6, direction := 1, packetLen := 60 }
    ¬ (isSelfTraffic event 9090 (resolveLocalIps none) = true ↔ SelfTraffic event 9090 none) := by
  intro event h
  exact absurd (h.2 (.inl rfl)) (by decide)

end

end Orb8
