import Orb8.Lib.Utf8
import Orb8.ParseDuration
import Orb8.Pipeline
import Orb8.Provenance

/-!
# The live trace (`orb8-cli`)

`trace_network` prints a line for every event of its stream, until the stream ends or fails, an event comes
after the duration, or a name cannot be cut. `formatBytes` stands for `format_bytes`, which rounds a
floating-point number. What is printed after a run of the agent are frames that the probes captured.
-/

namespace Orb8
open Utf8 AMap Trace SharedCell

/-- What `next` on the stream returned: the milliseconds since the start, and the local time if it is
printed. -/
structure TraceItem where
  elapsed : UInt64
  time : String
  result : Except String NetworkEvent

inductive TraceEnd where
  /-- The stream has ended. -/
  | ended
  | durationReached
  | streamError (e : String)
  /-- A slice of a name begins or ends within a character. -/
  | panicked
deriving DecidableEq

/-- `{:<width$}`. -/
def padRight (width : Nat) (s : String) : String := s ++ String.ofList (List.replicate (width - s.length) ' ')

/-- `{:>width$}`. -/
def padLeft (width : Nat) (s : String) : String := String.ofList (List.replicate (width - s.length) ' ') ++ s

/-- `none` is the panic of the slice. -/
def truncate (s : String) (maxLen : Nat) : Option String :=
  if s.utf8ByteSize ≤ maxLen then some s
  else (takeBytes (maxLen - 3) s.toList).map fun front => String.ofList front ++ "..."

/-- The format of a row; `width` is that of the last column. -/
def columns (width : Nat) (nsPod protocol src dst direction bytes last : String) : String :=
  " ".intercalate [padRight 20 nsPod, padRight 15 protocol, padLeft 21 src, padLeft 21 dst, padLeft 8 direction,
    padLeft 9 bytes, padLeft width last]

def nsPodColumn (namespace_ podName : String) : Option String := do
  let podName ← truncate podName 12
  truncate (namespace_ ++ "/" ++ podName) 20

def endpoint (ip : String) (port : UInt32) : String := ip ++ ":" ++ toString port.toNat

section
variable (formatBytes : UInt64 → String)

def traceLine (time : String) (event : NetworkEvent) : Option String := do
  let nsPod ← nsPodColumn event.namespace_ event.podName
  let src := endpoint event.srcIp event.srcPort
  let dst := endpoint event.dstIp event.dstPort
  some (columns 7 nsPod event.protocol src dst event.direction (formatBytes event.bytes.toUInt64) time)

def TraceItem.late (durationMs : Option UInt64) (item : TraceItem) : Bool :=
  durationMs.any fun maxMs => maxMs ≤ item.elapsed

/-- The loop: the lines it prints for events, and why it ends. -/
def traceLoop (durationMs : Option UInt64) : List TraceItem → List String × TraceEnd
  | [] => ([], .ended)
  | item :: items =>
    if item.late durationMs then ([], .durationReached)
    else match item.result with
      | .error e => ([], .streamError e)
      | .ok event =>
        match traceLine formatBytes item.time event with
        | none => ([], .panicked)
        | some line => (line :: (traceLoop durationMs items).1, (traceLoop durationMs items).2)

/-- From when the client is connected: what is printed before the loop, then the loop or the error of the
duration. -/
def traceNetwork (agent : String) (namespaces : List String) (duration : Option String) (items : List TraceItem) :
    List String × Except String (List String × TraceEnd) :=
  let selection := if namespaces.isEmpty then "" else " (namespaces: " ++ ", ".intercalate namespaces ++ ")"
  ([ "Streaming network events from " ++ agent ++ selection ++ "...",
    columns 7 "NAMESPACE/POD" "PROTOCOL" "SOURCE" "DESTINATION" "DIR" "BYTES" "TIME",
    String.ofList (List.replicate 110 '-')],
  match duration.mapM parseDuration with
  | .error e => .error e
  | .ok durationMs => .ok (traceLoop formatBytes durationMs items))

/-! ### The loop -/

/-- Why the loop ends, with these items to come. -/
inductive Ends (durationMs : Option UInt64) : List TraceItem → TraceEnd → Prop
  | ended : Ends durationMs [] .ended
  | durationReached (item items) (h : item.late durationMs = true) : Ends durationMs (item :: items) .durationReached
  | streamError (item items e) (h : item.late durationMs = false) (he : item.result = .error e) :
    Ends durationMs (item :: items) (.streamError e)
  | panicked (item items event) (h : item.late durationMs = false) (he : item.result = .ok event)
      (hl : traceLine formatBytes item.time event = none) : Ends durationMs (item :: items) .panicked

/-- The line is the one for the item, which came in time. -/
def Prints (durationMs : Option UInt64) (item : TraceItem) (line : String) : Prop :=
  item.late durationMs = false ∧ ∃ event, item.result = .ok event ∧ traceLine formatBytes item.time event = some line

theorem traceLoop_spec (durationMs : Option UInt64) (items : List TraceItem) : ∃ shown rest, items = shown ++ rest ∧
    List.Forall₂ (Prints formatBytes durationMs) shown (traceLoop formatBytes durationMs items).1 ∧
    Ends formatBytes durationMs rest (traceLoop formatBytes durationMs items).2 := by
  induction items with
  | nil => exact ⟨[], [], rfl, .nil, .ended⟩
  | cons item items ih =>
    rw [traceLoop]
    cases hlate : item.late durationMs with
    | true => exact ⟨[], item :: items, rfl, .nil, .durationReached item items hlate⟩
    | false =>
      rw [if_neg Bool.false_ne_true]
      cases hresult : item.result with
      | error e => exact ⟨[], item :: items, rfl, .nil, .streamError item items e hlate hresult⟩
      | ok event =>
        dsimp only
        cases hline : traceLine formatBytes item.time event with
        | none => exact ⟨[], item :: items, rfl, .nil, .panicked item items event hlate hresult hline⟩
        | some line =>
          obtain ⟨shown, rest, rfl, hshown, hrest⟩ := ih
          exact ⟨item :: shown, rest, rfl, .cons ⟨hlate, event, hresult, hline⟩ hshown, hrest⟩

end

/-! ### Names that can be cut -/

def Ascii (s : String) : Prop := ∀ c ∈ s.toList, c.val ≤ 127

theorem Ascii.append {a b : String} (ha : Ascii a) (hb : Ascii b) : Ascii (a ++ b) := by
  unfold Ascii
  rw [String.toList_append, List.forall_mem_append]
  exact ⟨ha, hb⟩

theorem Ascii.exists_truncate {s : String} (h : Ascii s) (maxLen : Nat) : ∃ r, truncate s maxLen = some r ∧ Ascii r := by
  unfold truncate
  split
  · exact ⟨s, rfl, h⟩
  · rename_i hlong
    have hone (c : Char) (hc : c ∈ s.toList) : c.utf8Size = 1 := Char.utf8Size_eq_one_iff.2 (h c hc)
    have hle : maxLen - 3 ≤ s.toList.length := by
      rw [← length_encode, length_encode_of_ascii hone] at hlong
      omega
    rw [takeBytes_of_ascii hone hle, Option.map_some]
    refine ⟨_, rfl, Ascii.append ?_ ?_⟩
    · unfold Ascii
      rw [String.toList_ofList]
      exact fun c hc => h c (List.mem_of_mem_take hc)
    · unfold Ascii
      simp

theorem exists_nsPodColumn {namespace_ podName : String} (hns : Ascii namespace_) (hpod : Ascii podName) :
    ∃ nsPod, nsPodColumn namespace_ podName = some nsPod := by
  obtain ⟨cut, hcut, hascii⟩ := hpod.exists_truncate 12
  have hslash : Ascii "/" := by
    unfold Ascii
    simp
  obtain ⟨nsPod, hnsPod, -⟩ := ((hns.append hslash).append hascii).exists_truncate 20
  refine ⟨nsPod, ?_⟩
  simp only [nsPodColumn, hcut, hnsPod, Option.bind_eq_bind, Option.bind_some]

theorem exists_traceLine (formatBytes : UInt64 → String) (time : String) {event : NetworkEvent}
    (hns : Ascii event.namespace_) (hpod : Ascii event.podName) :
    ∃ line, traceLine formatBytes time event = some line := by
  obtain ⟨nsPod, hnsPod⟩ := exists_nsPodColumn hns hpod
  simp only [traceLine, hnsPod, Option.bind_eq_bind, Option.bind_some]
  exact ⟨_, rfl⟩

example : truncate "ééééééé" 12 = none := by decide

/-! ### What is printed after a run of the agent -/

def TraceItem.event (item : TraceItem) : Option NetworkEvent := item.result.toOption

/-- The line shows the event of one of the items, which came in time. -/
def ShowsItem (formatBytes : UInt64 → String) (durationMs : Option UInt64) (items : List TraceItem)
    (event : NetworkEvent) (line : String) : Prop :=
  ∃ item ∈ items, item.late durationMs = false ∧ item.event = some event ∧
    traceLine formatBytes item.time event = some line

theorem forall₂_showsItem {formatBytes : UInt64 → String} {durationMs : Option UInt64} {items shown : List TraceItem}
    {lines : List String} (h : List.Forall₂ (Prints formatBytes durationMs) shown lines) (hshown : ∀ item ∈ shown, item ∈ items) :
    List.Forall₂ (ShowsItem formatBytes durationMs items) (shown.filterMap TraceItem.event) lines := by
  induction h with
  | nil => exact .nil
  | @cons item line shown lines hprints _ ih =>
    obtain ⟨hlate, event, hresult, hline⟩ := hprints
    have hevent : item.event = some event := by rw [TraceItem.event, hresult]; rfl
    rw [List.filterMap_cons_some hevent]
    exact .cons ⟨item, hshown item List.mem_cons_self, hlate, hevent, hline⟩
      (ih fun i hi => hshown i (List.mem_cons_of_mem item hi))

/-- The line shows a captured frame, under names that the subscriber asked for, and was printed in time. -/
def Shows (formatBytes : UInt64 → String) (sub : Subscriber) (durationMs : Option UInt64) (items : List TraceItem)
    (c : NetworkFlowEvent) (line : String) : Prop :=
  ∃ names : String × String, (sub.namespaces = [] ∨ names.1 ∈ sub.namespaces) ∧
    ShowsItem formatBytes durationMs items (networkEvent c names.1 names.2) line

namespace Agent
variable {env : AgentEnv} {k8sEnabled : Bool} {acts : List AgentAction} {s : Agent} {id : Nat} {sub : Subscriber}

theorem sublist_sent_of_run (h : run (step env) (boot env k8sEnabled) acts = some s)
    (hsub : s.subscribers.lookup id = some sub) : sub.output.Sublist s.channel.sent := by
  have hfaithful : sub.output = _ := (ledger_run h).streams.faithful id sub hsub
  rw [hfaithful]
  exact List.filter_sublist.trans (Broadcast.between_sublist ..)

theorem passes_of_run (h : run (step env) (boot env k8sEnabled) acts = some s)
    (hsub : s.subscribers.lookup id = some sub) {event : NetworkEvent} (he : event ∈ sub.output) :
    sub.namespaces = [] ∨ event.namespace_ ∈ sub.namespaces := by
  have hfaithful : sub.output = _ := (ledger_run h).streams.faithful id sub hsub
  rw [hfaithful] at he
  simpa [passes] using (List.mem_filter.1 he).2

/-- What a stream yields are captured frames, each under the names that it was aggregated under. -/
theorem exists_captured (h : run (step env) (boot env k8sEnabled) acts = some s)
    (hsub : s.subscribers.lookup id = some sub) {events : List NetworkEvent} (hevents : events.Sublist sub.output) :
    ∃ puts : List (FlowKey × Stamped), (puts.map fun p => p.2.2).Sublist (acts.filterMap AgentAction.offered) ∧
      events = puts.map fun p => networkEvent p.2.2 p.1.namespace_ p.1.podName := by
  have hledger := ledger_run h
  have hsent := (hevents.trans (sublist_sent_of_run h hsub)).trans (List.sublist_append_left _ s.toSend)
  obtain ⟨puts, hputs, rfl⟩ := List.sublist_map_iff.1 (hsent.trans hledger.broadcast)
  have haggregated : (puts.map fun p => p.2.2).Sublist s.aggregated := hputs.map _
  have hhand := List.sublist_append_left s.aggregated (s.inHand env)
  rw [← hledger.aggregated] at hhand
  exact ⟨puts, ((haggregated.trans hhand).trans List.filter_sublist).trans hledger.ring_accounts.1, rfl⟩

theorem ascii_of_shown {src dst : String} {names : String × String} (h : Shown acts src dst names)
    (hascii : ∀ a ∈ acts, ∀ pod ∈ a.reported, Ascii pod.namespace_ ∧ Ascii pod.name) :
    Ascii names.1 ∧ Ascii names.2 := by
  obtain ⟨-, -, -, -, rfl | ⟨a, ha, pod, hpod, -, -, rfl⟩ | ⟨a, ha, pod, hpod, -, -, rfl⟩⟩ := h
  · unfold Ascii
    simp
  · exact hascii a ha pod hpod
  · exact hascii a ha pod hpod

/-- The lines that a client prints are frames that the probes captured, in their order and none twice, of
the namespaces that were asked for, and none after the duration. The client does not panic as long as the
cluster names its pods in ASCII. -/
theorem printed_of_run (formatBytes : UInt64 → String) (env : AgentEnv) (k8sEnabled : Bool) (acts : List AgentAction)
    (s : Agent) (h : run (step env) (boot env k8sEnabled) acts = some s) (id : Nat) (sub : Subscriber)
    (hsub : s.subscribers.lookup id = some sub) (agent : String) (duration : Option String)
    (durationMs : Option UInt64) (hduration : duration.mapM parseDuration = .ok durationMs) (items : List TraceItem)
    (hitems : items.filterMap TraceItem.event <+: sub.output) :
    ∃ lines fin, (traceNetwork formatBytes agent sub.namespaces duration items).2 = .ok (lines, fin) ∧
      (∃ captured, captured.Sublist (acts.filterMap AgentAction.offered) ∧
        List.Forall₂ (Shows formatBytes sub durationMs items) captured lines) ∧
      ((∀ a ∈ acts, ∀ pod ∈ a.reported, Ascii pod.namespace_ ∧ Ascii pod.name) → fin ≠ .panicked) := by
  obtain ⟨shown, rest, hsplit, hshown, hends⟩ := traceLoop_spec formatBytes durationMs items
  have hloop : (traceNetwork formatBytes agent sub.namespaces duration items).2 =
      .ok (traceLoop formatBytes durationMs items) := by rw [traceNetwork, hduration]
  have hyielded {item : TraceItem} {event : NetworkEvent} (hi : item ∈ items) (he : item.event = some event) :
      event ∈ sub.output := hitems.subset (List.mem_filterMap.2 ⟨item, hi, he⟩)
  refine ⟨_, _, hloop, ?_, ?_⟩
  · have hlines := forall₂_showsItem hshown fun i hi => hsplit ▸ List.mem_append_left rest hi
    have hevents : (shown.filterMap TraceItem.event).Sublist sub.output := by
      refine List.Sublist.trans ?_ hitems.sublist
      rw [hsplit, List.filterMap_append]
      exact List.sublist_append_left _ _
    obtain ⟨puts, hputs, heq⟩ := exists_captured h hsub hevents
    rw [heq, List.forall₂_map_left_iff] at hlines
    refine ⟨_, hputs, List.forall₂_map_left_iff.2 (hlines.imp fun p line hline => ?_)⟩
    have hline' := hline
    obtain ⟨item, hi, -, he, -⟩ := hline'
    exact ⟨(p.1.namespace_, p.1.podName), passes_of_run h hsub (hyielded hi he), hline⟩
  · intro hascii hpanicked
    rw [hpanicked] at hends
    cases hends with
    | panicked item items event hlate hresult hline =>
      have hi : item ∈ shown ++ item :: items := List.mem_append_right _ List.mem_cons_self
      have he : item.event = some event := by rw [TraceItem.event, hresult]; rfl
      have hsent := (sublist_sent_of_run h hsub).subset (hyielded (hsplit ▸ hi) he)
      have hnames := ascii_of_shown ((inv_run_sourced h).2.sent event hsent) hascii
      obtain ⟨line, hsome⟩ := exists_traceLine formatBytes item.time hnames.1 hnames.2
      rw [hline] at hsome
      cases hsome

def demoItems (sub : Subscriber) : List TraceItem := sub.output.map fun event => ⟨5, "12:00:00.000", .ok event⟩

theorem filterMap_demoItems (sub : Subscriber) : (demoItems sub).filterMap TraceItem.event = sub.output := by
  rw [demoItems, List.filterMap_map]
  exact List.filterMap_some

/-- The packet of the demo is printed. -/
theorem printed_of_run_demo :
    (run (step demoEnv) (boot demoEnv true) demoActs).any (fun s => (s.subscribers.lookup 0).any fun sub =>
      (traceLoop (fun _ => "0B") (some 1000) (demoItems sub)).1.length = 1) ∧
      ∀ s sub, run (step demoEnv) (boot demoEnv true) demoActs = some s → s.subscribers.lookup 0 = some sub →
        ∃ lines fin, (traceNetwork (fun _ => "0B") "localhost:9090" sub.namespaces (some "1s") (demoItems sub)).2 =
            .ok (lines, fin) ∧
          (∃ captured, captured.Sublist (demoActs.filterMap AgentAction.offered) ∧
            List.Forall₂ (Shows (fun _ => "0B") sub (some 1000) (demoItems sub)) captured lines) ∧
          ((∀ a ∈ demoActs, ∀ pod ∈ a.reported, Ascii pod.namespace_ ∧ Ascii pod.name) → fin ≠ .panicked) :=
  ⟨by decide, fun s sub h hsub => printed_of_run (fun _ => "0B") demoEnv true demoActs s h 0 sub hsub "localhost:9090"
    (some "1s") (some 1000) (by decide) (demoItems sub) (by rw [filterMap_demoItems])⟩

end Agent

end Orb8
