import Orb8.AgentStatus
import Orb8.Lib.Http
import Orb8.Lib.Str
import Orb8.Lib.Text
import Orb8.Lib.Utf8

/-!
# The health server (`health_server.rs`)

One connection: a single read of at most 4096 bytes, the second word of its first line as the path, and
one response. A request is never rejected: what is no path of the server is answered with 404.
-/

namespace Orb8
open Utf8 Str Http Text

/-- The second word of the first line; the empty text if there is none. -/
def requestPath (request : List Char) : List Char :=
  ((lines request).head?.bind fun line => (splitWhitespace line)[1]?).getD []

/-- The status and the body for a path. -/
def answer (health : HealthState) (path : List Char) : String × String :=
  if path = "/healthz".toList then
    if health.isHealthy then ("200 OK", health.healthMessage)
    else ("503 Service Unavailable", health.healthMessage)
  else if path = "/readyz".toList then
    if health.isReady then ("200 OK", "ready")
    else ("503 Service Unavailable", "not ready: probes not attached")
  else ("404 Not Found", "not found")

def response (status body : String) : String :=
  "HTTP/1.1 " ++ status ++ "\r\nContent-Type: text/plain\r\nContent-Length: " ++ toString body.utf8ByteSize ++
    "\r\nConnection: close\r\n\r\n" ++ body

/-- The task of a connection: `read` is what the one `read` returned, `none` for an error. -/
def respond (health : HealthState) (read : Option (List UInt8)) : Option (List UInt8) :=
  match read with
  | some (b :: bytes) =>
    let request := decodeLossy ((b :: bytes).take 4096)
    let (status, body) := answer health (requestPath request)
    some (encode (response status body).toList)
  | _ => none

/-! ### What the message tells -/

namespace HealthState
variable {h g : HealthState}

def flags (h : HealthState) : Bool × Bool × Bool × Bool :=
  (h.probesAttached, h.flowTableAtCapacity, h.k8sWatcherConnected, h.podCacheAtCapacity)

def counts (h : HealthState) : ℕ × ℕ × ℕ := (h.broadcastDrops, h.flowEvictions, h.podCacheEvictions)

theorem mem_issues {issue : String} : issue ∈ h.issues ↔
    h.probesAttached = false ∧ issue = "probes not attached" ∨
      h.flowTableAtCapacity = true ∧ issue = "flow table at capacity" ∨
      h.k8sWatcherConnected = false ∧ issue = "k8s watcher disconnected" ∨
      h.podCacheAtCapacity = true ∧ issue = "pod cache at capacity" := by
  simp [issues]

theorem issues_eq_iff : h.issues = g.issues ↔ h.flags = g.flags := by
  constructor
  · intro heq
    have hmem (issue : String) : issue ∈ h.issues ↔ issue ∈ g.issues := by rw [heq]
    have hprobes := hmem "probes not attached"
    have htable := hmem "flow table at capacity"
    have hwatcher := hmem "k8s watcher disconnected"
    have hcache := hmem "pod cache at capacity"
    simp [mem_issues] at hprobes htable hwatcher hcache
    simp only [flags, hprobes, htable, hwatcher, hcache]
  · intro hflags
    simp only [flags, Prod.mk.injEq] at hflags
    simp only [issues, hflags]

theorem toList_counters (drops flowEvictions cacheEvictions : ℕ) :
    (counters drops flowEvictions cacheEvictions).toList = "; broadcast_drops=".toList ++
      (Nat.toDigits 10 drops ++ ',' :: (" flow_evictions=".toList ++ (Nat.toDigits 10 flowEvictions ++
        ',' :: (" pod_cache_evictions=".toList ++ Nat.toDigits 10 cacheEvictions)))) := by
  have hflow : ", flow_evictions=".toList = ',' :: " flow_evictions=".toList := by simp
  have hpod : ", pod_cache_evictions=".toList = ',' :: " pod_cache_evictions=".toList := by simp
  unfold counters
  simp only [String.toList_append, hflow, hpod, toList_toString, List.append_assoc, List.cons_append]

theorem counters_inj {n m n' m' n'' m'' : ℕ} (h : counters n n' n'' = counters m m' m'') :
    n = m ∧ n' = m' ∧ n'' = m'' := by
  have hcomma (n : ℕ) : ',' ∉ Nat.toDigits 10 n := notMem_toDigits n (by decide)
  have htext := congrArg String.toList h
  rw [toList_counters, toList_counters] at htext
  obtain ⟨hdrops, htext⟩ := append_cons_inj (hcomma _) (hcomma _) (List.append_cancel_left htext)
  obtain ⟨hflow, htext⟩ := append_cons_inj (hcomma _) (hcomma _) (List.append_cancel_left htext)
  exact ⟨toDigits_inj hdrops, toDigits_inj hflow, toDigits_inj (List.append_cancel_left htext)⟩

theorem counters_ne_empty (n n' n'' : ℕ) : counters n n' n'' ≠ "" := by
  intro h
  have htext := congrArg String.toList h
  rw [toList_counters] at htext
  simp at htext

theorem healthMessage_of_issues_nil (hnil : h.issues = []) : h.healthMessage =
    "OK" ++ if h.counts = (0, 0, 0) then "" else counters h.broadcastDrops h.flowEvictions h.podCacheEvictions := by
  have hz : (decide (h.broadcastDrops > 0) || decide (h.flowEvictions > 0) || decide (h.podCacheEvictions > 0)) = true ↔
      ¬ h.counts = (0, 0, 0) := by
    simp only [Bool.or_eq_true, decide_eq_true_eq, counts, Prod.mk.injEq]
    omega
  rw [healthMessage, hnil, if_pos List.isEmpty_nil]
  by_cases hcounts : h.counts = (0, 0, 0)
  · rw [if_neg fun hpos => hz.1 hpos hcounts, if_pos hcounts, String.append_empty]
  · rw [if_pos (hz.2 hcounts), if_neg hcounts]

/-- With nothing wrong, the message tells the counters. -/
theorem counts_eq_of_healthMessage (hh : h.issues = []) (hg : g.issues = [])
    (heq : h.healthMessage = g.healthMessage) : h.counts = g.counts := by
  rw [healthMessage_of_issues_nil hh, healthMessage_of_issues_nil hg, String.append_right_inj] at heq
  split_ifs at heq with hzero hzero' hzero'
  · rw [hzero, hzero']
  · exact absurd heq.symm (counters_ne_empty _ _ _)
  · exact absurd heq (counters_ne_empty _ _ _)
  · obtain ⟨hdrops, hflow, hcache⟩ := counters_inj heq
    rw [counts, counts, hdrops, hflow, hcache]

theorem toList_healthMessage (hne : h.issues ≠ []) : h.healthMessage.toList =
    (if h.isHealthy then "DEGRADED" else "UNHEALTHY").toList ++
      ':' :: (' ' :: [';', ' '].intercalate (h.issues.map String.toList)) := by
  have hcolon : ": ".toList = [':', ' '] := by simp
  have hsep : "; ".toList = [';', ' '] := by simp
  rw [healthMessage, if_neg (by simpa using hne)]
  simp only [String.toList_append, hcolon, String.toList_intercalate, hsep, List.append_assoc, List.cons_append, List.nil_append]

theorem notMem_healthMessage (hnil : h.issues = []) : ':' ∉ h.healthMessage.toList := by
  have hcolon (n : ℕ) : ':' ∉ Nat.toDigits 10 n := notMem_toDigits n (by decide)
  rw [healthMessage_of_issues_nil hnil, String.toList_append, List.mem_append, not_or]
  refine ⟨by simp, ?_⟩
  split
  · simp
  · rw [toList_counters]
    simp [hcolon]

/-- With something wrong, the message tells what. -/
theorem issues_eq_of_healthMessage (hh : h.issues ≠ []) (hg : g.issues ≠ []) (heq : h.healthMessage = g.healthMessage) :
    h.issues = g.issues := by
  have hsemi (k : HealthState) : ∀ p ∈ k.issues.map String.toList, ';' ∉ p := by
    rw [List.forall_mem_map]
    intro issue hmem
    rcases mem_issues.1 hmem with ⟨-, rfl⟩ | ⟨-, rfl⟩ | ⟨-, rfl⟩ | ⟨-, rfl⟩ <;> simp
  have hseverity (k : HealthState) : ':' ∉ (if k.isHealthy then "DEGRADED" else "UNHEALTHY").toList := by
    split <;> simp
  have htext := congrArg String.toList heq
  rw [toList_healthMessage hh, toList_healthMessage hg] at htext
  have htail := (append_cons_inj (hseverity h) (hseverity g) htext).2
  have hpieces := intercalate_inj (hsemi h) (hsemi g) (by simpa using hh) (by simpa using hg) (List.cons.inj htail).2
  exact List.map_injective_iff.2 (fun a b => String.toList_inj.1) hpieces

/-- The message tells which of the four flags are set, and the counters as long as nothing is wrong. -/
theorem healthMessage_eq_iff : h.healthMessage = g.healthMessage ↔
    h.flags = g.flags ∧ (h.issues = [] → h.counts = g.counts) := by
  have hcolon (k : HealthState) : ':' ∈ k.healthMessage.toList ↔ k.issues ≠ [] := by
    refine ⟨fun hmem hnil => notMem_healthMessage hnil hmem, fun hne => ?_⟩
    rw [toList_healthMessage hne]
    exact List.mem_append_right _ List.mem_cons_self
  constructor
  · intro heq
    have hboth : h.issues ≠ [] ↔ g.issues ≠ [] := by rw [← hcolon, ← hcolon, heq]
    rw [← issues_eq_iff]
    by_cases hh : h.issues = []
    · have hg : g.issues = [] := by_contra fun hg => hboth.2 hg hh
      exact ⟨hh.trans hg.symm, fun _ => counts_eq_of_healthMessage hh hg heq⟩
    · exact ⟨issues_eq_of_healthMessage hh (hboth.1 hh) heq, fun hnil => absurd hnil hh⟩
  · rintro ⟨hflags, hcounts⟩
    have hissues := issues_eq_iff.2 hflags
    by_cases hh : h.issues = []
    · have heq := hcounts hh
      simp only [counts, Prod.mk.injEq] at heq
      rw [healthMessage_of_issues_nil hh, healthMessage_of_issues_nil (hissues ▸ hh), hcounts hh, heq.1, heq.2.1, heq.2.2]
    · simp only [flags, Prod.mk.injEq] at hflags
      rw [← String.toList_inj, toList_healthMessage hh, toList_healthMessage (hissues ▸ hh), hissues, isHealthy,
        isHealthy, hflags.1, hflags.2.1]

end HealthState
/-! ### What a client reads -/

/-- The response, as a message. -/
def reply (status body : String) : Message where
  start := ("HTTP/1.1 " ++ status).toList
  headers := ["Content-Type: text/plain", "Content-Length: " ++ toString body.utf8ByteSize,
    "Connection: close"].map String.toList
  body := body.toList

/-- A client reads the status and the body from the bytes, and is told the length of the body. -/
structure Conveys (out : List UInt8) (status body : String) : Prop where
  message : readMessage (decodeLossy out) = some (reply status body)
  length : ∃ digits, (reply status body).field "Content-Length".toList = some digits ∧ IsDigits digits ∧
    decimal digits = (encode (reply status body).body).length

theorem toList_response (status body : String) : (response status body).toList = (reply status body).render := by
  have htype : "\r\nContent-Type: text/plain\r\nContent-Length: ".toList =
      CRLF ++ ("Content-Type: text/plain".toList ++ (CRLF ++ "Content-Length: ".toList)) := by simp [CRLF]
  have hclose : "\r\nConnection: close\r\n\r\n".toList = CRLF ++ ("Connection: close".toList ++ (CRLF ++ CRLF)) := by
    simp [CRLF]
  simp only [response, String.toList_append, htype, hclose, reply, Message.render, renderHeaders, List.map_cons,
    List.map_nil, List.append_assoc]

theorem wellFormed_reply {status : String} (h : '\r' ∉ status.toList) (body : String) :
    (reply status body).WellFormed where
  start := by
    have hversion : '\r' ∉ "HTTP/1.1 ".toList := by simp
    simp only [reply, String.toList_append, List.mem_append, not_or]
    exact ⟨hversion, h⟩
  headers := by
    have hdigits : '\r' ∉ (toString body.utf8ByteSize).toList := by
      rw [toList_toString]
      exact notMem_toDigits _ (by decide)
    have hlength : '\r' ∉ "Content-Length: ".toList := by simp
    simp only [reply, List.forall_mem_map, List.forall_mem_cons]
    refine ⟨by simp, ⟨by simp, ?_⟩, by simp, by simp⟩
    rw [String.toList_append, List.mem_append, not_or]
    exact ⟨hlength, hdigits⟩

theorem contentLength_reply (status body : String) :
    (reply status body).field "Content-Length".toList = some (Nat.toDigits 10 body.utf8ByteSize) := by
  have hskip : ¬ "Content-Length".toList ++ [':', ' '] <+: "Content-Type: text/plain".toList := by simp
  have hname : "Content-Length: ".toList = "Content-Length".toList ++ [':', ' '] := by simp
  simp only [reply, Message.field, List.map_cons, String.toList_append, List.findSome?_cons, if_neg hskip, hname,
    if_pos (List.prefix_append _ _), toList_toString]
  rw [List.drop_left' (by rw [List.length_append]; rfl)]

theorem conveys_response {status : String} (h : '\r' ∉ status.toList) (body : String) :
    Conveys (encode (response status body).toList) status body where
  message := by rw [decodeLossy_encode, toList_response, readMessage_render (wellFormed_reply h body)]
  length := by
    have hparse := parseUint_eq_some_iff.1 (parseUint_toDigits (Nat.le_refl body.utf8ByteSize))
    rw [unsignedDigits_toDigits] at hparse
    exact ⟨_, contentLength_reply status body, hparse.1, hparse.2.1.trans (length_encode body).symm⟩

theorem notMem_status (health : HealthState) (path : List Char) : '\r' ∉ (answer health path).1.toList := by
  unfold answer
  split_ifs <;> simp

theorem respond_of_ne_nil (health : HealthState) {bytes : List UInt8} (h : bytes ≠ []) :
    respond health (some bytes) = some (encode (response
      (answer health (requestPath (decodeLossy (bytes.take 4096)))).1
      (answer health (requestPath (decodeLossy (bytes.take 4096)))).2).toList) := by
  obtain ⟨b, bytes, rfl⟩ := List.exists_cons_of_ne_nil h
  rfl

/-- Whatever has been read, something is answered, and it can be read. -/
theorem conveys_respond (health : HealthState) {bytes : List UInt8} (h : bytes ≠ []) :
    ∃ out, respond health (some bytes) = some out ∧
      Conveys out (answer health (requestPath (decodeLossy (bytes.take 4096)))).1
        (answer health (requestPath (decodeLossy (bytes.take 4096)))).2 :=
  ⟨_, respond_of_ne_nil health h, conveys_response (notMem_status health _) _⟩

/-- The bytes begin with a request; its method and its target lie in the part that is read. -/
structure Asks (bytes : List UInt8) (method target : List Char) : Prop where
  isWord_method : IsWord method
  isWord_target : IsWord target
  begins : ∃ space rest, isWhitespace space = true ∧ bytes = encode (method ++ ' ' :: (target ++ [space])) ++ rest ∧
    (encode (method ++ ' ' :: (target ++ [space]))).length ≤ 4096

theorem Asks.requestPath {bytes : List UInt8} {method target : List Char} (h : Asks bytes method target) :
    requestPath (decodeLossy (bytes.take 4096)) = target := by
  obtain ⟨hm, ht, space, rest, hs, rfl, hlen⟩ := h
  rw [List.take_append, List.take_of_length_le hlen, decodeLossy_encode_append, List.append_assoc, List.cons_append,
    List.append_assoc, Orb8.requestPath, second_word hm ht fun c hc => by obtain rfl := Option.some.inj hc; exact hs]
  rfl

theorem Asks.ne_nil {bytes : List UInt8} {method target : List Char} (h : Asks bytes method target) : bytes ≠ [] := by
  obtain ⟨hm, -, space, rest, -, rfl, -⟩ := h
  intro hnil
  have hdecode := decodeLossy_encode_append (method ++ ' ' :: (target ++ [space])) rest
  rw [hnil] at hdecode
  exact hm.ne_nil (List.append_eq_nil_iff.1 (List.append_eq_nil_iff.1 hdecode.symm).1).1

/-- Whatever is read, the answer can be read by a client, and a request is answered by its target, whatever
follows it: other headers, a body, bytes that are no text. -/
theorem respond_of_read (health : HealthState) (bytes : List UInt8) (h : bytes ≠ []) :
    ∃ out path, respond health (some bytes) = some out ∧ Conveys out (answer health path).1 (answer health path).2 ∧
      ∀ method target, Asks bytes method target → path = target := by
  obtain ⟨out, hout, hconveys⟩ := conveys_respond health h
  exact ⟨out, _, hout, hconveys, fun _ _ hasks => hasks.requestPath⟩

def getReadyz : List UInt8 := encode ("GET".toList ++ ' ' :: ("/readyz".toList ++ [' '])) ++ [0xFF, 0xC0]

theorem asks_getReadyz : Asks getReadyz "GET".toList "/readyz".toList where
  isWord_method := ⟨by simp, by simp; decide⟩
  isWord_target := ⟨by simp, by simp; decide⟩
  begins := ⟨' ', [0xFF, 0xC0], by decide, rfl, by decide⟩

theorem respond_of_read_demo : Asks getReadyz "GET".toList "/readyz".toList ∧
    ∃ out path, respond HealthState.new (some getReadyz) = some out ∧
      Conveys out (answer HealthState.new path).1 (answer HealthState.new path).2 ∧
      ∀ method target, Asks getReadyz method target → path = target :=
  ⟨asks_getReadyz, respond_of_read HealthState.new getReadyz asks_getReadyz.ne_nil⟩

theorem Conveys.body_eq {out : List UInt8} {status status' body body' : String} (h : Conveys out status body)
    (h' : Conveys out status' body') : body = body' := by
  have hreply := Option.some.inj (h.message.symm.trans h'.message)
  exact String.toList_inj.1 (congrArg Message.body hreply)

theorem answer_healthz (health : HealthState) : answer health "/healthz".toList =
    (if health.isHealthy then "200 OK" else "503 Service Unavailable", health.healthMessage) := by
  rw [answer, if_pos rfl]
  split <;> rfl

/-- The bytes that a request for `/healthz` is answered with tell which of the four flags are set, and the
counters as long as nothing is wrong; they tell no more. -/
theorem respond_healthz_eq_iff (h g : HealthState) (bytes : List UInt8) (method : List Char)
    (hasks : Asks bytes method "/healthz".toList) : respond h (some bytes) = respond g (some bytes) ↔
      h.flags = g.flags ∧ (h.issues = [] → h.counts = g.counts) := by
  rw [← HealthState.healthMessage_eq_iff]
  constructor
  · intro heq
    obtain ⟨out, hout, hconveys⟩ := conveys_respond h hasks.ne_nil
    obtain ⟨out', hout', hconveys'⟩ := conveys_respond g hasks.ne_nil
    obtain rfl := Option.some.inj (hout.symm.trans (heq.trans hout'))
    have hbody := hconveys.body_eq hconveys'
    rwa [hasks.requestPath, answer_healthz, answer_healthz] at hbody
  · intro hmessage
    have hflags := (HealthState.healthMessage_eq_iff.1 hmessage).1
    simp only [HealthState.flags, Prod.mk.injEq] at hflags
    have hhealthy : h.isHealthy = g.isHealthy := by rw [HealthState.isHealthy, HealthState.isHealthy, hflags.1, hflags.2.1]
    rw [respond_of_ne_nil h hasks.ne_nil, respond_of_ne_nil g hasks.ne_nil, hasks.requestPath, answer_healthz,
      answer_healthz, hmessage, hhealthy]

def getHealthz : List UInt8 := encode ("GET".toList ++ ' ' :: ("/healthz".toList ++ ['\r']))

theorem asks_getHealthz : Asks getHealthz "GET".toList "/healthz".toList where
  isWord_method := ⟨by simp, by simp; decide⟩
  isWord_target := ⟨by simp, by simp; decide⟩
  begins := ⟨'\r', [], by decide, (List.append_nil _).symm, by decide⟩

/-- The flow table comes under pressure, unseen in the counters. -/
theorem respond_healthz_eq_iff_demo :
    respond HealthState.new (some getHealthz) =
        respond (HealthState.new.setFlowTableAtCapacity true) (some getHealthz) ↔
      HealthState.new.flags = (HealthState.new.setFlowTableAtCapacity true).flags ∧ (HealthState.new.issues = [] →
        HealthState.new.counts = (HealthState.new.setFlowTableAtCapacity true).counts) :=
  respond_healthz_eq_iff HealthState.new (HealthState.new.setFlowTableAtCapacity true) getHealthz "GET".toList
    asks_getHealthz

/-! ### The probes of the agent -/

theorem answer_ok_iff {health : HealthState} {path : List Char} : (answer health path).1 = "200 OK" ↔
    path = "/healthz".toList ∧ health.isHealthy = true ∨ path = "/readyz".toList ∧ health.isReady = true := by
  have hne : "/readyz".toList ≠ "/healthz".toList := by simp
  unfold answer
  split_ifs with hhealthz hhealthy hreadyz hready
  · exact iff_of_true rfl (.inl ⟨hhealthz, hhealthy⟩)
  · refine iff_of_false (by simp) ?_
    rintro (⟨-, h⟩ | ⟨h, -⟩)
    · exact hhealthy h
    · exact hne (h.symm.trans hhealthz)
  · exact iff_of_true rfl (.inr ⟨hreadyz, hready⟩)
  · refine iff_of_false (by simp) ?_
    rintro (⟨h, -⟩ | ⟨-, h⟩)
    · exact hhealthz h
    · exact hready h
  · refine iff_of_false (by simp) ?_
    rintro (⟨h, -⟩ | ⟨h, -⟩)
    · exact hhealthz h
    · exact hreadyz h

namespace Agent
open Trace SharedCell

end Agent

end Orb8
