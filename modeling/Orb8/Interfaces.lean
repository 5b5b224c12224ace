import Orb8.Lib.Str
import Mathlib.Data.Finset.Basic

/-!
# Which interfaces are probed (`probe_loader.rs`)

`discoverInterfaces` puts together the interface of the default route, a container bridge and a bridge
of Docker, and `attachToInterfaces` attaches both programs to each interface of the list. What the
system answers is a parameter: `NetEnv` is what discovery reads, `Ebpf` how loading and attaching
turn out. A bridge that carries the default route is found by the first two stages, and the second
does not look whether it is in the list.
-/

namespace Orb8

/-! ### Discovery -/

/-- The network configuration as the agent finds it. -/
structure NetEnv where
  /-- The text of `/proc/net/route`, if it can be read. -/
  route : Option String
  /-- The names under `/sys/class/net` that exist. -/
  interfaces : Finset String
  /-- The entries of `/sys/class/net` in the order they are read, if the directory can be read. -/
  netDir : Option (List String)

def interfaceExists (env : NetEnv) (name : String) : Bool := name ∈ env.interfaces

/-- The interface of a line of the routing table, if its destination is `0.0.0.0` and it is not `lo`. -/
def defaultRouteOf (line : List Char) : Option String :=
  match Str.splitWhitespace line with
  | iface :: destination :: _ =>
    if destination = "00000000".toList ∧ iface ≠ "lo".toList then some (String.ofList iface) else none
  | _ => none

/-- The first line of the table is its heading. -/
def getDefaultRouteInterface (env : NetEnv) : Option String := do
  let routeContent ← env.route
  ((Str.lines routeContent.toList).drop 1).findSome? defaultRouteOf

/-- The first of the usual container bridges that exists. -/
def findContainerBridge (env : NetEnv) : Option String :=
  ["cni0", "docker0", "cbr0"].find? (interfaceExists env)

def findDockerBridge (env : NetEnv) : Option String :=
  (env.netDir.getD []).find? fun name => "br-".toList <+: name.toList

/-- The stages push onto one list, in this order. -/
def discoverInterfaces (env : NetEnv) : List String :=
  let interfaces := match getDefaultRouteInterface env with
    | some primary => [primary]
    | none => if interfaceExists env "eth0" then ["eth0"] else []
  let interfaces := match findContainerBridge env with
    | some bridge => interfaces ++ [bridge]
    | none => interfaces
  let interfaces := match findDockerBridge env with
    | some dockerBridge => if dockerBridge ∈ interfaces then interfaces else interfaces ++ [dockerBridge]
    | none => interfaces
  if interfaces = [] then ["lo"] else interfaces

/-! ### Attaching -/

inductive TcAttachType where
  | ingress
  | egress
deriving DecidableEq

structure Attachment where
  iface : String
  attachType : TcAttachType
deriving DecidableEq

/-- The answers of the eBPF object and of the kernel. -/
structure Ebpf where
  /-- Whether a program is in the object, and whether it is a classifier and loads. -/
  program : String → Option (Except String Unit)
  /-- Whether one more attachment succeeds, given those there are. -/
  attach : List Attachment → Attachment → Bool

/-- The loop over the interfaces, on the attachments made so far. A failure is only logged. -/
def attachAll (bpf : Ebpf) (attachType : TcAttachType) : List String → List Attachment → List Attachment
  | [], attached => attached
  | iface :: interfaces, attached =>
    if bpf.attach attached ⟨iface, attachType⟩ then
      attachAll bpf attachType interfaces (attached ++ [⟨iface, attachType⟩])
    else attachAll bpf attachType interfaces attached

/-- One of the two blocks: look the program up, load it, attach it everywhere. -/
def attachProgram (bpf : Ebpf) (name : String) (attachType : TcAttachType) (interfaces : List String)
    (attached : List Attachment) : Except String Unit × List Attachment :=
  match bpf.program name with
  | none => (.error s!"{name} program not found in eBPF object", attached)
  | some (.error e) => (.error e, attached)
  | some (.ok ()) => (.ok (), attachAll bpf attachType interfaces attached)

/-- The result, and the attachments there are afterwards. -/
def attachToInterfaces (bpf : Ebpf) (interfaces : List String) : Except String Unit × List Attachment :=
  match attachProgram bpf "network_probe" .ingress interfaces [] with
  | (.error e, attached) => (.error e, attached)
  | (.ok (), attached) => attachProgram bpf "network_probe_egress" .egress interfaces attached

/-- How many programs count a packet that passes `iface` in the direction of `attachType`. -/
def probes (bpf : Ebpf) (env : NetEnv) (iface : String) (attachType : TcAttachType) : Nat :=
  (attachToInterfaces bpf (discoverInterfaces env)).2.count ⟨iface, attachType⟩

/-- Something is probed and nothing is probed twice, however attaching turns out. -/
structure ProbedOnce (env : NetEnv) : Prop where
  nonempty : discoverInterfaces env ≠ []
  nodup : (discoverInterfaces env).Nodup
  atMostOnce : ∀ bpf iface attachType, probes bpf env iface attachType ≤ 1

/-! ### Nothing is attached twice to a list without duplicates -/

section
variable {env : NetEnv} {primary : String}

theorem attachAll_append (bpf : Ebpf) (attachType : TcAttachType) (interfaces : List String)
    (attached : List Attachment) : ∃ made, attachAll bpf attachType interfaces attached = attached ++ made ∧
      List.Sublist made (interfaces.map (⟨·, attachType⟩)) := by
  induction interfaces generalizing attached with
  | nil => exact ⟨[], (List.append_nil attached).symm, List.Sublist.refl []⟩
  | cons iface interfaces ih =>
    rw [attachAll]
    split
    · obtain ⟨made, heq, hsub⟩ := ih (attached ++ [⟨iface, attachType⟩])
      exact ⟨⟨iface, attachType⟩ :: made, by rw [heq, List.append_assoc, List.singleton_append], hsub.cons_cons _⟩
    · obtain ⟨made, heq, hsub⟩ := ih attached
      exact ⟨made, heq, hsub.cons _⟩

theorem attachProgram_append (bpf : Ebpf) (name : String) (attachType : TcAttachType) (interfaces : List String)
    (attached : List Attachment) :
    ∃ made, (attachProgram bpf name attachType interfaces attached).2 = attached ++ made ∧
      List.Sublist made (interfaces.map (⟨·, attachType⟩)) := by
  unfold attachProgram
  split
  · exact ⟨[], (List.append_nil attached).symm, List.nil_sublist _⟩
  · exact ⟨[], (List.append_nil attached).symm, List.nil_sublist _⟩
  · exact attachAll_append bpf attachType interfaces attached

theorem attachToInterfaces_sublist (bpf : Ebpf) (interfaces : List String) :
    List.Sublist (attachToInterfaces bpf interfaces).2
      (interfaces.map (⟨·, .ingress⟩) ++ interfaces.map (⟨·, .egress⟩)) := by
  obtain ⟨made, heq, hsub⟩ := attachProgram_append bpf "network_probe" .ingress interfaces []
  rw [List.nil_append] at heq
  unfold attachToInterfaces
  split
  · rename_i e attached hprogram
    obtain rfl : attached = made := by rw [← heq, hprogram]
    exact hsub.trans (List.sublist_append_left _ _)
  · rename_i attached hprogram
    obtain rfl : attached = made := by rw [← heq, hprogram]
    obtain ⟨made', heq', hsub'⟩ := attachProgram_append bpf "network_probe_egress" .egress interfaces attached
    rw [heq']
    exact hsub.append hsub'

theorem probes_le_one (h : (discoverInterfaces env).Nodup) (bpf : Ebpf) (iface : String)
    (attachType : TcAttachType) : probes bpf env iface attachType ≤ 1 := by
  have hmap (t : TcAttachType) : ((discoverInterfaces env).map (Attachment.mk · t)).Nodup :=
    h.map fun _ _ heq => congrArg Attachment.iface heq
  have hall := (hmap .ingress).append (hmap .egress) (by
    intro a hin hout
    obtain ⟨_, -, rfl⟩ := List.mem_map.1 hin
    obtain ⟨_, -, heq⟩ := List.mem_map.1 hout
    cases congrArg Attachment.attachType heq)
  exact List.nodup_iff_count_le_one.1 ((attachToInterfaces_sublist bpf _).nodup hall) _

/-! ### When discovery finds an interface twice -/

/-- What the first two stages push. -/
def pushedUnchecked (env : NetEnv) : List String :=
  (match getDefaultRouteInterface env with
    | some primary => [primary]
    | none => if interfaceExists env "eth0" then ["eth0"] else []) ++ (findContainerBridge env).toList

/-- What the third stage pushes. -/
def pushedChecked (env : NetEnv) : List String :=
  (findDockerBridge env).toList.filter fun name => name ∉ pushedUnchecked env

theorem discoverInterfaces_eq (env : NetEnv) : discoverInterfaces env =
    if pushedUnchecked env ++ pushedChecked env = [] then ["lo"]
    else pushedUnchecked env ++ pushedChecked env := by
  have hthird : pushedUnchecked env ++ pushedChecked env = match findDockerBridge env with
      | some dockerBridge => if dockerBridge ∈ pushedUnchecked env then pushedUnchecked env
        else pushedUnchecked env ++ [dockerBridge]
      | none => pushedUnchecked env := by
    unfold pushedChecked
    cases findDockerBridge env with
    | none => simp
    | some dockerBridge =>
      by_cases hmem : dockerBridge ∈ pushedUnchecked env
      · simp [hmem]
      · simp [hmem]
  have hsecond : pushedUnchecked env = match findContainerBridge env with
      | some bridge => (match getDefaultRouteInterface env with
        | some primary => [primary]
        | none => if interfaceExists env "eth0" then ["eth0"] else []) ++ [bridge]
      | none => match getDefaultRouteInterface env with
        | some primary => [primary]
        | none => if interfaceExists env "eth0" then ["eth0"] else [] := by
    unfold pushedUnchecked
    cases findContainerBridge env with
    | none => exact List.append_nil _
    | some bridge => rfl
  rw [hthird]
  unfold discoverInterfaces
  rw [hsecond]

theorem discoverInterfaces_ne_nil (env : NetEnv) : discoverInterfaces env ≠ [] := by
  rw [discoverInterfaces_eq]
  split
  · exact List.cons_ne_nil "lo" []
  · assumption

theorem discoverInterfaces_nodup_iff (env : NetEnv) :
    (discoverInterfaces env).Nodup ↔ (pushedUnchecked env).Nodup := by
  rw [discoverInterfaces_eq]
  split
  · rename_i hnil
    rw [(List.append_eq_nil_iff.1 hnil).1]
    exact iff_of_true (List.nodup_singleton "lo") List.nodup_nil
  · have hchecked : (pushedChecked env).Nodup := List.Nodup.filter _ (by
      cases findDockerBridge env with
      | none => exact List.nodup_nil
      | some dockerBridge => exact List.nodup_singleton dockerBridge)
    have hnew : List.Disjoint (pushedUnchecked env) (pushedChecked env) := by
      intro name hname hname'
      have := (List.mem_filter.1 hname').2
      simp [hname] at this
    rw [List.nodup_append']
    exact ⟨And.left, fun h => ⟨h, hchecked, hnew⟩⟩

theorem pushedUnchecked_nodup_iff (env : NetEnv) : (pushedUnchecked env).Nodup ↔
    ∀ primary, getDefaultRouteInterface env = some primary → findContainerBridge env ≠ some primary := by
  unfold pushedUnchecked
  cases hbridge : findContainerBridge env with
  | none =>
    refine iff_of_true ?_ (fun _ _ h => nomatch h)
    rw [Option.toList_none, List.append_nil]
    split
    · exact List.nodup_singleton _
    · split
      · exact List.nodup_singleton _
      · exact List.nodup_nil
  | some bridge =>
    cases hroute : getDefaultRouteInterface env with
    | some primary => simp [eq_comm]
    | none =>
      refine iff_of_true ?_ (fun _ h => nomatch h)
      have hmem : bridge ∈ ["cni0", "docker0", "cbr0"] := List.mem_of_find?_eq_some hbridge
      have hne : "eth0" ≠ bridge := by
        rintro rfl
        exact absurd hmem (by decide)
      by_cases heth : interfaceExists env "eth0" = true
      · simp [heth, hne]
      · simp [heth]

/-- Every interface is probed once unless the default route goes through the container bridge that the
second stage finds. -/
theorem probedOnce_iff (env : NetEnv) : ProbedOnce env ↔
    ∀ primary, getDefaultRouteInterface env = some primary → findContainerBridge env ≠ some primary := by
  rw [← pushedUnchecked_nodup_iff, ← discoverInterfaces_nodup_iff]
  exact ⟨ProbedOnce.nodup, fun h => ⟨discoverInterfaces_ne_nil env, h, probes_le_one h⟩⟩

/-- A host whose default route goes through `docker0`: both programs are attached to it twice. -/
theorem not_probedOnce :
    let env : NetEnv :=
      { route := some "Iface\tDestination\tGateway\ndocker0\t00000000\t010011AC\n"
        interfaces := {"lo", "docker0"}
        netDir := some ["lo", "docker0"] }
    let bpf : Ebpf := { program := fun _ => some (.ok ()), attach := fun _ _ => true }
    ¬ ProbedOnce env ∧ ∀ attachType, probes bpf env "docker0" attachType = 2 := by
  intro env bpf
  have hlist : discoverInterfaces env = ["docker0", "docker0"] := by decide
  have htwice (attachType : TcAttachType) : probes bpf env "docker0" attachType = 2 := by
    rw [probes, hlist]
    cases attachType <;> decide
  refine ⟨fun h => ?_, htwice⟩
  exact absurd (h.atMostOnce bpf "docker0" .ingress) (by rw [htwice]; decide)

end

end Orb8
